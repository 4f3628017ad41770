import FixtureCheck.Host
import FixtureCheck.Proofs.Except

/-!
# Actions on machines

An action that may fail comes to a result and leaves a machine (`outcome`); the lemmas say so for each way in which
actions are put together. Most actions of a command only load something (`Loads`): they print nothing, and what they
give has a property.
-/

namespace FixtureCheck

open Storage (FileError Path)

variable {ε ε' α β : Type} {P : α → Prop} {Q : β → Prop}

/-- What an action comes to on a machine, and the machine after it. -/
def outcome (action : ExceptT ε (StateM Machine) α) (machine : Machine) : Except ε α × Machine :=
  (action.run.run machine : Id _)

theorem outcome_ofExcept (y : Except ε α) (s : Machine) :
    outcome (MonadExcept.ofExcept y : ExceptT ε (StateM Machine) α) s = (y, s) := by
  cases y <;> rfl

/-- What comes behind an action that fails is left out. -/
theorem outcome_bind (x : ExceptT ε (StateM Machine) α) (f : α → ExceptT ε (StateM Machine) β) (s : Machine) :
    outcome (x >>= f) s = match outcome x s with
      | (.ok a, s') => outcome (f a) s'
      | (.error e, s') => (.error e, s') := by
  unfold outcome
  rw [ExceptT.run_bind, StateT.run_bind]
  rcases (x.run.run s : Id _) with ⟨e | a, s'⟩
  · rfl
  · rfl

theorem outcome_adapt (g : ε → ε') (x : ExceptT ε (StateM Machine) α) (s : Machine) :
    outcome (x.adapt g) s = ((outcome x s).1.mapError g, (outcome x s).2) := rfl

theorem outcome_has (p : Path) (s : Machine) :
    outcome (Host.has p : ExceptT ε (StateM Machine) _) s = (.ok (s.files.has p), s) := rfl

/-- A text is read with the line ends of any system. -/
theorem outcome_readText (path : String) (s : Machine) :
    outcome (readText path : ExceptT ε (StateM Machine) _) s =
      (.ok ((s.files.read path).map fun text => String.ofList (unifyLineEnds text.toList)), s) := rfl

/-! ## Loading -/

/-- **Does the action only load something?** It prints nothing, and what it gives has a property. -/
structure Loads (action : ExceptT ε (StateM Machine) α) (P : α → Prop) : Prop where
  printed : ∀ s, (outcome action s).2.printed = s.printed
  result : ∀ s a, (outcome action s).1 = .ok a → P a

namespace Loads

variable {x : ExceptT ε (StateM Machine) α} {f : α → ExceptT ε (StateM Machine) β}

theorem ofExcept {y : Except ε α} (h : ∀ a, y = .ok a → P a) :
    Loads (MonadExcept.ofExcept y : ExceptT ε (StateM Machine) α) P where
  printed s := by rw [outcome_ofExcept]
  result s a ha := h a (by rwa [outcome_ofExcept] at ha)

theorem pure {a : α} (h : P a) : Loads (pure a : ExceptT ε (StateM Machine) α) P :=
  ofExcept (y := .ok a) (by rintro _ ⟨⟩; exact h)

theorem throw (e : ε) : Loads (throw e : ExceptT ε (StateM Machine) α) P :=
  ofExcept (y := .error e) (by rintro _ ⟨⟩)

theorem bind (hx : Loads x P) (hf : ∀ a, P a → Loads (f a) Q) : Loads (x >>= f) Q where
  printed s := by
    have hp := hx.printed s
    rw [outcome_bind]
    rcases h : outcome x s with ⟨e | a, s'⟩ <;> rw [h] at hp
    · exact hp
    · exact ((hf a (hx.result s a (congrArg Prod.fst h))).printed s').trans hp
  result s b hb := by
    rw [outcome_bind] at hb
    rcases h : outcome x s with ⟨e | a, s'⟩ <;> rw [h] at hb
    · cases hb
    · exact (hf a (hx.result s a (congrArg Prod.fst h))).result s' b hb

theorem throw_bind (e : ε) : Loads (MonadExcept.throw e >>= f) Q :=
  bind (throw e (P := fun _ => False)) fun _ h => h.elim

theorem adapt (g : ε → ε') (hx : Loads x P) : Loads (x.adapt g) P where
  printed s := hx.printed s
  result s a ha := hx.result s a (mapError_eq_ok_iff.1 ha)

/-- What a machine does by itself never fails. -/
theorem lift {y : StateM Machine α} (h : ∀ s, (y.run s).2.printed = s.printed) :
    Loads (ExceptT.lift y : ExceptT ε (StateM Machine) α) fun _ => True where
  printed := h
  result _ _ _ := trivial

theorem home : Loads (Host.home : ExceptT ε (StateM Machine) _) fun _ => True := lift fun _ => rfl

theorem now : Loads (Host.now : ExceptT ε (StateM Machine) _) fun _ => True := lift fun _ => rfl

theorem has (p : Path) : Loads (Host.has p : ExceptT ε (StateM Machine) _) fun _ => True := lift fun _ => rfl

theorem readText (path : String) : Loads (readText path : ExceptT ε (StateM Machine) _) fun _ => True :=
  bind (lift fun _ => rfl) fun _ _ => pure trivial

theorem printed_setFiles (outcome : Except FileError Storage.FileTree) (s : Machine) :
    ((Machine.setFiles outcome).run s).2.printed = s.printed := by
  cases outcome <;> rfl

theorem post (request : Post) : Loads (Host.post request : ExceptT ε (StateM Machine) _) fun _ => True :=
  lift fun s => by
    show (Machine.answer request s).2.printed = _
    unfold Machine.answer
    dsimp only
    split <;> rfl

end Loads

end FixtureCheck
