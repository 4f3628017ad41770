import FixtureCheck.Proofs.Walk.Met
import Mathlib.Data.List.Forall2

/-!
# What a run makes of a scope

A run that is not cut off adds to an expectation: keys (`mem_common_run`, `expects_run`), sets of types
(`mem_possible_run`) and the scopes of the fields with selections of their own (`children_run`). All of it can be told
from the steps. The objects and the key of the expectation stay as they are.
-/

namespace FixtureCheck.Fixture

open GraphQL (Schema Field Selection OutputField)

namespace Expectation

variable {e : Expectation} {key k : String} {condition : Option String} {possible P : NameSet}

/-! ## Taking note of keys -/

theorem mem_map_possible_recordTyped (key condition : String) (possible P : NameSet) : ∀ {entries : List TypedFields},
    P ∈ (recordTyped key condition possible entries).map (·.possible) ↔ P ∈ entries.map (·.possible) ∨ P = possible
  | [] => by simp [recordTyped]
  | entry :: rest => by
    have ih := @mem_map_possible_recordTyped key condition possible P rest
    rw [recordTyped]
    split
    · rename_i he
      simp only [List.map_cons, List.mem_cons, he]
      tauto
    · simp only [List.map_cons, List.mem_cons, ih]
      tauto

theorem nodup_map_possible_recordTyped (key condition : String) (possible : NameSet) : ∀ {entries : List TypedFields},
    (entries.map (·.possible)).Nodup → ((recordTyped key condition possible entries).map (·.possible)).Nodup
  | [], _ => by simp [recordTyped]
  | entry :: rest, h => by
    rw [recordTyped]
    split
    · exact h
    · rename_i hne
      obtain ⟨hn, hr⟩ := List.nodup_cons.1 h
      refine List.nodup_cons.2 ⟨fun hm => ?_, nodup_map_possible_recordTyped key condition possible hr⟩
      rcases (mem_map_possible_recordTyped key condition possible entry.possible).1 hm with hm | he
      · exact hn hm
      · exact hne he

/-- Does an entry of a set of types hold a key? -/
def Expects (entries : List TypedFields) (P : NameSet) (k : String) : Prop :=
  ∃ entry ∈ entries, entry.possible = P ∧ k ∈ entry.fields

theorem expects_cons {entry : TypedFields} {rest : List TypedFields} :
    Expects (entry :: rest) P k ↔ entry.possible = P ∧ k ∈ entry.fields ∨ Expects rest P k := by
  simp [Expects]

theorem expects_recordTyped (key condition : String) (possible : NameSet) : ∀ {entries : List TypedFields},
    Expects (recordTyped key condition possible entries) P k ↔ Expects entries P k ∨ possible = P ∧ key = k
  | [] => by simp [Expects, recordTyped, eq_comm]
  | entry :: rest => by
    rw [recordTyped]
    split
    · rename_i he
      subst he
      simp only [expects_cons, NameSet.mem_insert, eq_comm (a := k)]
      tauto
    · rw [expects_cons, expects_cons, expects_recordTyped key condition possible]
      tauto

theorem mem_common_record :
    k ∈ (e.record key condition possible).common ↔ k ∈ e.common ∨ condition = none ∧ key = k := by
  cases condition with
  | none => simp [record, or_comm, eq_comm]
  | some c => simp [record]

theorem mem_map_possible_record : P ∈ ((e.record key condition possible).byType.map (·.possible)) ↔
    P ∈ e.byType.map (·.possible) ∨ condition ≠ none ∧ possible = P := by
  cases condition with
  | none => simp [record]
  | some c => simp only [record, mem_map_possible_recordTyped, ne_eq, reduceCtorEq, not_false_eq_true, true_and,
      eq_comm (a := possible)]

theorem expects_record : Expects (e.record key condition possible).byType P k ↔
    Expects e.byType P k ∨ condition ≠ none ∧ possible = P ∧ key = k := by
  cases condition with
  | none => simp [record]
  | some c => simp [record, expects_recordTyped]

theorem nodup_map_possible_record (h : (e.byType.map (·.possible)).Nodup) :
    ((e.record key condition possible).byType.map (·.possible)).Nodup := by
  cases condition with
  | none => exact h
  | some c => exact nodup_map_possible_recordTyped key c possible h

/-- The rest of an expectation does not change when a key is taken note of. -/
theorem record_rest : (e.record key condition possible).key = e.key ∧
    (e.record key condition possible).typenameKey = e.typenameKey ∧
    (e.record key condition possible).children = e.children ∧
    (e.record key condition possible).objects = e.objects := by
  cases condition <;> exact ⟨rfl, rfl, rfl, rfl⟩

/-- Objects that are taken up change nothing else. -/
theorem addObject_rest (e : Expectation) (v : Located) : (e.addObject v).key = e.key ∧
    (e.addObject v).common = e.common ∧ (e.addObject v).byType = e.byType ∧
    (e.addObject v).typenameKey = e.typenameKey ∧ (e.addObject v).children = e.children := by
  unfold addObject
  split
  · split <;> exact ⟨rfl, rfl, rfl, rfl, rfl⟩
  · exact ⟨rfl, rfl, rfl, rfl, rfl⟩

theorem addObjects_rest (values : List Located) : ∀ e : Expectation, (e.addObjects values).key = e.key ∧
    (e.addObjects values).common = e.common ∧ (e.addObjects values).byType = e.byType ∧
    (e.addObjects values).typenameKey = e.typenameKey ∧ (e.addObjects values).children = e.children := by
  induction values with
  | nil => exact fun e => ⟨rfl, rfl, rfl, rfl, rfl⟩
  | cons v rest ih =>
    intro e
    obtain ⟨h1, h2, h3, h4, h5⟩ := ih (e.addObject v)
    obtain ⟨g1, g2, g3, g4, g5⟩ := e.addObject_rest v
    exact ⟨h1.trans g1, h2.trans g2, h3.trans g3, h4.trans g4, h5.trans g5⟩

/-- Does an expectation expect nothing yet? -/
structure IsFresh (e : Expectation) : Prop where
  common : e.common = .empty
  byType : e.byType = []
  children : e.children = []
  typenameKey : e.typenameKey = none

theorem isFresh_holding (key : Option String) (values : List Located) : (holding key values).IsFresh := by
  obtain ⟨-, h2, h3, h4, h5⟩ := addObjects_rest values { key }
  exact ⟨h2, h3, h5, h4⟩

@[simp] theorem key_holding (key : Option String) (values : List Located) : (holding key values).key = key :=
  (addObjects_rest values { key }).1

end Expectation

open Expectation

/-! ## Runs -/

section

variable {schema : Schema} {steps : List Step} {e e' : Expectation}

/-- A statement about an expectation that a step makes true or leaves as it is holds after a run if it did before, or a
step made it true. -/
theorem run_iff {P : Expectation → Prop} {Q : Step → Prop} :
    ∀ {steps : List Step} {e e' : Expectation},
      (∀ step ∈ steps, ∀ change e, step.change schema = .ok change → (P (change e) ↔ P e ∨ Q step)) →
      (run schema steps e).outcome = .ok e' → (P e' ↔ P e ∨ ∃ step ∈ steps, Q step)
  | [], e, e', _, h => by
    cases h
    simp
  | step :: rest, e, e', hs, h => by
    obtain ⟨change, hc, hr⟩ := outcome_run_cons.1 h
    rw [run_iff (fun s hm => hs s (List.mem_cons_of_mem _ hm)) hr, hs step List.mem_cons_self change e hc, or_assoc,
      List.exists_mem_cons_iff]

/-- What no step changes is the same after a run. -/
theorem run_eq {α : Type} (part : Expectation → α) (hs : ∀ step change e, Step.change schema step = .ok change →
    part (change e) = part e) : ∀ {steps : List Step} {e e' : Expectation},
    (run schema steps e).outcome = .ok e' → part e' = part e
  | [], e, e', h => by
    cases h
    rfl
  | step :: rest, e, e', h => by
    obtain ⟨change, hc, hr⟩ := outcome_run_cons.1 h
    rw [run_eq part hs hr, hs step change e hc]

theorem key_run (h : (run schema steps e).outcome = .ok e') : e'.key = e.key := by
  refine run_eq (·.key) (fun step change e hc => ?_) h
  cases step with
  | stop cause => cases hc
  | set conditions frame selections => cases hc; rfl
  | field conditions frame f selections =>
    obtain ⟨d, -, ⟨-, rfl⟩ | ⟨-, child, -, rfl⟩⟩ := change_field hc <;> exact record_rest.1

theorem objects_run (h : (run schema steps e).outcome = .ok e') : e'.objects = e.objects := by
  refine run_eq (·.objects) (fun step change e hc => ?_) h
  cases step with
  | stop cause => cases hc
  | set conditions frame selections => cases hc; rfl
  | field conditions frame f selections =>
    obtain ⟨d, -, ⟨-, rfl⟩ | ⟨-, child, -, rfl⟩⟩ := change_field hc <;> exact record_rest.2.2.2

/-- The key that a step looks at under no type condition. -/
def Step.IsCommon (k : String) : Step → Prop
  | field _ frame f _ => frame.condition = none ∧ f.key = k
  | _ => False

/-- The set of types for which a step looks at a key under type conditions. -/
def Step.IsTyped (P : NameSet) (k : String) : Step → Prop
  | field _ frame f _ => frame.condition ≠ none ∧ frame.possible = P ∧ f.key = k
  | _ => False

theorem mem_common_run {k : String} (h : (run schema steps e).outcome = .ok e') :
    k ∈ e'.common ↔ k ∈ e.common ∨ ∃ step ∈ steps, step.IsCommon k := by
  refine run_iff (P := (k ∈ ·.common)) (fun step _ change e hc => ?_) h
  cases step with
  | stop cause => cases hc
  | set conditions frame selections => cases hc; simp [Step.IsCommon, withTypenameKey]
  | field conditions frame f selections =>
    obtain ⟨d, -, ⟨-, rfl⟩ | ⟨-, child, -, rfl⟩⟩ := change_field hc <;> exact mem_common_record

theorem expects_run {P : NameSet} {k : String} (h : (run schema steps e).outcome = .ok e') :
    Expects e'.byType P k ↔ Expects e.byType P k ∨ ∃ step ∈ steps, step.IsTyped P k := by
  refine run_iff (P := (Expects ·.byType P k)) (fun step _ change e hc => ?_) h
  cases step with
  | stop cause => cases hc
  | set conditions frame selections => cases hc; simp [Step.IsTyped, withTypenameKey]
  | field conditions frame f selections =>
    obtain ⟨d, -, ⟨-, rfl⟩ | ⟨-, child, -, rfl⟩⟩ := change_field hc <;> exact expects_record

theorem mem_possible_run {P : NameSet} (h : (run schema steps e).outcome = .ok e') :
    P ∈ e'.byType.map (·.possible) ↔ P ∈ e.byType.map (·.possible) ∨ ∃ step ∈ steps, ∃ k, step.IsTyped P k := by
  refine run_iff (P := (P ∈ ·.byType.map (·.possible))) (fun step _ change e hc => ?_) h
  cases step with
  | stop cause => cases hc
  | set conditions frame selections => cases hc; simp [Step.IsTyped, withTypenameKey]
  | field conditions frame f selections =>
    simp only [Step.IsTyped, exists_and_left, exists_eq', and_true]
    obtain ⟨d, -, ⟨-, rfl⟩ | ⟨-, child, -, rfl⟩⟩ := change_field hc <;> exact mem_map_possible_record

/-- No set of types gets two entries. -/
theorem nodup_possible_run : ∀ {steps : List Step} {e e' : Expectation}, (run schema steps e).outcome = .ok e' →
    (e.byType.map (·.possible)).Nodup → (e'.byType.map (·.possible)).Nodup
  | [], e, e', h, hn => by
    cases h
    exact hn
  | step :: rest, e, e', h, hn => by
    obtain ⟨change, hc, hr⟩ := outcome_run_cons.1 h
    refine nodup_possible_run hr ?_
    cases step with
    | stop cause => cases hc
    | set conditions frame selections => cases hc; exact hn
    | field conditions frame f selections =>
      obtain ⟨d, -, ⟨-, rfl⟩ | ⟨-, child, -, rfl⟩⟩ := change_field hc <;> exact nodup_map_possible_record hn

/-- The key for type names that a step brings. -/
def Step.typenameKey? : Step → Option String
  | set _ frame _ => frame.typenameKey
  | _ => none

/-- The key for type names is the first one that a step brings, unless there was one before. -/
theorem typenameKey_run : ∀ {steps : List Step} {e e' : Expectation}, (run schema steps e).outcome = .ok e' →
    e'.typenameKey = e.typenameKey.or (steps.findSome? Step.typenameKey?)
  | [], e, e', h => by
    cases h
    simp
  | step :: rest, e, e', h => by
    obtain ⟨change, hc, hr⟩ := outcome_run_cons.1 h
    rw [typenameKey_run hr, List.findSome?_cons]
    cases step with
    | stop cause => cases hc
    | set conditions frame selections =>
      cases hc
      simp only [withTypenameKey, Step.typenameKey?, Option.or_assoc]
      cases frame.typenameKey <;> rfl
    | field conditions frame f selections =>
      obtain ⟨d, -, ⟨-, rfl⟩ | ⟨-, child, -, rfl⟩⟩ := change_field hc <;>
        simp only [Step.typenameKey?, addChild, record_rest.2.1]

/-- Is `child` the scope that a run with the given steps builds for a field with selections of its own? -/
def IsChild (schema : Schema) (steps : List Step) (m : Met) (child : Expectation) : Prop :=
  ∃ frame definition, Step.field m.conditions frame m.field m.selections ∈ steps ∧
    schema.fieldOf? (some frame.type) m.field.name = some definition ∧
    (walkBelow schema frame m.field definition m.selections).outcome = .ok child

/-- The fields with selections of their own. -/
def withSelections (fields : List Met) : List Met := fields.filter fun m => !m.selections.isEmpty

theorem IsChild.mono {steps' : List Step} {m : Met} {child : Expectation} (hs : ∀ s ∈ steps, s ∈ steps')
    (h : IsChild schema steps m child) : IsChild schema steps' m child := by
  obtain ⟨frame, d, hm, hd, hw⟩ := h
  exact ⟨frame, d, hs _ hm, hd, hw⟩

/-- A run adds the scopes of the fields with selections of their own, in order. -/
theorem children_run : ∀ {steps : List Step} {e e' : Expectation}, (run schema steps e).outcome = .ok e' →
    ∃ children, e'.children = e.children ++ children ∧
      List.Forall₂ (IsChild schema steps) (withSelections (steps.filterMap Step.met?)) children
  | [], e, e', h => by
    cases h
    exact ⟨[], by simp, .nil⟩
  | step :: rest, e, e', h => by
    obtain ⟨change, hc, hr⟩ := outcome_run_cons.1 h
    obtain ⟨children, he, hf⟩ := children_run hr
    have hf' : List.Forall₂ (IsChild schema (step :: rest)) (withSelections (rest.filterMap Step.met?)) children :=
      hf.imp fun m child => IsChild.mono fun s hs => List.mem_cons_of_mem _ hs
    cases step with
    | stop cause => cases hc
    | set conditions frame selections =>
      cases hc
      exact ⟨children, he, hf'⟩
    | field conditions frame f selections =>
      obtain ⟨d, hd, ⟨rfl, rfl⟩ | ⟨hne, child, hw, rfl⟩⟩ := change_field hc
      · exact ⟨children, by rw [he, record_rest.2.2.1], hf'⟩
      · refine ⟨child :: children, by simp [he, addChild, record_rest.2.2.1], ?_⟩
        have hkeep : (!selections.isEmpty) = true := by simpa using hne
        have hmet : (Step.field conditions frame f selections :: rest).filterMap Step.met? =
            ⟨conditions, f, selections⟩ :: rest.filterMap Step.met? := rfl
        rw [hmet, withSelections, List.filter_cons_of_pos (by exact hkeep)]
        exact .cons ⟨frame, d, List.mem_cons_self, hd, hw⟩ hf'

end

end FixtureCheck.Fixture
