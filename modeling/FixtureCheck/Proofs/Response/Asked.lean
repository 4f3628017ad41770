import FixtureCheck.Proofs.Response.Beside
import FixtureCheck.Proofs.Response.Split

/-!
# Names of types asked for in addition

A fixture that is accepted is still accepted if the query asks for more names of types and the fixture tells them, where
objects are read as before or rightly otherwise (`check_asked`). It need not be elsewhere: what is asked for in a set is
in force for the objects below it, and an empty object there is not taken for one without fields any more
(`asking_rejects_accepted`).
-/

namespace FixtureCheck.Fixture

open GraphQL (Schema Document Selection Operation)

/-- **A set, and the set with a name of a type asked for.** -/
inductive AsksName : List Selection → List Selection → Prop where
  | intro (before after : List Selection) : AsksName (before ++ after) (before ++ askName :: after)

section

variable {schema : Schema} {document document' : Document} {name : Option String} {fixture fixture' : Json}
  {o o' : Operation} {root : String}

/-- A walk that finds nothing wrong finds nothing wrong where names are asked for and told. -/
theorem ofWalk_asked (hw : schema.IsWellFormed) (ha : GraphQL.Accepts schema document)
    (hc : Compares schema document name o root)
    (hadds : AddsNamesRightly schema o.selections o'.selections (rootFrame schema root fixture) fixture fixture')
    (he : (CheckResult.ofWalk (walkOperation schema root o fixture)).errors = []) :
    CheckResult.ofWalk (walkOperation schema root o' fixture') = ⟨[], false⟩ := by
  obtain ⟨tree, ht, hwalk, hextra⟩ := errors_ofWalk_eq_nil.1 he
  have hk : kindOf fixture = .object := by
    by_contra hk
    exact errors_walkOperation_ne_nil hk hwalk
  have hk' : kindOf fixture' = .object := hadds.named.kindOf_eq.trans hk
  have hwalked := hc.walked ha hw hk ht
  -- the other walk is not cut off
  have hok : ∀ s ∈ setSteps schema [] o.selections (rootFrame schema root fixture), s.IsOk schema := by
    obtain ⟨e, he⟩ := hwalked.builds.outcome
    rw [walkSet_eq_run schema []] at he
    exact change_of_run he
  have htype : (rootFrame schema root fixture').type = (rootFrame schema root fixture).type := rfl
  have hok' : ∀ s ∈ setSteps schema [] o'.selections (rootFrame schema root fixture'), s.IsOk schema :=
    isOk_setSteps_of hadds.asks htype
      (isOk_selectionsSteps hadds.asks ((type_inSet ..).trans (htype.trans (type_inSet ..).symm))) hok
  obtain ⟨tree', ht'⟩ := exists_run hok' (.holding none (rootFrame schema root fixture').values)
  rw [← walkSet_eq_run schema []] at ht'
  have hvalues' : ∀ v ∈ (rootFrame schema root fixture').values, v.IsIn fixture' ∧ kindOf v.value = .object := by
    intro v hv
    rw [List.mem_singleton.1 hv]
    exact ⟨by simp [Located.IsIn, Json.get?], hk'⟩
  have hpartners : (rootFrame schema root fixture).Partners fixture' (rootFrame schema root fixture') := by
    refine ⟨rfl, rfl, rfl, fun v' => ?_⟩
    have hroot : counterpart fixture' ⟨[], fixture⟩ = ⟨[], fixture'⟩ := by simp [counterpart, Json.get?]
    constructor
    · intro hv'
      exact ⟨_, List.mem_singleton_self _, (List.mem_singleton.1 hv').trans hroot.symm⟩
    · rintro ⟨v, hv, rfl⟩
      rw [List.mem_singleton.1 hv, hroot]
      exact List.mem_singleton_self _
  have hbeside : WalksBeside schema fixture fixture' o.selections o'.selections (rootFrame schema root fixture)
      (rootFrame schema root fixture') tree tree' :=
    { wellFormed := hw
      walked := hwalked
      walked' := ⟨⟨none, ht'⟩, hadds.asks.areTyped hw hwalked.typed, hwalked.composite, Frame.isAt_forField ..,
        hvalues'⟩
      answered := (errors_walkOperation_eq_nil hw hk ht).1 hwalk
      adds := hadds
      partners := hpartners
      key := rfl }
  rw [← walkOperation_of_object hk'] at ht'
  have herrors : (walkOperation schema root o' fixture').errors = [] :=
    (errors_walkOperation_eq_nil hw hk' ht').2 fun _ _ hr' _ _ _ hl' _ hv' => hbeside.answered' hr' hl' hv'
  have hextra' : extraFields tree' = [] :=
    (hbeside.walked'.extraFields_eq_nil hw).2 fun _ _ hr' _ hv' _ hk' =>
      hbeside.selected' ((hwalked.extraFields_eq_nil hw).1 hextra) hr' hv' hk'
  rw [ofWalk_ok ht', herrors, hextra']
  rfl

/-- A document that asks for names of types spreads what it did. -/
theorem isOutlined_asksName (document : Document) : GraphQL.IsOutlined AsksName none document where
  new := by simp
  known := by simp
  less := by
    rintro _ _ ⟨before, after⟩ name hname
    have hask : ¬ name ∈ GraphQL.spreadsAt askName := by
      intro hmem
      cases hmem
    rw [GraphQL.mem_spreadNames_append, GraphQL.mem_spreadNames_cons] at hname
    rw [GraphQL.mem_spreadNames_append]
    exact .inl (hname.imp_right fun h => h.resolve_left hask)

/-- A document with its sets rewritten has an operation to compare with if it has one as it is. -/
theorem Compares.exists_rewritten {rule : List Selection → List Selection → Prop}
    (ha : GraphQL.Accepts schema document) (hout : GraphQL.IsOutlined rule none document)
    (h : GraphQL.DocumentRewritten rule none document document') (hc : Compares schema document name o root) :
    ∃ o', Compares schema document' name o' root := by
  obtain ⟨inlined, inlined', hi, hi', hoperations⟩ := GraphQL.exists_inline_rewritten ha hout h
  obtain ⟨⟨found, hfound, ho⟩, hr⟩ := hc
  rw [hi] at hfound
  cases hfound
  rcases selectOperation_of_map hoperations name with ⟨p, o', hp, ho', hoo⟩ | ⟨cause, hcause, -⟩
  · rw [ho] at hp
    cases hp
    refine ⟨o', ⟨inlined', hi', ho'⟩, ?_⟩
    rw [← hr, rootType, rootType, kind_eq_of_withoutSelections hoo]
  · rw [ho] at hcause
    cases hcause

/-- **Asking for names of types and telling them keeps a fixture accepted** where objects are read as before, or rightly
otherwise. -/
theorem check_asked (hw : schema.IsWellFormed) (hv : GraphQL.validate schema document = .ok [])
    (h : GraphQL.DocumentRewritten AsksName none document document') {result : CheckResult}
    (hcheck : check schema document fixture name = .ok result) (hresult : result.errors = [])
    (hs : ∀ o o' root, Compares schema document name o root → Compares schema document' name o' root →
      AddsNamesRightly schema o.selections o'.selections (rootFrame schema root fixture) fixture fixture') :
    check schema document' fixture' name = .ok ⟨[], false⟩ := by
  have ha := GraphQL.accepts_of_validate hv
  obtain ⟨o, root, hc, rfl⟩ := check_eq_ok_iff.1 hcheck
  obtain ⟨o', hc'⟩ := hc.exists_rewritten ha (isOutlined_asksName document) h
  rw [← ofWalk_asked hw ha hc (hs o o' root hc hc') hresult]
  exact check_eq_ok_iff.2 ⟨o', root, hc', rfl⟩

end

/-! ## Kinds of pets -/

/-- The names of cats. -/
def catsOperation : Operation := petOperation [plain "pets" [ofCats]]

/-- A cat, and a pet without fields. -/
def quietPets : Json := .obj [("pets", .arr [.obj [("name", .str "Tom")], .obj []])]

/-- The frame of the pets. -/
def quietFrame (fixture : Json) : Frame :=
  ((rootFrame petSchema "Query" fixture).inSet catsOperation.selections).below petSchema "pets"
    ⟨"pets", .list (.named "Pet"), []⟩

theorem validate_catsOperation : GraphQL.validate petSchema [.operation catsOperation] = .ok [] :=
  eq_ok_of_toOption (by decide +kernel)

theorem compares_catsOperation : Compares petSchema [.operation catsOperation] none catsOperation "Query" :=
  ⟨⟨[.operation catsOperation], by cbv, by cbv⟩, by cbv⟩

theorem check_quietPets : check petSchema [.operation catsOperation] quietPets none = .ok ⟨[], false⟩ := by cbv

/-- The walk comes to the fixture and to the pets. -/
theorem accompanies_cats {fixture : Json} {top' inside selections selections' : List Selection} {frame : Frame}
    {key : Option String} (hinside : ∀ below, plain "pets" below ∈ top' → below = inside)
    (h : Accompanies petSchema catsOperation.selections (rootFrame petSchema "Query" fixture) top' selections frame
      selections' key) :
    (selections = catsOperation.selections ∧ frame = rootFrame petSchema "Query" fixture ∧ selections' = top' ∧
        key = none) ∨
      (selections = [ofCats] ∧ frame = quietFrame fixture ∧ selections' = inside ∧ key = typenameKey? top') := by
  have hpets : petSchema.fieldOf? (some "Query") "pets" = some ⟨"pets", .list (.named "Pet"), []⟩ := by cbv
  induction h with
  | here => exact .inl ⟨rfl, rfl, rfl, rfl⟩
  | field _ comes known nonempty ih =>
    rcases ih with ⟨rfl, rfl, rfl, rfl⟩ | ⟨rfl, rfl, rfl, rfl⟩
    · right
      cases comes with
      | inline mem => simp [catsOperation, petOperation, plain] at mem
      | field mem mem' =>
        simp only [catsOperation, petOperation, plain, List.mem_singleton, Selection.field.injEq] at mem
        obtain ⟨rfl, rfl⟩ := mem
        rw [type_inSet] at known
        cases hpets.symm.trans known
        exact ⟨rfl, rfl, hinside _ mem', Option.or_none⟩
    · cases comes with
      | field mem => simp [ofCats] at mem
      | inline mem mem' inside next =>
        simp only [ofCats, List.mem_singleton, Selection.inline.injEq] at mem
        obtain ⟨rfl, rfl, rfl⟩ := mem
        cases next with
        | inline mem => simp [plain] at mem
        | field mem =>
          simp only [plain, List.mem_singleton, Selection.field.injEq] at mem
          exact absurd mem.2 nonempty

/-- The kinds of pets, and the names of cats. -/
def catKinds : Operation := petOperation [plain "pets" [askName, ofCats]]

/-- A cat, and a dog without fields. -/
def frankPets : Json := .obj [("pets", .arr [
  .obj [("__typename", .str "Cat"), ("name", .str "Tom")], .obj [("__typename", .str "Dog")]])]

theorem compares_catKinds : Compares petSchema [.operation catKinds] none catKinds "Query" :=
  ⟨⟨[.operation catKinds], by cbv, by cbv⟩, by cbv⟩

theorem values_quietFrame : (quietFrame quietPets).values =
    [⟨[.key "pets", .index 0], .obj [("name", .str "Tom")]⟩, ⟨[.key "pets", .index 1], .obj []⟩] := by cbv

theorem accompanies_catKinds {selections selections' : List Selection} {frame : Frame} {key : Option String}
    (h : Accompanies petSchema catsOperation.selections (rootFrame petSchema "Query" quietPets) catKinds.selections
      selections frame selections' key) :
    (selections = catsOperation.selections ∧ frame = rootFrame petSchema "Query" quietPets ∧
        selections' = catKinds.selections ∧ key = none) ∨
      (selections = [ofCats] ∧ frame = quietFrame quietPets ∧ selections' = [askName, ofCats] ∧ key = none) := by
  refine accompanies_cats (fun below hmem => ?_) h
  simpa [catKinds, petOperation, plain] using hmem

/-- Pets are asked for their types. -/
theorem isAsked_catKinds {path : Json.Path} :
    IsAsked petSchema catsOperation.selections (rootFrame petSchema "Query" quietPets) catKinds.selections path ↔
      path = [.key "pets", .index 0] ∨ path = [.key "pets", .index 1] := by
  constructor
  · rintro ⟨selections, frame, selections', key, v, hacc, hlt, hv, rfl⟩
    rcases accompanies_catKinds hacc with ⟨rfl, rfl, rfl, rfl⟩ | ⟨rfl, rfl, rfl, rfl⟩
    · exact absurd hlt (Nat.lt_irrefl 1)
    · rw [values_quietFrame] at hv
      rcases List.mem_pair.1 hv with rfl | rfl
      · exact .inl rfl
      · exact .inr rfl
  · intro hpath
    have hpets : petSchema.fieldOf? (some "Query") "pets" = some ⟨"pets", .list (.named "Pet"), []⟩ := by cbv
    have hacc : Accompanies petSchema catsOperation.selections (rootFrame petSchema "Query" quietPets)
        catKinds.selections [ofCats] (quietFrame quietPets) [askName, ofCats] none :=
      .field .here (.field (List.mem_singleton_self _) (List.mem_singleton_self _) (.name (.refl true _)) (by simp))
        hpets (List.cons_ne_nil _ _)
    rcases hpath with rfl | rfl
    · exact ⟨_, _, _, _, _, hacc, Nat.lt_succ_self 1, by rw [values_quietFrame]; exact List.mem_cons_self, rfl⟩
    · exact ⟨_, _, _, _, ⟨_, .obj []⟩, hacc, Nat.lt_succ_self 1, by rw [values_quietFrame]; simp, rfl⟩

theorem named_frankPets : Json.Named
    (IsAsked petSchema catsOperation.selections (rootFrame petSchema "Query" quietPets) catKinds.selections) []
      quietPets frankPets := by
  have hasked : IsAsked petSchema catsOperation.selections (rootFrame petSchema "Query" quietPets)
      catKinds.selections = fun path => path = [.key "pets", .index 0] ∨ path = [.key "pets", .index 1] :=
    funext fun path => propext isAsked_catKinds
  rw [hasked]
  refine .obj (by simp) (by simp) (by simp) fun key value value' hv hv' => ?_
  obtain ⟨rfl, rfl⟩ := Json.lookup_singleton hv
  obtain ⟨-, rfl⟩ := Json.lookup_singleton hv'
  refine .arr rfl fun i value value' hv hv' => ?_
  rcases i with - | - | i
  · cases hv
    cases hv'
    refine .obj (by simp [or_comm]) (by simp) (by simp [Json.lookup]) fun key value value' hv hv' => ?_
    obtain ⟨rfl, rfl⟩ := Json.lookup_singleton hv
    have hname : value' = .str "Tom" := by simpa [Json.lookup] using hv'.symm
    rw [hname]
    exact .atom (by simp [Json.IsAtom])
  · cases hv
    cases hv'
    refine .obj (by simp) (by simp) (by simp [Json.lookup]) fun key value value' hv hv' => ?_
    cases hv
  · cases hv

theorem mem_metIn_ofCats {m : Met} (hm : m ∈ metIn [] [ofCats]) : m = ⟨["Cat"], ⟨none, "name", [], []⟩, []⟩ := by
  simpa [ofCats, plain, metIn, metAt] using hm

/-- A cat that is told to be a cat, and a pet without fields that is told to be a dog, are read rightly. -/
theorem addsNames_frankPets : AddsNamesRightly petSchema catsOperation.selections catKinds.selections
    (rootFrame petSchema "Query" quietPets) quietPets frankPets where
  asks := .field (.name (.refl true _)) (by simp) (.nil true)
  named := named_frankPets
  unused := by
    intro selections frame selections' key hacc v hv hasked m hm
    rcases accompanies_catKinds hacc with ⟨rfl, rfl, rfl, rfl⟩ | ⟨rfl, rfl, rfl, rfl⟩
    · rw [isAsked_catKinds, List.mem_singleton.1 hv] at hasked
      simp at hasked
    · rw [mem_metIn_ofCats hm]
      exact ⟨by decide, by decide⟩
  settled := by
    intro selections frame selections' key hacc v hv
    rcases accompanies_catKinds hacc with ⟨rfl, rfl, rfl, rfl⟩ | ⟨rfl, rfl, rfl, rfl⟩
    · rw [List.mem_singleton.1 hv]
      exact .kept rfl ⟨rfl, fun _ => by cbv⟩
    · rw [values_quietFrame] at hv
      rcases List.mem_pair.1 hv with rfl | rfl
      · have hcat : "Cat" ∈ Met.possible petSchema "Pet" ⟨["Cat"], ⟨none, "name", [], []⟩, []⟩ := by decide +kernel
        refine @IsSettled.told _ _ _ _ _ _ _ "Cat" (by cbv) ?_ ?_ ?_
        · intro other hother
          cases hother
        · intro m hm _
          rw [mem_metIn_ofCats hm]
          exact List.mem_singleton_self _
        · intro m hm _
          rw [mem_metIn_ofCats hm]
          exact .inl hcat
      · have hdog : ¬ "Dog" ∈ Met.possible petSchema "Pet" ⟨["Cat"], ⟨none, "name", [], []⟩, []⟩ := by
          decide +kernel
        refine @IsSettled.told _ _ _ _ _ _ _ "Dog" (by cbv) ?_ ?_ ?_
        · intro other hother
          cases hother
        · intro m hm hdog'
          rw [mem_metIn_ofCats hm] at hdog'
          exact absurd hdog' hdog
        · intro m hm hk
          cases hk

/-- Quiet pets are accepted, and so they are when they are asked for their types and tell them. -/
theorem frankPets_asked :
    check petSchema [.operation catsOperation] quietPets none = .ok ⟨[], false⟩ ∧
    check petSchema [.operation catKinds] frankPets none = .ok ⟨[], false⟩ := by
  have hrewritten : GraphQL.DocumentRewritten AsksName none [.operation catsOperation] [.operation catKinds] :=
    ⟨[.operation catKinds],
      .cons (.operation (@GraphQL.Rewritten.field _ [] [] _ _ _ (.set (.intro [] [ofCats])))) .nil, rfl⟩
  refine ⟨check_quietPets, check_asked petSchema_isWellFormed validate_catsOperation hrewritten check_quietPets rfl ?_⟩
  intro o o' root hc hc'
  obtain ⟨rfl, rfl⟩ := hc.unique compares_catsOperation
  obtain ⟨rfl, -⟩ := hc'.unique compares_catKinds
  exact addsNames_frankPets

/-! ## Names in force below -/

/-- **Do objects tell possible types** where they are asked? -/
def TellsPossible (schema : Schema) (top top' : List Selection) (start : Frame) (fixture' : Json) : Prop :=
  ∀ selections frame selections' key, Accompanies schema top start top' selections frame selections' key →
    selections.length < selections'.length → ∀ v ∈ frame.values, ∃ type ∈ schema.possibleTypes frame.type,
      (counterpart fixture' v).value.field? "__typename" = some (.str type)

/-- The type of the fixture, and the names of cats. -/
def rootKind : Operation := petOperation [askName, plain "pets" [ofCats]]

/-- A pet without fields. -/
def blankPet : Json := .obj [("pets", .arr [.obj []])]

/-- A pet without fields, in a fixture that tells its type. -/
def blankPetTold : Json := .obj [("__typename", .str "Query"), ("pets", .arr [.obj []])]

theorem compares_rootKind : Compares petSchema [.operation rootKind] none rootKind "Query" :=
  ⟨⟨[.operation rootKind], by cbv, by cbv⟩, by cbv⟩

theorem check_blankPet : check petSchema [.operation catsOperation] blankPet none = .ok ⟨[], false⟩ := by cbv

theorem check_blankPetTold : check petSchema [.operation rootKind] blankPetTold none =
    .ok ⟨[(Mismatch.missing "name").message], false⟩ :=
  compares_rootKind.check_eq [.missing "name"] [] (by cbv) (by cbv)

theorem accompanies_rootKind {selections selections' : List Selection} {frame : Frame} {key : Option String}
    (h : Accompanies petSchema catsOperation.selections (rootFrame petSchema "Query" blankPet) rootKind.selections
      selections frame selections' key) :
    (selections = catsOperation.selections ∧ frame = rootFrame petSchema "Query" blankPet ∧
        selections' = rootKind.selections ∧ key = none) ∨
      (selections = [ofCats] ∧ frame = quietFrame blankPet ∧ selections' = [ofCats] ∧ key = some "__typename") := by
  refine accompanies_cats (fun below hmem => ?_) h
  simpa [rootKind, petOperation, askName, plain] using hmem

/-- The fixture is asked for its type. -/
theorem isAsked_rootKind {path : Json.Path} :
    IsAsked petSchema catsOperation.selections (rootFrame petSchema "Query" blankPet) rootKind.selections path ↔
      path = [] := by
  constructor
  · rintro ⟨selections, frame, selections', key, v, hacc, hlt, hv, rfl⟩
    rcases accompanies_rootKind hacc with ⟨rfl, rfl, rfl, rfl⟩ | ⟨rfl, rfl, rfl, rfl⟩
    · rw [List.mem_singleton.1 hv]
    · exact absurd hlt (Nat.lt_irrefl 1)
  · rintro rfl
    exact ⟨_, _, _, _, _, .here, Nat.lt_succ_self 1, List.mem_singleton_self _, rfl⟩

theorem named_blankPetTold : Json.Named
    (IsAsked petSchema catsOperation.selections (rootFrame petSchema "Query" blankPet) rootKind.selections) []
      blankPet blankPetTold := by
  have hasked : IsAsked petSchema catsOperation.selections (rootFrame petSchema "Query" blankPet)
      rootKind.selections = fun path => path = [] := funext fun path => propext isAsked_rootKind
  rw [hasked]
  refine .obj (by simp [or_comm]) (by simp) (by simp [Json.lookup]) fun key value value' hv hv' => ?_
  obtain ⟨rfl, rfl⟩ := Json.lookup_singleton hv
  have hpets : value' = .arr [.obj []] := by simpa [Json.lookup] using hv'.symm
  rw [hpets]
  refine .arr rfl fun i value value' hv hv' => ?_
  rcases i with - | i
  · cases hv
    cases hv'
    refine .obj (by simp) (by simp) (by simp) fun key value value' hv hv' => ?_
    cases hv
  · cases hv

/-- **What is asked for in a set is in force below it**: a fixture that is accepted is rejected when it tells its type,
for a pet without fields is not taken for one that is no cat any more. -/
theorem asking_rejects_accepted :
    ¬ ∀ (schema : Schema) (document document' : Document) (fixture fixture' : Json) (name : Option String)
      (result result' : CheckResult), schema.IsWellFormed → GraphQL.validate schema document = .ok [] →
      GraphQL.DocumentRewritten AsksName none document document' →
      (∀ o o' root, Compares schema document name o root → Compares schema document' name o' root →
        AddsNames schema o.selections o'.selections (rootFrame schema root fixture) fixture fixture' ∧
          TellsPossible schema o.selections o'.selections (rootFrame schema root fixture) fixture') →
      check schema document fixture name = .ok result → result.errors = [] →
      check schema document' fixture' name = .ok result' → result'.errors = [] := by
  intro hall
  have hrewritten : GraphQL.DocumentRewritten AsksName none [.operation catsOperation] [.operation rootKind] :=
    ⟨[.operation rootKind], .cons (.operation (.set (.intro [] catsOperation.selections))) .nil, rfl⟩
  have herrors := hall petSchema _ _ blankPet blankPetTold none _ _ petSchema_isWellFormed validate_catsOperation
    hrewritten (fun o o' root hc hc' => ?_) check_blankPet rfl check_blankPetTold
  · cases herrors
  obtain ⟨rfl, rfl⟩ := hc.unique compares_catsOperation
  obtain ⟨rfl, -⟩ := hc'.unique compares_rootKind
  constructor
  · refine ⟨.name (.refl true _), named_blankPetTold, ?_⟩
    intro selections frame selections' key hacc v hv hasked m hm
    rcases accompanies_rootKind hacc with ⟨rfl, rfl, rfl, rfl⟩ | ⟨rfl, rfl, rfl, rfl⟩
    · have hpets : m = ⟨[], ⟨none, "pets", [], []⟩, [ofCats]⟩ := by
        simpa [catsOperation, petOperation, plain, metIn, metAt] using hm
      rw [hpets]
      exact ⟨by decide, by decide⟩
    · rw [mem_metIn_ofCats hm]
      exact ⟨by decide, by decide⟩
  · intro selections frame selections' key hacc hlt v hv
    rcases accompanies_rootKind hacc with ⟨rfl, rfl, rfl, rfl⟩ | ⟨rfl, rfl, rfl, rfl⟩
    · rw [List.mem_singleton.1 hv]
      exact ⟨"Query", by decide +kernel, by cbv⟩
    · exact absurd hlt (Nat.lt_irrefl 1)

end FixtureCheck.Fixture
