import FixtureCheck.GraphQL.Schema.FromDescription
import FixtureCheck.Proofs.Schema.Draft
import FixtureCheck.Proofs.Syntax.Name

/-!
# Schemas of descriptions are well formed

A description comes from outside, and its reader takes nothing for granted: a table has one entry for each name, and
that is one of the grammar, a reference leads to a type of the listing, and the kinds of the types that fields and
unions refer to are looked at. So the draft of a description is sound, and its schema is well formed
(`isWellFormed_of_schemaOfDescription`).
-/

namespace FixtureCheck.GraphQL

namespace Description

variable {α : Type}

/-! ## Tables -/

/-- The text that a key is. -/
def text? : Json → Option String
  | .str s => some s
  | _ => none

/-- The texts among the keys of a table. -/
def keyTexts (entries : List (Json × α)) : List String := entries.filterMap fun entry => text? entry.1

/-- Are two keys the same text? -/
def sameText (key key' : Json) : Bool :=
  match key, key' with
  | .str a, .str b => a == b
  | _, _ => false

theorem text?_eq_some_iff {key : Json} {s : String} : text? key = some s ↔ key = .str s := by
  cases key <;> simp [text?]

theorem sameText_iff {key key' : Json} : sameText key key' = true ↔ ∃ s, key = .str s ∧ key' = .str s := by
  constructor
  · intro h
    unfold sameText at h
    split at h
    · rename_i a b
      have hab : a = b := by simpa using h
      exact ⟨b, by rw [hab], rfl⟩
    · cases h
  · rintro ⟨s, rfl, rfl⟩
    simp [sameText]

theorem insert_eq (done : List (Json × α)) (new : Json × α) : table.insert done new =
    if done.any (sameText ·.1 new.1) then done.map fun old => if sameText old.1 new.1 then (old.1, new.2) else old
    else done ++ [new] := rfl

/-- An entry of a table is an old one or the new one. -/
theorem mem_of_mem_insert {done : List (Json × α)} {new entry : Json × α} (h : entry ∈ table.insert done new) :
    entry ∈ done ∨ entry = new := by
  rw [insert_eq] at h
  split at h
  · obtain ⟨old, hold, rfl⟩ := List.mem_map.1 h
    split
    · rename_i hsame
      obtain ⟨s, hs, hs'⟩ := sameText_iff.1 hsame
      exact .inr (by rw [hs, ← hs'])
    · exact .inl hold
  · simpa using h

theorem nodup_keyTexts_insert {done : List (Json × α)} (hn : (keyTexts done).Nodup) (new : Json × α) :
    (keyTexts (table.insert done new)).Nodup := by
  rw [insert_eq]
  split
  · -- the keys stay as they are
    have hkeys : keyTexts (done.map fun old => if sameText old.1 new.1 then (old.1, new.2) else old) =
        keyTexts done := by
      rw [keyTexts, List.filterMap_map]
      congr 1
      funext old
      simp only [Function.comp_apply]
      split <;> rfl
    rwa [hkeys]
  · rename_i hnew
    rw [keyTexts, List.filterMap_append]
    refine List.nodup_append.2 ⟨hn, by cases hk : text? new.1 <;> simp [hk], fun a ha b hb => ?_⟩
    rintro rfl
    obtain ⟨old, hold, htext⟩ := List.mem_filterMap.1 ha
    have hb' : text? new.1 = some a := by simpa using hb
    rw [text?_eq_some_iff] at htext hb'
    exact hnew (List.any_eq_true.2 ⟨old, hold, sameText_iff.2 ⟨a, htext, hb'⟩⟩)

/-- **A table has entries that were put into it, and one for each text.** -/
theorem table_spec (entries : List (Json × α)) :
    (∀ entry ∈ table entries, entry ∈ entries) ∧ (keyTexts (table entries)).Nodup := by
  have hfold : ∀ (rest done : List (Json × α)), (keyTexts done).Nodup →
      (∀ entry ∈ rest.foldl table.insert done, entry ∈ done ∨ entry ∈ rest) ∧
        (keyTexts (rest.foldl table.insert done)).Nodup := by
    intro rest
    induction rest with
    | nil => exact fun done hn => ⟨fun entry h => .inl h, hn⟩
    | cons new rest ih =>
      intro done hn
      obtain ⟨hmem, hnodup⟩ := ih (table.insert done new) (nodup_keyTexts_insert hn new)
      refine ⟨fun entry h => ?_, hnodup⟩
      rcases hmem entry h with h | h
      · exact (mem_of_mem_insert h).imp_right fun h => by rw [h]; exact List.mem_cons_self
      · exact .inr (List.mem_cons_of_mem new h)
  obtain ⟨hmem, hnodup⟩ := hfold entries [] List.nodup_nil
  exact ⟨fun entry h => (hmem entry h).resolve_left List.not_mem_nil, hnodup⟩

/-- The entries of a table are made of the parts of a value that have their names. -/
theorem tableOf_spec {make : Json → Reading α} {parts : Json} {entries : List (Json × α)}
    (h : tableOf make parts = .ok entries) :
    (∀ entry ∈ entries, ∃ part, Description.entry "name" part = .ok entry.1 ∧ make part = .ok entry.2) ∧
      (keyTexts entries).Nodup := by
  obtain ⟨values, -, hrest⟩ := bind_eq_ok_iff.1 h
  obtain ⟨made, hmade, hdone⟩ := bind_eq_ok_iff.1 hrest
  cases hdone
  obtain ⟨hmem, hnodup⟩ := table_spec made
  refine ⟨fun entry he => ?_, hnodup⟩
  obtain ⟨part, -, hpart⟩ := mem_of_mapM hmade (hmem entry he)
  obtain ⟨key, hkey, hvalue⟩ := bind_eq_ok_iff.1 hpart
  obtain ⟨value, hmake, hcheck⟩ := bind_eq_ok_iff.1 hvalue
  obtain ⟨_, -, hentry⟩ := bind_eq_ok_iff.1 hcheck
  cases hentry
  exact ⟨part, hkey, hmake⟩

theorem eq_of_name {key : Json} {s : String} (h : name key = .ok s) : key = .str s ∧ IsName s := by
  unfold name at h
  split at h
  · cases h
  · rename_i text
    split at h
    · cases h
    · rename_i hnone
      cases h
      exact ⟨rfl, hnone⟩
  · cases h

/-- Named entries keep their values and have distinct names, all of them names of the grammar. -/
theorem named_spec {notTexts : SchemaError} {entries : List (Json × α)} {named : List (String × α)}
    (h : Description.named notTexts entries = .ok named) (hn : (keyTexts entries).Nodup) :
    (∀ entry ∈ named, (Json.str entry.1, entry.2) ∈ entries ∧ IsName entry.1) ∧ (named.map (·.1)).Nodup := by
  unfold Description.named at h
  split at h
  · cases h
  · have hkeys : named.map (fun entry => some entry.1) = entries.map fun entry => text? entry.1 := by
      refine map_of_mapM (fun entry new hnew => ?_) h
      obtain ⟨n, hname, he⟩ := bind_eq_ok_iff.1 hnew
      cases he
      rw [(eq_of_name hname).1]
      rfl
    have htexts : keyTexts entries = named.map (·.1) := by
      have hid := congrArg (List.filterMap id) hkeys
      rw [List.filterMap_map, List.filterMap_map] at hid
      rw [keyTexts, ← List.filterMap_eq_map]
      exact hid.symm
    refine ⟨fun entry he => ?_, htexts ▸ hn⟩
    obtain ⟨old, hold, hnew⟩ := mem_of_mapM h he
    obtain ⟨n, hname, hentry⟩ := bind_eq_ok_iff.1 hnew
    cases hentry
    obtain ⟨hkey, hisName⟩ := eq_of_name hname
    exact ⟨by rwa [← hkey], hisName⟩

/-! ## References to types -/

section

variable {listing : Listing}

theorem of_namedType {reference : Json} {type : TypeRef} (h : namedType listing reference = .ok type) :
    ∃ s, type = .named s ∧ (listing.types.lookup s).isSome = true := by
  obtain ⟨key, -, hrest⟩ := bind_eq_ok_iff.1 h
  obtain ⟨-, hchecked⟩ := of_guard hrest
  obtain ⟨_, -, hknown⟩ := bind_eq_ok_iff.1 hchecked
  cases key with
  | str s =>
    by_cases hlisted : (listing.types.lookup s).isSome
    · simp only [hlisted, ↓reduceIte] at hknown
      cases hknown
      exact ⟨s, rfl, hlisted⟩
    · simp only [hlisted, Bool.false_eq_true, ↓reduceIte] at hknown
      cases hknown
  | _ => cases hknown

/-- What a decorated reference comes to is made of what its inner reference comes to. -/
theorem exists_inner {entries : List (String × Json)} {wrap : TypeRef → Reading TypeRef} {type : TypeRef}
    (h : (match entries.attach.find? (·.1.1 == "ofType") with
      | none => refuse "Decorated type deeper than introspection query."
      | some ⟨(_, item), _⟩ =>
        if item.isEmptyLike then refuse "Decorated type deeper than introspection query."
        else do wrap (← typeRef listing item)) = .ok type) :
    ∃ key item inner, (key, item) ∈ entries ∧ typeRef listing item = .ok inner ∧ wrap inner = .ok type := by
  split at h
  · cases h
  · rename_i key item hmem _
    split at h
    · cases h
    · obtain ⟨inner, hinner, hwrap⟩ := bind_eq_ok_iff.1 h
      exact ⟨key, item, inner, hmem, hinner, hwrap⟩

/-- **What references come to leads to a type of the listing and is written as it should be.** -/
theorem of_typeRef (reference : Json) : ∀ {type : TypeRef}, typeRef listing reference = .ok type →
    type.isProper = true ∧ (listing.types.lookup type.base).isSome = true := by
  fun_induction typeRef listing reference with
  | case1 =>
    rename_i ih
    intro type h
    obtain ⟨key, item, innerType, hmem, hinner, hwrap⟩ := exists_inner h
    cases hwrap
    obtain ⟨hproper, hlisted⟩ := ih key item hmem hinner
    exact ⟨hproper, hlisted⟩
  | case2 =>
    rename_i ih
    intro type h
    obtain ⟨key, item, innerType, hmem, hinner, hwrap⟩ := exists_inner h
    split at hwrap
    · cases hwrap
    · rename_i hnullable
      cases hwrap
      obtain ⟨hproper, hlisted⟩ := ih key item hmem hinner
      exact ⟨by simp [TypeRef.isProper, hproper, hnullable], hlisted⟩
  | case3 =>
    intro type h
    obtain ⟨s, rfl, hs⟩ := of_namedType h
    exact ⟨rfl, hs⟩
  | case4 =>
    intro type h
    obtain ⟨s, rfl, hs⟩ := of_namedType h
    exact ⟨rfl, hs⟩

/-! ## Fields and members -/

/-- Is a type one of the listing that fields can have, written as it should be? -/
structure IsFieldType (listing : Listing) (type : TypeRef) : Prop where
  proper : type.isProper = true
  listed : (listing.types.lookup type.base).isSome = true
  output : listing.isOf ["INPUT_OBJECT"] type = false

/-- A field has a type that fields can have, and its arguments. -/
theorem of_outputField {part : Json} {f : OutputField} (h : outputField listing part = .ok f) :
    IsFieldType listing f.type ∧ ∃ notTexts parts, arguments listing notTexts parts = .ok f.arguments := by
  obtain ⟨reference, -, hreference⟩ := bind_eq_ok_iff.1 h
  obtain ⟨type, htype, hguarded⟩ := bind_eq_ok_iff.1 hreference
  obtain ⟨houtput, hparts⟩ := of_guard hguarded
  obtain ⟨parts, -, hguarded⟩ := bind_eq_ok_iff.1 hparts
  obtain ⟨-, hrest⟩ := of_guard hguarded
  obtain ⟨made, harguments, hchecks⟩ := bind_eq_ok_iff.1 hrest
  obtain ⟨_, -, hcheck⟩ := bind_eq_ok_iff.1 hchecks
  obtain ⟨_, -, hdone⟩ := bind_eq_ok_iff.1 hcheck
  cases hdone
  obtain ⟨hproper, hlisted⟩ := of_typeRef reference htype
  exact ⟨⟨hproper, hlisted, by simpa using houtput⟩, _, parts, harguments⟩

/-- The fields of a type are made of parts of its description, each under its name. -/
theorem exists_of_outputFields {type : String} {description : Json} {fields : List OutputField}
    (h : outputFields listing type description = .ok fields) {f : OutputField} (hf : f ∈ fields) :
    ∃ part made, outputField listing part = .ok made ∧ f = { made with name := f.name } := by
  obtain ⟨entries, htable, hnames⟩ := bind_eq_ok_iff.1 h
  obtain ⟨parts, -, hguarded⟩ := bind_eq_ok_iff.1 (mapError_eq_ok_iff.1 htable)
  obtain ⟨-, hmade⟩ := of_guard hguarded
  obtain ⟨hentries, hdistinct⟩ := tableOf_spec hmade
  obtain ⟨names, hnamed, hdone⟩ := bind_eq_ok_iff.1 hnames
  cases hdone
  obtain ⟨⟨n, made⟩, hentry, rfl⟩ := List.mem_map.1 hf
  obtain ⟨hold, -⟩ := (named_spec hnamed hdistinct).1 _ hentry
  obtain ⟨part, -, hpart⟩ := hentries _ hold
  exact ⟨part, made, hpart, rfl⟩

theorem kind?_of_members {type : String} {parts : Json} {names : List String}
    (h : members listing type parts = .ok names) {m : String} (hm : m ∈ names) : listing.kind? m = some "OBJECT" := by
  obtain ⟨references, -, hmap⟩ := bind_eq_ok_iff.1 (mapError_eq_ok_iff.1 h)
  obtain ⟨reference, -, hreference⟩ := mem_of_mapM hmap hm
  obtain ⟨t, -, hkind⟩ := bind_eq_ok_iff.1 hreference
  split at hkind
  · split at hkind
    · rename_i hobject
      cases hkind
      simpa using hobject
    · cases hkind
  · cases hkind

/-! ## Promises -/

/-- What a description of a certain kind promises. -/
inductive Promises (description : Json) : String → Promise → Prop
  | scalar : Promises description "SCALAR" fun _ _ => .scalar
  | object (type : String) : Promises description "OBJECT" fun listing _ =>
    .object (interfaces listing type description) (outputFields listing type description)
  | interface (type : String) : Promises description "INTERFACE" fun listing _ =>
    .interface (interfaces listing type description) (outputFields listing type description)
  | union (type : String) (parts : Json) : Promises description "UNION" fun listing _ =>
    .union (members listing type parts)
  | enum (values : List String) : Promises description "ENUM" fun _ _ => .enum values
  | input (type : String) (parts : Json) (isOneOf : Bool) : Promises description "INPUT_OBJECT" fun listing n =>
    .input (inputFields listing n type parts) isOneOf

/-- A description under a name that is no standard one promises a type of its kind. -/
theorem promises_of_promise {description : Json} {promised : Promise} {s : String}
    (hname : entry "name" description = .ok (.str s)) (hs : Standard.type? s = none)
    (h : promise description = .ok promised) :
    ∃ kind, description.field? "kind" = some (.str kind) ∧ Promises description kind promised := by
  obtain ⟨key, hkey, hrest⟩ := bind_eq_ok_iff.1 h
  rw [hname] at hkey
  cases hkey
  simp only [hs] at hrest
  split at hrest
  · obtain ⟨type, -, hurl⟩ := bind_eq_ok_iff.1 hrest
    obtain ⟨url, -, hguarded⟩ := bind_eq_ok_iff.1 hurl
    obtain ⟨-, hdone⟩ := of_guard hguarded
    cases hdone
    exact ⟨_, ‹_›, .scalar⟩
  · obtain ⟨type, -, hdone⟩ := bind_eq_ok_iff.1 hrest
    cases hdone
    exact ⟨_, ‹_›, .object type⟩
  · obtain ⟨type, -, hdone⟩ := bind_eq_ok_iff.1 hrest
    cases hdone
    exact ⟨_, ‹_›, .interface type⟩
  · obtain ⟨parts, -, hguarded⟩ := bind_eq_ok_iff.1 hrest
    obtain ⟨-, htype⟩ := of_guard hguarded
    obtain ⟨type, -, hdone⟩ := bind_eq_ok_iff.1 htype
    cases hdone
    exact ⟨_, ‹_›, .union type parts⟩
  · obtain ⟨parts, -, hguarded⟩ := bind_eq_ok_iff.1 hrest
    obtain ⟨-, hchecked⟩ := of_guard hguarded
    obtain ⟨_, -, hvalues⟩ := bind_eq_ok_iff.1 hchecked
    obtain ⟨values, -, hdone⟩ := bind_eq_ok_iff.1 hvalues
    cases hdone
    exact ⟨_, ‹_›, .enum values⟩
  · obtain ⟨parts, -, hguarded⟩ := bind_eq_ok_iff.1 hrest
    obtain ⟨-, htype⟩ := of_guard hguarded
    obtain ⟨type, -, honeOf⟩ := bind_eq_ok_iff.1 htype
    obtain ⟨isOneOf, -, hdone⟩ := bind_eq_ok_iff.1 honeOf
    cases hdone
    exact ⟨_, ‹_›, .input type parts _⟩
  · obtain ⟨_, -, hrefused⟩ := bind_eq_ok_iff.1 hrest
    cases hrefused
  · cases hrest

/-- The fields that are promised are made of parts, each under its name. -/
theorem Promises.exists_field {description : Json} {kind : String} {promised : Promise}
    (h : Promises description kind promised) {n : Nat} {details : TypeDetails}
    (hok : (promised listing n).details = .ok details) {f : OutputField} (hf : f ∈ details.fields) :
    ∃ part made, outputField listing part = .ok made ∧ f = { made with name := f.name } := by
  have hshows := DraftDetails.shows_of_details hok
  cases h with
  | object type =>
    cases hshows with
    | object hnames hfields => exact exists_of_outputFields hfields hf
  | interface type =>
    cases hshows with
    | interface hnames hfields => exact exists_of_outputFields hfields hf
  | scalar | enum | union | input =>
    cases hshows
    cases hf

theorem Promises.kind?_member {description : Json} {kind : String} {promised : Promise}
    (h : Promises description kind promised) {n : Nat} {details : TypeDetails}
    (hok : (promised listing n).details = .ok details) {m : String} (hm : m ∈ details.members) :
    listing.kind? m = some "OBJECT" := by
  have hshows := DraftDetails.shows_of_details hok
  cases h with
  | union type parts =>
    cases hshows with
    | union hmembers => exact kind?_of_members hmembers hm
  | scalar | enum | object | interface | input =>
    cases hshows
    cases hm

end

/-! ## The schema -/

/-- The listing of the types that are described. -/
def listingOf (promises : List (String × Json × Promise)) : Listing := ⟨promises.map fun (key, part, _) => (key, part)⟩

/-- Have promises distinct names of the grammar, and are they those of the descriptions under their names? -/
structure ArePromised (promises : List (String × Json × Promise)) : Prop where
  nodup : (promises.map (·.1)).Nodup
  named : ∀ {key part promised}, (key, part, promised) ∈ promises → IsName key
  promised : ∀ {key part promised}, (key, part, promised) ∈ promises →
    entry "name" part = .ok (.str key) ∧ promise part = .ok promised

theorem arePromised {parts : Json} {entries : List (Json × Json × Promise)} {promises : List (String × Json × Promise)}
    {notTexts : SchemaError} (ht : tableOf (fun part => do return (part, ← promise part)) parts = .ok entries)
    (hn : Description.named notTexts entries = .ok promises) : ArePromised promises := by
  obtain ⟨hentries, hdistinct⟩ := tableOf_spec ht
  obtain ⟨hnamed, hnodup⟩ := named_spec hn hdistinct
  refine ⟨hnodup, fun hm => (hnamed _ hm).2, fun hm => ?_⟩
  obtain ⟨part', hkey, hmake⟩ := hentries _ (hnamed _ hm).1
  obtain ⟨promised, hpromised, hdone⟩ := bind_eq_ok_iff.1 hmake
  cases hdone
  exact ⟨hkey, hpromised⟩

namespace ArePromised

variable {promises : List (String × Json × Promise)} (hp : ArePromised promises)
include hp

/-- A type of the listing that is no standard one is promised with its kind. -/
theorem exists_promises {key : String} (hs : Standard.type? key = none)
    (h : ((listingOf promises).types.lookup key).isSome = true) :
    ∃ part kind promised, (key, part, promised) ∈ promises ∧ Promises part kind promised ∧
      (listingOf promises).kind? key = some kind := by
  obtain ⟨part, hpart⟩ := Option.isSome_iff_exists.1 h
  obtain ⟨before, after, hsplit, -⟩ := List.lookup_eq_some_iff.1 hpart
  have hmem : (key, part) ∈ (listingOf promises).types := by simp [hsplit]
  obtain ⟨⟨key', part', promised⟩, hm, he⟩ := List.mem_map.1 hmem
  cases he
  obtain ⟨hname, hpromise⟩ := hp.promised hm
  obtain ⟨kind, hkind, hpromises⟩ := promises_of_promise hname hs hpromise
  refine ⟨part, kind, promised, hm, hpromises, ?_⟩
  rw [Listing.kind?, hs, hpart, Option.bind_some, hkind]

variable {draft : Draft} (hd : draft.types = promises.map fun (key, _, promised) =>
  (key, promised (listingOf promises) (bound (listingOf promises))))
include hd

theorem nodup_types : (draft.types.map (·.1)).Nodup := by
  have hnodup := hp.nodup
  rwa [hd, List.map_map]

theorem draftDetails?_eq {key : String} (hs : Standard.type? key = none) {part : Json} {promised : Promise}
    (h : (key, part, promised) ∈ promises) :
    draftDetails? draft.types key = some (promised (listingOf promises) (bound (listingOf promises))) := by
  rw [draftDetails?_of_own hs]
  refine lookup_of_mem (hp.nodup_types hd) ?_
  rw [hd]
  exact List.mem_map.2 ⟨_, h, rfl⟩

theorem isOutput_of_isFieldType {type : TypeRef} (h : IsFieldType (listingOf promises) type) :
    draft.typeIs (·.isOutput) type.base = true := by
  cases hs : Standard.type? type.base with
  | some t => exact Draft.isOutput_of_standard hs
  | none =>
    obtain ⟨part, kind, promised, hm, hpromises, hkind⟩ := hp.exists_promises hs h.listed
    have ho := h.output
    rw [Listing.isOf, hkind, Option.any_some] at ho
    rw [Draft.typeIs, hp.draftDetails?_eq hd hs hm, Option.any_some]
    cases hpromises with
    | input => simp at ho
    | _ => rfl

theorem isObject_of_kind? {key : String} (h : (listingOf promises).kind? key = some "OBJECT") :
    draft.typeIs (·.isObject) key = true := by
  cases hs : Standard.type? key with
  | some t =>
    refine Draft.isObject_of_standard hs ?_
    rw [Listing.kind?, hs] at h
    cases ht : t.details <;> simp_all [TypeDetails.isLeaf]
  | none =>
    have hlisted : ((listingOf promises).types.lookup key).isSome = true := by
      rw [Listing.kind?, hs] at h
      cases hl : (listingOf promises).types.lookup key with
      | none => simp [hl] at h
      | some part => rfl
    obtain ⟨part, kind, promised, hm, hpromises, hkind⟩ := hp.exists_promises hs hlisted
    rw [hkind] at h
    rw [Draft.typeIs, hp.draftDetails?_eq hd hs hm, Option.any_some]
    cases hpromises with
    | object => rfl
    | _ => simp at h

/-- **The draft of a description is sound.** -/
theorem isSound : draft.IsSound := by
  have hentry : ∀ t ∈ draft.types, ∃ part promised, (t.1, part, promised) ∈ promises ∧
      t.2 = promised (listingOf promises) (bound (listingOf promises)) := by
    intro t ht
    rw [hd] at ht
    obtain ⟨⟨key, part, promised⟩, hm, rfl⟩ := List.mem_map.1 ht
    exact ⟨part, promised, hm, rfl⟩
  refine ⟨fun t ht => ?_, hp.nodup_types hd, fun t ht hs details hok f hf => ?_, fun t ht hs details hok m hm => ?_⟩
  · obtain ⟨part, promised, hm, -⟩ := hentry t ht
    exact (hp.named hm).ne_empty
  · obtain ⟨part, promised, hm, hdetails⟩ := hentry t ht
    obtain ⟨hname, hpromise⟩ := hp.promised hm
    obtain ⟨kind, -, hpromises⟩ := promises_of_promise hname hs hpromise
    rw [hdetails] at hok
    obtain ⟨part', made, hmade, hsame⟩ := hpromises.exists_field hok hf
    have hfield : IsFieldType _ made.type := (of_outputField hmade).1
    rw [hsame]
    exact ⟨hp.isOutput_of_isFieldType hd hfield, hfield.proper⟩
  · obtain ⟨part, promised, hin, hdetails⟩ := hentry t ht
    obtain ⟨hname, hpromise⟩ := hp.promised hin
    obtain ⟨kind, -, hpromises⟩ := promises_of_promise hname hs hpromise
    rw [hdetails] at hok
    exact hp.isObject_of_kind? hd (hpromises.kind?_member hok hm)

end ArePromised

/-- The schema of a description is that of a draft with what its types promise. -/
theorem exists_draft {description : Json} {schema : Schema} (h : Description.schema description = .ok schema) :
    ∃ (promises : List (String × Json × Promise)) (draft : Draft), ArePromised promises ∧
      draft.types = promises.map (fun (key, _, promised) =>
        (key, promised (listingOf promises) (bound (listingOf promises)))) ∧ draft.schema = .ok schema := by
  obtain ⟨parts, -, htable⟩ := bind_eq_ok_iff.1 h
  obtain ⟨entries, hentries, hnames⟩ := bind_eq_ok_iff.1 htable
  obtain ⟨promises, hnamed, hquery⟩ := bind_eq_ok_iff.1 hnames
  obtain ⟨query, -, hmutation⟩ := bind_eq_ok_iff.1 hquery
  obtain ⟨mutation, -, hsubscription⟩ := bind_eq_ok_iff.1 hmutation
  obtain ⟨subscription, -, hdirectives⟩ := bind_eq_ok_iff.1 hsubscription
  obtain ⟨directiveParts, -, hrest⟩ := bind_eq_ok_iff.1 hdirectives
  have hp : ArePromised promises := arePromised hentries hnamed
  split at hrest
  · obtain ⟨directives, -, hmade⟩ := bind_eq_ok_iff.1 hrest
    obtain ⟨_, -, hschema⟩ := bind_eq_ok_iff.1 hmade
    exact ⟨promises, _, hp, rfl, hschema⟩
  · obtain ⟨items, -, hread⟩ := bind_eq_ok_iff.1 hrest
    obtain ⟨directives, -, hmade⟩ := bind_eq_ok_iff.1 hread
    obtain ⟨_, -, hschema⟩ := bind_eq_ok_iff.1 hmade
    exact ⟨promises, _, hp, rfl, hschema⟩

theorem isWellFormed {description : Json} {schema : Schema} (h : Description.schema description = .ok schema) :
    schema.IsWellFormed := by
  obtain ⟨promises, draft, hp, hd, hschema⟩ := exists_draft h
  exact (hp.isSound hd).isWellFormed hschema

end Description

/-- **Every schema that an answer describes is well formed.** -/
theorem isWellFormed_of_schemaOfDescription {answer : Json} {schema : Schema}
    (h : schemaOfDescription answer = .ok schema) : schema.IsWellFormed := by
  obtain ⟨data, -, hrest⟩ := bind_eq_ok_iff.1 h
  split at hrest
  · exact Description.isWellFormed hrest
  · cases hrest

end FixtureCheck.GraphQL
