import FixtureCheck.Proofs.Json.Canonical
import FixtureCheck.Proofs.SchemaStore.Kept

/-!
# Digests of schemas

A profile that a call makes of a file or an answer has the digest of its source (`Profile.IsMade.isDigested`), which is
that of a canonical text. So the digest does not depend on the order of keys anywhere in a schema, and whatever else
changes in it changes the text that the digest is taken of (`canonical_iff_equalButForOrder`).
-/

namespace FixtureCheck.SchemaStore

open Storage (FileTree Path)

variable {folder : Path} {files : FileTree} {url path time : String} {d : Json} {p : Profile} {call : Call}

/-- What a profile has the schema of: a text, or else a description. -/
def Profile.source (p : Profile) : Json :=
  match p.text with
  | .null => p.description
  | text => text

/-- **Was a profile made by a call**, and not one that was kept? -/
def Profile.IsMade (p : Profile) : Prop :=
  ∃ folder files, ∃ call : Call, (call.perform folder files).result = .ok p ∧
    (call.address = none ∨ (call.perform folder files).posts ≠ [])

/-- **Has a profile the digest of its source**, a proper value? -/
structure Profile.IsDigested (p : Profile) : Prop where
  isProper : p.source.IsProper
  digest : p.digest = .str (digestOf p.source)

/-! ## Profiles that are made -/

theorem isProper_of_answered {answer : Except String Network.Response} (h : answered url answer = .ok d) :
    d.IsProper := by
  cases answer with
  | error cause => cases h
  | ok response => exact Network.Response.isProper_of_schema (mapError_eq_ok_iff.1 h)

theorem isDigested_fetched (hd : d.IsProper) : (fetched url time d).IsDigested := ⟨hd, rfl⟩

/-- A profile that is made of a file. -/
theorem isDigested_of_readProfile (h : readProfile files path time = .ok p) : p.IsDigested := by
  unfold readProfile at h
  dsimp only at h
  split at h
  · cases h
  · split at h
    · obtain ⟨text, -, h⟩ := bind_eq_ok_iff.1 h
      cases h
      exact ⟨.str text, rfl⟩
    · obtain ⟨description, hread, h⟩ := bind_eq_ok_iff.1 h
      cases h
      exact isDigested_fetched (isProper_of_fileJson hread)

/-- A profile that is made of an answer. -/
theorem isDigested_of_posts (haddress : call.address = some url) (hposts : (call.perform folder files).posts ≠ [])
    (h : (call.perform folder files).result = .ok p) : p.IsDigested := by
  rw [perform_of_address folder files haddress] at hposts h
  cases hkept : keptAt folder url with
  | error cause =>
    rw [hkept] at hposts
    exact absurd rfl hposts
  | ok kept =>
    rw [hkept] at hposts h
    dsimp only at hposts h
    split at h
    next husable =>
      rw [if_pos husable] at hposts
      exact absurd rfl hposts
    · cases hanswered : answered url call.answer with
      | error cause =>
        rw [hanswered] at h
        cases h
      | ok d =>
        rw [hanswered] at h
        obtain ⟨_, -, hp⟩ := map_eq_ok_iff.1 (mapError_eq_ok_iff.1 h)
        rw [← hp]
        exact isDigested_fetched (isProper_of_answered hanswered)

/-- **A profile that is made has the digest of its source.** -/
theorem Profile.IsMade.isDigested (h : p.IsMade) : p.IsDigested := by
  obtain ⟨folder, files, call, hresult, hmade⟩ := h
  cases hfile : call.request.file.filter (· ≠ "") with
  | some path =>
    rw [perform_of_file folder files hfile] at hresult
    exact isDigested_of_readProfile hresult
  | none =>
    cases haddress : call.address with
    | none =>
      rw [perform_of_nothing folder files hfile haddress] at hresult
      cases hresult
    | some url => exact isDigested_of_posts haddress (hmade.resolve_left (by simp [haddress])) hresult

/-! ## Canonical texts and digests -/

/-- **A digest is that of a canonical form.** Values have the same canonical text exactly if they are equal but for the
order of keys. The digest of a profile that is made is that of the canonical text of its source; so it is the same for
sources that are equal but for the order of keys, and the texts are different for any other two. -/
theorem canonical_iff_equalButForOrder :
    (∀ v w : Json, v.IsProper → w.IsProper → (v.canonical = w.canonical ↔ v.EqualButForOrder w)) ∧
    ∀ p p' : Profile, p.IsMade → p'.IsMade →
      p.digest = .str (Text.fingerprint p.source.canonical) ∧
      (p.source.canonical = p'.source.canonical ↔ p.source.EqualButForOrder p'.source) ∧
      (p.source.EqualButForOrder p'.source → p.digest = p'.digest) := by
  refine ⟨fun v w hv hw => hv.canonical_eq_iff hw, fun p p' hp hp' => ?_⟩
  obtain ⟨hproper, hdigest⟩ := hp.isDigested
  obtain ⟨hproper', hdigest'⟩ := hp'.isDigested
  have hiff := hproper.canonical_eq_iff hproper'
  refine ⟨hdigest, hiff, fun hsame => ?_⟩
  rw [hdigest, hdigest', digestOf, digestOf, hiff.2 hsame]

/-- A folder with a description in a file. -/
def describedIn (description : Json) : FileTree := { files := [(["s.json"], description.indented)] }

/-- A call for the schema in the file. -/
def askingFile : Call where
  request := { file := some "s.json" }
  time := "2000-01-01T00:00:00+00:00"
  answer := .error "no answer"

theorem isMade_of_describedIn (hd : d.IsProper) : (fetched "file://s.json" askingFile.time d).IsMade := by
  have hhas : (describedIn d).has (.ofText "s.json") = true := rfl
  have hsuffix : textSuffixes.contains (Text.lower (Path.ofText "s.json").suffix) = false := by decide +kernel
  have hread : (describedIn d).read "s.json" = .ok d.indented := rfl
  have hprofile : readProfile (describedIn d) "s.json" askingFile.time =
      .ok (fetched "file://s.json" askingFile.time d) := by
    unfold readProfile
    dsimp only
    rw [hhas, if_neg (by decide), hsuffix, if_neg (by decide), fileJson_of_read hd hread]
    rfl
  refine ⟨⟨.here, []⟩, describedIn d, askingFile, ?_, .inl rfl⟩
  rw [perform_of_file _ _ (show askingFile.request.file.filter (· ≠ "") = some "s.json" from rfl)]
  exact hprofile

/-- A part of a description. -/
def kindFirst : Json := .obj [("queryType", .null), ("types", .arr [.obj [("kind", .int 1), ("name", .str "Query")]])]

/-- The part with its keys in another order, at two depths. -/
def nameFirst : Json := .obj [("types", .arr [.obj [("name", .str "Query"), ("kind", .int 1)]]), ("queryType", .null)]

theorem isProper_kindFirst : kindFirst.IsProper := by
  have hinner : (Json.obj [("kind", .int 1), ("name", .str "Query")]).IsProper :=
    .obj (by decide) (by simpa using ⟨.int 1, .str "Query"⟩)
  exact .obj (by decide) (by simpa using ⟨.null, .arr (by simpa using hinner)⟩)

theorem isProper_nameFirst : nameFirst.IsProper := by
  have hinner : (Json.obj [("name", .str "Query"), ("kind", .int 1)]).IsProper :=
    .obj (by decide) (by simpa using ⟨.str "Query", .int 1⟩)
  exact .obj (by decide) (by simpa using ⟨.arr (by simpa using hinner), .null⟩)

theorem equalButForOrder_nameFirst : kindFirst.EqualButForOrder nameFirst := by
  refine .obj id (.swap _ _ _) fun key inner inner' hinner hinner' => ?_
  have hmem := Json.mem_of_lookup hinner
  have hmem' := Json.mem_of_lookup hinner'
  simp only [List.mem_cons, Prod.mk.injEq, List.not_mem_nil, or_false] at hmem hmem'
  rcases hmem with ⟨rfl, rfl⟩ | ⟨rfl, rfl⟩
  · obtain ⟨-, rfl⟩ := hmem'.resolve_left fun h => absurd h.1 (by decide)
    exact .same _ _
  · obtain ⟨-, rfl⟩ := hmem'.resolve_right fun h => absurd h.1 (by decide)
    refine .arr id rfl fun i item item' hitem hitem' => ?_
    obtain rfl := List.mem_singleton.1 (List.mem_of_getElem? hitem)
    obtain rfl := List.mem_singleton.1 (List.mem_of_getElem? hitem')
    exact .of_perm id (.swap _ _ _) (by decide)

theorem digest_nameFirst : ∃ p p' : Profile, p.IsMade ∧ p'.IsMade ∧ p.source = kindFirst ∧ p'.source = nameFirst ∧
    p.source ≠ p'.source ∧ p.source.canonical = p'.source.canonical ∧ p.digest = p'.digest := by
  obtain ⟨hvalues, hprofiles⟩ := canonical_iff_equalButForOrder
  have hcanonical := (hvalues _ _ isProper_kindFirst isProper_nameFirst).2 equalButForOrder_nameFirst
  obtain ⟨-, -, hdigest⟩ := hprofiles _ _ (isMade_of_describedIn isProper_kindFirst)
    (isMade_of_describedIn isProper_nameFirst)
  refine ⟨_, _, isMade_of_describedIn isProper_kindFirst, isMade_of_describedIn isProper_nameFirst, rfl, rfl, ?_,
    hcanonical, hdigest equalButForOrder_nameFirst⟩
  simp [Profile.source, fetched, kindFirst, nameFirst]

end FixtureCheck.SchemaStore
