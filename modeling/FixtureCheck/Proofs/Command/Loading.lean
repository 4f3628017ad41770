import FixtureCheck.Command.Validation
import FixtureCheck.Proofs.SchemaStore.Kept
import FixtureCheck.Proofs.Yaml.Proper

/-!
# What a validation loads

Everything that a validation does before it prints its report only loads something: settings (`loads_settings`), a
schema (`loads_schema`), a query (`loads_query`) and a fixture (`loads_fixture`). What comes from files is a proper
value, so that a report that shows it can be read back.
-/

namespace FixtureCheck

open Json (IsProper)
open Report (Summary)

/-! ## Values of files -/

theorem Json.IsProper.empty : IsProper (.obj []) := .obj List.nodup_nil (by simp)

theorem Json.IsProper.getD_lookup {entries : List (String × Json)} {default : Json} (h : IsProper (.obj entries))
    (key : String) (hd : IsProper default) : IsProper ((Json.lookup entries key).getD default) := by
  cases hv : Json.lookup entries key with
  | none => exact hd
  | some v => exact h.of_lookup hv

/-! ## Settings -/

namespace Settings

theorem isProper_of_ofEntries {home : Storage.Path} {entries : List (String × Json)} {settings : Settings}
    (he : IsProper (.obj entries)) (h : ofEntries home entries = .ok settings) : settings.mutation.IsProper := by
  unfold ofEntries at h
  obtain ⟨kept, -, h⟩ := bind_eq_ok_iff.1 h
  dsimp only at h
  split at h
  all_goals
    obtain ⟨file, -, h⟩ := bind_eq_ok_iff.1 h
    cases h
    exact he.getD_lookup _ .null

theorem isProper_of_ofJson {home : Storage.Path} {value : Json} {settings : Settings}
    (hv : value.IsProper) (h : ofJson home value = .ok settings) : settings.mutation.IsProper := by
  unfold ofJson at h
  split at h
  · exact isProper_of_ofEntries .empty h
  · split at h
    · exact isProper_of_ofEntries hv h
    · cases h

theorem loads_settings (path : Option String) :
    Loads (load path : ExceptT SettingsError (StateM Machine) Settings) (·.mutation.IsProper) := by
  have hpath : Loads (pathOrUsual path : ExceptT SettingsError (StateM Machine) String) fun _ => True := by
    unfold pathOrUsual
    cases path with
    | some path => exact .pure trivial
    | none => exact .bind .home fun _ _ => .bind (.ofExcept fun _ _ => trivial) fun _ _ => .pure trivial
  unfold load
  refine .bind .home fun home _ => .bind hpath fun path _ => .bind (.has _) fun isThere _ => ?_
  split
  · refine .ofExcept fun settings h => ?_
    exact isProper_of_ofEntries .empty h
  · refine .bind (.readText path) fun text _ => ?_
    split
    · exact .throw _
    · split
      · exact .throw _
      next value hvalue => exact .ofExcept fun settings h => isProper_of_ofJson (Yaml.isProper_of_parse hvalue) h

/-- Where there is no file of settings, they are the defaults. -/
theorem outcome_load_of_absent {usual : Storage.Path} {s : Machine} (hu : usualPath s.home = .ok usual)
    (h : s.files.has (.ofText usual.text) = false) : outcome (load none) s = (ofEntries s.home [], s) := by
  have hhome : outcome (Host.home : ExceptT SettingsError (StateM Machine) _) s = (.ok s.home, s) := rfl
  have hpath : outcome (pathOrUsual none : ExceptT SettingsError (StateM Machine) _) s = (.ok usual.text, s) := by
    unfold pathOrUsual
    dsimp only
    rw [outcome_bind, hhome]
    dsimp only
    rw [outcome_bind, outcome_ofExcept, hu]
    rfl
  unfold load
  rw [outcome_bind, hhome]
  dsimp only
  rw [outcome_bind, hpath]
  dsimp only
  rw [outcome_bind, outcome_has, h]
  dsimp only
  rw [if_pos (by decide), outcome_ofExcept]

end Settings

/-! ## Schemas -/

namespace SchemaStore

open Network (Response)

theorem isProper_url_of_ofJson {value : Json} {p : Profile} (hv : value.IsProper) (h : Profile.ofJson value = .ok p) :
    p.url.IsProper := by
  unfold Profile.ofJson at h
  split at h
  · split at h
    · cases h
    · split at h
      · cases h
        exact hv.getD_lookup _ .null
      · cases h
  · cases h

theorem loads_profileNow (url : String) (source : Json) (isText : Bool) :
    Loads (profileNow url source isText : ExceptT LoadError (StateM Machine) Profile) (·.url.IsProper) := by
  unfold profileNow
  refine .bind .now fun now _ => ?_
  dsimp only
  split <;> exact .pure (.str url)

theorem loads_attempt (outcome : Machine → Except Storage.FileError Storage.FileTree) :
    Loads (attempt (fun s => Machine.setFiles (outcome s) s : StateM Machine _)) fun _ => True := by
  unfold attempt
  refine .bind (.lift fun s => Loads.printed_setFiles (outcome s) s) fun result _ => ?_
  split
  · exact .throw _
  · exact .pure trivial

theorem loads_fetch (url : String) (token : Option String) (kept : Storage.Path) :
    Loads (fetch url token kept : ExceptT LoadError (StateM Machine) Profile) (·.url.IsProper) := by
  have hask : Loads (Network.introspect url token : ExceptT _ (StateM Machine) _) fun _ => True := by
    unfold Network.introspect
    refine .bind (.post _) fun answer _ => ?_
    split
    · exact .throw _
    · exact .ofExcept fun _ _ => trivial
  unfold fetch
  refine .bind (hask.adapt _) fun description _ => .bind (loads_profileNow url description false) fun profile hp => ?_
  refine .bind (loads_attempt fun s => s.files.makeFolders kept.parent) fun _ _ => ?_
  exact .bind (loads_attempt fun s => s.files.write kept.text profile.toJson.indented) fun _ _ => .pure hp

theorem loads_loadFile (path : String) :
    Loads (loadFile path : ExceptT LoadError (StateM Machine) Profile) (·.url.IsProper) where
  printed s := by rw [outcome_loadFile]
  result s p hp := by
    rw [outcome_loadFile] at hp
    unfold readProfile at hp
    dsimp only at hp
    split at hp
    · cases hp
    · split at hp
      · obtain ⟨text, -, hp⟩ := bind_eq_ok_iff.1 hp
        cases hp
        exact .str _
      · obtain ⟨value, -, hp⟩ := bind_eq_ok_iff.1 hp
        cases hp
        exact .str _

theorem isProper_url_of_fileProfile {files : Storage.FileTree} {path : String} {p : Profile}
    (h : fileProfile files path = .ok p) : p.url.IsProper := by
  unfold fileProfile at h
  obtain ⟨value, hvalue, h⟩ := bind_eq_ok_iff.1 h
  exact isProper_url_of_ofJson (isProper_of_fileJson hvalue) (mapError_eq_ok_iff.1 h)

theorem loads_loadUrl (folder : Storage.Path) (url : String) (request : SchemaRequest) :
    Loads (loadUrl folder url request : ExceptT LoadError (StateM Machine) Profile) (·.url.IsProper) where
  printed s := by
    rw [outcome_loadUrl]
    split
    · rfl
    · split
      · rfl
      · exact (loads_fetch ..).printed s
  result s p hp := by
    rw [outcome_loadUrl] at hp
    split at hp
    · cases hp
    · split at hp
      · exact isProper_url_of_fileProfile hp
      · exact (loads_fetch ..).result s p hp

theorem loads_schema (folder : Storage.Path) (request : SchemaRequest) :
    Loads (load folder request : ExceptT LoadError (StateM Machine) Profile) (·.url.IsProper) := by
  unfold load
  split
  · exact loads_loadFile _
  · dsimp only
    split
    · exact .throw_bind _
    · split
      · exact loads_loadUrl _ _ _
      · exact .throw _

end SchemaStore

/-! ## Queries and fixtures -/

namespace Fixture

theorem loads_query (path : String) :
    Loads (loadQuery path : ExceptT LoadError (StateM Machine) Query) fun _ => True := by
  unfold loadQuery
  refine .bind (.has _) fun isThere _ => ?_
  dsimp only
  split
  · exact .throw_bind _
  · refine .bind (.readText _) fun text _ => .bind (P := fun _ => True) (.ofExcept fun _ _ => trivial) fun text _ => ?_
    exact .bind (P := fun _ => True) (.ofExcept fun _ _ => trivial) fun document _ => .pure trivial

/-- A query that is there is read and taken apart. -/
theorem outcome_loadQuery {path text source : String} {document : GraphQL.Document} {s : Machine}
    (hh : s.files.has (.ofText path) = true) (hr : s.files.read (Storage.Path.ofText path).text = .ok text)
    (hu : String.ofList (unifyLineEnds text.toList) = source) (hp : GraphQL.parseDocument source = .ok document) :
    outcome (loadQuery path) s = (.ok ⟨source, document⟩, s) := by
  unfold loadQuery
  dsimp only
  rw [outcome_bind, outcome_has, hh]
  dsimp only [Bool.not_true]
  rw [if_neg (by decide), outcome_bind, outcome_readText, hr]
  dsimp only
  rw [outcome_bind, outcome_ofExcept]
  dsimp only [Except.map, Except.mapError]
  rw [outcome_bind, outcome_ofExcept, hu, hp]
  rfl

/-- A fixture file that is there is read and taken apart. -/
theorem outcome_loadFixture {path text : String} {fixture : FixtureData} {s : Machine}
    (hr : s.files.read path = .ok text)
    (hf : FixtureData.ofText (String.ofList (unifyLineEnds text.toList)) = .ok fixture) :
    outcome (loadFixture path) s = (.ok fixture, s) := by
  unfold loadFixture
  rw [outcome_bind, outcome_readText, hr]
  dsimp only
  rw [outcome_bind, outcome_ofExcept]
  dsimp only [Except.map, Except.mapError]
  rw [outcome_ofExcept, hf]

/-- **Does a fixture hold proper values?** Those that a report shows. -/
structure FixtureData.IsProper (fixture : FixtureData) : Prop where
  exportName : fixture.exportName.IsProper
  target : fixture.target.IsProper
  queryVariables : fixture.queryVariables.IsProper

theorem isProper_of_ofText {text : String} {fixture : FixtureData} (h : FixtureData.ofText text = .ok fixture) :
    fixture.IsProper := by
  unfold FixtureData.ofText at h
  obtain ⟨file, hfile, h⟩ := bind_eq_ok_iff.1 h
  have hproper : file.IsProper := Json.isProper_of_parse (mapError_eq_ok_iff.1 hfile)
  unfold FixtureData.ofJson at h
  split at h
  next payload hpayload =>
    have hentries : Json.IsProper (.obj payload) := by
      cases file with
      | obj entries => exact hproper.of_lookup hpayload
      | _ => cases hpayload
    split at h
    · cases h
    · cases h
      refine ⟨hentries.getD_lookup _ .null, hentries.getD_lookup _ .null, ?_⟩
      dsimp only
      split
      · exact .empty
      · exact hentries.getD_lookup _ .null
  · cases h

theorem loads_fixture (path : String) :
    Loads (loadFixture path : ExceptT LoadError (StateM Machine) FixtureData) FixtureData.IsProper := by
  unfold loadFixture
  refine .bind (.readText _) fun text _ => .bind (P := fun _ => True) (.ofExcept fun _ _ => trivial) fun text _ => ?_
  exact .ofExcept fun fixture h => isProper_of_ofText (mapError_eq_ok_iff.1 h)

end Fixture

end FixtureCheck
