import FixtureCheck.Proofs.Json.LineEnds
import FixtureCheck.Proofs.Json.Written
import FixtureCheck.Proofs.Network.Answer
import FixtureCheck.Proofs.SchemaStore.Call
import FixtureCheck.Proofs.Storage.FileTree

/-!
# Profiles that are kept

A profile is read from a file as it was kept there (`fileProfile_of_read`). `Keeps` is what holds of the files of a
folder of profiles: there is a file for each profile that was kept, and nothing else. Keeping one more changes its file
alone (`Keeps.keep`).
-/

namespace FixtureCheck.SchemaStore

open Storage (FileTree Path Place)
open Storage.FileTree (IsAt IsFileName)

variable {folder : Path} {url name path : String} {p : Profile} {files start : FileTree} {d : Json}

/-! ## Profiles -/

theorem ofJson_toJson (p : Profile) : Profile.ofJson p.toJson = .ok p := by
  rfl

theorem isProper_toJson_fetched {time : String} (h : d.IsProper) : (fetched url time d).toJson.IsProper := by
  refine .obj ?_ ?_
  · show ["url", "fetched_at", "hash", "schema_json", "sdl"].Nodup
    decide
  intro entry he
  simp only [List.mem_cons, List.not_mem_nil, or_false] at he
  rcases he with rfl | rfl | rfl | rfl | rfl
  · exact .str _
  · exact .str _
  · exact .str _
  · exact h
  · exact .null

/-- What a file holds is proper. -/
theorem isProper_of_fileJson (h : fileJson files path = .ok d) : d.IsProper := by
  obtain ⟨text, -, hparse⟩ := bind_eq_ok_iff.1 h
  exact Json.isProper_of_parse (mapError_eq_ok_iff.1 hparse)

/-- A value is read from the file that it was written to. -/
theorem fileJson_of_read {path : String} {v : Json} (hv : v.IsProper) (h : files.read path = .ok v.indented) :
    fileJson files path = .ok v := by
  have htext : fileText files path = .ok v.indented := by
    unfold fileText
    rw [h]
    dsimp only
    rw [Json.unifyLineEnds_indented hv]
  refine bind_eq_ok_iff.2 ⟨_, htext, ?_⟩
  rw [Json.indented, hv.parse_render Json.isBlank_indentedLayout]
  rfl

/-- **A profile is read as it was kept.** -/
theorem fileProfile_of_read {path : String} (hp : p.toJson.IsProper) (h : files.read path = .ok p.toJson.indented) :
    fileProfile files path = .ok p := by
  refine bind_eq_ok_iff.2 ⟨_, fileJson_of_read hp h, ?_⟩
  rw [ofJson_toJson]
  rfl

/-! ## The files of a folder of profiles -/

/-- **Is nothing in a folder**, nor once it is made? -/
def HasNothingIn (files : FileTree) (folder : Path) : Prop :=
  ∀ name, IsFileName name → files.has (folder.child name) = false ∧
    ∀ made, files.makeFolders folder = .ok made → made.has (folder.child name) = false

/-- The path at which a call keeps what it fetches, if it asks an address. -/
def Call.keptAt (folder : Path) (call : Call) : Option Path :=
  call.address.bind fun url => (SchemaStore.keptAt folder url).toOption

/-- The profile that a call fetched and kept at a path, if it did. -/
def Event.fetch (folder kept : Path) (e : Event) : Option Profile :=
  if e.posts ≠ [] ∧ e.call.keptAt folder = some kept then e.result.toOption else none

/-- The profile that was fetched last of those that were kept at a path. -/
def latestFetch (folder kept : Path) (events : List Event) : Option Profile :=
  events.reverse.findSome? (·.fetch folder kept)

/-- What a folder has at the place of a file. -/
def entryOf : Option Profile → Storage.Entry
  | some p => .file p.toJson.indented
  | none => .absent

/-- **Does a tree keep certain profiles in a folder, and nothing else?** It is either as it was at the beginning, when
nothing was kept, or the folder was made and holds a file for each of the profiles. -/
inductive Keeps (start : FileTree) (folder : Path) (profiles : String → Option Profile) : FileTree → Prop where
  | untouched (h : ∀ name, IsFileName name → profiles name = none) : Keeps start folder profiles start
  | made {files : FileTree} {q : Place} (hq : files.IsAt folder q)
    (h : ∀ name, IsFileName name → files.entryAt (q ++ [name]) = entryOf (profiles name)) :
    Keeps start folder profiles files

variable {profiles : String → Option Profile}

/-- A folder that is made keeps the profiles. -/
theorem Keeps.of_makeFolders (hp : folder.IsProper) (hstart : HasNothingIn start folder)
    (h : Keeps start folder profiles files) {made : FileTree} (hmade : files.makeFolders folder = .ok made) :
    ∃ q, made.IsAt folder q ∧ ∀ name, IsFileName name → made.entryAt (q ++ [name]) = entryOf (profiles name) := by
  cases h with
  | untouched hnone =>
    obtain ⟨-, q, hq⟩ := FileTree.isAt_of_makeFolders hmade
    refine ⟨q, hq, ?_⟩
    intro name hname
    have hhas := (hstart name hname).2 made hmade
    rw [hnone name hname]
    by_contra hentry
    exact absurd ((hq.has_child hp hname).2 hentry) (by rw [hhas]; simp)
  | made hq hentry =>
    rw [hq.makeFolders] at hmade
    cases hmade
    exact ⟨_, hq, hentry⟩

theorem Keeps.has (hp : folder.IsProper) (hstart : HasNothingIn start folder) (h : Keeps start folder profiles files)
    (hname : IsFileName name) : files.has (folder.child name) = (profiles name).isSome := by
  cases h with
  | untouched hnone =>
    rw [hnone name hname]
    exact (hstart name hname).1
  | made hq hentry =>
    rw [Bool.eq_iff_iff, hq.has_child hp hname, hentry name hname]
    cases profiles name <;> simp [entryOf]

theorem Keeps.read (hp : folder.IsProper) (h : Keeps start folder profiles files) (hname : IsFileName name)
    (hprofile : profiles name = some p) : files.read (folder.child name).text = .ok p.toJson.indented := by
  cases h with
  | untouched hnone =>
    rw [hnone name hname] at hprofile
    cases hprofile
  | made hq hentry =>
    refine hq.read_child hp hname ?_
    rw [hentry name hname, hprofile]
    rfl

/-- Keeping a profile changes nothing if the folder cannot be made, and else the profile of the name alone. -/
theorem Keeps.keep (hp : folder.IsProper) (hstart : HasNothingIn start folder) (h : Keeps start folder profiles files)
    (hname : IsFileName name) (p : Profile) :
    (∃ cause, files.makeFolders folder = .error cause ∧ keep files (folder.child name) p = (.error cause, files)) ∨
    ∃ after, keep files (folder.child name) p = (.ok (), after) ∧
      Keeps start folder (fun n => if n = name then some p else profiles n) after := by
  unfold SchemaStore.keep
  rw [Path.parent_child]
  cases hmade : files.makeFolders folder with
  | error cause => exact .inl ⟨cause, rfl, rfl⟩
  | ok made =>
    right
    obtain ⟨q, hq, hentry⟩ := h.of_makeFolders hp hstart hmade
    have hfile : made.entryAt (q ++ [name]) ≠ .folder := by
      rw [hentry name hname]
      cases profiles name <;> simp [entryOf]
    obtain ⟨after, hwrite, hafter, hself, hothers⟩ := hq.write_child hp hname p.toJson.indented hfile
    dsimp only
    rw [hwrite]
    refine ⟨after, rfl, .made hafter ?_⟩
    intro other hother
    split
    next heq =>
      rw [heq]
      exact hself
    next hne =>
      rw [hothers other hne]
      exact hentry other hother

end FixtureCheck.SchemaStore
