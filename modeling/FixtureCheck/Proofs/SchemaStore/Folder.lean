import FixtureCheck.Proofs.SchemaStore.Run
import FixtureCheck.Proofs.Storage.Changes

/-!
# The folder of kept answers

Calls change nothing but files in the folder of kept answers, and the folders on its path if they have to be made
(`changesOnlyIn_run`). Whatever the address, the path at which its answer is kept, written as a text and read back,
names a file right in that folder (`kept_stays_in_folder`).
-/

namespace FixtureCheck.SchemaStore

open Storage (FileTree Path)
open Storage.FileTree (IsFileName ChangesOnlyIn)
open Network (Address)

variable {folder : Path} {url name : String} {address : Address} {p : Profile}

/-- **Is a text the name of a file for kept answers?** It is not empty, leads to no other folder, has no slashes, and
ends in `.json`. -/
structure IsKeptName (name : String) : Prop where
  isFileName : IsFileName name
  ending : ∃ host, name = host ++ ".json"

theorem isKeptName_hostName (address : Address) : IsKeptName (address.hostName ++ ".json") :=
  ⟨isFileName_hostName address, address.hostName, rfl⟩

/-! ## What calls change -/

/-- Keeping a profile changes its file, after its folder was made. -/
theorem changesOnlyIn_keep (hp : folder.IsProper) (hname : IsKeptName name) (files : FileTree) (p : Profile) :
    ChangesOnlyIn folder IsKeptName files (keep files (folder.child name) p).2 := by
  unfold keep
  rw [Path.parent_child]
  cases hmade : files.makeFolders folder with
  | error cause => exact .refl files
  | ok made =>
    have hfolders : ChangesOnlyIn folder IsKeptName files made := FileTree.changesOnlyIn_of_makeFolders hmade
    obtain ⟨-, q, hq⟩ := FileTree.isAt_of_makeFolders hmade
    dsimp only
    cases hwrite : made.write (folder.child name).text p.toJson.indented with
    | error cause => exact hfolders
    | ok after => exact hfolders.trans (hq.changesOnlyIn_of_write hp hname.isFileName hname hwrite)

/-- **A call changes files in the folder of kept answers only.** -/
theorem changesOnlyIn_perform (hp : folder.IsProper) (files : FileTree) (call : Call) :
    ChangesOnlyIn folder IsKeptName files (call.perform folder files).after := by
  cases haddress : call.address with
  | none =>
    rw [(perform_of_address_none haddress).2]
    exact .refl files
  | some url =>
    rw [perform_of_address folder files haddress]
    cases hkept : keptAt folder url with
    | error cause => exact .refl files
    | ok kept =>
      obtain ⟨address, -, rfl⟩ := exists_of_keptAt hkept
      dsimp only
      split
      · exact .refl files
      · cases answered url call.answer with
        | error cause => exact .refl files
        | ok description => exact changesOnlyIn_keep hp (isKeptName_hostName address) files _

/-- **So do calls one after the other.** -/
theorem changesOnlyIn_run (hp : folder.IsProper) (calls : List Call) (files : FileTree) :
    ∀ e ∈ run folder files calls, ChangesOnlyIn folder IsKeptName files e.after := by
  induction calls generalizing files with
  | nil =>
    intro e he
    cases he
  | cons call calls ih =>
    intro e he
    have hfirst := changesOnlyIn_perform hp files call
    rcases List.mem_cons.1 he with rfl | he
    · exact hfirst
    · exact hfirst.trans (ih _ e he)

/-! ## Paths as texts -/

/-- **Answers are kept in the folder for them.** Whatever the text of the folder: the path for the answer of an address
names a file right in that folder, and calls change nothing but files there, and folders that have to be made for it. -/
theorem kept_stays_in_folder (folder : String) :
    (∀ url address, Address.ofText url = .ok address → ∃ kept, keptAt (.ofText folder) url = .ok kept ∧
      (Path.ofText kept.text).parent.text = (Path.ofText folder).text ∧ IsKeptName (Path.ofText kept.text).name) ∧
    ∀ files calls, ∀ e ∈ run (.ofText folder) files calls,
      ChangesOnlyIn (.ofText folder) IsKeptName files e.after := by
  have hp := Storage.isProper_ofText folder
  refine ⟨fun url address h => ?_, fun files calls => changesOnlyIn_run hp calls files⟩
  have hname := isKeptName_hostName address
  have htext := Path.ofText_text (hp.child hname.isFileName.1)
  refine ⟨_, keptAt_of_address (.ofText folder) h, ?_, ?_⟩
  · rw [htext, Path.parent_child]
  · rw [htext]
    simpa [Path.child, Path.name] using hname

/-- A call to an address that climbs out of folders. -/
def climbing : Call := asking "../../etc/passwd" (.obj [("data", .null)])

theorem ofText_climbing : Address.ofText "../../etc/passwd" = .ok ⟨"", "../../etc/passwd"⟩ := rfl

theorem keptAt_climbing : keptAt emptyCache "../../etc/passwd" = .ok (emptyCache.child ".._.._etc_passwd.json") := by
  rfl

theorem isFileName_climbing : IsFileName ".._.._etc_passwd.json" := by
  obtain ⟨address, -, hkept⟩ := exists_of_keptAt keptAt_climbing
  rw [Path.child_inj.1 hkept]
  exact isFileName_hostName address

/-- The call keeps its answer. -/
theorem has_climbing :
    (climbing.perform emptyCache {}).after.has (emptyCache.child ".._.._etc_passwd.json") = true := by
  have hnothing : Keeps {} emptyCache (fun _ => none) {} := .untouched fun _ _ => rfl
  have hperform := perform_of_address emptyCache {} (show climbing.address = some "../../etc/passwd" from rfl)
  have hanswered : answered "../../etc/passwd" climbing.answer = .ok .null := answered_asking _ .null
  rw [keptAt_climbing, hanswered] at hperform
  dsimp only at hperform
  rw [(hasNothingIn_emptyCache _ isFileName_climbing).1, Bool.and_false, if_neg (by decide)] at hperform
  rcases hnothing.keep isProper_emptyCache hasNothingIn_emptyCache isFileName_climbing
    (fetched "../../etc/passwd" climbing.time .null) with ⟨cause, hmade, -⟩ | ⟨after, hkeep, hafter⟩
  · rw [makeFolders_emptyCache] at hmade
    cases hmade
  · rw [hkeep] at hperform
    rw [hperform]
    show after.has _ = true
    rw [hafter.has isProper_emptyCache hasNothingIn_emptyCache isFileName_climbing, if_pos rfl]
    rfl

theorem climbing_stays_in_folder : Address.ofText "../../etc/passwd" = .ok ⟨"", "../../etc/passwd"⟩ ∧
    (∃ kept, keptAt emptyCache "../../etc/passwd" = .ok kept ∧ kept.text = "cache/.._.._etc_passwd.json" ∧
      (Path.ofText kept.text).parent.text = "cache") ∧
    ∃ e ∈ run emptyCache {} [climbing], e.after ≠ {} ∧ ChangesOnlyIn emptyCache IsKeptName {} e.after := by
  obtain ⟨hpaths, hchanges⟩ := kept_stays_in_folder "cache"
  refine ⟨ofText_climbing, ?_, _, List.mem_singleton_self _, ?_, hchanges {} [climbing] _ (List.mem_singleton_self _)⟩
  · obtain ⟨kept, hkept, hparent, -⟩ := hpaths _ _ ofText_climbing
    obtain rfl := Except.ok.inj (keptAt_climbing.symm.trans hkept)
    exact ⟨_, keptAt_climbing, rfl, hparent⟩
  · intro hnothing
    have hhas := has_climbing
    rw [hnothing, (hasNothingIn_emptyCache _ isFileName_climbing).1] at hhas
    cases hhas

end FixtureCheck.SchemaStore
