import FixtureCheck.Proofs.Except
import FixtureCheck.Proofs.Storage.Path

/-!
# Files of a folder

A walk goes through folders only, and what is written or made leaves all folders (`hasFoldersOf_put`,
`hasFoldersOf_add`); so a folder that is made stays where it is (`IsAt.mono`), and making it again changes nothing
(`IsAt.makeFolders`).

In a folder that is there, a file is found under its name (`IsAt.find_child`), it is read as it was written
(`IsAt.read_child`), and writing it changes nothing else in the folder (`IsAt.write_child`).
-/

namespace FixtureCheck.Storage.FileTree

variable {t t' : FileTree} {place q : Place} {folder : Path} {name text : String} {names : List String}

/-! ## Walks -/

/-- **Has a tree all folders of another one?** -/
def HasFoldersOf (t' t : FileTree) : Prop := ∀ place, t.entryAt place = .folder → t'.entryAt place = .folder

/-- A walk leads to the same place in a tree that has the folders it goes through. -/
theorem walk_of_hasFoldersOf (h : HasFoldersOf t' t) (hwalk : t.walk place names = .ok q) :
    t'.walk place names = .ok q := by
  fun_induction walk t place names with
  | case1 place => exact hwalk
  | case2 place rest ih =>
    rw [walk]
    exact ih hwalk
  | case3 place name hne =>
    rw [walk]
    · exact hwalk
    · exact hne
  | case4 place name rest hne hrest hfolder ih =>
    rw [walk, h _ hfolder]
    · exact ih hwalk
    · exact hne
    · exact hrest
  | case5 => cases hwalk
  | case6 => cases hwalk

/-- A walk goes on from the folder that its first part leads to. -/
theorem walk_append {more : List String} (hmore : more ≠ []) (hwalk : t.walk place names = .ok q)
    (hq : names = [] ∨ t.entryAt q = .folder) : t.walk place (names ++ more) = t.walk q more := by
  fun_induction walk t place names with
  | case1 place =>
    cases hwalk
    rfl
  | case2 place rest ih =>
    rw [List.cons_append, walk]
    exact ih hwalk (.inr (hq.resolve_left (by simp)))
  | case3 place name hne =>
    cases hwalk
    have hfolder : t.entryAt (place ++ [name]) = .folder := hq.resolve_left (by simp)
    rw [List.singleton_append, walk, hfolder]
    · exact hne
    · exact hmore
  | case4 place name rest hne hrest hfolder ih =>
    rw [List.cons_append, walk, hfolder]
    · exact ih hwalk (.inr (hq.resolve_left (by simp)))
    · exact hne
    · simp [hmore]
  | case5 => cases hwalk
  | case6 => cases hwalk

/-! ## What is at a place -/

/-- **Is there a folder at a place** that has no file? -/
def IsFolder (t : FileTree) (place : Place) : Prop :=
  place = top ∨ place.all (· == "..") = true ∨ place ∈ t.folders ∨ ∃ file ∈ t.files, place <+: file.1

theorem isFolder_iff : (place == top || place.all (· == "..") || t.folders.contains place ||
    t.files.any (place.isPrefixOf ·.1)) = true ↔ t.IsFolder place := by
  simp [IsFolder, or_assoc]

theorem entryAt_folder_iff :
    t.entryAt place = .folder ↔ t.files.find? (·.1 == place) = none ∧ t.IsFolder place := by
  rw [← isFolder_iff]
  unfold entryAt
  split
  next h => simp [h]
  next h =>
    rw [h]
    split
    next hfolder => simp only [hfolder, and_self]
    next hfolder =>
      constructor
      · exact fun h => by cases h
      · exact fun h => absurd h.2 hfolder

theorem entryAt_congr (hfind : t'.files.find? (·.1 == place) = t.files.find? (·.1 == place))
    (hfolder : t'.IsFolder place ↔ t.IsFolder place) : t'.entryAt place = t.entryAt place := by
  rw [← isFolder_iff, ← isFolder_iff] at hfolder
  unfold entryAt
  rw [hfind, Bool.eq_iff_iff.2 hfolder]

/-! ## Files that are written -/

variable {files : List (Place × String)}

theorem find?_put_self (text : String) (place : Place) (files : List (Place × String)) :
    (put text place files).find? (·.1 == place) = some (place, text) := by
  induction files with
  | nil => simp [put]
  | cons file files ih =>
    rw [put]
    split
    next h =>
      rw [eq_of_beq h]
      simp
    next h => simp [h, ih]

theorem find?_put_of_ne {other : Place} (h : other ≠ place) :
    (put text place files).find? (·.1 == other) = files.find? (·.1 == other) := by
  induction files with
  | nil => simp [put, h.symm]
  | cons file files ih =>
    rw [put]
    split
    next heq =>
      have hne : file.1 ≠ other := fun hother => h (hother.symm.trans (eq_of_beq heq))
      simp [hne]
    next => rw [List.find?_cons, List.find?_cons, ih]

theorem exists_mem_put_iff {P : Place → Prop} :
    (∃ file ∈ put text place files, P file.1) ↔ P place ∨ ∃ file ∈ files, P file.1 := by
  induction files with
  | nil => simp [put]
  | cons file files ih =>
    rw [put]
    split
    next h =>
      simp only [List.exists_mem_cons_iff, eq_of_beq h]
      tauto
    next =>
      simp only [List.exists_mem_cons_iff, ih]
      tauto

theorem isFolder_put {other : Place} : IsFolder { t with files := put text place t.files } other ↔
    other <+: place ∨ t.IsFolder other := by
  unfold IsFolder
  rw [exists_mem_put_iff (P := (other <+: ·))]
  tauto

theorem entryAt_put_self (t : FileTree) (text : String) (place : Place) :
    entryAt { t with files := put text place t.files } place = .file text := by
  unfold entryAt
  rw [find?_put_self]

theorem entryAt_put_of_not_prefix {other : Place} (h : ¬other <+: place) :
    entryAt { t with files := put text place t.files } other = t.entryAt other := by
  refine entryAt_congr (find?_put_of_ne ?_) ?_
  · rintro rfl
    exact h (List.prefix_refl _)
  · rw [isFolder_put]
    simp [h]

/-- A file that is written where no folder is leaves all folders. -/
theorem hasFoldersOf_put (h : t.entryAt place ≠ .folder) :
    HasFoldersOf { t with files := put text place t.files } t := by
  intro other hother
  have hne : other ≠ place := by
    rintro rfl
    exact h hother
  rw [entryAt_folder_iff] at hother ⊢
  exact ⟨(find?_put_of_ne hne).trans hother.1, isFolder_put.2 (.inr hother.2)⟩

/-- A folder that is added leaves all folders. -/
theorem hasFoldersOf_add (t : FileTree) (place : Place) :
    HasFoldersOf { t with folders := t.folders ++ [place] } t := by
  intro other hother
  rw [entryAt_folder_iff] at hother ⊢
  refine ⟨hother.1, ?_⟩
  have hfolder := hother.2
  unfold IsFolder at hfolder ⊢
  rw [List.mem_append]
  tauto

theorem entryAt_add_self (h : t.entryAt place = .absent) :
    entryAt { t with folders := t.folders ++ [place] } place = .folder := by
  rw [entryAt_folder_iff]
  constructor
  · unfold entryAt at h
    split at h
    · cases h
    next hfind => exact hfind
  · exact .inr (.inr (.inl (List.mem_append_right _ List.mem_cons_self)))

/-! ## Folders that are made -/

/-- The place of the folder that the first names of a path lead to. -/
def locateFirst (t : FileTree) (p : Path) (n : Nat) : Except FileError.Cause Place :=
  t.locate { p with names := p.names.take n }

/-- **Do the first names of a path lead to folders**, one after the other? -/
def LeadsThrough (t : FileTree) (p : Path) (n : Nat) : Prop :=
  ∀ k < n, ∃ place, t.locateFirst p (k + 1) = .ok place ∧ t.entryAt place = .folder

theorem LeadsThrough.mono {p : Path} {n : Nat} (h : HasFoldersOf t' t) (hp : t.LeadsThrough p n) :
    t'.LeadsThrough p n := by
  intro k hk
  obtain ⟨place, hplace, hfolder⟩ := hp k hk
  exact ⟨place, walk_of_hasFoldersOf h hplace, h place hfolder⟩

/-- Folders that are made are there; no files are changed. -/
theorem leadsThrough_of_makeFirst {p : Path} {n : Nat} (h : t.makeFirst p n = .ok t') :
    t'.LeadsThrough p n ∧ t'.files = t.files := by
  induction n generalizing t' with
  | zero =>
    cases h
    exact ⟨fun k hk => absurd hk (by omega), rfl⟩
  | succ n ih =>
    obtain ⟨t₁, h₁, h⟩ := bind_eq_ok_iff.1 h
    obtain ⟨hleads, hfiles⟩ := ih h₁
    split at h
    · cases h
    next place hplace =>
      have hlast : ∀ {t' : FileTree}, t'.LeadsThrough p n → t'.locateFirst p (n + 1) = .ok place →
          t'.entryAt place = .folder → t'.LeadsThrough p (n + 1) := by
        intro t' hleads hlocate hfolder k hk
        rcases Nat.lt_succ_iff_lt_or_eq.1 hk with hk | rfl
        · exact hleads k hk
        · exact ⟨place, hlocate, hfolder⟩
      split at h
      next hfolder =>
        cases h
        exact ⟨hlast hleads hplace hfolder, hfiles⟩
      · cases h
      next habsent =>
        cases h
        have hadd := hasFoldersOf_add t₁ place
        exact ⟨hlast (hleads.mono hadd) (walk_of_hasFoldersOf hadd hplace) (entryAt_add_self habsent), hfiles⟩

/-- Folders that are there are not made again. -/
theorem makeFirst_of_leadsThrough {p : Path} {n : Nat} (h : t.LeadsThrough p n) : t.makeFirst p n = .ok t := by
  induction n with
  | zero => rfl
  | succ n ih =>
    obtain ⟨place, hplace, hfolder⟩ := h n (by omega)
    have hfirst := ih fun k hk => h k (by omega)
    unfold locateFirst at hplace
    refine bind_eq_ok_iff.2 ⟨t, hfirst, ?_⟩
    rw [hplace]
    dsimp only
    rw [hfolder]

/-! ## Files of a folder -/

/-- **Is a folder there**, with a place of its own? -/
structure IsAt (t : FileTree) (folder : Path) (q : Place) : Prop where
  leads : t.LeadsThrough folder folder.names.length
  locate : t.locate folder = .ok q

theorem isAt_of_makeFolders (h : t.makeFolders folder = .ok t') : t'.files = t.files ∧ ∃ q, t'.IsAt folder q := by
  obtain ⟨hleads, hfiles⟩ := leadsThrough_of_makeFirst h
  refine ⟨hfiles, ?_⟩
  cases hnames : folder.names with
  | nil => exact ⟨_, hleads, by rw [locate, hnames, walk]⟩
  | cons name names =>
    obtain ⟨q, hq, -⟩ := hleads names.length (by rw [hnames]; exact Nat.lt_succ_self _)
    refine ⟨q, hleads, ?_⟩
    rw [locateFirst, ← List.length_cons (a := name), ← hnames, List.take_length] at hq
    exact hq

theorem IsAt.makeFolders (h : t.IsAt folder q) : t.makeFolders folder = .ok t := makeFirst_of_leadsThrough h.leads

theorem IsAt.mono (hfolders : HasFoldersOf t' t) (h : t.IsAt folder q) : t'.IsAt folder q :=
  ⟨h.leads.mono hfolders, walk_of_hasFoldersOf hfolders h.locate⟩

/-- The last folder of a path is where the path leads to. -/
theorem IsAt.entryAt (h : t.IsAt folder q) : folder.names = [] ∨ t.entryAt q = .folder := by
  rcases Nat.eq_zero_or_pos folder.names.length with hnil | hpos
  · exact .inl (List.length_eq_zero_iff.1 hnil)
  · right
    obtain ⟨place, hplace, hfolder⟩ := h.leads (folder.names.length - 1) (by omega)
    rw [locateFirst, Nat.sub_add_cancel hpos, List.take_length] at hplace
    obtain rfl : place = q := Except.ok.inj (hplace.symm.trans h.locate)
    exact hfolder

/-- **A name of a file**, or of a folder that is not the one around. -/
def IsFileName (name : String) : Prop := IsName name ∧ name ≠ ".."

section

variable (hq : t.IsAt folder q) (hp : folder.IsProper) (hn : IsFileName name)
include hq hp hn

theorem IsAt.find_child : t.find (folder.child name).text = .ok (q ++ [name], t.entryAt (q ++ [name])) := by
  have hproper := hp.child hn.1
  have htext : (folder.child name).text.isEmpty = false := by
    by_contra htext
    have hempty : (folder.child name).text = "" := by simpa using htext
    have heq := Path.ofText_text hproper
    rw [hempty] at heq
    exact absurd (congrArg Path.names heq) (by simp [Path.child, Path.ofText, pieces])
  have hlocate : t.locate (folder.child name) = .ok (q ++ [name]) := by
    refine (walk_append (List.cons_ne_nil name []) hq.locate hq.entryAt).trans ?_
    rw [walk]
    exact hn.2
  unfold find
  rw [htext, Path.ofText_text hproper, hlocate]
  rfl

theorem IsAt.has_child : t.has (folder.child name) = true ↔ t.entryAt (q ++ [name]) ≠ .absent := by
  unfold has
  rw [hq.find_child hp hn]
  cases t.entryAt (q ++ [name]) <;> simp

theorem IsAt.read_child (h : t.entryAt (q ++ [name]) = .file text) : t.read (folder.child name).text = .ok text := by
  unfold read
  rw [hq.find_child hp hn, h]
  dsimp only
  rw [meansFolder_text (hp.child hn.1) (by simp [Path.child])]
  rfl

/-- A file that is written in a folder is the only thing that changes there. -/
theorem IsAt.write_child (text : String) (h : t.entryAt (q ++ [name]) ≠ .folder) :
    ∃ t', t.write (folder.child name).text text = .ok t' ∧ t'.IsAt folder q ∧
      t'.entryAt (q ++ [name]) = .file text ∧
      ∀ other, other ≠ name → t'.entryAt (q ++ [other]) = t.entryAt (q ++ [other]) := by
  refine ⟨{ t with files := put text (q ++ [name]) t.files }, ?_, hq.mono (hasFoldersOf_put h),
    entryAt_put_self _ _ _, ?_⟩
  · unfold write
    rw [hq.find_child hp hn]
    have hmeans := meansFolder_text (hp.child hn.1) (by simp [Path.child])
    cases hentry : t.entryAt (q ++ [name]) with
    | folder => exact absurd hentry h
    | file old =>
      dsimp only
      rw [hmeans]
      rfl
    | absent =>
      dsimp only
      rw [hmeans]
      rfl
  · intro other hother
    refine entryAt_put_of_not_prefix ?_
    intro hprefix
    have heq := hprefix.eq_of_length (by simp)
    simp [hother] at heq

end

end FixtureCheck.Storage.FileTree
