import FixtureCheck.Storage.FileTree
import Mathlib.Data.List.Basic

/-!
# The texts of paths

A path that a text names is proper (`isProper_ofText`): its names are not empty, are no single dot and have no slashes.
A proper path is the one that its text names (`ofText_text`).
-/

namespace FixtureCheck.Storage

/-- **Can a text stand between the slashes of a path?** -/
def IsName (name : String) : Prop := name ≠ "" ∧ name ≠ "." ∧ '/' ∉ name.toList

/-- **Are the names of a path names?** -/
def Path.IsProper (p : Path) : Prop := ∀ name ∈ p.names, IsName name

variable {cs : List Char} {p : Path} {name : String} {names : List String}

/-! ## Pieces -/

theorem pieces_of_not_mem (h : '/' ∉ cs) : pieces cs = [cs] := by
  induction cs with
  | nil => rfl
  | cons c cs ih =>
    rw [List.mem_cons, not_or] at h
    rw [pieces, if_neg (by simpa using Ne.symm h.1), ih h.2]

theorem pieces_append (h : '/' ∉ cs) (rest : List Char) : pieces (cs ++ '/' :: rest) = cs :: pieces rest := by
  induction cs with
  | nil => rfl
  | cons c cs ih =>
    rw [List.mem_cons, not_or] at h
    rw [List.cons_append, pieces, if_neg (by simpa using Ne.symm h.1), ih h.2]

theorem not_mem_of_mem_pieces {piece : List Char} (h : piece ∈ pieces cs) : '/' ∉ piece := by
  induction cs generalizing piece with
  | nil =>
    rw [List.mem_singleton.1 h]
    simp
  | cons c cs ih =>
    rw [pieces] at h
    split at h
    · rcases List.mem_cons.1 h with rfl | h
      · simp
      · exact ih h
    next hc =>
      have hc' : '/' ≠ c := fun heq => hc (by simp [← heq])
      split at h
      next first others heq =>
        rw [heq] at ih
        rcases List.mem_cons.1 h with rfl | h
        · rw [List.mem_cons, not_or]
          exact ⟨hc', ih List.mem_cons_self⟩
        · exact ih (List.mem_cons_of_mem _ h)
      · rw [List.mem_singleton.1 h]
        simp [hc']

theorem isProper_ofText (text : String) : (Path.ofText text).IsProper := by
  intro name hname
  simp only [Path.ofText, List.mem_map, List.mem_filter, decide_eq_true_eq] at hname
  obtain ⟨piece, ⟨hmem, hne, hdot⟩, rfl⟩ := hname
  refine ⟨?_, ?_, ?_⟩
  · rw [ne_eq, ← String.toList_inj, String.toList_ofList]
    exact hne
  · rw [ne_eq, ← String.toList_inj, String.toList_ofList]
    exact hdot
  · rw [String.toList_ofList]
    exact not_mem_of_mem_pieces hmem

/-! ## Texts -/

/-- The pieces of names with slashes between them. -/
theorem pieces_intercalate (hne : names ≠ []) (h : ∀ name ∈ names, IsName name) :
    pieces ("/".intercalate names).toList = names.map String.toList := by
  induction names with
  | nil => exact absurd rfl hne
  | cons name names ih =>
    have hname := (h name List.mem_cons_self).2.2
    cases names with
    | nil =>
      rw [String.intercalate_singleton, pieces_of_not_mem hname]
      rfl
    | cons next names =>
      have hrest := ih (by simp) fun n hn => h n (List.mem_cons_of_mem _ hn)
      have hshape : ("/".intercalate (name :: next :: names)).toList =
          name.toList ++ '/' :: ("/".intercalate (next :: names)).toList := by
        simp [String.intercalate_cons_cons]
      rw [hshape, pieces_append hname, hrest]
      rfl

/-- The slashes of a root come before the first name. -/
theorem pieces_root (root : Root) (cs : List Char) :
    ∃ n, pieces (root.text.toList ++ cs) = List.replicate n [] ++ pieces cs := by
  cases root with
  | here => exact ⟨0, rfl⟩
  | single => exact ⟨1, rfl⟩
  | double => exact ⟨2, rfl⟩

theorem rootOf_append (root : Root) (h : ∀ c ∈ cs.head?, c ≠ '/') : rootOf (root.text.toList ++ cs) = root := by
  have hcs : cs.takeWhile (· == '/') = [] := by
    cases cs with
    | nil => rfl
    | cons c cs =>
      have hc : c ≠ '/' := h c rfl
      simp [hc]
  cases root with
  | here => simp [rootOf, Root.text, hcs]
  | single => simp [rootOf, Root.text, hcs]
  | double => simp [rootOf, Root.text, hcs]

theorem Path.text_of_names (h : p.names ≠ []) : p.text = p.root.text ++ "/".intercalate p.names := by
  unfold Path.text
  split
  next hnames => exact absurd hnames h
  · rfl

/-- **A proper path is the one that its text names.** -/
theorem Path.ofText_text (h : p.IsProper) : Path.ofText p.text = p := by
  obtain ⟨root, names⟩ := p
  by_cases hne : names = []
  · subst hne
    cases root <;> rfl
  · have hpieces := pieces_intercalate hne h
    have hhead : ∀ c ∈ ("/".intercalate names).toList.head?, c ≠ '/' := by
      obtain ⟨name, others, rfl⟩ := List.exists_cons_of_ne_nil hne
      cases hcs : ("/".intercalate (name :: others)).toList with
      | nil => simp
      | cons c cs =>
        intro c' hc' hslash
        obtain rfl : c = '/' := (Option.some.inj hc').trans hslash
        rw [hcs] at hpieces
        have hempty : [] = name.toList := (List.cons.inj hpieces).1
        exact (h name List.mem_cons_self).1 (String.toList_eq_nil_iff.1 hempty.symm)
    obtain ⟨n, hroot⟩ := pieces_root root ("/".intercalate names).toList
    rw [Path.text_of_names hne, Path.ofText, String.toList_append, rootOf_append root hhead, hroot, hpieces,
      List.filter_append, List.filter_replicate]
    have hfilter : (names.map String.toList).filter (fun piece => piece ≠ [] ∧ piece ≠ ['.']) =
        names.map String.toList := by
      rw [List.filter_eq_self]
      intro piece hpiece
      obtain ⟨name, hmem, rfl⟩ := List.mem_map.1 hpiece
      have hdot : name.toList ≠ ['.'] := by
        rw [ne_eq, ← String.toList_ofList (l := ['.']), String.toList_inj]
        exact (h name hmem).2.1
      simpa using ⟨(h name hmem).1, hdot⟩
    rw [hfilter]
    simp

/-- Texts that end with a name can mean files. -/
theorem meansFolder_text (h : p.IsProper) (hne : p.names ≠ []) : FileTree.meansFolder p.text = false := by
  obtain ⟨n, hroot⟩ := pieces_root p.root ("/".intercalate p.names).toList
  have hlast : (pieces p.text.toList).getLast? = some (p.names.getLast hne).toList := by
    rw [Path.text_of_names hne, String.toList_append, hroot, pieces_intercalate hne h, List.getLast?_append,
      List.getLast?_map, List.getLast?_eq_some_getLast hne]
    rfl
  obtain ⟨hempty, hdot, -⟩ := h _ (List.getLast_mem hne)
  unfold FileTree.meansFolder
  rw [hlast]
  split
  next heq => exact absurd (String.toList_eq_nil_iff.1 (Option.some.inj heq)) hempty
  next heq => exact absurd (String.toList_inj.1 ((Option.some.inj heq).trans String.toList_ofList.symm)) hdot
  · rfl

/-! ## Files of a folder -/

/-- The path to what has a name in a folder. -/
def Path.child (folder : Path) (name : String) : Path := { folder with names := folder.names ++ [name] }

theorem Path.parent_child (folder : Path) (name : String) : (folder.child name).parent = folder := by
  simp [Path.parent, Path.child]

theorem Path.IsProper.child (h : p.IsProper) (hname : IsName name) : (p.child name).IsProper := by
  intro n hn
  rcases List.mem_append.1 hn with hn | hn
  · exact h n hn
  · rw [List.mem_singleton.1 hn]
    exact hname

theorem Path.child_inj {name' : String} : p.child name = p.child name' ↔ name = name' := by
  simp [Path.child]

/-- A name is a path with no other names. -/
theorem Path.join_ofText (folder : Path) (h : IsName name) : Path.join [folder, .ofText name] = folder.child name := by
  have hname : Path.ofText name = ⟨.here, [name]⟩ := by
    have htext : Path.text ⟨.here, [name]⟩ = name := by
      rw [Path.text_of_names (by simp), String.intercalate_singleton]
      exact String.empty_append
    conv_lhs => rw [← htext]
    refine Path.ofText_text ?_
    intro n hn
    rw [List.mem_singleton.1 hn]
    exact h
  rw [hname]
  obtain ⟨root, names⟩ := folder
  cases root <;> rfl

end FixtureCheck.Storage
