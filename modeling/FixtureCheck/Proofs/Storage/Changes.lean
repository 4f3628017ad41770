import FixtureCheck.Proofs.Storage.FileTree

/-!
# What changes in a tree

`ChangesOnlyIn` says that nothing changed but files right in a folder, and the folders that had to be made for them: the
folder itself and those that its path goes through. Making the folder is such a change (`changesOnlyIn_of_makeFolders`),
so is writing a file in it (`IsAt.changesOnlyIn_of_write`), and so are such changes one after the other
(`ChangesOnlyIn.trans`).
-/

namespace FixtureCheck.Storage.FileTree

variable {t t' t'' : FileTree} {place q other : Place} {folder : Path} {name text : String} {names : List String}
  {named : String → Prop}

/-- **Did nothing change but files in a folder?** All folders stay. What changed is a folder that was made, the one or
one that its path goes through, or a file with a certain kind of name that is in the folder now. -/
structure ChangesOnlyIn (folder : Path) (named : String → Prop) (before after : FileTree) : Prop where
  folders : HasFoldersOf after before
  changed : ∀ place, after.entryAt place ≠ before.entryAt place →
    (before.entryAt place = .absent ∧ after.entryAt place = .folder ∧ ∃ n, after.locateFirst folder n = .ok place) ∨
    ∃ q name text, after.locate folder = .ok q ∧ named name ∧ place = q ++ [name] ∧ after.entryAt place = .file text

theorem ChangesOnlyIn.refl (t : FileTree) : ChangesOnlyIn folder named t t where
  folders _ := id
  changed _ h := absurd rfl h

/-- What changed at first is still there after a second change, unless that changed it too. -/
theorem ChangesOnlyIn.trans (h : ChangesOnlyIn folder named t t') (h' : ChangesOnlyIn folder named t' t'') :
    ChangesOnlyIn folder named t t'' where
  folders place hplace := h'.folders place (h.folders place hplace)
  changed place hplace := by
    by_cases hsecond : t''.entryAt place = t'.entryAt place
    · rw [hsecond] at hplace ⊢
      rcases h.changed place hplace with ⟨habsent, hfolder, n, hn⟩ | ⟨q, name, text, hq, hname, hfile⟩
      · exact .inl ⟨habsent, hfolder, n, walk_of_hasFoldersOf h'.folders hn⟩
      · exact .inr ⟨q, name, text, walk_of_hasFoldersOf h'.folders hq, hname, hfile⟩
    · rcases h'.changed place hsecond with ⟨habsent, hfolder, hn⟩ | hfile
      · refine .inl ⟨?_, hfolder, hn⟩
        by_contra hpresent
        -- what was there before the first change would be there after it
        rcases h.changed place (by rw [habsent]; exact Ne.symm hpresent) with ⟨hnone, -⟩ | ⟨_, _, _, -, -, -, hfile⟩
        · exact hpresent hnone
        · rw [habsent] at hfile
          cases hfile
      · exact .inr hfile

/-! ## Folders that are made -/

theorem entryAt_add_of_ne (h : other ≠ place) :
    entryAt { t with folders := t.folders ++ [place] } other = t.entryAt other := by
  refine entryAt_congr rfl ?_
  unfold IsFolder
  simp [h]

theorem changesOnlyIn_of_makeFirst {n : Nat} (h : t.makeFirst folder n = .ok t') :
    ChangesOnlyIn folder named t t' := by
  induction n generalizing t' with
  | zero =>
    cases h
    exact .refl t
  | succ n ih =>
    obtain ⟨t₁, h₁, h⟩ := bind_eq_ok_iff.1 h
    refine (ih h₁).trans ?_
    split at h
    · cases h
    next place hplace =>
      split at h
      · cases h
        exact .refl _
      · cases h
      next habsent =>
        cases h
        refine ⟨hasFoldersOf_add t₁ place, fun other hother => ?_⟩
        obtain rfl : other = place := by
          by_contra hne
          exact hother (entryAt_add_of_ne hne)
        exact .inl ⟨habsent, entryAt_add_self habsent, n + 1, walk_of_hasFoldersOf (hasFoldersOf_add t₁ other) hplace⟩

/-- **Making a folder makes folders on its path only.** -/
theorem changesOnlyIn_of_makeFolders (h : t.makeFolders folder = .ok t') : ChangesOnlyIn folder named t t' :=
  changesOnlyIn_of_makeFirst h

/-! ## Files that are written -/

/-- The folders around a folder have folders around them. -/
theorem isFolder_of_prefix_above (hplace : ∀ other, other <+: place → t.IsFolder other) (h : other <+: above place) :
    t.IsFolder other := by
  unfold above at h
  split at h
  next htop => exact hplace other (by rwa [eq_of_beq htop])
  · split at h
    next hdots =>
      refine .inr (.inl (List.all_eq_true.2 fun name hname => ?_))
      rcases List.mem_append.1 (h.subset hname) with hname | hname
      · exact List.all_eq_true.1 hdots name hname
      · exact beq_iff_eq.2 (List.mem_singleton.1 hname)
    · exact hplace other (h.trans (List.dropLast_prefix place))

/-- The places around the one that a walk leads to are those of folders, if the walk starts so. -/
theorem isFolder_of_prefix_walk (hwalk : t.walk place names = .ok q)
    (hplace : ∀ other, other <+: place → t.IsFolder other) (h : other <+: q) : other = q ∨ t.IsFolder other := by
  fun_induction walk t place names with
  | case1 place =>
    cases hwalk
    exact .inr (hplace other h)
  | case2 place rest ih => exact ih hwalk fun other => isFolder_of_prefix_above hplace
  | case3 place name hne =>
    cases hwalk
    exact (List.prefix_concat_iff.1 h).imp_right (hplace other)
  | case4 place name rest hne hrest hfolder ih =>
    refine ih hwalk fun other hother => ?_
    rcases List.prefix_concat_iff.1 hother with rfl | hother
    · exact (entryAt_folder_iff.1 hfolder).2
    · exact hplace other hother
  | case5 => cases hwalk
  | case6 => cases hwalk

/-- A folder that is there has folders around it. -/
theorem IsAt.isFolder_of_prefix (hq : t.IsAt folder q) (h : other <+: q) : t.IsFolder other := by
  have hstart : ∀ other : Place, other <+: (if folder.root = .here then [] else top) → t.IsFolder other := by
    intro other hother
    split at hother
    · rw [List.prefix_nil.1 hother]
      exact .inr (.inl rfl)
    · have htop : other <+: [] ++ ["/"] := hother
      rcases List.prefix_concat_iff.1 htop with rfl | hother
      · exact .inl rfl
      · rw [List.prefix_nil.1 hother]
        exact .inr (.inl rfl)
  rcases isFolder_of_prefix_walk hq.locate hstart h with rfl | hother
  · rcases hq.entryAt with hnil | hfolder
    · have hlocate := hq.locate
      rw [FileTree.locate, hnil, walk] at hlocate
      cases hlocate
      exact hstart _ (List.prefix_refl _)
    · exact (entryAt_folder_iff.1 hfolder).2
  · exact hother

theorem IsAt.changesOnlyIn_put (hq : t.IsAt folder q) (hname : named name) (text : String)
    (h : t.entryAt (q ++ [name]) ≠ .folder) :
    ChangesOnlyIn folder named t { t with files := put text (q ++ [name]) t.files } where
  folders := hasFoldersOf_put h
  changed other hother := by
    have hself : other = q ++ [name] := by
      by_contra hne
      refine hother (entryAt_congr (find?_put_of_ne hne) (isFolder_put.trans ⟨?_, .inr⟩))
      rintro (haround | hfolder)
      · exact hq.isFolder_of_prefix ((List.prefix_concat_iff.1 haround).resolve_left hne)
      · exact hfolder
    refine .inr ⟨q, name, text, walk_of_hasFoldersOf (hasFoldersOf_put h) hq.locate, hname, hself, ?_⟩
    rw [hself]
    exact entryAt_put_self t text _

/-- **Writing a file in a folder changes that file only.** -/
theorem IsAt.changesOnlyIn_of_write (hq : t.IsAt folder q) (hp : folder.IsProper) (hn : IsFileName name)
    (hname : named name) (h : t.write (folder.child name).text text = .ok t') : ChangesOnlyIn folder named t t' := by
  unfold write at h
  rw [hq.find_child hp hn] at h
  have hput := hq.changesOnlyIn_put hname text
  cases hentry : t.entryAt (q ++ [name]) with
  | folder =>
    rw [hentry] at h
    cases h
  | file old =>
    rw [hentry] at h hput
    dsimp only at h
    split at h
    · cases h
    · cases h
      exact hput nofun
  | absent =>
    rw [hentry] at h hput
    dsimp only at h
    split at h
    · cases h
    · cases h
      exact hput nofun

end FixtureCheck.Storage.FileTree
