/-
  The program's folder with all that the program puts into it.

  `furnished t root` is the tree in which the folder has its directories of settings and of log
  files, and the settings file in the first of them, as far as the system lets them be made.
  The program's own steps lead from the tree with the folder up to this one and not beyond:
  making one of the directories (`node?_furnished_of_vacant`) or the settings file
  (`file_furnished_of_vacant`) brings up nothing that is not there.
-/
import PromptFill.Proofs.Directories.Documents
import PromptFill.Proofs.Files.Way
import PromptFill.Proofs.Settings.Store

namespace PromptFill

open FileTree (Grows IsName)

variable {t t₁ t₂ : FileTree} {root : Path} {d v : Location} {c : Text}

/-! ## The furnished folder -/

theorem isKept_configuration (l : Location) (hl : l.getLast? = some "user-dirs.dirs".toList) :
    IsKept l :=
  isKept_of_getLast? hl (by decide) (by decide)

/-- The tree with the two directories in the folder. -/
def withDirs (t : FileTree) (root : Path) : FileTree :=
  ((t.makeDirs (root.child "config".toList)).2.makeDirs (root.child "logs".toList)).2

/-- The tree with the two directories and the settings file in the folder. -/
def furnished (t : FileTree) (root : Path) : FileTree :=
  match (withDirs t root).openFile (settingsIn (root.child "config".toList)) with
  | .ok (_, opened) => opened
  | .error _ => withDirs t root

theorem child_config (root : Path) : root.child "config".toList = root.below ["config".toList] :=
  Path.child_eq_below_singleton (by decide)

theorem child_logs (root : Path) : root.child "logs".toList = root.below ["logs".toList] :=
  Path.child_eq_below_singleton (by decide)

theorem settingsIn_child_config (root : Path) : settingsIn (root.child "config".toList) =
    root.below ["config".toList, "app_settings.json".toList] := by
  rw [settingsIn_eq_below, child_config, Path.below_below, List.cons_append, List.nil_append]

/-- The settings file is made at most, where this can be done. -/
theorem furnished_cases (t : FileTree) (root : Path) :
    furnished t root = withDirs t root ∨
      ∃ v, (withDirs t root).IsFree (settingsIn (root.child "config".toList)) v ∧
        furnished t root = (withDirs t root).addFile v := by
  rw [furnished]
  split
  · rename_i id opened hopen
    obtain ⟨v, content, -, rfl | ⟨hv, -, rfl⟩⟩ := FileTree.openFile_eq_ok hopen
    · exact .inl rfl
    · exact .inr ⟨v, ⟨hv, FileTree.refuses_of_openFile hopen hv⟩, rfl⟩
  · exact .inl rfl

theorem furnished_of_isFree
    (h : (withDirs t root).IsFree (settingsIn (root.child "config".toList)) v) :
    furnished t root = (withDirs t root).addFile v := by
  rw [furnished, FileTree.openFile, h.1]
  simp only [FileTree.permit_of_none h.2]

/-- A settings file is opened only in a directory that is there. -/
theorem find_dir_of_openFile {id : Nat} {opened : FileTree} {dir : Path}
    (h : t.openFile (settingsIn dir) = .ok (id, opened)) : ∃ d, t.find dir = .ok (.dir d) := by
  rw [settingsIn_eq_below, FileTree.openFile] at h
  cases hfind : t.find (dir.below ["app_settings.json".toList]) with
  | ok place => exact FileTree.find_of_find_below hfind (List.cons_ne_nil _ _)
  | error e =>
    rw [hfind] at h
    cases h

theorem grows_withDirs (t : FileTree) (root : Path) : Grows IsKept t (withDirs t root) :=
  (FileTree.grows_makeDirs t _).trans (FileTree.grows_makeDirs _ _)

theorem grows_withDirs_furnished (t : FileTree) (root : Path) :
    Grows IsKept (withDirs t root) (furnished t root) := by
  obtain h | ⟨v, hv, h⟩ := furnished_cases t root
  · rw [h]
    exact .refl _
  · obtain ⟨hnone, hne⟩ := FileTree.node?_of_find_vacant hv.1
    rw [h]
    exact FileTree.grows_addFile hnone hne fun hk => hk.2 (getLast?_of_settingsIn hv.1 rfl)

theorem grows_furnished (t : FileTree) (root : Path) : Grows IsKept t (furnished t root) :=
  (grows_withDirs t root).trans (grows_withDirs_furnished t root)

/-! ## What the program makes is there -/

/-- A directory that can be made in the folder now could be made before, unless it was there. -/
theorem node?_makeDirs_of_vacant (h₁ : Grows IsKept t₁ t) (h₂ : Grows IsKept t₁ t₂)
    (hroot : t₁.find root = .ok (.dir d)) (hc : IsName c) (hkept : IsKept (d ++ [c]))
    (hv : t.find (root.below [c]) = .ok (.vacant (d ++ [c])))
    (hmaking : t.refuses .making (d ++ [c]) = none) :
    (t₂.makeDirs (root.below [c])).2.node? (d ++ [c]) = some .dir := by
  cases hnode : t₂.node? (d ++ [c]) with
  | none =>
    have hvacant : t₂.find (root.below [c]) = .ok (.vacant (d ++ [c])) :=
      (FileTree.find_below_iff (h₂.find_dir hroot) (List.cons_ne_nil c [])).2
        ⟨(FileTree.find_eq_ok_iff_isUsable.1 hv).1, .vacant hc hnode⟩
    have hmaking₂ : t₂.refuses .making (d ++ [c]) = none := by
      rw [h₂.refuses, ← h₁.refuses, hmaking]
    rw [FileTree.makeDirs_of_vacant hvacant hmaking₂, FileTree.node?_addDir, if_pos rfl]
  | some node =>
    cases node with
    | dir => exact (FileTree.grows_makeDirs t₂ _ : Grows IsKept _ _).dir hnode
    | file id content =>
      -- a file there would have been there from the beginning
      obtain ⟨id₁, hnode₁⟩ := h₂.kept hkept hnode
      obtain ⟨id', content', hnode'⟩ := h₁.file hnode₁
      rw [(FileTree.node?_of_find_vacant hv).1] at hnode'
      cases hnode'

theorem isKept_config (d : Location) : IsKept (d ++ ["config".toList]) :=
  isKept_of_getLast? List.getLast?_concat (by decide) (by decide)

theorem isKept_logs (d : Location) : IsKept (d ++ ["logs".toList]) :=
  isKept_of_getLast? List.getLast?_concat (by decide) (by decide)

/-- A directory that can be made in the folder is there in the furnished folder. -/
theorem node?_furnished_of_vacant (h₁ : Grows IsKept t₁ t) (hroot : t₁.find root = .ok (.dir d))
    (hc : c = "config".toList ∨ c = "logs".toList)
    (hv : t.find (root.below [c]) = .ok (.vacant (d ++ [c])))
    (hmaking : t.refuses .making (d ++ [c]) = none) :
    (furnished t₁ root).node? (d ++ [c]) = some .dir := by
  refine (grows_withDirs_furnished t₁ root).dir ?_
  rw [withDirs, child_config, child_logs]
  rcases hc with rfl | rfl
  · exact (FileTree.grows_makeDirs _ _ : Grows IsKept _ _).dir
      (node?_makeDirs_of_vacant h₁ (.refl t₁) hroot (by decide) (isKept_config d) hv hmaking)
  · exact node?_makeDirs_of_vacant h₁ (FileTree.grows_makeDirs t₁ _) hroot (by decide)
      (isKept_logs d) hv hmaking

/-- Two names below the folder nothing is made but the settings file. -/
theorem node?_withDirs (hroot : t.find root = .ok (.dir d)) (a b : Text) :
    (withDirs t root).node? (d ++ [a] ++ [b]) = t.node? (d ++ [a] ++ [b]) := by
  have hmake {t : FileTree} {c : Text} (hroot : t.find root = .ok (.dir d)) (hc : IsName c) :
      (t.makeDirs (root.below [c])).2.node? (d ++ [a] ++ [b]) = t.node? (d ++ [a] ++ [b]) := by
    obtain h | ⟨-, -, h⟩ := FileTree.makeDirs_below_cases hroot hc
    · rw [h]
    · rw [h, FileTree.node?_addDir, if_neg (by simp)]
  have hgrown : Grows IsKept t (t.makeDirs (root.below ["config".toList])).2 :=
    FileTree.grows_makeDirs t _
  rw [withDirs, child_config, child_logs, hmake (hgrown.find_dir hroot) (by decide),
    hmake hroot (by decide)]

/-- A settings file that can be made in the folder is there in the furnished folder. -/
theorem file_furnished_of_vacant (h₁ : Grows IsKept t₁ t) (h : Grows IsKept t (furnished t₁ root))
    (hroot : t₁.find root = .ok (.dir d))
    (hv : t.find (settingsIn (root.child "config".toList)) = .ok (.vacant v))
    (hmaking : t.refuses .making v = none) :
    ∃ id content, (furnished t₁ root).node? v = some (.file id content) := by
  have hv' := hv
  rw [settingsIn_child_config] at hv'
  obtain ⟨husable, hleads⟩ :=
    (FileTree.find_below_iff (h₁.find_dir hroot) (List.cons_ne_nil _ _)).1 hv'
  obtain ⟨e, hdir, hlast⟩ :
      ∃ e, t.Leads d ["config".toList] (.dir e) ∧
        t.Leads e ["app_settings.json".toList] (.vacant v) :=
    FileTree.Leads.exists_of_append (List.cons_ne_nil _ _) hleads
  obtain ⟨rfl, hnode⟩ := (FileTree.leads_singleton_dir_iff (by decide)).1 hdir
  obtain ⟨rfl, hnone⟩ := (FileTree.leads_singleton_vacant_iff (by decide)).1 hlast
  -- the directory of the settings was made first, and the file is still missing
  have hconfig : (withDirs t₁ root).node? (d ++ ["config".toList]) = some .dir := by
    have hend := h.dir hnode
    obtain heq | ⟨v', hv', heq⟩ := furnished_cases t₁ root
    · rwa [heq] at hend
    · rw [heq, FileTree.node?_addFile (FileTree.node?_of_find_vacant hv'.1).2] at hend
      split at hend
      · cases hend
      · exact hend
  have hmissing : (withDirs t₁ root).node?
      (d ++ ["config".toList] ++ ["app_settings.json".toList]) = none := by
    rw [node?_withDirs hroot, h₁.node?_eq_none hnone]
  have hvacant : (withDirs t₁ root).find (settingsIn (root.child "config".toList)) =
      .ok (.vacant (d ++ ["config".toList] ++ ["app_settings.json".toList])) := by
    rw [settingsIn_child_config]
    exact (FileTree.find_below_iff ((grows_withDirs t₁ root).find_dir hroot)
      (List.cons_ne_nil _ _)).2
        ⟨husable, .down (by decide) hconfig (.vacant (by decide) hmissing)⟩
  have hmaking' : (withDirs t₁ root).refuses .making
      (d ++ ["config".toList] ++ ["app_settings.json".toList]) = none := by
    rw [(grows_withDirs t₁ root).refuses, ← h₁.refuses, hmaking]
  rw [furnished_of_isFree ⟨hvacant, hmaking'⟩]
  exact ⟨_, _, by rw [FileTree.node?_addFile (by simp), if_pos rfl]⟩

end PromptFill
