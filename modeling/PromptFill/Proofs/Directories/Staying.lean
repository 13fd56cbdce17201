/-
  The program's directories over whole runs.

  The program's folder is in the documents directory, and which directory this is depends on what
  there is.  `Underway` says what the files can be while the program goes on: they lie between the
  tree with the folder in it and the tree with the furnished folder.  If the same documents
  directory is decided on in the last of these trees, then it is in all of them, and every call
  keeps a world underway (`Underway.after`).  So the folder stays where it is in all runs exactly
  if the furnished folder brings up no other documents directory (`Settled.stays_iff`).
-/
import PromptFill.Proofs.Directories.Furnished

namespace PromptFill

open FileTree (Grows)

/-! ## The program's directories where the folder is there -/

variable {w w' : World} {documents root : Path}

/-- The folder is answered, if it is in the documents directory. -/
theorem run_userRoot (hdocuments : documentsDir w.accounts w.env w.platform w.files = .ok documents)
    (hfolder : ∃ d, w.files.find (documents.child programName) = .ok (.dir d)) :
    Action.run userRoot w = (.ok (documents.child programName), w) := by
  obtain ⟨d, hd⟩ := hfolder
  rw [userRoot, Action.run_bind, Action.run_query, hdocuments]
  simp only [run_ensured, FileTree.makeDirs_of_find hd, Except.map]

theorem exists_of_run_userRoot (h : Action.run userRoot w = (.ok root, w')) :
    ∃ documents t, documentsDir w.accounts w.env w.platform w.files = .ok documents ∧
      root = documents.child programName ∧ w.files.makeDirs root = (.ok (), t) ∧
      w' = { w with files := t } := by
  rw [userRoot, Action.run_bind, Action.run_query] at h
  cases hdocuments : documentsDir w.accounts w.env w.platform w.files with
  | error => rw [hdocuments] at h; cases h
  | ok documents =>
    rw [hdocuments] at h
    simp only [run_ensured] at h
    rcases hmake : w.files.makeDirs (documents.child programName) with ⟨_ | _, t⟩
    · rw [hmake] at h
      cases h
    · rw [hmake] at h
      cases h
      exact ⟨documents, t, rfl, rfl, hmake, rfl⟩

theorem run_configDir (hunset : settingsOverride? w.accounts w.env = .ok none)
    (hroot : Action.run userRoot w = (.ok root, w)) :
    Action.run configDir w = Action.run (ensured (root.child "config".toList)) w := by
  rw [configDir, Action.run_bind, Action.run_query, hunset]
  simp only [Action.run_bind, hroot]

theorem run_logsDir (hroot : Action.run userRoot w = (.ok root, w)) :
    Action.run logsDir w = Action.run (ensured (root.child "logs".toList)) w := by
  rw [logsDir, Action.run_bind, hroot]

/-! ## Worlds underway -/

/-- The world `w₀` in which a documents directory is decided on, and the tree `t` that it has grown
    to with the program's folder in that directory. -/
structure Settled (w₀ : World) (documents : Path) (t : FileTree) : Prop where
  unset : settingsOverride? w₀.accounts w₀.env = .ok none
  lawful : w₀.reader.Lawful
  no_variables : w₀.reader w₀.files w₀.env = .ok { env := w₀.env }
  rooted : w₀.files.Rooted
  grown : Grows IsKept w₀.files t
  decided : documentsDir w₀.accounts w₀.env w₀.platform w₀.files = .ok documents
  folder : ∃ d, t.find (documents.child programName) = .ok (.dir d)

/-- A world on the way from the tree `t` with the folder to the furnished one. -/
structure Underway (w₀ : World) (t : FileTree) (root : Path) (w : World) : Prop where
  eq : w = { w₀ with files := w.files, logging := w.logging, output := w.output }
  grown : Grows IsKept t w.files
  within : Grows IsKept w.files (furnished t root)
  orderly : w.Orderly

variable {w₀ : World} {t : FileTree}

namespace Underway

/-! ### The changes that the program makes -/

theorem of_logs (h : Underway w₀ t root w) (hlogs : w.AppendsLogs w') : Underway w₀ t root w' := by
  obtain ⟨hgrown, hback⟩ := h.orderly.grows_of_logs hlogs
  refine ⟨?_, h.grown.trans hgrown, hback.trans h.within, h.orderly.of_logs hlogs⟩
  rw [hlogs.eq, h.eq]

theorem makeDirs (h : Underway w₀ t root w) (hroot : ∃ d, t.find root = .ok (.dir d)) {c : Text}
    (hc : c = "config".toList ∨ c = "logs".toList) :
    Underway w₀ t root { w with files := (w.files.makeDirs (root.child c)).2 } := by
  obtain ⟨d, hd⟩ := hroot
  have horderly := Action.keeps_makeDirs (root.child c) w h.orderly
  rw [Action.run_makeDirs] at horderly
  refine ⟨by rw [h.eq], h.grown.trans (FileTree.grows_makeDirs _ _), ?_, horderly⟩
  have hname : FileTree.IsName c := by rcases hc with rfl | rfl <;> decide
  have hchild : root.child c = root.below [c] := by
    rcases hc with rfl | rfl
    · exact child_config root
    · exact child_logs root
  rw [hchild]
  obtain heq | ⟨hvacant, hmaking, heq⟩ :=
    FileTree.makeDirs_below_cases (h.grown.find_dir hd) hname
  · rw [heq]
    exact h.within
  · rw [heq]
    exact h.within.addDir_left (node?_furnished_of_vacant h.grown hd hc hvacant hmaking)
      (FileTree.node?_of_find_vacant hvacant).1

theorem write (h : Underway w₀ t root w) (hroot : ∃ d, t.find root = .ok (.dir d))
    {files : FileTree} {content : ByteArray}
    (hwrite : w.files.write (settingsIn (root.child "config".toList)) content = .ok files) :
    Underway w₀ t root { w with files } := by
  obtain ⟨d, hd⟩ := hroot
  have horderly := h.orderly.write hwrite
  obtain ⟨id, opened, hopen, hgrown, hback⟩ := h.orderly.grows_write hwrite
  obtain ⟨v, old, -, rfl | ⟨hvacant, -, rfl⟩⟩ := FileTree.openFile_eq_ok hopen
  · exact ⟨by rw [h.eq], h.grown.trans hgrown, hback.trans h.within, horderly⟩
  · obtain ⟨hnone, hne⟩ := FileTree.node?_of_find_vacant hvacant
    obtain ⟨id', content', hend⟩ := file_furnished_of_vacant h.grown h.within hd hvacant
      (FileTree.refuses_of_openFile hopen hvacant)
    have hadded : Grows IsKept w.files (w.files.addFile v) :=
      FileTree.grows_addFile hnone hne fun hk => hk.2 (getLast?_of_settingsIn hvacant rfl)
    exact ⟨by rw [h.eq], (h.grown.trans hadded).trans hgrown,
      hback.trans (h.within.addFile_left hend hnone hne), horderly⟩

/-! ### The calls -/

/-- Nothing is to be applied, as in the beginning. -/
theorem no_variables (h : Underway w₀ t root w) (hs : Settled w₀ documents t) :
    w.reader w.files w.env = .ok { env := w.env } := by
  have hsame : SameVariables w₀.files w.files := .of_grows (hs.grown.trans h.grown) fun l hl =>
    isKept_of_getLast? hl (by decide) (by decide)
  rw [h.eq]
  exact (hs.lawful.sees _ hsame).trans hs.no_variables

theorem keeps_applyVariables (hs : Settled w₀ documents t) :
    Action.Keeps (Underway w₀ t root) Settings.applyVariables := fun w h => by
  rw [Settings.run_applyVariables_of_nothing (h.no_variables hs)]
  exact h

theorem keeps_writeTo (hs : Settled w₀ documents t) (v : Json) :
    Action.Keeps (Underway w₀ t (documents.child programName))
      (Settings.writeTo (settingsIn ((documents.child programName).child "config".toList)) v) :=
  Settings.keeps_writeTo_of (fun _ r h => h.of_logs (World.appendsLogs_note _ r))
    (fun _ _ _ h hwrite => h.write hs.folder hwrite) v

end Underway

/-! ## Calls -/

/-- A call that concerns the directories and the settings. -/
inductive Call where
  | userRoot
  | configDir
  | logsDir
  | settingsFile
  | load
  | save (settings : Json)

/-- The world after a call, whether it failed or not. -/
def Call.after (w : World) : Call → World
  | userRoot => (Action.run PromptFill.userRoot w).2
  | configDir => (Action.run PromptFill.configDir w).2
  | logsDir => (Action.run PromptFill.logsDir w).2
  | settingsFile => (Action.run PromptFill.settingsFile w).2
  | load => (Action.run Settings.load w).2
  | save settings => (Action.run (Settings.save settings) w).2

/-- The world after some calls. -/
def afterCalls (cs : List Call) (w : World) : World := cs.foldl Call.after w

namespace Underway

section calls

variable (hs : Settled w₀ documents t)
  (hlast : documentsDir w₀.accounts w₀.env w₀.platform
    (furnished t (documents.child programName)) = .ok documents)

include hs hlast

theorem run_userRoot (h : Underway w₀ t (documents.child programName) w) :
    Action.run userRoot w = (.ok (documents.child programName), w) := by
  obtain ⟨d, hd⟩ := hs.folder
  refine PromptFill.run_userRoot ?_ ⟨d, h.grown.find_dir hd⟩
  rw [h.eq]
  exact documentsDir_between hs.rooted hs.grown h.grown h.within isKept_configuration
    hs.decided hd hlast

theorem yields_userRoot : Action.Yields (Underway w₀ t (documents.child programName))
    (· = documents.child programName) userRoot := fun w h => by
  rw [h.run_userRoot hs hlast]
  exact ⟨h, fun _ hp => by cases hp; rfl⟩

omit hlast in
theorem yields_ensured {c : Text} (hc : c = "config".toList ∨ c = "logs".toList) :
    Action.Yields (Underway w₀ t (documents.child programName))
      (· = (documents.child programName).child c)
      (ensured ((documents.child programName).child c)) := fun w h => by
  rw [run_ensured]
  refine ⟨h.makeDirs hs.folder hc, fun p hp => ?_⟩
  rcases hmake : w.files.makeDirs ((documents.child programName).child c) with ⟨_ | _, _⟩
  · rw [hmake] at hp
    cases hp
  · rw [hmake] at hp
    cases hp
    rfl

theorem yields_configDir : Action.Yields (Underway w₀ t (documents.child programName))
    (· = (documents.child programName).child "config".toList) configDir := fun w h => by
  have hunset : settingsOverride? w.accounts w.env = .ok none := by rw [h.eq, hs.unset]
  rw [run_configDir hunset (h.run_userRoot hs hlast)]
  exact yields_ensured hs (.inl rfl) w h

theorem yields_logsDir : Action.Yields (Underway w₀ t (documents.child programName))
    (· = (documents.child programName).child "logs".toList) logsDir := fun w h => by
  rw [run_logsDir (h.run_userRoot hs hlast)]
  exact yields_ensured hs (.inr rfl) w h

theorem yields_settingsFile : Action.Yields (Underway w₀ t (documents.child programName))
    (· = settingsIn ((documents.child programName).child "config".toList)) settingsFile :=
  (yields_configDir hs hlast).bind fun dir hdir => Action.yields_pure (by rw [hdir, settingsIn])

/-- A call keeps a world underway. -/
theorem after (h : Underway w₀ t (documents.child programName) w) (c : Call) :
    Underway w₀ t (documents.child programName) (c.after w) := by
  have hwrite (file : Path)
      (hfile : file = settingsIn ((documents.child programName).child "config".toList))
      (v : Json) : Action.Keeps (Underway w₀ t (documents.child programName))
        (Settings.writeTo file v) := by
    rw [hfile]
    exact keeps_writeTo hs v
  have hfile := yields_settingsFile hs hlast
  cases c with
  | userRoot => exact (yields_userRoot hs hlast).keeps w h
  | configDir => exact (yields_configDir hs hlast).keeps w h
  | logsDir => exact (yields_logsDir hs hlast).keeps w h
  | settingsFile => exact hfile.keeps w h
  | load =>
    exact Settings.keeps_load_of (keeps_applyVariables hs) hfile
      (fun _ r h => h.of_logs (World.appendsLogs_note _ r)) hwrite w h
  | save settings => exact Settings.keeps_save_of hfile hwrite settings w h

/-- Calls keep a world underway. -/
theorem afterCalls (h : Underway w₀ t (documents.child programName) w) (cs : List Call) :
    Underway w₀ t (documents.child programName) (afterCalls cs w) := by
  induction cs generalizing w with
  | nil => exact h
  | cons c cs ih => exact ih (h.after hs hlast c)

end calls

end Underway

/-! ## Staying -/

/-- Whether the program's folder is answered as `root`, and its directories and the settings file
    as what lies in it, where the directories can be made. -/
structure StaysAt (root : Path) (w : World) : Prop where
  userRoot : (Action.run userRoot w).1 = .ok root
  configDir : (Action.run configDir w).1 =
    (w.files.makeDirs (root.child "config".toList)).1.map fun _ => root.child "config".toList
  logsDir : (Action.run logsDir w).1 =
    (w.files.makeDirs (root.child "logs".toList)).1.map fun _ => root.child "logs".toList
  settingsFile : (Action.run settingsFile w).1 =
    (w.files.makeDirs (root.child "config".toList)).1.map fun _ =>
      settingsIn (root.child "config".toList)

theorem Underway.staysAt (hs : Settled w₀ documents t)
    (hlast : documentsDir w₀.accounts w₀.env w₀.platform
      (furnished t (documents.child programName)) = .ok documents)
    (h : Underway w₀ t (documents.child programName) w) :
    StaysAt (documents.child programName) w := by
  have hroot := h.run_userRoot hs hlast
  have hunset : settingsOverride? w.accounts w.env = .ok none := by rw [h.eq, hs.unset]
  refine ⟨?_, ?_, ?_, ?_⟩
  · rw [hroot]
  · rw [run_configDir hunset hroot, run_ensured]
  · rw [run_logsDir hroot, run_ensured]
  · rw [run_settingsFile_of_configDir (run_configDir hunset hroot)]

/-! ### The way to the furnished folder -/

theorem decided_of_run_userRoot
    (hrun : (Action.run userRoot w).1 = .ok (documents.child programName)) :
    documentsDir w.accounts w.env w.platform w.files = .ok documents := by
  have hanswer : Action.run userRoot w =
      (.ok (documents.child programName), (Action.run userRoot w).2) := by rw [← hrun]
  obtain ⟨documents', t, hdecided, hroot, -⟩ := exists_of_run_userRoot hanswer
  rw [child_programName_injective hroot, hdecided]

/-- If the folder stays, then its two directories are made in it. -/
theorem afterCalls_dirs {d : Location} (hunset : settingsOverride? w.accounts w.env = .ok none)
    (hd : w.files.find (documents.child programName) = .ok (.dir d))
    (hstays : ∀ cs, (Action.run userRoot (afterCalls cs w)).1 =
      .ok (documents.child programName)) :
    afterCalls [.configDir, .logsDir] w =
      { w with files := withDirs w.files (documents.child programName) } := by
  have hroot := run_userRoot (decided_of_run_userRoot (hstays [])) ⟨d, hd⟩
  have hconfig : afterCalls [.configDir] w = { w with files :=
      (w.files.makeDirs ((documents.child programName).child "config".toList)).2 } := by
    rw [afterCalls, List.foldl_cons, List.foldl_nil, Call.after, run_configDir hunset hroot,
      run_ensured]
  have hstays' := hstays [.configDir]
  have hlogs : afterCalls [.configDir, .logsDir] w =
      Call.after (afterCalls [.configDir] w) .logsDir := rfl
  rw [hlogs]
  rw [hconfig] at hstays' ⊢
  have hgrown : Grows IsKept w.files
      (w.files.makeDirs ((documents.child programName).child "config".toList)).2 :=
    FileTree.grows_makeDirs _ _
  have hroot' := run_userRoot (decided_of_run_userRoot hstays') ⟨d, hgrown.find_dir hd⟩
  rw [Call.after, run_logsDir hroot', run_ensured, withDirs]

/-- Saving where the settings file can be opened leads beyond the tree in which it is opened. -/
theorem grows_after_save {id : Nat} {opened : FileTree}
    (hunset : settingsOverride? w.accounts w.env = .ok none) (hw : w.Orderly)
    (hroot : Action.run userRoot w = (.ok root, w))
    (hopen : w.files.openFile (settingsIn (root.child "config".toList)) = .ok (id, opened)) :
    ∃ files logging output, Call.after w (.save .null) = { w with files, logging, output } ∧
      Grows IsKept opened files := by
  have hfile : Action.run settingsFile w = (.ok (settingsIn (root.child "config".toList)), w) := by
    obtain ⟨d, hconfig⟩ := find_dir_of_openFile hopen
    rw [run_settingsFile_of_configDir (run_configDir hunset hroot),
      FileTree.makeDirs_of_find hconfig]
    rfl
  obtain ⟨content, files, hwrite, hlogs⟩ :=
    (Settings.written_writeTo w (settingsIn (root.child "config".toList)) .null).exists_write hopen
  obtain ⟨id', opened', hopen', hgrown, -⟩ := hw.grows_write hwrite
  rw [hopen] at hopen'
  cases hopen'
  have hlogged := ((hw.write hwrite).grows_of_logs hlogs).1
  rw [Call.after, Settings.save, Action.run_bind, hfile]
  exact ⟨_, _, _, hlogs.eq, hgrown.trans hlogged⟩

theorem orderly_withDirs (hw : w.Orderly) (root : Path) :
    { w with files := withDirs w.files root }.Orderly :=
  hw.of_sameFiles ((w.files.sameFiles_makeDirs _).trans (FileTree.sameFiles_makeDirs _ _))
    fun _ h => h

/-- If the folder stays, then the documents directory is decided on with the furnished folder. -/
theorem documentsDir_furnished_of_stays (hs : Settled w documents t)
    (hw : { w with files := t }.Orderly)
    (hstays : ∀ cs, (Action.run userRoot (afterCalls cs { w with files := t })).1 =
      .ok (documents.child programName)) :
    documentsDir w.accounts w.env w.platform (furnished t (documents.child programName)) =
      .ok documents := by
  obtain ⟨d, hd⟩ := hs.folder
  have hdirs := afterCalls_dirs (w := { w with files := t }) hs.unset hd hstays
  have hdecided := decided_of_run_userRoot (hstays [.configDir, .logsDir])
  rw [hdirs] at hdecided
  cases hopen : (withDirs t (documents.child programName)).openFile
      (settingsIn ((documents.child programName).child "config".toList)) with
  | error e =>
    rw [furnished, hopen]
    exact hdecided
  | ok opened =>
    obtain ⟨id, opened⟩ := opened
    have hfurnished : furnished t (documents.child programName) = opened := by
      rw [furnished, hopen]
    have hsaved : afterCalls [.configDir, .logsDir, .save .null] { w with files := t } =
        Call.after (afterCalls [.configDir, .logsDir] { w with files := t }) (.save .null) := rfl
    have hd' := (grows_withDirs t (documents.child programName)).find_dir hd
    obtain ⟨files, logging, output, hsave, hgrown⟩ := grows_after_save
      (w := { w with files := withDirs t (documents.child programName) }) hs.unset
      (orderly_withDirs hw _) (run_userRoot hdecided ⟨d, hd'⟩) hopen
    have hend := decided_of_run_userRoot (hstays [.configDir, .logsDir, .save .null])
    rw [hsaved, hdirs, hsave] at hend
    rw [← hfurnished] at hgrown
    exact documentsDir_between hs.rooted hs.grown (grows_furnished _ _) hgrown isKept_configuration
      hs.decided hd hend

/-- Once the folder is there, it stays exactly if the documents directory is still decided on when
    the folder is furnished with its directories and the settings file. -/
theorem Settled.stays_iff (hs : Settled w documents t) (hw : { w with files := t }.Orderly) :
    (∀ cs, StaysAt (documents.child programName) (afterCalls cs { w with files := t })) ↔
      documentsDir w.accounts w.env w.platform (furnished t (documents.child programName)) =
        .ok documents := by
  constructor
  · exact fun hstays => documentsDir_furnished_of_stays hs hw fun cs => (hstays cs).userRoot
  · intro hlast cs
    have hstart : Underway w t (documents.child programName) { w with files := t } :=
      ⟨rfl, .refl t, grows_furnished t _, hw⟩
    exact (hstart.afterCalls hs hlast cs).staysAt hs hlast

end PromptFill
