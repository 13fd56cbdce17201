/-
  Where the user's documents overlap with the program's directories.

  The program makes directories on the way to its folder, the folder, two directories in it, and the
  settings file.  Places for documents that are looked for before the one in use may pass what it
  makes, also by leading over it and back.  `Makes` says at which stops on the way of a place
  something is made, and `StaysMissing` that something else blocks the way, so that nothing comes up
  at the place (`exists?_furnished_iff`).

  So the folder stays where it is, in all runs, exactly if every place that is looked for before the
  one in use stays missing (`userRoot_stays_iff`).
-/
import PromptFill.Proofs.Directories.Staying

namespace PromptFill

open FileTree (Grows IsName stops)

variable {t t₁ : FileTree} {root p documents : Path} {d : Location} {s : Stop}

/-! ## What the program makes on the way of a place -/

/-- Whether the program makes what is missing at a stop: on the way to its folder, in the folder a
    directory for the settings or for log files, or the settings file, over which no names lead.
    The folder is made in the tree `t`, and then the tree is `t₁`. -/
inductive Makes (t t₁ : FileTree) (root : Path) (s : Stop) : Prop
  | way (s' : Stop) (hway : s' ∈ stops (t.start root) root.parts) (hplace : s'.place = s.place)
  | config (h : t₁.IsFree (root.child "config".toList) s.place)
  | logs (h : t₁.IsFree (root.child "logs".toList) s.place)
  | settings (h : (withDirs t₁ root).IsFree (settingsIn (root.child "config".toList)) s.place)
      (hlast : s.inner = false)

/-- Whether nothing comes up at a path when the program has made its folder and what is in it:
    something blocks the way of the path that the program does not make. -/
def StaysMissing (t t₁ : FileTree) (root p : Path) : Prop :=
  '\x00' ∈ p.text ∨ Text.byteLength p.text ≤ FileTree.longestPath ∧
    ∃ s ∈ stops (t.start p) p.parts, t.Blocks s ∧ ¬ Makes t t₁ root s

theorem blocks_withDirs_iff (hroot : t.find root = .ok (.dir d)) :
    (withDirs t root).Blocks s ↔
      t.Blocks s ∧ ¬ t.IsFree (root.child "config".toList) s.place ∧
        ¬ t.IsFree (root.child "logs".toList) s.place := by
  have hgrown : Grows IsKept t (t.makeDirs (root.below ["config".toList])).2 :=
    FileTree.grows_makeDirs t _
  rw [withDirs, child_config, child_logs,
    FileTree.blocks_makeDirs_below_iff (hgrown.find_dir hroot) (by decide),
    FileTree.blocks_makeDirs_below_iff hroot (by decide),
    FileTree.isFree_makeDirs_below_iff hroot (by decide) (by decide) (by decide), and_assoc]

theorem blocks_furnished_iff : (furnished t root).Blocks s ↔
    (withDirs t root).Blocks s ∧
      ((withDirs t root).IsFree (settingsIn (root.child "config".toList)) s.place →
        s.inner = true) := by
  by_cases hfree : (withDirs t root).IsFree (settingsIn (root.child "config".toList)) s.place
  · obtain ⟨hnone, hne⟩ := FileTree.node?_of_find_vacant hfree.1
    have hfile : (furnished t root).node? s.place =
        some (.file (withDirs t root).fresh ByteArray.empty) := by
      rw [furnished_of_isFree hfree, FileTree.node?_addFile hne, if_pos rfl]
    rw [FileTree.blocks_iff_of_file hfile, and_iff_right (FileTree.blocks_of_none hnone)]
    exact ⟨fun h _ => h, fun h => h hfree⟩
  · rw [and_iff_left fun h => absurd h hfree]
    obtain h | ⟨v, hv, h⟩ := furnished_cases t root
    · rw [h]
    · refine FileTree.blocks_congr ?_
      rw [h, FileTree.node?_addFile (FileTree.node?_of_find_vacant hv.1).2, if_neg]
      rintro rfl
      exact hfree hv

/-- What blocks the way when all is made blocked it before, and the program does not make it. -/
theorem blocks_furnished_iff_makes (hmake : t.makeDirs root = (.ok (), t₁)) :
    (furnished t₁ root).Blocks s ↔ t.Blocks s ∧ ¬ Makes t t₁ root s := by
  obtain ⟨d, hd⟩ := FileTree.find_of_makeDirs hmake
  rw [blocks_furnished_iff, blocks_withDirs_iff hd, FileTree.blocks_makeDirs_iff hmake]
  constructor
  · rintro ⟨⟨⟨hblocks, hway⟩, hconfig, hlogs⟩, hsettings⟩
    refine ⟨hblocks, ?_⟩
    rintro (⟨s', hs', hplace⟩ | h | h | ⟨h, hlast⟩)
    · exact hway ⟨s', hs', hplace⟩
    · exact hconfig h
    · exact hlogs h
    · rw [hsettings h] at hlast
      cases hlast
  · rintro ⟨hblocks, hmakes⟩
    refine ⟨⟨⟨hblocks, ?_⟩, fun h => hmakes (.config h), fun h => hmakes (.logs h)⟩, fun h => ?_⟩
    · rintro ⟨s', hs', hplace⟩
      exact hmakes (.way s' hs' hplace)
    · by_contra hinner
      exact hmakes (.settings h (Bool.not_eq_true _ ▸ hinner))

/-- There is nothing at a place when all is made, exactly if it stays missing. -/
theorem exists?_furnished_iff (hmake : t.makeDirs root = (.ok (), t₁)) :
    (furnished t₁ root).exists? p = .ok false ↔ StaysMissing t t₁ root p := by
  have hgrown : Grows IsKept t (furnished t₁ root) := by
    have hdirs : Grows IsKept t (t.makeDirs root).2 := FileTree.grows_makeDirs t root
    rw [hmake] at hdirs
    exact hdirs.trans (grows_furnished t₁ root)
  have hstart : (furnished t₁ root).start p = t.start p := by
    rw [FileTree.start, FileTree.start, hgrown.here]
  simp only [FileTree.exists?_eq_false_iff, hstart, blocks_furnished_iff_makes hmake]
  rfl

/-! ## The folder that stays -/

section staying

variable {w w₁ : World}

/-- The documents directory is still decided on when all is made, exactly if it comes first among
    the places for documents, or is the home directory, and the places before it stay missing. -/
theorem documentsDir_furnished_iff (hs : Settled w documents t₁)
    (hmake : w.files.makeDirs (documents.child programName) = (.ok (), t₁)) :
    documentsDir w.accounts w.env w.platform (furnished t₁ (documents.child programName)) =
        .ok documents ↔
      ∃ home ps, homeDir w.accounts w.env = .ok home ∧
        documentsCandidates w.accounts w.env w.platform t₁ home = .ok ps ∧
        ((∃ before after, ps = before ++ documents :: after ∧
            ∀ p ∈ before, StaysMissing w.files t₁ (documents.child programName) p) ∨
          documents = home ∧
            ∀ p ∈ ps, StaysMissing w.files t₁ (documents.child programName) p) := by
  obtain ⟨d, hd⟩ := hs.folder
  have hgrown : Grows IsKept t₁ (furnished t₁ (documents.child programName)) :=
    grows_furnished t₁ _
  have hread {home : Path} (hhome : homeDir w.accounts w.env = .ok home) (content : ByteArray) :
      t₁.read (home.below configurationNames) = .ok content ↔
        (furnished t₁ (documents.child programName)).read (home.below configurationNames) =
          .ok content :=
    read_configuration_iff hs.rooted hs.grown (.refl t₁) hgrown isKept_configuration hs.decided hd
      hhome
  rw [documentsDir_eq_ok_iff_of_exists (exists?_of_find_folder (hgrown.find_dir hd))]
  simp only [exists?_furnished_iff hmake]
  refine exists_congr fun home => exists_congr fun ps => and_congr_right fun hhome =>
    and_congr_left fun _ => ⟨?_, ?_⟩
  · exact documentsCandidates_congr hhome (hread hhome)
  · exact documentsCandidates_congr hhome fun content => (hread hhome content).symm

/-- **The program's folder stays where it is.**  The environment names no settings directory, no
    variables are to be applied, everything lies in a directory, the world is orderly, as every run
    of the program keeps it (`Program.orderly_afterSteps`), and the program's folder is answered.
    After all runs of calls the same folder is answered, and its directories and the settings file
    in it, where the directories can be made, exactly if this holds of the places where documents
    may be once the folder is there: the directory that the folder is in is one of them or the home
    directory, and all that are looked for before it stay missing. -/
theorem userRoot_stays_iff (hunset : settingsOverride? w.accounts w.env = .ok none)
    (hlawful : w.reader.Lawful) (hvars : w.reader w.files w.env = .ok { env := w.env })
    (hrooted : w.files.Rooted) (hw : w.Orderly)
    (hrun : Action.run userRoot w = (.ok root, w₁)) :
    (∀ cs, StaysAt root (afterCalls cs w₁)) ↔
      ∃ documents home ps, root = documents.child programName ∧
        homeDir w.accounts w.env = .ok home ∧
        documentsCandidates w.accounts w.env w.platform w₁.files home = .ok ps ∧
        ((∃ before after, ps = before ++ documents :: after ∧
            ∀ p ∈ before, StaysMissing w.files w₁.files root p) ∨
          documents = home ∧ ∀ p ∈ ps, StaysMissing w.files w₁.files root p) := by
  obtain ⟨documents, t₁, hdecided, rfl, hmake, rfl⟩ := exists_of_run_userRoot hrun
  have hgrown : Grows IsKept w.files t₁ := by
    have hdirs : Grows IsKept w.files (w.files.makeDirs (documents.child programName)).2 :=
      FileTree.grows_makeDirs w.files _
    rwa [hmake] at hdirs
  have horderly : { w with files := t₁ }.Orderly := by
    have hkept := keeps_userRoot w hw
    rwa [hrun] at hkept
  have hs : Settled w documents t₁ :=
    ⟨hunset, hlawful, hvars, hrooted, hgrown, hdecided, FileTree.find_of_makeDirs hmake⟩
  rw [hs.stays_iff horderly, documentsDir_furnished_iff hs hmake]
  constructor
  · rintro ⟨home, ps, hstays⟩
    exact ⟨documents, home, ps, rfl, hstays⟩
  · rintro ⟨documents', home, ps, hroot, hstays⟩
    cases child_programName_injective hroot
    exact ⟨home, ps, hstays⟩

end staying

/-! ### A folder that stays, and one that moves -/

section worlds

variable {w : World} {home : Path} {accounts : Accounts} {env : Environment} {platform : Text}

theorem documentsDir_of_candidate {b : Bool} (hhome : homeDir accounts env = .ok home)
    (hcandidates : documentsCandidates accounts env platform t home = .ok [p])
    (hb : t.exists? p = .ok b) :
    documentsDir accounts env platform t = .ok (if b then p else home) := by
  refine documentsDir_eq_ok_iff.2
    ⟨home, [p], if b then some p else none, hhome, hcandidates, ?_, ?_⟩
  · rw [firstThere, hb]
    cases b <;> rfl
  · cases b <;> rfl

/-- The folder is made, if only itself is missing. -/
theorem run_userRoot_of_isFree {v : Location}
    (hdocuments : documentsDir w.accounts w.env w.platform w.files = .ok documents)
    (hfree : w.files.IsFree (documents.child programName) v) :
    Action.run userRoot w =
      (.ok (documents.child programName), { w with files := w.files.addDir v }) := by
  rw [userRoot, Action.run_bind, Action.run_query, hdocuments]
  simp only [run_ensured, FileTree.makeDirs_of_vacant hfree.1 hfree.2, Except.map]

/-- A home directory. -/
def someHome : Path := ⟨.root, ["home".toList, "u".toList]⟩

/-- A world with this home directory and with more files. -/
def homeWorld (platform : Text) (more : Table Location Node) : World where
  files :=
    { nodes := (["home".toList], .dir) :: (["home".toList, "u".toList], .dir) :: more
      fresh := 1 }
  env := [("HOME".toList, "/home/u".toList)]
  platform
  logging := { rootLevel := Level.warning }

theorem homeDir_homeWorld (platform : Text) (more : Table Location Node) :
    homeDir (homeWorld platform more).accounts (homeWorld platform more).env = .ok someHome := rfl

/-- A world with nothing in the home directory. -/
def bareWorld : World := homeWorld "darwin".toList []

theorem orderly_bareWorld : bareWorld.Orderly := by
  have hnumber (l : Location) : bareWorld.files.number? l = none := by
    rw [FileTree.number?, FileTree.node?]
    simp only [bareWorld, homeWorld, Table.get?]
    repeat' split
    all_goals rfl
  refine World.orderly_of_not_isOpen (FileTree.numbered_of_no_files hnumber) ?_
  rintro id ⟨level, h⟩
  cases h

theorem rooted_bareWorld : bareWorld.files.Rooted := by
  refine FileTree.rooted_of_nodes ?_
  simp only [bareWorld, homeWorld, List.forall_mem_cons, List.not_mem_nil, false_implies,
    implies_true, and_true]
  exact ⟨rfl, rfl⟩

/-- The tree of this world with the program's folder. -/
def bareFolder : FileTree := bareWorld.files.addDir ["home".toList, "u".toList, programName]

/-- The program makes no directory for documents in the home directory. -/
theorem not_makes_bareWorld :
    ¬ Makes bareWorld.files bareFolder (someHome.child programName)
      ⟨["home".toList, "u".toList, "Documents".toList], false⟩ := by
  have hway : stops (bareWorld.files.start (someHome.child programName))
      (someHome.child programName).parts =
        [⟨["home".toList], true⟩, ⟨["home".toList, "u".toList], true⟩,
          ⟨["home".toList, "u".toList, programName], false⟩] := rfl
  have hconfig : bareFolder.find ((someHome.child programName).child "config".toList) =
      .ok (.vacant ["home".toList, "u".toList, programName, "config".toList]) := rfl
  have hlogs : bareFolder.find ((someHome.child programName).child "logs".toList) =
      .ok (.vacant ["home".toList, "u".toList, programName, "logs".toList]) := rfl
  have hsettings : (withDirs bareFolder (someHome.child programName)).find
      (settingsIn ((someHome.child programName).child "config".toList)) = .ok (.vacant
        ["home".toList, "u".toList, programName, "config".toList,
          "app_settings.json".toList]) := by
    rw [withDirs, FileTree.makeDirs_of_vacant hconfig rfl, FileTree.makeDirs_of_vacant
      (v := ["home".toList, "u".toList, programName, "logs".toList]) rfl rfl]
    rfl
  rintro (⟨s', hs', hplace⟩ | ⟨h, -⟩ | ⟨h, -⟩ | ⟨⟨h, -⟩, -⟩)
  · rw [hway] at hs'
    simp only [List.mem_cons, List.not_mem_nil, or_false] at hs'
    rcases hs' with rfl | rfl | rfl <;> exact absurd hplace (by decide)
  · exact absurd (hconfig.symm.trans h) (by simp)
  · exact absurd (hlogs.symm.trans h) (by simp)
  · exact absurd (hsettings.symm.trans h) (by simp)

/-- The folder stays in the home directory, if there is no directory for documents. -/
theorem userRoot_stays_bareWorld : bareWorld.reader.Lawful ∧ bareWorld.files.Rooted ∧
    bareWorld.Orderly ∧ ∃ w₁,
      Action.run userRoot bareWorld = (.ok (someHome.child programName), w₁) ∧
      ∀ cs, StaysAt (someHome.child programName) (afterCalls cs w₁) := by
  have hdocuments : documentsDir bareWorld.accounts bareWorld.env bareWorld.platform
      bareWorld.files = .ok someHome :=
    documentsDir_of_candidate (p := someHome.child "Documents".toList) (b := false)
      (homeDir_homeWorld _ _) rfl rfl
  have hrun : Action.run userRoot bareWorld =
      (.ok (someHome.child programName), { bareWorld with files := bareFolder }) :=
    run_userRoot_of_isFree hdocuments ⟨rfl, rfl⟩
  have hway : ⟨["home".toList, "u".toList, "Documents".toList], false⟩ ∈
      stops (bareWorld.files.start (someHome.child "Documents".toList))
        (someHome.child "Documents".toList).parts :=
    .tail _ (.tail _ (.head _))
  refine ⟨lawful_nothing, rooted_bareWorld, orderly_bareWorld, _, hrun, ?_⟩
  refine (userRoot_stays_iff rfl lawful_nothing rfl rooted_bareWorld orderly_bareWorld hrun).2
    ⟨someHome, someHome, [someHome.child "Documents".toList], rfl, rfl, rfl, .inr ⟨rfl, ?_⟩⟩
  rw [List.forall_mem_singleton]
  exact .inr ⟨by decide, _, hway, .inl rfl, not_makes_bareWorld⟩

/-- The configuration file that names the program's folder as the directory of documents. -/
def selfConfiguration : Text := "XDG_DOCUMENTS_DIR=\"$HOME/promptbook\"\n".toList

/-- A world with this configuration file. -/
def selfWorld : World :=
  homeWorld "linux".toList
    [(["home".toList, "u".toList, ".config".toList], .dir),
      (["home".toList, "u".toList, ".config".toList, "user-dirs.dirs".toList],
        .file 0 (Text.encode selfConfiguration))]

theorem documentsCandidates_selfWorld (hread : t.read
    (someHome.child ".config/user-dirs.dirs".toList) = .ok (Text.encode selfConfiguration)) :
    documentsCandidates selfWorld.accounts selfWorld.env selfWorld.platform t someHome =
      .ok [someHome.child programName] := by
  have hlines : documentsOfLines selfWorld.accounts selfWorld.env someHome
      (Text.lines (Text.unifyNewlines selfConfiguration)) =
        .ok (some (someHome.child programName)) := rfl
  have hconfigured : configuredDocuments selfWorld.accounts selfWorld.env t =
      .ok (some (someHome.child programName)) := by
    have hhome : homeDir selfWorld.accounts selfWorld.env = .ok someHome := homeDir_homeWorld _ _
    simp only [configuredDocuments, hhome, hread, configLines, Text.decodeLossy_encode, hlines]
  have hlinux : ¬ "win".toList.isPrefixOf selfWorld.platform ∧
      selfWorld.platform ≠ "darwin".toList := by decide
  rw [documentsCandidates, if_neg hlinux.1, if_neg hlinux.2, hconfigured]
  rfl

/-- The folder moves into itself: it is made in the home directory, as what the configuration
    file names is not there, and is what the file names from then on. -/
theorem userRoot_moves : settingsOverride? selfWorld.accounts selfWorld.env = .ok none ∧
    selfWorld.reader.Lawful ∧
    selfWorld.reader selfWorld.files selfWorld.env = .ok { env := selfWorld.env } ∧
    ∃ w₁, Action.run userRoot selfWorld = (.ok (someHome.child programName), w₁) ∧
      (Action.run userRoot w₁).1 = .ok ((someHome.child programName).child programName) := by
  have hdocuments : documentsDir selfWorld.accounts selfWorld.env selfWorld.platform
      selfWorld.files = .ok someHome :=
    documentsDir_of_candidate (b := false) (homeDir_homeWorld _ _)
      (documentsCandidates_selfWorld rfl) rfl
  have hdocuments' : documentsDir selfWorld.accounts selfWorld.env selfWorld.platform
      (selfWorld.files.addDir ["home".toList, "u".toList, programName]) =
        .ok (someHome.child programName) :=
    documentsDir_of_candidate (b := true) (homeDir_homeWorld _ _)
      (documentsCandidates_selfWorld rfl) rfl
  refine ⟨rfl, lawful_nothing, rfl, _, run_userRoot_of_isFree hdocuments ⟨rfl, rfl⟩, ?_⟩
  have hmoved : (selfWorld.files.addDir ["home".toList, "u".toList, programName]).IsFree
      ((someHome.child programName).child programName)
      ["home".toList, "u".toList, programName, programName] := ⟨rfl, rfl⟩
  rw [run_userRoot_of_isFree hdocuments' hmoved]

end worlds

end PromptFill
