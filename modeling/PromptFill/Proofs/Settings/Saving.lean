/-
  Settings that were saved are loaded again.

  What is written of settings is the JSON text of an object, and reading the text gives the
  object back (`isObject_text`); what is written before an integer that is too long is malformed
  (`contentOf_cutShort`).  The file holds this until the settings are loaded: what saving logs is
  appended to log files, and the settings file is none of these (`found_of_write`).  Loading sets
  the stored entries over the defaults.
-/
import PromptFill.Proofs.Json.Broken
import PromptFill.Proofs.Settings.Loading

namespace PromptFill.Settings

open Json
open FileTree (Grows)

variable {w w' : World} {dir : Path} {m : Settings} {t t' : FileTree}

/-- What settings become when they are stored and loaded: the defaults with the stored entries in
    their places, and the other entries behind them. -/
theorem ofStored_eq (hm : m.keys.Nodup) :
    ofStored m = default.map (fun p => (p.1, (m.get? p.1).getD p.2)) ++
      m.filter fun p => p.1 ∉ default.keys := by
  have hdefault : default.keys.Nodup := by decide
  rw [ofStored, Table.update_eq hdefault hm]
  exact congrArg _ (List.filter_congr fun _ _ => decide_eq_decide.2 Iff.rfl)

/-! ## What is written -/

section written

variable {limits : Limits} (hplain : Plain (.object m)) (hdepth : depth (.object m) ≤ limits.nested)

include hplain hdepth

theorem isObject_text (hcut : cutShort? limits.digits 0 (.object m) = none) :
    IsObject limits (stored m) m := by
  have hlines : Text.unifyNewlines (Json.object m).text = (Json.object m).text :=
    Text.unifyNewlines_of_isPlain (isPlain_write hplain.proper 0)
  rw [stored, isObject_encode, hlines, ofText_text hplain.proper hdepth hcut]

theorem contentOf_cutShort {s : Text} {file : Path} {files : FileTree}
    (hcut : cutShort? limits.digits 0 (.object m) = some s)
    (hread : files.read file = .ok (Text.encode s)) :
    contentOf limits file files = .ok (.malformed s) := by
  obtain ⟨m', hm', hdepth', hcut', hstart⟩ := exists_of_cutShort? hplain hcut
  have hlines : Text.unifyNewlines s = s := by
    refine Text.unifyNewlines_of_isPlain fun c hc => ?_
    obtain ⟨d, x, hwhole⟩ := hstart
    have hmem : c ∈ (Json.object m').text := by
      rw [hwhole]
      exact List.mem_append_left _ hc
    exact isPlain_write hm'.proper 0 c hmem
  simp only [contentOf, hread, Text.decode?_encode, hlines,
    ofText_of_isStart hm' (hdepth'.trans hdepth) hcut' hstart]

end written

/-! ## What is found -/

/-- What was written to the settings file is found by loading, whatever is logged in between: no
    variables are to be applied, and the settings directory is there. -/
theorem found_of_write {content : ByteArray}
    (hdir : settingsOverride? w.accounts w.env = .ok (some dir))
    (hvars : w.reader w.files w.env = .ok { env := w.env }) (hlawful : w.reader.Lawful)
    (hw : w.Orderly) (hmake : w.files.makeDirs dir = (.ok (), t))
    (hreading : t.Permits .reading (settingsIn dir))
    (hwrite : t.write (settingsIn dir) content = .ok t')
    (hlogs : World.AppendsLogs { w with files := t' } w') :
    Action.run applyVariables w' = (.ok (), w') ∧
      Action.run settingsFile w' = (.ok (settingsIn dir), w') ∧
      w'.files.read (settingsIn dir) = .ok content := by
  have hmade : { w with files := t }.Orderly := by
    have hkept := Action.keeps_makeDirs dir w hw
    rwa [Action.run_makeDirs, hmake] at hkept
  have hwritten : { w with files := t' }.Orderly := hmade.write hwrite
  have hgrown : Grows IsKept t w'.files :=
    (hmade.grows_of_write hwrite).trans (hwritten.grows_of_logs hlogs).1
  have hall : Grows IsKept w.files w'.files := by
    have hdirs : Grows IsKept w.files (w.files.makeDirs dir).2 := FileTree.grows_makeDirs _ _
    rw [hmake] at hdirs
    exact hdirs.trans hgrown
  refine ⟨run_applyVariables_of_nothing ?_, ?_, ?_⟩
  · rw [hlogs.reader, hlogs.env]
    exact (hlawful.of_grows hall w.env).trans hvars
  · obtain ⟨d, hd⟩ := FileTree.find_of_makeDirs hmake
    rw [run_settingsFile (by rw [hlogs.accounts, hlogs.env]; exact hdir),
      FileTree.makeDirs_of_find (hgrown.find_dir hd)]
    rfl
  · exact read_of_logs hwritten hlogs (not_isLog_settingsIn dir)
      (FileTree.read_write hwrite hreading)

/-- A settings file in a directory that is there can be opened, or that is refused. -/
theorem isRefusal_of_openFile {e : Fault} (hmake : w.files.makeDirs dir = (.ok (), t))
    (h : t.openFile (settingsIn dir) = .error e) : e.isRefusal = true := by
  obtain ⟨d, hd⟩ := FileTree.find_of_makeDirs hmake
  obtain ⟨why, rfl⟩ | ⟨-, hnull⟩ := FileTree.openFile_eq_error h
  · rfl
  · rw [settingsIn_eq_below] at hnull
    refine absurd hnull (Path.not_mem_text_below (by decide) (by decide)
      (FileTree.find_eq_ok_iff.1 hd).1 ?_)
    exact List.forall_mem_singleton.2 (by decide)

theorem withEnvironment_of_not_switchesOn {value : Option Text}
    (h : value.any switchesOn = false) (settings : Settings) :
    settings.withEnvironment value = settings := by
  rw [withEnvironment, h]
  rfl

/-- A file that ends before an integer that is too long is loaded as malformed. -/
theorem run_load_of_cutShort {s : Text} {file : Path}
    (happly : Action.run applyVariables w = (.ok (), w))
    (hfile : Action.run settingsFile w = (.ok file, w))
    (hdebug : (w.env.get? debugVariable).any switchesOn = false) (hplain : Plain (.object m))
    (hdepth : depth (.object m) ≤ w.limits.nested)
    (hcut : cutShort? w.limits.digits 0 (.object m) = some s)
    (hread : w.files.read file = .ok (Text.encode s)) : Action.run load w =
      (.ok default, w.ensureHandler.log (notLoadedNote file (w.decoderMessage s))) := by
  rw [run_load_eq happly hfile, run_loadAt (FileTree.exists?_of_read hread)
    (contentOf_cutShort hplain hdepth hcut hread), withEnvironment_of_not_switchesOn hdebug]
  rfl

/-- **Settings that were saved are loaded.**  Settings that are plain, at any depth that the
    runtime puts up with, are saved to the directory that the environment names.  If every integer
    in them can be written, then loading answers the defaults with the saved values in their
    places, followed by the other entries in the order in which they were saved, and changes
    nothing; unless saving says that the file cannot be opened or that there is no room.  If an
    integer is too long, then saving ends in a fault that it says nothing about, the file holds
    what comes before the integer, and loading answers the defaults with a warning.

    The directory can be made, a settings file in it may be read, nothing is to be applied, the
    environment does not switch debugging on, and the world is orderly, as every run of the program
    keeps it (`Program.orderly_afterSteps`). -/
theorem load_of_save (hplain : Plain (.object m)) (hdepth : depth (.object m) ≤ w.limits.nested)
    (hdir : settingsOverride? w.accounts w.env = .ok (some dir))
    (hvars : w.reader w.files w.env = .ok { env := w.env }) (hlawful : w.reader.Lawful)
    (hdebug : (w.env.get? debugVariable).any switchesOn = false) (hw : w.Orderly)
    (hmake : w.files.makeDirs dir = (.ok (), t))
    (hreading : t.Permits .reading (settingsIn dir)) :
    (∃ t' e, (t.openFile (settingsIn dir) = .error e ∨ e = .noRoom ∧
        t.hasRoom (Text.encode ((Json.object m).written w.limits.digits).1) = false) ∧
      Action.run (save (.object m)) w =
        (.ok (), { w with files := t' }.ensureHandler.log (notSavedNote (settingsIn dir) e))) ∨
    (cutShort? w.limits.digits 0 (.object m) = none ∧ ∃ t' w',
      w' = { w with files := t' }.ensureHandler.log (savedNote (settingsIn dir)) ∧
      Action.run (save (.object m)) w = (.ok (), w') ∧
      Action.run load w' = (.ok (default.map (fun p => (p.1, (m.get? p.1).getD p.2)) ++
        m.filter fun p => p.1 ∉ default.keys), w')) ∨
    ∃ s t', cutShort? w.limits.digits 0 (.object m) = some s ∧
      Action.run (save (.object m)) w =
        (.error (.longNumeral w.limits.digits), { w with files := t' }) ∧
      t'.read (settingsIn dir) = .ok (Text.encode s) ∧
      Action.run load { w with files := t' } = (.ok default,
        { w with files := t' }.ensureHandler.log
          (notLoadedNote (settingsIn dir) (w.decoderMessage s))) := by
  have hsave := run_save_eq hdir hmake (.object m)
  have hwritten := written_writeTo { w with files := t } (settingsIn dir) (.object m)
  rw [← hsave] at hwritten
  generalize hrun : Action.run (save (.object m)) w = outcome at hwritten ⊢
  obtain ⟨outcome, w'⟩ := outcome
  cases hwritten with
  | refused hopen => exact .inl ⟨t, _, .inl hopen, rfl⟩
  | failed hopen hfailed =>
    rw [isRefusal_of_openFile hmake hopen] at hfailed
    cases hfailed
  | @partly t' hroom => exact .inl ⟨t', _, .inr ⟨rfl, hroom⟩, rfl⟩
  | @wholly t' _ hcut hwrite =>
    have hkeys : m.keys.Nodup := by
      cases hplain
      assumption
    have hlogs : World.AppendsLogs { w with files := t' } _ :=
      World.appendsLogs_note { w with files := t' } (savedNote (settingsIn dir))
    obtain ⟨happly, hfile, hread⟩ :=
      found_of_write hdir hvars hlawful hw hmake hreading hwrite hlogs
    have hobject := isObject_text hplain hdepth hcut
    rw [← ofStored_eq hkeys]
    refine .inr (.inl ⟨hcut, t', _, rfl, rfl, ?_⟩)
    rw [run_load_of_isObject happly hfile hread (by rw [hlogs.limits]; exact hobject), hlogs.env,
      withEnvironment_of_not_switchesOn hdebug]
  | @cut s t' _ hcut hwrite =>
    obtain ⟨happly, hfile, hread⟩ :=
      found_of_write hdir hvars hlawful hw hmake hreading hwrite (.refl _)
    exact .inr (.inr ⟨s, t', hcut, rfl, hread,
      run_load_of_cutShort happly hfile hdebug hplain hdepth hcut hread⟩)

/-- Settings with a default entry, a name and strings that need escapes, a number below zero, and
    values inside of one another. -/
def nestedSettings : Settings :=
  [("\u0001\"\\\n".toList, .list [.int (-12345678901234567890), .list [], .object
      [("é".toList, .string "\r\u007f𝄞/".toList), ("".toList, .null)]]),
    (debugKey, .bool true)]

/-- A world with a settings directory and a log file in it that is open. -/
def loggedWorld : World where
  files :=
    { nodes := [(["s".toList], .dir), (["s".toList, "p.log".toList], .file 0 ByteArray.empty)]
      fresh := 1 }
  env := [(settingsVariable, "/s".toList)]
  platform := "linux".toList
  logging := { rootLevel := Level.info, handlers := [.file Level.debug 0] }

theorem plain_nestedSettings : Plain (.object nestedSettings) := by
  refine .object (by decide) ?_
  simp only [nestedSettings, List.forall_mem_cons, List.not_mem_nil, false_implies, implies_true,
    and_true]
  refine ⟨.list ?_, .bool true⟩
  simp only [List.forall_mem_cons, List.not_mem_nil, false_implies, implies_true, and_true]
  refine ⟨.int _, .list (by simp), .object (by decide) ?_⟩
  simp only [List.forall_mem_cons, List.not_mem_nil, false_implies, implies_true, and_true]
  exact ⟨.string _, .null⟩

theorem orderly_loggedWorld : loggedWorld.Orderly := by
  have hnumber {l : Location} {id : Nat} (h : loggedWorld.files.number? l = some id) :
      l = ["s".toList, "p.log".toList] ∧ id = 0 := by
    simp only [FileTree.number?, FileTree.node?, loggedWorld, Table.get?] at h
    split at h
    · cases h
    · split at h
      · cases h
      · split at h
        · cases h
          exact ⟨Eq.symm ‹_›, rfl⟩
        · cases h
  have hopen {id : Nat} (h : loggedWorld.IsOpen id) : id = 0 := by
    obtain ⟨level, h⟩ := h
    cases List.mem_singleton.1 h
    rfl
  refine ⟨⟨fun h => ?_, fun h h' => ?_⟩, fun h => ?_, fun _ h => ?_⟩
  · rw [(hnumber h).2]
    decide
  · rw [(hnumber h).1, (hnumber h').1]
  · rw [hopen h]
    decide
  · rw [(hnumber h).1]
    exact ⟨"p".toList, rfl⟩

/-- The directory that is named in that world. -/
def loggedDir : Path := ⟨.root, ["s".toList]⟩

theorem makeDirs_loggedDir : loggedWorld.files.makeDirs loggedDir = (.ok (), loggedWorld.files) :=
  FileTree.makeDirs_of_find (d := ["s".toList]) rfl

theorem permits_loggedDir : loggedWorld.files.Permits .reading (settingsIn loggedDir) :=
  fun _ _ _ _ => rfl

/-- The settings file is not there, and can be made. -/
theorem openFile_loggedDir : loggedWorld.files.openFile (settingsIn loggedDir) =
    .ok (1, loggedWorld.files.addFile ["s".toList, "app_settings.json".toList]) := by
  have hvacant : loggedWorld.files.find (settingsIn loggedDir) =
      .ok (.vacant ["s".toList, "app_settings.json".toList]) := rfl
  rw [FileTree.openFile, hvacant]
  rfl

theorem load_of_save_nested :
    Plain (.object nestedSettings) ∧ depth (.object nestedSettings) ≤ loggedWorld.limits.nested ∧
      settingsOverride? loggedWorld.accounts loggedWorld.env = .ok (some loggedDir) ∧
      loggedWorld.reader loggedWorld.files loggedWorld.env = .ok { env := loggedWorld.env } ∧
      loggedWorld.reader.Lawful ∧
      (loggedWorld.env.get? debugVariable).any switchesOn = false ∧ loggedWorld.Orderly ∧
      loggedWorld.files.makeDirs loggedDir = (.ok (), loggedWorld.files) ∧
      loggedWorld.files.Permits .reading (settingsIn loggedDir) ∧
      ∃ w', Action.run (save (.object nestedSettings)) loggedWorld = (.ok (), w') ∧
        Action.run load w' = (.ok [(schemeKey, .string Scheme.default.name), (debugKey, .bool true),
          ("\u0001\"\\\n".toList, .list [.int (-12345678901234567890), .list [], .object
            [("é".toList, .string "\r\u007f𝄞/".toList), ("".toList, .null)]])], w') := by
  have hdepth : depth (.object nestedSettings) ≤ loggedWorld.limits.nested := by decide
  have hdir : settingsOverride? loggedWorld.accounts loggedWorld.env = .ok (some loggedDir) := by
    decide
  have hdebug : (loggedWorld.env.get? debugVariable).any switchesOn = false := by decide
  have hcut : cutShort? loggedWorld.limits.digits 0 (.object nestedSettings) = none := by decide
  refine ⟨plain_nestedSettings, hdepth, hdir, rfl, lawful_nothing, hdebug, orderly_loggedWorld,
    makeDirs_loggedDir, permits_loggedDir, ?_⟩
  rcases load_of_save plain_nestedSettings hdepth hdir rfl lawful_nothing hdebug
      orderly_loggedWorld makeDirs_loggedDir permits_loggedDir with
    ⟨-, e, hopen | ⟨-, hroom⟩, -⟩ | ⟨-, -, w', -, hsave, hload⟩ | ⟨s, -, hshort, -⟩
  · rw [openFile_loggedDir] at hopen
    cases hopen
  · cases hroom
  · exact ⟨w', hsave, hload⟩
  · rw [hcut] at hshort
    cases hshort

/-- Settings with the least integer that has more than so many digits. -/
def longSettings (digits : Nat) : Settings := [("a".toList, .int ((10 ^ digits : Nat) : Int))]

theorem cutShort?_longSettings {digits : Nat} (h : 0 < digits) :
    cutShort? digits 0 (.object (longSettings digits)) = some "\x7b\n  \"a\": ".toList := by
  have hlong : digits < (Text.decimal ((10 ^ digits : Nat) : Int).natAbs).length := by
    rw [Int.natAbs_natCast]
    exact Nat.lt_of_not_le fun hle =>
      Nat.lt_irrefl _ ((Nat.length_toDigits_le_iff (by decide) h).1 hle)
  have hint : cutShort? digits 1 (.int ((10 ^ digits : Nat) : Int)) = some [] := by
    rw [cutShort?, isLong, decide_eq_true hlong, if_pos rfl]
  rw [longSettings, cutShort?, cutFields?, hint]
  rfl

/-- An integer that is too long is not saved, though nothing is logged about it, and what was
    written is no JSON. -/
theorem long_integer_is_not_saved : ∃ t,
    Action.run (save (.object (longSettings loggedWorld.limits.digits))) loggedWorld =
      (.error (.longNumeral loggedWorld.limits.digits), { loggedWorld with files := t }) ∧
    t.read (settingsIn loggedDir) = .ok (Text.encode "\x7b\n  \"a\": ".toList) ∧
    (Action.run load { loggedWorld with files := t }).1 = .ok default := by
  have hcut := cutShort?_longSettings (show 0 < loggedWorld.limits.digits by decide)
  have hplain : Plain (.object (longSettings loggedWorld.limits.digits)) :=
    .object (List.nodup_singleton _) (List.forall_mem_singleton.2 (.int _))
  have hdepth : depth (.object (longSettings loggedWorld.limits.digits)) ≤
      loggedWorld.limits.nested := Nat.le_of_ble_eq_true rfl
  have hdir : settingsOverride? loggedWorld.accounts loggedWorld.env = .ok (some loggedDir) := by
    decide
  have hwrite := FileTree.write_of_openFile openFile_loggedDir
    (Text.encode "\x7b\n  \"a\": ".toList)
  obtain ⟨happly, hfile, hread⟩ := found_of_write hdir rfl lawful_nothing orderly_loggedWorld
    makeDirs_loggedDir permits_loggedDir hwrite (.refl _)
  refine ⟨_, ?_, hread, ?_⟩
  · rw [run_save_eq hdir makeDirs_loggedDir]
    exact run_writeTo_of_cutShort hwrite rfl hcut
  · rw [run_load_of_cutShort happly hfile (by decide) hplain hdepth hcut hread]

end PromptFill.Settings
