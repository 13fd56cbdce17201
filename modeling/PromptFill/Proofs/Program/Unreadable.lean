/-
  Templates that cannot be read.

  When the settings are loaded and logging is set up, all depends on what reading the template as
  text comes to (`textAt`).  If there is no text, then the system refuses the path, or the bytes
  there are not UTF-8, or the path holds the character NUL (`textAt_eq_error`).  Of these three the
  program survives the first only: it logs one error that names the path and ends with the code 1.
  The other two end it with a fault, and nothing is logged (`run_of_no_text`).
-/
import PromptFill.Program
import PromptFill.Proofs.Directories.Staying
import PromptFill.Proofs.Log.Delivery
import PromptFill.Proofs.Settings.Loading

namespace PromptFill

namespace Program

variable {w w₁ w₂ : World} {args : List Text} {a : CommandLine.Arguments} {settings : Settings}
  {log file : Path} {files : FileTree} {e : Fault}

/-! ## Reading as text -/

/-- The text of a file, or why there is none. -/
def textAt (files : FileTree) (p : Path) : Except Fault Text :=
  match files.read p with
  | .ok bytes =>
    match Text.decode? bytes with
    | some s => .ok s
    | none => .error .badUtf8
  | .error e => .error e

theorem textAt_of_read_eq_error (h : files.read file = .error e) :
    textAt files file = .error e := by
  rw [textAt, h]

/-- Why there is no text: the path is refused, the bytes are no text, or the path holds the
    character NUL. -/
theorem textAt_eq_error (h : textAt files file = .error e) :
    (∃ why, e = .refused why file.text ∧ files.read file = .error e) ∨
      (e = .badUtf8 ∧ ∃ bytes, files.read file = .ok bytes ∧ ∀ s, bytes ≠ Text.encode s) ∨
      e = .nullInPath ∧ '\x00' ∈ file.text := by
  rw [textAt] at h
  split at h
  · rename_i bytes hread
    split at h
    · cases h
    · rename_i hdecode
      cases h
      refine .inr (.inl ⟨rfl, bytes, hread, ?_⟩)
      rintro s rfl
      rw [Text.decode?_encode] at hdecode
      cases hdecode
  · rename_i hread
    cases h
    obtain ⟨why, rfl⟩ | hnull := FileTree.read_eq_error hread
    · exact .inl ⟨why, rfl, hread⟩
    · exact .inr (.inr hnull)

/-- A template is read as the text of its file, with the line ends unified. -/
theorem run_readTemplate (logger : Text) (file : Path) (w : World) :
    Action.run (readTemplate logger file) w =
      match textAt w.files file with
      | .ok s => (.ok (some (Text.unifyNewlines s)), w)
      | .error e =>
        if e.isRefusal then (.ok none, w.log (unreadableNote logger file e)) else (.error e, w) := by
  rw [Action.run, readTemplate, textAt]
  cases w.files.read file with
  | error e => rfl
  | ok bytes =>
    dsimp only
    cases Text.decode? bytes <;> rfl

theorem info_le_level (logger : Text) (file : Path) (e : Fault) :
    Level.info ≤ (unreadableNote logger file e).level := by
  change Level.info ≤ Level.error
  decide

theorem text_isInfix_message (logger : Text) (file : Path) (e : Fault) :
    file.text <:+: (unreadableNote logger file e).message :=
  (List.infix_append _ file.text _).trans (List.prefix_append _ e.message).isInfix

/-! ## The program -/

/-- When the settings are loaded and logging is set up, the template is read. -/
theorem run_eq (program logger : Text) (hparse : CommandLine.parse args = .ok a)
    (hload : Action.run Settings.load w = (.ok settings, w₁))
    (hsetUp : Action.run (Logging.setUp (a.debug || settings.wantsDebug) programName none) w₁ =
      (.ok log, w₂)) :
    Action.run (run program logger args) w =
      match Action.run (readTemplate logger a.template) w₂ with
      | (.ok (some template), w₃) => (.ok (.ready template), w₃)
      | (.ok none, w₃) => (.ok .unreadable, w₃)
      | (.error e, w₃) => (.error e, w₃) := by
  rw [run, hparse]
  simp only [start, Action.run_bind, hload, hsetUp]
  rcases Action.run (readTemplate logger a.template) w₂ with ⟨_ | _ | template, w₃⟩ <;> rfl

/-- A template that is refused ends the program with a note. -/
theorem run_of_refused {why : Refusal} {path : Text} (program logger : Text)
    (hparse : CommandLine.parse args = .ok a)
    (hload : Action.run Settings.load w = (.ok settings, w₁))
    (hsetUp : Action.run (Logging.setUp (a.debug || settings.wantsDebug) programName none) w₁ =
      (.ok log, w₂))
    (htext : textAt w₂.files a.template = .error (.refused why path)) :
    Action.run (readTemplate logger a.template) w₂ =
        (.ok none, w₂.log (unreadableNote logger a.template (.refused why path))) ∧
      Action.run (run program logger args) w =
        (.ok .unreadable, w₂.log (unreadableNote logger a.template (.refused why path))) := by
  have hread : Action.run (readTemplate logger a.template) w₂ =
      (.ok none, w₂.log (unreadableNote logger a.template (.refused why path))) := by
    rw [run_readTemplate, htext]
    rfl
  exact ⟨hread, by rw [run_eq program logger hparse hload hsetUp, hread]⟩

/-- Any other fault in reading the template ends the program. -/
theorem run_of_fault (program logger : Text) (hparse : CommandLine.parse args = .ok a)
    (hload : Action.run Settings.load w = (.ok settings, w₁))
    (hsetUp : Action.run (Logging.setUp (a.debug || settings.wantsDebug) programName none) w₁ =
      (.ok log, w₂))
    (htext : textAt w₂.files a.template = .error e) (he : e.isRefusal = false) :
    Action.run (readTemplate logger a.template) w₂ = (.error e, w₂) ∧
      Action.run (run program logger args) w = (.error e, w₂) := by
  have hread : Action.run (readTemplate logger a.template) w₂ = (.error e, w₂) := by
    rw [run_readTemplate, htext]
    simp only [he, Bool.false_eq_true, if_false]
  exact ⟨hread, by rw [run_eq program logger hparse hload hsetUp, hread]⟩

/-- Levels stay regular when settings are loaded. -/
theorem regular_of_run_load (hload : Action.run Settings.load w = (.ok settings, w₁))
    (h : w.logging.Regular) : w₁.logging.Regular := by
  have hmake (p : Path) : Action.Keeps (fun w => w.logging.Regular) (Action.makeDirs p) :=
    fun w hw => by rwa [Action.run_makeDirs]
  have hlog (w : World) (r : Record) (hw : w.logging.Regular) : (w.log r).logging.Regular := by
    rw [World.logging_log]
    exact hw.ask r.logger
  have hvars : Action.Keeps (fun w => w.logging.Regular) Settings.applyVariables :=
    Settings.keeps_applyVariables_of hlog fun _ _ hw => hw
  have hnote (w : World) (r : Record) (hw : w.logging.Regular) :
      (w.ensureHandler.log r).logging.Regular := by
    refine hlog _ r ?_
    rw [World.ensureHandler]
    split_ifs
    · exact hw
    · exact hw
  have hkept := Settings.keeps_load_of hvars (Settings.keeps_settingsFile_of hmake).yields hnote
    (fun file _ v => Settings.keeps_writeTo_of hnote (fun _ _ _ hw _ => hw) v) w h
  rwa [hload] at hkept

/-- Once logging is set up, a note of information or worse is written once to the log file and once
    to the console. -/
theorem log_of_run_setUp {debug : Bool} {r : Record} (h : w₁.logging.Regular)
    (hsetUp : Action.run (Logging.setUp debug programName none) w₁ = (.ok log, w₂))
    (hr : Level.info ≤ r.level) : ∃ id logging, w₂.log r = w₂.receive id [r] logging := by
  obtain ⟨dir, w', id, files, -, -, hadds, -, rfl⟩ := Logging.of_run_setUp hsetUp
  have hregular : w'.logging.Regular := by
    rw [hadds.eq]
    exact h
  have hlogsTo : (World.log { w' with files, logging := w'.logging.configured debug id }
      (Logging.setupRecord debug dir)).logging.LogsTo debug id := by
    rw [World.logging_log]
    exact (hregular.logsTo debug id).ask _
  exact ⟨id, _, World.log_eq_receive_of_le hlogsTo hr⟩

/-- **A template that is no text.**  If the system refuses it, then reading it answers nothing and
    the program ends with the code 1, after one error was logged that names the path; unless other
    loggers were given levels, it is written once to the log file and once to the console.  Bytes
    that are not UTF-8 and a path that holds the character NUL are faults, with which reading the
    template and the program end before anything is logged. -/
theorem run_of_no_text (program logger : Text) (hparse : CommandLine.parse args = .ok a)
    (hload : Action.run Settings.load w = (.ok settings, w₁))
    (hsetUp : Action.run (Logging.setUp (a.debug || settings.wantsDebug) programName none) w₁ =
      (.ok log, w₂))
    (htext : textAt w₂.files a.template = .error e) :
    (∃ why note, e = .refused why a.template.text ∧ note = unreadableNote logger a.template e ∧
        note.level = Level.error ∧ a.template.text <:+: note.message ∧
        Action.run (readTemplate logger a.template) w₂ = (.ok none, w₂.log note) ∧
        Action.run (run program logger args) w = (.ok .unreadable, w₂.log note) ∧
        Outcome.unreadable.code? = some 1 ∧
        (w.logging.Regular → ∃ id logging, w₂.log note = w₂.receive id [note] logging)) ∨
      ((e = .badUtf8 ∧ (∃ bytes, w₂.files.read a.template = .ok bytes ∧
            ∀ s, bytes ≠ Text.encode s) ∨
          e = .nullInPath ∧ '\x00' ∈ a.template.text) ∧
        Action.run (readTemplate logger a.template) w₂ = (.error e, w₂) ∧
        Action.run (run program logger args) w = (.error e, w₂)) := by
  rcases textAt_eq_error htext with ⟨why, rfl, -⟩ | hfault
  · obtain ⟨hread, hrun⟩ := run_of_refused program logger hparse hload hsetUp htext
    refine .inl ⟨why, _, rfl, rfl, rfl, ?_, hread, hrun, rfl, fun h => ?_⟩
    · exact text_isInfix_message logger a.template _
    · exact log_of_run_setUp (regular_of_run_load hload h) hsetUp (info_le_level logger _ _)
  · have he : e.isRefusal = false := by
      rcases hfault with ⟨rfl, -⟩ | ⟨rfl, -⟩ <;> rfl
    exact .inr ⟨hfault, run_of_fault program logger hparse hload hsetUp htext he⟩

/-! ## A world in which all is there -/

/-- A world in which settings are stored and the program's folder is there, and perhaps a file that
    may be a template. -/
def readyWorld (m : Settings) (bytes? : Option ByteArray) : World where
  files :=
    { nodes := [(["s".toList], .dir),
        (["s".toList, "app_settings.json".toList], .file 0 (Settings.stored m)),
        (["h".toList], .dir), (["h".toList, "promptbook".toList], .dir),
        (["h".toList, "promptbook".toList, "logs".toList], .dir)] ++
          bytes?.toList.map fun bytes => (["t.txt".toList], .file 1 bytes)
      fresh := 2 }
  env := [("HOME".toList, "/h".toList), (settingsVariable, "/s".toList)]
  platform := "darwin".toList
  logging := { rootLevel := Level.warning }

/-- The directory of the log files of this world. -/
def readyLogs : Path := ⟨.root, ["h".toList, "promptbook".toList, "logs".toList]⟩

/-- The file that may be a template, as the arguments name it. -/
def readyTemplate : Path := ⟨.relative, ["t.txt".toList]⟩

/-- This world after logging is set up. -/
def loggingWorld (m : Settings) (bytes? : Option ByteArray) (debug : Bool) : World :=
  World.log { readyWorld m bytes? with
      files := (readyWorld m bytes?).files.addFile
        ["h".toList, "promptbook".toList, "logs".toList, "promptbook.log".toList]
      logging := (readyWorld m bytes?).logging.configured debug 2 }
    (Logging.setupRecord debug readyLogs)

variable (m : Settings) (bytes? : Option ByteArray)

theorem run_settingsFile_readyWorld : Action.run settingsFile (readyWorld m bytes?) =
    (.ok (settingsIn ⟨.root, ["s".toList]⟩), readyWorld m bytes?) := by
  have hdir : settingsOverride? (readyWorld m bytes?).accounts (readyWorld m bytes?).env =
      .ok (some ⟨.root, ["s".toList]⟩) := rfl
  rw [run_settingsFile hdir, FileTree.makeDirs_of_find (d := ["s".toList]) rfl]
  rfl

theorem run_load_readyWorld (hm : Json.Fits 4300 989 (.object m)) :
    Action.run Settings.load (readyWorld m bytes?) =
      (.ok (Settings.ofStored m), readyWorld m bytes?) :=
  Settings.run_load_of_isObject (Settings.run_applyVariables_of_nothing rfl)
    (run_settingsFile_readyWorld m bytes?) rfl (Settings.isObject_stored hm)

theorem run_setUp_readyWorld (debug : Bool) :
    Action.run (Logging.setUp debug programName none) (readyWorld m bytes?) =
      (.ok (Logging.logFile readyLogs programName), loggingWorld m bytes? debug) := by
  have hdocuments : documentsDir (readyWorld m bytes?).accounts (readyWorld m bytes?).env
      (readyWorld m bytes?).platform (readyWorld m bytes?).files = .ok ⟨.root, ["h".toList]⟩ := by
    cases bytes? <;> rfl
  have hroot := run_userRoot hdocuments ⟨_, rfl⟩
  have hlogs : (readyWorld m bytes?).files.find readyLogs =
      .ok (.dir ["h".toList, "promptbook".toList, "logs".toList]) := rfl
  have hdirOr : Action.run (Logging.dirOr none) (readyWorld m bytes?) =
      (.ok readyLogs, readyWorld m bytes?) := by
    have hchild : ((Path.mk .root ["h".toList]).child programName).child "logs".toList =
        readyLogs := rfl
    rw [Logging.dirOr, run_logsDir hroot, hchild, run_ensured, FileTree.makeDirs_of_find hlogs]
    rfl
  refine Logging.run_setUp_of_dirOr hdirOr hlogs ?_ rfl debug
  cases bytes? <;> rfl

variable {m bytes?}

theorem find_loggingWorld {p : Path} {place : Place} {debug : Bool}
    (h : ((readyWorld m bytes?).files.addFile
      ["h".toList, "promptbook".toList, "logs".toList, "promptbook.log".toList]).find p = .ok place)
    (hopen : ∀ l bytes, place ≠ .file l 2 bytes) :
    (loggingWorld m bytes? debug).files.find p = .ok place := by
  refine (World.appendsLogs_log _ _).find h fun l id bytes hfile hid => ?_
  obtain ⟨level, hmem⟩ := hid
  have hid : id = 2 := by
    rcases List.mem_cons.1 hmem with h | h
    · cases h
      rfl
    · cases List.mem_singleton.1 h
  subst id
  exact hopen l bytes hfile

theorem fits_readyDefault : Json.Fits 4300 989 (.object Settings.default) :=
  @Settings.fits_default {} (by decide)

theorem parse_readyTemplate :
    CommandLine.parse ["t.txt".toList] = .ok ⟨readyTemplate, .unset, false⟩ := rfl

/-- A template that is missing. -/
theorem run_of_no_text_missing :
    ∃ note, note.level = Level.error ∧ readyTemplate.text <:+: note.message ∧
      Action.run (run "app.py".toList mainLogger ["t.txt".toList])
        (readyWorld Settings.default none) =
          (.ok .unreadable, (loggingWorld Settings.default none false).log note) := by
  have hfind : (loggingWorld Settings.default none false).files.find readyTemplate =
      .ok (.vacant ["t.txt".toList]) := find_loggingWorld rfl fun _ _ h => by cases h
  have htext : textAt (loggingWorld Settings.default none false).files readyTemplate =
      .error (.refused .notFound readyTemplate.text) :=
    textAt_of_read_eq_error (by rw [FileTree.read, hfind])
  obtain ⟨-, note, -, -, hlevel, hpath, -, hrun, -⟩ | ⟨⟨he, -⟩ | ⟨he, -⟩, -⟩ :=
    run_of_no_text "app.py".toList mainLogger parse_readyTemplate
      (run_load_readyWorld _ _ fits_readyDefault) (run_setUp_readyWorld _ _ false) htext
  · exact ⟨note, hlevel, hpath, hrun⟩
  · cases he
  · cases he

/-- A single byte that is not UTF-8 makes a template that ends the program with a fault, after the
    settings were loaded and logging was set up.  There is no exit code, and no error is logged. -/
theorem run_of_invalid_byte : ∃ w settings w₁ log w₂,
    Action.run Settings.load w = (.ok settings, w₁) ∧
    Action.run (Logging.setUp settings.wantsDebug programName none) w₁ = (.ok log, w₂) ∧
    w₂.files.read readyTemplate = .ok ⟨#[0xff]⟩ ∧ (∀ s, ⟨#[0xff]⟩ ≠ Text.encode s) ∧
    Action.run (readTemplate mainLogger readyTemplate) w₂ = (.error .badUtf8, w₂) ∧
    Action.run (run "app.py".toList mainLogger ["t.txt".toList]) w = (.error .badUtf8, w₂) := by
  have hload := run_load_readyWorld Settings.default (some ⟨#[0xff]⟩) fits_readyDefault
  have hsetUp := run_setUp_readyWorld Settings.default (some ⟨#[0xff]⟩) false
  have hfind : (loggingWorld Settings.default (some ⟨#[0xff]⟩) false).files.find readyTemplate =
      .ok (.file ["t.txt".toList] 1 ⟨#[0xff]⟩) := find_loggingWorld rfl fun _ _ h => by cases h
  have hrefuses : (loggingWorld Settings.default (some ⟨#[0xff]⟩) false).files.refuses =
      fun _ _ => none := (World.sameFiles_log _ _).refuses
  have hread : (loggingWorld Settings.default (some ⟨#[0xff]⟩) false).files.read readyTemplate =
      .ok ⟨#[0xff]⟩ := FileTree.read_of_find hfind fun _ _ _ _ => by rw [hrefuses]
  have hdecode : Text.decode? ⟨#[0xff]⟩ = none := by decide
  have htext : textAt (loggingWorld Settings.default (some ⟨#[0xff]⟩) false).files readyTemplate =
      .error .badUtf8 := by
    simp only [textAt, hread, hdecode]
  obtain ⟨htemplate, hrun⟩ := run_of_fault "app.py".toList mainLogger parse_readyTemplate
    hload hsetUp htext rfl
  refine ⟨_, _, _, _, _, hload, hsetUp, hread, fun s hs => ?_, htemplate, hrun⟩
  rw [hs, Text.decode?_encode] at hdecode
  cases hdecode

end Program

end PromptFill
