/-
  What saving and loading do with a settings directory of one's own.

  If the environment names the settings directory, the settings file lies in it
  (`run_settingsFile`).  Writing a value to a file ends in one of few ways (`Written`): the file
  cannot be opened, or there is no room, and this is noted; all is written, and this is noted; or
  an integer is too long, which is a fault.  Loading from a file that is there answers what it
  holds and warns if that is no object (`run_loadAt`).

  Files that have neither the name of the settings file nor that of a log file are kept (`IsKept`)
  by all that is written and logged, and so are the variables that are applied.
-/
import PromptFill.Proofs.Settings.Variables

namespace PromptFill

open FileTree (Grows)

/-- The settings file in a directory. -/
def settingsIn (dir : Path) : Path := dir.child "app_settings.json".toList

variable {w w₀ w' : World} {dir : Path}

theorem settingsIn_eq_below (dir : Path) :
    settingsIn dir = dir.below ["app_settings.json".toList] :=
  Path.child_eq_below_singleton (by decide)

theorem run_ensured (p : Path) (w : World) : Action.run (ensured p) w =
    ((w.files.makeDirs p).1.map fun _ => p, { w with files := (w.files.makeDirs p).2 }) := by
  rw [ensured, Action.run_bind, Action.run_makeDirs]
  rcases (w.files.makeDirs p).1 with e | _
  · rfl
  · rfl

/-- The settings file lies in the settings directory, which is made. -/
theorem run_settingsFile_of_configDir
    (h : Action.run configDir w = Action.run (ensured dir) w) :
    Action.run settingsFile w = ((w.files.makeDirs dir).1.map fun _ => settingsIn dir,
      { w with files := (w.files.makeDirs dir).2 }) := by
  rw [settingsFile, Action.run_bind, h, run_ensured]
  rcases (w.files.makeDirs dir).1 with e | _
  · rfl
  · rfl

/-- The settings file lies in the directory that the environment names, which is made. -/
theorem run_settingsFile (hdir : settingsOverride? w.accounts w.env = .ok (some dir)) :
    Action.run settingsFile w = ((w.files.makeDirs dir).1.map fun _ => settingsIn dir,
      { w with files := (w.files.makeDirs dir).2 }) :=
  run_settingsFile_of_configDir (by rw [configDir, Action.run_bind, Action.run_query, hdir])

namespace Settings

/-! ## Saving -/

theorem parts_settingsIn (dir : Path) :
    (settingsIn dir).parts = dir.parts ++ ["app_settings.json".toList] := rfl

theorem not_isLog_settingsIn (dir : Path) : ¬ IsLog (settingsIn dir).parts := by
  rintro ⟨name, h⟩
  rw [parts_settingsIn, List.getLast?_concat, Option.some.injEq] at h
  have hsuffix : ".log".toList <:+ "app_settings.json".toList := ⟨name, h.symm⟩
  exact absurd hsuffix (by decide)

/-- What comes of writing a value to a file. -/
inductive Written (w : World) (file : Path) (v : Json) : Except Fault Unit → World → Prop
  /-- The file cannot be opened, and this is noted. -/
  | refused {e : Fault} : w.files.openFile file = .error e → e.isRefusal = true →
      Written w file v (.ok ()) (w.ensureHandler.log (notSavedNote file e))
  /-- The path is none. -/
  | failed {e : Fault} : w.files.openFile file = .error e → e.isRefusal = false →
      Written w file v (.error e) w
  /-- There is no room for all of it, and this is noted. -/
  | partly {t : FileTree} :
      w.files.hasRoom (Text.encode (v.written w.limits.digits).1) = false →
      w.files.write file (w.files.fitting (Text.encode (v.written w.limits.digits).1)) = .ok t →
      Written w file v (.ok ())
        ({ w with files := t }.ensureHandler.log (notSavedNote file .noRoom))
  /-- All of it is written, and this is noted. -/
  | wholly {t : FileTree} : w.files.hasRoom (Text.encode v.text) = true →
      v.cutShort? w.limits.digits 0 = none → w.files.write file (Text.encode v.text) = .ok t →
      Written w file v (.ok ()) ({ w with files := t }.ensureHandler.log (savedNote file))
  /-- An integer in it is too long, and what comes before it is written. -/
  | cut {s : Text} {t : FileTree} : w.files.hasRoom (Text.encode s) = true →
      v.cutShort? w.limits.digits 0 = some s → w.files.write file (Text.encode s) = .ok t →
      Written w file v (.error (.longNumeral w.limits.digits)) { w with files := t }

theorem written_writeTo (w : World) (file : Path) (v : Json) :
    Written w file v (Action.run (writeTo file v) w).1 (Action.run (writeTo file v) w).2 := by
  rw [Action.run, writeTo]
  simp only []
  cases hopen : w.files.openFile file with
  | error e =>
    simp only [FileTree.write_of_error hopen]
    split
    · exact .refused hopen ‹_›
    · exact .failed hopen (Bool.not_eq_true _ ▸ ‹_›)
  | ok opened =>
    have hwrite (content : ByteArray) := FileTree.write_of_openFile (p := file) hopen content
    simp only [hwrite]
    cases hroom : w.files.hasRoom (Text.encode (v.written w.limits.digits).1) with
    | false => exact .partly hroom (hwrite _)
    | true =>
      rw [FileTree.fitting_of_hasRoom hroom]
      cases hcut : v.cutShort? w.limits.digits 0 with
      | none =>
        have hwritten : v.written w.limits.digits = (v.text, true) := by rw [Json.written, hcut]
        rw [hwritten] at hroom ⊢
        exact .wholly hroom hcut (hwrite _)
      | some s =>
        have hwritten : v.written w.limits.digits = (s, false) := by rw [Json.written, hcut]
        rw [hwritten] at hroom ⊢
        exact .cut hroom hcut (hwrite _)

/-- If the file can be opened, something is written to it, and the rest is logged. -/
theorem Written.exists_write {file : Path} {v : Json} {outcome : Except Fault Unit} {id : Nat}
    {opened : FileTree} (h : Written w file v outcome w')
    (hopen : w.files.openFile file = .ok (id, opened)) :
    ∃ content t, w.files.write file content = .ok t ∧
      World.AppendsLogs { w with files := t } w' := by
  cases h with
  | refused he => cases hopen.symm.trans he
  | failed he => cases hopen.symm.trans he
  | partly _ hwrite => exact ⟨_, _, hwrite, World.appendsLogs_note _ _⟩
  | wholly _ _ hwrite => exact ⟨_, _, hwrite, World.appendsLogs_note _ _⟩
  | cut _ _ hwrite => exact ⟨_, _, hwrite, .refl _⟩

/-- Of a value without integers that are too long, what there is room for is written. -/
theorem Written.exists_write_of_cutShort? {file : Path} {v : Json} {outcome : Except Fault Unit}
    {id : Nat} {opened : FileTree} (h : Written w file v outcome w')
    (hopen : w.files.openFile file = .ok (id, opened))
    (hcut : v.cutShort? w.limits.digits 0 = none) :
    outcome = .ok () ∧ ∃ t r, w.files.write file (w.files.fitting (Text.encode v.text)) = .ok t ∧
      w' = { w with files := t }.ensureHandler.log r := by
  have hwritten : v.written w.limits.digits = (v.text, true) := by rw [Json.written, hcut]
  cases h with
  | refused he => cases hopen.symm.trans he
  | failed he => cases hopen.symm.trans he
  | partly _ hwrite =>
    rw [hwritten] at hwrite
    exact ⟨rfl, _, _, hwrite, rfl⟩
  | wholly hroom _ hwrite =>
    refine ⟨rfl, _, _, ?_, rfl⟩
    rw [FileTree.fitting_of_hasRoom hroom, hwrite]
  | cut _ hshort => cases hcut.symm.trans hshort

/-- A value is written, if its file can be and there is room for it, unless an integer in it is too
    long. -/
theorem run_writeTo {file : Path} {v : Json} {t : FileTree}
    (hwrite : w.files.write file (Text.encode v.text) = .ok t)
    (hroom : w.files.hasRoom (Text.encode v.text) = true)
    (hcut : v.cutShort? w.limits.digits 0 = none) :
    Action.run (writeTo file v) w =
      (.ok (), { w with files := t }.ensureHandler.log (savedNote file)) := by
  simp only [Action.run, writeTo, Json.written, hcut, FileTree.fitting_of_hasRoom hroom, hwrite,
    hroom, Bool.not_true, Bool.false_eq_true, if_false, if_true]

/-- Where the file cannot be opened, only this is noted. -/
theorem run_writeTo_of_refused {file : Path} {e : Fault} (v : Json)
    (hopen : w.files.openFile file = .error e) (he : e.isRefusal = true) :
    Action.run (writeTo file v) w = (.ok (), w.ensureHandler.log (notSavedNote file e)) := by
  simp only [Action.run, writeTo, FileTree.write_of_error hopen, he, if_true]

/-- Of a value with an integer that is too long, what comes before it is written. -/
theorem run_writeTo_of_cutShort {file : Path} {v : Json} {s : Text} {t : FileTree}
    (hwrite : w.files.write file (Text.encode s) = .ok t)
    (hroom : w.files.hasRoom (Text.encode s) = true)
    (hcut : v.cutShort? w.limits.digits 0 = some s) : Action.run (writeTo file v) w =
      (.error (.longNumeral w.limits.digits), { w with files := t }) := by
  simp only [Action.run, writeTo, Json.written, hcut, FileTree.fitting_of_hasRoom hroom, hwrite,
    hroom, Bool.not_true, Bool.false_eq_true, if_false]

/-- Saving writes to the settings file in the directory that the environment names. -/
theorem run_save_eq {t : FileTree} (hdir : settingsOverride? w.accounts w.env = .ok (some dir))
    (hmake : w.files.makeDirs dir = (.ok (), t)) (v : Json) :
    Action.run (save v) w = Action.run (writeTo (settingsIn dir) v) { w with files := t } := by
  rw [save, Action.run_bind, run_settingsFile hdir, hmake]
  rfl

/-! ## Loading -/

section load

variable {file : Path}

/-- The settings that what a file holds is loaded as. -/
def Content.answer : Content → Settings
  | .settings fields => ofStored fields
  | _ => default

/-- The warning about what a file holds, if it is no object. -/
def Content.notes (decoder : Text → Text) (file : Path) : Content → List Record
  | .settings _ => []
  | .other => [notObjectNote file]
  | .malformed text => [notLoadedNote file (decoder text)]
  | .unreadable e => [notLoadedNote file e.message]

theorem Content.notes_cases (decoder : Text → Text) (file : Path) (content : Content) :
    (∃ fields, content = .settings fields ∧ content.notes decoder file = []) ∨
      (∀ fields, content ≠ .settings fields) ∧ content.answer = default ∧
        ∃ r, content.notes decoder file = [r] ∧ r.level = Level.warning := by
  cases content with
  | settings fields => exact .inl ⟨fields, rfl, rfl⟩
  | other => exact .inr ⟨nofun, rfl, _, rfl, rfl⟩
  | malformed => exact .inr ⟨nofun, rfl, _, rfl, rfl⟩
  | unreadable => exact .inr ⟨nofun, rfl, _, rfl, rfl⟩

theorem Content.answer_of_ne {content : Content} (h : ∀ fields, content ≠ .settings fields) :
    content.answer = default := by
  cases content with
  | settings fields => exact absurd rfl (h fields)
  | _ => rfl

theorem run_loadFrom {content : Content} (h : contentOf w.limits file w.files = .ok content) :
    Action.run (loadFrom file) w =
      (.ok content.answer, w.noteAll (content.notes w.decoderMessage file)) := by
  rw [loadFrom, Action.run_bind, Action.run_query, h]
  cases content <;> rfl

theorem run_loadFrom_of_error {e : Fault} (h : contentOf w.limits file w.files = .error e) :
    Action.run (loadFrom file) w = (.error e, w) := by
  rw [loadFrom, Action.run_bind, Action.run_query, h]

/-- Loading, once the variables are applied and the settings file is known. -/
def loadAt (file : Path) : Action Settings := do
  let found ← Action.query fun w => w.files.exists? file
  let settings ← if found then loadFrom file else create file
  let value ← Action.query fun w => .ok (w.env.get? debugVariable)
  return settings.withEnvironment value

theorem run_load_eq (hvars : Action.run applyVariables w = (.ok (), w₀))
    (hfile : Action.run settingsFile w₀ = (.ok file, w')) :
    Action.run load w = Action.run (loadAt file) w' := by
  rw [load, Action.run_bind, hvars]
  simp only [Action.run_bind, hfile, loadAt]

/-- The steps of loading, if it succeeds. -/
theorem of_run_load {s : Settings} (h : Action.run load w = (.ok s, w')) : ∃ w₀ file w₁,
    Action.run applyVariables w = (.ok (), w₀) ∧ Action.run settingsFile w₀ = (.ok file, w₁) ∧
      Action.run (loadAt file) w₁ = (.ok s, w') := by
  have hsteps := h
  rw [load] at hsteps
  obtain ⟨_, w₀, hvars, hsteps⟩ := Action.run_bind_eq_ok hsteps
  obtain ⟨file, w₁, hfile, -⟩ := Action.run_bind_eq_ok hsteps
  rw [run_load_eq hvars hfile] at h
  exact ⟨w₀, file, w₁, hvars, hfile, h⟩

/-- If there is anything at the settings file, then what it holds is answered, or the defaults. -/
theorem run_loadAt {content : Content} (hfound : w.files.exists? file = .ok true)
    (h : contentOf w.limits file w.files = .ok content) :
    Action.run (loadAt file) w =
      (.ok (content.answer.withEnvironment (w.env.get? debugVariable)),
        w.noteAll (content.notes w.decoderMessage file)) := by
  simp only [loadAt, Action.run_bind, Action.run_query, hfound, if_true, run_loadFrom h,
    (World.appendsLogs_noteAll w _).env, Action.run_pure]

theorem run_loadAt_of_error {e : Fault} (hfound : w.files.exists? file = .ok true)
    (h : contentOf w.limits file w.files = .error e) :
    Action.run (loadAt file) w = (.error e, w) := by
  simp only [loadAt, Action.run_bind, Action.run_query, hfound, if_true, run_loadFrom_of_error h]

/-- If nothing is at the settings file, then it is made with the defaults, which are answered. -/
theorem run_loadAt_of_not_exists (hexists : w.files.exists? file = .ok false)
    (hsave : Action.run (save (.object default)) (w.ensureHandler.log (notFoundNote file)) =
      (.ok (), w')) :
    Action.run (loadAt file) w =
      (.ok (default.withEnvironment (w'.env.get? debugVariable)), w') := by
  have hcreate : Action.run (create file) w = (.ok default, w') := by
    rw [create, Action.run_bind, Action.note, Action.run_change]
    simp only [Action.run_bind, hsave, Action.run_pure]
  simp only [loadAt, Action.run_bind, Action.run_query, hexists, Bool.false_eq_true, if_false,
    hcreate, Action.run_pure]

end load

/-! ## What saving and loading keep -/

section keeps

variable {P : World → Prop} {Q : Path → Prop}

/-- Asking for the settings directory keeps what making directories keeps. -/
theorem keeps_configDir_of (h : ∀ p, Action.Keeps P (Action.makeDirs p)) :
    Action.Keeps P configDir := by
  refine (Action.keeps_query _).bind fun dir? => ?_
  cases dir? with
  | none => exact (keeps_userRoot_of h).bind fun _ => keeps_ensured_of h _
  | some dir => exact keeps_ensured_of h dir

/-- So does asking for the settings file. -/
theorem keeps_settingsFile_of (h : ∀ p, Action.Keeps P (Action.makeDirs p)) :
    Action.Keeps P settingsFile :=
  (keeps_configDir_of h).bind fun _ => Action.keeps_pure _

theorem keeps_writeTo_of {file : Path} (hnote : ∀ w r, P w → P (w.ensureHandler.log r))
    (hwrite : ∀ w t content, P w → w.files.write file content = .ok t → P { w with files := t })
    (v : Json) : Action.Keeps P (writeTo file v) := by
  intro w hw
  have hwritten := written_writeTo w file v
  generalize (Action.run (writeTo file v) w).1 = outcome,
    (Action.run (writeTo file v) w).2 = w' at hwritten ⊢
  cases hwritten with
  | refused => exact hnote _ _ hw
  | failed => exact hw
  | partly _ h => exact hnote _ _ (hwrite w _ _ hw h)
  | wholly _ _ h => exact hnote _ _ (hwrite w _ _ hw h)
  | cut _ _ h => exact hwrite w _ _ hw h

/-- Saving keeps what writing the settings file keeps. -/
theorem keeps_save_of (hfile : Action.Yields P Q settingsFile)
    (hwrite : ∀ file, Q file → ∀ v, Action.Keeps P (writeTo file v)) (v : Json) :
    Action.Keeps P (save v) :=
  hfile.bind_keeps fun file hq => hwrite file hq v

theorem keeps_loadFrom (hnote : ∀ w r, P w → P (w.ensureHandler.log r)) (file : Path) :
    Action.Keeps P (loadFrom file) := by
  refine (Action.keeps_query _).bind fun content => ?_
  cases content with
  | settings => exact Action.keeps_pure _
  | other => exact (Action.keeps_note hnote _).bind fun _ => Action.keeps_pure _
  | malformed =>
    exact (Action.keeps_query _).bind fun _ => (Action.keeps_note hnote _).bind fun _ =>
      Action.keeps_pure _
  | unreadable => exact (Action.keeps_note hnote _).bind fun _ => Action.keeps_pure _

/-- Loading keeps what applying the variables, writing the settings file and notes keep. -/
theorem keeps_load_of (hvars : Action.Keeps P applyVariables)
    (hfile : Action.Yields P Q settingsFile) (hnote : ∀ w r, P w → P (w.ensureHandler.log r))
    (hwrite : ∀ file, Q file → ∀ v, Action.Keeps P (writeTo file v)) : Action.Keeps P load := by
  have hcreate (file : Path) : Action.Keeps P (create file) :=
    (Action.keeps_note hnote _).bind fun _ => (keeps_save_of hfile hwrite _).bind fun _ =>
      Action.keeps_pure _
  have hvalue (s : Settings) : Action.Keeps P (do
      let value ← Action.query fun w => .ok (w.env.get? debugVariable)
      return s.withEnvironment value) :=
    (Action.keeps_query _).bind fun _ => Action.keeps_pure _
  refine hvars.bind fun _ => hfile.keeps.bind fun file =>
    (Action.keeps_query _).bind fun found => ?_
  cases found with
  | true => exact (keeps_loadFrom hnote file).bind hvalue
  | false => exact (hcreate file).bind hvalue

/-- Telling the scheme that settings choose keeps what notes keep. -/
theorem keeps_scheme (hnote : ∀ w r, P w → P (w.ensureHandler.log r)) (settings : Json) :
    Action.Keeps P (scheme settings) := by
  refine (Action.keeps_query _).bind fun stored => (Action.keeps_query _).bind fun chosen => ?_
  cases chosen with
  | some s => exact Action.keeps_pure s
  | none =>
    exact (Action.keeps_query _).bind fun _ => (Action.keeps_note hnote _).bind fun _ =>
      Action.keeps_pure _

end keeps

/-! ## Orderly worlds -/

open World (Orderly)

theorem keeps_settingsFile : Action.Keeps Orderly settingsFile :=
  keeps_settingsFile_of Action.keeps_makeDirs

theorem keeps_writeTo (file : Path) (v : Json) : Action.Keeps Orderly (writeTo file v) :=
  keeps_writeTo_of (fun _ r hw => hw.ensureHandler.log r) (fun _ _ _ hw h => hw.write h) v

/-- Saving keeps a world orderly. -/
theorem keeps_save (v : Json) : Action.Keeps Orderly (save v) :=
  keeps_save_of keeps_settingsFile.yields (fun file _ v => keeps_writeTo file v) v

/-- Loading keeps a world orderly. -/
theorem keeps_load : Action.Keeps Orderly load :=
  keeps_load_of keeps_applyVariables keeps_settingsFile.yields
    (fun _ r hw => hw.ensureHandler.log r) fun file _ v => keeps_writeTo file v

end Settings

/-! ## Files that are kept -/

/-- Whether a file there is neither the settings file nor a log file, by its name. -/
def IsKept (l : Location) : Prop :=
  ¬ IsLog l ∧ l.getLast? ≠ some "app_settings.json".toList

theorem isKept_of_getLast? {l : Location} {c : Text} (hl : l.getLast? = some c)
    (hlog : ¬ ".log".toList <:+ c) (hc : c ≠ "app_settings.json".toList) : IsKept l := by
  refine ⟨?_, ?_⟩
  · rintro ⟨name, h⟩
    rw [hl, Option.some.injEq] at h
    exact hlog ⟨name, h.symm⟩
  · rw [hl, Ne, Option.some.injEq]
    exact hc

theorem not_isKept_of_isLog {l : Location} (h : IsLog l) : ¬ IsKept l := fun hk => hk.1 h

/-- Files of variables are kept, and so is what is applied of them. -/
theorem VariablesReader.Lawful.of_grows {read : VariablesReader} {t t' : FileTree}
    (hlawful : read.Lawful) (hgrown : Grows IsKept t t') (env : Environment) :
    read t' env = read t env :=
  hlawful.sees env (.of_grows hgrown fun _ hl => isKept_of_getLast? hl (by decide) (by decide))

theorem getLast?_of_settingsIn {t : FileTree} {v : Location} {place : Place} {dir : Path}
    (h : t.find (settingsIn dir) = .ok place) (hv : place.location? = some v) :
    v.getLast? = some "app_settings.json".toList := by
  rw [((FileTree.find_eq_ok_iff.1 h).2.2.getLast?_eq hv).2, Settings.parts_settingsIn,
    List.getLast?_concat]

/-- Opening a settings file makes no other file than that one. -/
theorem grows_openFile {t opened : FileTree} {dir : Path} {id : Nat}
    (h : t.openFile (settingsIn dir) = .ok (id, opened)) : Grows IsKept t opened := by
  obtain ⟨v, content, -, rfl | ⟨hvacant, -, rfl⟩⟩ := FileTree.openFile_eq_ok h
  · exact .refl _
  · obtain ⟨hnone, hne⟩ := FileTree.node?_of_find_vacant hvacant
    exact FileTree.grows_addFile hnone hne fun hk => hk.2 (getLast?_of_settingsIn hvacant rfl)

namespace World.Orderly

variable {w w' : World}

/-- Records are written to log files only. -/
theorem grows_of_logs (h : w.Orderly) (hlogs : w.AppendsLogs w') :
    Grows IsKept w.files w'.files ∧ Grows IsKept w'.files w.files := by
  have hdir {l : Location} : w'.files.node? l = some .dir ↔ w.files.node? l = some .dir := by
    have hnumber := hlogs.same.number? l
    constructor
    · intro hl
      rw [FileTree.number?, hl] at hnumber
      rw [← hlogs.node?_of_number?_eq_none hnumber.symm, hl]
    · intro hl
      rw [hlogs.node?_of_number?_eq_none (by rw [FileTree.number?, hl]; rfl), hl]
  have hkept {l : Location} (hl : IsKept l) : w'.files.node? l = w.files.node? l :=
    hlogs.closed l fun id hid hnumber => not_isKept_of_isLog (h.isLog hid hnumber) hl
  refine ⟨⟨hlogs.same.here, hlogs.same.refuses, hdir.2, fun {l id content} hl => ?_,
    fun hl hnode => ⟨_, (hkept hl).symm.trans hnode⟩⟩,
    ⟨hlogs.same.here.symm, hlogs.same.refuses.symm, hdir.1, fun {l id content} hl => ?_,
    fun hl hnode => ⟨_, (hkept hl).trans hnode⟩⟩⟩
  · obtain ⟨more, hmore⟩ := hlogs.opened l id content hl
    exact ⟨id, _, hmore⟩
  · obtain ⟨content', hl'⟩ := FileTree.number?_eq_some_iff.1
      ((hlogs.same.number? l).symm.trans (FileTree.number?_eq_some_iff.2 ⟨content, hl⟩))
    exact ⟨id, content', hl'⟩

/-- Writing a settings file does no more than opening it. -/
theorem grows_write {files : FileTree} {dir : Path} {content : ByteArray} (h : w.Orderly)
    (hwrite : w.files.write (settingsIn dir) content = .ok files) :
    ∃ id opened, w.files.openFile (settingsIn dir) = .ok (id, opened) ∧
      Grows IsKept opened files ∧ Grows IsKept files opened := by
  obtain ⟨id, opened, hopen, rfl⟩ := FileTree.write_eq_ok hwrite
  obtain ⟨v, old, hfile, -⟩ := FileTree.openFile_eq_ok hopen
  -- no other file has the number of the settings file
  have hkept (l : Location) (hl : opened.number? l = some id) : ¬ IsKept l := by
    rw [(h.numbered.openFile hopen).unique hl (FileTree.number?_of_find hfile)]
    exact fun hk => hk.2 (getLast?_of_settingsIn hfile rfl)
  exact ⟨id, opened, hopen, FileTree.grows_change hkept, (Grows.refl opened).change_left hkept⟩

theorem grows_of_write {files : FileTree} {dir : Path} {content : ByteArray} (h : w.Orderly)
    (hwrite : w.files.write (settingsIn dir) content = .ok files) : Grows IsKept w.files files := by
  obtain ⟨id, opened, hopen, hgrown, -⟩ := h.grows_write hwrite
  exact (grows_openFile hopen).trans hgrown

end World.Orderly

end PromptFill
