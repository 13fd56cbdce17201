/-
  Loading and saving the settings.

  Before anything is loaded, a file of environment variables is applied.  Settings that were
  never stored are stored with their defaults.  A settings file that cannot be opened or is no
  JSON object is taken note of, and the defaults are used; a file that is not UTF-8 is a fault.
  If settings cannot be saved, or not in full for want of room, this is taken note of as well.
-/
import PromptFill.Json.Printer
import PromptFill.Json.Reader
import PromptFill.Log.Setup
import PromptFill.Settings.Basic

namespace PromptFill.Settings

/-! ## The file of environment variables -/

/-- Applies the file of variables, and offers what its reader says. -/
def applyVariables : Action Unit := do
  let applied ← Action.query fun w => w.reader w.files w.env
  Action.change fun w => { w.logAll applied.said with env := applied.env }

/-! ## Messages -/

/-- The origin of what loading says. -/
def loadOrigin : Origin :=
  ⟨rootLogger, "app_settings.py".toList, "load_app_settings".toList⟩

/-- The origin of what saving says. -/
def saveOrigin : Origin :=
  ⟨rootLogger, "app_settings.py".toList, "save_app_settings".toList⟩

/-- The origin of what choosing a scheme says. -/
def chooseOrigin : Origin :=
  ⟨rootLogger, "app_settings.py".toList, "get_preview_color_scheme".toList⟩

/-- A text between apostrophes. -/
def inMarks (s : Text) : Text := '\x27' :: s ++ ['\x27']

/-- Says that the settings were never stored. -/
def notFoundNote (file : Path) : Record :=
  loadOrigin.record Level.info
    (inMarks file.text ++ " not found. Creating with default settings.".toList)

/-- Says that the settings were saved. -/
def savedNote (file : Path) : Record :=
  saveOrigin.record Level.info ("Settings saved to ".toList ++ inMarks file.text ++ ['.'])

/-- Says that the settings could not be saved. -/
def notSavedNote (file : Path) (e : Fault) : Record :=
  saveOrigin.record Level.error
    ("Error saving settings to ".toList ++ inMarks file.text ++ ": ".toList ++ e.message)

/-- Says that the settings could not be loaded. -/
def notLoadedNote (file : Path) (detail : Text) : Record :=
  loadOrigin.record Level.warning
    ("Error loading ".toList ++ inMarks file.text ++ ": ".toList ++ detail ++
      ". Using default settings.".toList)

/-- Says that the settings file holds something else. -/
def notObjectNote (file : Path) : Record :=
  loadOrigin.record Level.warning
    ("Ignoring ".toList ++ inMarks file.text ++ ": expected a JSON object.".toList)

/-- Says that a stored scheme is unknown. -/
def unknownSchemeNote (name : Json) : Record :=
  chooseOrigin.record Level.warning
    ("Unknown preview colour scheme ".toList ++ inMarks name.shown ++ ", using default.".toList)

/-! ## Loading and saving -/

/-- Writes a value to the settings file and says whether that succeeded.  What there is no room
    for is left out.  An integer that is too long is a fault, and the file ends before it. -/
def writeTo (file : Path) (settings : Json) : Action Unit := fun w =>
  let (s, complete) := settings.written w.limits.digits
  let bytes := Text.encode s
  match w.files.write file (w.files.fitting bytes) with
  | .ok files =>
    if !w.files.hasRoom bytes then
      (.ok (), { w with files }.ensureHandler.log (notSavedNote file .noRoom))
    else if complete then (.ok (), { w with files }.ensureHandler.log (savedNote file))
    else (.error (.longNumeral w.limits.digits), { w with files })
  | .error e =>
    if e.isRefusal then (.ok (), w.ensureHandler.log (notSavedNote file e)) else (.error e, w)

/-- Saves settings, which may be any value. -/
def save (settings : Json) : Action Unit := do
  writeTo (← settingsFile) settings

/-- What a settings file turned out to hold. -/
inductive Content where
  | settings (s : Settings)
  | other
  | malformed (text : Text)
  | unreadable (e : Fault)

/-- What a settings file holds. -/
def contentOf (limits : Json.Limits) (file : Path) (files : FileTree) : Except Fault Content :=
  match files.read file with
  | .error e => if e.isRefusal then .ok (.unreadable e) else .error e
  | .ok bytes =>
    match Text.decode? bytes with
    | none => .error .badUtf8
    | some s =>
      match Json.ofText limits (Text.unifyNewlines s) with
      | .ok (.object fields) => .ok (.settings fields)
      | .ok _ => .ok .other
      | .error .malformed => .ok (.malformed (Text.unifyNewlines s))
      | .error (.longInteger digits) => .error (.longInteger limits.digits digits)
      | .error (.tooDeep isObject) => .error (.tooDeep isObject)

/-- The settings in a file, over the defaults. -/
def loadFrom (file : Path) : Action Settings := do
  match ← Action.query fun w => contentOf w.limits file w.files with
  | .settings stored => return ofStored stored
  | .other =>
    Action.note (notObjectNote file)
    return default
  | .malformed text =>
    let detail ← Action.query fun w => .ok (w.decoderMessage text)
    Action.note (notLoadedNote file detail)
    return default
  | .unreadable e =>
    Action.note (notLoadedNote file e.message)
    return default

/-- Stores the default settings for the first time. -/
def create (file : Path) : Action Settings := do
  Action.note (notFoundNote file)
  save (.object default)
  return default

/-- The environment variable that switches debugging on. -/
def debugVariable : Text := "PROMPTBOOK_DEBUG".toList

/-- Loads the settings. -/
def load : Action Settings := do
  applyVariables
  let file ← settingsFile
  let found ← Action.query fun w => w.files.exists? file
  let settings ← if found then loadFrom file else create file
  let value ← Action.query fun w => .ok (w.env.get? debugVariable)
  return settings.withEnvironment value

/-! ## The colour scheme -/

/-- A note can show a value unless it is an integer that is too long. -/
def checkShown (v : Json) (w : World) : Except Fault Unit :=
  if v.isLong w.limits.digits then .error (.longNumeral w.limits.digits) else .ok ()

/-- The colour scheme that settings choose; the default, with a note, if they choose none. -/
def scheme (settings : Json) : Action Scheme := do
  let stored ← Action.query fun _ => settings.storedScheme
  match ← Action.query fun _ => stored.scheme? with
  | some scheme => return scheme
  | none =>
    Action.query (checkShown stored)
    Action.note (unknownSchemeNote stored)
    return Scheme.default

/-- The colour scheme that the stored settings choose. -/
def loadScheme : Action Scheme := do
  scheme (.object (← load))

/-- Stores a colour scheme among the settings. -/
def saveScheme (scheme : Scheme) : Action Unit := do
  let settings ← load
  save (.object (settings.set schemeKey (.string scheme.name)))

/-- Stores the colour scheme of a name. -/
def saveSchemeNamed (name : Text) : Action Unit := do
  match Scheme.ofName? name with
  | some scheme => saveScheme scheme
  | none => throw (.unknownScheme name)

end PromptFill.Settings
