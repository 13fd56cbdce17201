/-
  The program: it reads a template to be filled in a dialog.

  The arguments are parsed, the settings are loaded, logging is set up and the template is
  read, in this order.  The template is what the dialog would open with.  A template that
  cannot be opened is noted in the log and ends the program with the code 1; wrong arguments
  end it with the code 2, and asking for help with 0.
-/
import PromptFill.CommandLine.Basic
import PromptFill.Settings.Store
import PromptFill.Template.Fill

namespace PromptFill

/-- The origin of the note that placeholders were looked for. -/
def extractionOrigin : Origin :=
  ⟨"src.promptbook.core.placeholders.parser".toList, "parser.py".toList,
    "extract_placeholders".toList⟩

/-- The placeholders of a template text; their number is noted in the log. -/
def extract (s : Text) : Action (List Placeholder) := do
  let found := (Template.ofText s).placeholders
  Action.log (extractionOrigin.record Level.debug
    ("Extracted ".toList ++ Text.decimal found.length ++ " placeholder(s)".toList))
  return found

namespace Program

/-- How a program ends before or with its dialog. -/
inductive Outcome where
  /-- The dialog opens on a template. -/
  | ready (template : Text)
  /-- The template cannot be opened. -/
  | unreadable
  /-- Help was printed. -/
  | helped
  /-- An error in the arguments was printed. -/
  | misused
deriving DecidableEq, Repr

/-- The exit code of a program that opens no dialog. -/
def Outcome.code? : Outcome → Option Nat
  | ready _ => none
  | unreadable => some 1
  | helped => some 0
  | misused => some 2

/-- The name of the logger that takes note of templates. -/
def mainLogger : Text := "src.promptbook.app".toList

/-- The origin of the note that a template cannot be read. -/
def readOrigin (logger : Text) : Origin := ⟨logger, "app.py".toList, "read_template".toList⟩

/-- What is said of a template that cannot be read. -/
def unreadableMessage (file : Path) (detail : Text) : Text :=
  "Failed to read template '".toList ++ file.text ++ "': ".toList ++ detail

/-- Says that a template cannot be read. -/
def unreadableNote (logger : Text) (file : Path) (e : Fault) : Record :=
  (readOrigin logger).record Level.error (unreadableMessage file e.message)

/-- The text of a template, or nothing, with a note, if it cannot be opened. -/
def readTemplate (logger : Text) (file : Path) : Action (Option Text) := fun w =>
  match w.files.read file with
  | .ok content =>
    match Text.decode? content with
    | some s => (.ok (some (Text.unifyNewlines s)), w)
    | none => (.error .badUtf8, w)
  | .error e =>
    if e.isRefusal then (.ok none, w.log (unreadableNote logger file e)) else (.error e, w)

/-- What the program does with its arguments. -/
def start (logger : Text) (args : CommandLine.Arguments) : Action Outcome := do
  let settings ← Settings.load
  let _ ← Logging.setUp (args.debug || settings.wantsDebug) programName none
  match ← readTemplate logger args.template with
  | some template => return .ready template
  | none => return .unreadable

/-- Runs a program of the given name. -/
def run (program logger : Text) (args : List Text) : Action Outcome :=
  match CommandLine.parse args with
  | .ok args => start logger args
  | .error .help => do
    Action.change fun w => w.print (CommandLine.helpText program)
    return .helped
  | .error (.wrong e) => do
    Action.change fun w => w.printError (CommandLine.errorText program e)
    return .misused

end Program

end PromptFill
