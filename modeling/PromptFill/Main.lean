/-
  The command line program.

  It prints a template filled with its own defaults, which is what the untouched form gives.
  A console has no use for colours, so settings and log files are left to the dialog.
-/
import PromptFill.Program
import PromptFill.Template.Session

namespace PromptFill

/-- The template filled with its defaults. -/
def filledWithDefaults (s : Text) : Text :=
  let session := Session.ofText s
  session.template.fill session.values

namespace Console

/-- The text of a template file, or what is said if it cannot be read. -/
def readTemplate (file : Path) : IO (Except Text Text) := do
  let refused (detail : String) := Except.error (Program.unreadableMessage file detail.toList)
  try
    let content ← IO.FS.readBinFile (String.ofList file.text)
    match Text.decode? content with
    | some s => return .ok (Text.unifyNewlines s)
    | none => return refused "it is not UTF-8"
  catch e => return refused (toString e)

/-- Prints the filled template that the arguments name, and answers the exit code. -/
def run (args : List Text) : IO UInt32 := do
  match CommandLine.parse args with
  | .error .help =>
    IO.print (String.ofList (CommandLine.helpText programName))
    return 0
  | .error (.wrong e) =>
    IO.eprint (String.ofList (CommandLine.errorText programName e))
    return 2
  | .ok arguments =>
    match ← readTemplate arguments.template with
    | .error message =>
      IO.eprintln (String.ofList message)
      return 1
    | .ok s =>
      IO.println (String.ofList (filledWithDefaults s))
      return 0

end Console

end PromptFill

def main (args : List String) : IO UInt32 :=
  PromptFill.Console.run (args.map String.toList)
