/-
  Setting up logging.

  Records go to a log file and to the console.  Without debugging, records below the level
  of information are not wanted; with it, details are, except from the configuration.  What
  was set up before is undone first, and stays undone if the log file cannot be opened.
-/
import PromptFill.Directories

namespace PromptFill

/-- Where a record of the program comes from. -/
structure Origin where
  logger : Text
  file : Text
  function : Text

/-- A record from there. -/
def Origin.record (o : Origin) (level : Level) (message : Text) : Record :=
  { logger := o.logger, level, message, file := o.file, function := o.function }

namespace Logging

/-- The origin of the record that logging was set up. -/
def setupOrigin : Origin := ⟨rootLogger, "logging_config.py".toList, "setup".toList⟩

/-- The greatest number of bytes of a log file, and how many old ones are kept. -/
def rotation : Nat × Nat := (10 * 1024 * 1024, 5)

/-- The level of the root and of the console. -/
def mainLevel (debug : Bool) : Level := if debug then Level.debug else Level.info

/-- The loggers with levels of their own. -/
def moduleLevels (debug : Bool) : Table Text Level :=
  [("src.promptbook.core.placeholders".toList, mainLevel debug),
    ("src.promptbook.ui".toList, mainLevel debug), ("src.config".toList, Level.info)]

/-- Logging without handlers, at the level of the root. -/
def cleared (l : Logging) (debug : Bool) : Logging :=
  { l with rootLevel := mainLevel debug, handlers := [] }

/-- Logging to the open file of a number and to the console. -/
def configured (l : Logging) (debug : Bool) (id : Nat) : Logging :=
  { rootLevel := mainLevel debug
    loggers := l.loggers.update (moduleLevels debug)
    handlers := [.file Level.debug id, .console (mainLevel debug)] }

/-- The message that logging was set up. -/
def setupMessage (debug : Bool) (dir : Path) : Text :=
  "Logging initialized - Debug: ".toList ++ (if debug then "True".toList else "False".toList) ++
    ", Log dir: ".toList ++ dir.text

/-- The log file of a name in a directory. -/
def logFile (dir : Path) (name : Text) : Path := dir.child (name ++ ".log".toList)

/-- Opens the log file and makes it and the console the handlers. -/
def openLog (debug : Bool) (file : Path) : Action Unit := fun w =>
  match w.files.openFile (file.absolute w.files.here) with
  | .error e => (.error e, w)
  | .ok (id, files) => (.ok (), { w with files, logging := w.logging.configured debug id })

/-- Sets up logging to a file of that name, in the given directory or else in that of the
    program, and answers the file. -/
def setUp (debug : Bool) (name : Text) (dir? : Option Path) : Action Path := do
  let dir ← match dir? with
    | some dir => pure dir
    | none => logsDir
  Action.makeDirs dir
  Action.change fun w => { w with logging := w.logging.cleared debug }
  openLog debug (logFile dir name)
  Action.log (setupOrigin.record Level.info (setupMessage debug dir))
  return logFile dir name

end Logging

end PromptFill
