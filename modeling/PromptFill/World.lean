/-
  The world the program runs in, and actions in it.

  A world has files, environment variables, a platform, limits of its runtime and the state of
  logging, and it remembers what was written to the two output streams and which records were
  kept.  An action may change the world, also if it ends in a fault.

  Of what the program takes from its surroundings, three things are left open: the accounts of
  the machine, what a reader of files of variables makes of the files, and how a decoder words
  what is wrong with a malformed text.

  `World.deliver` hands a record to the handlers.  Without any handler, a record of a
  warning or worse goes to the standard error stream with its message alone.
-/
import PromptFill.Files.Tree
import PromptFill.Json.Basic
import PromptFill.Log.Logging

namespace PromptFill

/-- The environment variables. -/
abbrev Environment := Table Text Text

/-- The home directories of the accounts of a machine, by their names, and that of the account
    under which the program runs, if it has one. -/
structure Accounts where
  homes : Table Text Text := []
  own : Option Text := none

/-- What applying a file of variables comes to: the environment after it, and the records that
    are offered on the way. -/
structure Applied where
  env : Environment
  said : List Record := []

/-- A reader of files of variables: what applying them comes to, among which files and in which
    environment. -/
abbrev VariablesReader := FileTree → Environment → Except Fault Applied

/-- What was written to the output streams and which records were kept. -/
structure Output where
  stdout : Text := []
  stderr : Text := []
  kept : List Record := []

/-- The world the program runs in. -/
structure World where
  files : FileTree
  env : Environment
  platform : Text
  accounts : Accounts := {}
  limits : Json.Limits := {}
  /-- What the reader of files of variables does; one that finds none applies nothing. -/
  reader : VariablesReader := fun _ env => .ok { env }
  /-- How the decoder words what is wrong with a malformed text. -/
  decoderMessage : Text → Text := fun _ => []
  logging : Logging
  output : Output := {}

/-- An action: it changes the world, and answers something or ends in a fault. -/
abbrev Action (α : Type) := ExceptT Fault (StateM World) α

namespace World

/-- Writes to the standard output stream. -/
def print (w : World) (s : Text) : World :=
  { w with output := { w.output with stdout := w.output.stdout ++ s } }

/-- Writes to the standard error stream. -/
def printError (w : World) (s : Text) : World :=
  { w with output := { w.output with stderr := w.output.stderr ++ s } }

/-- A handler writes a record. -/
def write (w : World) (r : Record) : Handler → World
  | .capture => { w with output := { w.output with kept := w.output.kept ++ [r] } }
  | .stderr => w.printError r.plainLine
  | .console _ => w.print r.consoleLine
  | .file _ id => { w with files := w.files.append id (Text.encode r.fileLine) }

/-- Hands a record that counts to the handlers. -/
def deliver (w : World) (r : Record) : World :=
  if w.logging.handlers = [] then
    if Level.warning ≤ r.level then w.printError (r.message ++ ['\n']) else w
  else (w.logging.takers r).foldl (fun w h => w.write r h) w

/-- Asks for a logger. -/
def ask (w : World) (logger : Text) : World := { w with logging := w.logging.ask logger }

/-- Offers a record to its logger, which delivers it if it counts. -/
def log (w : World) (r : Record) : World :=
  let w := w.ask r.logger
  if w.logging.isEnabled r.logger r.level then w.deliver r else w

/-- Offers records one after the other. -/
def logAll (w : World) (rs : List Record) : World := rs.foldl log w

/-- Makes sure that there is a handler: without any, the standard error stream becomes one. -/
def ensureHandler (w : World) : World :=
  if w.logging.handlers = [] then { w with logging := { w.logging with handlers := [.stderr] } }
  else w

/-- Takes away the handler that keeps records. -/
def stopCapture (w : World) : World :=
  let handlers := w.logging.handlers.filter (· ≠ .capture)
  { w with logging := { w.logging with handlers } }

end World

namespace Action

/-- What `f` answers of the world. -/
def query {α : Type} (f : World → Except Fault α) : Action α := fun w => (f w, w)

/-- Changes the world. -/
def change (f : World → World) : Action Unit := fun w => (.ok (), f w)

/-- Changes the files, unless there is a fault. -/
def changeFiles (f : FileTree → Except Fault FileTree) : Action Unit := fun w =>
  match f w.files with
  | .ok files => (.ok (), { w with files })
  | .error e => (.error e, w)

/-- Makes a directory and those above it, unless they are there. -/
def makeDirs (p : Path) : Action Unit := fun w =>
  let (outcome, files) := w.files.makeDirs p
  (outcome, { w with files })

/-- Offers a record. -/
def log (r : Record) : Action Unit := change fun w => w.log r

/-- Offers a record after making sure that there is a handler. -/
def note (r : Record) : Action Unit := change fun w => w.ensureHandler.log r

/-- Runs an action: what it answers, and the world after it. -/
def run {α : Type} (a : Action α) (w : World) : Except Fault α × World := a w

@[simp] theorem run_query {α : Type} (f : World → Except Fault α) (w : World) :
    run (query f) w = (f w, w) := rfl

@[simp] theorem run_change (f : World → World) (w : World) : run (change f) w = (.ok (), f w) := rfl

@[simp] theorem run_pure {α : Type} (a : α) (w : World) : run (pure a) w = (.ok a, w) := rfl

/-- One action after another: the second starts in the world that the first leaves, and does
    not start after a fault. -/
theorem run_bind {α β : Type} (a : Action α) (f : α → Action β) (w : World) :
    run (a >>= f) w =
      match run a w with
      | (.ok x, w') => run (f x) w'
      | (.error e, w') => (.error e, w') := by
  simp only [run, bind, ExceptT.bind, ExceptT.mk, StateT.bind]
  rcases a w with ⟨_ | _, _⟩ <;> rfl

end Action

end PromptFill
