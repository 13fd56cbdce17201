/-
  The state of logging: which records count, and where they go.

  Loggers have dotted names and come into being when they are asked for.  A logger without a
  level of its own takes that of the nearest logger enclosing it, and in the end that of the
  root.  A record counts if its level is positive and not below that of its logger; it then
  goes to every handler of the root whose own level it reaches.
-/
import PromptFill.Log.Record
import PromptFill.Table

namespace PromptFill

/-- Where records go. -/
inductive Handler where
  /-- Keeps the records for inspection. -/
  | capture
  /-- The standard error stream. -/
  | stderr
  /-- The console, from a level on. -/
  | console (level : Level)
  /-- The open log file of a number, from a level on. -/
  | file (level : Level) (id : Nat)
deriving DecidableEq, Repr

/-- The least level of the records that a handler takes. -/
def Handler.level : Handler → Level
  | capture => 0
  | stderr => 0
  | console l => l
  | file l _ => l

/-- The level of the root, the other loggers, and the handlers. -/
structure Logging where
  rootLevel : Level
  /-- The loggers that were asked for, with their own level or zero. -/
  loggers : Table Text Level := []
  handlers : List Handler := []
deriving DecidableEq, Repr

/-- The name of the root logger. -/
def rootLogger : Text := "root".toList

/-- The name of a logger; the empty name is the root's. -/
def loggerName (s : Text) : Text := if s = [] then rootLogger else s

namespace Logging

/-- The state after a logger was asked for. -/
def ask (l : Logging) (name : Text) : Logging :=
  if name = rootLogger ∨ name ∈ l.loggers.keys then l
  else { l with loggers := l.loggers.set name 0 }

/-- The level of the nearest logger that encloses a logger, whose name is read from its end.
    What stands before a dot is the name of such a logger if there is one; if not, the
    character before the dot is passed over, so of two dots in a row the second alone counts.
    There is nothing before a dot at the very start. -/
def inherited (l : Logging) : (passOver : Bool) → Text → Level
  | _, [] => l.rootLevel
  | true, _ :: s => inherited l false s
  | false, c :: s =>
    if c = '.' ∧ s ≠ [] then
      match l.loggers.get? s.reverse with
      | none => inherited l true s
      | some level => if level = 0 then inherited l false s else level
    else inherited l false s

/-- The level that counts for a logger. -/
def effectiveLevel (l : Logging) (name : Text) : Level :=
  let own := (l.loggers.get? name).getD 0
  if name = rootLogger then l.rootLevel
  else if own = 0 then l.inherited false name.reverse
  else own

/-- Whether records of a level count for a logger. -/
def isEnabled (l : Logging) (name : Text) (level : Level) : Bool :=
  0 < level && l.effectiveLevel name ≤ level

/-- The handlers that take a record. -/
def takers (l : Logging) (r : Record) : List Handler :=
  l.handlers.filter fun h => h.level ≤ r.level

end Logging

end PromptFill
