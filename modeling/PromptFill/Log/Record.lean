/-
  Log records and the three ways of writing them.

  * `plainLine` is for the standard error stream: level, logger and message;
  * `consoleLine` is for the console: time of day, level and message;
  * `fileLine` is for the log file: date and time, logger, level, place and message.

  Times are seconds since the beginning of 1970, shown in universal time.
-/
import PromptFill.Text.Basic

namespace PromptFill

/-- The importance of a record, greater being more important. -/
abbrev Level := Int

namespace Level

/-- Details for those who look for faults. -/
def debug : Level := 10

/-- What goes on. -/
def info : Level := 20

/-- What may be wrong. -/
def warning : Level := 30

/-- What has failed. -/
def error : Level := 40

/-- The name of a level; a level without a name of its own is named by its number. -/
def name (l : Level) : Text :=
  if l = 0 then "NOTSET".toList
  else if l = 10 then "DEBUG".toList
  else if l = 20 then "INFO".toList
  else if l = 30 then "WARNING".toList
  else if l = 40 then "ERROR".toList
  else if l = 50 then "CRITICAL".toList
  else "Level ".toList ++ Text.signedDecimal l

end Level

/-- A log record: what is said, by which logger, how important it is, and where and when. -/
structure Record where
  logger : Text
  level : Level
  message : Text
  /-- The path of the file it comes from. -/
  file : Text
  /-- The function it comes from. -/
  function : Text
  line : Int := 0
  time : Int := 0
deriving DecidableEq, Repr

/-! ## Dates and times -/

/-- A date of the Gregorian calendar. -/
structure Date where
  year : Int
  month : Nat
  day : Nat
deriving DecidableEq, Repr

/-- The date of a day counted from the first of January 1970.  Years are counted from March
    on, in cycles of 400 years, so that the leap day is the last of its year. -/
def Date.ofDay (n : Int) : Date :=
  let days := n + 719468
  let cycle := days / 146097
  let inCycle := (days % 146097).toNat
  let yearInCycle := (inCycle - inCycle / 1460 + inCycle / 36524 - inCycle / 146096) / 365
  let inYear := inCycle - (365 * yearInCycle + yearInCycle / 4 - yearInCycle / 100)
  let monthFromMarch := (5 * inYear + 2) / 153
  let day := inYear - (153 * monthFromMarch + 2) / 5 + 1
  let month := if monthFromMarch < 10 then monthFromMarch + 3 else monthFromMarch - 9
  let year := cycle * 400 + yearInCycle + if month ≤ 2 then 1 else 0
  ⟨year, month, day⟩

/-- A number in two digits. -/
def twoDigits (n : Nat) : Text := Text.zeroFill 2 (Text.decimal n)

/-- The text of a date. -/
def Date.text (d : Date) : Text :=
  Text.signedDecimal d.year ++ '-' :: twoDigits d.month ++ '-' :: twoDigits d.day

/-- The time of day of a time. -/
def timeOfDay (time : Int) : Text :=
  let s := (time % 86400).toNat
  twoDigits (s / 3600) ++ ':' :: twoDigits (s / 60 % 60) ++ ':' :: twoDigits (s % 60)

/-- Date and time of day of a time. -/
def dateAndTime (time : Int) : Text := (Date.ofDay (time / 86400)).text ++ ' ' :: timeOfDay time

/-! ## Lines -/

namespace Record

/-- The last component of the path of the file a record comes from. -/
def fileName (r : Record) : Text := (r.file.splitOn '/').getLast?.getD []

/-- What stands between the parts of a line. -/
def separator : Text := " - ".toList

/-- A record on the standard error stream. -/
def plainLine (r : Record) : Text :=
  Level.name r.level ++ ':' :: r.logger ++ ':' :: r.message ++ ['\n']

/-- A record on the console. -/
def consoleLine (r : Record) : Text :=
  timeOfDay r.time ++ separator ++ Level.name r.level ++ separator ++ r.message ++ ['\n']

/-- A record in the log file. -/
def fileLine (r : Record) : Text :=
  dateAndTime r.time ++ separator ++ r.logger ++ separator ++ Level.name r.level ++ separator ++
    '[' :: r.fileName ++ ':' :: Text.signedDecimal r.line ++ ']' :: separator ++
    r.function ++ "()".toList ++ separator ++ r.message ++ ['\n']

end Record

end PromptFill
