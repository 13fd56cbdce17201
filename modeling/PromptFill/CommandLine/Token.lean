/-
  Command line arguments, each taken by itself.

  An argument is an option if it is spelled like one: by name, by a beginning of its long
  name that no other option has, or with a value behind an equals sign.  What begins with a
  dash but looks like a negative number or holds a space is an operand.  The first `--`
  separates the options from arguments that are operands whatever they look like.
-/
import PromptFill.Text.Digit
import PromptFill.Text.Quoted

namespace PromptFill.CommandLine

/-- The options. -/
inductive Opt where
  | help
  | title
  | debug
deriving DecidableEq, Repr

namespace Opt

/-- All options. -/
def all : List Opt := [help, title, debug]

/-- The long name of an option. -/
def long : Opt → Text
  | help => "--help".toList
  | title => "--title".toList
  | debug => "--debug".toList

/-- The short name of the only option that has one. -/
def shortHelp : Text := "-h".toList

/-- How messages call an option. -/
def label : Opt → Text
  | help => "-h/--help".toList
  | o => o.long

/-- The option of that very name. -/
def ofName? (s : Text) : Option Opt :=
  if s = shortHelp then some help else all.find? fun o => o.long = s

end Opt

/-- An argument taken by itself. -/
inductive Token where
  | operand (s : Text)
  /-- The first `--`. -/
  | separator
  /-- An option, and the text behind its equals sign. -/
  | option (o : Opt) (joined : Option Text)
  /-- The short name of the help option with more letters behind it. -/
  | cluster (letters : Text)
  | unknown (s : Text)
deriving DecidableEq, Repr

/-- Whether an argument is a dash before a whole or decimal number; a line feed may follow. -/
def looksNegative : Text → Bool
  | '-' :: s =>
    let s := match s.getLast? with
      | some '\n' => s.dropLast
      | _ => s
    let whole := s.takeWhile isDecimalDigit
    match s.dropWhile isDecimalDigit with
    | [] => whole ≠ []
    | '.' :: places => places ≠ [] && places.all isDecimalDigit
    | _ => false
  | _ => false

/-- The options that an argument that starts with a dash may abbreviate, each as a token. -/
def abbreviated (arg : Text) : List (Opt × Token) :=
  match arg with
  | '-' :: '-' :: _ =>
    let (name, joined) := match Text.cutAt '=' arg with
      | some (name, value) => (name, some value)
      | none => (arg, none)
    (Opt.all.filter fun o => name.isPrefixOf o.long).map fun o => (o, .option o joined)
  | '-' :: 'h' :: letters => [(.help, .cluster letters)]
  | _ => []

/-- An option with a text joined to its name by an equals sign.  Behind a short name the text
    counts as more letters, if there are any. -/
def joinedTo (name : Text) (o : Opt) (value : Text) : Token :=
  if name = Opt.shortHelp ∧ value ≠ [] then .cluster value else .option o (some value)

/-- The option that an argument names in full, alone or before its first equals sign. -/
def named? (arg : Text) : Option Token :=
  match Opt.ofName? arg with
  | some o => some (.option o none)
  | none =>
    match Text.cutAt '=' arg with
    | some (name, value) => (Opt.ofName? name).map fun o => joinedTo name o value
    | none => none

/-- What an argument before the separator is, or the options between which it is ambiguous. -/
def Token.ofArgument (arg : Text) : Except (List Opt) Token :=
  match arg with
  | [] | ['-'] => .ok (.operand arg)
  | '-' :: _ =>
    match named? arg with
    | some token => .ok token
    | none =>
      match abbreviated arg with
      | [(_, token)] => .ok token
      | [] =>
        if looksNegative arg ∨ ' ' ∈ arg then .ok (.operand arg) else .ok (.unknown arg)
      | several => .error (several.map Prod.fst)
  | _ => .ok (.operand arg)

end PromptFill.CommandLine
