/-
  The command line: one template and two options, in any order.

  `parse` first takes every argument by itself and then consumes them from left to right.
  The first operand is the template, and a separator next to it belongs to it.  Operands
  and unknown options that nothing consumes are refused in the end, a missing template
  before them.  Asking for help ends the parse where it is met.
-/
import PromptFill.CommandLine.Token
import PromptFill.Files.Path

namespace PromptFill.CommandLine

/-- The separator between options and operands. -/
def separatorText : Text := "--".toList

/-- The title that the arguments ask for. -/
inductive Title where
  /-- None is asked for. -/
  | unset
  | text (s : Text)
  /-- The title option is there, but a separator joined to it takes its text away. -/
  | withoutText
deriving DecidableEq, Repr

/-- The title that a text joined to the title option gives. -/
def Title.ofJoined (s : Text) : Title := if s = separatorText then .withoutText else .text s

/-- What the arguments ask for. -/
structure Arguments where
  template : Path
  title : Title
  debug : Bool
deriving DecidableEq, Repr

/-- What is wrong with the arguments. -/
inductive UsageError where
  /-- An argument abbreviates several options. -/
  | ambiguous (arg : Text) (options : List Opt)
  /-- A text is joined to an option that takes none. -/
  | ignored (o : Opt) (joined : Text)
  /-- The title has no argument. -/
  | noTitle
  | noTemplate
  | unrecognized (args : List Text)
deriving DecidableEq, Repr

/-- The wording of an error. -/
def UsageError.message : UsageError → Text
  | ambiguous arg options =>
    "ambiguous option: ".toList ++ arg ++ " could match ".toList ++
      List.intercalate ", ".toList (options.map Opt.long)
  | ignored o joined =>
    "argument ".toList ++ o.label ++ ": ignored explicit argument ".toList ++ Text.quoted joined
  | noTitle => "argument ".toList ++ Opt.title.label ++ ": expected one argument".toList
  | noTemplate => "the following arguments are required: template".toList
  | unrecognized args => "unrecognized arguments: ".toList ++ List.intercalate [' '] args

/-- Why the arguments are not answered by what they ask for. -/
inductive Stop where
  /-- They ask for help. -/
  | help
  | wrong (e : UsageError)
deriving DecidableEq, Repr

/-- The arguments, each taken by itself. -/
def tokens : List Text → Except Stop (List Token)
  | [] => .ok []
  | arg :: args =>
    if arg = separatorText then .ok (.separator :: args.map .operand)
    else
      match Token.ofArgument arg with
      | .error options => .error (.wrong (.ambiguous arg options))
      | .ok token => (tokens args).map (token :: ·)

/-- What was consumed so far. -/
structure Progress where
  template : Option Text := none
  title : Title := .unset
  debug : Bool := false
  /-- What nothing has consumed. -/
  extras : List Text := []
deriving DecidableEq, Repr

/-- What follows from letters behind the short name of the help option.  The letter of that name
    may be repeated; from any other letter on they are a text joined to an option that takes
    none. -/
def clusterStop (letters : Text) : Stop :=
  match letters.dropWhile (· = 'h') with
  | [] => .help
  | rest => .wrong (.ignored .help rest)

/-- Leaves an argument over. -/
def Progress.leave (p : Progress) (arg : Text) : Progress := { p with extras := p.extras ++ [arg] }

/-- Consumes tokens from left to right. -/
def consume (p : Progress) : List Token → Except Stop Progress
  | [] => .ok p
  | .operand s :: ts =>
    match p.template with
    | some _ => consume (p.leave s) ts
    | none =>
      match ts with
      | .separator :: rest => consume { p with template := some s } rest
      | ts => consume { p with template := some s } ts
  | .separator :: ts =>
    match p.template, ts with
    | none, .operand s :: rest => consume { p with template := some s } rest
    | _, ts => consume (p.leave separatorText) ts
  | .unknown s :: ts => consume (p.leave s) ts
  | .cluster letters :: _ => .error (clusterStop letters)
  | .option .help joined :: _ =>
    match joined with
    | none => .error .help
    | some joined => .error (.wrong (.ignored .help joined))
  | .option .debug joined :: ts =>
    match joined with
    | none => consume { p with debug := true } ts
    | some joined => .error (.wrong (.ignored .debug joined))
  | .option .title (some joined) :: ts => consume { p with title := Title.ofJoined joined } ts
  | .option .title none :: ts =>
    match ts with
    | .operand s :: rest => consume { p with title := .text s } rest
    | _ => .error (.wrong .noTitle)

/-- What was consumed in the end, if there is a template and nothing is left over. -/
def Progress.finish (p : Progress) : Except Stop Arguments :=
  match p.template with
  | none => .error (.wrong .noTemplate)
  | some s =>
    if p.extras = [] then .ok ⟨Path.ofText s, p.title, p.debug⟩
    else .error (.wrong (.unrecognized p.extras))

/-- What the arguments ask for. -/
def parse (args : List Text) : Except Stop Arguments := do
  (← consume {} (← tokens args)).finish

/-! ## What is printed -/

/-- The line that shows how a program is used. -/
def usage (program : Text) : Text :=
  "usage: ".toList ++ program ++ " [-h] [--title TITLE] [--debug] template\n".toList

/-- The help on a program. -/
def helpText (program : Text) : Text :=
  usage program ++
    "\nFill the placeholders of a prompt template.\n\npositional arguments:\n".toList ++
    "  template       Text file containing the prompt template\n\noptions:\n".toList ++
    "  -h, --help     show this help message and exit\n".toList ++
    "  --title TITLE  Dialog title (defaults to the file name)\n".toList ++
    "  --debug        Enable debug logging\n".toList

/-- What is printed about an error. -/
def errorText (program : Text) (e : UsageError) : Text :=
  usage program ++ program ++ ": error: ".toList ++ e.message ++ ['\n']

end PromptFill.CommandLine
