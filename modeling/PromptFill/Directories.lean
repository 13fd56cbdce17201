/-
  The directories that the program keeps its files in.

  They lie in a folder of the user's documents.  Where the documents are depends on the
  platform; elsewhere than on two of them, a configuration file in the home directory names
  the place, and `documentsEntry?` reads it from a line.  If no such place is there, the home
  directory stands in.  An environment variable can name the settings directory instead.

  The directories are made as soon as they are asked for.
-/
import PromptFill.Text.Blank
import PromptFill.Text.Lines
import PromptFill.World

namespace PromptFill

/-! ## Home directories -/

/-- The home directory that a tilde with an account's name behind it stands for, without the
    slashes at its end.  Without a name, a variable tells it before the account does. -/
def homeOf? (accounts : Accounts) (env : Environment) (account : Text) : Except Fault Text :=
  if '\x00' ∈ account then .error .nullInPath
  else
    let home? :=
      if account = [] then (env.get? "HOME".toList).or accounts.own
      else accounts.homes.get? account
    match home? with
    | none => .error .noHome
    | some home =>
      let base := (home.reverse.dropWhile (· = '/')).reverse
      .ok (if base = [] then ['/'] else base)

/-- The path with a tilde at its start replaced by the home directory. -/
def expandHome (accounts : Accounts) (env : Environment) (p : Path) : Except Fault Path :=
  match p.anchor, p.parts with
  | .relative, ('~' :: account) :: rest =>
    match homeOf? accounts env account with
    | .error e => .error e
    | .ok ('~' :: _) => .error .noHome
    | .ok home => .ok ((Path.ofText home).join ⟨.relative, rest⟩)
  | _, _ => .ok p

/-- The home directory. -/
def homeDir (accounts : Accounts) (env : Environment) : Except Fault Path :=
  expandHome accounts env ⟨.relative, [['~']]⟩

/-! ## The documents directory -/

/-- The variable of the configuration file that names the documents directory. -/
def documentsVariable : Text := "XDG_DOCUMENTS_DIR".toList

/-- The text without double quotes at its ends. -/
def stripQuotes (s : Text) : Text :=
  ((s.dropWhile (· = '\x22')).reverse.dropWhile (· = '\x22')).reverse

/-- The value that a line gives to the documents directory: what follows the first equals
    sign of a line that begins like the variable. -/
def documentsEntry? (line : Text) : Option Text :=
  let line := Text.trim line
  if documentsVariable.isPrefixOf line then
    (Text.cutAt '=' line).map fun p => stripQuotes (Text.trim p.2)
  else none

/-- What stands for the home directory at the start of a value. -/
def homeToken : Text := "$HOME/".toList

/-- The directory that a value names. -/
def documentsOfEntry (accounts : Accounts) (env : Environment) (home : Path) (value : Text) :
    Except Fault Path :=
  expandHome accounts env <|
    if homeToken.isPrefixOf value then home.child (value.drop homeToken.length)
    else Path.ofText value

/-- The directory that the lines of the configuration file name, the first entry counting. -/
def documentsOfLines (accounts : Accounts) (env : Environment) (home : Path)
    (lines : List Text) : Except Fault (Option Path) :=
  match lines.findSome? documentsEntry? with
  | none => .ok none
  | some value => (documentsOfEntry accounts env home value).map some

/-- The lines of the configuration file; bytes that are not UTF-8 are left out. -/
def configLines (content : ByteArray) : List Text :=
  Text.lines (Text.unifyNewlines (Text.decodeLossy content))

/-- The documents directory that the configuration file names, if it can be read. -/
def configuredDocuments (accounts : Accounts) (env : Environment) (files : FileTree) :
    Except Fault (Option Path) :=
  match homeDir accounts env with
  | .error e => .error e
  | .ok home =>
    match files.read (home.child ".config/user-dirs.dirs".toList) with
    | .ok content => documentsOfLines accounts env home (configLines content)
    | .error e => if e.isRefusal then .ok none else .error e

/-- The first of the paths at which there is anything. -/
def firstThere (files : FileTree) : List Path → Except Fault (Option Path)
  | [] => .ok none
  | p :: ps =>
    match files.exists? p with
    | .error e => .error e
    | .ok true => .ok (some p)
    | .ok false => firstThere files ps

/-- The places where documents may be on a platform, the best first. -/
def documentsCandidates (accounts : Accounts) (env : Environment) (platform : Text)
    (files : FileTree) (home : Path) : Except Fault (List Path) :=
  let documents := home.child "Documents".toList
  if "win".toList.isPrefixOf platform then .ok [documents, home.child "My Documents".toList]
  else if platform = "darwin".toList then .ok [documents]
  else (configuredDocuments accounts env files).map fun p => [p.getD documents]

/-- The documents directory. -/
def documentsDir (accounts : Accounts) (env : Environment) (platform : Text)
    (files : FileTree) : Except Fault Path :=
  match homeDir accounts env with
  | .error e => .error e
  | .ok home =>
    match documentsCandidates accounts env platform files home with
    | .error e => .error e
    | .ok candidates => (firstThere files candidates).map fun p => p.getD home

/-! ## The program's directories -/

/-- The name of the program's folder and of its log file. -/
def programName : Text := "promptbook".toList

/-- The variable that names the settings directory. -/
def settingsVariable : Text := "PROMPTBOOK_SETTINGS_DIR".toList

/-- Makes a directory and answers it. -/
def ensured (p : Path) : Action Path := do
  Action.makeDirs p
  return p

/-- The program's folder. -/
def userRoot : Action Path := do
  let documents ← Action.query fun w => documentsDir w.accounts w.env w.platform w.files
  ensured (documents.child programName)

/-- The settings directory that the environment names, if it does. -/
def settingsOverride? (accounts : Accounts) (env : Environment) : Except Fault (Option Path) :=
  match env.get? settingsVariable with
  | none | some [] => .ok none
  | some dir => (expandHome accounts env (Path.ofText dir)).map some

/-- The settings directory. -/
def configDir : Action Path := do
  match ← Action.query fun w => settingsOverride? w.accounts w.env with
  | some dir => ensured dir
  | none => ensured ((← userRoot).child "config".toList)

/-- The directory of the log files. -/
def logsDir : Action Path := do
  ensured ((← userRoot).child "logs".toList)

/-- The settings file. -/
def settingsFile : Action Path := do
  return (← configDir).child "app_settings.json".toList

end PromptFill
