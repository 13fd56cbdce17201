/-
  The files of a machine.

  A location is the list of names from the root.  A directory or a file stands at each
  location in use; a file has a number, by which a program that has opened it goes on to
  find it, and its content.  Paths are followed name by name from the working directory or
  the root, `..` leading to the directory above.

  The operations answer the fault that the system would report: the first name on the way
  that is missing, is no directory or is too long decides.  What a path leads to may still be
  refused: `refuses` says which uses of a location are, for want of permission, on a medium
  that is read only or full, or for another reason.
-/
import PromptFill.Fault
import PromptFill.Files.Path
import PromptFill.Table

namespace PromptFill

/-- The names from the root to a file or directory. -/
abbrev Location := List Text

/-- What stands at a location. -/
inductive Node where
  | dir
  | file (id : Nat) (content : ByteArray)

/-- Whether a directory stands there. -/
def Node.isDir : Node → Bool
  | .dir => true
  | .file _ _ => false

/-- A node after the content of the file of a number was changed. -/
def Node.change (id : Nat) (f : ByteArray → ByteArray) : Node → Node
  | .dir => .dir
  | .file id' content => .file id' (if id' = id then f content else content)

/-- What is asked of a location: to read or to write the file there, or to make a file or a
    directory in the free place. -/
inductive Use where
  | reading
  | writing
  | making
deriving DecidableEq, Repr

/-- The files and directories, the number of the next file, the working directory, and what the
    system does not let happen. -/
structure FileTree where
  nodes : Table Location Node := []
  fresh : Nat := 0
  here : Location := []
  /-- Why a use of a location is refused, if it is. -/
  refuses : Use → Location → Option Refusal := fun _ _ => none
  /-- How many bytes can be written to a file at once, unless any number can. -/
  room : Option Nat := none

/-- What a path leads to: a directory, a file, or a free place in a directory. -/
inductive Place where
  | dir (l : Location)
  | file (l : Location) (id : Nat) (content : ByteArray)
  | vacant (l : Location)

namespace FileTree

/-- The greatest number of bytes of a name. -/
def longestName : Nat := 255

/-- The greatest number of bytes of a path. -/
def longestPath : Nat := 4095

/-- What stands at a location; the root is a directory. -/
def node? (t : FileTree) (l : Location) : Option Node :=
  if l = [] then some .dir else t.nodes.get? l

/-- Follows names from the directory `l`. -/
def walk (t : FileTree) : (l : Location) → (names : List Text) → Except Refusal Place
  | l, [] => .ok (.dir l)
  | l, c :: cs =>
    if c = "..".toList then walk t l.dropLast cs
    else if longestName < Text.byteLength c then .error .nameTooLong
    else match t.node? (l ++ [c]) with
      | some .dir => walk t (l ++ [c]) cs
      | some (.file id content) =>
        if cs = [] then .ok (.file (l ++ [c]) id content) else .error .notDirectory
      | none => if cs = [] then .ok (.vacant (l ++ [c])) else .error .notFound

/-- What a path leads to. -/
def find (t : FileTree) (p : Path) : Except Fault Place :=
  if '\x00' ∈ p.text then .error .nullInPath
  else if longestPath < Text.byteLength p.text then .error (.refused .nameTooLong p.text)
  else match t.walk (if p.isRelative then t.here else []) p.parts with
    | .ok place => .ok place
    | .error why => .error (.refused why p.text)

/-- Whether there is anything at a path.  Only a name that is too long is a fault. -/
def exists? (t : FileTree) (p : Path) : Except Fault Bool :=
  match t.find p with
  | .ok (.vacant _) => .ok false
  | .ok _ => .ok true
  | .error (.refused .nameTooLong path) => .error (.refused .nameTooLong path)
  | .error _ => .ok false

/-- Whether a path leads to a directory. -/
def isDir (t : FileTree) (p : Path) : Bool :=
  match t.find p with
  | .ok (.dir _) => true
  | _ => false

/-- The answer to a use of what a path leads to, unless the use is refused. -/
def permit {α : Type} (t : FileTree) (use : Use) (l : Location) (p : Path) (answer : α) :
    Except Fault α :=
  match t.refuses use l with
  | none => .ok answer
  | some why => .error (.refused why p.text)

/-- The bytes of a file. -/
def read (t : FileTree) (p : Path) : Except Fault ByteArray :=
  match t.find p with
  | .ok (.file l _ content) => t.permit .reading l p content
  | .ok (.dir _) => .error (.refused .isDirectory p.text)
  | .ok (.vacant _) => .error (.refused .notFound p.text)
  | .error e => .error e

/-- The tree with a directory at a location. -/
def addDir (t : FileTree) (l : Location) : FileTree := { t with nodes := t.nodes.set l .dir }

/-- The tree with a new empty file at a location. -/
def addFile (t : FileTree) (l : Location) : FileTree :=
  { t with nodes := t.nodes.set l (.file t.fresh ByteArray.empty), fresh := t.fresh + 1 }

/-- Makes one directory, in a directory that is there. -/
def makeDir (t : FileTree) (p : Path) : Except Fault FileTree :=
  match t.find p with
  | .ok (.vacant l) => t.permit .making l p (t.addDir l)
  | .ok _ => .error (.refused .alreadyExists p.text)
  | .error e => .error e

/-- Makes one directory, unless it is there. -/
def ensureDir (t : FileTree) (p : Path) : Except Fault FileTree :=
  match t.makeDir p with
  | .ok t' => .ok t'
  | .error e =>
    if e.isRefusal ∧ e ≠ .refused .notFound p.text ∧ t.isDir p then .ok t else .error e

/-- Makes a directory and those above it, unless they are there.  What was made before a
    fault stays. -/
def makeDirs (t : FileTree) (p : Path) : Except Fault Unit × FileTree :=
  match t.ensureDir p with
  | .ok t' => (.ok (), t')
  | .error e =>
    if _h : e = .refused .notFound p.text ∧ p.parts ≠ [] then
      match makeDirs t p.parent with
      | (.error e', t') => (.error e', t')
      | (.ok (), t') =>
        match t'.ensureDir p with
        | .ok t'' => (.ok (), t'')
        | .error e' => (.error e', t')
    else (.error e, t)
termination_by p.parts.length
decreasing_by
  have := List.length_pos_iff.2 _h.2
  simp only [Path.parent, List.length_dropLast]
  omega

/-- Opens a file for writing and makes it if it is missing: its number, and the tree. -/
def openFile (t : FileTree) (p : Path) : Except Fault (Nat × FileTree) :=
  match t.find p with
  | .ok (.file l id _) => t.permit .writing l p (id, t)
  | .ok (.vacant l) => t.permit .making l p (t.fresh, t.addFile l)
  | .ok (.dir _) => .error (.refused .isDirectory p.text)
  | .error e => .error e

/-- The tree after the content of the file of a number was changed, if it is still there. -/
def change (t : FileTree) (id : Nat) (f : ByteArray → ByteArray) : FileTree :=
  { t with nodes := t.nodes.map fun p => (p.1, Node.change id f p.2) }

/-- Replaces the content of a file, which is made if it is missing. -/
def write (t : FileTree) (p : Path) (content : ByteArray) : Except Fault FileTree :=
  match t.openFile p with
  | .ok (id, t') => .ok (t'.change id fun _ => content)
  | .error e => .error e

/-- Whether there is room for some bytes. -/
def hasRoom (t : FileTree) (content : ByteArray) : Bool :=
  t.room.all fun most => content.size ≤ most

/-- What there is room for of some bytes. -/
def fitting (t : FileTree) (content : ByteArray) : ByteArray :=
  match t.room with
  | none => content
  | some most => content.extract 0 most

/-- Appends to the file of a number. -/
def append (t : FileTree) (id : Nat) (more : ByteArray) : FileTree := t.change id (· ++ more)

/-- Takes a file away. -/
def delete (t : FileTree) (p : Path) : Except Fault FileTree :=
  match t.find p with
  | .ok (.file l _ _) => .ok { t with nodes := t.nodes.unset l }
  | .ok (.dir _) => .error (.refused .isDirectory p.text)
  | .ok (.vacant _) => .error (.refused .notFound p.text)
  | .error e => .error e

/-- Whether one location is inside another. -/
def isInside (base l : Location) : Bool := base.isPrefixOf l && base ≠ l

/-- Everything inside a directory, as paths from there in order of their code points;
    directories end with a slash. -/
def listing (t : FileTree) (base : Location) : List Text :=
  let paths := (t.nodes.filter fun p => isInside base p.1).map fun p =>
    List.intercalate ['/'] (p.1.drop base.length) ++ if p.2.isDir then ['/'] else []
  paths.mergeSort Text.inOrder

end FileTree

end PromptFill
