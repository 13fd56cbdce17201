/-
  What can go wrong, and what is said about it.

  A system call is refused for a reason and names a path; the other faults end a step of
  the program as well, but are not taken for a refusal.
-/
import PromptFill.Text.Quoted

namespace PromptFill

/-- Why the system refuses a path. -/
inductive Refusal where
  | notFound
  | alreadyExists
  | notDirectory
  | isDirectory
  | nameTooLong
  | permissionDenied
  | noSpace
  | readOnly
  | linkLoop
deriving DecidableEq, Repr

namespace Refusal

/-- The number of a reason. -/
def code : Refusal → Nat
  | notFound => 2
  | alreadyExists => 17
  | notDirectory => 20
  | isDirectory => 21
  | nameTooLong => 36
  | permissionDenied => 13
  | noSpace => 28
  | readOnly => 30
  | linkLoop => 40

/-- The wording of a reason. -/
def reason : Refusal → Text
  | notFound => "No such file or directory".toList
  | alreadyExists => "File exists".toList
  | notDirectory => "Not a directory".toList
  | isDirectory => "Is a directory".toList
  | nameTooLong => "File name too long".toList
  | permissionDenied => "Permission denied".toList
  | noSpace => "No space left on device".toList
  | readOnly => "Read-only file system".toList
  | linkLoop => "Too many levels of symbolic links".toList

end Refusal

/-- What ends a step of the program early. -/
inductive Fault where
  /-- The system refuses a path. -/
  | refused (why : Refusal) (path : Text)
  /-- There is no room for all that is written to a file. -/
  | noRoom
  /-- A path holds the character NUL. -/
  | nullInPath
  /-- A file is not UTF-8. -/
  | badUtf8
  /-- There is no home directory to replace a tilde by. -/
  | noHome
  /-- A numeral has too many digits to be read as an integer. -/
  | longInteger (most digits : Nat)
  /-- An integer has too many digits to be written. -/
  | longNumeral (most : Nat)
  /-- A list or an object of a JSON text lies too deep. -/
  | tooDeep (isObject : Bool)
  /-- A list or an object stands where a name is looked up. -/
  | notAName (typeName : Text)
  /-- The settings are no object. -/
  | noEntries (typeName : Text)
  /-- No colour scheme has the name. -/
  | unknownScheme (name : Text)
deriving DecidableEq, Repr

namespace Fault

/-- The wording of a refusal, without what is refused. -/
def refusalText (why : Refusal) : Text :=
  "[Errno ".toList ++ Text.decimal why.code ++ "] ".toList ++ why.reason

/-- Whether a fault is a refusal of the system, which the program takes note of and survives. -/
def isRefusal : Fault → Bool
  | refused _ _ => true
  | noRoom => true
  | _ => false

/-- The wording of a fault.  Bytes that are not UTF-8 have none. -/
def message : Fault → Text
  | refused why path => refusalText why ++ ": ".toList ++ Text.quoted path
  | noRoom => refusalText .noSpace
  | nullInPath => "embedded null byte".toList
  | badUtf8 => []
  | noHome => "Could not determine home directory.".toList
  | longInteger most digits =>
    "Exceeds the limit (".toList ++ Text.decimal most ++
      " digits) for integer string conversion: value has ".toList ++ Text.decimal digits ++
      " digits; use sys.set_int_max_str_digits() to increase the limit".toList
  | longNumeral most =>
    "Exceeds the limit (".toList ++ Text.decimal most ++
      " digits) for integer string conversion; ".toList ++
      "use sys.set_int_max_str_digits() to increase the limit".toList
  | tooDeep isObject =>
    "maximum recursion depth exceeded while decoding a JSON ".toList ++
      (if isObject then "object".toList else "array".toList) ++ " from a unicode string".toList
  | notAName typeName => "unhashable type: ".toList ++ Text.quoted typeName
  | noEntries typeName => Text.quoted typeName ++ " object has no attribute 'get'".toList
  | unknownScheme name => Text.quoted name

end Fault

end PromptFill
