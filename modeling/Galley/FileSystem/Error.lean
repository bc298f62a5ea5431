/-!
Errors of a file system: why an operation on a path is refused, and the message of each.
-/

namespace Galley

/-- Why an operation on a path is refused. -/
inductive OsError where
  | notFound
  | accessDenied
  | alreadyExists
  | notDirectory
  | isDirectory
  | nameTooLong
  | linkLoop
  /-- A path holds the character that ends texts. -/
  | nulInPath
  /-- The octets of a file are no text. -/
  | notText
deriving DecidableEq, Repr

namespace OsError

/-- The number of an error, when the system has one for it. -/
def number? : OsError → Option Nat
  | .notFound => some 2
  | .accessDenied => some 13
  | .alreadyExists => some 17
  | .notDirectory => some 20
  | .isDirectory => some 21
  | .nameTooLong => some 36
  | .linkLoop => some 40
  | .nulInPath | .notText => none

def words : OsError → String
  | .notFound => "No such file or directory"
  | .accessDenied => "Permission denied"
  | .alreadyExists => "File exists"
  | .notDirectory => "Not a directory"
  | .isDirectory => "Is a directory"
  | .nameTooLong => "File name too long"
  | .linkLoop => "Too many levels of symbolic links"
  | .nulInPath => "file name contained an unexpected NUL byte"
  | .notText => "stream did not contain valid UTF-8"

def message (e : OsError) : String :=
  match e.number? with
  | some n => e.words ++ " (os error " ++ toString n ++ ")"
  | none => e.words

end OsError

end Galley
