/-!
# What can go wrong with a file

The reasons for which a file cannot be read, written or looked at, with the wording that reports
use.
-/

namespace BracketTemplate

/-- The reason for which a file operation fails. -/
inductive FileFault where
  | notFound
  | notADirectory
  | isADirectory
  | exists
  | notEmpty
  | nameTooLong
  | badDescriptor
  | invalidArgument
  | invalidUtf8
  | zeroByte
  | emptyPath
  /-- A reason given by its wording. -/
  | other (wording : String)
  deriving DecidableEq, Repr

namespace FileFault

/-- The number and the wording of a reason that the operating system gives. -/
def system? : FileFault → Option (Nat × String)
  | notFound => some (2, "No such file or directory")
  | badDescriptor => some (9, "Bad file descriptor")
  | «exists» => some (17, "File exists")
  | notADirectory => some (20, "Not a directory")
  | isADirectory => some (21, "Is a directory")
  | invalidArgument => some (22, "Invalid argument")
  | nameTooLong => some (36, "File name too long")
  | notEmpty => some (39, "Directory not empty")
  | _ => none

/-- The wording of a reason. -/
def message (f : FileFault) : String :=
  match f.system?, f with
  | some (number, wording), _ => s!"{wording} (os error {number})"
  | none, invalidUtf8 => "stream did not contain valid UTF-8"
  | none, zeroByte => "file name contained an unexpected NUL byte"
  | none, emptyPath => "cannot make an empty path absolute"
  | none, other wording => wording
  | none, _ => ""

/-- Whether the reason says that no file is there: nothing at all, a directory, or a place below
something that is no directory. -/
def isMissing : FileFault → Bool
  | notFound | isADirectory | notADirectory => true
  | _ => false

end FileFault

end BracketTemplate
