import BindGen.File.Path
import BindGen.Value.Display

/-!
# File errors

Why an operation on a file, a directory or a program fails. The wording gives the number of the
reason and, in quotes, the file it is about. A name that no file can have fails before the system is
asked, so that there is no number.
-/

namespace BindGen

/-- A reason of failure. -/
inductive FileError.Reason where
  | notFound
  | exists
  | notDirectory
  | isDirectory
  | noSpace
  | nameTooLong
  | unnameable
deriving DecidableEq

/-- A failure, with the name of the file it is about. -/
structure FileError where
  reason : FileError.Reason
  file : Option String
deriving DecidableEq

namespace FileError

/-- The number of a reason, if the system gives it. -/
def Reason.number : Reason → Nat
  | notFound => 2
  | .exists => 17
  | notDirectory => 20
  | isDirectory => 21
  | noSpace => 28
  | nameTooLong => 36
  | unnameable => 0

/-- The wording of a reason. -/
def Reason.text : Reason → String
  | notFound => "No such file or directory"
  | .exists => "File exists"
  | notDirectory => "Not a directory"
  | isDirectory => "Is a directory"
  | noSpace => "No space left on device"
  | nameTooLong => "File name too long"
  | unnameable => "embedded null byte"

/-- Whether the system gives the reason. -/
def Reason.isSystem (r : Reason) : Bool := r != unnameable

/-- Whether a reason says no more than that a path leads nowhere. -/
def Reason.isAbsence : Reason → Bool
  | notFound | notDirectory | unnameable => true
  | _ => false

/-- A failure about a path. -/
def about (reason : Reason) (p : Path) : FileError := ⟨reason, some p.text⟩

/-- The wording of a failure. -/
def message (e : FileError) : String :=
  let about := match e.file with
    | some file => ": " ++ (Value.text file).quoted
    | none => ""
  if e.reason.isSystem then s!"[Errno {e.reason.number}] {e.reason.text}" ++ about
  else e.reason.text

end FileError
end BindGen
