/-
PlainSchema/Files/Fault.lean

Why an operation on a file is refused.  Most refusals are the system's: they have a
number and name the path as it was given.  A path with a NUL character has no
meaning to the system and never reaches it.
-/
import PlainSchema.Files.Path
import PlainSchema.Text.Quoted

namespace PlainSchema

/-- Why the system refuses an operation. -/
inductive Refusal where
  | missing
  | taken
  | notDirectory
  | isDirectory
  | nameTooLong
  deriving DecidableEq, Repr

/-- The system's number for it. -/
def Refusal.number : Refusal → Nat
  | missing => 2
  | taken => 17
  | notDirectory => 20
  | isDirectory => 21
  | nameTooLong => 36

/-- The words for it. -/
def Refusal.words : Refusal → String
  | missing => "No such file or directory"
  | taken => "File exists"
  | notDirectory => "Not a directory"
  | isDirectory => "Is a directory"
  | nameTooLong => "File name too long"

/-- Why an operation on a path is refused. -/
inductive FileFault where
  | refused (why : Refusal) (path : Path)
  | nul
  deriving DecidableEq, Repr

/-- The text of the fault. -/
def FileFault.message : FileFault → String
  | refused why path =>
    "[Errno " ++ toString why.number ++ "] " ++ why.words ++ ": " ++ Text.quoted path.text
  | nul => "embedded null byte"

end PlainSchema
