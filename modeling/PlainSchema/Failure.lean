/-
PlainSchema/Failure.lean

Why something ends without a result.  `DocumentFault` and a list of nothing but the
type null are what can be wrong with one document; a batch records them and goes on.
`StrayFault` is what nobody expects: it ends the program wherever it arises.

One stray fault is none of the program's.  What a program does with a document that is
no `Node` is not followed here, and `beyond` stands for it.
-/
import PlainSchema.Files.Fault
import PlainSchema.Files.Pattern
import PlainSchema.Json.Fault
import PlainSchema.Schema.Noting
import PlainSchema.Text.Code
import PlainSchema.Text.Utf8
import PlainSchema.Yaml.Fault

namespace PlainSchema

/-! ### Documents -/

/-- Why a document cannot be read or written. -/
inductive DocumentFault where
  | malformedJson (cause : Json.Cause) (position : Json.Position)
  | malformedYaml
  | noJson (fault : Json.WriteFault)
  | unreadable (path : Path) (fault : FileFault)
  | unwritable (path : Path) (fault : FileFault)
  /-- The text of the file at the path is no document. -/
  | inFile (path : Path) (fault : DocumentFault)
  deriving DecidableEq, Repr

/-- The text of the fault. -/
def DocumentFault.message : DocumentFault → String
  | malformedJson cause position =>
    "Invalid JSON document: " ++ cause.message ++ ": " ++ position.message
  | malformedYaml => "Invalid YAML document: " ++ Yaml.Fault.message .malformed
  | noJson fault => "Cannot render JSON document: " ++ fault.message
  | unreadable path fault => "Cannot read schema document " ++ path.text ++ ": " ++ fault.message
  | unwritable path fault => "Cannot write schema document " ++ path.text ++ ": " ++ fault.message
  | inFile path fault => path.text ++ ": " ++ fault.message

/-- What is wrong with a document that is not cleaned. -/
inductive CleaningFault where
  | document (fault : DocumentFault)
  | types (fault : Schema.NullOnlyTypes)
  deriving Repr

/-- The text of the fault. -/
def CleaningFault.message : CleaningFault → String
  | document fault => fault.message
  | types fault => fault.message

/-! ### Settings and batches -/

/-- Why settings are refused. -/
inductive SettingsFault where
  | noFile (path : Path)
  | malformed
  | root
  | directories
  | notText (name : String)
  | blank (name : String)
  | noPatterns
  | patterns
  | policy
  deriving DecidableEq, Repr

/-- The text of the fault. -/
def SettingsFault.message : SettingsFault → String
  | noFile path => "Configuration file not found: " ++ path.text
  | malformed => "Failed to parse configuration file: " ++ Yaml.Fault.message .malformed
  | root => "Configuration root must be a mapping."
  | directories => "directories must be a mapping."
  | notText name => name ++ " must be a string."
  | blank name => name ++ " must not be empty."
  | noPatterns => "patterns must contain at least one glob pattern."
  | patterns => "patterns must be a string or list of strings."
  | policy => "on_error must be one of: abort, skip."

/-- Why a batch ends. -/
inductive BatchFault where
  | noDirectory (path : Path)
  | stopped (input : Path) (fault : CleaningFault)
  /-- The file that an earlier run left at a path cannot be removed. -/
  | notRemoved (output : Path) (fault : FileFault)
  deriving Repr

/-- The text of the fault. -/
def BatchFault.message : BatchFault → String
  | noDirectory path => "Original schema directory not found: " ++ path.text
  | stopped input fault => input.text ++ ": " ++ fault.message
  | notRemoved output fault =>
    "Cannot remove stale output " ++ output.text ++ ": " ++ fault.message

/-! ### Stray faults -/

/-- A fault that no part of the program expects. -/
inductive StrayFault where
  | encoding (fault : Text.Utf8Fault)
  /-- A path with halves of surrogate pairs. -/
  | unencodable (fault : Text.HalfFault)
  /-- A scalar of a YAML document. -/
  | scalar (fault : Yaml.Fault)
  /-- An integer in a JSON document. -/
  | integer (fault : Text.IntegerFault)
  | longInteger (fault : Text.LongInteger)
  | file (fault : FileFault)
  | pattern (fault : PatternFault)
  /-- The file that is to hold new settings is there already; its place. -/
  | settingsTaken (place : Path)
  /-- A document is read that is no `Node`. -/
  | beyond (limit : Node.Limit)
  deriving DecidableEq, Repr

/-- The text of the fault. -/
def StrayFault.message : StrayFault → String
  | encoding fault => fault.message
  | unencodable fault => fault.message
  | scalar fault => fault.message
  | integer fault => fault.message
  | longInteger fault => fault.message
  | file fault => fault.message
  | pattern fault => fault.message
  | settingsTaken place => "Configuration file already exists: " ++ place.text
  | beyond limit => limit.message

/-! ### All together -/

/-- Why something ends without a result. -/
inductive Failure where
  | cleaning (fault : CleaningFault)
  | settings (fault : SettingsFault)
  | batch (fault : BatchFault)
  | stray (fault : StrayFault)
  deriving Repr

/-- The text of the failure. -/
def Failure.message : Failure → String
  | cleaning fault => fault.message
  | settings fault => fault.message
  | batch fault => fault.message
  | stray fault => fault.message

/-- A failure to read or write a document. -/
def Failure.document (fault : DocumentFault) : Failure := .cleaning (.document fault)

/-- A failure to clean a document. -/
def Failure.types (fault : Schema.NullOnlyTypes) : Failure := .cleaning (.types fault)

/-- The failure that an obstacle to cleaning is. -/
def Failure.ofObstacle : Schema.Obstacle → Failure
  | .types fault => .types fault
  | .place _ => .stray (.longInteger {})

end PlainSchema
