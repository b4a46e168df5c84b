/-
PlainSchema/Batch/Note.lean

What is noted while documents are cleaned, and the lines of the notes.
-/
import PlainSchema.Failure

namespace PlainSchema

/-- How much a note matters, from least to most. -/
inductive Level where
  | debug
  | info
  | warning
  | error
  deriving DecidableEq, Repr

/-- The word for a level. -/
def Level.word : Level → String
  | debug => "DEBUG"
  | info => "INFO"
  | warning => "WARNING"
  | error => "ERROR"

/-- Something worth noting. -/
inductive Note where
  | split (list : Schema.Split)
  | noDocuments (patterns : List String) (directory : Path)
  | cleaning (input output : Path)
  | skipping (input : Path) (fault : CleaningFault)
  | nothingLeft (input : Path)
  | staleRemoved (output : Path)
  deriving Repr

namespace Note

/-- How much the note matters. -/
def level : Note → Level
  | split _ => .debug
  | cleaning .. | staleRemoved _ => .info
  | noDocuments .. | nothingLeft _ => .warning
  | skipping .. => .error

/-- The part of the program that the note comes from. -/
def logger : Note → String
  | split _ => "openapi_schema_cleaner.schema_cleaning.cleaning_rules"
  | _ => "openapi_schema_cleaner.batch_cleaning.directory_cleaning_use_case"

/-- The text of the note. -/
def message [SetOrder] : Note → String
  | split list => list.message
  | noDocuments patterns directory =>
    "No schema documents matched " ++ (Node.tuple (patterns.map .str)).shown ++ " in "
      ++ directory.text
  | cleaning input output => "Cleaning " ++ input.text ++ " -> " ++ output.text
  | skipping input fault => "Skipping " ++ input.text ++ ": " ++ fault.message
  | nothingLeft input => input.text ++ " cleaned to an empty document; nothing written"
  | staleRemoved output => "Removed stale output " ++ output.text

/-- The line of the note. -/
def line [SetOrder] (n : Note) : String :=
  n.level.word ++ " " ++ n.logger ++ ": " ++ n.message ++ "\n"

end Note

end PlainSchema
