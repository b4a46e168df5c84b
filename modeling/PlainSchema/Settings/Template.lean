/-
PlainSchema/Settings/Template.lean

A file of settings to start from: every entry with its default and what it means.
-/
import PlainSchema.Files.Tree
import PlainSchema.Failure
import PlainSchema.Settings

namespace PlainSchema

namespace Settings

/-- The name of the file of settings where none is given. -/
def fileName : String := "schema-cleaner.yaml"

/-- The lines of the template. -/
def templateLines : List String := [
  "# Batch configuration for openapi-schema-cleaner clean-all.",
  "# Every key is optional; remove the ones you do not need.",
  "# Relative paths resolve against the directory holding this file.",
  "",
  "directories:",
  "  # Directory tree holding the schema documents to clean.",
  "  original: \"schemas/original\"",
  "  # Directory receiving the cleaned documents, mirroring the original layout.",
  "  clean: \"schemas/clean\"",
  "",
  "# Glob patterns, relative to directories.original, selecting the documents.",
  "patterns:",
  "  - \"**/*.yml\"",
  "  - \"**/*.yaml\"",
  "",
  "# abort: stop at the first document that fails to clean.",
  "# skip: report the failure and continue with the remaining documents.",
  "on_error: \"abort\""]

/-- The template. -/
def template : String := String.join (templateLines.map (· ++ "\n"))

/-- Writes the template to a new file. -/
def writeTemplate (t : FileTree) (p : Path) : Except StrayFault FileTree :=
  match t.find? p with
  | .error e => .error (.file e)
  | .ok (some _) => .error (.settingsTaken (.absolute (p.resolve t.current)))
  | .ok none =>
    match t.write p (Text.encodeUtf8 template.toList) with
    | .error e => .error (.file e)
    | .ok t => .ok t

end Settings

end PlainSchema
