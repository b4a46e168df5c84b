/-
PlainSchema/Settings.lean

What a batch is told: where the documents are, where the clean ones go, which of
them it takes, and what happens when one of them cannot be cleaned.
-/
import PlainSchema.Files.Path

namespace PlainSchema

/-- What a batch does about a document that cannot be cleaned. -/
inductive Policy where
  /-- It ends there. -/
  | abort
  /-- It reports the document and goes on. -/
  | skip
  deriving DecidableEq, Repr, Inhabited

/-- The policy that a word stands for. -/
def Policy.ofWord? : String → Option Policy
  | "abort" => some .abort
  | "skip" => some .skip
  | _ => none

/-- The patterns that select documents where none are given. -/
def defaultPatterns : List String := ["**/*.yml", "**/*.yaml"]

/-- What a batch is told. -/
structure Settings where
  rawDir : Path
  cleanedDir : Path
  patterns : List String := defaultPatterns
  policy : Policy := .abort
  deriving DecidableEq, Repr

namespace Settings

/-- The path of the documents to clean where none is given. -/
def defaultRaw : Path := ⟨.here, ["schemas", "original"]⟩

/-- The path of the clean documents where none is given. -/
def defaultCleaned : Path := ⟨.here, ["schemas", "clean"]⟩

/-- The settings for a directory that holds everything. -/
def under (base : Path) : Settings :=
  { rawDir := base.join defaultRaw, cleanedDir := base.join defaultCleaned }

end Settings

end PlainSchema
