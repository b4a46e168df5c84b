/-
PlainSchema/Document/Format.lean

The two formats of documents.  A file whose name ends in `.json`, in capitals or
small letters, is JSON; all others are YAML.
-/
import PlainSchema.Files.Path

namespace PlainSchema

namespace Document

/-- A format of documents. -/
inductive Format where
  | yaml
  | json
  deriving DecidableEq, Repr, Inhabited

/-- The format of the document at a path. -/
def Format.ofPath (p : Path) : Format :=
  if Text.lower p.suffix = ".json" then .json else .yaml

end Document

end PlainSchema
