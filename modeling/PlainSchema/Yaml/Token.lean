/-
PlainSchema/Yaml/Token.lean

The tokens of a YAML text.  Those that a reader of the text does not see (the starts
and ends of block collections, the key before its colon) come from its layout.
-/
import PlainSchema.Text.Code
import PlainSchema.Yaml.Fault

namespace PlainSchema

namespace Yaml

/-- What a line that starts with a percent sign says. -/
inductive Directive where
  | version (major : Nat)
  | tag (handle start : String)
  /-- Any other name; it says nothing. -/
  | other
  deriving DecidableEq, Repr, Inhabited

/-- A token. -/
inductive Token where
  | directive (directive : Directive)
  | documentStart
  | documentEnd
  | blockSequenceStart
  | blockMappingStart
  | blockEnd
  | flowSequenceStart
  | flowSequenceEnd
  | flowMappingStart
  | flowMappingEnd
  | blockEntry
  | flowEntry
  | key
  | value
  | alias (name : String)
  | anchor (name : String)
  /-- A tag: a handle, unless it is written in full, and what follows. -/
  | tag (handle : Option String) (suffix : String)
  | scalar (text : String) (plain : Bool)
  /-- A scalar in quotes whose text has a half of a surrogate pair. -/
  | torn (codes : List Text.Code)
  deriving DecidableEq, Repr, Inhabited

/-- The tokens of a text: all of them, or those that come before its first fault. -/
structure Tokens where
  tokens : List Token
  fault : Option Fault
  deriving Inhabited

end Yaml

end PlainSchema
