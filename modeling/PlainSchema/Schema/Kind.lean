/-
PlainSchema/Schema/Kind.lean

What a schema describes: objects, arrays, both, or neither.  A schema declares a
type if its `type` is that name or a list with it, or if its `anyOf` or `oneOf` is
a list with the bare name among its entries.
-/
import PlainSchema.Node

namespace PlainSchema

namespace Node

/-- Whether the node is the given text. -/
def isText (text : String) : Node → Bool
  | str s => s = text
  | _ => false

/-- Whether the node is a list with the given text among its items. -/
def listsText (text : String) : Node → Bool
  | list xs => xs.any (isText text)
  | _ => false

/-- Whether the node is a mapping without entries. -/
def isEmptyMap : Node → Bool
  | map [] => true
  | _ => false

end Node

namespace Schema

/-- What a schema describes. -/
structure Kind where
  object : Bool
  array : Bool
  deriving DecidableEq, Repr, Inhabited

/-- Whether the schema declares the type of the given name. -/
def declares (fs : Fields) (name : String) : Bool :=
  (fs.get? "type").any (fun t => t.isText name || t.listsText name)
    || (fs.get? "anyOf").any (·.listsText name)
    || (fs.get? "oneOf").any (·.listsText name)

/-- Whether the schema describes objects. -/
def describesObject (fs : Fields) : Bool := declares fs "object"

/-- Whether the schema describes arrays. -/
def describesArray (fs : Fields) : Bool := declares fs "array"

/-- What the schema describes. -/
def kind (fs : Fields) : Kind := ⟨describesObject fs, describesArray fs⟩

end Schema

end PlainSchema
