/-
PlainSchema/Schema/Acceptance.lean

Which values a schema accepts, as far as its types tell: by the names of JSON Schema
for the kinds of JSON values.

A value has one kind, but the names overlap: `number` is the name for every number and
`integer` for those without a fraction, however they are written.

Three readings of a schema stand side by side, each for the keywords that one rule
deals with.

`accepts` reads a schema of types alone.  It says in one of three ways what it
accepts: by `type`, one name or a list of names of which one is enough; by `oneOf`,
of which exactly one alternative has to accept; and by `nullable` for null beside
either of them.

`admits` reads types and objects: `type`, where there is one, and for each entry of an
object the schema that `properties` has for it, or else `additionalProperties`.

`Reading.Accepts` reads a schema with an `enum` and alternatives.  What all other
keywords and the alternatives that are no plain strings accept is left open.
-/
import PlainSchema.Schema.Kind

namespace PlainSchema

/-- Whether a number has no fraction. -/
def Binary64.isIntegral : Binary64 → Bool
  | finite _ m q => 0 ≤ q || m % Nat.pow 2 (-q).toNat = 0
  | _ => false

namespace Schema

/-! ### Types -/

/-- A name for kinds of JSON values. -/
inductive TypeName where
  | string
  | number
  | integer
  | boolean
  | object
  | array
  | null
  deriving DecidableEq, Repr

namespace TypeName

/-- The text of the name. -/
def text : TypeName → String
  | string => "string"
  | number => "number"
  | integer => "integer"
  | boolean => "boolean"
  | object => "object"
  | array => "array"
  | null => "null"

/-- The name with a text. -/
def ofText? (text : String) : Option TypeName :=
  [string, number, integer, boolean, object, array, null].find? fun n => n.text = text

/-- Whether a value is of the kind. -/
def describes : TypeName → Node → Bool
  | string, .str _ => true
  | number, .int _ => true
  | number, .float _ => true
  | integer, .int _ => true
  | integer, .float x => x.isIntegral
  | boolean, .bool _ => true
  | object, .map _ => true
  | array, .list _ => true
  | null, .null => true
  | _, _ => false

end TypeName

/-- Whether a value is of the kind that a node names. -/
def isOfType (v : Node) : Node → Bool
  | .str s => (TypeName.ofText? s).any (·.describes v)
  | _ => false

/-- Whether a value is of the type of a schema: the one named, or one of those listed. -/
def hasType (v : Node) : Node → Bool
  | .list ts => ts.any (isOfType v)
  | t => isOfType v t

/-! ### Schemas of types -/

/-- Whether an alternative accepts a value by its type. -/
def alternativeAccepts (v : Node) : Node → Bool
  | .map fs => (Fields.get? fs "type").any (hasType v)
  | _ => false

/-- Whether exactly one of the alternatives in a list accepts a value. -/
def exactlyOneAccepts (v : Node) : Node → Bool
  | .list alternatives => alternatives.countP (alternativeAccepts v) = 1
  | _ => false

/-- Whether a schema allows null beside what it says otherwise. -/
def isNullable (fs : Fields) : Bool :=
  match fs.get? "nullable" with
  | some (.bool true) => true
  | _ => false

/-- Whether a schema of types accepts a value. -/
def accepts (fs : Fields) (v : Node) : Bool :=
  (isNullable fs && TypeName.null.describes v)
    || (fs.get? "type").any (hasType v)
    || (fs.get? "oneOf").any (exactlyOneAccepts v)

/-! ### Schemas of objects -/

/-- Whether a schema accepts a value before its entries are looked at.  True and false are the
schemas of all values and of none; what is no schema says nothing. -/
def allowsType (v : Node) : Node → Bool
  | .bool b => b
  | .map fs => (Fields.get? fs "type").all (hasType v)
  | _ => true

/-- The schema of a property, if a schema has one for it. -/
def property? (fs : Fields) : Node → Option Node
  | .str name => match fs.get? "properties" with
    | some (.map properties) => Fields.get? properties name
    | _ => none
  | _ => none

/-- The schema that the value under a key of an object has to meet: the property's own, or the one
for additional properties. -/
def entrySchema (key : Node) : Node → Node
  | .map fs => (property? fs key).getD ((Fields.get? fs "additionalProperties").getD (.bool true))
  | _ => .bool true

mutual
/-- Whether a schema of types, properties and additional properties accepts a value. -/
def admits (schema : Node) : Node → Bool
  | .map entries => allowsType (.map entries) schema && admitsEntries schema entries
  | v => allowsType v schema

/-- Whether a schema accepts the entries of an object. -/
def admitsEntries (schema : Node) : List (Node × Node) → Bool
  | [] => true
  | (k, v) :: entries => admits (entrySchema k schema) v && admitsEntries schema entries
end

/-- A node that stands under `type` gives the name. -/
def Names (t : Node) (n : TypeName) : Prop := t.isText n.text = true ∨ t.listsText n.text = true

/-! ### Schemas with enums and alternatives -/

/-- An alternative that says of a value that it is a string, and at most which strings there are. -/
def PlainString (a : Node) : Prop :=
  ∃ fs : Fields, a = .map fs ∧ fs.get? "type" = some (.str "string") ∧
    ∀ f ∈ fs, f.1 = .str "type" ∨ f.1 = .str "enum"

/-- How those parts of a schema are read of which joining enums knows nothing. -/
structure Reading where
  /-- Whether a listed value is the same as a value. -/
  same : Node → Node → Prop
  /-- Whether an alternative that is no plain string accepts a value. -/
  alternative : Node → Node → Prop
  /-- Whether the entries besides `enum`, `type` and `anyOf` accept a value. -/
  others : Fields → Node → Prop

namespace Reading

variable (r : Reading)

/-- A value is one of those listed. -/
def Lists (values : List Node) (v : Node) : Prop := ∃ x ∈ values, r.same x v

/-- An alternative accepts a value: a plain string accepts strings, and only those of its list if
it has one. -/
structure AcceptsAsAlternative (a v : Node) : Prop where
  string : PlainString a → TypeName.string.describes v = true
  listed : PlainString a → ∀ fs values, a = .map fs →
    Fields.get? fs "enum" = some (.list values) → r.Lists values v
  other : ¬ PlainString a → r.alternative a v

/-- Whether a key is none of `enum`, `type` and `anyOf`. -/
def isOther (key : Node) : Bool := ["enum", "type", "anyOf"].all fun name => !key.isText name

/-- The entries besides `enum`, `type` and `anyOf`. -/
def otherEntries (fs : Fields) : Fields := fs.filter fun f => isOther f.1

/-- A schema accepts a value: all its keywords do. -/
structure Accepts (fs : Fields) (v : Node) : Prop where
  enum : ∀ values, fs.get? "enum" = some (.list values) → r.Lists values v
  type : ∀ t, fs.get? "type" = some t → hasType v t = true
  anyOf : ∀ alternatives, fs.get? "anyOf" = some (.list alternatives) →
    ∃ a ∈ alternatives, r.AcceptsAsAlternative a v
  others : r.others (otherEntries fs) v

end Reading

end Schema

end PlainSchema
