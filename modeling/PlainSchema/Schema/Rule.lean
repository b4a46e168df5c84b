/-
PlainSchema/Schema/Rule.lean

The rules that bring one mapping into the plain dialect.  Each rule that changes something
answers with the new entries if it applies and with `none` if it leaves the mapping
alone; none of them looks below the mapping's own keywords.

* `splitTypes?`: a list of types becomes one `type`, or one alternative of `oneOf`
  each, and `null` among them becomes `nullable`.
* `singleItems?`: an array has one schema for its items.
* `dropEmptyDefault?`: an object has no default that says nothing.
* `mergeEnums?`: plain string alternatives of `anyOf` join the `enum` beside them.
* `isVacuous`: an object that allows no property at all is dropped by its parent.
-/
import PlainSchema.Schema.Kind
import PlainSchema.Schema.Pointer

namespace PlainSchema

namespace Schema

/-- A list of types in which nothing but `null` is left to describe. -/
structure NullOnlyTypes where
  path : Pointer
  types : List Node
  deriving Inhabited, Repr

/-- The text of the fault. -/
def NullOnlyTypes.message (e : NullOnlyTypes) : String :=
  "type-array splitting: no types were left after removing 'null' from "
    ++ (Node.list e.types).shown ++ " at " ++ e.path.text

/-- An object schema that allows no additional properties and has none of its own. -/
def isVacuous (fs : Fields) : Bool :=
  describesObject fs
    && (fs.get? "properties").all Node.isEmptyMap
    && (match fs.get? "additionalProperties" with
      | some (.bool false) => true
      | _ => false)

/-- The mapping whose only entry is a type. -/
def typeOnly (t : Node) : Node := .map [(.str "type", t)]

/-- The mapping of string values. -/
def stringEnum (values : List Node) : Node :=
  .map [(.str "type", .str "string"), (.str "enum", .list values)]

/-- The types of a list other than `null`. -/
def describedTypes (types : List Node) : List Node := types.filter fun t => !t.isText "null"

/-- The entries with `nullable` if the list of types has `null`. -/
def markNullable (types : List Node) (fs : Fields) : Fields :=
  if types.any (Node.isText "null") then fs.put "nullable" (.bool true) else fs

/-- Replaces a list of types by `type` or `oneOf`, and `nullable` for the name `null`. -/
def splitTypes? (fs : Fields) (path : Pointer) : Except NullOnlyTypes (Option Fields) :=
  match fs.get? "type" with
  | some (.list types) =>
    let rest := markNullable types (fs.erase "type")
    match describedTypes types with
    | [] => .error ⟨path, types⟩
    | [t] => .ok (some (rest.put "type" t))
    | ts => .ok (some (rest.put "oneOf" (.list (ts.map typeOnly))))
  | _ => .ok none

/-- Gives an array schema one schema for its items: the only entry of a list, alternatives for
several, and a schema that allows everything for none. -/
def singleItems? (fs : Fields) : Option Fields :=
  if describesArray fs then
    match fs.get? "items" with
    | some (.list [x]) => some ((fs.erase "items").put "items" x)
    | some (.list []) => some ((fs.erase "items").put "items" (.map []))
    | some (.list xs) => some ((fs.erase "items").put "items" (.map [(.str "anyOf", .list xs)]))
    | some _ => none
    | none => some ((fs.erase "items").put "items" (.map []))
  else none

/-- Whether a default says nothing: it is null or an empty mapping. -/
def isSilent : Node → Bool
  | .null => true
  | d => d.isEmptyMap

/-- Drops a default that says nothing from an object schema. -/
def dropEmptyDefault? (fs : Fields) : Option Fields :=
  if describesObject fs && (fs.get? "default").any isSilent then some (fs.erase "default")
  else none

/-- Whether an alternative is a plain string: its type is `string`, and it has no other keyword
than `enum`. -/
def isPlainString : Node → Bool
  | .map fs =>
    (Fields.get? fs "type").any (Node.isText "string")
      && fs.all (fun (k, _) => k.isText "type" || k.isText "enum")
  | _ => false

/-- The values that an alternative lists. -/
def enumValues : Node → List Node
  | .map fs => match Fields.get? fs "enum" with
    | some (.list xs) => xs
    | _ => []
  | _ => []

/-- The values of the outer `enum`, then those of the plain string alternatives in order. -/
def mergedValues (outer alternatives : List Node) : List Node :=
  outer ++ (alternatives.filter isPlainString).flatMap enumValues

/-- The alternatives that are no plain strings. -/
def otherAlternatives (alternatives : List Node) : List Node :=
  alternatives.filter fun a => !isPlainString a

/-- Joins the plain string alternatives with the `enum` beside them.  If no other alternative is
left the schema becomes a plain string itself; otherwise the joined values are its first
alternative. -/
def mergeEnums? (fs : Fields) : Option Fields :=
  match fs.get? "enum", fs.get? "anyOf" with
  | some (.list outer), some (.list alternatives) =>
    let merged := mergedValues outer alternatives
    let rest := fs.erase "anyOf"
    match otherAlternatives alternatives with
    | [] => some ((rest.put "enum" (.list merged)).put "type" (.str "string"))
    | kept =>
      some (((rest.erase "enum").erase "type").put "anyOf" (.list (stringEnum merged :: kept)))
  | _, _ => none

/-! ### All rules in order -/

/-- What a rule makes of the entries: the new ones if it applies, the old ones if not. -/
def applied (rule : Fields → Option Fields) (fs : Fields) : Fields := (rule fs).getD fs

/-- The entries after the rules that cannot fail, each seeing what the one before it made. -/
def settled (fs : Fields) : Fields :=
  applied mergeEnums? (applied dropEmptyDefault? (applied singleItems? fs))

/-- The entries after all rules. -/
def applyRules (fs : Fields) (path : Pointer) : Except NullOnlyTypes Fields :=
  match splitTypes? fs path with
  | .error e => .error e
  | .ok split => .ok (settled (split.getD fs))

end Schema

end PlainSchema
