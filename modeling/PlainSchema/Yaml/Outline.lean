/-
PlainSchema/Yaml/Outline.lean

A document as it is written in YAML: scalars with the names of their tags and their
texts, sequences and mappings.  Tuples are sequences, sets are mappings to null.

A value that the document holds in several places is written once and referred to
from the other places.  `repeated` lists the labels of such values, in the order in
which their second places are met; this order numbers their anchors.

The members of a set are written in the order in which they stand.
-/
import PlainSchema.Text.Base64
import PlainSchema.Node.Display
import PlainSchema.Text.Integer

namespace PlainSchema

namespace Yaml

/-- A label, if the value has one. -/
abbrev Mark := Option (List Nat)

/-- A document as it is written. -/
inductive Outline where
  /-- A scalar; `block` asks for a literal block. -/
  | scalar (mark : Mark) (tag text : String) (block : Bool)
  | sequence (mark : Mark) (items : List Outline)
  | mapping (mark : Mark) (tag : String) (entries : List (Outline × Outline))
  deriving Inhabited

namespace Outline

/-- The label of a value. -/
def mark : Outline → Mark
  | scalar m .. => m
  | sequence m _ => m
  | mapping m .. => m

/-- The same value with a label. -/
def marked (label : List Nat) : Outline → Outline
  | scalar _ tag text block => scalar (some label) tag text block
  | sequence _ items => sequence (some label) items
  | mapping _ tag entries => mapping (some label) tag entries

end Outline

/-- Numbers in YAML: a point stands in front of every exponent. -/
def floatStyle : Binary64.NumberStyle :=
  { numberStyle with
    bareFraction := ".0", infinity := ".inf", minusInfinity := "-.inf", notANumber := ".nan" }

/-- The outline of null. -/
def nullOutline : Outline := .scalar none "null" "null" false

mutual
/-- The outline of a value. -/
def outline : Node → Except Text.LongInteger Outline
  | .null => .ok nullOutline
  | .bool b => .ok (.scalar none "bool" (if b then "true" else "false") false)
  | .int i =>
    if Text.digitLimit < (toString i.natAbs).length then .error {}
    else .ok (.scalar none "int" (toString i) false)
  | .float x => .ok (.scalar none "float" (x.format floatStyle) false)
  | .str s => .ok (.scalar none "str" s false)
  | .bytes bs => .ok (.scalar none "binary" (String.ofList (Text.Base64.lines bs)) true)
  | .date d => .ok (.scalar none "timestamp" d.isoText false)
  | .datetime t => .ok (.scalar none "timestamp" (t.isoText " ") false)
  | .list xs => (outlines xs).map (.sequence none)
  | .tuple xs => (outlines xs).map (.sequence none)
  | .map fs => (entryOutlines fs).map (.mapping none "map")
  | .set xs => (outlines xs).map fun os => .mapping none "set" (os.map fun o => (o, nullOutline))
  | .shared label n => (outline n).map (·.marked label)

/-- The outlines of items. -/
def outlines : List Node → Except Text.LongInteger (List Outline)
  | [] => .ok []
  | x :: xs =>
    match outline x with
    | .error e => .error e
    | .ok o => (outlines xs).map (o :: ·)

/-- The outlines of entries. -/
def entryOutlines : List (Node × Node) → Except Text.LongInteger (List (Outline × Outline))
  | [] => .ok []
  | (k, v) :: fs =>
    match outline k with
    | .error e => .error e
    | .ok k =>
      match outline v with
      | .error e => .error e
      | .ok v => (entryOutlines fs).map ((k, v) :: ·)
end

/-! ### Values in several places -/

/-- The labels met so far, and those met more than once. -/
structure Met where
  once : List (List Nat)
  again : List (List Nat)

/-- Meets a value; tells whether it is met for the first time. -/
def Met.meet (s : Met) (m : Mark) : Bool × Met :=
  match m with
  | none => (true, s)
  | some label =>
    if s.once.contains label then
      (false, if s.again.contains label then s else { s with again := s.again ++ [label] })
    else (true, { s with once := label :: s.once })

mutual
/-- Meets a value and, the first time, its parts. -/
def Outline.meet (s : Met) : Outline → Met
  | .scalar m .. => (s.meet m).2
  | .sequence m os =>
    match s.meet m with
    | (true, s) => meetItems s os
    | (false, s) => s
  | .mapping m _ es =>
    match s.meet m with
    | (true, s) => meetEntries s es
    | (false, s) => s

/-- Meets items in order. -/
def meetItems (s : Met) : List Outline → Met
  | [] => s
  | o :: os => meetItems (o.meet s) os

/-- Meets keys and values in order. -/
def meetEntries (s : Met) : List (Outline × Outline) → Met
  | [] => s
  | (k, v) :: es => meetEntries (v.meet (k.meet s)) es
end

/-- The labels that stand in several places. -/
def Outline.repeated (o : Outline) : List (List Nat) := (o.meet ⟨[], []⟩).again

end Yaml

end PlainSchema
