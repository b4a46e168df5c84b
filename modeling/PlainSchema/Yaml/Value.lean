/-
PlainSchema/Yaml/Value.lean

The value of a document's tree.  Collections are looked at in rounds: the members of
a collection that are scalars get their values at once, those that are collections
are looked at in the next round.  Of several faults in a tree the first one in this
order counts.

The order shows in other ways too, as a node may stand in several places.  A value
key is no scalar, but once a mapping has been looked at its value keys are strings
wherever they stand; and a mapping whose merge keys have been replaced is without
them everywhere.  What a node stands for is found only once.

Values that a document can hold in several places at once are labelled: days,
moments, sets and the pairs of ordered mappings everywhere, lists and mappings only
inside such pairs.

A document that holds itself has no value here, but its outer levels have one
(`readOuter`).  Nor has a document with a half of a surrogate pair in a text; what it
would be shows in the value of the document with its strings spelled (`readSpelled`).
-/
import Std.Data.HashMap
import PlainSchema.Yaml.Merge
import PlainSchema.Yaml.Scalar

namespace PlainSchema

namespace Yaml

/-- The names of the tags of collections. -/
def collectionTags : List String :=
  [standard "map", standard "seq", standard "set", standard "omap", standard "pairs"]

/-! ### What is known of a tree -/

/-- What a node stands for. -/
inductive Part where
  /-- A scalar's value; `saysNan` tells whether it is the word for what is not a number. -/
  | scalar (value : Node) (saysNan : Bool)
  /-- A collection that is still to be looked at. -/
  | waiting
  | list (items : List Tree)
  | map (entries : List (Tree × Tree))
  | set (entries : List (Tree × Tree))
  | pairs (entries : List (Tree × Tree))

/-- What is known of a tree so far. -/
structure Survey where
  /-- What the nodes stand for, by their labels. -/
  parts : Std.HashMap Nat Part
  /-- The collections to look at in the next round, the last one first. -/
  waiting : List Tree
  /-- The labels of the value keys that are strings by now. -/
  strings : List Nat
  /-- The labels of the mappings whose merge keys have been replaced. -/
  merged : List Nat

namespace Survey

/-- Nothing is known yet. -/
def start : Survey := ⟨∅, [], [], []⟩

/-- The tag of a node by now. -/
def tag (s : Survey) (t : Tree) : String :=
  if t.tag = standard "value" && s.strings.contains t.label then standard "str" else t.tag

mutual
/-- The text of a scalar, or of the value that a mapping has under its value key. -/
def text (s : Survey) : Tree → Except Fault String
  | .scalar _ _ text => .ok text
  | .torn .. | .sequence .. => .error .malformed
  | .mapping _ _ es => s.valueText es
  | .again .. => .error (.beyond .loop)

/-- The text of the value under the value key. -/
def valueText (s : Survey) : List (Tree × Tree) → Except Fault String
  | [] => .error .malformed
  | (k, v) :: es => if s.tag k = standard "value" then s.text v else s.valueText es
end

/-! ### Looking at nodes -/

/-- What a node stands for that is not a collection. -/
def scalar (s : Survey) (t : Tree) : Except Fault Part :=
  match s.text t with
  | .error e => .error e
  | .ok text =>
    let tag := s.tag t
    match t with
    | .mapping .. =>
      if tag = standard "timestamp" then .error .mappedTimestamp else known tag text
    | _ => known tag text
where
  /-- The value of a text with a tag. -/
  known (tag text : String) : Except Fault Part :=
    match scalarValue? tag text with
    | some v => v.map fun v => .scalar v (saysNan text)
    | none => .error .malformed

/-- The survey with what a node stands for. -/
def visit (s : Survey) (t : Tree) : Except Fault Survey :=
  if s.parts.contains t.label then .ok s
  else if collectionTags.contains (s.tag t) then
    .ok { s with parts := s.parts.insert t.label .waiting, waiting := t :: s.waiting }
  else (s.scalar t).map fun p => { s with parts := s.parts.insert t.label p }

/-- The survey with what a key and its value stand for. -/
def visitEntry (s : Survey) (entry : Tree × Tree) : Except Fault Survey := do
  (← s.visit entry.1).visit entry.2

/-- The survey with what the entries of a mapping stand for, and these entries.  A key that is a
collection is refused. -/
def visitMapping (s : Survey) : Tree → Except Fault (Survey × List (Tree × Tree))
  | .mapping label _ es => do
    let m ← merge es
    let keys := m.entries.filter fun (k, _) => k.tag = standard "value"
    let s := { s with
      strings := keys.map (fun (k, _) => k.label) ++ s.strings
      merged := label :: m.sources ++ s.merged }
    let s ← m.entries.foldlM (fun s (k, v) =>
      if collectionTags.contains k.tag then .error .malformed else s.visitEntry (k, v)) s
    return (s, m.entries)
  | .again .. => .error (.beyond .loop)
  | _ => .error .malformed

/-- The entries of a mapping by now. -/
def entriesOf (s : Survey) (label : Nat) (es : List (Tree × Tree)) :
    Except Fault (List (Tree × Tree)) :=
  if s.merged.contains label then (merge es).map Merged.entries else .ok es

/-- The survey with what the pairs of an ordered mapping stand for, and these pairs.  Each item is
a mapping of one entry. -/
def visitPairs (s : Survey) : List Tree → Except Fault (Survey × List (Tree × Tree))
  | [] => .ok (s, [])
  | .mapping label _ es :: ts => do
    match ← s.entriesOf label es with
    | [e] =>
      let s ← s.visitEntry e
      let (s, more) ← s.visitPairs ts
      return (s, e :: more)
    | _ => throw .malformed
  | .again .. :: _ => .error (.beyond .loop)
  | _ :: _ => .error .malformed

/-- The survey with what a collection stands for. -/
def look (s : Survey) (t : Tree) : Except Fault Survey := do
  let (s, part) ←
    if t.tag = standard "map" then (s.visitMapping t).map fun (s, es) => (s, Part.map es)
    else if t.tag = standard "set" then (s.visitMapping t).map fun (s, es) => (s, Part.set es)
    else match t with
      | .sequence _ _ ts =>
        if t.tag = standard "seq" then (ts.foldlM visit s).map fun s => (s, Part.list ts)
        else (s.visitPairs ts).map fun (s, es) => (s, Part.pairs es)
      | .again .. => throw (.beyond .loop)
      | _ => throw .malformed
  return { s with parts := s.parts.insert t.label part }

/-- The survey after some rounds. -/
def rounds : Nat → Survey → Except Fault Survey
  | 0, s => if s.waiting.isEmpty then .ok s else .error .malformed
  | n + 1, s => do
    match s.waiting.reverse with
    | [] => return s
    | ts => rounds n (← ts.foldlM look { s with waiting := [] })

end Survey

mutual
/-- The number of levels of a tree. -/
def Tree.levels : Tree → Nat
  | .scalar .. | .torn .. | .again .. => 1
  | .sequence _ _ ts => 1 + itemLevels ts
  | .mapping _ _ es => 1 + entryLevels es

/-- The greatest number of levels of an item. -/
def itemLevels : List Tree → Nat
  | [] => 0
  | t :: ts => max t.levels (itemLevels ts)

/-- The greatest number of levels of a key or value. -/
def entryLevels : List (Tree × Tree) → Nat
  | [] => 0
  | (k, v) :: es => max (max k.levels v.levels) (entryLevels es)
end

/-- What is known of a whole tree, which needs no more rounds than it has levels. -/
def Survey.of (t : Tree) : Except Fault Survey := do (← Survey.start.visit t).rounds t.levels

/-! ### Values -/

/-- A key of a mapping, and what tells it from other keys. -/
structure Key where
  value : Node
  /-- The label of its node; the word for what is not a number needs none. -/
  label : Option Nat

/-- Whether two keys of a document are one.  What is not a number is the same key only as the
same node or by the word for it. -/
def Key.same (a b : Key) : Bool :=
  a.value.sameKey b.value || (match a.value, b.value with
    | .float .nan, .float .nan => a.label = b.label
    | _, _ => false)

/-- A list or mapping as it stands inside a pair, or outside. -/
def labelledIn (pair : Bool) (label : Nat) (n : Node) : Node :=
  if pair then .shared [label] n else n

/-- A scalar's value; days and moments are labelled. -/
def labelledScalar (label : Nat) : Node → Node
  | .date d => .shared [label] (.date d)
  | .datetime t => .shared [label] (.datetime t)
  | n => n

namespace Survey

/-- The key that a node stands for. -/
def key? (s : Survey) (t : Tree) : Option Key :=
  match s.parts.get? t.label with
  | some (.scalar v saysNan) =>
    some ⟨labelledScalar t.label v, if saysNan then none else some t.label⟩
  | _ => none

/-- The value that a node stands for, down to some levels, with the same for what is deeper.  `pair`
tells whether it is inside the pair of an ordered mapping. -/
def value? (s : Survey) (deeper : Option Node) (pair : Bool) : Nat → Tree → Option Node
  | 0, _ => deeper
  | levels + 1, t => do
    let fields := fun (es : List (Tree × Tree)) => do
      let es ← es.mapM fun (k, v) => do return (← s.key? k, ← s.value? deeper pair levels v)
      return (Fields.ofEntries Key.same es).map fun (k, v) => (k.value, v)
    match ← s.parts.get? t.label with
    | .scalar v _ => return labelledScalar t.label v
    | .waiting => none
    | .list ts => return labelledIn pair t.label (.list (← ts.mapM (s.value? deeper pair levels)))
    | .map es => return labelledIn pair t.label (.map (← fields es))
    | .set es => return .shared [t.label] (.set ((← fields es).map Prod.fst))
    | .pairs es =>
      let ps ← es.zipIdx.mapM fun ((k, v), i) => do
        return .shared [t.label, i]
          (.tuple [← s.value? deeper true levels k, ← s.value? deeper true levels v])
      return labelledIn pair t.label (.list ps)

end Survey

/-- The value of a document's tree. -/
def Tree.value (t : Tree) : Except Fault Node := do
  match (← Survey.of t).value? none false t.levels t with
  | some n => return n
  | none => throw .malformed

/-- How much is made out of a value that holds itself. -/
def outerLevels : Nat := 3

/-- The outer levels of the value of a document's tree, with null for what is deeper. -/
def Tree.outer (t : Tree) : Except Fault Node := do
  match (← Survey.of t).value? (some .null) false outerLevels t with
  | some n => return n
  | none => throw .malformed

/-- The value of a document's tree, or its outer levels if it holds itself. -/
def Tree.shown (t : Tree) : Except Fault Node := if t.hasLoop then t.outer else t.value

/-- What the tree shows with its strings spelled, if there are halves in strings only.  A spelled
string is as good as the string itself where strings are only compared; what the tree stands for is
in doubt only where a fault is about one. -/
def Tree.spelledShown (t : Tree) : Except Fault Node :=
  if t.spelled.hasHalf then .error (.beyond .half)
  else match t.spelled.shown with
    | .error .malformed => .error .malformed
    | .error _ => .error (.beyond .half)
    | .ok n => .ok n

/-- What the tree shows, if there is no half in it. -/
def Tree.seen (t : Tree) : Except Fault Node := do
  if t.hasHalf then
    let _ ← t.spelledShown
    throw (.beyond .half)
  else t.shown

/-- The value of the document that a text holds, or its outer levels if it holds itself; an empty
text stands for null. -/
def readOuter (text : List Char) : Except Fault Node := do
  match ← Tree.ofText? text with
  | none => return .null
  | some t => t.seen

/-- The same with the spellings of all strings in their stead. -/
def readSpelled (text : List Char) : Except Fault Node := do
  match ← Tree.ofText? text with
  | none => return .null
  | some t => t.spelledShown

/-- The value of the document that a text holds; an empty text stands for null. -/
def read (text : List Char) : Except Fault Node := do
  match ← Tree.ofText? text with
  | none => return .null
  | some t =>
    let n ← t.seen
    if t.hasLoop then throw (.beyond .loop) else return n

end Yaml

end PlainSchema
