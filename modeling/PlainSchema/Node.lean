/-
PlainSchema/Node.lean

Documents as trees of plain values.  A mapping is a list of entries in the order of
the document; no key occurs twice (`Fields.put` keeps it so).  Keys are nodes too.

The cleaner looks into lists and mappings only.  Every other value, tuples and sets
among them, is one piece to it.  `shared` marks a value that a document may hold in
several places at once; it stands for the value inside, and only the writer that
can name a value and refer to it tells the two apart.

A set has no order of its own.  Its members are listed as in the document, and they are
shown and written in an order that is not known beforehand (`SetOrder`).

A tree of this kind does not hold everything that a document can (`Node.Limit`): its
texts are lists of characters, and no value is a part of itself.
-/
import PlainSchema.Binary64
import PlainSchema.Calendar

namespace PlainSchema

/-- A value of a document. -/
inductive Node where
  | null
  | bool (value : Bool)
  | int (value : Int)
  | float (value : Binary64)
  | str (text : String)
  | bytes (octets : List UInt8)
  | date (day : Date)
  | datetime (moment : DateTime)
  | list (items : List Node)
  | map (fields : List (Node × Node))
  | tuple (items : List Node)
  | set (members : List Node)
  /-- A value held in every place that carries the same label. -/
  | shared (label : List Nat) (value : Node)
  deriving Inhabited, Repr

/-- The entries of a mapping, in order. -/
abbrev Fields := List (Node × Node)

/-- The order in which a program meets the members of a set, if they are listed as in the document.
It is the same one for as long as the program runs. -/
class SetOrder where
  arrange : List Node → List Node
  arrange_perm : ∀ xs, (arrange xs).Perm xs

/-- The order of the document. -/
@[reducible] def SetOrder.written : SetOrder := ⟨fun xs => xs, fun xs => .refl xs⟩

namespace Node

/-- What a document can hold that is no `Node`. -/
inductive Limit where
  /-- A text with a half of a surrogate pair that stands alone. -/
  | half
  /-- A value that holds itself, by an alias inside the node of its own anchor. -/
  | loop
  deriving DecidableEq, Repr

/-- The words for it. -/
def Limit.message : Limit → String
  | half => "a text with half of a surrogate pair"
  | loop => "a value that holds itself"

/-! ### Labels -/

mutual
/-- The tree without its labels. -/
def unlabelled : Node → Node
  | shared _ n => n.unlabelled
  | list xs => list (unlabelledItems xs)
  | map fs => map (unlabelledFields fs)
  | tuple xs => tuple (unlabelledItems xs)
  | set xs => set (unlabelledItems xs)
  | n => n

/-- The items without their labels. -/
def unlabelledItems : List Node → List Node
  | [] => []
  | x :: xs => x.unlabelled :: unlabelledItems xs

/-- The entries without the labels in their keys and values. -/
def unlabelledFields : List (Node × Node) → List (Node × Node)
  | [] => []
  | (k, v) :: fs => (k.unlabelled, v.unlabelled) :: unlabelledFields fs
end

/-! ### Sets -/

section

variable [SetOrder]

mutual
/-- The tree with the members of its sets in the order in which they are met. -/
def arranged : Node → Node
  | set xs => set (SetOrder.arrange (arrangedItems xs))
  | list xs => list (arrangedItems xs)
  | map fs => map (arrangedFields fs)
  | tuple xs => tuple (arrangedItems xs)
  | shared label n => shared label n.arranged
  | n => n

/-- The items with the members of their sets in order. -/
def arrangedItems : List Node → List Node
  | [] => []
  | x :: xs => x.arranged :: arrangedItems xs

/-- The entries with the members of their sets in order. -/
def arrangedFields : List (Node × Node) → List (Node × Node)
  | [] => []
  | (k, v) :: fs => (k.arranged, v.arranged) :: arrangedFields fs
end

end

/-! ### Equality of keys -/

mutual
/-- Whether two nodes without labels are one key.  Numbers are compared by value, so `1`, `1.0`
and `true` are the same key; a collection that can change is no key. -/
def keyEq : Node → Node → Bool
  | null, null => true
  | bool x, bool y => x = y
  | bool x, int y => y = (if x then 1 else 0)
  | bool x, float y => y.isInt (if x then 1 else 0)
  | int x, bool y => x = (if y then 1 else 0)
  | int x, int y => x = y
  | int x, float y => y.isInt x
  | float x, bool y => x.isInt (if y then 1 else 0)
  | float x, int y => x.isInt y
  | float x, float y => x.same y
  | str x, str y => x = y
  | bytes x, bytes y => x = y
  | date x, date y => x = y
  | datetime x, datetime y => x.same y
  | tuple xs, tuple ys => keysEq xs ys
  | _, _ => false

/-- `keyEq`, item by item. -/
def keysEq : List Node → List Node → Bool
  | [], [] => true
  | x :: xs, y :: ys => keyEq x y && keysEq xs ys
  | _, _ => false
end

/-- Whether two nodes are one key. -/
def sameKey (a b : Node) : Bool := keyEq a.unlabelled b.unlabelled

end Node

/-! ### Entries -/

namespace Fields

/-- The value under a name. -/
def get? : Fields → String → Option Node
  | [], _ => none
  | (.str k, v) :: fs, name => if k = name then some v else get? fs name
  | _ :: fs, name => get? fs name

/-- Whether there is an entry with the name. -/
def has (fs : Fields) (name : String) : Bool := (fs.get? name).isSome

/-- The entries whose key is not the name. -/
def erase (fs : Fields) (name : String) : Fields :=
  fs.filter fun (k, _) => match k with
    | .str s => s ≠ name
    | _ => true

/-- The entries with a value under a name: in the place of the entry of that name, or at the
end. -/
def put : Fields → String → Node → Fields
  | [], name, v => [(.str name, v)]
  | (.str k, w) :: fs, name, v =>
    if k = name then (.str k, v) :: fs else (.str k, w) :: put fs name v
  | f :: fs, name, v => f :: put fs name v

/-- The entries with a value under any key: the last value of a key wins, and its first place
and spelling stay. -/
def insert {κ : Type} (same : κ → κ → Bool) : List (κ × Node) → κ → Node → List (κ × Node)
  | [], key, v => [(key, v)]
  | (k, w) :: fs, key, v => if same k key then (k, v) :: fs else (k, w) :: insert same fs key v

/-- Entries in the order read, each key once. -/
def ofEntries {κ : Type} (same : κ → κ → Bool) (entries : List (κ × Node)) : List (κ × Node) :=
  entries.foldl (fun fs (k, v) => insert same fs k v) []

end Fields

end PlainSchema
