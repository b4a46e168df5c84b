/-
PlainSchema/Yaml/Tree.lean

The tree that the tokens of a document describe.  Every node has a tag and a label
of its own; an alias stands for the node of its anchor, label included.  An alias may
stand inside the node of its anchor, which then holds itself: the tree ends there in
the label of that node (`again`).

A text holds at most one document.  A node may be left out where one is expected in
a collection; it is an empty plain scalar then.
-/
import PlainSchema.Yaml.Tag
import PlainSchema.Yaml.Token.Stream

namespace PlainSchema

namespace Yaml

/-- A node of a document. -/
inductive Tree where
  | scalar (label : Nat) (tag text : String)
  /-- A scalar whose text has a half of a surrogate pair. -/
  | torn (label : Nat) (tag : String) (codes : List Text.Code)
  | sequence (label : Nat) (tag : String) (items : List Tree)
  | mapping (label : Nat) (tag : String) (entries : List (Tree × Tree))
  /-- The node around it that has the label. -/
  | again (label : Nat) (tag : String)
  deriving Inhabited

namespace Tree

/-- The label of a node. -/
def label : Tree → Nat
  | scalar l _ _ => l
  | torn l _ _ => l
  | sequence l _ _ => l
  | mapping l _ _ => l
  | again l _ => l

/-- The tag of a node. -/
def tag : Tree → String
  | scalar _ t _ => t
  | torn _ t _ => t
  | sequence _ t _ => t
  | mapping _ t _ => t
  | again _ t => t

/-! ### What a tree has in it -/

mutual
/-- Whether there is a node without members in the tree that is as wanted. -/
def anyLeaf (p : Tree → Bool) : Tree → Bool
  | sequence _ _ ts => anyLeafOfItems p ts
  | mapping _ _ es => anyLeafOfEntries p es
  | t => p t

/-- Whether there is such a node in an item. -/
def anyLeafOfItems (p : Tree → Bool) : List Tree → Bool
  | [] => false
  | t :: ts => t.anyLeaf p || anyLeafOfItems p ts

/-- Whether there is such a node in a key or a value. -/
def anyLeafOfEntries (p : Tree → Bool) : List (Tree × Tree) → Bool
  | [] => false
  | (k, v) :: es => k.anyLeaf p || v.anyLeaf p || anyLeafOfEntries p es
end

/-- Whether there is a text with a half of a surrogate pair in the tree. -/
def hasHalf (t : Tree) : Bool :=
  t.anyLeaf fun
    | torn .. => true
    | _ => false

/-- Whether there is a node in the tree that holds itself. -/
def hasLoop (t : Tree) : Bool :=
  t.anyLeaf fun
    | again .. => true
    | _ => false

/-! ### Halves of surrogate pairs -/

mutual
/-- The tree with the spellings of its strings in their stead. -/
def spelled : Tree → Tree
  | scalar l tag text =>
    if tag = standard "str" then scalar l tag (Text.spelling text) else scalar l tag text
  | torn l tag codes =>
    if tag = standard "str" then scalar l tag (String.ofList (Text.spelled codes))
    else torn l tag codes
  | sequence l tag ts => sequence l tag (spelledItems ts)
  | mapping l tag es => mapping l tag (spelledEntries es)
  | again l tag => again l tag

/-- The items with spelled strings. -/
def spelledItems : List Tree → List Tree
  | [] => []
  | t :: ts => t.spelled :: spelledItems ts

/-- The entries with spelled strings. -/
def spelledEntries : List (Tree × Tree) → List (Tree × Tree)
  | [] => []
  | (k, v) :: es => (k.spelled, v.spelled) :: spelledEntries es
end

end Tree

/-! ### The state of reading -/

/-- What is left to read, and what has been named so far. -/
structure Reading where
  tokens : List Token
  /-- The fault behind the last token, if the text does not end there. -/
  fault : Option Fault
  /-- The anchors so far and what an alias of each stands for, the last first. -/
  anchors : List (String × Tree)
  nextLabel : Nat
  handles : List (String × String)

namespace Reading

/-- The next token; `none` at the end of the text. -/
def peek (r : Reading) : Except Fault (Option Token) :=
  match r.tokens, r.fault with
  | t :: _, _ => .ok (some t)
  | [], some e => .error e
  | [], none => .ok none

/-- The state behind the next token. -/
def drop (r : Reading) : Reading := { r with tokens := r.tokens.drop 1 }

/-- Whether the next token is one of the given ones. -/
def isAt (r : Reading) (ts : List Token) : Except Fault Bool := do
  return (← r.peek).any ts.contains

/-- A label that no node has yet. -/
def fresh (r : Reading) : Nat × Reading := (r.nextLabel, { r with nextLabel := r.nextLabel + 1 })

/-- Refuses an anchor that another node has. -/
def claim (r : Reading) (anchor : Option String) : Except Fault Unit :=
  match anchor with
  | none => .ok ()
  | some name => if r.anchors.any fun a => a.1 = name then .error .malformed else .ok ()

/-- The state in which an anchor stands for a node. -/
def named (r : Reading) (anchor : Option String) (t : Tree) : Reading :=
  match anchor with
  | none => r
  | some name => { r with anchors := (name, t) :: r.anchors }

/-- A node that is left out. -/
def omitted (r : Reading) : Tree × Reading :=
  let (label, r) := r.fresh
  (.scalar label (plainTag "") "", r)

/-- The node of an anchor. -/
def aliased (r : Reading) (name : String) : Except Fault (Tree × Reading) :=
  match r.anchors.find? fun a => a.1 = name with
  | some (_, t) => .ok (t, r)
  | none => .error .malformed

/-- The tag that a tag token stands for. -/
def fullTag (r : Reading) (handle : Option String) (suffix : String) : Except Fault String :=
  match handle with
  | none => .ok suffix
  | some h =>
    match r.handles.find? fun p => p.1 = h with
    | some (_, start) => .ok (start ++ suffix)
    | none => .error .malformed

/-- The anchor and the tag in front of a node, in either order. -/
def properties (r : Reading) : Except Fault (Option String × Option String × Reading) := do
  match ← r.peek with
  | some (.anchor name) =>
    let r := r.drop
    match ← r.peek with
    | some (.tag h s) => return (some name, some (← r.fullTag h s), r.drop)
    | _ => return (some name, none, r)
  | some (.tag h s) =>
    let r := r.drop
    match ← r.peek with
    | some (.anchor name) => return (some name, some (← r.fullTag h s), r.drop)
    | _ => return (none, some (← r.fullTag h s), r)
  | _ => return (none, none, r)

end Reading

/-- A tag, unless it is left out or a lone exclamation mark. -/
def tagOr (default : String) (tag : Option String) : String :=
  match tag with
  | none => default
  | some "!" => default
  | some t => t

/-! ### Nodes -/

mutual
/-- The node at the place.  `block` tells whether it may be a block collection, and `indentless`
whether a block sequence may start without being further in. -/
def node (bound : Nat) (block indentless : Bool) (r : Reading) : Except Fault (Tree × Reading) :=
  match bound with
  | 0 => .error .malformed
  | bound + 1 => do
    if let some (.alias name) ← r.peek then
      return ← r.drop.aliased name
    let (anchor, tag, r) ← r.properties
    let next ← r.peek
    r.claim anchor
    let (label, r) := r.fresh
    let sequenceTag := tagOr (standard "seq") tag
    let mappingTag := tagOr (standard "map") tag
    -- While a collection is being read, its anchor stands for its label.
    let inSequence := r.named anchor (.again label sequenceTag)
    let inMapping := r.named anchor (.again label mappingTag)
    let sequence := fun (found : List Tree × Reading) =>
      let t := Tree.sequence label sequenceTag found.1
      (t, found.2.named anchor t)
    let mapping := fun (found : List (Tree × Tree) × Reading) =>
      let t := Tree.mapping label mappingTag found.1
      (t, found.2.named anchor t)
    let scalar := fun (text : String) (plain : Bool) (r : Reading) =>
      let untagged := if plain || tag = some "!" then plainTag text else standard "str"
      let t := Tree.scalar label (tagOr untagged tag) text
      (t, r.named anchor t)
    let torn := fun (codes : List Text.Code) (r : Reading) =>
      let t := Tree.torn label (tagOr (standard "str") tag) codes
      (t, r.named anchor t)
    match next with
    | some .blockEntry =>
      if indentless then return sequence (← indentlessItems bound inSequence)
      else if anchor.isSome || tag.isSome then return scalar "" true r
      else throw .malformed
    | some (.scalar text plain) => return scalar text plain r.drop
    | some (.torn codes) => return torn codes r.drop
    | some .flowSequenceStart => return sequence (← flowItems bound true inSequence.drop)
    | some .flowMappingStart => return mapping (← flowEntries bound true inMapping.drop)
    | t =>
      if block && t = some .blockSequenceStart then
        return sequence (← blockItems bound inSequence.drop)
      else if block && t = some .blockMappingStart then
        return mapping (← blockEntries bound inMapping.drop)
      else if anchor.isSome || tag.isSome then return scalar "" true r
      else throw .malformed

/-- A node, or nothing in front of one of the given tokens. -/
def nodeUnless (bound : Nat) (block indentless : Bool) (ends : List Token) (r : Reading) :
    Except Fault (Tree × Reading) :=
  match bound with
  | 0 => .error .malformed
  | bound + 1 => do
    if ← r.isAt ends then return r.omitted
    node bound block indentless r

/-- The items of a block sequence, up to its end. -/
def blockItems (bound : Nat) (r : Reading) : Except Fault (List Tree × Reading) :=
  match bound with
  | 0 => .error .malformed
  | bound + 1 => do
    match ← r.peek with
    | some .blockEntry =>
      let (t, r) ← nodeUnless bound true false [.blockEntry, .blockEnd] r.drop
      let (ts, r) ← blockItems bound r
      return (t :: ts, r)
    | some .blockEnd => return ([], r.drop)
    | _ => throw .malformed

/-- The items of a block sequence that is not further in than the key in front of it. -/
def indentlessItems (bound : Nat) (r : Reading) : Except Fault (List Tree × Reading) :=
  match bound with
  | 0 => .error .malformed
  | bound + 1 => do
    match ← r.peek with
    | some .blockEntry =>
      let (t, r) ← nodeUnless bound true false [.blockEntry, .key, .value, .blockEnd] r.drop
      let (ts, r) ← indentlessItems bound r
      return (t :: ts, r)
    | _ => return ([], r)

/-- The entries of a block mapping, up to its end. -/
def blockEntries (bound : Nat) (r : Reading) : Except Fault (List (Tree × Tree) × Reading) :=
  match bound with
  | 0 => .error .malformed
  | bound + 1 => do
    let ends := [Token.key, .value, .blockEnd]
    match ← r.peek with
    | some .key =>
      let (k, r) ← nodeUnless bound true true ends r.drop
      let (v, r) ←
        if (← r.peek) = some .value then nodeUnless bound true true ends r.drop
        else pure r.omitted
      let (es, r) ← blockEntries bound r
      return ((k, v) :: es, r)
    | some .blockEnd => return ([], r.drop)
    | _ => throw .malformed

/-- The items of a flow sequence, up to its end; an item may be a mapping of one entry. -/
def flowItems (bound : Nat) (first : Bool) (r : Reading) : Except Fault (List Tree × Reading) :=
  match bound with
  | 0 => .error .malformed
  | bound + 1 => do
    if (← r.peek) = some .flowSequenceEnd then return ([], r.drop)
    let r ←
      if first then pure r
      else if (← r.peek) = some .flowEntry then pure r.drop
      else throw .malformed
    match ← r.peek with
    | some .flowSequenceEnd => return ([], r.drop)
    | some .key =>
      let (label, r) := r.fresh
      let (k, r) ← nodeUnless bound false false [.value, .flowEntry, .flowSequenceEnd] r.drop
      let (v, r) ←
        if (← r.peek) = some .value then
          nodeUnless bound false false [.flowEntry, .flowSequenceEnd] r.drop
        else pure r.omitted
      let (ts, r) ← flowItems bound false r
      return (.mapping label (standard "map") [(k, v)] :: ts, r)
    | _ =>
      let (t, r) ← node bound false false r
      let (ts, r) ← flowItems bound false r
      return (t :: ts, r)

/-- The entries of a flow mapping, up to its end; a key may stand without a value. -/
def flowEntries (bound : Nat) (first : Bool) (r : Reading) :
    Except Fault (List (Tree × Tree) × Reading) :=
  match bound with
  | 0 => .error .malformed
  | bound + 1 => do
    if (← r.peek) = some .flowMappingEnd then return ([], r.drop)
    let r ←
      if first then pure r
      else if (← r.peek) = some .flowEntry then pure r.drop
      else throw .malformed
    match ← r.peek with
    | some .flowMappingEnd => return ([], r.drop)
    | some .key =>
      let (k, r) ← nodeUnless bound false false [.value, .flowEntry, .flowMappingEnd] r.drop
      let (v, r) ←
        if (← r.peek) = some .value then
          nodeUnless bound false false [.flowEntry, .flowMappingEnd] r.drop
        else pure r.omitted
      let (es, r) ← flowEntries bound false r
      return ((k, v) :: es, r)
    | _ =>
      let (k, r) ← node bound false false r
      let (v, r) := r.omitted
      let (es, r) ← flowEntries bound false r
      return ((k, v) :: es, r)
end

/-! ### The document -/

/-- The handles that every document knows. -/
def defaultHandles : List (String × String) := [("!", "!"), ("!!", standard "")]

/-- The state behind the directives of a document, which name a version at most once and each
handle at most once. -/
def directives : Nat → Bool → List (String × String) → Reading → Except Fault Reading
  | 0, _, _, _ => .error .malformed
  | bound + 1, versioned, handles, r => do
    match ← r.peek with
    | some (.directive (.version major)) =>
      if versioned || major ≠ 1 then throw .malformed
      directives bound true handles r.drop
    | some (.directive (.tag handle start)) =>
      if handles.any fun h => h.1 = handle then throw .malformed
      directives bound versioned ((handle, start) :: handles) r.drop
    | some (.directive .other) => directives bound versioned handles r.drop
    | _ => return { r with handles := handles ++ defaultHandles }

/-- Refuses whatever follows the ends of a document. -/
def onlyEnds : Nat → Reading → Except Fault Unit
  | 0, _ => .error .malformed
  | bound + 1, r => do
    match ← r.peek with
    | none => return ()
    | some .documentEnd => onlyEnds bound r.drop
    | _ => do
      -- The directives of a second document are read before it is refused.
      let _ ← directives bound false [] r
      throw .malformed

/-- The only document of a text; `none` if the text is empty. -/
def Tree.ofTokens? (ts : Tokens) : Except Fault (Option Tree) := do
  let bound := 4 * ts.tokens.length + 8
  let r : Reading := ⟨ts.tokens, ts.fault, [], 0, defaultHandles⟩
  let (t, r) ←
    match ← r.peek with
    | none => return none
    | some (.directive _) | some .documentStart => do
      let r ← directives bound false [] r
      if (← r.peek) ≠ some .documentStart then throw .malformed
      let r := r.drop
      match ← r.peek with
      | none | some (.directive _) | some .documentStart | some .documentEnd => pure r.omitted
      | _ => node bound true false r
    | _ => node bound true false r
  onlyEnds bound r
  return some t

/-- The only document of a YAML text; `none` if the text is empty. -/
def Tree.ofText? (text : List Char) : Except Fault (Option Tree) :=
  Tree.ofTokens? (Tokens.ofText text)

end Yaml

end PlainSchema
