/-
PlainSchema/Yaml/Writer.lean

Writing YAML documents: collections in blocks, two columns further in for each
level, a sequence under a key in the column of the key.  A scalar is plain if it
reads back as what it is; a string that would not is quoted, and any other value is
tagged.
-/
import PlainSchema.Yaml.Outline
import PlainSchema.Yaml.Pen
import PlainSchema.Yaml.Tag

namespace PlainSchema

namespace Yaml

/-! ### Styles of scalars -/

/-- What a text allows. -/
structure Analysis where
  empty : Bool
  multiline : Bool
  plain : Bool
  single : Bool
  block : Bool

/-- Whether the character makes double quotes necessary. -/
def isSpecial (c : Char) : Bool :=
  let n := c.toNat
  !(c = '\n' || (0x20 ≤ n && n ≤ 0x7e))
    && (c = '\ufeff' || !(n = 0x85 || (0xa0 ≤ n && n ≤ 0xd7ff) || (0xe000 ≤ n && n ≤ 0xfffd)
      || (0x10000 ≤ n && n < 0x10ffff)))

/-- The characters of a text with their neighbours. -/
def neighbours (cs : List Char) : List (Char × Char) := cs.zip (cs.drop 1)

/-- Whether the text has a sign in it that means something outside of quotes. -/
def hasIndicator (cs : List Char) : Bool :=
  let followed := (cs.drop 1).head?.all isGap
  let first := cs.headD ' '
  let second := fun (a : Char) (b : Option Char) => a = ':' && b.all isGap
  (cs.take 3 = ['-', '-', '-'] || cs.take 3 = ['.', '.', '.'])
    || "#,[]\x7b\x7d&*!|>'\"%@\x60".toList.contains first
    || ((first = '?' || first = ':' || first = '-') && followed)
    || (neighbours cs).any (fun (a, b) => b = '#' && isGap a)
    || (neighbours (cs.drop 1)).any (fun (a, b) => second a (some b))
    || (1 < cs.length && second (cs.getLastD ' ') none)

/-- What a text allows. -/
def analyse (cs : List Char) : Analysis :=
  if cs.isEmpty then ⟨true, false, true, true, false⟩
  else
    let atEnd := fun p => cs.head?.any p || cs.getLast?.any p
    let multiline := cs.any isWrittenBreak
    let breakSpace := (neighbours cs).any fun (a, b) => isWrittenBreak a && b = ' '
    let spaceBreak := (neighbours cs).any fun (a, b) => a = ' ' && isWrittenBreak b
    let special := spaceBreak || cs.any isSpecial
    { empty := false
      multiline := multiline
      plain := !(atEnd (· = ' ') || atEnd isWrittenBreak || breakSpace || special || multiline
        || hasIndicator cs)
      single := !(breakSpace || special)
      block := !(cs.getLast? = some ' ' || special) }

/-- How a scalar is written. -/
inductive Style where
  | plain
  | single
  | double
  | block
  deriving DecidableEq

/-- The style of a scalar.  `implicit` tells whether its tag is the one that its text gets when it
is plain, `key` whether it is written in front of a colon. -/
def styleOf (a : Analysis) (implicit block key : Bool) : Style :=
  if !block && implicit && a.plain && !(key && (a.empty || a.multiline)) then .plain
  else if block && !key && a.block then .block
  else if !block && a.single && !(key && a.multiline) then .single
  else .double

/-! ### Documents -/

/-- Where a node is written. -/
inductive Slot where
  | root
  | item
  /-- Behind a colon or a question mark. -/
  | entry
  /-- In front of a colon. -/
  | key
  deriving DecidableEq

/-- The pen, and the labels of the values it has written. -/
structure Draft where
  pen : Pen
  done : List (List Nat)

/-- The number of a label among those that stand in several places. -/
def anchorOf (repeated : List (List Nat)) (m : Mark) : Option Nat :=
  m.bind fun label => repeated.findIdx? (· = label)

/-- The name of an anchor. -/
def anchorText (n : Nat) : String := "id" ++ padded 3 (n + 1)

/-- A tag of the language as it is written. -/
def writtenTag (tag : String) : String := "!!" ++ tag

/-- The indentation one level further in. -/
def deeper (indent : Option Nat) (first : Nat) : Nat :=
  match indent with
  | none => first
  | some n => n + 2

/-- Whether a node is written in front of a colon on one line. -/
def isSimpleKey (repeated : List (List Nat)) (done : List (List Nat)) (o : Outline) : Bool :=
  let anchor := anchorOf repeated o.mark
  let size := (anchor.map fun n => (anchorText n).length).getD 0
  if anchor.isSome && o.mark.any done.contains then size < 128
  else match o with
    | .scalar _ tag text _ =>
      let a := analyse text.toList
      size + (writtenTag tag).length + text.length < 128 && !a.empty && !a.multiline
    | .sequence _ items => size + (writtenTag "seq").length < 128 && items.isEmpty
    | .mapping _ tag entries => size + (writtenTag tag).length < 128 && entries.isEmpty

/-- Writes a scalar. -/
def putScalar (p : Pen) (indent : Option Nat) (slot : Slot) (tag text : String) (block : Bool) :
    Pen :=
  let cs := text.toList
  let a := analyse cs
  let implicit := plainTag text = standard tag
  let style := styleOf a implicit block (slot = .key)
  let p :=
    if (style = .plain && implicit) || (style ≠ .plain && tag = "str") then p
    else p.indicator (writtenTag tag) true false false
  let indent := deeper indent 2
  let split := slot ≠ .key
  match style with
  | .plain => p.putPlain indent split (slot = .root) cs
  | .single => p.putSingle indent split cs
  | .double => p.putDouble indent split cs
  | .block => p.putBlock indent cs

/-- Writes the anchor of a value that stands in several places, or a reference to it if the value is
written already; tells whether it is. -/
def putAnchor (repeated : List (List Nat)) (d : Draft) (m : Mark) : Bool × Draft :=
  match m, anchorOf repeated m with
  | some label, some n =>
    if d.done.contains label then
      (true, { d with pen := d.pen.indicator ("*" ++ anchorText n) true false false })
    else
      (false, ⟨d.pen.indicator ("&" ++ anchorText n) true false false, label :: d.done⟩)
  | _, _ => (false, d)

mutual
/-- Writes a node into a slot below a column. -/
def putNode (repeated : List (List Nat)) (d : Draft) (indent : Option Nat) (slot : Slot) :
    Outline → Draft
  | .scalar m tag text block =>
    match putAnchor repeated d m with
    | (true, d) => d
    | (false, d) => { d with pen := putScalar d.pen indent slot tag text block }
  | .sequence m items =>
    match putAnchor repeated d m with
    | (true, d) => d
    | (false, d) =>
      if items.isEmpty then
        { d with pen := (d.pen.indicator "[" true true false).indicator "]" false false false }
      else
        let column :=
          if (slot = .entry || slot = .key) && !d.pen.leading then indent.getD 0
          else deeper indent 0
        putItems repeated d column items
  | .mapping m tag entries =>
    match putAnchor repeated d m with
    | (true, d) => d
    | (false, d) =>
      let d :=
        if tag = "map" then d else { d with pen := d.pen.indicator (writtenTag tag) true false false }
      if entries.isEmpty then
        { d with pen := (d.pen.indicator "\x7b" true true false).indicator "\x7d" false false false }
      else putEntries repeated d (deeper indent 0) entries

/-- Writes the items of a sequence, one a line. -/
def putItems (repeated : List (List Nat)) (d : Draft) (column : Nat) : List Outline → Draft
  | [] => d
  | o :: os =>
    let d := { d with pen := (d.pen.toIndent column).indicator "-" true false true }
    putItems repeated (putNode repeated d (some column) .item o) column os

/-- Writes the entries of a mapping, one a line or, if the key does not fit on a line, two. -/
def putEntries (repeated : List (List Nat)) (d : Draft) (column : Nat) :
    List (Outline × Outline) → Draft
  | [] => d
  | (k, v) :: es =>
    let d := { d with pen := d.pen.toIndent column }
    let d :=
      if isSimpleKey repeated d.done k then
        let d := putNode repeated d (some column) .key k
        { d with pen := d.pen.indicator ":" false false false }
      else
        let d := { d with pen := d.pen.indicator "?" true false true }
        let d := putNode repeated d (some column) .entry k
        { d with pen := (d.pen.toIndent column).indicator ":" true false true }
    putEntries repeated (putNode repeated d (some column) .entry v) column es
end

/-- Writes a document to its end. -/
def putDocument (o : Outline) : Pen :=
  let d := putNode o.repeated ⟨.start, []⟩ none .root o
  let p := d.pen.toIndent 0
  if p.openEnded then (p.indicator "..." true false false).toIndent 0 else p

/-- The text of a document. -/
def write [SetOrder] (n : Node) : Except Text.LongInteger String :=
  (outline n.arranged).map fun o => (putDocument o).written

end Yaml

end PlainSchema
