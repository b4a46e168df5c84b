/-
PlainSchema/Schema/Pointer.lean

Places in a document.  A place is the list of keys and indices that lead to it from
the root.  Its text is a JSON pointer: a slash before each segment, `~0` for a tilde
and `~1` for a slash inside one.  The root is written as a lone slash.

A step by an integer of too many digits has no text, and a place behind it has none
either (`Pointer.hasText`).  `text` writes such an integer in full; who needs the text
asks for it by `written`.
-/
import PlainSchema.Node.Display

namespace PlainSchema

/-- One step down from a mapping or a list. -/
inductive Step where
  | key (key : Node)
  | index (index : Nat)
  deriving Inhabited, Repr

/-- A place in a document, from the root down. -/
abbrev Pointer := List Step

/-- The text of a step, not yet escaped, with every integer written in full; see `hasText`. -/
def Step.text : Step → String
  | key k => k.plainText
  | index i => toString i

/-- Whether a step has a text. -/
def Step.hasText : Step → Bool
  | key k => !k.hasLongInteger
  | index i => (toString i).length ≤ Text.digitLimit

namespace Pointer

/-- A segment with its tildes and slashes escaped. -/
def escape : List Char → List Char
  | [] => []
  | '~' :: cs => '~' :: '0' :: escape cs
  | '/' :: cs => '~' :: '1' :: escape cs
  | c :: cs => c :: escape cs

/-- The text of a list of segments. -/
def ofSegments : List (List Char) → List Char
  | [] => []
  | s :: ss => '/' :: escape s ++ ofSegments ss

/-- The text of a place. -/
def text (path : Pointer) : String :=
  match path with
  | [] => "/"
  | _ => String.ofList (ofSegments (path.map fun s => s.text.toList))

/-- Whether a place has a text. -/
def hasText (path : Pointer) : Bool := path.all Step.hasText

/-- The text of a place, or the fault that it has none. -/
def written (path : Pointer) : Except Text.LongInteger String :=
  if path.hasText then .ok path.text else .error {}

end Pointer

end PlainSchema
