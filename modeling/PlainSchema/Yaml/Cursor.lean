/-
PlainSchema/Yaml/Cursor.lean

A place in a YAML text: the characters that are left, and where they start.  Every
line break but the two separators of Unicode counts as one plain line feed.
-/
namespace PlainSchema

namespace Yaml

/-! ### Characters -/

/-- Whether a document may hold the character. -/
def isAllowed (c : Char) : Bool :=
  let n := c.toNat
  n = 0x09 || n = 0x0a || n = 0x0d || (0x20 ≤ n && n ≤ 0x7e) || n = 0x85
    || (0xa0 ≤ n && n ≤ 0xd7ff) || (0xe000 ≤ n && n ≤ 0xfffd) || 0x10000 ≤ n

/-- The character that stands for the end of the text; no document holds it. -/
def endMark : Char := '\x00'

/-- Whether the character breaks a line. -/
def isBreak (c : Char) : Bool :=
  c = '\n' || c = '\r' || c = '\x85' || c = '\u2028' || c = '\u2029'

/-- Whether the character breaks a line or ends the text. -/
def isBreakOrEnd (c : Char) : Bool := isBreak c || c = endMark

/-- Whether the character is a blank, breaks a line or ends the text. -/
def isGap (c : Char) : Bool := c = ' ' || c = '\t' || isBreakOrEnd c

/-- Whether the character is a space, breaks a line or ends the text. -/
def isSpaceOrBreak (c : Char) : Bool := c = ' ' || isBreakOrEnd c

/-- Whether the character may stand in a name. -/
def isNameChar (c : Char) : Bool := c.isAlphanum || c = '-' || c = '_'

/-- Whether the character is a digit in base 16. -/
def isHexDigit (c : Char) : Bool :=
  c.isDigit || ('a' ≤ c && c ≤ 'f') || ('A' ≤ c && c ≤ 'F')

/-- The number that digits in base 16 stand for. -/
def hexNumber (cs : List Char) : Nat :=
  cs.foldl (fun n c => n * 16 +
    (if c.isDigit then c.toNat - 48 else if 'a' ≤ c then c.toNat - 87 else c.toNat - 55)) 0

/-! ### Places -/

/-- A place in a text. -/
structure Cursor where
  rest : List Char
  /-- The number of characters of the whole text. -/
  size : Nat
  index : Nat
  line : Nat
  column : Nat
  deriving Inhabited

namespace Cursor

/-- The start of a text. -/
def start (text : List Char) : Cursor := ⟨text, text.length, 0, 0, 0⟩

/-- The number of characters that are left. -/
def left (c : Cursor) : Nat := c.size - c.index

/-- The character at the place, or the mark of the end. -/
def peek (c : Cursor) : Char := c.rest.headD endMark

/-- The character some way on. -/
def peekAt (c : Cursor) (n : Nat) : Char := (c.rest.drop n).headD endMark

/-- The place one character on.  A line feed after a carriage return belongs to the same break; a
byte order mark takes no column. -/
def next (c : Cursor) : Cursor :=
  match c.rest with
  | [] => c
  | ch :: rest =>
    if (isBreak ch && ch ≠ '\r') || (ch = '\r' && rest.headD endMark ≠ '\n') then
      ⟨rest, c.size, c.index + 1, c.line + 1, 0⟩
    else if ch = '\ufeff' then ⟨rest, c.size, c.index + 1, c.line, c.column⟩
    else ⟨rest, c.size, c.index + 1, c.line, c.column + 1⟩

/-- The place some characters on. -/
def forward (c : Cursor) : Nat → Cursor
  | 0 => c
  | n + 1 => c.next.forward n

/-- The longest run of characters with a property, and the place after it. -/
def run (c : Cursor) (p : Char → Bool) : List Char × Cursor :=
  let cs := c.rest.takeWhile p
  (cs, c.forward cs.length)

/-- The place after the longest run of characters with a property. -/
def skip (c : Cursor) (p : Char → Bool) : Cursor := (c.run p).2

/-- The line break at the place, and the place after it. -/
def lineBreak? (c : Cursor) : Option (Char × Cursor) :=
  let ch := c.peek
  if ch = '\r' && c.peekAt 1 = '\n' then some ('\n', c.forward 2)
  else if ch = '\r' || ch = '\n' || ch = '\x85' then some ('\n', c.next)
  else if ch = '\u2028' || ch = '\u2029' then some (ch, c.next)
  else none

/-- The place after the rest of the line. -/
def skipLine (c : Cursor) : Cursor := c.skip fun ch => !isBreakOrEnd ch

/-- Whether three dots or three hyphens stand alone at the place. -/
def atMarker (c : Cursor) : Bool :=
  match c.rest with
  | '-' :: '-' :: '-' :: rest => isGap (rest.headD endMark)
  | '.' :: '.' :: '.' :: rest => isGap (rest.headD endMark)
  | _ => false

end Cursor

end Yaml

end PlainSchema
