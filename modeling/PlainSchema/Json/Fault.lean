/-
PlainSchema/Json/Fault.lean

Why a text is no JSON document, and why a document has no JSON text.  A fault of
reading has a position in the text, which is given by the number of characters that
are left there.
-/
import PlainSchema.Text.Integer

namespace PlainSchema

namespace Json

/-- What is wrong with a text. -/
inductive Cause where
  | byteOrderMark
  | value
  | propertyName
  | colon
  | comma
  | extra
  | controlCharacter
  | unterminated
  | escape
  | unicodeEscape
  deriving DecidableEq, Repr

/-- The words for it. -/
def Cause.message : Cause → String
  | byteOrderMark => "Unexpected UTF-8 BOM (decode using utf-8-sig)"
  | value => "Expecting value"
  | propertyName => "Expecting property name enclosed in double quotes"
  | colon => "Expecting ':' delimiter"
  | comma => "Expecting ',' delimiter"
  | extra => "Extra data"
  | controlCharacter => "Invalid control character at"
  | unterminated => "Unterminated string starting at"
  | escape => "Invalid \\escape"
  | unicodeEscape => "Invalid \\uXXXX escape"

/-- Why reading stops. -/
inductive ReadFault where
  /-- The text is malformed where this many characters are left. -/
  | malformed (cause : Cause) (left : Nat)
  /-- An integer has this many digits, more than the limit. -/
  | longInteger (digits : Nat)
  /-- A text has a half of a surrogate pair that stands alone.  That is no fault of the document, which
  is well-formed then; there is no `Node` for it. -/
  | half
  deriving DecidableEq, Repr

/-- A position in a text: lines and columns count from one, characters from zero. -/
structure Position where
  line : Nat
  column : Nat
  character : Nat
  deriving DecidableEq, Repr

/-- The position where `left` characters of a text are left. -/
def Position.whenLeft (text : List Char) (left : Nat) : Position :=
  let before := text.take (text.length - left)
  ⟨before.count '\n' + 1, (before.reverse.takeWhile (· ≠ '\n')).length + 1, before.length⟩

/-- The words for a position. -/
def Position.message (p : Position) : String :=
  "line " ++ toString p.line ++ " column " ++ toString p.column
    ++ " (char " ++ toString p.character ++ ")"

/-- Why a document has no JSON text. -/
inductive WriteFault where
  /-- A key of this kind cannot stand for a name. -/
  | key (kind : String)
  /-- A value of this kind has no JSON form. -/
  | value (kind : String)
  /-- An integer has more digits than the limit. -/
  | longInteger
  deriving DecidableEq, Repr

/-- The text of the fault. -/
def WriteFault.message : WriteFault → String
  | key kind => "keys must be str, int, float, bool or None, not " ++ kind
  | value kind => "Object of type " ++ kind ++ " is not JSON serializable"
  | longInteger => Text.LongInteger.message ⟨⟩

end Json

end PlainSchema
