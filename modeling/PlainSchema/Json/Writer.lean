/-
PlainSchema/Json/Writer.lean

Writing JSON, two blanks further in for each level, one item or entry a line.  All
characters but the control characters, the quote and the backslash stand for
themselves.  Days and moments are written as their ISO texts, tuples as lists; keys
that are numbers, truth values or null are written as names.
-/
import PlainSchema.Json.Fault
import PlainSchema.Node.Display

namespace PlainSchema

namespace Json

/-- Numbers in JSON. -/
def floatStyle : Binary64.NumberStyle :=
  { numberStyle with infinity := "Infinity", minusInfinity := "-Infinity", notANumber := "NaN" }

/-- A character inside a string. -/
def escape (c : Char) : List Char :=
  if c = '"' then ['\\', '"']
  else if c = '\\' then ['\\', '\\']
  else if c = '\n' then ['\\', 'n']
  else if c = '\r' then ['\\', 'r']
  else if c = '\t' then ['\\', 't']
  else if c = '\x08' then ['\\', 'b']
  else if c = '\x0c' then ['\\', 'f']
  else if c.toNat < 0x20 then '\\' :: 'u' :: (Text.hex 4 c.toNat).toList
  else [c]

/-- A string in quotes. -/
def quote (s : String) : List Char := '"' :: (s.toList.flatMap escape ++ ['"'])

/-- An integer, unless it is too long. -/
def integer (i : Int) : Except WriteFault (List Char) :=
  let text := (toString i.natAbs).toList
  if Text.digitLimit < text.length then .error .longInteger
  else .ok (if i < 0 then '-' :: text else text)

/-- A line break and the blanks of a level. -/
def newline (level : Nat) : List Char := '\n' :: List.replicate (2 * level) ' '

/-- Parts of a collection between its brackets, one a line. -/
def bracketed (first last : Char) (level : Nat) (parts : List (List Char)) : List Char :=
  match parts with
  | [] => [first, last]
  | _ =>
    first :: newline (level + 1) ++ (',' :: newline (level + 1)).intercalate parts
      ++ newline level ++ [last]

/-- The name that a key stands for. -/
def name : Node → Except WriteFault (List Char)
  | .str s => .ok s.toList
  | .null => .ok "null".toList
  | .bool b => .ok (if b then "true" else "false").toList
  | .int i => integer i
  | .float x => .ok (x.format floatStyle).toList
  | .shared _ n => name n
  | .bytes _ => .error (.key "bytes")
  | .date _ => .error (.key "date")
  | .datetime _ => .error (.key "datetime")
  | .list _ => .error (.key "list")
  | .map _ => .error (.key "dict")
  | .tuple _ => .error (.key "tuple")
  | .set _ => .error (.key "set")

mutual
/-- A value at a level. -/
def valueText (level : Nat) : Node → Except WriteFault (List Char)
  | .null => .ok "null".toList
  | .bool b => .ok (if b then "true" else "false").toList
  | .int i => integer i
  | .float x => .ok (x.format floatStyle).toList
  | .str s => .ok (quote s)
  | .date d => .ok (quote d.isoText)
  | .datetime t => .ok (quote (t.isoText "T"))
  | .list xs => (itemTexts (level + 1) xs).map (bracketed '[' ']' level)
  | .tuple xs => (itemTexts (level + 1) xs).map (bracketed '[' ']' level)
  | .map fs => (memberTexts (level + 1) fs).map (bracketed '\x7b' '\x7d' level)
  | .shared _ n => valueText level n
  | .bytes _ => .error (.value "bytes")
  | .set _ => .error (.value "set")

/-- The items of a list. -/
def itemTexts (level : Nat) : List Node → Except WriteFault (List (List Char))
  | [] => .ok []
  | x :: xs =>
    match valueText level x with
    | .error e => .error e
    | .ok t => (itemTexts level xs).map (t :: ·)

/-- The entries of a mapping. -/
def memberTexts (level : Nat) : List (Node × Node) → Except WriteFault (List (List Char))
  | [] => .ok []
  | (k, v) :: fs =>
    match name k with
    | .error e => .error e
    | .ok n =>
      match valueText level v with
      | .error e => .error e
      | .ok t =>
        (memberTexts level fs).map ((quote (String.ofList n) ++ ':' :: ' ' :: t) :: ·)
end

/-- The text of a document, ending in a line break. -/
def write (n : Node) : Except WriteFault (List Char) := (valueText 0 n).map (· ++ ['\n'])

end Json

end PlainSchema
