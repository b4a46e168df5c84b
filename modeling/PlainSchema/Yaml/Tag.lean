/-
PlainSchema/Yaml/Tag.lean

Tags, and the tag that a plain text gets from what it looks like: a truth value, a
number, null, a timestamp, or one of the two signs with a meaning in mappings.  All
else is a string.
-/
import PlainSchema.Yaml.Timestamp

namespace PlainSchema

namespace Yaml

/-- The start of all tags of the language itself. -/
def standard (name : String) : String := "tag:yaml.org,2002:" ++ name

/-! ### What texts look like -/

/-- Whether the text is a truth value. -/
def looksTrueOrFalse (s : String) : Bool :=
  ["yes", "Yes", "YES", "no", "No", "NO", "true", "True", "TRUE", "false", "False", "FALSE",
    "on", "On", "ON", "off", "Off", "OFF"].contains s

/-- A text without a sign in front. -/
def unsigned : List Char → List Char
  | '-' :: cs => cs
  | '+' :: cs => cs
  | cs => cs

/-- Whether the character may stand among decimal digits. -/
def isDigitOrGap (c : Char) : Bool := c.isDigit || c = '_'

/-- Whether the text is the exponent of a number, with a sign. -/
def looksExponent : List Char → Bool
  | [] => true
  | e :: sign :: ds =>
    (e = 'e' || e = 'E') && (sign = '-' || sign = '+') && !ds.isEmpty && ds.all Char.isDigit
  | _ => false

/-- Whether the text is a place of a number in base 60. -/
def looksSixtieth : List Char → Bool
  | [d] => d.isDigit
  | [t, d] => '0' ≤ t && t ≤ '5' && d.isDigit
  | _ => false

/-- The parts of a text between colons. -/
def betweenColons (cs : List Char) : List (List Char) :=
  cs.foldr (fun c parts => match parts with
    | part :: parts => if c = ':' then [] :: part :: parts else (c :: part) :: parts
    | [] => []) [[]]

/-- Whether the text is a number with a point, or a special one. -/
def looksFloat (cs : List Char) : Bool :=
  let body := unsigned cs
  let whole := body.takeWhile fun c => c ≠ '.'
  match body.dropWhile fun c => c ≠ '.' with
  | [] => false
  | _ :: rest =>
    let part := rest.takeWhile isDigitOrGap
    let power := rest.dropWhile isDigitOrGap
    match whole with
    | [] =>
      [".inf", ".Inf", ".INF"].contains (String.ofList body)
        || [".nan", ".NaN", ".NAN"].contains (String.ofList cs)
        || (body.length = cs.length && part.head?.any Char.isDigit && looksExponent power)
    | first :: _ =>
      first.isDigit &&
        match betweenColons whole with
        | [ds] => ds.all isDigitOrGap && looksExponent power
        | ds :: places => ds.all isDigitOrGap && places.all looksSixtieth && power.isEmpty
        | [] => false

/-- Whether the text is an integer in base 2, 8, 10, 16 or 60. -/
def looksInt (cs : List Char) : Bool :=
  match unsigned cs with
  | ['0'] => true
  | '0' :: 'b' :: ds => !ds.isEmpty && ds.all fun c => c = '0' || c = '1' || c = '_'
  | '0' :: 'x' :: ds =>
    !ds.isEmpty && ds.all fun c =>
      isDigitOrGap c || ('a' ≤ c && c ≤ 'f') || ('A' ≤ c && c ≤ 'F')
  | '0' :: ds => ds.all fun c => ('0' ≤ c && c ≤ '7') || c = '_'
  | body =>
    match betweenColons body with
    | ds :: places =>
      ds.head?.any Char.isDigit && ds.all isDigitOrGap && places.all looksSixtieth
    | [] => false

/-- Whether the text says null; an empty text does. -/
def looksNull (s : String) : Bool := ["~", "null", "Null", "NULL"].contains s

/-- The tag of an untagged plain text.  A line feed at its end does not count. -/
def plainTag (text : String) : String :=
  let texts := withoutLastBreak text.toList
  let looks := fun (p : String → Bool) => texts.any fun cs => p (String.ofList cs)
  if looks looksTrueOrFalse then standard "bool"
  else if texts.any looksFloat then standard "float"
  else if texts.any looksInt then standard "int"
  else if looks (· = "<<") then standard "merge"
  else if text = "" || looks looksNull then standard "null"
  else if isTimestamp text.toList then standard "timestamp"
  else if looks (· = "=") then standard "value"
  else standard "str"

end Yaml

end PlainSchema
