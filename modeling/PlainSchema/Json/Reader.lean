/-
PlainSchema/Json/Reader.lean

Reading JSON.  The reader walks along the characters and hands on what is left of
them.  Besides the standard's values it knows the words `NaN`, `Infinity` and
`-Infinity`.  Of entries with one name the last value counts, in the place of the
first.

`value` recurses on a bound that `read` takes from the length of the text: every
step into a collection uses up its opening bracket.

A string may name a half of a surrogate pair that stands alone, and then no `Node` is
the document.  Whether the text is well-formed is known only after it was read to its
end, so it is read once more then, and such strings are let pass (`lossy`).
-/
import PlainSchema.Json.Fault
import PlainSchema.Node
import PlainSchema.Text.Code

namespace PlainSchema

namespace Json

/-! ### Blanks, digits and words -/

/-- Whether the character may stand between values. -/
def isBlank (c : Char) : Bool := c = ' ' || c = '\t' || c = '\n' || c = '\r'

/-- What is left after the blanks at the front. -/
def skipBlanks (cs : List Char) : List Char := cs.dropWhile isBlank

/-- The value of a digit in base 16. -/
def hexValue? (c : Char) : Option Nat :=
  if c.isDigit then some (c.toNat - '0'.toNat)
  else if 'a' ≤ c ∧ c ≤ 'f' then some (c.toNat - 'a'.toNat + 10)
  else if 'A' ≤ c ∧ c ≤ 'F' then some (c.toNat - 'A'.toNat + 10)
  else none

/-- The number that four digits in base 16 stand for. -/
def hexCode? (a b c d : Char) : Option Nat := do
  return ((← hexValue? a) * 16 + (← hexValue? b)) * 256 + ((← hexValue? c) * 16 + (← hexValue? d))

/-- The character that two halves of a surrogate pair stand for. -/
def joined (high low : Nat) : Char :=
  Char.ofNat (0x10000 + (high - 0xd800) * 0x400 + (low - 0xdc00))

/-- The character that a letter stands for after a backslash. -/
def escaped? : Char → Option Char
  | '"' => some '"'
  | '\\' => some '\\'
  | '/' => some '/'
  | 'b' => some '\x08'
  | 'f' => some '\x0c'
  | 'n' => some '\n'
  | 'r' => some '\r'
  | 't' => some '\t'
  | _ => none

/-! ### Strings -/

/-- What a string continues with. -/
abbrev Rest (α : Type) := Except ReadFault (α × List Char)

/-- A code in front of what a string continues with. -/
def push (code : Text.Code) : Rest (List Text.Code) → Rest (List Text.Code)
  | .ok (codes, rest) => .ok (code :: codes, rest)
  | .error e => .error e

/-- The codes of a string up to its closing quote.  `opened` is the text from the opening quote
on. -/
def string (opened : List Char) : List Char → Rest (List Text.Code)
  | [] => .error (.malformed .unterminated opened.length)
  | '"' :: rest => .ok ([], rest)
  | '\\' :: 'u' :: a :: b :: c :: d :: e :: rest =>
    -- `e` keeps the escape from being the end of the text.
    let left := rest.length + 6
    match hexCode? a b c d with
    | none => .error (.malformed .unicodeEscape left)
    | some code =>
      if 0xd800 ≤ code ∧ code < 0xdc00 then
        match e, rest with
        | '\\', 'u' :: a' :: b' :: c' :: d' :: e' :: rest' =>
          match hexCode? a' b' c' d' with
          | none => .error (.malformed .unicodeEscape (rest'.length + 6))
          | some low =>
            if 0xdc00 ≤ low ∧ low < 0xe000 then
              push (.char (joined code low)) (string opened (e' :: rest'))
            else
              push (.ofNat code)
                (string opened ('\\' :: 'u' :: a' :: b' :: c' :: d' :: e' :: rest'))
        | e, rest => push (.ofNat code) (string opened (e :: rest))
      else push (.ofNat code) (string opened (e :: rest))
  | '\\' :: 'u' :: rest => .error (.malformed .unicodeEscape (rest.length + 1))
  | ['\\'] => .error (.malformed .unterminated opened.length)
  | '\\' :: c :: rest =>
    match escaped? c with
    | some c' => push (.char c') (string opened rest)
    | none => .error (.malformed .escape (rest.length + 2))
  | c :: rest =>
    if c.toNat < 0x20 then .error (.malformed .controlCharacter (rest.length + 1))
    else push (.char c) (string opened rest)
termination_by cs => cs.length

/-- The text of codes.  A half is a fault, unless the text is not looked at any more (`lossy`). -/
def textOf (lossy : Bool) (codes : List Text.Code) : Except ReadFault String :=
  match Text.whole? codes with
  | some cs => .ok (String.ofList cs)
  | none => if lossy then .ok "" else .error .half

/-! ### Numbers -/

/-- The decimal digits at the front, and the rest. -/
def digits (cs : List Char) : List Char × List Char :=
  (cs.takeWhile Char.isDigit, cs.dropWhile Char.isDigit)

/-- The number that decimal digits stand for. -/
def natural (ds : List Char) : Nat :=
  ds.foldl (fun n c => n * 10 + (c.toNat - '0'.toNat)) 0

/-- The digits after a point, if a point with a digit stands at the front, and the rest. -/
def fraction (cs : List Char) : List Char × List Char :=
  match cs with
  | '.' :: rest =>
    match digits rest with
    | ([], _) => ([], cs)
    | (ds, rest) => (ds, rest)
  | _ => ([], cs)

/-- The exponent at the front, if there is a whole one, and the rest. -/
def exponent (cs : List Char) : Option Int × List Char :=
  match cs with
  | c :: rest =>
    if c = 'e' || c = 'E' then
      let (negative, rest) := match rest with
        | '-' :: rest => (true, rest)
        | '+' :: rest => (false, rest)
        | rest => (false, rest)
      match digits rest with
      | ([], _) => (none, cs)
      | (ds, rest) =>
        let n : Int := natural ds
        (some (if negative then -n else n), rest)
    else (none, cs)
  | [] => (none, [])

/-- The digits before the point: a zero alone, or digits that do not start with zero. -/
def whole? (cs : List Char) : Option (List Char × List Char) :=
  match cs with
  | '0' :: rest => some (['0'], rest)
  | c :: _ => if c.isDigit then some (digits cs) else none
  | [] => none

/-- The number at the front. -/
def number? (cs : List Char) : Option (Rest Node) :=
  let (negative, body) := match cs with
    | '-' :: rest => (true, rest)
    | _ => (false, cs)
  (whole? body).map fun (ds, rest) =>
    let (part, rest) := fraction rest
    let (power, rest) := exponent rest
    if part.isEmpty && power.isNone then
      if Text.digitLimit < ds.length then .error (.longInteger ds.length)
      else
        let n : Int := natural ds
        .ok (.int (if negative then -n else n), rest)
    else
      .ok (.float (Binary64.ofDecimal negative (natural (ds ++ part))
        (power.getD 0 - part.length)), rest)

/-! ### Values -/

/-- The value that a word at the front stands for. -/
def word? : List Char → Option (Node × List Char)
  | 'n' :: 'u' :: 'l' :: 'l' :: rest => some (.null, rest)
  | 't' :: 'r' :: 'u' :: 'e' :: rest => some (.bool true, rest)
  | 'f' :: 'a' :: 'l' :: 's' :: 'e' :: rest => some (.bool false, rest)
  | 'N' :: 'a' :: 'N' :: rest => some (.float .nan, rest)
  | 'I' :: 'n' :: 'f' :: 'i' :: 'n' :: 'i' :: 't' :: 'y' :: rest =>
    some (.float (.infinite false), rest)
  | '-' :: 'I' :: 'n' :: 'f' :: 'i' :: 'n' :: 'i' :: 't' :: 'y' :: rest =>
    some (.float (.infinite true), rest)
  | _ => none

/-- The value at the front that is neither a string nor a collection. -/
def scalar (cs : List Char) : Rest Node :=
  match word? cs with
  | some found => .ok found
  | none => (number? cs).getD (.error (.malformed .value cs.length))

mutual
/-- The value at the front. -/
def value (lossy : Bool) : Nat → List Char → Rest Node
  | 0, cs => .error (.malformed .value cs.length)
  | bound + 1, cs =>
    match cs with
    | '"' :: rest =>
      match string cs rest with
      | .error e => .error e
      | .ok (codes, rest) => (textOf lossy codes).map fun s => (.str s, rest)
    | '[' :: rest =>
      match skipBlanks rest with
      | ']' :: rest => .ok (.list [], rest)
      | rest => (items lossy bound rest).map fun (xs, rest) => (.list xs, rest)
    | '\x7b' :: rest =>
      match skipBlanks rest with
      | '\x7d' :: rest => .ok (.map [], rest)
      | rest =>
        (members lossy bound rest).map fun (fs, rest) =>
          (.map (Fields.ofEntries Node.sameKey fs), rest)
    | cs => scalar cs

/-- The items of a list up to its closing bracket. -/
def items (lossy : Bool) : Nat → List Char → Rest (List Node)
  | 0, cs => .error (.malformed .value cs.length)
  | bound + 1, cs =>
    match value lossy bound cs with
    | .error e => .error e
    | .ok (x, rest) =>
      match skipBlanks rest with
      | ']' :: rest => .ok ([x], rest)
      | ',' :: rest => (items lossy bound (skipBlanks rest)).map fun (xs, rest) => (x :: xs, rest)
      | rest => .error (.malformed .comma rest.length)

/-- The entries of a mapping up to its closing bracket. -/
def members (lossy : Bool) : Nat → List Char → Rest (List (Node × Node))
  | 0, cs => .error (.malformed .value cs.length)
  | bound + 1, cs =>
    match cs with
    | '"' :: rest =>
      match string cs rest with
      | .error e => .error e
      | .ok (codes, rest) =>
        match textOf lossy codes with
        | .error e => .error e
        | .ok name =>
          match skipBlanks rest with
          | ':' :: rest =>
            match value lossy bound (skipBlanks rest) with
            | .error e => .error e
            | .ok (v, rest) =>
              match skipBlanks rest with
              | '\x7d' :: rest => .ok ([(.str name, v)], rest)
              | ',' :: rest =>
                (members lossy bound (skipBlanks rest)).map fun (fs, rest) =>
                  ((.str name, v) :: fs, rest)
              | rest => .error (.malformed .comma rest.length)
          | rest => .error (.malformed .colon rest.length)
    | cs => .error (.malformed .propertyName cs.length)
end

/-- One value with blanks around it. -/
def document (lossy : Bool) (text : List Char) : Except ReadFault Node :=
  match text with
  | '\ufeff' :: _ => .error (.malformed .byteOrderMark text.length)
  | _ =>
    match value lossy (2 * text.length + 2) (skipBlanks text) with
    | .error e => .error e
    | .ok (n, rest) =>
      match skipBlanks rest with
      | [] => .ok n
      | rest => .error (.malformed .extra rest.length)

/-- The document that a text holds. -/
def read (text : List Char) : Except ReadFault Node :=
  match document false text with
  | .error .half => (document true text).bind fun _ => .error .half
  | answer => answer

end Json

end PlainSchema
