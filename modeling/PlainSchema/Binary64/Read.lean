/-
PlainSchema/Binary64/Read.lean

Reading a decimal number: blanks at the ends, a sign, digits of any script before or
after a point, and an exponent.  Single underscores may stand between digits.  The
words for infinity and for what is not a number may be in capitals or small letters.
-/
import PlainSchema.Binary64
import PlainSchema.Text.Integer

namespace PlainSchema

namespace Binary64

/-- The longest run of digits at the front, with single underscores between them, and the rest;
`none` if there is no digit at the front. -/
def digitRun? : List Char → Option (List Nat × List Char)
  | [] => none
  | c :: cs =>
    match Text.digitValue? c with
    | none => none
    | some d =>
      match digitRun? cs with
      | some (ds, rest) => some (d :: ds, rest)
      | none =>
        match cs with
        | '_' :: after =>
          match digitRun? after with
          | some (ds, rest) => some (d :: ds, rest)
          | none => some ([d], cs)
        | _ => some ([d], cs)

/-- The run of digits at the front, which may be empty, and the rest. -/
def digitRun (cs : List Char) : List Nat × List Char := (digitRun? cs).getD ([], cs)

/-- An exponent that ends the text, or the end itself. -/
def exponent? : List Char → Option Int
  | [] => some 0
  | c :: cs =>
    if c = 'e' || c = 'E' then
      let (negative, cs) := match cs with
        | '-' :: cs => (true, cs)
        | '+' :: cs => (false, cs)
        | cs => (false, cs)
      match digitRun cs with
      | ([], _) => none
      | (ds, []) =>
        let n : Int := Text.ofDigits 10 ds
        some (if negative then -n else n)
      | _ => none
    else none

/-- The number without a sign that a text stands for. -/
def unsigned? (negative : Bool) (cs : List Char) : Option Binary64 :=
  let word := Text.lower (String.ofList cs)
  if word = "inf" || word = "infinity" then some (infinite negative)
  else if word = "nan" then some nan
  else
    let (whole, rest) := digitRun cs
    let (part, rest) := match rest with
      | '.' :: rest => digitRun rest
      | rest => ([], rest)
    if whole.isEmpty && part.isEmpty then none
    else
      (exponent? rest).map fun e =>
        ofDecimal negative (Text.ofDigits 10 (whole ++ part)) (e - part.length)

/-- The number nearest to what a text stands for. -/
def ofText? (text : String) : Option Binary64 :=
  match (Text.stripNumber text).toList with
  | '-' :: cs => unsigned? true cs
  | '+' :: cs => unsigned? false cs
  | cs => unsigned? false cs

end Binary64

end PlainSchema
