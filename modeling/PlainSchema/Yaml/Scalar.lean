/-
PlainSchema/Yaml/Scalar.lean

The values of tagged scalars.  Numbers may hold underscores anywhere, and numbers in
base 60 are written with colons between their places.
-/
import PlainSchema.Binary64.Read
import PlainSchema.Text.Base64
import PlainSchema.Yaml.Tag

namespace PlainSchema

namespace Yaml

/-- A text without underscores. -/
def withoutGaps (text : String) : List Char := text.toList.filter (· ≠ '_')

/-- Whether a text starts with a minus sign, and the rest of it without its sign. -/
def signed : List Char → Bool × List Char
  | '-' :: cs => (true, cs)
  | '+' :: cs => (false, cs)
  | cs => (false, cs)

/-- The integer that a text stands for in a base. -/
def integerIn (base : Nat) (cs : List Char) : Except Fault Int :=
  (Text.integer base (String.ofList cs)).mapError .integer

/-- The integer of places in base 60. -/
def ofSixtieths (places : List Int) : Int := places.foldl (fun n d => n * 60 + d) 0

/-- The integer that a tagged text stands for. -/
def intValue (text : String) : Except Fault Int :=
  match withoutGaps text with
  | [] => .error .noNumber
  | cs =>
    let (negative, body) := signed cs
    let magnitude : Except Fault Int := match body with
      | [] => .error .noNumber
      | ['0'] => .ok 0
      | '0' :: 'b' :: ds => integerIn 2 ds
      | '0' :: 'x' :: ds => integerIn 16 ds
      | '0' :: _ => integerIn 8 body
      | _ =>
        if body.contains ':' then ((betweenColons body).mapM (integerIn 10)).map ofSixtieths
        else integerIn 10 body
    magnitude.map fun n => if negative then -n else n

/-- The number that a text stands for. -/
def numberIn (cs : List Char) : Except Fault Binary64 :=
  match Binary64.ofText? (String.ofList cs) with
  | some x => .ok x
  | none => .error (.number (String.ofList cs))

/-- The sum of places in base 60, the last one first, each taken `base` times. -/
def sumOfSixtieths : Nat → Binary64 → List Binary64 → Except Fault Binary64
  | _, sum, [] => .ok sum
  | base, sum, x :: xs =>
    match Binary64.ofInt base with
    | .finite s m q => sumOfSixtieths (base * 60) (sum.add (x.mul (.finite s m q))) xs
    | _ => .error .tooManyPlaces

/-- A text in small letters and without underscores. -/
def plainWord (text : String) : List Char := (Text.lower (String.ofList (withoutGaps text))).toList

/-- Whether a text is the word for what is not a number. -/
def saysNan (text : String) : Bool := (signed (plainWord text)).2 = ".nan".toList

/-- The number that a tagged text stands for. -/
def floatValue (text : String) : Except Fault Binary64 :=
  match plainWord text with
  | [] => .error .noNumber
  | cs =>
    let (negative, body) := signed cs
    let magnitude : Except Fault Binary64 :=
      if body = ".inf".toList then .ok (.infinite false)
      else if body = ".nan".toList then .ok .nan
      else if body.contains ':' then do
        let places ← (betweenColons body).mapM numberIn
        sumOfSixtieths 1 (.ofInt 0) places.reverse
      else numberIn body
    magnitude.map fun x => if negative then x.neg else x

/-- The truth value that a tagged text stands for. -/
def boolValue (text : String) : Except Fault Bool :=
  let word := Text.lower text
  if ["yes", "true", "on"].contains word then .ok true
  else if ["no", "false", "off"].contains word then .ok false
  else .error (.truth word)

/-- The octets that a tagged text stands for. -/
def binaryValue (text : String) : Except Fault (List UInt8) :=
  if text.toList.all fun c => c.toNat < 0x80 then
    match Text.Base64.decode? text.toList with
    | some bs => .ok bs
    | none => .error .malformed
  else .error .malformed

/-- The value of a scalar with a tag of the language; `none` for any other tag. -/
def scalarValue? (tag text : String) : Option (Except Fault Node) :=
  if tag = standard "null" then some (.ok .null)
  else if tag = standard "bool" then some ((boolValue text).map .bool)
  else if tag = standard "int" then some ((intValue text).map .int)
  else if tag = standard "float" then some ((floatValue text).map .float)
  else if tag = standard "binary" then some ((binaryValue text).map .bytes)
  else if tag = standard "timestamp" then some (timestamp text.toList)
  else if tag = standard "str" then some (.ok (.str text))
  else none

end Yaml

end PlainSchema
