/-
PlainSchema/Text/Integer.lean

Integers written in base 2, 8, 10 or 16: blanks at the ends, a sign, the mark of the
base, and digits of any script with single underscores between them.  A decimal
number has a limit on its digits, both when it is read and when it is written; too
many digits are a fault whatever follows them.
-/
import PlainSchema.Text.Letter
import PlainSchema.Text.Quoted

namespace PlainSchema

namespace Text

/-- The most digits of a decimal integer. -/
def digitLimit : Nat := 4300

/-- Why a text is no integer. -/
inductive IntegerFault where
  /-- The text is not written as an integer in the base. -/
  | malformed (base : Nat) (text : String)
  /-- A decimal number has this many digits, more than the limit. -/
  | tooLong (digits : Nat)
  deriving DecidableEq, Repr

/-- The words for too many digits, with more about them. -/
def tooLongText (more : String) : String :=
  "Exceeds the limit (" ++ toString digitLimit ++ " digits) for integer string conversion" ++ more
    ++ "; use sys.set_int_max_str_digits() to increase the limit"

/-- How much of a text that is no integer is shown, with its quotes. -/
def shownLimit : Nat := 200

/-- The text of the fault. -/
def IntegerFault.message : IntegerFault → String
  | malformed base text =>
    "invalid literal for int() with base " ++ toString base ++ ": "
      ++ String.ofList ((quoted text).toList.take shownLimit)
  | tooLong digits => tooLongText (": value has " ++ toString digits ++ " digits")

/-- An integer has too many digits to be written. -/
structure LongInteger where
  deriving DecidableEq, Repr

/-- The text of the fault. -/
def LongInteger.message (_ : LongInteger) : String := tooLongText ""

/-- The value of a digit in bases up to 16. -/
def digitIn? (base : Nat) (c : Char) : Option Nat :=
  let value := match digitValue? c with
    | some n => some n
    | none =>
      if 'a' ≤ c ∧ c ≤ 'f' then some (c.toNat - 'a'.toNat + 10)
      else if 'A' ≤ c ∧ c ≤ 'F' then some (c.toNat - 'A'.toNat + 10)
      else none
  value.filter (· < base)

/-- The digits at the front of a text, with single underscores between them, and the rest; `none` if
an underscore does not stand between two digits.  `due` tells whether a digit has to come first. -/
def digitRun? (base : Nat) (due : Bool) : List Char → Option (List Nat × List Char)
  | [] => if due then none else some ([], [])
  | c :: cs =>
    match digitIn? base c with
    | some d => (digitRun? base false cs).map fun (ds, rest) => (d :: ds, rest)
    | none =>
      if due then none
      else if c = '_' then digitRun? base true cs
      else some ([], c :: cs)

/-- The number that digits stand for. -/
def ofDigits (base : Nat) (digits : List Nat) : Nat := digits.foldl (fun n d => n * base + d) 0

/-- The rest of a text after the mark of the base, and after one underscore behind the mark. -/
def afterMark (base : Nat) (cs : List Char) : List Char :=
  let marked : Option (List Char) := match base, cs with
    | 2, '0' :: 'b' :: cs | 2, '0' :: 'B' :: cs => some cs
    | 8, '0' :: 'o' :: cs | 8, '0' :: 'O' :: cs => some cs
    | 16, '0' :: 'x' :: cs | 16, '0' :: 'X' :: cs => some cs
    | _, _ => none
  match marked with
  | some ('_' :: cs) => cs
  | some cs => cs
  | none => cs

/-- The integer that a text stands for. -/
def integer (base : Nat) (text : String) : Except IntegerFault Int :=
  let (negative, cs) := match (stripNumber text).toList with
    | '-' :: cs => (true, cs)
    | '+' :: cs => (false, cs)
    | cs => (false, cs)
  match digitRun? base true (afterMark base cs) with
  | none => .error (.malformed base text)
  | some (ds, rest) =>
    if base = 10 ∧ digitLimit < ds.length then .error (.tooLong ds.length)
    else if rest ≠ [] then .error (.malformed base text)
    else
      let n : Int := ofDigits base ds
      .ok (if negative then -n else n)

end Text

end PlainSchema
