/-
PlainSchema/Binary64.lean

Binary floating-point numbers of 64 bits, as exact data.  A finite number is
`± significand · 2 ^ exponent`, so every question about it (which number is
nearest to a quotient, does it equal an integer) is one about natural numbers,
and nothing here depends on a machine's arithmetic.

`nearest` is the only way in: it rounds a quotient to the nearest number, a tie
going to the even significand.  Sum and product round the exact result once.  Powers
are `Nat.pow` by name, so that no other instance of a power can take its place.
-/
namespace PlainSchema

/-- A 64-bit binary floating-point number. -/
inductive Binary64 where
  /-- The number `significand · 2 ^ exponent`, with a sign that zero has too. -/
  | finite (negative : Bool) (significand : Nat) (exponent : Int)
  /-- An infinity. -/
  | infinite (negative : Bool)
  /-- The value that is not a number. -/
  | nan
  deriving DecidableEq, Repr, Inhabited

namespace Binary64

/-! ### Rounding -/

/-- The least exponent, that of the subnormal numbers. -/
def leastExponent : Int := -1074

/-- The greatest exponent of a finite number. -/
def greatestExponent : Int := 971

/-- A quotient rounded to a natural number, a tie to the even neighbour. -/
def roundQuotient (num den : Nat) : Nat :=
  let whole := num / den
  let rest := 2 * (num % den)
  if rest < den then whole
  else if den < rest then whole + 1
  else whole + whole % 2

/-- The quotient `num / den` over `2 ^ q`, as a numerator and a denominator. -/
def scale (num den : Nat) (q : Int) : Nat × Nat :=
  if 0 ≤ q then (num, den * Nat.pow 2 q.toNat) else (num * Nat.pow 2 (-q).toNat, den)

/-- The exponent at which `num / den` has a significand of 53 bits, or the least one. -/
def exponentOf (num den : Nat) : Int :=
  let guess : Int := (num.log2 : Int) - (den.log2 : Int)
  let (n, d) := scale num den guess
  max (if d ≤ n then guess - 52 else guess - 53) leastExponent

/-- The number nearest to `num / den`, with the given sign; a tie goes to the even significand
and what exceeds every finite number is an infinity. -/
def nearest (negative : Bool) (num den : Nat) : Binary64 :=
  if num = 0 then finite negative 0 leastExponent
  else
    let q := exponentOf num den
    let (n, d) := scale num den q
    let m := roundQuotient n d
    let (m, q) := if m = Nat.pow 2 53 then (Nat.pow 2 52, q + 1) else (m, q)
    if greatestExponent < q then infinite negative else finite negative m q

/-- The number nearest to `digits · 10 ^ exponent`. -/
def ofDecimal (negative : Bool) (digits : Nat) (exponent : Int) : Binary64 :=
  let magnitude : Int := ((toString digits).length : Int) + exponent
  if digits = 0 then finite negative 0 leastExponent
  else if 310 < magnitude then infinite negative
  else if magnitude < -330 then finite negative 0 leastExponent
  else if 0 ≤ exponent then nearest negative (digits * Nat.pow 10 exponent.toNat) 1
  else nearest negative digits (Nat.pow 10 (-exponent).toNat)

/-- The number nearest to an integer. -/
def ofInt (i : Int) : Binary64 := nearest (i < 0) i.natAbs 1

/-! ### Arithmetic -/

/-- The same number with the other sign. -/
def neg : Binary64 → Binary64
  | finite s m q => finite (!s) m q
  | infinite s => infinite (!s)
  | nan => nan

/-- `m · 2 ^ q` as an integer multiple of `2 ^ at`, for `at ≤ q`. -/
def multipleAt (m : Nat) (q place : Int) : Nat := m * Nat.pow 2 (q - place).toNat

/-- The number nearest to `units · 2 ^ place`. -/
def ofUnits (negative : Bool) (units : Nat) (place : Int) : Binary64 :=
  if 0 ≤ place then nearest negative (units * Nat.pow 2 place.toNat) 1
  else nearest negative units (Nat.pow 2 (-place).toNat)

/-- The sum, rounded once; a sum of opposite numbers is the positive zero. -/
def add : Binary64 → Binary64 → Binary64
  | nan, _ => nan
  | _, nan => nan
  | infinite s, infinite t => if s = t then infinite s else nan
  | infinite s, finite .. => infinite s
  | finite .., infinite t => infinite t
  | finite s m q, finite t n r =>
    let place := min q r
    let a := multipleAt m q place
    let b := multipleAt n r place
    if s = t then ofUnits s (a + b) place
    else if a = b then finite false 0 leastExponent
    else if b < a then ofUnits s (a - b) place
    else ofUnits t (b - a) place

/-- The product, rounded once. -/
def mul : Binary64 → Binary64 → Binary64
  | nan, _ => nan
  | _, nan => nan
  | infinite s, infinite t => infinite (s != t)
  | infinite s, finite t n _ => if n = 0 then nan else infinite (s != t)
  | finite s m _, infinite t => if m = 0 then nan else infinite (s != t)
  | finite s m q, finite t n r => ofUnits (s != t) (m * n) (q + r)

/-! ### Comparison -/

/-- Equality of numbers: the two zeros are equal, and the value that is not a number equals
nothing. -/
def same : Binary64 → Binary64 → Bool
  | finite s m q, finite t n r =>
    let place := min q r
    let a := multipleAt m q place
    let b := multipleAt n r place
    a = b && (s = t || a = 0)
  | infinite s, infinite t => s = t
  | _, _ => false

/-- Whether the number is exactly the integer. -/
def isInt (x : Binary64) (i : Int) : Bool :=
  match x with
  | finite s m q =>
    let place := min q 0
    let a := multipleAt m q place
    let b := multipleAt i.natAbs 0 place
    a = b && (a = 0 || s = decide (i < 0))
  | _ => false

end Binary64

end PlainSchema
