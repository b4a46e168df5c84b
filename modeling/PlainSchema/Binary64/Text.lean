/-
PlainSchema/Binary64/Text.lean

The decimal text of a binary floating-point number.  `shortest` finds the fewest
decimal digits that read back as the number: for one digit, two digits, and so on
it looks at the two neighbours of the number on that decimal grid, and the first
grid with a neighbour inside the interval of reals that round to the number wins
(of two such neighbours the nearer, a tie going to the even digit).

`NumberStyle` holds what a format decides for itself: where positional notation
ends, how an exponent is spelt, and the words for the special values.
-/
import PlainSchema.Binary64

namespace PlainSchema

namespace Binary64

/-! ### The fewest digits that read back -/

/-- The digits and the place of a decimal number: it is `0.d₁d₂… · 10 ^ point`. -/
structure Decimal where
  digits : Nat
  point : Int
  deriving DecidableEq, Repr

/-- The number of decimal digits. -/
def digitCount (n : Nat) : Nat := (Nat.toDigits 10 n).length

/-- The number `m · 2 ^ q` and the ends of the interval that rounds to it, all three as
multiples of one unit: `num · unit`, `low · unit`, `high · unit`, where `unit` is
`1 / den`. -/
structure Interval where
  num : Nat
  low : Nat
  high : Nat
  den : Nat
  /-- An end belongs to the interval exactly if the significand is even. -/
  closed : Bool

/-- The interval of reals that round to `m · 2 ^ q`. -/
def intervalOf (m : Nat) (q : Int) : Interval :=
  -- Below a power of two the grid is twice as fine.
  let lowGap := if m = Nat.pow 2 52 ∧ leastExponent < q then 1 else 2
  let up := Nat.pow 2 (q - 2).toNat
  let down := Nat.pow 2 (2 - q).toNat
  ⟨4 * m * up, (4 * m - lowGap) * up, (4 * m + 2) * up, down, m % 2 = 0⟩

/-- Whether `n / 10 ^ places` (`places` may be negative) lies in the interval. -/
def Interval.holds (i : Interval) (n : Nat) (places : Int) : Bool :=
  let value := n * i.den * Nat.pow 10 (-places).toNat
  let grid := Nat.pow 10 places.toNat
  if i.closed then i.low * grid ≤ value && value ≤ i.high * grid
  else i.low * grid < value && value < i.high * grid

/-- The point of the grid of `10 ^ -places` that reads back and is nearest, if any does. -/
def Interval.onGrid? (i : Interval) (places : Int) : Option Nat :=
  let num := i.num * Nat.pow 10 places.toNat
  let den := i.den * Nat.pow 10 (-places).toNat
  let below := num / den
  let above := below + 1
  let rest := 2 * (num % den)
  match i.holds below places && 0 < below, i.holds above places with
  | true, true =>
    some (if rest < den then below else if den < rest then above else below + below % 2)
  | true, false => some below
  | false, true => some above
  | false, false => none

/-- The number `p` with `10 ^ (p - 1) ≤ num / den < 10 ^ p`, found from the guess that the
counts of digits give. -/
def pointOf (num den : Nat) : Int :=
  let guess : Int := (digitCount num : Int) - (digitCount den : Int)
  if num * Nat.pow 10 (-guess).toNat < den * Nat.pow 10 guess.toNat then guess else guess + 1

/-- Tries 17 digits at most, and as few as read back. -/
def Interval.search (i : Interval) (point : Int) : Nat → Nat → Decimal
  | 0, _ => ⟨0, 0⟩
  | tries + 1, count =>
    match i.onGrid? ((count : Int) - point) with
    | some n => ⟨n, point - count + digitCount n⟩
    | none => i.search point tries (count + 1)

/-- The digits without the zeros at their end. -/
def dropZeros : Nat → Nat → Nat
  | 0, n => n
  | fuel + 1, n => if n % 10 = 0 ∧ n ≠ 0 then dropZeros fuel (n / 10) else n

/-- The shortest decimal number that rounds to `m · 2 ^ q`, for `m` above zero. -/
def shortest (m : Nat) (q : Int) : Decimal :=
  let i := intervalOf m q
  let d := i.search (pointOf i.num i.den) 17 1
  ⟨dropZeros 17 d.digits, d.point⟩

/-! ### Spelling -/

/-- What a format decides about its numbers. -/
structure NumberStyle where
  /-- Positional notation is used while the point lies after at least this place … -/
  least : Int
  /-- … and at most this one. -/
  most : Int
  /-- Written where a number in exponent notation has one digit only. -/
  bareFraction : String
  infinity : String
  minusInfinity : String
  notANumber : String

/-- Zeros. -/
def zeros (n : Nat) : String := String.ofList (List.replicate n '0')

/-- A decimal number in positional notation, with at least one digit after the point. -/
def positional (d : Decimal) : String :=
  let text := toString d.digits
  let count : Int := text.length
  if d.point ≤ 0 then "0." ++ zeros (-d.point).toNat ++ text
  else if count ≤ d.point then text ++ zeros (d.point - count).toNat ++ ".0"
  else
    let cs := text.toList
    String.ofList (cs.take d.point.toNat) ++ "." ++ String.ofList (cs.drop d.point.toNat)

/-- A decimal number in exponent notation; the exponent has a sign and two digits at least. -/
def exponential (style : NumberStyle) (d : Decimal) : String :=
  let e := d.point - 1
  let size := toString e.natAbs
  let exponent := (if e < 0 then "-" else "+") ++ (if size.length < 2 then "0" ++ size else size)
  match (toString d.digits).toList with
  | [c] => c.toString ++ style.bareFraction ++ "e" ++ exponent
  | c :: cs => c.toString ++ "." ++ String.ofList cs ++ "e" ++ exponent
  | [] => ""

/-- The text of a number in a style. -/
def format (style : NumberStyle) : Binary64 → String
  | nan => style.notANumber
  | infinite false => style.infinity
  | infinite true => style.minusInfinity
  | finite s m q =>
    let sign := if s then "-" else ""
    if m = 0 then sign ++ "0.0"
    else
      let d := shortest m q
      sign ++ if style.least < d.point && d.point ≤ style.most then positional d
        else exponential style d

end Binary64

end PlainSchema
