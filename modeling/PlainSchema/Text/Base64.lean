/-
PlainSchema/Text/Base64.lean

Octets as texts in base 64.  A text is written in lines of 76 characters.  Reading
passes over all characters that are no digits and ends at the padding of a group; a
group that is cut short is refused.
-/
namespace PlainSchema

namespace Text

namespace Base64

/-- The digits in order. -/
def alphabet : List Char :=
  "ABCDEFGHIJKLMNOPQRSTUVWXYZabcdefghijklmnopqrstuvwxyz0123456789+/".toList

/-- The digit of a value below 64. -/
def digit (n : Nat) : Char := alphabet.getD n 'A'

/-- The value of a digit. -/
def value? (c : Char) : Option Nat := alphabet.findIdx? (· = c)

/-- The digits of octets, padded to groups of four. -/
def encode : List UInt8 → List Char
  | a :: b :: c :: rest =>
    let n := (a.toNat * 256 + b.toNat) * 256 + c.toNat
    digit (n / 262144) :: digit (n / 4096 % 64) :: digit (n / 64 % 64) :: digit (n % 64)
      :: encode rest
  | [a, b] =>
    let n := (a.toNat * 256 + b.toNat) * 4
    [digit (n / 4096), digit (n / 64 % 64), digit (n % 64), '=']
  | [a] =>
    let n := a.toNat * 16
    [digit (n / 64), digit (n % 64), '=', '=']
  | [] => []

/-- The lines of octets, 57 to a line; `bound` is at least their number. -/
def linesFrom : Nat → List UInt8 → List Char
  | 0, _ => []
  | _ + 1, [] => []
  | bound + 1, b :: bs =>
    encode ((b :: bs).take 57) ++ '\n' :: linesFrom bound ((b :: bs).drop 57)

/-- The lines of octets, each ending in a line feed. -/
def lines (bs : List UInt8) : List Char := linesFrom bs.length bs

/-- Reads on.  `count` digits of a group are read, of which the bits in `left` belong to no octet
yet, and `pads` signs of padding follow them. -/
def decodeFrom (count left pads : Nat) : List Char → Option (List UInt8)
  | [] => if count = 0 then some [] else none
  | c :: cs =>
    if c = '=' then
      if 2 ≤ count then
        if 4 ≤ count + pads + 1 then some [] else decodeFrom count left (pads + 1) cs
      else decodeFrom count left pads cs
    else
      match value? c with
      | none => decodeFrom count left pads cs
      | some v =>
        match count with
        | 0 => decodeFrom 1 v 0 cs
        | 1 => (decodeFrom 2 (v % 16) 0 cs).map (UInt8.ofNat (left * 4 + v / 16) :: ·)
        | 2 => (decodeFrom 3 (v % 4) 0 cs).map (UInt8.ofNat (left * 16 + v / 4) :: ·)
        | _ => (decodeFrom 0 0 0 cs).map (UInt8.ofNat (left * 64 + v) :: ·)

/-- The octets that a text stands for. -/
def decode? (cs : List Char) : Option (List UInt8) := decodeFrom 0 0 0 cs

end Base64

end Text

end PlainSchema
