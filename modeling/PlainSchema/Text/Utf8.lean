/-
PlainSchema/Text/Utf8.lean

Characters as octets and back.  A sequence is refused at the octet where it stops
being the start of a character; the fault names the octets read so far that belong
together.
-/
namespace PlainSchema

namespace Text

/-- What is wrong with octets. -/
inductive Utf8Cause where
  | start
  | continuation
  | unexpectedEnd
  deriving DecidableEq, Repr

/-- The octets that are no character: the first of them, the place of the first, and how many they
are. -/
structure Utf8Fault where
  cause : Utf8Cause
  octet : UInt8
  place : Nat
  count : Nat
  deriving DecidableEq, Repr

/-- The words for the cause. -/
def Utf8Cause.message : Utf8Cause → String
  | start => "invalid start byte"
  | continuation => "invalid continuation byte"
  | unexpectedEnd => "unexpected end of data"

/-- The text of the fault. -/
def Utf8Fault.message (e : Utf8Fault) : String :=
  let ds := Nat.toDigits 16 e.octet.toNat
  let octet := String.ofList (List.replicate (2 - ds.length) '0' ++ ds)
  "'utf-8' codec can't decode "
    ++ (if e.count = 1 then "byte 0x" ++ octet ++ " in position " ++ toString e.place
      else "bytes in position " ++ toString e.place ++ "-" ++ toString (e.place + e.count - 1))
    ++ ": " ++ e.cause.message

/-- How a first octet starts a character: the number of octets after it, the bits it adds, and the
least and greatest value of the octet after it. -/
def lead? (b : Nat) : Option (Nat × Nat × Nat × Nat) :=
  if b < 0x80 then some (0, b, 0x80, 0xbf)
  else if 0xc2 ≤ b ∧ b ≤ 0xdf then some (1, b - 0xc0, 0x80, 0xbf)
  else if b = 0xe0 then some (2, 0, 0xa0, 0xbf)
  else if b = 0xed then some (2, 0xd, 0x80, 0x9f)
  else if 0xe1 ≤ b ∧ b ≤ 0xef then some (2, b - 0xe0, 0x80, 0xbf)
  else if b = 0xf0 then some (3, 0, 0x90, 0xbf)
  else if b = 0xf4 then some (3, 4, 0x80, 0x8f)
  else if 0xf1 ≤ b ∧ b ≤ 0xf3 then some (3, b - 0xf0, 0x80, 0xbf)
  else none

/-- The octets after the first one: the code with their bits and the rest, or how many were right
and why the next one is not. -/
def tail : Nat → Nat → Nat → Nat → List UInt8 → Except (Nat × Utf8Cause) (Nat × List UInt8)
  | 0, code, _, _, bs => .ok (code, bs)
  | _ + 1, _, _, _, [] => .error (0, .unexpectedEnd)
  | n + 1, code, low, high, b :: bs =>
    if low ≤ b.toNat ∧ b.toNat ≤ high then
      match tail n (code * 64 + (b.toNat - 0x80)) 0x80 0xbf bs with
      | .ok found => .ok found
      | .error (right, cause) => .error (right + 1, cause)
    else .error (0, .continuation)

/-- The first character, the number of its octets and the rest, or how many octets in front are no
character, and why. -/
def firstChar : List UInt8 → Except (Nat × Utf8Cause) (Char × Nat × List UInt8)
  | [] => .error (0, .unexpectedEnd)
  | b :: bs =>
    match lead? b.toNat with
    | none => .error (1, .start)
    | some (n, code, low, high) =>
      match tail n code low high bs with
      | .ok (code, bs) => .ok (Char.ofNat code, n + 1, bs)
      | .error (right, cause) => .error (right + 1, cause)

/-- The characters of octets, the first of which is at the given place; `bound` is at least their
number. -/
def decodeFrom : Nat → Nat → List UInt8 → Except Utf8Fault (List Char)
  | 0, _, _ => .ok []
  | _ + 1, _, [] => .ok []
  | bound + 1, place, b :: bs =>
    match firstChar (b :: bs) with
    | .error (count, cause) => .error ⟨cause, b, place, count⟩
    | .ok (c, count, rest) => (decodeFrom bound (place + count) rest).map (c :: ·)

/-- The characters of octets. -/
def decodeUtf8 (bs : List UInt8) : Except Utf8Fault (List Char) := decodeFrom bs.length 0 bs

/-- The octets of a character. -/
def octetsOf (c : Char) : List UInt8 :=
  let n := c.toNat
  if n < 0x80 then [UInt8.ofNat n]
  else if n < 0x800 then [UInt8.ofNat (0xc0 + n / 64), UInt8.ofNat (0x80 + n % 64)]
  else if n < 0x10000 then
    [UInt8.ofNat (0xe0 + n / 4096), UInt8.ofNat (0x80 + n / 64 % 64), UInt8.ofNat (0x80 + n % 64)]
  else
    [UInt8.ofNat (0xf0 + n / 262144), UInt8.ofNat (0x80 + n / 4096 % 64),
      UInt8.ofNat (0x80 + n / 64 % 64), UInt8.ofNat (0x80 + n % 64)]

/-- The octets of a text. -/
def encodeUtf8 (cs : List Char) : List UInt8 := cs.flatMap octetsOf

end Text

end PlainSchema
