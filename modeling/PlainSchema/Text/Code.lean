/-
PlainSchema/Text/Code.lean

Codes of texts.  Unicode has codes that are no characters: the halves of surrogate
pairs, of which two together stand for one character.  An escape can name a half that
stands alone.  A text with such a half is no list of characters, and cannot be encoded
but for the halves that stand for octets which are no UTF-8.

`spelled` gives every list of codes a text of characters of its own, so that what
looks at the characters of a text only to compare them can be given that text instead
(`unspelled_spelled`).
-/
namespace PlainSchema

namespace Text

/-- A half of a surrogate pair, counted from the first one on. -/
abbrev Half := Fin 0x800

/-- A code of a text. -/
inductive Code where
  | char (c : Char)
  /-- A half of a surrogate pair that stands alone. -/
  | half (h : Half)
  deriving DecidableEq, Repr, Inhabited

/-- The code of a number that is no more than the last character. -/
def Code.ofNat (n : Nat) : Code :=
  if h : 0xd800 ≤ n ∧ n < 0xe000 then .half ⟨n - 0xd800, by omega⟩ else .char (Char.ofNat n)

/-- Whether a code is no character. -/
def Code.isHalf : Code → Bool
  | char _ => false
  | half _ => true

/-- The characters of codes; `none` if there is a half among them. -/
def whole? : List Code → Option (List Char)
  | [] => some []
  | .char c :: codes => (whole? codes).map (c :: ·)
  | .half _ :: _ => none

@[simp] theorem whole?_map_char (cs : List Char) : whole? (cs.map .char) = some cs := by
  induction cs with
  | nil => rfl
  | cons c cs ih => rw [List.map_cons, whole?, ih, Option.map_some]

/-! ### Encoding -/

/-- Halves that cannot be encoded: the first of them, its place, and how many halves stand there. -/
structure HalfFault where
  first : Half
  place : Nat
  count : Nat
  deriving DecidableEq, Repr

/-- The text of the fault. -/
def HalfFault.message (e : HalfFault) : String :=
  "'utf-8' codec can't encode "
    ++ (if e.count = 1 then
        "character '\\u" ++ String.ofList (Nat.toDigits 16 (0xd800 + e.first)) ++ "' in position "
          ++ toString e.place
      else "characters in position " ++ toString e.place ++ "-" ++ toString (e.place + e.count - 1))
    ++ ": surrogates not allowed"

/-- Whether a half stands for an octet that is no UTF-8. -/
def standsForOctet (h : Half) : Bool := 0x480 ≤ h.val && h.val < 0x500

/-- The first halves among codes that cannot be encoded; the first code is at the given place. -/
def halfFault? (place : Nat) : List Code → Option HalfFault
  | [] => none
  | .char _ :: codes => halfFault? (place + 1) codes
  | .half h :: codes =>
    if standsForOctet h then halfFault? (place + 1) codes
    else some ⟨h, place, 1 + (codes.takeWhile Code.isHalf).length⟩

/-! ### Spelling -/

/-- The character with which the spelling of a half starts, and which is itself spelled twice. -/
def mark : Char := Char.ofNat 0x10ffff

/-- The characters that a code is spelled with. -/
def Code.spelled : Code → List Char
  | char c => if c = mark then [mark, mark] else [c]
  | half h => [mark, Char.ofNat (0xe000 + h)]

/-- The characters that codes are spelled with. -/
def spelled (codes : List Code) : List Char := codes.flatMap Code.spelled

/-- The codes that characters spell. -/
def unspelled : List Char → List Code
  | [] => []
  | [c] => [.char c]
  | c :: d :: cs =>
    if c = mark then
      (if d = mark then .char mark else .half (Fin.ofNat 0x800 (d.toNat - 0xe000))) :: unspelled cs
    else .char c :: unspelled (d :: cs)

theorem unspelled_spelled_append (code : Code) (cs : List Char) :
    unspelled (code.spelled ++ cs) = code :: unspelled cs := by
  cases code with
  | char c =>
    by_cases hc : c = mark
    · simp [Code.spelled, hc, unspelled]
    · cases cs <;> simp [Code.spelled, hc, unspelled]
  | half h =>
    -- The second character is one of its own for each half, and is never the mark.
    have valid : (0xe000 + h.val).isValidChar := by
      refine .inr ⟨?_, ?_⟩ <;> omega
    have back : (Char.ofNat (0xe000 + h.val)).toNat = 0xe000 + h.val := by
      rw [Char.ofNat, dif_pos valid]; rfl
    have other : Char.ofNat (0xe000 + h.val) ≠ mark := by
      intro e
      have low := congrArg Char.toNat e
      rw [back, show mark.toNat = 0x10ffff from by decide] at low
      omega
    have sub : 0xe000 + h.val - 0xe000 = h.val := by omega
    simp [Code.spelled, unspelled, other, back, sub]

/-- Codes come back from their spelling. -/
theorem unspelled_spelled (codes : List Code) : unspelled (spelled codes) = codes := by
  induction codes with
  | nil => rfl
  | cons code codes ih =>
    rw [spelled, List.flatMap_cons, ← spelled, unspelled_spelled_append, ih]

/-- The spelling of a text. -/
def spelling (s : String) : String := String.ofList (spelled (s.toList.map .char))

/-- The text of a spelling; `none` if it has a half. -/
def ofSpelling? (s : String) : Option String := (whole? (unspelled s.toList)).map String.ofList

/-- A text comes back from its spelling. -/
theorem ofSpelling?_spelling (s : String) : ofSpelling? (spelling s) = some s := by
  rw [ofSpelling?, spelling, String.toList_ofList, unspelled_spelled, whole?_map_char,
    Option.map_some, String.ofList_toList]

end Text

end PlainSchema
