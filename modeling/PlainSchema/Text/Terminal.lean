/-
PlainSchema/Text/Terminal.lean

Texts without the sequences that tell a terminal to change colour: the escape
character, an opening bracket, numbers, and a letter.
-/
namespace PlainSchema

namespace Text

/-- Whether a character is one of the numbers of a sequence. -/
def isSequenceNumber (c : Char) : Bool := c = ';' || c = '?' || c.isDigit

/-- What follows the sequence after an opening bracket, if it is one. -/
def afterSequence? (cs : List Char) : Option (List Char) :=
  match cs.dropWhile isSequenceNumber with
  | c :: rest => if c.isAlpha then some rest else none
  | [] => none

theorem length_afterSequence? {cs rest : List Char} (h : afterSequence? cs = some rest) :
    rest.length < cs.length := by
  have hle := (List.dropWhile_sublist (l := cs) isSequenceNumber).length_le
  unfold afterSequence? at h
  split at h
  · next c r hr =>
    split at h
    · cases h
      rw [hr, List.length_cons] at hle
      omega
    · cases h
  · cases h

/-- The text without the sequences. -/
def withoutColours (cs : List Char) : List Char :=
  match cs with
  | '\x1b' :: '[' :: cs =>
    match h : afterSequence? cs with
    | some rest =>
      have := length_afterSequence? h
      withoutColours rest
    | none => '\x1b' :: '[' :: withoutColours cs
  | c :: cs => c :: withoutColours cs
  | [] => []
termination_by cs.length

end Text

end PlainSchema
