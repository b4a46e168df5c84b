/-
PlainSchema/Text/Likeness.lean

How much two texts have in common.  The longest part that both contain is found
first, the leftmost of several, and then the parts on its two sides are compared in
the same way; `common` adds up the lengths.  Texts are alike if what they have in
common is at least three fifths of them.
-/
namespace PlainSchema

namespace Text

/-- The length of the common start of two texts. -/
def commonStart : List Char → List Char → Nat
  | a :: as, b :: bs => if a = b then commonStart as bs + 1 else 0
  | _, _ => 0

/-- A part that two texts have in common: where it starts in each of them, and its length. -/
structure CommonPart where
  left : Nat
  right : Nat
  length : Nat
  deriving DecidableEq, Repr

/-- The longest common part, the first one in the left text and then in the right one. -/
def longestPart (as bs : List Char) : CommonPart :=
  (List.range as.length).foldl (fun best i =>
    (List.range bs.length).foldl (fun best j =>
      let n := commonStart (as.drop i) (bs.drop j)
      if best.length < n then ⟨i, j, n⟩ else best) best) ⟨0, 0, 0⟩

/-- `common` for texts of which the first has at most `bound` characters. -/
def commonWithin : Nat → List Char → List Char → Nat
  | 0, _, _ => 0
  | bound + 1, as, bs =>
    let part := longestPart as bs
    if part.length = 0 then 0
    else
      part.length + commonWithin bound (as.take part.left) (bs.take part.right)
        + commonWithin bound (as.drop (part.left + part.length))
          (bs.drop (part.right + part.length))

/-- How many characters two texts have in common. -/
def common (a b : String) : Nat := commonWithin a.length a.toList b.toList

/-- Whether two texts are alike. -/
def alike (a b : String) : Bool := 3 * (a.length + b.length) ≤ 10 * common a b

end Text

end PlainSchema
