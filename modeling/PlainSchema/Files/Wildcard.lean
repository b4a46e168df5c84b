/-
PlainSchema/Files/Wildcard.lean

Wildcards for file names: `*` for any characters, `?` for one, and characters in
square brackets for one of them, or none of them after an exclamation mark.  A
bracket that is not closed stands for itself.

Inside brackets a hyphen between two characters makes a range.  Where the range runs
backwards it stands for nothing, and what is left around it closes up; an exclamation
mark that comes to stand first in this way turns the set around like any other.
-/
namespace PlainSchema

/-- A piece of a wildcard. -/
inductive Piece where
  | many
  | one
  | only (c : Char)
  | among (negated : Bool) (ranges : List (Char × Char))
  deriving DecidableEq, Repr

/-- A wildcard. -/
abbrev Wildcard := List Piece

namespace Wildcard

/-! ### Sets in brackets -/

/-- What stands between an opening bracket and the bracket that closes it, and the rest.  A closing
bracket that stands first, or first after an exclamation mark, belongs to the set. -/
def bracketed? (cs : List Char) : Option (List Char × List Char) :=
  let (front, cs) := match cs with
    | '!' :: ']' :: cs => (['!', ']'], cs)
    | '!' :: cs => (['!'], cs)
    | ']' :: cs => ([']'], cs)
    | cs => ([], cs)
  match cs.dropWhile (· ≠ ']') with
  | [] => none
  | _ :: rest => some (front ++ cs.takeWhile (· ≠ ']'), rest)

/-- Cuts a set at the hyphens of its ranges.  The next `skip` characters are the ends of a range,
and a hyphen among them stands for itself. -/
def chunks (skip : Nat) (chunk : List Char) : List Char → List (List Char)
  | [] => [chunk]
  | c :: cs =>
    if skip = 0 && c = '-' then chunk :: chunks 2 [] cs else chunks (skip - 1) (chunk ++ [c]) cs

/-- A hyphen at the end stands for itself. -/
def withLastHyphen : List (List Char) → List (List Char)
  | [chunk, []] => [chunk ++ ['-']]
  | chunk :: rest => chunk :: withLastHyphen rest
  | [] => []

/-- Whether a range from the end of one chunk to the start of the next runs backwards. -/
def runsBackwards (chunk next : List Char) : Bool :=
  match chunk.getLast?, next.head? with
  | some a, some b => b < a
  | _, _ => false

/-- Closes up the chunks around each range that runs backwards. -/
def closeUp : List (List Char) → List (List Char)
  | [] => []
  | chunk :: rest =>
    match closeUp rest with
    | [] => [chunk]
    | next :: more =>
      if runsBackwards chunk next then (chunk.dropLast ++ next.tail) :: more
      else chunk :: next :: more

/-- The characters of a set, with `none` for the hyphens of its ranges. -/
def tokens (cs : List Char) : List (Option Char) :=
  let skip := if cs.head? = some '!' then 2 else 1
  List.intercalate [none] ((closeUp (withLastHyphen (chunks skip [] cs))).map (·.map some))

/-- The ranges of a set; a single character is a range of one. -/
def ranges : List (Option Char) → List (Char × Char)
  | some a :: none :: some b :: rest => (a, b) :: ranges rest
  | some a :: rest => (a, a) :: ranges rest
  | none :: rest => ('-', '-') :: ranges rest
  | [] => []

/-- The piece for a set. -/
def setPiece (cs : List Char) : Piece :=
  match tokens cs with
  | some '!' :: rest => .among true (ranges rest)
  | rest => .among false (ranges rest)

/-! ### Reading and matching -/

/-- The pieces of a text; `bound` is at least the number of its characters. -/
def piecesOf : Nat → List Char → Wildcard
  | _, [] => []
  | 0, _ => []
  | bound + 1, '*' :: cs => .many :: piecesOf bound cs
  | bound + 1, '?' :: cs => .one :: piecesOf bound cs
  | bound + 1, '[' :: cs =>
    match bracketed? cs with
    | some (set, rest) => setPiece set :: piecesOf bound rest
    | none => .only '[' :: piecesOf bound cs
  | bound + 1, c :: cs => .only c :: piecesOf bound cs

/-- The wildcard that a text stands for. -/
def ofText (text : String) : Wildcard := piecesOf text.length text.toList

/-- Whether a character is in a set. -/
def inSet (negated : Bool) (ranges : List (Char × Char)) (c : Char) : Bool :=
  (ranges.any fun (a, b) => a ≤ c && c ≤ b) != negated

/-- Whether a wildcard matches a text. -/
def accepts : Wildcard → List Char → Bool
  | [], cs => cs.isEmpty
  | .many :: ps, [] => accepts ps []
  | .many :: ps, c :: cs => accepts ps (c :: cs) || accepts (.many :: ps) cs
  | .one :: ps, _ :: cs => accepts ps cs
  | .only p :: ps, c :: cs => p = c && accepts ps cs
  | .among negated ranges :: ps, c :: cs => inSet negated ranges c && accepts ps cs
  | _ :: _, [] => false
termination_by ps cs => (ps.length, cs.length)

end Wildcard

end PlainSchema
