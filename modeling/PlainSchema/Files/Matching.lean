/-
PlainSchema/Files/Matching.lean

Which ways a pattern matches, and which ways lead to a file.

Nothing is told here of how files are found.  A wildcard covers a name that falls into
parts, one for each piece of the wildcard; a pattern matches a way that falls into
parts, one for each segment of the pattern.  Only ways to files are meant: a pattern
that ends in a slash or in two stars asks for directories, and matches no way.
-/
import PlainSchema.Files.Selection

namespace PlainSchema

/-! ### Names -/

/-- The texts that a piece of a wildcard stands for. -/
inductive Piece.Covers : Piece → List Char → Prop
  | many (cs : List Char) : Covers .many cs
  | one (c : Char) : Covers .one [c]
  | only (c : Char) : Covers (.only c) [c]
  | among {negated : Bool} {ranges : List (Char × Char)} {c : Char} :
      ((∃ r ∈ ranges, r.1 ≤ c ∧ c ≤ r.2) ↔ negated = false) → Covers (.among negated ranges) [c]

/-- The names that a wildcard stands for. -/
inductive Wildcard.Covers : Wildcard → List Char → Prop
  | nil : Covers [] []
  | cons {piece : Piece} {ps : Wildcard} {part cs : List Char} :
      piece.Covers part → Covers ps cs → Covers (piece :: ps) (part ++ cs)

/-! ### Ways -/

/-- The ways to files that a pattern stands for.  Two dots are not a name, so that they are matched
only where they are written. -/
inductive Pattern.Matches : Pattern → List String → Prop
  | nil : Matches [] []
  | name {part : String} {left : Pattern} {way : List String} :
      Matches left way → Matches (.name part :: left) (part :: way)
  | names {wildcard : Wildcard} {part : String} {left : Pattern} {way : List String} :
      wildcard.Covers part.toList → part ≠ ".." → Matches left way →
      Matches (.names wildcard :: left) (part :: way)
  | anyDepth {between : List String} {left : Pattern} {way : List String} :
      ".." ∉ between → way ≠ [] → Matches left way → Matches (.anyDepth :: left) (between ++ way)

/-- Whether the text of one of several patterns matches a way. -/
def Pattern.MatchesOne (texts : List String) (way : List String) : Prop :=
  ∃ text ∈ texts, ∃ pattern, Pattern.ofText text = .ok pattern ∧ pattern.Matches way

namespace FileTree

/-- Whether a way leads from a place to another, from directory to directory.  Two dots lead
back. -/
inductive Leads (t : FileTree) : Place → List String → Place → Prop
  | here {here : Place} : Leads t here [] here
  | enter {here place : Place} {part : String} {way : List String} :
      t.isDirectoryAt here = true → Leads t (if part = ".." then here.dropLast else here ++ [part])
        way place → Leads t here (part :: way) place

/-- Whether a way from a directory leads to a file. -/
def IsFileWay (t : FileTree) (root : Place) (way : List String) : Prop :=
  ∃ place, t.Leads root way place ∧ t.isFileAt place = true

end FileTree

end PlainSchema
