/-
PlainSchema/Schema/Noting.lean

The cleaner as it runs: it makes a note of every list of types that it splits, with
the text of its place, and so does the fault of a list of nothing but null.

A place behind an integer key of too many digits has no text.  A list of types there
ends the cleaning before it is split, whatever its types are; the notes up to it have
been made.
-/
import PlainSchema.Schema.Splits

namespace PlainSchema

namespace Schema

/-- What keeps a document from being cleaned. -/
inductive Obstacle where
  /-- A list of types of nothing but null. -/
  | types (fault : NullOnlyTypes)
  /-- A list of types at a place that has no text. -/
  | place (path : Pointer)
  deriving Inhabited, Repr

/-- The obstacle that a fault is: it tells its place, if that has a text. -/
def NullOnlyTypes.obstacle (e : NullOnlyTypes) : Obstacle :=
  if e.path.hasText then .types e else .place e.path

/-- An answer of the cleaner that comes after some splits.  The first of them at a place without a
text is as far as the cleaner gets. -/
def noting {α : Type} (splits : List Split) (answer : Except NullOnlyTypes α) : Except Obstacle α :=
  match splits.find? fun s => !s.path.hasText with
  | some s => .error (.place s.path)
  | none => answer.mapError NullOnlyTypes.obstacle

/-- Cleans the node at a place and makes notes; `none` if it is dropped. -/
def cleanNotingAt (n : Node) (path : Pointer) : Except Obstacle (Option Node) :=
  noting (splitsAt n path).1 (cleanAt n path)

/-- Cleans a document and makes notes; `none` if nothing of it is left. -/
def cleanNoting (n : Node) : Except Obstacle (Option Node) := cleanNotingAt n []

/-- The splits of a document of which notes are made. -/
def notedSplits (n : Node) : List Split := (splits n).takeWhile fun s => s.path.hasText

end Schema

end PlainSchema
