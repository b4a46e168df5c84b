/-
PlainSchema/Files/Change.lean

What has to be done to a tree of files to make it another one.  A directory is made
before what goes into it, since new entries stand in the order in which they were
put.
-/
import PlainSchema.Files.Tree

namespace PlainSchema

/-- What is to be at a place; `none` if nothing is. -/
structure Change where
  place : Place
  entry : Option Entry
  deriving DecidableEq, Repr

namespace FileTree

/-- The changes from one tree to another. -/
def changes (old new : FileTree) : List Change :=
  (new.entries.filter fun e => old.at? e.1 ≠ some e.2).map (fun e => ⟨e.1, some e.2⟩)
    ++ (old.entries.filter fun e => (new.at? e.1).isNone).map (fun e => ⟨e.1, none⟩)

end FileTree

end PlainSchema
