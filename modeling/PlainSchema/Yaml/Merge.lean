/-
PlainSchema/Yaml/Merge.lean

Merge keys.  A mapping takes over the entries of the mappings under its merge keys, in
front of its own, and has no merge keys then.  The mappings that it takes from lose
their own merge keys in the same way.  Of several mappings under one key the last one
comes first.  What a mapping takes over from one around it is not followed.
-/
import PlainSchema.Yaml.Tree

namespace PlainSchema

namespace Yaml

/-- What the entries of a mapping are without its merge keys. -/
structure Merged where
  /-- The entries that the merge keys bring in. -/
  taken : List (Tree × Tree)
  /-- The entries under other keys. -/
  own : List (Tree × Tree)
  /-- The labels of the mappings that entries are taken from, directly or not. -/
  sources : List Nat

namespace Merged

/-- No entries. -/
def none : Merged := ⟨[], [], []⟩

/-- All entries, those that are taken over first. -/
def entries (m : Merged) : List (Tree × Tree) := m.taken ++ m.own

end Merged

mutual
/-- What a mapping gains from the value of a merge key. -/
def gain : Tree → Except Fault Merged
  | .mapping label _ es => (merge es).map fun m => ⟨m.entries, [], label :: m.sources⟩
  | .sequence _ _ ts => gains ts
  | .scalar .. | .torn .. => .error .malformed
  | .again .. => .error (.beyond .loop)

/-- What a mapping gains from several mappings. -/
def gains : List Tree → Except Fault Merged
  | [] => .ok .none
  | .mapping label _ es :: ts => do
    let m ← merge es
    let more ← gains ts
    return ⟨more.taken ++ m.entries, [], label :: m.sources ++ more.sources⟩
  | .again .. :: _ => .error (.beyond .loop)
  | _ :: _ => .error .malformed

/-- The entries of a mapping without its merge keys. -/
def merge : List (Tree × Tree) → Except Fault Merged
  | [] => .ok .none
  | (k, v) :: es => do
    if k.tag = standard "merge" then
      let here ← gain v
      let m ← merge es
      return ⟨here.taken ++ m.taken, m.own, here.sources ++ m.sources⟩
    else
      let m ← merge es
      return { m with own := (k, v) :: m.own }
end

end Yaml

end PlainSchema
