/-
PlainSchema/Proofs/Origins.lean

Where the lists of types come from that a cleaning comes to.

The rules make mappings of their own, and a list of types may end up under the `type`
of one of them: each type of a list gets a mapping, and a type may be a list again.
But no rule makes up such a list.  It stands under the `type` of a mapping of the
document, or inside a list that does (`TypeNests`).

The proof looks at the negation, which is a property of every mapping.  The rules
pass it on to all that they leave (`ruleClosed_noNested`), the cleaner comes to
nothing else (`everywhere_handled`), and so a list that is not in the document is
nowhere met.
-/
import PlainSchema.Proofs.Location

namespace PlainSchema

namespace Node

/-- A list stands in a node: it is the node itself, or it stands in an item of the node's list. -/
inductive Nests (types : List Node) : Node → Prop
  | here : Nests types (.list types)
  | item {xs : List Node} {x : Node} : x ∈ xs → Nests types x → Nests types (.list xs)

/-- A list is the `type` of a mapping of a document, or nested in a list that is. -/
def TypeNests (types : List Node) (n : Node) : Prop :=
  ∃ fs ∈ n.mappings, ∃ v, Fields.get? fs "type" = some v ∧ v.Nests types

end Node

namespace Schema

variable {x n : Node} {fs : Fields} {p : Pointer} {types : List Node} {P : Fields → Prop}

/-- What holds of every mapping of a document, and of those made by the rules, holds of every
mapping that the cleaner comes to. -/
theorem everywhere_handled (closed : RuleClosed P) (hx : x.Everywhere P) (h : Handled x p n) :
    n.Everywhere P := by
  induction h with
  | root => exact hx
  | value _ _ hr hv _ ih => exact everywhere_applyRules closed ih hr hv
  | item _ hi ih => exact Node.everywhere_list.1 ih _ (List.mem_of_getElem? hi)

/-- A list that is nowhere below the `type` of a mapping is not below the `type` of a mapping that
the rules make. -/
theorem ruleClosed_noNested (types : List Node) :
    RuleClosed fun fs => ∀ v, fs.get? "type" = some v → ¬ v.Nests types where
  typeOnly := by
    intro fs listed t none ht hm v hv hn
    obtain rfl : t = v := by simpa [Fields.get?] using hv
    exact none _ ht (.item hm hn)
  noItems := by
    intro v hv
    cases hv
  alternatives := by
    intro xs v hv
    simp [Fields.get?] at hv
  stringEnum := by
    intro values v hv hn
    obtain rfl : Node.str "string" = v := by simpa [Fields.get?] using hv
    cases hn

/-- A list of types that the cleaner comes to stands in the document. -/
theorem typeNests_of_handled (h : Handled x p (.map fs))
    (ht : fs.get? "type" = some (.list types)) : x.TypeNests types := by
  by_contra none
  have absent : x.Everywhere fun fs => ∀ v, fs.get? "type" = some v → ¬ v.Nests types := by
    intro fs hfs v hv hn
    exact none ⟨fs, hfs, v, hv, hn⟩
  have there := everywhere_handled (ruleClosed_noNested types) absent h
  exact (Node.everywhere_map.1 there).1 _ ht .here

end Schema

end PlainSchema
