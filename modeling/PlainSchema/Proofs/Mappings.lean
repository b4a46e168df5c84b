/-
PlainSchema/Proofs/Mappings.lean

The mappings of a document: all that are reached from its root through values of
mappings and items of lists.  Keys, tuples, sets and labelled values are not looked
into, as the cleaner does not look into them either.

`Everywhere P` says that a property holds of each of them.  It is the form in which
what a cleaning asks of a document, and what it promises, is stated.
-/
import PlainSchema.Proofs.Entries

namespace PlainSchema

namespace Node

mutual
/-- The mappings of a node, each before those below it. -/
def mappings : Node → List Fields
  | map fs => fs :: fieldMappings fs
  | list xs => itemMappings xs
  | _ => []

/-- The mappings of the items of a list. -/
def itemMappings : List Node → List Fields
  | [] => []
  | x :: xs => x.mappings ++ itemMappings xs

/-- The mappings of the values of entries. -/
def fieldMappings : List (Node × Node) → List Fields
  | [] => []
  | (_, v) :: fs => v.mappings ++ fieldMappings fs
end

/-- Every mapping of the node has the property. -/
def Everywhere (P : Fields → Prop) (n : Node) : Prop := ∀ fs ∈ n.mappings, P fs

instance (P : Fields → Prop) [DecidablePred P] (n : Node) : Decidable (n.Everywhere P) :=
  inferInstanceAs (Decidable (∀ fs ∈ n.mappings, P fs))

variable {P Q : Fields → Prop}

/-- The three forms of a node that the cleaner tells apart. -/
theorem map_or_list_or_other (n : Node) :
    (∃ fs, n = .map fs) ∨ (∃ xs, n = .list xs) ∨ ((∀ fs, n ≠ .map fs) ∧ ∀ xs, n ≠ .list xs) := by
  cases n <;> simp

theorem mem_itemMappings {fs : Fields} {xs : List Node} :
    fs ∈ itemMappings xs ↔ ∃ x ∈ xs, fs ∈ x.mappings := by
  induction xs with
  | nil => simp [itemMappings]
  | cons x xs ih => simp [itemMappings, ih]

theorem mem_fieldMappings {gs fs : Fields} :
    gs ∈ fieldMappings fs ↔ ∃ f ∈ fs, gs ∈ f.2.mappings := by
  induction fs with
  | nil => simp [fieldMappings]
  | cons f fs ih => simp [fieldMappings, ih]

@[simp] theorem everywhere_map {fs : Fields} :
    (map fs).Everywhere P ↔ P fs ∧ ∀ f ∈ fs, f.2.Everywhere P := by
  simp only [Everywhere, mappings, List.forall_mem_cons, mem_fieldMappings]
  refine and_congr_right fun _ => ⟨fun h f hf gs hg => h gs ⟨f, hf, hg⟩, ?_⟩
  rintro h gs ⟨f, hf, hg⟩
  exact h f hf gs hg

@[simp] theorem everywhere_list {xs : List Node} :
    (list xs).Everywhere P ↔ ∀ x ∈ xs, x.Everywhere P := by
  simp only [Everywhere, mappings, mem_itemMappings]
  refine ⟨fun h x hx gs hg => h gs ⟨x, hx, hg⟩, ?_⟩
  rintro h gs ⟨x, hx, hg⟩
  exact h x hx gs hg

/-- A node that is neither a mapping nor a list has no mappings. -/
theorem everywhere_of_not_map_list {n : Node} (hm : ∀ fs, n ≠ .map fs) (hl : ∀ xs, n ≠ .list xs) :
    n.Everywhere P := by
  intro fs h
  cases n with
  | map gs => exact absurd rfl (hm gs)
  | list xs => exact absurd rfl (hl xs)
  | _ => cases h

theorem Everywhere.imp {n : Node} (h : n.Everywhere P) (hpq : ∀ fs, P fs → Q fs) :
    n.Everywhere Q := fun fs hfs => hpq fs (h fs hfs)

theorem Everywhere.and {n : Node} (hp : n.Everywhere P) (hq : n.Everywhere Q) :
    n.Everywhere fun fs => P fs ∧ Q fs := fun fs hfs => ⟨hp fs hfs, hq fs hfs⟩

/-- The value of an entry that is found has the property everywhere if the mapping has it. -/
theorem Everywhere.get? {fs : Fields} {name : String} {v : Node}
    (h : (map fs).Everywhere P) (hv : fs.get? name = some v) : v.Everywhere P :=
  (everywhere_map.1 h).2 _ (mem_of_get? hv)

end Node

end PlainSchema
