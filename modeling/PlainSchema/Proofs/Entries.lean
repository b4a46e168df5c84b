/-
PlainSchema/Proofs/Entries.lean

The entries of a mapping, seen through their names and through look-ups.

A mapping of a document has each name once, but nothing in `Fields` says so:
`Distinct` does.  Most facts do not need it.  What needs it is a look-up after an
entry was left out, since a second entry of the name would come to light then.

`put`, `erase` and `get?` look at a key only through `isText`; the three equations
`get?_cons`, `put_cons` and `erase_cons` say so, and every other proof here is by
induction on the entries with a case split on `isText`.
-/
import PlainSchema.Schema.Height

namespace PlainSchema

namespace Node

theorem isText_iff {n : Node} {text : String} : n.isText text = true ↔ n = .str text := by
  cases n <;> simp [isText]

theorem isEmptyMap_iff {n : Node} : n.isEmptyMap = true ↔ n = .map [] := by
  cases n with
  | map fs => cases fs <;> simp [isEmptyMap]
  | _ => simp [isEmptyMap]

/-- The text of a key, if it is one. -/
def name? : Node → Option String
  | str s => some s
  | _ => none

theorem name?_eq_some_iff {n : Node} {name : String} : n.name? = some name ↔ n = .str name := by
  cases n <;> simp [name?]

end Node

namespace Fields

variable {fs : Fields} {name other : String} {f : Node × Node} {k v w : Node}

/-! ### Names -/

/-- The names of the entries, in order. -/
def names (fs : Fields) : List String := fs.filterMap fun f => f.1.name?

/-- No two entries have the same name. -/
def Distinct (fs : Fields) : Prop := fs.names.Nodup

instance (fs : Fields) : Decidable fs.Distinct := inferInstanceAs (Decidable fs.names.Nodup)

theorem mem_names : name ∈ fs.names ↔ ∃ v, (Node.str name, v) ∈ fs := by
  constructor
  · intro h
    obtain ⟨⟨k, v⟩, hf, hk⟩ := List.mem_filterMap.1 h
    obtain rfl := Node.name?_eq_some_iff.1 hk
    exact ⟨v, hf⟩
  · rintro ⟨v, h⟩
    exact List.mem_filterMap.2 ⟨_, h, rfl⟩

theorem Distinct.tail (h : Distinct (f :: fs)) : fs.Distinct :=
  h.sublist ((List.sublist_cons_self f fs).filterMap _)

/-- The name of the first entry is none of the others'. -/
theorem Distinct.not_mem_names (h : Distinct ((.str name, v) :: fs)) : name ∉ fs.names :=
  (List.nodup_cons.1 h).1

/-! ### The three operations, entry by entry -/

theorem get?_cons : get? ((k, v) :: fs) name = if k.isText name then some v else get? fs name := by
  cases k <;> simp [get?, Node.isText]

theorem put_cons :
    put ((k, w) :: fs) name v
      = if k.isText name then (k, v) :: fs else (k, w) :: put fs name v := by
  cases k <;> simp [put, Node.isText]

theorem erase_cons :
    erase ((k, v) :: fs) name
      = if k.isText name then erase fs name else (k, v) :: erase fs name := by
  cases k with
  | str s => by_cases h : s = name <;> simp [erase, Node.isText, h]
  | _ => simp [erase, Node.isText]

/-! ### Look-ups -/

theorem get?_eq_none_iff : fs.get? name = none ↔ name ∉ fs.names := by
  constructor
  · intro h hn
    obtain ⟨v, hv⟩ := mem_names.1 hn
    clear hn
    induction fs with
    | nil => cases hv
    | cons f fs ih =>
      obtain ⟨k, w⟩ := f
      rw [get?_cons] at h
      split at h
      · cases h
      · next hk =>
        rcases List.mem_cons.1 hv with e | hv
        · obtain ⟨rfl, rfl⟩ := Prod.mk.injEq .. ▸ e
          exact hk (Node.isText_iff.2 rfl)
        · exact ih h hv
  · intro hn
    rcases h : fs.get? name with - | v
    · rfl
    · exact absurd (mem_names.2 ⟨v, mem_of_get? h⟩) hn

/-- A value found is the value of the entry that has the name first; if names are distinct, of any
entry that has it. -/
theorem Distinct.get?_eq_some_iff (h : fs.Distinct) :
    fs.get? name = some v ↔ (Node.str name, v) ∈ fs := by
  refine ⟨mem_of_get?, fun hv => ?_⟩
  induction fs with
  | nil => cases hv
  | cons f fs ih =>
    obtain ⟨k, w⟩ := f
    rw [get?_cons]
    rcases List.mem_cons.1 hv with e | hfs
    · obtain ⟨rfl, rfl⟩ := Prod.mk.injEq .. ▸ e
      rw [if_pos (Node.isText_iff.2 rfl)]
    · rw [if_neg, ih h.tail hfs]
      intro hk
      obtain rfl := Node.isText_iff.1 hk
      exact h.not_mem_names (mem_names.2 ⟨v, hfs⟩)

@[simp] theorem get?_put_self : (fs.put name v).get? name = some v := by
  induction fs with
  | nil => simp [put, get?]
  | cons f fs ih =>
    obtain ⟨k, w⟩ := f
    rw [put_cons]
    by_cases hk : k.isText name = true
    · rw [if_pos hk, get?_cons, if_pos hk]
    · rw [if_neg hk, get?_cons, if_neg hk, ih]

@[simp] theorem get?_erase_self : (fs.erase name).get? name = none := by
  induction fs with
  | nil => rfl
  | cons f fs ih =>
    obtain ⟨k, w⟩ := f
    rw [erase_cons]
    by_cases hk : k.isText name = true
    · rw [if_pos hk, ih]
    · rw [if_neg hk, get?_cons, if_neg hk, ih]

/-! ### Entries after a change -/

theorem mem_or_eq_of_mem_put (h : f ∈ fs.put name w) : f ∈ fs ∨ f = (.str name, w) := by
  induction fs with
  | nil => exact .inr (List.mem_singleton.1 h)
  | cons g fs ih =>
    obtain ⟨k, v⟩ := g
    rw [put_cons] at h
    split at h
    · next hk =>
      obtain rfl := Node.isText_iff.1 hk
      rcases List.mem_cons.1 h with h | h
      · exact .inr h
      · exact .inl (List.mem_cons_of_mem _ h)
    · rcases List.mem_cons.1 h with h | h
      · exact .inl (h ▸ List.mem_cons_self)
      · exact (ih h).imp (List.mem_cons_of_mem _) id

/-- An entry of another name was there before. -/
theorem mem_of_mem_put_of_ne (h : (Node.str other, v) ∈ fs.put name w) (hn : other ≠ name) :
    (Node.str other, v) ∈ fs := by
  rcases mem_or_eq_of_mem_put h with h | h
  · exact h
  · exact absurd (Node.str.inj (Prod.mk.inj h).1) hn

/-- The value that was put under a name stands there alone if the name was not there. -/
theorem eq_of_mem_put (h : (Node.str name, v) ∈ fs.put name w) (hn : name ∉ fs.names) :
    v = w := by
  rcases mem_or_eq_of_mem_put h with h | h
  · exact absurd (mem_names.2 ⟨v, h⟩) hn
  · exact (Prod.mk.inj h).2

theorem put_ne_nil : fs.put name v ≠ [] := by
  intro h
  have : (fs.put name v).get? name = some v := get?_put_self
  rw [h] at this
  cases this

theorem not_mem_names_erase : name ∉ (fs.erase name).names :=
  get?_eq_none_iff.1 get?_erase_self

theorem mem_names_of_mem_names_put (h : other ∈ (fs.put name v).names) :
    other ∈ fs.names ∨ other = name := by
  obtain ⟨w, hw⟩ := mem_names.1 h
  rcases mem_or_eq_of_mem_put hw with h | h
  · exact .inl (mem_names.2 ⟨w, h⟩)
  · exact .inr (Node.str.inj (Prod.mk.inj h).1)

theorem Distinct.erase (h : fs.Distinct) (name : String) : Distinct (fs.erase name) :=
  h.sublist (List.filter_sublist.filterMap _)

theorem Distinct.put (h : fs.Distinct) (name : String) (v : Node) :
    Distinct (fs.put name v) := by
  induction fs with
  | nil => exact List.pairwise_singleton _ _
  | cons f fs ih =>
    obtain ⟨k, w⟩ := f
    rw [put_cons]
    by_cases hk : k.isText name = true
    · rw [if_pos hk]
      exact h
    · -- A key that is no text has no name and adds none.
      rw [if_neg hk]
      rcases hn : k.name? with - | other
      · have e : ∀ (u : Node) (gs : Fields), names ((k, u) :: gs) = names gs := fun _ _ =>
          List.filterMap_cons_none hn
        unfold Distinct at ih ⊢
        rw [e]
        exact ih h.tail
      · obtain rfl := Node.name?_eq_some_iff.1 hn
        refine List.nodup_cons.2 ⟨fun hm => ?_, ih h.tail⟩
        rcases mem_names_of_mem_names_put hm with hm | rfl
        · exact h.not_mem_names hm
        · exact hk (Node.isText_iff.2 rfl)

/-! ### Entries chosen by their keys -/

/-- The entries whose keys are chosen, in order. -/
def only (fs : Fields) (chosen : Node → Bool) : Fields := fs.filter fun f => chosen f.1

variable {chosen : Node → Bool}

theorem only_cons :
    only ((k, v) :: fs) chosen = if chosen k then (k, v) :: fs.only chosen else fs.only chosen :=
  List.filter_cons

theorem mem_only : f ∈ fs.only chosen ↔ f ∈ fs ∧ chosen f.1 = true := List.mem_filter

/-- What is put under a name that is not chosen is not seen. -/
theorem only_put (h : chosen (.str name) = false) :
    (fs.put name v).only chosen = fs.only chosen := by
  induction fs with
  | nil => simp [put, only, h]
  | cons f fs ih =>
    obtain ⟨k, w⟩ := f
    rw [put_cons]
    by_cases hk : k.isText name = true
    · obtain rfl := Node.isText_iff.1 hk
      rw [if_pos hk, only_cons, only_cons, h]
      rfl
    · rw [if_neg hk, only_cons, only_cons, ih]

/-- Nor is it seen whether entries of such a name are there. -/
theorem only_erase (h : chosen (.str name) = false) :
    (fs.erase name).only chosen = fs.only chosen := by
  induction fs with
  | nil => rfl
  | cons f fs ih =>
    obtain ⟨k, w⟩ := f
    rw [erase_cons]
    by_cases hk : k.isText name = true
    · obtain rfl := Node.isText_iff.1 hk
      rw [if_pos hk, only_cons, h, ih]
      rfl
    · rw [if_neg hk, only_cons, only_cons, ih]

end Fields

end PlainSchema
