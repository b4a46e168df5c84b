/-
PlainSchema/Schema/Height.lean

A measure that falls from a mapping to each value its rules leave behind, and from a
list to each of its items.  It is the height of the tree, except that

* an entry `items` counts four more, since a list below it may move under a new
  `anyOf`;
* a mapping with an `anyOf` counts three more, since the values of its `enum` may move
  into an alternative;
* a list below `type` counts two and its items count as types in turn, since each of
  them may become a mapping of its own.

Main statement: `height_lt_of_mem_applyRules`.
-/
import PlainSchema.Schema.Rule

namespace PlainSchema

namespace Node

mutual
/-- The measure of a node, `asType` telling whether it stands below `type`. -/
def heightAs (asType : Bool) : Node → Nat
  | list xs => (if asType then 2 else 1) + tallestItem asType xs
  | map fs => 1 + tallestField fs + (if fs.any (fun f => f.1.isText "anyOf") then 3 else 0)
  | _ => 1

/-- The greatest measure of an item. -/
def tallestItem (asType : Bool) : List Node → Nat
  | [] => 0
  | x :: xs => max (heightAs asType x) (tallestItem asType xs)

/-- The greatest measure of an entry's value. -/
def tallestField : List (Node × Node) → Nat
  | [] => 0
  | (k, v) :: fs =>
    max (heightAs (k.isText "type") v + (if k.isText "items" then 4 else 0)) (tallestField fs)
end

/-- The measure of a node. -/
def height (n : Node) : Nat := heightAs false n

end Node

open Node

/-! ### The parts of a node -/

theorem heightAs_pos (b : Bool) (n : Node) : 0 < heightAs b n := by
  cases n <;> simp only [heightAs] <;> (try split) <;> omega

mutual
/-- Below `type` a node never counts less. -/
theorem heightAs_le (b : Bool) (n : Node) : heightAs false n ≤ heightAs b n := by
  cases b with
  | false => exact Nat.le_refl _
  | true =>
    cases n with
    | list xs =>
      have := tallestItem_le true xs
      simp only [heightAs, Bool.false_eq_true, if_false, if_true]
      omega
    | _ => simp [heightAs]

/-- Below `type` the items never count less. -/
theorem tallestItem_le (b : Bool) (xs : List Node) : tallestItem false xs ≤ tallestItem b xs := by
  cases xs with
  | nil => simp [tallestItem]
  | cons x xs =>
    have := heightAs_le b x
    have := tallestItem_le b xs
    simp only [tallestItem]
    omega
end

theorem heightAs_le_tallestItem {b : Bool} {x : Node} {xs : List Node} (h : x ∈ xs) :
    heightAs b x ≤ tallestItem b xs := by
  induction xs with
  | nil => simp at h
  | cons y ys ih =>
    simp only [tallestItem]
    rcases List.mem_cons.1 h with rfl | h
    · exact Nat.le_max_left _ _
    · exact Nat.le_trans (ih h) (Nat.le_max_right _ _)

theorem tallestItem_le_iff {b : Bool} {xs : List Node} {bound : Nat} :
    tallestItem b xs ≤ bound ↔ ∀ x ∈ xs, heightAs b x ≤ bound := by
  induction xs with
  | nil => simp [tallestItem]
  | cons x xs ih => simp only [tallestItem, Nat.max_le, ih, List.mem_cons, forall_eq_or_imp]

theorem heightAs_le_tallestField {k v : Node} {fs : Fields} (h : (k, v) ∈ fs) :
    heightAs (k.isText "type") v + (if k.isText "items" then 4 else 0) ≤ tallestField fs := by
  induction fs with
  | nil => simp at h
  | cons f fs ih =>
    obtain ⟨k', v'⟩ := f
    simp only [tallestField]
    rcases List.mem_cons.1 h with h | h
    · obtain ⟨rfl, rfl⟩ := Prod.mk.injEq .. ▸ h
      exact Nat.le_max_left _ _
    · exact Nat.le_trans (ih h) (Nat.le_max_right _ _)

/-- An item is smaller than its list. -/
theorem height_lt_of_mem_items {x : Node} {xs : List Node} (h : x ∈ xs) :
    height x < height (.list xs) := by
  have := heightAs_le_tallestItem (b := false) h
  simp only [height, heightAs, Bool.false_eq_true, if_false]
  omega

/-- A value is smaller than its mapping. -/
theorem height_lt_of_mem_fields {k v : Node} {fs : Fields} (h : (k, v) ∈ fs) :
    height v < height (.map fs) := by
  have := heightAs_le_tallestField h
  have := heightAs_le (k.isText "type") v
  simp only [height, heightAs]
  omega

/-! ### Entries looked up, dropped and put -/

theorem mem_of_get? {fs : Fields} {name : String} {v : Node} (h : fs.get? name = some v) :
    (Node.str name, v) ∈ fs := by
  induction fs with
  | nil => simp [Fields.get?] at h
  | cons f fs ih =>
    obtain ⟨k, w⟩ := f
    cases k <;> simp only [Fields.get?] at h <;> first
      | (exact List.mem_cons_of_mem _ (ih h))
      | (split at h
         · next e => subst e; obtain rfl := Option.some.inj h; exact List.mem_cons_self
         · exact List.mem_cons_of_mem _ (ih h))

theorem mem_of_mem_erase {fs : Fields} {name : String} {f : Node × Node}
    (h : f ∈ fs.erase name) : f ∈ fs := (List.mem_filter.1 h).1

theorem mem_put {fs : Fields} {name : String} {w k v : Node} (h : (k, v) ∈ fs.put name w) :
    (k, v) ∈ fs ∨ v = w := by
  induction fs with
  | nil => simp [Fields.put] at h; exact .inr h.2
  | cons f fs ih =>
    obtain ⟨k', w'⟩ := f
    cases k' <;> simp only [Fields.put] at h <;> first
      | (rcases List.mem_cons.1 h with h | h
         · exact .inl (h ▸ List.mem_cons_self)
         · exact (ih h).imp (List.mem_cons_of_mem _) id)
      | (split at h
         · rcases List.mem_cons.1 h with h | h
           · exact .inr (Prod.mk.inj h).2
           · exact .inl (List.mem_cons_of_mem _ h)
         · rcases List.mem_cons.1 h with h | h
           · exact .inl (h ▸ List.mem_cons_self)
           · exact (ih h).imp (List.mem_cons_of_mem _) id)

theorem get?_put_of_ne {fs : Fields} {name other : String} {w : Node} (h : other ≠ name) :
    (fs.put name w).get? other = fs.get? other := by
  induction fs with
  | nil => simp [Fields.put, Fields.get?, Ne.symm h]
  | cons f fs ih =>
    obtain ⟨k', w'⟩ := f
    cases k' <;> simp only [Fields.put, Fields.get?, ih]
    split
    · next e => subst e; simp [Fields.get?, Ne.symm h]
    · simp only [Fields.get?, ih]

theorem get?_erase_of_ne {fs : Fields} {name other : String} (h : other ≠ name) :
    (fs.erase name).get? other = fs.get? other := by
  induction fs with
  | nil => rfl
  | cons f fs ih =>
    obtain ⟨k', w'⟩ := f
    cases k' <;>
      simp only [Fields.erase, List.filter_cons, Fields.get?, if_true, ← ih] at ih ⊢
    rename_i s
    by_cases e : s = name
    · subst e
      simp only [ne_eq, not_true_eq_false, decide_false, Bool.false_eq_true, if_false, Ne.symm h]
    · simp only [ne_eq, e, not_false_eq_true, decide_true, if_true, Fields.get?]

/-! ### What the rules leave behind -/

/-- The bound that an entry puts on the mapping around it. -/
theorem heightAs_add_lt_of_mem {k v : Node} {fs : Fields} (h : (k, v) ∈ fs) :
    heightAs (k.isText "type") v + (if k.isText "items" then 4 else 0) < height (.map fs) := by
  have := heightAs_le_tallestField h
  simp only [height, heightAs]
  omega

theorem one_lt_height_of_get? {fs : Fields} {name : String} {v : Node}
    (h : fs.get? name = some v) : 1 < height (.map fs) := by
  have := heightAs_add_lt_of_mem (mem_of_get? h)
  have := heightAs_pos (Node.isText "type" (.str name)) v
  omega

namespace Schema

theorem height_lt_of_mem_markNullable {fs : Fields} {types : List Node} {k v : Node} {bound : Nat}
    (small : ∀ {k v : Node}, (k, v) ∈ fs → height v < bound) (one : 1 < bound)
    (hv : (k, v) ∈ markNullable types fs) : height v < bound := by
  unfold markNullable at hv
  split at hv
  · rcases mem_put hv with hv | rfl
    · exact small hv
    · simpa [height, heightAs] using one
  · exact small hv

theorem height_lt_of_mem_splitTypes {fs gs : Fields} {path : Pointer} {k v : Node}
    (h : splitTypes? fs path = .ok (some gs)) (hv : (k, v) ∈ gs) :
    height v < height (.map fs) := by
  unfold splitTypes? at h
  split at h
  · next types ht =>
    have bound : 2 + tallestItem true types < height (.map fs) := by
      simpa [heightAs, Node.isText] using heightAs_add_lt_of_mem (mem_of_get? ht)
    have kept : ∀ {k v : Node}, (k, v) ∈ markNullable types (fs.erase "type") →
        height v < height (.map fs) :=
      height_lt_of_mem_markNullable (fun h => height_lt_of_mem_fields (mem_of_mem_erase h))
        (one_lt_height_of_get? ht)
    have sub : ∀ t ∈ describedTypes types, heightAs true t ≤ tallestItem true types :=
      fun t ht => heightAs_le_tallestItem (List.mem_filter.1 ht).1
    dsimp only at h
    split at h
    · simp at h
    · next t ht =>
      simp only [Except.ok.injEq, Option.some.injEq] at h
      subst h
      rcases mem_put hv with hv | rfl
      · exact kept hv
      · have := sub v (ht ▸ List.mem_singleton_self _)
        have := heightAs_le true v
        simp only [height] at bound ⊢
        omega
    · simp only [Except.ok.injEq, Option.some.injEq] at h
      subst h
      rcases mem_put hv with hv | rfl
      · exact kept hv
      · have : tallestItem false ((describedTypes types).map typeOnly)
            ≤ 1 + tallestItem true types := by
          rw [tallestItem_le_iff]
          intro x hx
          obtain ⟨t, ht, rfl⟩ := List.mem_map.1 hx
          have := sub t ht
          simp [typeOnly, heightAs, tallestField, Node.isText]
          omega
        have whole : height (.list ((describedTypes types).map typeOnly))
            = 1 + tallestItem false ((describedTypes types).map typeOnly) := by
          simp [height, heightAs]
        omega
  · simp at h

theorem height_lt_of_mem_singleItems {fs gs : Fields} {k v : Node} {bound : Nat}
    (small : ∀ {k v : Node}, (k, v) ∈ fs → height v < bound)
    (items : ∀ {v : Node}, fs.get? "items" = some v → height v + 4 < bound)
    (one : describesArray fs = true → 1 < bound)
    (h : singleItems? fs = some gs) (hv : (k, v) ∈ gs) : height v < bound := by
  unfold singleItems? at h
  split at h
  · next array =>
    have rest : ∀ {w k v : Node}, (k, v) ∈ (fs.erase "items").put "items" w → height w < bound →
        height v < bound := by
      intro w k v hv hw
      rcases mem_put hv with hv | rfl
      · exact small (mem_of_mem_erase hv)
      · exact hw
    have none : height (.map []) < bound := by
      simpa [height, heightAs, tallestField] using one array
    split at h
    · next x hi =>
      obtain rfl := Option.some.inj h
      refine rest hv (Nat.lt_trans (height_lt_of_mem_items (List.mem_singleton_self x)) ?_)
      exact Nat.lt_of_le_of_lt (Nat.le_add_right _ _) (items hi)
    · obtain rfl := Option.some.inj h
      exact rest hv none
    · next xs _ _ hi =>
      obtain rfl := Option.some.inj h
      refine rest hv ?_
      have := items hi
      simp [height, heightAs, tallestField, Node.isText] at this ⊢
      omega
    · simp at h
    · obtain rfl := Option.some.inj h
      exact rest hv none
  · simp at h

theorem height_lt_of_mem_dropEmptyDefault {fs gs : Fields} {k v : Node} {bound : Nat}
    (small : ∀ {k v : Node}, (k, v) ∈ fs → height v < bound)
    (h : dropEmptyDefault? fs = some gs) (hv : (k, v) ∈ gs) : height v < bound := by
  unfold dropEmptyDefault? at h
  split at h
  · obtain rfl := Option.some.inj h
    exact small (mem_of_mem_erase hv)
  · simp at h

/-- The values that an alternative lists are smaller than it by two. -/
theorem height_enumValues {a x : Node} (h : x ∈ enumValues a) : height x + 2 ≤ height a := by
  unfold enumValues at h
  split at h
  · next fs =>
    split at h
    · next xs he =>
      have outer := heightAs_add_lt_of_mem (mem_of_get? he)
      have inner := heightAs_le_tallestItem (b := false) h
      simp [heightAs, Node.isText] at outer
      simp only [height] at outer ⊢
      omega
    · simp at h
  · simp at h

theorem tallestItem_mergedValues {outer alternatives : List Node} {bound : Nat}
    (houter : height (.list outer) + 3 < bound) (halts : height (.list alternatives) < bound) :
    tallestItem false (mergedValues outer alternatives) + 3 < bound := by
  simp only [height, heightAs, Bool.false_eq_true, if_false] at houter halts
  suffices tallestItem false (mergedValues outer alternatives) ≤ bound - 4 by omega
  rw [tallestItem_le_iff]
  intro x hx
  rcases List.mem_append.1 hx with hx | hx
  · have := heightAs_le_tallestItem (b := false) hx
    omega
  · obtain ⟨a, ha, hx⟩ := List.mem_flatMap.1 hx
    have value := height_enumValues hx
    have item := heightAs_le_tallestItem (b := false) (List.mem_filter.1 ha).1
    simp only [height] at value
    omega

theorem height_lt_of_mem_mergeEnums {fs gs : Fields} {k v : Node} {bound : Nat}
    (small : ∀ {k v : Node}, (k, v) ∈ fs → height v < bound)
    (enum : ∀ {v : Node}, fs.get? "enum" = some v → (fs.get? "anyOf").isSome = true →
      height v + 3 < bound)
    (h : mergeEnums? fs = some gs) (hv : (k, v) ∈ gs) : height v < bound := by
  unfold mergeEnums? at h
  split at h
  · next outer alternatives ho ha =>
    have halts := small (mem_of_get? ha)
    have merged := tallestItem_mergedValues (enum ho (by rw [ha]; rfl)) halts
    dsimp only at h
    split at h
    · obtain rfl := Option.some.inj h
      rcases mem_put hv with hv | rfl
      · rcases mem_put hv with hv | rfl
        · exact small (mem_of_mem_erase hv)
        · simp only [height, heightAs, Bool.false_eq_true, if_false]
          omega
      · simp only [height, heightAs]
        omega
    · obtain rfl := Option.some.inj h
      rcases mem_put hv with hv | rfl
      · exact small (mem_of_mem_erase (mem_of_mem_erase (mem_of_mem_erase hv)))
      · have kept : tallestItem false (otherAlternatives alternatives)
            ≤ tallestItem false alternatives := by
          rw [tallestItem_le_iff]
          intro x hx
          exact heightAs_le_tallestItem (List.mem_filter.1 hx).1
        have first : heightAs false (stringEnum (mergedValues outer alternatives))
            = 2 + tallestItem false (mergedValues outer alternatives) := by
          simp [heightAs, tallestField, stringEnum, Node.isText]
          omega
        simp only [height, heightAs, tallestItem, Bool.false_eq_true, if_false] at halts first ⊢
        omega
  · simp at h

/-! ### All rules together -/

/-- The entries that a list of types leaves behind have the same value under every name but
`type`, `nullable` and `oneOf`. -/
theorem get?_splitTypes {fs gs : Fields} {path : Pointer} {name : String}
    (h : splitTypes? fs path = .ok (some gs))
    (ht : name ≠ "type") (hn : name ≠ "nullable") (ho : name ≠ "oneOf") :
    gs.get? name = fs.get? name := by
  have marked : ∀ types, (markNullable types (fs.erase "type")).get? name = fs.get? name := by
    intro types
    unfold markNullable
    split
    · rw [get?_put_of_ne hn, get?_erase_of_ne ht]
    · exact get?_erase_of_ne ht
  unfold splitTypes? at h
  split at h
  · dsimp only at h
    split at h
    · simp at h
    · simp only [Except.ok.injEq, Option.some.injEq] at h
      rw [← h, get?_put_of_ne ht, marked]
    · simp only [Except.ok.injEq, Option.some.injEq] at h
      rw [← h, get?_put_of_ne ho, marked]
  · simp at h

theorem get?_singleItems {fs gs : Fields} {name : String} (h : singleItems? fs = some gs)
    (hi : name ≠ "items") : gs.get? name = fs.get? name := by
  have put : ∀ w, ((fs.erase "items").put "items" w).get? name = fs.get? name := fun w => by
    rw [get?_put_of_ne hi, get?_erase_of_ne hi]
  unfold singleItems? at h
  split at h
  · split at h <;> first | (simp at h; done) | (obtain rfl := Option.some.inj h; exact put _)
  · simp at h

theorem get?_dropEmptyDefault {fs gs : Fields} {name : String}
    (h : dropEmptyDefault? fs = some gs) (hd : name ≠ "default") : gs.get? name = fs.get? name := by
  unfold dropEmptyDefault? at h
  split at h
  · obtain rfl := Option.some.inj h
    exact get?_erase_of_ne hd
  · simp at h

/-- A value that the rules leave behind is smaller than the mapping. -/
theorem height_lt_of_mem_applyRules {fs gs : Fields} {path : Pointer} {k v : Node}
    (h : applyRules fs path = .ok gs) (hv : (k, v) ∈ gs) : height v < height (.map fs) := by
  unfold applyRules at h
  split at h
  · simp at h
  · next split hs =>
    simp only [Except.ok.injEq] at h
    subst h
    -- After the types.
    have get₁ : ∀ {name}, name ≠ "type" → name ≠ "nullable" → name ≠ "oneOf" →
        (split.getD fs).get? name = fs.get? name := by
      intro name ht hn ho
      cases split with
      | none => rfl
      | some gs => exact get?_splitTypes hs ht hn ho
    have small₁ : ∀ {k v : Node}, (k, v) ∈ split.getD fs → height v < height (.map fs) := by
      intro k v hv
      cases split with
      | none => exact height_lt_of_mem_fields hv
      | some gs => exact height_lt_of_mem_splitTypes hs hv
    have items : ∀ {v : Node}, (split.getD fs).get? "items" = some v →
        height v + 4 < height (.map fs) := by
      intro v hv
      rw [get₁ (by decide) (by decide) (by decide)] at hv
      simpa [Node.isText, height] using heightAs_add_lt_of_mem (mem_of_get? hv)
    have one : describesArray (split.getD fs) = true → 1 < height (.map fs) := by
      intro array
      have pos : ∀ {name : String} {v : Node}, (split.getD fs).get? name = some v →
          1 < height (.map fs) := fun hv =>
        Nat.lt_of_le_of_lt (heightAs_pos false _) (small₁ (mem_of_get? hv))
      simp only [describesArray, declares, Bool.or_eq_true, Option.any_eq_true] at array
      rcases array with (⟨v, h, _⟩ | ⟨v, h, _⟩) | ⟨v, h, _⟩ <;> exact pos h
    -- After the items.
    generalize split.getD fs = fs₁ at get₁ small₁ items one hv
    have small₂ : ∀ {k v : Node}, (k, v) ∈ applied singleItems? fs₁ →
        height v < height (.map fs) := by
      intro k v hv
      unfold applied at hv
      cases hi : singleItems? fs₁ with
      | none => exact small₁ (by rwa [hi] at hv)
      | some gs => exact height_lt_of_mem_singleItems small₁ items one hi (by rwa [hi] at hv)
    have get₂ : ∀ {name}, name ≠ "items" →
        (applied singleItems? fs₁).get? name = fs₁.get? name := by
      intro name hn
      unfold applied
      cases hi : singleItems? fs₁ with
      | none => rfl
      | some gs => exact get?_singleItems hi hn
    -- After the default.
    unfold settled at hv
    generalize applied singleItems? fs₁ = fs₂ at small₂ get₂ hv
    have small₃ : ∀ {k v : Node}, (k, v) ∈ applied dropEmptyDefault? fs₂ →
        height v < height (.map fs) := by
      intro k v hv
      unfold applied at hv
      cases hd : dropEmptyDefault? fs₂ with
      | none => exact small₂ (by rwa [hd] at hv)
      | some gs => exact height_lt_of_mem_dropEmptyDefault small₂ hd (by rwa [hd] at hv)
    have get₃ : ∀ {name}, name ≠ "default" →
        (applied dropEmptyDefault? fs₂).get? name = fs₂.get? name := by
      intro name hn
      unfold applied
      cases hd : dropEmptyDefault? fs₂ with
      | none => rfl
      | some gs => exact get?_dropEmptyDefault hd hn
    -- After the enums.
    generalize applied dropEmptyDefault? fs₂ = fs₃ at small₃ get₃ hv
    have same : ∀ {name}, name ≠ "type" → name ≠ "nullable" → name ≠ "oneOf" → name ≠ "items" →
        name ≠ "default" → fs₃.get? name = fs.get? name := by
      intro name h₁ h₂ h₃ h₄ h₅
      rw [get₃ h₅, get₂ h₄, get₁ h₁ h₂ h₃]
    have enum : ∀ {v : Node}, fs₃.get? "enum" = some v → (fs₃.get? "anyOf").isSome = true →
        height v + 3 < height (.map fs) := by
      intro v he ha
      rw [same (by decide) (by decide) (by decide) (by decide) (by decide)] at he ha
      obtain ⟨w, ha⟩ := Option.isSome_iff_exists.1 ha
      have any : fs.any (fun f => f.1.isText "anyOf") = true :=
        List.any_eq_true.2 ⟨_, mem_of_get? ha, by simp [Node.isText]⟩
      have := heightAs_le_tallestField (mem_of_get? he)
      simp [Node.isText] at this
      simp only [height, heightAs, any, if_true]
      omega
    unfold applied at hv
    cases hm : mergeEnums? fs₃ with
    | none => exact small₃ (by rwa [hm] at hv)
    | some gs => exact height_lt_of_mem_mergeEnums small₃ enum hm (by rwa [hm] at hv)

end Schema

end PlainSchema
