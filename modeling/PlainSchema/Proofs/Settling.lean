/-
PlainSchema/Proofs/Settling.lean

Cleaning a document again and again.

One pass need not be enough.  A value that is dropped may leave its mapping vacuous,
or an object without a telling default, or an array without a schema for its items;
the next pass sees that, and in an array it puts the schema that allows everything.
So the document may grow as well.

After the first pass the mappings are `Orderly`: no list of types is left to split
and no values to join.  What a pass can do then is drop something, or complete an
array, and an array that is completed stays so.  `weight` counts the parts of a
document, and more than the missing schema would count for each array that has none;
it falls in every pass that changes the document (`eq_or_weight_lt`).  The passes
settle by induction on it.
-/
import Mathlib.Algebra.Ring.Nat
import PlainSchema.Proofs.Dialect

namespace PlainSchema

open Node

variable {fs gs kept : Fields} {n m v x : Node} {name : String} {path : Pointer}
  {r : Option Node}

namespace Schema

/-! ### Members that are kept -/

namespace Kept

variable {α β : Type} {xs : List α}

/-- What is left of the members if something becomes of each. -/
theorem exists_of_forall {R : α → Option β → Prop} (h : ∀ x ∈ xs, ∃ r, R x r) :
    ∃ ys, Kept R xs ys := by
  induction xs with
  | nil => exact ⟨[], .nil⟩
  | cons x xs ih =>
    obtain ⟨ys, hk⟩ := ih fun y hy => h y (List.mem_cons_of_mem _ hy)
    obtain ⟨r, hr⟩ := h x List.mem_cons_self
    cases r with
    | none => exact ⟨ys, .dropped hr hk⟩
    | some y => exact ⟨y :: ys, .kept hr hk⟩

variable {R : α → Option α → Prop} {ys : List α} {size : α → Nat}

/-- If no member becomes bigger, neither does the whole. -/
theorem sum_le (h : Kept R xs ys) (step : ∀ x ∈ xs, ∀ y, R x (some y) → size y ≤ size x) :
    (ys.map size).sum ≤ (xs.map size).sum := by
  induction h with
  | nil => exact Nat.le_refl _
  | dropped _ _ ih =>
    have := ih fun y hy => step y (List.mem_cons_of_mem _ hy)
    simp only [List.map_cons, List.sum_cons]
    omega
  | kept hr _ ih =>
    have := ih fun y hy => step y (List.mem_cons_of_mem _ hy)
    have := step _ List.mem_cons_self _ hr
    simp only [List.map_cons, List.sum_cons]
    omega

/-- A member that nothing comes from is missing in the whole with all it was. -/
theorem sum_add_le (h : Kept R xs ys) (step : ∀ x ∈ xs, ∀ y, R x (some y) → size y ≤ size x)
    {x : α} (hx : x ∈ xs) (hd : ∀ y ∈ ys, ¬ R x (some y)) :
    (ys.map size).sum + size x ≤ (xs.map size).sum := by
  induction h with
  | nil => cases hx
  | dropped _ hk ih =>
    have rest := fun y hy => step y (List.mem_cons_of_mem _ hy)
    simp only [List.map_cons, List.sum_cons]
    rcases List.mem_cons.1 hx with rfl | hx
    · have := hk.sum_le rest
      omega
    · have := ih rest hx hd
      omega
  | kept hr _ ih =>
    have rest := fun y hy => step y (List.mem_cons_of_mem _ hy)
    have := step _ List.mem_cons_self _ hr
    simp only [List.map_cons, List.sum_cons]
    rcases List.mem_cons.1 hx with rfl | hx
    · exact absurd hr (hd _ List.mem_cons_self)
    · have := ih rest hx fun y hy => hd y (List.mem_cons_of_mem _ hy)
      omega

/-- If each member stays as it is or becomes smaller, so does the whole. -/
theorem eq_or_sum_lt (h : Kept R xs ys) (pos : ∀ x ∈ xs, 0 < size x)
    (step : ∀ x ∈ xs, ∀ y, R x (some y) → y = x ∨ size y < size x) :
    ys = xs ∨ (ys.map size).sum < (xs.map size).sum := by
  induction h with
  | nil => exact .inl rfl
  | dropped _ hk _ =>
    have := pos _ List.mem_cons_self
    have := hk.sum_le fun y hy z hr =>
      (step y (List.mem_cons_of_mem _ hy) z hr).elim (fun e => e ▸ Nat.le_refl _) Nat.le_of_lt
    simp only [List.map_cons, List.sum_cons]
    exact .inr (by omega)
  | kept hr _ ih =>
    simp only [List.map_cons, List.sum_cons]
    rcases ih (fun y hy => pos y (List.mem_cons_of_mem _ hy))
      (fun y hy => step y (List.mem_cons_of_mem _ hy)) with rfl | hlt
    · rcases step _ List.mem_cons_self _ hr with rfl | hy
      · exact .inl rfl
      · exact .inr (by omega)
    · rcases step _ List.mem_cons_self _ hr with rfl | hy
      · exact .inr (by omega)
      · exact .inr (by omega)

end Kept

/-! ### Mappings after the first pass -/

/-- A mapping in which no rule has a list to take apart. -/
structure Orderly (fs : Fields) : Prop where
  distinct : fs.Distinct
  oneType : ¬ fs.HasList "type"
  oneItems : describesArray fs = true → ¬ fs.HasList "items"
  joinedEnums : ¬ (fs.HasList "enum" ∧ fs.HasList "anyOf")

theorem not_hasList_nil : ¬ Fields.HasList [] name := fun ⟨_, h⟩ => nomatch h

theorem ruleClosed_orderly : RuleClosed Orderly where
  typeOnly orderly ht _ := absurd ⟨_, ht⟩ orderly.oneType
  noItems :=
    ⟨List.Pairwise.nil, not_hasList_nil, fun _ => not_hasList_nil, fun h => not_hasList_nil h.1⟩
  alternatives xs :=
    ⟨List.pairwise_singleton _ _, by simp [Fields.HasList, Fields.get?],
      by simp [Fields.HasList, Fields.get?], by simp [Fields.HasList, Fields.get?]⟩
  stringEnum values :=
    ⟨ruleClosed_distinct.stringEnum values, by simp [Fields.HasList, Fields.get?],
      by simp [Fields.HasList, Fields.get?], by simp [Fields.HasList, Fields.get?]⟩

theorem names_sublist_of_kept (h : Kept EntryCleans gs kept) : kept.names.Sublist gs.names := by
  induction h with
  | nil => exact List.Sublist.refl _
  | @dropped f gs kept _ _ ih => exact ih.trans ((List.sublist_cons_self f gs).filterMap _)
  | @kept f g gs kept hr _ ih =>
    obtain ⟨k, v⟩ := f
    obtain ⟨k', w⟩ := g
    obtain ⟨-, hk, -⟩ := hr
    obtain rfl : k' = k := hk
    have front : ∀ (u : Node) (hs : Fields),
        Fields.names ((k', u) :: hs) = k'.name?.toList ++ hs.names := by
      intro u hs
      simp only [Fields.names, List.filterMap_cons]
      cases k'.name? <;> rfl
    rw [front, front]
    exact ih.append_left _

/-- After a pass every mapping is orderly. -/
theorem orderly_of_clean (hx : x.Everywhere Fields.Distinct)
    (ht : x.Everywhere (Fields.FlatUnder "type")) (hi : x.Everywhere (Fields.FlatUnder "items"))
    (h : clean x = .ok (some n)) : n.Everywhere Orderly := by
  have distinct : n.Everywhere Fields.Distinct := by
    refine everywhere_clean ruleClosed_distinct ?_ hx h
    intro fs gs kept hfs _ hr hk
    exact (distinct_applyRules (everywhere_map.1 hfs).1 hr).sublist (names_sublist_of_kept hk)
  intro fs hfs
  exact {
    distinct := distinct fs hfs
    oneType := everywhere_oneType hx ht h fs hfs
    oneItems := everywhere_oneItems hx hi h fs hfs
    joinedEnums := (everywhere_unconditional hx h fs hfs).2.1 }

/-- No list of types is split and no values are joined in an orderly mapping. -/
theorem Orderly.applyRules_eq (h : Orderly fs) (path : Pointer) :
    applyRules fs path = .ok (applied dropEmptyDefault? (applied singleItems? fs)) := by
  have same : ∀ {name}, name ≠ "items" → name ≠ "default" →
      (applied dropEmptyDefault? (applied singleItems? fs)).get? name = fs.get? name := by
    intro name hi hd
    rw [get?_applied_dropEmptyDefault hd, get?_applied_singleItems hi]
  rw [applyRules_of_oneType h.oneType, settled, mergeEnums_eq_self]
  simp only [Fields.HasList, same (by decide : "enum" ≠ "items") (by decide),
    same (by decide : "anyOf" ≠ "items") (by decide)]
  exact h.joinedEnums

/-- An orderly document is cleaned without a fault. -/
theorem exists_clean_of_orderly (hn : n.Everywhere Orderly) : ∃ r, clean n = .ok r := by
  induction n using cleaning_induction with
  | map fs ih =>
    by_cases hv : isVacuous fs = true
    · exact ⟨none, clean_map_iff.2 (.inl ⟨hv, rfl⟩)⟩
    rw [Bool.not_eq_true] at hv
    have hr := (everywhere_map.1 hn).1.applyRules_eq []
    obtain ⟨kept, hk⟩ := Kept.exists_of_forall (R := EntryCleans) <| by
      intro f hf
      obtain ⟨r, hc⟩ := ih hr f hf (everywhere_applyRules ruleClosed_orderly hn hr hf)
      by_cases hb : isBookkeeping f.1 = true
      · exact ⟨none, .inl hb⟩
      rw [Bool.not_eq_true] at hb
      cases r with
      | none => exact ⟨none, .inr hc⟩
      | some m => exact ⟨some (f.1, m), hb, rfl, hc⟩
    exact ⟨_, clean_map_iff.2 (.inr ⟨hv, _, hr, kept, hk, rfl⟩)⟩
  | list xs ih =>
    obtain ⟨ys, hk⟩ := Kept.exists_of_forall (R := fun x r => clean x = .ok r) fun x hx =>
      ih x hx (everywhere_list.1 hn x hx)
    exact ⟨_, clean_list_iff.2 ⟨ys, hk, rfl⟩⟩
  | other n hm hl => exact ⟨_, clean_other hm hl⟩

/-! ### What a pass takes away -/

end Schema

namespace Node

mutual
/-- The number of parts of a node, where an array without a schema for its items counts three
more. -/
def weight : Node → Nat
  | map fs =>
    1 + fieldsWeight fs
      + if Schema.describesArray fs && (Fields.get? fs "items").isNone then 3 else 0
  | list xs => 1 + itemsWeight xs
  | _ => 1

/-- The number of parts of the items. -/
def itemsWeight : List Node → Nat
  | [] => 0
  | x :: xs => x.weight + itemsWeight xs

/-- The number of parts of the entries and of their values. -/
def fieldsWeight : List (Node × Node) → Nat
  | [] => 0
  | (_, v) :: fs => 1 + v.weight + fieldsWeight fs
end

theorem itemsWeight_eq (xs : List Node) : itemsWeight xs = (xs.map weight).sum := by
  induction xs with
  | nil => rfl
  | cons x xs ih => rw [itemsWeight, ih, List.map_cons, List.sum_cons]

theorem fieldsWeight_eq (fs : Fields) :
    fieldsWeight fs = (fs.map fun f => 1 + f.2.weight).sum := by
  induction fs with
  | nil => rfl
  | cons f fs ih => rw [fieldsWeight, ih, List.map_cons, List.sum_cons]

theorem weight_pos (n : Node) : 0 < n.weight := by
  cases n <;> simp only [weight] <;> omega

theorem fieldsWeight_put_le (fs : Fields) (name : String) (v : Node) :
    fieldsWeight (fs.put name v) ≤ fieldsWeight fs + 1 + v.weight := by
  induction fs with
  | nil => simp [Fields.put, fieldsWeight]
  | cons f fs ih =>
    obtain ⟨k, w⟩ := f
    rw [Fields.put_cons]
    split <;> simp only [fieldsWeight] <;> omega

theorem fieldsWeight_erase_le (fs : Fields) (name : String) :
    fieldsWeight (fs.erase name) ≤ fieldsWeight fs := by
  induction fs with
  | nil => exact Nat.le_refl _
  | cons f fs ih =>
    obtain ⟨k, w⟩ := f
    rw [Fields.erase_cons]
    split <;> simp only [fieldsWeight] <;> omega

/-- An entry that is found is missing with all it was once it is left out. -/
theorem fieldsWeight_erase_add_le {fs : Fields} {name : String} {v : Node}
    (h : fs.get? name = some v) :
    fieldsWeight (fs.erase name) + 1 + v.weight ≤ fieldsWeight fs := by
  induction fs with
  | nil => cases h
  | cons f fs ih =>
    obtain ⟨k, w⟩ := f
    rw [Fields.get?_cons] at h
    rw [Fields.erase_cons]
    split at h
    · next hk =>
      obtain rfl := Option.some.inj h
      have := fieldsWeight_erase_le fs name
      rw [if_pos hk, fieldsWeight]
      omega
    · next hk =>
      have := ih h
      rw [if_neg hk, fieldsWeight, fieldsWeight]
      omega

end Node

namespace Schema

/-- What an array without a schema for its items counts more. -/
def missing (fs : Fields) : Nat :=
  if describesArray fs && (fs.get? "items").isNone then 3 else 0

theorem weight_map (fs : Fields) : (Node.map fs).weight = 1 + fieldsWeight fs + missing fs := rfl

theorem missing_eq_zero (h : describesArray fs = true → (fs.get? "items").isSome = true) :
    missing fs = 0 := by
  unfold missing
  split
  · next hm =>
    rw [Bool.and_eq_true] at hm
    rw [Option.isSome_iff_ne_none] at h
    exact absurd (Option.isNone_iff_eq_none.1 hm.2) (h hm.1)
  · rfl

/-- The rules leave an orderly mapping as it is, or take more away than they put; and an array has
a schema for its items then. -/
theorem Orderly.rules_eq_or_lt (h : Orderly fs) (hr : applyRules fs path = .ok gs) :
    missing gs = 0 ∧ (gs = fs ∨ fieldsWeight gs < fieldsWeight fs + missing fs) := by
  obtain rfl := Except.ok.inj ((h.applyRules_eq path).symm.trans hr)
  -- The schema for items that is put counts two, and that there was none counted three.
  have items : (describesArray fs = true → ((applied singleItems? fs).get? "items").isSome = true) ∧
      (applied singleItems? fs = fs ∨
        fieldsWeight (applied singleItems? fs) < fieldsWeight fs + missing fs) := by
    rcases singleItems_cases fs with ⟨e, present⟩ | ⟨array, v, hv, e⟩ <;> rw [e]
    · refine ⟨fun array => ?_, .inl rfl⟩
      obtain ⟨v, hv, -⟩ := present array
      rw [hv]
      rfl
    · refine ⟨fun _ => by rw [Fields.get?_put_self]; rfl, .inr ?_⟩
      cases hv with
      | absent hx =>
        have put := fieldsWeight_put_le (fs.erase "items") "items" (.map [])
        have erased := fieldsWeight_erase_le fs "items"
        have none : missing fs = 3 := by simp [missing, array, hx]
        have empty : (Node.map []).weight = 1 := rfl
        omega
      | empty hx | only hx | several hx => exact absurd ⟨_, hx⟩ (h.oneItems array)
  have array : describesArray (applied dropEmptyDefault? (applied singleItems? fs))
      = describesArray fs := by
    rw [describesArray, declares_applied_dropEmptyDefault, declares_applied_singleItems]
    rfl
  refine ⟨missing_eq_zero fun hd => ?_, ?_⟩
  · rw [get?_applied_dropEmptyDefault (by decide)]
    exact items.1 (array ▸ hd)
  · rcases dropEmptyDefault_cases (applied singleItems? fs) with ⟨e, -⟩ | ⟨-, ⟨d, hd, -⟩, e⟩ <;>
      rw [e]
    · exact items.2
    · have dropped := fieldsWeight_erase_add_le hd
      rcases items.2 with same | less
      · rw [same] at dropped ⊢
        exact .inr (by omega)
      · exact .inr (by omega)

/-- A node that is dropped has three parts at least: itself, an entry, and its value. -/
theorem three_le_weight_of_clean (h : clean v = .ok none) : 3 ≤ v.weight := by
  rcases v.map_or_list_or_other with ⟨fs, rfl⟩ | ⟨xs, rfl⟩ | ⟨hm, hl⟩
  · rcases clean_map_iff.1 h with ⟨hv, -⟩ | ⟨-, gs, -, kept, -, e⟩
    · cases fs with
      | nil => cases hv
      | cons f fs =>
        have := weight_pos f.2
        rw [weight_map, fieldsWeight]
        omega
    · cases e
  · obtain ⟨ys, -, e⟩ := clean_list_iff.1 h
    cases e
  · cases (clean_other hm hl).symm.trans h

/-- What is kept of the entries is all of them, or less even if an array loses the schema for its
items. -/
theorem kept_eq_or_lt (hd : gs.Distinct) (h : Kept EntryCleans gs kept) (hg : missing gs = 0)
    (step : ∀ f ∈ gs, ∀ m, clean f.2 = .ok (some m) → m = f.2 ∨ m.weight < f.2.weight) :
    kept = gs ∨ fieldsWeight kept + missing kept < fieldsWeight gs := by
  have entry : ∀ f ∈ gs, ∀ g, EntryCleans f (some g) →
      g = f ∨ 1 + g.2.weight < 1 + f.2.weight := by
    rintro ⟨k, v⟩ hf ⟨k', w⟩ ⟨-, hk, hc⟩
    obtain rfl : k' = k := hk
    exact (step _ hf w hc).imp (fun e => by rw [e]) (Nat.add_lt_add_left · 1)
  have entry_le : ∀ f ∈ gs, ∀ g, EntryCleans f (some g) → 1 + g.2.weight ≤ 1 + f.2.weight :=
    fun f hf g hr => (entry f hf g hr).elim (fun e => e ▸ Nat.le_refl _) Nat.le_of_lt
  rw [fieldsWeight_eq, fieldsWeight_eq]
  by_cases lost : describesArray kept = true ∧ kept.get? "items" = none
  · -- The schema for the items was there, and was dropped: it counted more than what is missing.
    right
    obtain ⟨array, none⟩ := lost
    have array' := (traced_of_distinct hd h).declares array
    obtain ⟨v, hv⟩ : ∃ v, gs.get? "items" = some v := by
      rcases hv : gs.get? "items" with - | v
      · simp [missing, describesArray, array', hv] at hg
      · exact ⟨v, rfl⟩
    have nothing : ∀ g ∈ kept, ¬ EntryCleans (.str "items", v) (some g) := by
      rintro ⟨k, w⟩ hm ⟨-, hk, -⟩
      obtain rfl : k = .str "items" := hk
      exact Fields.get?_eq_none_iff.1 none (Fields.mem_names.2 ⟨w, hm⟩)
    have weighs : 3 ≤ v.weight := by
      rcases h.dropped_or_kept (mem_of_get? hv) with (hb | hc) | ⟨g, hm, hr⟩
      · cases hb
      · exact three_le_weight_of_clean hc
      · exact absurd hr (nothing g hm)
    have less : (kept.map fun f => 1 + f.2.weight).sum + (1 + v.weight)
        ≤ (gs.map fun f => 1 + f.2.weight).sum :=
      h.sum_add_le entry_le (mem_of_get? hv) nothing
    have : missing kept ≤ 3 := by
      unfold missing
      split <;> omega
    omega
  · rw [missing_eq_zero fun array => ?_, Nat.add_zero]
    · exact h.eq_or_sum_lt (fun f _ => by omega) entry
    · rw [Option.isSome_iff_ne_none]
      exact fun none => lost ⟨array, none⟩

/-- **A pass that changes an orderly document takes weight from it.** -/
theorem eq_or_weight_lt (hn : n.Everywhere Orderly) (h : clean n = .ok (some m)) :
    m = n ∨ m.weight < n.weight := by
  induction n using cleaning_induction generalizing m with
  | map fs ih =>
    rcases clean_map_iff.1 h with ⟨-, e⟩ | ⟨-, gs, hr, kept, hk, e⟩
    · cases e
    obtain rfl := Option.some.inj e
    have orderly := (everywhere_map.1 hn).1
    obtain ⟨hg, rules⟩ := orderly.rules_eq_or_lt hr
    have below := kept_eq_or_lt (distinct_applyRules orderly.distinct hr) hk hg fun f hf m hc =>
      ih hr f hf (everywhere_applyRules ruleClosed_orderly hn hr hf) hc
    rw [weight_map, weight_map]
    rcases below with rfl | below
    · rcases rules with rfl | rules
      · exact .inl rfl
      · exact .inr (by omega)
    · rcases rules with rfl | rules
      · exact .inr (by omega)
      · exact .inr (by omega)
  | list xs ih =>
    obtain ⟨ys, hk, e⟩ := clean_list_iff.1 h
    obtain rfl := Option.some.inj e
    rw [weight, weight, itemsWeight_eq, itemsWeight_eq]
    rcases hk.eq_or_sum_lt (fun x _ => weight_pos x) fun x hx y hc =>
      ih x hx (everywhere_list.1 hn x hx) hc with rfl | less
    · exact .inl rfl
    · exact .inr (by omega)
  | other n hm hl =>
    rw [clean_other hm hl] at h
    exact .inl (Option.some.inj (Except.ok.inj h)).symm

/-! ### Pass after pass -/

/-- An orderly document stays so. -/
theorem orderly_clean (hn : n.Everywhere Orderly) (h : clean n = .ok (some m)) :
    m.Everywhere Orderly := by
  refine everywhere_clean ruleClosed_orderly ?_ hn h
  intro fs gs kept hfs _ hr hk
  have orderly := (everywhere_map.1 hfs).1
  have distinct := distinct_applyRules orderly.distinct hr
  have traced := traced_of_distinct distinct hk
  -- A list under a name in what is kept was a list under it after the rules, which leave none.
  have flat : Fields.FlatUnder "type" fs := fun xs hx => absurd ⟨xs, hx⟩ orderly.oneType
  refine {
    distinct := distinct.sublist (names_sublist_of_kept hk)
    oneType := fun hl => not_list_type flat hr (traced.hasList hl)
    oneItems := ?_
    joinedEnums := fun ⟨he, ha⟩ => not_enum_and_anyOf hr ⟨traced.hasList he, traced.hasList ha⟩ }
  intro array hl
  have array₁ := traced.declares array
  have array₀ : describesArray fs = true := by
    obtain rfl := Except.ok.inj ((orderly.applyRules_eq []).symm.trans hr)
    rwa [declares_applied_dropEmptyDefault, declares_applied_singleItems] at array₁
  have flatItems : Fields.FlatUnder "items" fs :=
    fun xs hx => absurd ⟨xs, hx⟩ (orderly.oneItems array₀)
  obtain ⟨v, hv, hn⟩ := single_items flatItems hr array₁
  obtain ⟨xs, hx⟩ := traced.hasList hl
  exact hn xs (Option.some.inj (hv.symm.trans hx))

/-- Cleans a document so many times, as long as something of it is left. -/
def passes : Nat → Node → Except NullOnlyTypes (Option Node)
  | 0, n => .ok (some n)
  | k + 1, n =>
    match clean n with
    | .error e => .error e
    | .ok none => .ok none
    | .ok (some m) => passes k m

theorem passes_succ_of_none (h : clean n = .ok none) (k : Nat) : passes (k + 1) n = .ok none := by
  rw [passes, h]

theorem passes_succ_of_some (h : clean n = .ok (some m)) (k : Nat) :
    passes (k + 1) n = passes k m := by
  rw [passes, h]

/-- No pass over an orderly document ends in a fault. -/
theorem exists_passes_of_orderly (hn : n.Everywhere Orderly) (k : Nat) :
    ∃ r, passes k n = .ok r := by
  induction k generalizing n with
  | zero => exact ⟨some n, rfl⟩
  | succ k ih =>
    obtain ⟨r, hc⟩ := exists_clean_of_orderly hn
    cases r with
    | none => exact ⟨none, passes_succ_of_none hc k⟩
    | some m =>
      rw [passes_succ_of_some hc]
      exact ih (orderly_clean hn hc)

/-- The passes over a document come to an end: nothing of it is left, or what is left stays. -/
def Settles (n : Node) (k : Nat) : Prop :=
  passes k n = .ok none ∨ ∃ y, passes k n = .ok (some y) ∧ clean y = .ok (some y)

theorem settles_succ (h : clean n = .ok (some m)) {k : Nat} :
    Settles n (k + 1) ↔ Settles m k := by
  rw [Settles, Settles, passes_succ_of_some h]

/-- The passes over an orderly document settle, and no later than its weight says. -/
theorem exists_settles_of_orderly (hn : n.Everywhere Orderly) : ∃ k ≤ n.weight, Settles n k := by
  -- On the weight, which falls until the document stays.
  induction hw : n.weight using Nat.strongRecOn generalizing n with
  | _ bound ih =>
    subst hw
    obtain ⟨r, hc⟩ := exists_clean_of_orderly hn
    cases r with
    | none => exact ⟨1, weight_pos n, .inl (passes_succ_of_none hc 0)⟩
    | some m =>
      rcases eq_or_weight_lt hn hc with rfl | less
      · exact ⟨0, Nat.zero_le _, .inr ⟨m, rfl, hc⟩⟩
      · obtain ⟨k, hk, settles⟩ := ih m.weight less (orderly_clean hn hc) rfl
        exact ⟨k + 1, by omega, (settles_succ hc).2 settles⟩

/-- **Repeated cleaning settles.**  If the lists of types and of items of a document are flat and
it is cleaned without a fault, no further pass ends in one, and after finitely many passes nothing
is left of it or it is left as it is. -/
theorem passes_settle (hx : x.Everywhere Fields.Distinct)
    (ht : x.Everywhere (Fields.FlatUnder "type")) (hi : x.Everywhere (Fields.FlatUnder "items"))
    (h : clean x = .ok r) :
    (∀ k, ∃ r, passes k x = .ok r) ∧
    ∃ k, passes k x = .ok none ∨ ∃ y, passes k x = .ok (some y) ∧ clean y = .ok (some y) := by
  cases r with
  | none =>
    refine ⟨fun k => ?_, 1, .inl (passes_succ_of_none h 0)⟩
    cases k with
    | zero => exact ⟨some x, rfl⟩
    | succ k => exact ⟨none, passes_succ_of_none h k⟩
  | some y =>
    have orderly := orderly_of_clean hx ht hi h
    constructor
    · intro k
      cases k with
      | zero => exact ⟨some x, rfl⟩
      | succ k =>
        rw [passes_succ_of_some h]
        exact exists_passes_of_orderly orderly k
    · obtain ⟨k, -, settles⟩ := exists_settles_of_orderly orderly
      exact ⟨k + 1, (settles_succ h).2 settles⟩

/-- An array whose only schema for its items is vacuous. -/
def hollowSchema : Node :=
  .map [(.str "type", .str "array"),
    (.str "items", .list [.map [(.str "type", .str "object"),
      (.str "additionalProperties", .bool false)]])]

/-- The first pass takes the schema for the items away, the second one puts one that allows
everything, and the document stays. -/
theorem passes_settle_hollow :
    passes 1 hollowSchema = .ok (some (.map [(.str "type", .str "array")])) ∧
    passes 2 hollowSchema
      = .ok (some (.map [(.str "type", .str "array"), (.str "items", .map [])])) ∧
    (∀ k, ∃ r, passes k hollowSchema = .ok r) ∧
    ∃ k, passes k hollowSchema = .ok none ∨
      ∃ y, passes k hollowSchema = .ok (some y) ∧ clean y = .ok (some y) := by
  have distinct : hollowSchema.Everywhere Fields.Distinct := by decide
  have flatTypes : hollowSchema.Everywhere (Fields.FlatUnder "type") := by
    simp [hollowSchema, Everywhere, mappings, itemMappings, fieldMappings, Fields.FlatUnder,
      Fields.get?]
  have flatItems : hollowSchema.Everywhere (Fields.FlatUnder "items") := by
    simp [hollowSchema, Everywhere, mappings, itemMappings, fieldMappings, Fields.FlatUnder,
      Fields.get?]
  have first : clean hollowSchema = .ok (some (.map [(.str "type", .str "array")])) := by
    with_unfolding_all rfl
  refine ⟨?_, ?_, passes_settle distinct flatTypes flatItems first⟩
  · with_unfolding_all rfl
  · with_unfolding_all rfl

end Schema

end PlainSchema
