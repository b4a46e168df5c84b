/-
PlainSchema/Proofs/Location.lean

Where the fault of a cleaning says that it is.

The place that the cleaner carries is the way it came: through what the rules left of
each mapping (`Handled`), not through the mapping as it stands in the document.  So
the path of a fault leads to the list of types it speaks of in the document as the
rules rewrite it.

In the document itself the path leads there as long as the rules leave the entries on
the way alone (`Untouched`).  They do not where they move parts of a mapping:

* each type of a list stands under `type`, or in an alternative of `oneOf`;
* the only schema of a list of items stands under `items` itself, and several of them
  under a new `anyOf`;
* alternatives that are no plain strings close up behind the one for all strings, and
  values go into it.

`clean_misplaced` is a document in which the path of the fault leads to an
alternative that is in order.
-/
import PlainSchema.Proofs.Cleaning

namespace PlainSchema

variable {n m v x : Node} {fs gs : Fields} {xs : List Node} {k : Node} {p q : Pointer} {i : Nat}

/-! ### Ways through a document -/

namespace Node

/-- A pointer leads from a node to another: each step is the key of an entry, or the index of an
item. -/
inductive Leads : Node → Pointer → Node → Prop
  | here {n : Node} : Leads n [] n
  | key {fs : Fields} {k v m : Node} {p : Pointer} : (k, v) ∈ fs → Leads v p m →
      Leads (.map fs) (.key k :: p) m
  | index {xs : List Node} {i : Nat} {x m : Node} {p : Pointer} : xs[i]? = some x → Leads x p m →
      Leads (.list xs) (.index i :: p) m

theorem Leads.trans (h : Leads n p m) (h' : Leads m q v) : Leads n (p ++ q) v := by
  induction h with
  | here => exact h'
  | key hk _ ih => exact .key hk (ih h')
  | index hi _ ih => exact .index hi (ih h')

/-- A node in which there is nothing to go down to. -/
def Barren (n : Node) : Prop := n = .map [] ∨ (∀ fs, n ≠ .map fs) ∧ ∀ xs, n ≠ .list xs

end Node

open Node

namespace Schema

variable {e : NullOnlyTypes} {types : List Node} {split : Option Fields}

/-! ### Where a cleaning ends in a fault -/

theorem describedTypes_eq_nil_iff : describedTypes types = [] ↔ ∀ t ∈ types, t = .str "null" := by
  simp [describedTypes, List.filter_eq_nil_iff, isText_iff]

/-- Splitting fails at a list of types that are all `null`. -/
theorem splitTypes_eq_error_iff : splitTypes? fs p = .error e ↔
    e.path = p ∧ fs.get? "type" = some (.list e.types) ∧ ∀ t ∈ e.types, t = .str "null" := by
  obtain ⟨path, types⟩ := e
  unfold splitTypes?
  split
  · next types' ht =>
    rw [ht]
    dsimp only
    split
    · next hn =>
      constructor
      · intro h
        obtain ⟨rfl, rfl⟩ := NullOnlyTypes.mk.inj (Except.error.inj h)
        exact ⟨rfl, rfl, describedTypes_eq_nil_iff.1 hn⟩
      · rintro ⟨rfl, h, -⟩
        obtain rfl := Node.list.inj (Option.some.inj h)
        rfl
    · next t hd =>
      refine iff_of_false nofun ?_
      rintro ⟨-, h, hn⟩
      obtain rfl := Node.list.inj (Option.some.inj h)
      cases (describedTypes_eq_nil_iff.2 hn).symm.trans hd
    · next hd _ =>
      refine iff_of_false nofun ?_
      rintro ⟨-, h, hn⟩
      obtain rfl := Node.list.inj (Option.some.inj h)
      exact hd (describedTypes_eq_nil_iff.2 hn)
  · next hn => exact iff_of_false nofun fun ⟨_, h, _⟩ => hn _ h

theorem applyRules_eq_error_iff : applyRules fs p = .error e ↔
    e.path = p ∧ fs.get? "type" = some (.list e.types) ∧ ∀ t ∈ e.types, t = .str "null" := by
  rw [← splitTypes_eq_error_iff, applyRules]
  rcases splitTypes? fs p with e' | split <;> simp

/-- A fault of several members is a fault of one of them. -/
theorem exists_of_keep_eq_error {α β ε : Type} {f : α → Except ε (Option β)} {xs : List α} {e : ε}
    (h : keep f xs = .error e) : ∃ x ∈ xs, f x = .error e := by
  induction xs with
  | nil => cases h
  | cons x xs ih =>
    rw [keep] at h
    rcases hx : f x with e' | r <;> rw [hx] at h
    · obtain rfl : e' = e := Except.error.inj h
      exact ⟨x, List.mem_cons_self, hx⟩
    · rcases hxs : keep f xs with e' | ys <;> rw [hxs] at h
      · obtain rfl : e' = e := Except.error.inj h
        obtain ⟨y, hy, he⟩ := ih hxs
        exact ⟨y, List.mem_cons_of_mem _ hy, he⟩
      · cases h

/-- The cleaner comes to a node at a place: it goes down from a mapping through what the rules
leave of it, and from a list through its items. -/
inductive Handled (x : Node) : Pointer → Node → Prop
  | root : Handled x [] x
  | value {p : Pointer} {fs gs : Fields} {k v : Node} : Handled x p (.map fs) →
      isVacuous fs = false → applyRules fs p = .ok gs →
      (k, v) ∈ gs → isBookkeeping k = false → Handled x (p ++ [.key k]) v
  | item {p : Pointer} {xs : List Node} {i : Nat} {y : Node} : Handled x p (.list xs) →
      xs[i]? = some y → Handled x (p ++ [.index i]) y

/-- The fault of a cleaning is one of a mapping that the cleaner comes to, at the place that it
names. -/
theorem exists_handled_of_error (hn : Handled x p n) (h : cleanAt n p = .error e) :
    ∃ fs : Fields, Handled x e.path (.map fs) ∧ fs.get? "type" = some (.list e.types) ∧
      ∀ t ∈ e.types, t = .str "null" := by
  induction n using cleaning_induction generalizing p with
  | map fs ih =>
    rw [cleanAt_map] at h
    by_cases hv : isVacuous fs = true
    · rw [if_pos hv] at h
      cases h
    rw [if_neg hv] at h
    rw [Bool.not_eq_true] at hv
    rcases hr : applyRules fs p with e' | gs <;> rw [hr] at h
    · obtain rfl := Except.error.inj h
      obtain ⟨rfl, ht, hn'⟩ := applyRules_eq_error_iff.1 hr
      exact ⟨fs, hn, ht, hn'⟩
    · -- One of the values that the rules leave is to blame.
      rcases hk : keep (cleanField p) gs with e' | kept
      · obtain rfl : e' = e := by simpa [Except.bind, hk, Except.map] using h
        obtain ⟨⟨k, v⟩, hf, he⟩ := exists_of_keep_eq_error hk
        unfold cleanField at he
        by_cases hb : isBookkeeping k = true
        · rw [if_pos hb] at he
          cases he
        · rw [if_neg hb] at he
          rw [Bool.not_eq_true] at hb
          rcases hc : cleanAt v (p ++ [.key k]) with e'' | r <;> rw [hc] at he
          · obtain rfl : e'' = e' := Except.error.inj he
            exact ih hr (k, v) hf (.value hn hv hr hf hb) hc
          · cases he
      · rw [Except.bind, hk] at h
        cases h
  | list xs ih =>
    rw [cleanAt_list] at h
    rcases hk : keep (cleanItem p) xs.zipIdx with e' | ys <;> rw [hk] at h
    · obtain rfl : e' = e := Except.error.inj h
      obtain ⟨⟨y, i⟩, hy, he⟩ := exists_of_keep_eq_error hk
      have hi : xs[i]? = some y := List.mk_mem_zipIdx_iff_getElem?.1 hy
      exact ih y (List.mem_of_getElem? hi) (.item hn hi) he
    · cases h
  | other n hm hl =>
    rw [cleanAt_other hm hl] at h
    cases h

/-! ### Where the rules move nothing -/

/-- The rules leave the entry of a key where it is, if there is one. -/
structure Untouched (fs : Fields) (k : Node) : Prop where
  type : k = .str "type" → ¬ fs.HasList "type"
  oneOf : k = .str "oneOf" → ∀ types, fs.get? "type" = some (.list types) →
    (describedTypes types).length ≤ 1
  items : k = .str "items" → fs.HasList "items" →
    describesArray fs = false ∧ fs.FlatUnder "type"
  enums : k = .str "enum" ∨ k = .str "anyOf" → ¬ (fs.HasList "enum" ∧ fs.HasList "anyOf")

/-- The rules touch no entry whose key is none of their keywords. -/
theorem untouched_of_ne (h : ∀ name ∈ ["type", "oneOf", "items", "enum", "anyOf"], k ≠ .str name) :
    Untouched fs k where
  type e := absurd e (h _ (by decide))
  oneOf e := absurd e (h _ (by decide))
  items e := absurd e (h _ (by decide))
  enums e := e.elim (fun e => absurd e (h _ (by decide))) fun e => absurd e (h _ (by decide))

/-- What stands under `oneOf` after a list of types was split was there before, unless several
types are left. -/
theorem mem_splitTypes_oneOf (h : splitTypes? fs p = .ok split)
    (one : ∀ types, fs.get? "type" = some (.list types) → (describedTypes types).length ≤ 1)
    (hv : (.str "oneOf", v) ∈ split.getD fs) : (.str "oneOf", v) ∈ fs := by
  unfold splitTypes? at h
  split at h
  · next types ht =>
    dsimp only at h
    split at h
    · cases h
    · obtain rfl := Except.ok.inj h
      have := Fields.mem_of_mem_put_of_ne hv (by decide)
      rcases mem_markNullable this with hm | e
      · exact mem_of_mem_erase hm
      · simp at e
    · next hn hs =>
      -- Several types would be left.
      have := one types ht
      rcases hd : describedTypes types with - | ⟨t, - | ⟨t', ts⟩⟩
      · exact absurd hd hn
      · exact absurd hd (hs t)
      · rw [hd] at this
        simp at this
  · obtain rfl := Except.ok.inj h
    exact hv

theorem MadeBySplit.key (h : MadeBySplit fs (k, v)) :
    ∃ name ∈ ["nullable", "type", "oneOf"], k = .str name := by
  cases h <;> exact ⟨_, by decide, rfl⟩

theorem MadeAfter.key (h : MadeAfter fs (k, v)) :
    ∃ name ∈ ["items", "enum", "type", "anyOf"], k = .str name := by
  cases h <;> exact ⟨_, by decide, rfl⟩

/-- What stands under `items` was there before, unless the mapping describes an array. -/
theorem mem_applyRules_items (h : applyRules fs p = .ok gs) (flat : fs.FlatUnder "type")
    (array : describesArray fs = false) (hv : (.str "items", v) ∈ gs) :
    (.str "items", v) ∈ fs := by
  obtain ⟨split, hs, rfl⟩ := applyRules_eq h
  have hv₁ := mem_of_mem_dropEmptyDefault
    (mem_of_mem_mergeEnums (by decide) (by decide) (by decide) hv)
  rcases singleItems_cases (split.getD fs) with ⟨e, -⟩ | ⟨array', -⟩
  · rw [e] at hv₁
    rcases mem_splitTypes hs hv₁ with hv | made
    · exact hv
    · obtain ⟨name, hn, e⟩ := made.key
      obtain rfl := Node.str.inj e
      exact absurd hn (by decide)
  · cases array.symm.trans (declares_of_splitTypes flat hs array')

/-- What the rules leave under a key that they do not touch was there before, or there is nothing
in it. -/
theorem mem_or_barren_of_untouched (h : applyRules fs p = .ok gs) (hk : Untouched fs k)
    (hv : (k, v) ∈ gs) : (k, v) ∈ fs ∨ v.Barren := by
  by_cases ho : k = .str "oneOf"
  · subst ho
    obtain ⟨split, hs, rfl⟩ := applyRules_eq h
    rcases mem_settled hv with hv | made
    · exact .inl (mem_splitTypes_oneOf hs (hk.oneOf rfl) hv)
    · obtain ⟨name, hn, e⟩ := made.key
      obtain rfl := Node.str.inj e
      exact absurd hn (by decide)
  rcases mem_applyRules h hv with hf | made | made
  · exact .inl hf
  · cases made with
    | nullable => exact .inr (.inr ⟨nofun, nofun⟩)
    | type ht => exact absurd ⟨_, ht⟩ (hk.type rfl)
    | oneOf => exact absurd rfl ho
  · cases made with
    | string => exact .inr (.inr ⟨nofun, nofun⟩)
    | items hi =>
      -- A schema that was made for items there were none of has nothing in it.
      have list : fs.HasList "items" → (Node.str "items", v) ∈ fs := by
        intro hl
        obtain ⟨array, flat⟩ := hk.items rfl hl
        exact mem_applyRules_items h flat array hv
      cases hi with
      | absent => exact .inr (.inl rfl)
      | empty => exact .inr (.inl rfl)
      | only hx => exact .inl (list ⟨_, hx⟩)
      | several hx => exact .inl (list ⟨_, hx⟩)
    | enum he ha => exact absurd ⟨⟨_, he⟩, _, ha⟩ (hk.enums (.inl rfl))
    | anyOf he ha => exact absurd ⟨⟨_, he⟩, _, ha⟩ (hk.enums (.inr rfl))

/-- Nothing is left of nothing. -/
theorem not_mem_applyRules_nil (h : applyRules [] p = .ok gs) : (k, v) ∉ gs := by
  obtain rfl : ([] : Fields) = gs := Except.ok.inj h
  exact List.not_mem_nil

/-- A node that the cleaner comes to stands at its place in the document, or has nothing in it, if
the rules touch none of the entries on the way. -/
theorem leads_of_handled (h : Handled x p n)
    (untouched : ∀ q k fs, q ++ [.key k] <+: p → x.Leads q (.map fs) → Untouched fs k) :
    x.Leads p n ∨ n.Barren := by
  induction h with
  | root => exact .inl .here
  | @value p fs gs k v _ _ hr hv _ ih =>
    rcases ih fun q k fs hq => untouched q k fs (hq.trans (List.prefix_append p _)) with
      there | e | ⟨hm, -⟩
    · rcases mem_or_barren_of_untouched hr (untouched p k fs List.prefix_rfl there) hv with hf | hb
      · exact .inl (there.trans (.key hf .here))
      · exact .inr hb
    · -- From a node with nothing in it there is no way down.
      obtain rfl := Node.map.inj e
      exact absurd hv (not_mem_applyRules_nil hr)
    · exact absurd rfl (hm fs)
  | @item p xs i y _ hi ih =>
    rcases ih fun q k fs hq => untouched q k fs (hq.trans (List.prefix_append p _)) with
      there | e | ⟨-, hl⟩
    · exact .inl (there.trans (.index hi .here))
    · cases e
    · exact absurd rfl (hl xs)

/-- **The path of a fault leads to its list of types**, all of them `null`: in the document as the
rules rewrite it, and in the document itself if the rules touch no entry on the way. -/
theorem clean_error_location (h : clean x = .error e) :
    (∀ t ∈ e.types, t = .str "null") ∧
    (∃ fs : Fields, Handled x e.path (.map fs) ∧ fs.get? "type" = some (.list e.types)) ∧
    ((∀ q k fs, q ++ [.key k] <+: e.path → x.Leads q (.map fs) → Untouched fs k) →
      ∃ fs : Fields, x.Leads e.path (.map fs) ∧ fs.get? "type" = some (.list e.types)) := by
  obtain ⟨fs, hh, ht, hn⟩ := exists_handled_of_error .root h
  refine ⟨hn, ⟨fs, hh, ht⟩, fun untouched => ⟨fs, ?_, ht⟩⟩
  rcases leads_of_handled hh untouched with there | e | ⟨hm, -⟩
  · exact there
  · obtain rfl := Node.map.inj e
    cases ht
  · exact absurd rfl (hm fs)

/-- A property with no type but `null`, in an object in a list. -/
def brokenSchema : Node :=
  .map [(.str "allOf", .list [.map [(.str "type", .str "string")],
    .map [(.str "properties", .map [(.str "x", .map [(.str "type", .list [.str "null"])])])]])]

theorem clean_error_location_broken :
    clean brokenSchema = .error ⟨[.key (.str "allOf"), .index 1, .key (.str "properties"),
      .key (.str "x")], [.str "null"]⟩ ∧
    ∃ fs : Fields, brokenSchema.Leads [.key (.str "allOf"), .index 1, .key (.str "properties"),
      .key (.str "x")] (.map fs) ∧ fs.get? "type" = some (.list [.str "null"]) := by
  have fault : clean brokenSchema = .error ⟨[.key (.str "allOf"), .index 1,
      .key (.str "properties"), .key (.str "x")], [.str "null"]⟩ := by with_unfolding_all rfl
  refine ⟨fault, (clean_error_location fault).2.2 ?_⟩
  intro q k fs hq _
  have step : Step.key k ∈ [Step.key (.str "allOf"), .index 1, .key (.str "properties"),
      .key (.str "x")] := hq.subset (List.mem_append_right _ (List.mem_singleton_self _))
  simp only [List.mem_cons, List.not_mem_nil, or_false, Step.key.injEq, reduceCtorEq,
    false_or] at step
  rcases step with rfl | rfl | rfl <;> exact untouched_of_ne (by simp)

/-- Alternatives of which the second is a plain string, and the first has no type but `null`. -/
def misplacedSchema : Node :=
  .map [(.str "enum", .list [.str "tame"]), (.str "anyOf", .list [
    .map [(.str "type", .list [.str "null"])], .map [(.str "type", .str "string")]])]

/-- The path of the fault leads to the alternative that is in order. -/
theorem clean_misplaced :
    clean misplacedSchema = .error ⟨[.key (.str "anyOf"), .index 1], [.str "null"]⟩ ∧
    misplacedSchema.Leads [.key (.str "anyOf"), .index 1] (.map [(.str "type", .str "string")]) ∧
    ¬ ∃ fs : Fields, misplacedSchema.Leads [.key (.str "anyOf"), .index 1] (.map fs) ∧
      fs.get? "type" = some (.list [.str "null"]) := by
  refine ⟨by with_unfolding_all rfl, ?_, ?_⟩
  · exact .key (List.mem_cons_of_mem _ List.mem_cons_self) (.index rfl .here)
  · rintro ⟨fs, h, ht⟩
    cases h with
    | key hk h =>
      simp at hk
      subst hk
      cases h with
      | index hi h =>
        simp at hi
        subst hi
        cases h
        simp [Fields.get?] at ht

end Schema

end PlainSchema
