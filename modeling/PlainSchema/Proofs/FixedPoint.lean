/-
PlainSchema/Proofs/FixedPoint.lean

The documents that a cleaning leaves as they are, and when one cleaning is enough.

A document is a fixed point if and only if every mapping of it is in normal form.
One direction is an induction through the rules: none of them applies to a mapping in
normal form.  For the other one a rule that applies has to be seen in the result.
Most rules take a keyword away that the mapping had, or put one that is no list in
the stead of a list.  A list of one type `x` is the exception: `x` takes its place,
and would have to become the list that it is an item of.  `clean_ne_list_of_mem`
rules that out by going down through the items: the list that a list becomes comes
from lists further down, without end.

A cleaning leads to normal form if nothing is dropped on the way, that is, if no
mapping of the document is vacuous and none has bookkeeping entries, and if its lists
of types and of items are flat.
-/
import PlainSchema.Proofs.Dialect

namespace PlainSchema

namespace Schema

variable {fs gs kept : Fields} {f : Node × Node} {n m t v w x y : Node} {xs ys types : List Node}
  {path : Pointer} {split : Option Fields} {name : String}

/-! ### Normal form -/

/-- A mapping to which no rule applies. -/
structure InNormalForm (fs : Fields) : Prop where
  noBookkeeping : ∀ name ∈ ["_name_", "_required_", "_attrs_order_"], name ∉ fs.names
  notVacuous : isVacuous fs = false
  oneType : ¬ fs.HasList "type"
  oneItems : (kind fs).array = true → ∃ v, fs.get? "items" = some v ∧ ∀ xs, v ≠ .list xs
  noSilentDefault : (kind fs).object = true →
    fs.get? "default" ≠ some .null ∧ fs.get? "default" ≠ some (.map [])
  joinedEnums : ¬ (fs.HasList "enum" ∧ fs.HasList "anyOf")

theorem isSilent_iff : isSilent v = true ↔ v = .null ∨ v = .map [] := by
  cases v with
  | null => simp [isSilent]
  | _ => simp [isSilent, Node.isEmptyMap_iff]

/-- No rule applies to a mapping in normal form. -/
theorem InNormalForm.applyRules_eq (h : InNormalForm fs) (path : Pointer) :
    applyRules fs path = .ok fs := by
  have items : applied singleItems? fs = fs := by
    rcases singleItems_cases fs with ⟨e, -⟩ | ⟨array, v, hv, -⟩
    · exact e
    · obtain ⟨w, hw, hl⟩ := h.oneItems array
      cases hv with
      | absent hx => cases hw.symm.trans hx
      | empty hx | only hx | several hx => exact absurd (Option.some.inj (hw.symm.trans hx)) (hl _)
  have default : applied dropEmptyDefault? fs = fs := by
    rcases dropEmptyDefault_cases fs with ⟨e, -⟩ | ⟨object, ⟨d, hd, silent⟩, -⟩
    · exact e
    · obtain ⟨hn, he⟩ := h.noSilentDefault object
      rcases isSilent_iff.1 silent with rfl | rfl
      · exact absurd hd hn
      · exact absurd hd he
  rw [applyRules_of_oneType h.oneType, settled, items, default, mergeEnums_eq_self h.joinedEnums]

/-- A document whose mappings are all in normal form stays as it is. -/
theorem clean_eq_self (h : n.Everywhere InNormalForm) : clean n = .ok (some n) := by
  induction n using cleaning_induction with
  | map fs ih =>
    obtain ⟨normal, below⟩ := Node.everywhere_map.1 h
    refine clean_map_iff.2 (.inr ⟨normal.notVacuous, fs, normal.applyRules_eq [], fs, ?_, rfl⟩)
    refine Kept.refl fun f hf => ⟨not_isBookkeeping_of_mem normal.noBookkeeping hf, rfl, ?_⟩
    exact ih (normal.applyRules_eq []) f hf (below f hf)
  | list xs ih =>
    rw [Node.everywhere_list] at h
    exact clean_list_iff.2 ⟨xs, Kept.refl fun x hx => ih x hx (h x hx), rfl⟩
  | other n hm hl => exact clean_other hm hl

/-! ### A rule that applies shows in the result -/

/-- No item becomes the list that it is an item of. -/
theorem clean_ne_list_of_mem (hx : x ∈ xs) : clean x ≠ .ok (some (.list xs)) := by
  induction x using cleaning_induction generalizing xs with
  | map fs ih =>
    intro h
    obtain ⟨zs, e, -⟩ := list_of_clean_eq_list h
    cases e
  -- If `zs` becomes `xs`, and `zs` is an item of `xs`, it comes from an item of its own.
  | list zs ih =>
    intro h
    obtain ⟨zs', e, hk⟩ := list_of_clean_eq_list h
    obtain rfl := Node.list.inj e
    obtain ⟨z, hz, hc⟩ := hk.exists_of_mem hx
    exact ih z hz hz hc
  | other n hm hl =>
    intro h
    obtain ⟨zs, e, -⟩ := list_of_clean_eq_list h
    exact hl zs e

/-- After a list of types was split only one of the types, or the text `string`, can stand under
`type`. -/
theorem type_of_mem_applyRules (ht : fs.get? "type" = some (.list types))
    (h : applyRules fs path = .ok gs) (hv : (.str "type", v) ∈ gs) :
    v ∈ types ∨ v = .str "string" := by
  obtain ⟨split, hs, rfl⟩ := applyRules_eq h
  have erased : ∀ types', (.str "type", v) ∉ markNullable types' (fs.erase "type") := by
    intro types' hm
    rcases mem_markNullable hm with hm | e
    · exact Fields.not_mem_names_erase (Fields.mem_names.2 ⟨v, hm⟩)
    · simp at e
  rcases mem_settled hv with hv | made
  · left
    rcases splitTypes_cases hs with ⟨hn, -⟩ | ⟨types', ht', ⟨t, he, rfl⟩ | rfl⟩
    · exact absurd ⟨types, ht⟩ hn
    · obtain rfl : types = types' := Node.list.inj (Option.some.inj (ht.symm.trans ht'))
      rcases Fields.mem_or_eq_of_mem_put hv with hv | e
      · exact absurd hv (erased types)
      · rw [(Prod.mk.inj e).2]
        exact (List.mem_filter.1 (he ▸ List.mem_singleton_self t)).1
    · exact absurd (Fields.mem_of_mem_put_of_ne hv (by decide)) (erased types')
  · exact .inr made.eq_of_type

section Fixed

/-! In this section `fs` is a mapping that becomes itself. -/

/-- Its type is no list. -/
theorem not_list_type_of_fixed (h : applyRules fs path = .ok gs) (hk : Kept EntryCleans gs fs) :
    ¬ fs.HasList "type" := by
  rintro ⟨types, ht⟩
  obtain ⟨v, hv, hc⟩ := exists_entry hk (mem_of_get? ht)
  rcases type_of_mem_applyRules ht h hv with hm | rfl
  · exact clean_ne_list_of_mem hm hc
  · -- The text `string` does not become a list.
    obtain ⟨xs, e, -⟩ := list_of_clean_eq_list hc
    cases e

variable (hk : Kept EntryCleans (settled fs) fs)

include hk

/-- If it describes an array, it has one schema for its items. -/
theorem singleItems_of_fixed : applied singleItems? fs = fs ∧
    (describesArray fs = true → ∃ v, fs.get? "items" = some v ∧ ∀ xs, v ≠ .list xs) := by
  rcases singleItems_cases fs with untouched | ⟨-, v, hv, e⟩
  · exact untouched
  exfalso
  have stands : ∀ {u}, (.str "items", u) ∈ settled fs → u = v := by
    intro u hu
    have := mem_of_mem_dropEmptyDefault
      (mem_of_mem_mergeEnums (by decide) (by decide) (by decide) hu)
    rw [e] at this
    exact Fields.eq_of_mem_put this Fields.not_mem_names_erase
  -- A list under `items` is what `v` becomes.
  have becomes : ∀ {xs}, fs.get? "items" = some (.list xs) → clean v = .ok (some (.list xs)) := by
    intro xs hx
    obtain ⟨u, hu, hc⟩ := exists_entry hk (mem_of_get? hx)
    rwa [stands hu] at hc
  cases hv with
  | absent hx =>
    have found : (settled fs).get? "items" = some (.map []) := by
      rw [settled, get?_applied_mergeEnums (by decide) (by decide) (by decide),
        get?_applied_dropEmptyDefault (by decide), e, Fields.get?_put_self]
    -- The schema that was put there is kept, so `items` was there before.
    rcases hk.dropped_or_kept (mem_of_get? found) with (hb | hc) | ⟨⟨k, w⟩, hg, -, hn, -⟩
    · cases hb
    · cases clean_nil.symm.trans hc
    · obtain rfl : k = .str "items" := hn
      exact Fields.get?_eq_none_iff.1 hx (Fields.mem_names.2 ⟨w, hg⟩)
  | empty hx | several hx =>
    obtain ⟨xs, e, -⟩ := list_of_clean_eq_list (becomes hx)
    cases e
  | only hx => exact clean_ne_list_of_mem (List.mem_singleton_self v) (becomes hx)

/-- If it describes an object, its default says something. -/
theorem dropEmptyDefault_of_fixed : applied dropEmptyDefault? fs = fs ∧
    (describesObject fs = true → ∀ d, fs.get? "default" = some d → isSilent d = false) := by
  rcases dropEmptyDefault_cases fs with untouched | ⟨-, ⟨d, hd, -⟩, e⟩
  · exact untouched
  exfalso
  -- The default is in the result, so it comes from an entry that was to be dropped.
  obtain ⟨v, hv, -⟩ := exists_entry hk (mem_of_get? hd)
  have := mem_of_mem_mergeEnums (by decide) (by decide) (by decide) hv
  rw [(singleItems_of_fixed hk).1, e] at this
  exact Fields.not_mem_names_erase (Fields.mem_names.2 ⟨v, this⟩)

/-- It has no list of values beside a list of alternatives. -/
theorem mergeEnums_of_fixed : applied mergeEnums? fs = fs ∧
    ¬ (fs.HasList "enum" ∧ fs.HasList "anyOf") := by
  rcases mergeEnums_cases fs with untouched | ⟨outer, alternatives, he, ha, h⟩
  · exact untouched
  exfalso
  have same : settled fs = applied mergeEnums? fs := by
    rw [settled, (singleItems_of_fixed hk).1, (dropEmptyDefault_of_fixed hk).1]
  rw [same] at hk
  rcases h with ⟨-, e⟩ | e <;> rw [e] at hk
  · -- `anyOf` is gone.
    obtain ⟨v, hv, -⟩ := exists_entry hk (mem_of_get? ha)
    have := Fields.mem_of_mem_put_of_ne (Fields.mem_of_mem_put_of_ne hv (by decide)) (by decide)
    exact Fields.not_mem_names_erase (Fields.mem_names.2 ⟨v, this⟩)
  · -- `enum` is gone.
    obtain ⟨v, hv, -⟩ := exists_entry hk (mem_of_get? he)
    have := mem_of_mem_erase (Fields.mem_of_mem_put_of_ne hv (by decide))
    exact Fields.not_mem_names_erase (Fields.mem_names.2 ⟨v, this⟩)

end Fixed

/-- A mapping that becomes itself is in normal form, and so does each of its values become
itself. -/
theorem inNormalForm_of_fixed (h : clean (.map fs) = .ok (some (.map fs))) :
    InNormalForm fs ∧ ∀ f ∈ fs, clean f.2 = .ok (some f.2) := by
  rcases clean_map_iff.1 h with ⟨-, e⟩ | ⟨hv, gs, hr, kept, hk, e⟩
  · cases e
  obtain rfl := Node.map.inj (Option.some.inj e)
  have types := not_list_type_of_fixed hr hk
  -- So the first rule does not apply, and the others see `fs` itself, each in turn.
  obtain rfl : gs = settled fs := by
    obtain ⟨split, hs, rfl⟩ := applyRules_eq hr
    rcases splitTypes_cases hs with ⟨-, rfl⟩ | ⟨types', ht, -⟩
    · rfl
    · exact absurd ⟨types', ht⟩ types
  obtain ⟨untouched₁, items⟩ := singleItems_of_fixed hk
  obtain ⟨untouched₂, default⟩ := dropEmptyDefault_of_fixed hk
  obtain ⟨untouched₃, enums⟩ := mergeEnums_of_fixed hk
  refine ⟨{
    noBookkeeping := noBookkeeping_of_kept hk
    notVacuous := hv
    oneType := types
    oneItems := items
    noSilentDefault := ?_
    joinedEnums := enums }, ?_⟩
  · intro object
    constructor
    · intro hd
      cases default object _ hd
    · intro hd
      cases default object _ hd
  · intro f hf
    rw [settled, untouched₁, untouched₂, untouched₃] at hk
    exact (List.forall₂_same.1 (hk.forall₂ (Nat.le_refl _)) f hf).2.2

/-- **A document is left as it is if and only if every mapping of it is in normal form.** -/
theorem clean_eq_self_iff : clean n = .ok (some n) ↔ n.Everywhere InNormalForm := by
  refine ⟨fun h => ?_, clean_eq_self⟩
  induction n using cleaning_induction with
  | map fs ih =>
    obtain ⟨normal, below⟩ := inNormalForm_of_fixed h
    refine Node.everywhere_map.2 ⟨normal, fun f hf => ?_⟩
    exact ih (normal.applyRules_eq []) f hf (below f hf)
  | list xs ih =>
    obtain ⟨ys, hk, e⟩ := clean_list_iff.1 h
    obtain rfl := Node.list.inj (Option.some.inj e)
    rw [Node.everywhere_list]
    intro x hx
    exact ih x hx (List.forall₂_same.1 (hk.forall₂ (Nat.le_refl _)) x hx)
  | other n hm hl => exact Node.everywhere_of_not_map_list hm hl

/-! ### One cleaning is enough -/

/-- A mapping of which a cleaning drops nothing, and whose lists of types and of items are flat. -/
structure Regular (fs : Fields) : Prop where
  noBookkeeping : ∀ name ∈ ["_name_", "_required_", "_attrs_order_"], name ∉ fs.names
  notVacuous : isVacuous fs = false
  flatTypes : fs.FlatUnder "type"
  flatItems : fs.FlatUnder "items"

theorem ruleClosed_regular : RuleClosed Regular where
  typeOnly regular ht hm :=
    ⟨by simp [Fields.names, Node.name?], by simp [isVacuous, Fields.get?],
      ruleClosed_flatTypes.typeOnly regular.flatTypes ht hm,
      ruleClosed_flatItems.typeOnly regular.flatItems ht hm⟩
  noItems :=
    ⟨by simp [Fields.names], rfl, ruleClosed_flatTypes.noItems, ruleClosed_flatItems.noItems⟩
  alternatives xs :=
    ⟨by simp [Fields.names, Node.name?], by simp [isVacuous, Fields.get?],
      ruleClosed_flatTypes.alternatives xs, ruleClosed_flatItems.alternatives xs⟩
  stringEnum values :=
    ⟨by simp [Fields.names, Node.name?], by simp [isVacuous, Fields.get?],
      ruleClosed_flatTypes.stringEnum values, ruleClosed_flatItems.stringEnum values⟩

theorem clean_ne_none (h : n.Everywhere fun fs => isVacuous fs = false) :
    clean n ≠ .ok none := by
  intro hc
  rcases n.map_or_list_or_other with ⟨fs, rfl⟩ | ⟨xs, rfl⟩ | ⟨hm, hl⟩
  · rcases clean_map_iff.1 hc with ⟨hv, -⟩ | ⟨-, gs, -, kept, -, e⟩
    · cases hv.symm.trans (Node.everywhere_map.1 h).1
    · cases e
  · obtain ⟨ys, -, e⟩ := clean_list_iff.1 hc
    cases e
  · cases (clean_other hm hl).symm.trans hc

/-- The rules give no bookkeeping names. -/
theorem not_isBookkeeping_of_made : ∀ name ∈ madeNames, isBookkeeping (.str name) = false := by
  decide

/-- What the rules leave of a regular mapping is kept, entry by entry. -/
theorem forall₂_of_regular (hx : (Node.map fs).Everywhere Regular)
    (hr : applyRules fs [] = .ok gs) (hk : Kept EntryCleans gs kept) :
    List.Forall₂ (fun f g => EntryCleans f (some g)) gs kept := by
  refine hk.forall₂_of_not_none ?_
  rintro f hf (hb | hc)
  · -- Neither the mapping nor the rules have bookkeeping entries.
    rw [← Bool.not_eq_false] at hb
    apply hb
    rcases key_of_mem_applyRules hr hf with hf | ⟨name, hn, e⟩
    · exact not_isBookkeeping_of_mem (Node.everywhere_map.1 hx).1.noBookkeeping hf
    · rw [e]
      exact not_isBookkeeping_of_made name hn
  · refine clean_ne_none ?_ hc
    exact (everywhere_applyRules ruleClosed_regular hx hr hf).imp fun _ h => h.notVacuous

/-- If nothing is dropped, each look-up finds what the value it found before becomes. -/
theorem rel_get? (h : List.Forall₂ (fun f g => EntryCleans f (some g)) gs kept) (name : String) :
    Option.Rel (fun v w => clean v = .ok (some w)) (gs.get? name) (kept.get? name) := by
  induction h with
  | nil => exact .none
  | @cons f g gs kept hfg _ ih =>
    obtain ⟨k, v⟩ := f
    obtain ⟨k', w⟩ := g
    obtain ⟨-, hk, hc⟩ := hfg
    obtain rfl : k' = k := hk
    rw [Fields.get?_cons, Fields.get?_cons]
    split
    · exact .some hc
    · exact ih

theorem traced_of_rel
    (h : ∀ name, Option.Rel (fun v w => clean v = .ok (some w)) (gs.get? name) (kept.get? name)) :
    Traced gs kept := by
  intro name w hw
  have := h name
  rw [hw] at this
  rcases hv : gs.get? name with - | v <;> rw [hv] at this
  · cases this
  · cases this with
    | some hc => exact ⟨v, rfl, hc⟩

theorem exists_of_rel
    (h : ∀ name, Option.Rel (fun v w => clean v = .ok (some w)) (gs.get? name) (kept.get? name))
    (hv : gs.get? name = some v) : ∃ w, kept.get? name = some w ∧ clean v = .ok (some w) := by
  have := h name
  rw [hv] at this
  rcases hw : kept.get? name with - | w <;> rw [hw] at this
  · cases this
  · cases this with
    | some hc => exact ⟨w, rfl, hc⟩

/-- Of a regular document, only the empty mapping becomes the empty mapping. -/
theorem eq_nil_of_clean (hv : v.Everywhere Regular) (h : clean v = .ok (some (.map []))) :
    v = .map [] := by
  rcases clean_cases h with ⟨fs, -, rfl, -⟩ | ⟨xs, ys, -, e, -⟩ | ⟨e, hm, -⟩
  · rcases clean_map_iff.1 h with ⟨-, e⟩ | ⟨-, gs, hr, kept, hk, e⟩
    · cases e
    · obtain rfl := Node.map.inj (Option.some.inj e)
      -- Nothing is dropped, so the rules left nothing, and they do that only with nothing.
      have whole := forall₂_of_regular hv hr hk
      cases whole
      rw [eq_nil_of_applyRules hr]
  · cases e
  · exact absurd e.symm (hm [])

/-- A regular mapping comes to normal form in one step. -/
theorem inNormalForm_of_regular (hx : (Node.map fs).Everywhere Regular)
    (hr : applyRules fs [] = .ok gs) (hk : Kept EntryCleans gs kept) : InNormalForm kept := by
  obtain ⟨regular, -⟩ := Node.everywhere_map.1 hx
  have rel := rel_get? (forall₂_of_regular hx hr hk)
  have traced := traced_of_rel rel
  -- An empty mapping that a rule looks for is there only if it was there before.
  have empty : ∀ {name}, kept.get? name = some (.map []) → gs.get? name = some (.map []) := by
    intro name hw
    obtain ⟨v, hv, hc⟩ := traced name _ hw
    have below : v.Everywhere Regular :=
      everywhere_applyRules ruleClosed_regular hx hr (mem_of_get? hv)
    rwa [eq_nil_of_clean below hc] at hv
  refine {
    noBookkeeping := noBookkeeping_of_kept hk
    notVacuous := ?vacuous
    oneType := fun hl => not_list_type regular.flatTypes hr (traced.hasList hl)
    oneItems := ?items
    noSilentDefault := ?default
    joinedEnums := fun ⟨he, ha⟩ => not_enum_and_anyOf hr ⟨traced.hasList he, traced.hasList ha⟩ }
  case vacuous =>
    rw [← Bool.not_eq_true]
    intro hv
    -- It would have been vacuous before its values were cleaned.
    obtain ⟨object, properties, additional⟩ := isVacuous_iff.1 hv
    have before : gs.get? "properties" = none ∨ gs.get? "properties" = some (.map []) := by
      rcases properties with hn | he
      · left
        rcases hv : gs.get? "properties" with - | v
        · rfl
        · obtain ⟨w, hw, -⟩ := exists_of_rel rel hv
          cases hw.symm.trans hn
      · exact .inr (empty he)
    have vacuous : isVacuous gs = true := isVacuous_iff.2
      ⟨traced.declares object, before, traced.get?_eq (by simp) (by simp) additional⟩
    rw [not_vacuous_applyRules regular.flatTypes regular.notVacuous hr] at vacuous
    cases vacuous
  case items =>
    intro array
    obtain ⟨v, hv, hn⟩ := single_items regular.flatItems hr (traced.declares array)
    obtain ⟨w, hw, hc⟩ := exists_of_rel rel hv
    refine ⟨w, hw, ?_⟩
    rintro ys rfl
    obtain ⟨xs, e, -⟩ := list_of_clean_eq_list hc
    exact hn xs e
  case default =>
    intro object
    have telling := not_silent_default hr (traced.declares object)
    constructor
    · intro hd
      cases telling _ (traced.get?_eq (by simp) (by simp) hd)
    · intro hd
      cases telling _ (empty hd)

/-- **A document of which nothing is dropped, and whose lists of types and of items are flat, is
cleaned once and for all.** -/
theorem clean_idempotent (hx : x.Everywhere Regular) (h : clean x = .ok (some y)) :
    clean y = .ok (some y) :=
  clean_eq_self (everywhere_clean ruleClosed_regular
    (fun hx _ hr hk => inNormalForm_of_regular hx hr hk) hx h)

theorem clean_idempotent_tags :
    tagsSchema.Everywhere Regular ∧ clean tagsSchema = .ok (some cleanTagsSchema) ∧
      clean cleanTagsSchema = .ok (some cleanTagsSchema) := by
  have regular : tagsSchema.Everywhere Regular := by
    intro fs hfs
    simp only [tagsSchema, Node.mappings, Node.itemMappings, Node.fieldMappings, List.append_nil,
      List.nil_append, List.cons_append, List.mem_cons, List.not_mem_nil, or_false] at hfs
    rcases hfs with rfl | rfl | rfl | rfl | rfl <;>
      exact ⟨by decide, by decide, by simp [Fields.FlatUnder, Fields.get?],
        by simp [Fields.FlatUnder, Fields.get?]⟩
  have cleans : clean tagsSchema = .ok (some cleanTagsSchema) := by with_unfolding_all rfl
  exact ⟨regular, cleans, clean_idempotent regular cleans⟩

end Schema

end PlainSchema
