/-
PlainSchema/Proofs/Dialect.lean

The plain dialect: what can be relied on in every mapping of a cleaned document.

The rules are applied to a mapping before its values are cleaned, so that what they
establish has to survive the cleaning of the values.  It does, because a value keeps
its form (`clean_cases`): no list appears under a keyword and no type is declared
that was not there when the rules were done (`Traced`).  An entry may only go.

Two parts of the dialect depend on the document.  A list of types with a list among
its items leaves a list behind when it is split, and so does a list under `items`;
without such lists no mapping of the result has one.
-/
import PlainSchema.Proofs.Cleaning

namespace PlainSchema

namespace Schema

variable {fs gs kept : Fields} {x y : Node} {P Q : Fields → Prop}

/-! ### What the rules keep in the mappings they make -/

theorem RuleClosed.and (hp : RuleClosed P) (hq : RuleClosed Q) :
    RuleClosed fun fs => P fs ∧ Q fs where
  typeOnly h ht hm := ⟨hp.typeOnly h.1 ht hm, hq.typeOnly h.2 ht hm⟩
  noItems := ⟨hp.noItems, hq.noItems⟩
  alternatives xs := ⟨hp.alternatives xs, hq.alternatives xs⟩
  stringEnum values := ⟨hp.stringEnum values, hq.stringEnum values⟩

theorem ruleClosed_distinct : RuleClosed Fields.Distinct where
  typeOnly _ _ _ := List.pairwise_singleton _ _
  noItems := List.Pairwise.nil
  alternatives _ := List.pairwise_singleton _ _
  stringEnum _ := by simp [Fields.Distinct, Fields.names, Node.name?]

theorem ruleClosed_flatTypes : RuleClosed (Fields.FlatUnder "type") where
  typeOnly := by
    intro fs types t flat ht hm xs hx
    obtain rfl : t = .list xs := by simpa [Fields.get?] using hx
    exact absurd rfl (flat types ht _ hm xs)
  noItems _ h := nomatch h
  alternatives xs ys h := by simp [Fields.get?] at h
  stringEnum values ys h := by simp [Fields.get?] at h

theorem ruleClosed_flatItems : RuleClosed (Fields.FlatUnder "items") where
  typeOnly := by
    intro fs types t _ _ _ xs hx
    simp [Fields.get?] at hx
  noItems _ h := nomatch h
  alternatives xs ys h := by simp [Fields.get?] at h
  stringEnum values ys h := by simp [Fields.get?] at h

/-! ### One mapping's step -/

theorem isBookkeeping_str {name : String} :
    isBookkeeping (.str name) = true ↔ name ∈ bookkeepingNames := by
  simp [isBookkeeping, Node.isText]

/-- A key is no bookkeeping if no bookkeeping name is among those of the mapping. -/
theorem not_isBookkeeping_of_mem (h : ∀ name ∈ bookkeepingNames, name ∉ fs.names)
    {f : Node × Node} (hf : f ∈ fs) : isBookkeeping f.1 = false := by
  rw [← Bool.not_eq_true]
  intro hb
  obtain ⟨name, hn, ht⟩ := List.any_eq_true.1 hb
  obtain ⟨k, v⟩ := f
  obtain rfl : k = .str name := Node.isText_iff.1 ht
  exact h name hn (Fields.mem_names.2 ⟨v, hf⟩)

/-- No bookkeeping is left among the entries that are kept. -/
theorem noBookkeeping_of_kept (h : Kept EntryCleans gs kept) :
    ∀ name ∈ bookkeepingNames, name ∉ kept.names := by
  intro name hn hm
  obtain ⟨w, hw⟩ := Fields.mem_names.1 hm
  obtain ⟨⟨k, v⟩, -, hb, hk, -⟩ := h.exists_of_mem hw
  obtain rfl : Node.str name = k := hk
  rw [isBookkeeping_str.2 hn] at hb
  cases hb

/-! ### The dialect -/

/-- What a mapping of a cleaned document satisfies.  The types and the items of the document the
mapping comes from are flat if no list under `type`, or under `items`, has a list among its
items. -/
structure Dialect (flatTypes flatItems : Prop) (fs : Fields) : Prop where
  noBookkeeping : ∀ name ∈ ["_name_", "_required_", "_attrs_order_"], name ∉ fs.names
  joinedEnums : ¬ (fs.HasList "enum" ∧ fs.HasList "anyOf")
  noNullDefault : (kind fs).object = true → fs.get? "default" ≠ some .null
  oneType : flatTypes → ¬ fs.HasList "type"
  oneItems : flatItems → (kind fs).array = true → ¬ fs.HasList "items"

/-- The parts that hold whatever the document is like. -/
theorem everywhere_unconditional (hx : x.Everywhere Fields.Distinct)
    (h : clean x = .ok (some y)) :
    y.Everywhere fun fs =>
      (∀ name ∈ bookkeepingNames, name ∉ fs.names) ∧
      ¬ (fs.HasList "enum" ∧ fs.HasList "anyOf") ∧
      (describesObject fs = true → fs.get? "default" ≠ some .null) := by
  refine everywhere_clean ruleClosed_distinct ?_ hx h
  intro fs gs kept hfs _ hr hk
  have traced := traced_of_distinct (distinct_applyRules (Node.everywhere_map.1 hfs).1 hr) hk
  refine ⟨noBookkeeping_of_kept hk, ?_, ?_⟩
  · rintro ⟨he, ha⟩
    exact not_enum_and_anyOf hr ⟨traced.hasList he, traced.hasList ha⟩
  · intro object hd
    have null := traced.get?_eq (by simp) (by simp) hd
    cases not_silent_default hr (traced.declares object) _ null

/-- If the types of the document are flat, no type of the result is a list. -/
theorem everywhere_oneType (hx : x.Everywhere Fields.Distinct)
    (flat : x.Everywhere (Fields.FlatUnder "type")) (h : clean x = .ok (some y)) :
    y.Everywhere fun fs => ¬ fs.HasList "type" := by
  refine everywhere_clean (ruleClosed_distinct.and ruleClosed_flatTypes) ?_ (hx.and flat) h
  intro fs gs kept hfs _ hr hk hl
  obtain ⟨hd, hf⟩ := (Node.everywhere_map.1 hfs).1
  exact not_list_type hf hr ((traced_of_distinct (distinct_applyRules hd hr) hk).hasList hl)

/-- If the items of the document are flat, no array of the result has a list of schemas for its
items. -/
theorem everywhere_oneItems (hx : x.Everywhere Fields.Distinct)
    (flat : x.Everywhere (Fields.FlatUnder "items")) (h : clean x = .ok (some y)) :
    y.Everywhere fun fs => describesArray fs = true → ¬ fs.HasList "items" := by
  refine everywhere_clean (ruleClosed_distinct.and ruleClosed_flatItems) ?_ (hx.and flat) h
  intro fs gs kept hfs _ hr hk array hl
  obtain ⟨hd, hf⟩ := (Node.everywhere_map.1 hfs).1
  have traced := traced_of_distinct (distinct_applyRules hd hr) hk
  obtain ⟨v, hv, hn⟩ := single_items hf hr (traced.declares array)
  obtain ⟨xs, hx⟩ := traced.hasList hl
  rw [hv] at hx
  exact hn xs (Option.some.inj hx)

/-- **Every mapping of a cleaned document is in the dialect.** -/
theorem everywhere_dialect (hx : x.Everywhere Fields.Distinct) (h : clean x = .ok (some y)) :
    y.Everywhere (Dialect (x.Everywhere (Fields.FlatUnder "type"))
      (x.Everywhere (Fields.FlatUnder "items"))) := by
  intro fs hfs
  obtain ⟨bookkeeping, enums, default⟩ := everywhere_unconditional hx h fs hfs
  exact {
    noBookkeeping := bookkeeping
    joinedEnums := enums
    noNullDefault := default
    oneType := fun flat => everywhere_oneType hx flat h fs hfs
    oneItems := fun flat => everywhere_oneItems hx flat h fs hfs }

/-- An array schema with several schemas for its items. -/
def tagsSchema : Node :=
  .map [(.str "type", .str "array"), (.str "items", .list [
    .map [(.str "type", .list [.str "string", .str "integer"])],
    .map [(.str "enum", .list [.str "tame"]), (.str "anyOf", .list [
      .map [(.str "type", .str "string"), (.str "enum", .list [.str "wild"])],
      .map [(.str "type", .str "integer")]])]])]

/-- `tagsSchema`, cleaned. -/
def cleanTagsSchema : Node :=
  .map [(.str "type", .str "array"), (.str "items", .map [(.str "anyOf", .list [
    .map [(.str "oneOf", .list [
      .map [(.str "type", .str "string")], .map [(.str "type", .str "integer")]])],
    .map [(.str "anyOf", .list [
      .map [(.str "type", .str "string"), (.str "enum", .list [.str "tame", .str "wild"])],
      .map [(.str "type", .str "integer")]])]])])]

/-- A schema in which every rule has something to do. -/
def petSchema : Node :=
  .map [(.str "type", .list [.str "object", .str "null"]), (.str "default", .null),
    (.str "_name_", .str "Pet"),
    (.str "properties", .map [
      (.str "none", .map [(.str "type", .str "object"), (.str "additionalProperties", .bool false)]),
      (.str "tags", tagsSchema)])]

/-- `petSchema`, cleaned. -/
def cleanPetSchema : Node :=
  .map [(.str "properties", .map [(.str "tags", cleanTagsSchema)]),
    (.str "nullable", .bool true), (.str "type", .str "object")]

theorem everywhere_dialect_pet :
    petSchema.Everywhere Fields.Distinct ∧ clean petSchema = .ok (some cleanPetSchema) ∧
      petSchema.Everywhere (Fields.FlatUnder "type") ∧
      petSchema.Everywhere (Fields.FlatUnder "items") ∧
      cleanPetSchema.Everywhere (Dialect (petSchema.Everywhere (Fields.FlatUnder "type"))
        (petSchema.Everywhere (Fields.FlatUnder "items"))) := by
  have distinct : petSchema.Everywhere Fields.Distinct := by decide
  have cleans : clean petSchema = .ok (some cleanPetSchema) := by with_unfolding_all rfl
  refine ⟨distinct, cleans, ?_, ?_, everywhere_dialect distinct cleans⟩
  · simp [petSchema, tagsSchema, Node.Everywhere, Node.mappings, Node.itemMappings, Node.fieldMappings,
      Fields.FlatUnder, Fields.get?]
  · simp [petSchema, tagsSchema, Node.Everywhere, Node.mappings, Node.itemMappings, Node.fieldMappings,
      Fields.FlatUnder, Fields.get?]

end Schema

end PlainSchema
