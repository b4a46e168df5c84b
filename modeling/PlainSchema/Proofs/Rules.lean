/-
PlainSchema/Proofs/Rules.lean

What each rule does to the entries of a mapping, said once: `splitTypes_cases`,
`singleItems_cases`, `dropEmptyDefault_cases` and `mergeEnums_cases` list all that a
rule can make of them, and every other fact about a rule is read off there.

The facts are about what a rule leaves behind, whatever was there before it:

* after `mergeEnums?` there is no list under `enum` beside one under `anyOf`;
* after `dropEmptyDefault?` an object has no silent default;
* after `singleItems?` an array has one schema for its items;
* no rule makes a mapping describe objects or arrays if it did not before.

A rule may make mappings of its own; `RuleClosed` lists them, so that a property of
all mappings is known to survive the rules (`everywhere_applyRules`).
-/
import PlainSchema.Proofs.Mappings

namespace PlainSchema

namespace Fields

/-- There is a list under the name. -/
def HasList (fs : Fields) (name : String) : Prop := ∃ xs, fs.get? name = some (.list xs)

/-- A list under the name has no list among its items. -/
def FlatUnder (name : String) (fs : Fields) : Prop :=
  ∀ xs, fs.get? name = some (.list xs) → ∀ x ∈ xs, ∀ ys, x ≠ .list ys

end Fields

namespace Schema

variable {fs gs : Fields} {path : Pointer} {split : Option Fields} {name : String}
  {f : Node × Node} {t v : Node}

/-! ### All that a rule can do -/

/-- A list of types goes, and `type` or `oneOf` is put in its stead. -/
theorem splitTypes_cases (h : splitTypes? fs path = .ok split) :
    (¬ fs.HasList "type" ∧ split = none) ∨
    ∃ types, fs.get? "type" = some (.list types) ∧
      ((∃ t, describedTypes types = [t] ∧
          split = some ((markNullable types (fs.erase "type")).put "type" t)) ∨
        split = some ((markNullable types (fs.erase "type")).put "oneOf"
          (.list ((describedTypes types).map typeOnly)))) := by
  unfold splitTypes? at h
  split at h
  · next types ht =>
    refine .inr ⟨types, ht, ?_⟩
    dsimp only at h
    split at h
    · cases h
    · next t he => exact .inl ⟨t, he, (Except.ok.inj h).symm⟩
    · exact .inr (Except.ok.inj h).symm
  · next hn => exact .inl ⟨fun ⟨xs, hx⟩ => hn xs hx, (Except.ok.inj h).symm⟩

/-- Where the schema that `singleItems?` puts under `items` comes from. -/
inductive ItemsFrom (fs : Fields) : Node → Prop
  | absent : fs.get? "items" = none → ItemsFrom fs (.map [])
  | empty : fs.get? "items" = some (.list []) → ItemsFrom fs (.map [])
  | only {x} : fs.get? "items" = some (.list [x]) → ItemsFrom fs x
  | several {xs} : fs.get? "items" = some (.list xs) →
      ItemsFrom fs (.map [(.str "anyOf", .list xs)])

theorem singleItems_cases (fs : Fields) :
    (applied singleItems? fs = fs ∧
      (describesArray fs = true → ∃ v, fs.get? "items" = some v ∧ ∀ xs, v ≠ .list xs)) ∨
    (describesArray fs = true ∧
      ∃ v, ItemsFrom fs v ∧ applied singleItems? fs = (fs.erase "items").put "items" v) := by
  unfold applied singleItems?
  split
  · next array =>
    split
    · next x hx => exact .inr ⟨array, x, .only hx, rfl⟩
    · next hx => exact .inr ⟨array, _, .empty hx, rfl⟩
    · next xs _ _ hx => exact .inr ⟨array, _, .several hx, rfl⟩
    · next v _ _ hl hx => exact .inl ⟨rfl, fun _ => ⟨v, hx, hl⟩⟩
    · next hx => exact .inr ⟨array, _, .absent hx, rfl⟩
  · next array => exact .inl ⟨rfl, fun h => absurd h array⟩

theorem dropEmptyDefault_cases (fs : Fields) :
    (applied dropEmptyDefault? fs = fs ∧
      (describesObject fs = true → ∀ d, fs.get? "default" = some d → isSilent d = false)) ∨
    (describesObject fs = true ∧ (∃ d, fs.get? "default" = some d ∧ isSilent d = true) ∧
      applied dropEmptyDefault? fs = fs.erase "default") := by
  unfold applied dropEmptyDefault?
  split
  · next h =>
    rw [Bool.and_eq_true, Option.any_eq_true] at h
    exact .inr ⟨h.1, h.2, rfl⟩
  · next h =>
    refine .inl ⟨rfl, fun object d hd => ?_⟩
    simpa [object, hd] using h

theorem mergeEnums_cases (fs : Fields) :
    (applied mergeEnums? fs = fs ∧ ¬ (fs.HasList "enum" ∧ fs.HasList "anyOf")) ∨
    ∃ outer alternatives, fs.get? "enum" = some (.list outer) ∧
      fs.get? "anyOf" = some (.list alternatives) ∧
      ((otherAlternatives alternatives = [] ∧ applied mergeEnums? fs =
          ((fs.erase "anyOf").put "enum" (.list (mergedValues outer alternatives))).put "type"
            (.str "string")) ∨
        applied mergeEnums? fs = (((fs.erase "anyOf").erase "enum").erase "type").put "anyOf"
          (.list (stringEnum (mergedValues outer alternatives)
            :: otherAlternatives alternatives))) := by
  unfold applied mergeEnums?
  split
  · next outer alternatives he ha =>
    refine .inr ⟨outer, alternatives, he, ha, ?_⟩
    dsimp only
    split
    · next hk => exact .inl ⟨hk, rfl⟩
    · exact .inr rfl
  · next hn => exact .inl ⟨rfl, fun ⟨⟨xs, hx⟩, ys, hy⟩ => hn xs ys hx hy⟩

/-- The rules that cannot fail work on what the first one leaves. -/
theorem applyRules_eq (h : applyRules fs path = .ok gs) :
    ∃ split, splitTypes? fs path = .ok split ∧ gs = settled (split.getD fs) := by
  unfold applyRules at h
  split at h
  · cases h
  · next split hs => exact ⟨split, hs, (Except.ok.inj h).symm⟩

/-- Without a list of types the first rule has nothing to do. -/
theorem splitTypes_eq_none (h : ¬ fs.HasList "type") (path : Pointer) :
    splitTypes? fs path = .ok none := by
  unfold splitTypes?
  split
  · next types ht => exact absurd ⟨types, ht⟩ h
  · rfl

/-- Without a list of types the rules cannot fail. -/
theorem applyRules_of_oneType (h : ¬ fs.HasList "type") (path : Pointer) :
    applyRules fs path = .ok (settled fs) := by
  rw [applyRules, splitTypes_eq_none h]
  rfl

/-- An alternative without a list of values lists none. -/
theorem enumValues_of_not_hasList (h : ¬ fs.HasList "enum") : enumValues (.map fs) = [] := by
  rw [enumValues]
  split
  · next values he => exact absurd ⟨values, he⟩ h
  · rfl

/-- Values are joined only if there are lists of both kinds. -/
theorem mergeEnums_eq_self (h : ¬ (fs.HasList "enum" ∧ fs.HasList "anyOf")) :
    applied mergeEnums? fs = fs := by
  rcases mergeEnums_cases fs with ⟨e, -⟩ | ⟨outer, alternatives, he, ha, -⟩
  · exact e
  · exact absurd ⟨⟨_, he⟩, _, ha⟩ h

/-! ### Look-ups a rule does not touch -/

theorem get?_getD_splitTypes (h : splitTypes? fs path = .ok split)
    (ht : name ≠ "type") (hn : name ≠ "nullable") (ho : name ≠ "oneOf") :
    (split.getD fs).get? name = fs.get? name := by
  cases split with
  | none => rfl
  | some gs => exact get?_splitTypes h ht hn ho

theorem get?_applied_singleItems (hn : name ≠ "items") :
    (applied singleItems? fs).get? name = fs.get? name := by
  rcases singleItems_cases fs with ⟨e, -⟩ | ⟨-, v, -, e⟩ <;> rw [e]
  rw [get?_put_of_ne hn, get?_erase_of_ne hn]

theorem get?_applied_dropEmptyDefault (hn : name ≠ "default") :
    (applied dropEmptyDefault? fs).get? name = fs.get? name := by
  rcases dropEmptyDefault_cases fs with ⟨e, -⟩ | ⟨-, -, e⟩ <;> rw [e]
  rw [get?_erase_of_ne hn]

theorem get?_applied_mergeEnums (ht : name ≠ "type") (he : name ≠ "enum") (ha : name ≠ "anyOf") :
    (applied mergeEnums? fs).get? name = fs.get? name := by
  rcases mergeEnums_cases fs with ⟨e, -⟩ | ⟨outer, alternatives, -, -, ⟨-, e⟩ | e⟩ <;> rw [e]
  · rw [get?_put_of_ne ht, get?_put_of_ne he, get?_erase_of_ne ha]
  · rw [get?_put_of_ne ha, get?_erase_of_ne ht, get?_erase_of_ne he, get?_erase_of_ne ha]

/-- No rule touches what is under a name that is no keyword of the rules. -/
theorem get?_applyRules (h : applyRules fs path = .ok gs)
    (hn : name ∉ ["type", "nullable", "oneOf", "items", "default", "enum", "anyOf"]) :
    gs.get? name = fs.get? name := by
  obtain ⟨split, hs, rfl⟩ := applyRules_eq h
  simp only [List.mem_cons, List.not_mem_nil, or_false, not_or] at hn
  obtain ⟨ht, hl, ho, hi, hd, he, ha⟩ := hn
  rw [settled, get?_applied_mergeEnums ht he ha, get?_applied_dropEmptyDefault hd,
    get?_applied_singleItems hi, get?_getD_splitTypes hs ht hl ho]

/-! ### Declared types -/

theorem declares_iff : declares fs name = true ↔
    (∃ t, fs.get? "type" = some t ∧ (t.isText name = true ∨ t.listsText name = true)) ∨
    (∃ v, fs.get? "anyOf" = some v ∧ v.listsText name = true) ∨
    (∃ v, fs.get? "oneOf" = some v ∧ v.listsText name = true) := by
  simp only [declares, Bool.or_eq_true, Option.any_eq_true, or_assoc]

theorem declares_congr (ht : gs.get? "type" = fs.get? "type")
    (ha : gs.get? "anyOf" = fs.get? "anyOf") (ho : gs.get? "oneOf" = fs.get? "oneOf") :
    declares gs name = declares fs name := by
  simp only [declares, ht, ha, ho]

theorem declares_applied_singleItems :
    declares (applied singleItems? fs) name = declares fs name :=
  declares_congr (get?_applied_singleItems (by decide)) (get?_applied_singleItems (by decide))
    (get?_applied_singleItems (by decide))

theorem declares_applied_dropEmptyDefault :
    declares (applied dropEmptyDefault? fs) name = declares fs name :=
  declares_congr (get?_applied_dropEmptyDefault (by decide))
    (get?_applied_dropEmptyDefault (by decide)) (get?_applied_dropEmptyDefault (by decide))

/-- Alternatives that are kept were there before. -/
theorem listsText_otherAlternatives {alternatives merged : List Node}
    (h : (Node.list (stringEnum merged :: otherAlternatives alternatives)).listsText name = true) :
    (Node.list alternatives).listsText name = true := by
  simp only [Node.listsText, List.any_cons, Bool.or_eq_true, List.any_eq_true] at h ⊢
  rcases h with h | ⟨a, ha, h⟩
  · cases h
  · exact ⟨a, (List.mem_filter.1 ha).1, h⟩

/-- A mapping that has a bare name among its alternatives declares it. -/
theorem declares_of_oneOf (hv : fs.get? "oneOf" = some v) (h : v.listsText name = true) :
    declares fs name = true :=
  declares_iff.2 (.inr (.inr ⟨v, hv, h⟩))

/-- Joining enums declares no type but `string`. -/
theorem declares_of_mergeEnums (hn : name ≠ "string")
    (h : declares (applied mergeEnums? fs) name = true) : declares fs name = true := by
  rcases mergeEnums_cases fs with ⟨e, -⟩ | ⟨outer, alternatives, -, ha, ⟨-, e⟩ | e⟩ <;> rw [e] at h
  · exact h
  · -- The type is `string` now, and `anyOf` is gone.
    rcases declares_iff.1 h with ⟨t, ht, h⟩ | ⟨v, hv, -⟩ | ⟨v, hv, h⟩
    · rw [Fields.get?_put_self, Option.some.injEq] at ht
      subst ht
      simp [Node.isText, Node.listsText, hn.symm] at h
    · rw [get?_put_of_ne (by decide), get?_put_of_ne (by decide), Fields.get?_erase_self] at hv
      cases hv
    · rw [get?_put_of_ne (by decide), get?_put_of_ne (by decide), get?_erase_of_ne (by decide)] at hv
      exact declares_of_oneOf hv h
  · -- The type is gone, and `anyOf` has nothing new but a mapping.
    rcases declares_iff.1 h with ⟨t, ht, -⟩ | ⟨v, hv, h⟩ | ⟨v, hv, h⟩
    · rw [get?_put_of_ne (by decide), Fields.get?_erase_self] at ht
      cases ht
    · rw [Fields.get?_put_self, Option.some.injEq] at hv
      subst hv
      exact declares_iff.2 (.inr (.inl ⟨_, ha, listsText_otherAlternatives h⟩))
    · rw [get?_put_of_ne (by decide), get?_erase_of_ne (by decide), get?_erase_of_ne (by decide),
        get?_erase_of_ne (by decide)] at hv
      exact declares_of_oneOf hv h

/-- The rules that cannot fail declare no type but `string`. -/
theorem declares_of_settled (hn : name ≠ "string") (h : declares (settled fs) name = true) :
    declares fs name = true := by
  have := declares_of_mergeEnums hn h
  rwa [declares_applied_dropEmptyDefault, declares_applied_singleItems] at this

/-- What `markNullable` leaves under a name other than its own. -/
theorem get?_markNullable {types : List Node} (hn : name ≠ "nullable") :
    (markNullable types fs).get? name = fs.get? name := by
  unfold markNullable
  split
  · exact get?_put_of_ne hn
  · rfl

/-- Splitting a list of types declares no type, unless one of them is a list itself. -/
theorem declares_of_splitTypes (flat : fs.FlatUnder "type")
    (h : splitTypes? fs path = .ok split) (hd : declares (split.getD fs) name = true) :
    declares fs name = true := by
  have keep : ∀ types, ∀ {keyword}, keyword ≠ "type" → keyword ≠ "nullable" →
      (markNullable types (fs.erase "type")).get? keyword = fs.get? keyword := by
    intro types keyword ht hn
    rw [get?_markNullable hn, get?_erase_of_ne ht]
  rcases splitTypes_cases h with ⟨-, rfl⟩ | ⟨types, ht, ⟨t, he, rfl⟩ | rfl⟩
  · exact hd
  · -- One type is left.  It was declared in the list; a list it would be is ruled out by `flat`.
    rcases declares_iff.1 hd with ⟨u, hu, hd⟩ | ⟨v, hv, hd⟩ | ⟨v, hv, hd⟩
    · rw [Option.getD_some, Fields.get?_put_self, Option.some.injEq] at hu
      subst hu
      have mem : t ∈ types := (List.mem_filter.1 (he ▸ List.mem_singleton_self t)).1
      refine declares_iff.2 (.inl ⟨_, ht, .inr ?_⟩)
      rcases hd with hd | hd
      · exact List.any_eq_true.2 ⟨t, mem, hd⟩
      · cases t with
        | list ys => exact absurd rfl (flat types ht _ mem ys)
        | _ => cases hd
    · rw [Option.getD_some, get?_put_of_ne (by decide), keep _ (by decide) (by decide)] at hv
      exact declares_iff.2 (.inr (.inl ⟨v, hv, hd⟩))
    · rw [Option.getD_some, get?_put_of_ne (by decide), keep _ (by decide) (by decide)] at hv
      exact declares_of_oneOf hv hd
  · rcases declares_iff.1 hd with ⟨u, hu, -⟩ | ⟨v, hv, hd⟩ | ⟨v, hv, hd⟩
    · rw [Option.getD_some, get?_put_of_ne (by decide), get?_markNullable (by decide),
        Fields.get?_erase_self] at hu
      cases hu
    · rw [Option.getD_some, get?_put_of_ne (by decide), keep _ (by decide) (by decide)] at hv
      exact declares_iff.2 (.inr (.inl ⟨v, hv, hd⟩))
    · -- Every alternative is a mapping now.
      rw [Option.getD_some, Fields.get?_put_self, Option.some.injEq] at hv
      subst hv
      simp [Node.listsText, typeOnly, Node.isText] at hd

/-! ### What the rules leave behind -/

/-- There is no list of values beside a list of alternatives. -/
theorem not_enum_and_anyOf (h : applyRules fs path = .ok gs) :
    ¬ (gs.HasList "enum" ∧ gs.HasList "anyOf") := by
  obtain ⟨split, -, rfl⟩ := applyRules_eq h
  generalize split.getD fs = fs₁
  rw [settled]
  rcases mergeEnums_cases (applied dropEmptyDefault? (applied singleItems? fs₁)) with
    ⟨e, hb⟩ | ⟨outer, alternatives, -, -, ⟨-, e⟩ | e⟩ <;> rw [e]
  · exact hb
  · -- All alternatives joined: `anyOf` is gone.
    rintro ⟨-, ys, hy⟩
    rw [get?_put_of_ne (by decide), get?_put_of_ne (by decide), Fields.get?_erase_self] at hy
    cases hy
  · -- Some did not: `enum` went into an alternative.
    rintro ⟨⟨xs, hx⟩, -⟩
    rw [get?_put_of_ne (by decide), get?_erase_of_ne (by decide), Fields.get?_erase_self] at hx
    cases hx

/-- An object has no silent default. -/
theorem not_silent_default (h : applyRules fs path = .ok gs) (object : describesObject gs = true) :
    ∀ d, gs.get? "default" = some d → isSilent d = false := by
  intro d hd
  obtain ⟨split, -, rfl⟩ := applyRules_eq h
  -- Joining enums declares no object, so the rule before it has seen one too.
  have object₃ := declares_of_mergeEnums (by decide) object
  rw [settled, get?_applied_mergeEnums (by decide) (by decide) (by decide)] at hd
  generalize applied singleItems? (split.getD fs) = fs₂ at object₃ hd
  rcases dropEmptyDefault_cases fs₂ with ⟨e, hs⟩ | ⟨-, -, e⟩ <;> rw [e] at object₃ hd
  · exact hs object₃ d hd
  · rw [Fields.get?_erase_self] at hd
    cases hd

/-- No type is a list, unless a list of types had one among its items. -/
theorem not_list_type (flat : fs.FlatUnder "type") (h : applyRules fs path = .ok gs) :
    ¬ gs.HasList "type" := by
  obtain ⟨split, hs, rfl⟩ := applyRules_eq h
  -- A list of types is gone after the first rule, and none of the others puts one back.
  have h₁ : ¬ (split.getD fs).HasList "type" := by
    rcases splitTypes_cases hs with ⟨hn, rfl⟩ | ⟨types, ht, ⟨t, he, rfl⟩ | rfl⟩
    · exact hn
    · rintro ⟨ys, hy⟩
      rw [Option.getD_some, Fields.get?_put_self, Option.some.injEq] at hy
      exact flat types ht t (List.mem_filter.1 (he ▸ List.mem_singleton_self t)).1 ys hy
    · rintro ⟨ys, hy⟩
      rw [Option.getD_some, get?_put_of_ne (by decide), get?_markNullable (by decide),
        Fields.get?_erase_self] at hy
      cases hy
  rintro ⟨ys, hy⟩
  rw [settled] at hy
  generalize split.getD fs = fs₁ at h₁ hy
  have same : (applied dropEmptyDefault? (applied singleItems? fs₁)).get? "type"
      = fs₁.get? "type" := by
    rw [get?_applied_dropEmptyDefault (by decide), get?_applied_singleItems (by decide)]
  rcases mergeEnums_cases (applied dropEmptyDefault? (applied singleItems? fs₁)) with
    ⟨e, -⟩ | ⟨outer, alternatives, -, -, ⟨-, e⟩ | e⟩ <;> rw [e] at hy
  · exact h₁ ⟨ys, same ▸ hy⟩
  · rw [Fields.get?_put_self] at hy
    cases hy
  · rw [get?_put_of_ne (by decide), Fields.get?_erase_self] at hy
    cases hy

/-- An array has one schema for its items, unless a list under `items` had a list among its
items. -/
theorem single_items (flat : fs.FlatUnder "items") (h : applyRules fs path = .ok gs)
    (array : describesArray gs = true) :
    ∃ v, gs.get? "items" = some v ∧ ∀ xs, v ≠ .list xs := by
  obtain ⟨split, hs, rfl⟩ := applyRules_eq h
  -- The rules after `singleItems?` neither touch `items` nor declare arrays.
  have array₁ := declares_of_settled (by decide) array
  have items₁ : (split.getD fs).get? "items" = fs.get? "items" :=
    get?_getD_splitTypes hs (by decide) (by decide) (by decide)
  rw [settled, get?_applied_mergeEnums (by decide) (by decide) (by decide),
    get?_applied_dropEmptyDefault (by decide)]
  generalize split.getD fs = fs₁ at array₁ items₁ ⊢
  rcases singleItems_cases fs₁ with ⟨e, hi⟩ | ⟨-, v, hv, e⟩ <;> rw [e]
  · exact hi array₁
  · rw [Fields.get?_put_self]
    refine ⟨v, rfl, ?_⟩
    cases hv with
    | only hx => exact flat _ (items₁ ▸ hx) v (List.mem_singleton_self v)
    | _ => exact fun xs => Node.noConfusion

theorem isVacuous_iff : isVacuous fs = true ↔ describesObject fs = true ∧
    (fs.get? "properties" = none ∨ fs.get? "properties" = some (.map [])) ∧
    fs.get? "additionalProperties" = some (.bool false) := by
  rw [isVacuous, Bool.and_eq_true, Bool.and_eq_true, and_assoc]
  refine and_congr_right' (and_congr ?_ ?_)
  · rcases fs.get? "properties" with - | v <;> simp [Node.isEmptyMap_iff]
  · split
    · next h => simp [h]
    · next h => simpa using h

/-- A mapping that is not vacuous does not become vacuous. -/
theorem not_vacuous_applyRules (flat : fs.FlatUnder "type") (hv : isVacuous fs = false)
    (h : applyRules fs path = .ok gs) : isVacuous gs = false := by
  rw [← Bool.not_eq_true] at hv ⊢
  -- What vacuity looks at is left alone, and no type is declared anew.
  refine fun hg => hv ?_
  have properties : gs.get? "properties" = fs.get? "properties" := get?_applyRules h (by decide)
  have additional : gs.get? "additionalProperties" = fs.get? "additionalProperties" :=
    get?_applyRules h (by decide)
  obtain ⟨split, hs, rfl⟩ := applyRules_eq h
  rw [isVacuous_iff, properties, additional] at hg
  obtain ⟨object, hg⟩ := hg
  exact isVacuous_iff.2 ⟨declares_of_splitTypes flat hs (declares_of_settled (by decide) object), hg⟩

/-! ### Entries the rules make -/

/-- An entry that splitting a list of types makes. -/
inductive MadeBySplit (fs : Fields) : Node × Node → Prop
  | nullable : MadeBySplit fs (.str "nullable", .bool true)
  | type {types : List Node} {t : Node} : fs.get? "type" = some (.list types) → t ∈ types →
      MadeBySplit fs (.str "type", t)
  | oneOf {types : List Node} : fs.get? "type" = some (.list types) →
      MadeBySplit fs (.str "oneOf", .list ((describedTypes types).map typeOnly))

/-- An entry that the rules after it make. -/
inductive MadeAfter (fs : Fields) : Node × Node → Prop
  | items {v : Node} : ItemsFrom fs v → MadeAfter fs (.str "items", v)
  | enum {outer alternatives} : fs.get? "enum" = some (.list outer) →
      fs.get? "anyOf" = some (.list alternatives) →
      MadeAfter fs (.str "enum", .list (mergedValues outer alternatives))
  | string : MadeAfter fs (.str "type", .str "string")
  | anyOf {outer alternatives} : fs.get? "enum" = some (.list outer) →
      fs.get? "anyOf" = some (.list alternatives) →
      MadeAfter fs (.str "anyOf", .list (stringEnum (mergedValues outer alternatives)
        :: otherAlternatives alternatives))

theorem mem_markNullable {types : List Node} (h : f ∈ markNullable types fs) :
    f ∈ fs ∨ f = (.str "nullable", .bool true) := by
  unfold markNullable at h
  split at h
  · exact Fields.mem_or_eq_of_mem_put h
  · exact .inl h

theorem mem_splitTypes (h : splitTypes? fs path = .ok split) (hf : f ∈ split.getD fs) :
    f ∈ fs ∨ MadeBySplit fs f := by
  have kept : ∀ types, f ∈ markNullable types (fs.erase "type") → f ∈ fs ∨ MadeBySplit fs f := by
    intro types hm
    rcases mem_markNullable hm with hm | rfl
    · exact .inl (mem_of_mem_erase hm)
    · exact .inr .nullable
  rcases splitTypes_cases h with ⟨-, rfl⟩ | ⟨types, ht, ⟨t, he, rfl⟩ | rfl⟩
  · exact .inl hf
  · rcases Fields.mem_or_eq_of_mem_put hf with hm | rfl
    · exact kept types hm
    · exact .inr (.type ht (List.mem_filter.1 (he ▸ List.mem_singleton_self t)).1)
  · rcases Fields.mem_or_eq_of_mem_put hf with hm | rfl
    · exact kept types hm
    · exact .inr (.oneOf ht)

/-- Dropping a default makes no entry. -/
theorem mem_of_mem_dropEmptyDefault (hf : f ∈ applied dropEmptyDefault? fs) : f ∈ fs := by
  rcases dropEmptyDefault_cases fs with ⟨e, -⟩ | ⟨-, -, e⟩ <;> rw [e] at hf
  · exact hf
  · exact mem_of_mem_erase hf

/-- Joining enums makes no entry of another name. -/
theorem mem_of_mem_mergeEnums (ht : name ≠ "type") (he : name ≠ "enum") (ha : name ≠ "anyOf")
    (hv : (.str name, v) ∈ applied mergeEnums? fs) : (.str name, v) ∈ fs := by
  rcases mergeEnums_cases fs with ⟨e, -⟩ | ⟨outer, alternatives, -, -, ⟨-, e⟩ | e⟩ <;> rw [e] at hv
  · exact hv
  · exact mem_of_mem_erase (Fields.mem_of_mem_put_of_ne (Fields.mem_of_mem_put_of_ne hv ht) he)
  · exact mem_of_mem_erase (mem_of_mem_erase (mem_of_mem_erase (Fields.mem_of_mem_put_of_ne hv ha)))

theorem mem_settled (hf : f ∈ settled fs) : f ∈ fs ∨ MadeAfter fs f := by
  have mem₁ : f ∈ applied singleItems? fs → f ∈ fs ∨ MadeAfter fs f := by
    intro hf
    rcases singleItems_cases fs with ⟨e, -⟩ | ⟨-, v, hv, e⟩ <;> rw [e] at hf
    · exact .inl hf
    · rcases Fields.mem_or_eq_of_mem_put hf with hf | rfl
      · exact .inl (mem_of_mem_erase hf)
      · exact .inr (.items hv)
  have mem₂ : f ∈ applied dropEmptyDefault? (applied singleItems? fs) → f ∈ fs ∨ MadeAfter fs f := by
    exact fun hf => mem₁ (mem_of_mem_dropEmptyDefault hf)
  rw [settled] at hf
  -- The lists that are joined are those of the mapping itself: no rule before touches them.
  rcases mergeEnums_cases (applied dropEmptyDefault? (applied singleItems? fs)) with
    ⟨e, -⟩ | ⟨outer, alternatives, he, ha, hm⟩
  · exact mem₂ (e ▸ hf)
  · rw [get?_applied_dropEmptyDefault (by decide), get?_applied_singleItems (by decide)] at he ha
    rcases hm with ⟨-, e⟩ | e <;> rw [e] at hf
    · rcases Fields.mem_or_eq_of_mem_put hf with hf | rfl
      · rcases Fields.mem_or_eq_of_mem_put hf with hf | rfl
        · exact mem₂ (mem_of_mem_erase hf)
        · exact .inr (.enum he ha)
      · exact .inr .string
    · rcases Fields.mem_or_eq_of_mem_put hf with hf | rfl
      · exact mem₂ (mem_of_mem_erase (mem_of_mem_erase (mem_of_mem_erase hf)))
      · exact .inr (.anyOf he ha)

/-- The type that is made after the lists of types are split is `string`. -/
theorem MadeAfter.eq_of_type (h : MadeAfter fs (.str "type", v)) : v = .str "string" := by
  generalize hf : (Node.str "type", v) = f at h
  cases h with
  | string => exact (Prod.mk.inj hf).2
  | _ => exact absurd (Node.str.inj (Prod.mk.inj hf).1) (by decide)

theorem ItemsFrom.congr (h : ItemsFrom gs v) (e : gs.get? "items" = fs.get? "items") :
    ItemsFrom fs v := by
  cases h with
  | absent hx => exact .absent (e ▸ hx)
  | empty hx => exact .empty (e ▸ hx)
  | only hx => exact .only (e ▸ hx)
  | several hx => exact .several (e ▸ hx)

theorem MadeAfter.congr (h : MadeAfter gs f) (hi : gs.get? "items" = fs.get? "items")
    (he : gs.get? "enum" = fs.get? "enum") (ha : gs.get? "anyOf" = fs.get? "anyOf") :
    MadeAfter fs f := by
  cases h with
  | items hv => exact .items (hv.congr hi)
  | enum ho hs => exact .enum (he ▸ ho) (ha ▸ hs)
  | string => exact .string
  | anyOf ho hs => exact .anyOf (he ▸ ho) (ha ▸ hs)

/-- Every entry that the rules leave behind was there before, or is made by them. -/
theorem mem_applyRules (h : applyRules fs path = .ok gs) (hf : f ∈ gs) :
    f ∈ fs ∨ MadeBySplit fs f ∨ MadeAfter fs f := by
  obtain ⟨split, hs, rfl⟩ := applyRules_eq h
  have keep : ∀ {name}, name ≠ "type" → name ≠ "nullable" → name ≠ "oneOf" →
      (split.getD fs).get? name = fs.get? name := get?_getD_splitTypes hs
  rcases mem_settled hf with hf | made
  · exact (mem_splitTypes hs hf).imp_right .inl
  · exact .inr (.inr (made.congr (keep (by decide) (by decide) (by decide))
      (keep (by decide) (by decide) (by decide)) (keep (by decide) (by decide) (by decide))))

/-- The names that the rules give to entries of their own. -/
def madeNames : List String := ["nullable", "type", "oneOf", "items", "enum", "anyOf"]

/-- Every key that the rules leave behind was there before, or is one of theirs. -/
theorem key_of_mem_applyRules (h : applyRules fs path = .ok gs) (hf : f ∈ gs) :
    f ∈ fs ∨ ∃ name ∈ madeNames, f.1 = .str name := by
  rcases mem_applyRules h hf with hf | made | made
  · exact .inl hf
  · cases made <;> exact .inr ⟨_, by decide, rfl⟩
  · cases made <;> exact .inr ⟨_, by decide, rfl⟩

/-- A property of mappings that the mappings made by the rules have as well. -/
structure RuleClosed (P : Fields → Prop) : Prop where
  /-- One alternative for each type of a list. -/
  typeOnly : ∀ {fs types t}, P fs → fs.get? "type" = some (.list types) → t ∈ types →
    P [(.str "type", t)]
  /-- The schema for the items of an array that has none. -/
  noItems : P []
  /-- The schema for items that had several. -/
  alternatives : ∀ xs, P [(.str "anyOf", .list xs)]
  /-- The alternative of string values. -/
  stringEnum : ∀ values, P [(.str "type", .str "string"), (.str "enum", .list values)]

section Everywhere

open Node

variable {P : Fields → Prop}

theorem everywhere_mergedValues {outer alternatives : List Node}
    (ho : (Node.list outer).Everywhere P) (ha : (Node.list alternatives).Everywhere P) :
    (Node.list (mergedValues outer alternatives)).Everywhere P := by
  rw [everywhere_list] at ho ha ⊢
  intro x hx
  rcases List.mem_append.1 hx with hx | hx
  · exact ho x hx
  · obtain ⟨a, hm, hx⟩ := List.mem_flatMap.1 hx
    have alternative := ha a (List.mem_filter.1 hm).1
    unfold enumValues at hx
    split at hx
    · split at hx
      · next xs he => exact everywhere_list.1 (alternative.get? he) x hx
      · cases hx
    · cases hx

theorem everywhere_of_mappings_eq_nil {n : Node} (hn : n.mappings = []) : n.Everywhere P := by
  intro gs hg
  rw [hn] at hg
  cases hg

theorem MadeBySplit.everywhere (closed : RuleClosed P) (hp : (Node.map fs).Everywhere P)
    (h : MadeBySplit fs f) : f.2.Everywhere P := by
  cases h with
  | nullable => exact everywhere_of_mappings_eq_nil rfl
  | type ht hm => exact everywhere_list.1 (hp.get? ht) _ hm
  | oneOf ht =>
    rw [everywhere_list]
    intro x hx
    obtain ⟨t, hm, rfl⟩ := List.mem_map.1 hx
    have hm := (List.mem_filter.1 hm).1
    refine everywhere_map.2 ⟨closed.typeOnly (everywhere_map.1 hp).1 ht hm, ?_⟩
    rintro f hf
    obtain rfl := List.mem_singleton.1 hf
    exact everywhere_list.1 (hp.get? ht) t hm

theorem MadeAfter.everywhere (closed : RuleClosed P) (hp : (Node.map fs).Everywhere P)
    (h : MadeAfter fs f) : f.2.Everywhere P := by
  cases h with
  | string => exact everywhere_of_mappings_eq_nil rfl
  | items hv =>
    cases hv with
    | absent => exact everywhere_map.2 ⟨closed.noItems, fun f hf => nomatch hf⟩
    | empty => exact everywhere_map.2 ⟨closed.noItems, fun f hf => nomatch hf⟩
    | only hx => exact everywhere_list.1 (hp.get? hx) _ (List.mem_singleton_self _)
    | several hx =>
      refine everywhere_map.2 ⟨closed.alternatives _, ?_⟩
      rintro f hf
      obtain rfl := List.mem_singleton.1 hf
      exact hp.get? hx
  | enum ho ha => exact everywhere_mergedValues (hp.get? ho) (hp.get? ha)
  | anyOf ho ha =>
    have alternatives := everywhere_list.1 (hp.get? ha)
    rw [everywhere_list]
    intro x hx
    rcases List.mem_cons.1 hx with rfl | hx
    · refine everywhere_map.2 ⟨closed.stringEnum _, ?_⟩
      intro f hf
      simp only [List.mem_cons, List.not_mem_nil, or_false] at hf
      rcases hf with rfl | rfl
      · exact everywhere_of_mappings_eq_nil rfl
      · exact everywhere_mergedValues (hp.get? ho) (hp.get? ha)
    · exact alternatives x (List.mem_filter.1 hx).1

/-- What the rules leave behind has a property everywhere if the mapping has it. -/
theorem everywhere_applyRules (closed : RuleClosed P) (hp : (Node.map fs).Everywhere P)
    (h : applyRules fs path = .ok gs) (hf : f ∈ gs) : f.2.Everywhere P := by
  rcases mem_applyRules h hf with hf | made | made
  · exact (everywhere_map.1 hp).2 f hf
  · exact made.everywhere closed hp
  · exact made.everywhere closed hp

end Everywhere

/-! ### Names -/

theorem distinct_markNullable {types : List Node} (h : fs.Distinct) :
    (markNullable types fs).Distinct := by
  unfold markNullable
  split
  · exact h.put _ _
  · exact h

/-- The rules keep names distinct. -/
theorem distinct_applyRules (hd : fs.Distinct) (h : applyRules fs path = .ok gs) :
    gs.Distinct := by
  obtain ⟨split, hs, rfl⟩ := applyRules_eq h
  have h₁ : Fields.Distinct (split.getD fs) := by
    rcases splitTypes_cases hs with ⟨-, rfl⟩ | ⟨types, -, ⟨t, -, rfl⟩ | rfl⟩
    · exact hd
    · exact (distinct_markNullable (hd.erase _)).put _ _
    · exact (distinct_markNullable (hd.erase _)).put _ _
  generalize split.getD fs = fs₁ at h₁ ⊢
  have h₂ : (applied singleItems? fs₁).Distinct := by
    rcases singleItems_cases fs₁ with ⟨e, -⟩ | ⟨-, v, -, e⟩ <;> rw [e]
    · exact h₁
    · exact (h₁.erase _).put _ _
  have h₃ : (applied dropEmptyDefault? (applied singleItems? fs₁)).Distinct := by
    rcases dropEmptyDefault_cases (applied singleItems? fs₁) with ⟨e, -⟩ | ⟨-, -, e⟩ <;> rw [e]
    · exact h₂
    · exact h₂.erase _
  unfold settled
  rcases mergeEnums_cases (applied dropEmptyDefault? (applied singleItems? fs₁)) with
    ⟨e, -⟩ | ⟨outer, alternatives, -, -, ⟨-, e⟩ | e⟩ <;> rw [e]
  · exact h₃
  · exact ((h₃.erase _).put _ _).put _ _
  · exact (((h₃.erase _).erase _).erase _).put _ _

/-- The rules leave nothing only of nothing. -/
theorem eq_nil_of_applyRules (h : applyRules fs path = .ok []) : fs = [] := by
  obtain ⟨split, hs, hg⟩ := applyRules_eq h
  -- Back through the rules: one that puts an entry does not leave nothing.
  have h₃ : applied dropEmptyDefault? (applied singleItems? (split.getD fs)) = [] := by
    rw [settled] at hg
    rcases mergeEnums_cases (applied dropEmptyDefault? (applied singleItems? (split.getD fs))) with
      ⟨e, -⟩ | ⟨outer, alternatives, -, -, ⟨-, e⟩ | e⟩ <;> rw [e] at hg
    · exact hg.symm
    · exact absurd hg.symm Fields.put_ne_nil
    · exact absurd hg.symm Fields.put_ne_nil
  have h₂ : applied singleItems? (split.getD fs) = [] := by
    rcases dropEmptyDefault_cases (applied singleItems? (split.getD fs)) with
      ⟨e, -⟩ | ⟨object, -, -⟩
    · rwa [e] at h₃
    · -- What describes objects still does without its default, and so has an entry.
      rw [describesObject, ← declares_applied_dropEmptyDefault, h₃] at object
      cases object
  have h₁ : split.getD fs = [] := by
    rcases singleItems_cases (split.getD fs) with ⟨e, -⟩ | ⟨-, v, -, e⟩ <;> rw [e] at h₂
    · exact h₂
    · exact absurd h₂ Fields.put_ne_nil
  rcases splitTypes_cases hs with ⟨-, rfl⟩ | ⟨types, -, ⟨t, -, rfl⟩ | rfl⟩
  · exact h₁
  · exact absurd h₁ Fields.put_ne_nil
  · exact absurd h₁ Fields.put_ne_nil

end Schema

end PlainSchema
