/-
PlainSchema/Proofs/Merging.lean

What the joining of plain string alternatives with an `enum` does to the values that a
schema accepts.

A schema with both accepts a value that its `enum` lists and one of its alternatives
accepts.  `Joined` says what is collected from the alternatives, and `MergedForm` which
two forms the schema takes: it becomes a plain string itself, or gets an alternative
for all strings and keeps the others.

No value is lost in either form (`MergedForm.accepts`).  A value that a plain string
accepted is a string on the outer list, and so on the joined one; a value that another
alternative accepted still is, since the outer list and the type are gone.  What the
other keywords and alternatives accept is left open, in the form of a `Reading`.
-/
import PlainSchema.Proofs.PassThrough
import PlainSchema.Schema.Acceptance

namespace PlainSchema

namespace Schema

/-! ### What is collected from the alternatives -/

theorem isPlainString_iff {a : Node} : isPlainString a = true ↔ PlainString a := by
  cases a with
  | map fs =>
    simp only [isPlainString, PlainString, Bool.and_eq_true, Option.any_eq_true, List.all_eq_true,
      Bool.or_eq_true, Node.isText_iff, Node.map.injEq]
    constructor
    · rintro ⟨⟨t, ht, rfl⟩, keys⟩
      exact ⟨fs, rfl, ht, keys⟩
    · rintro ⟨_, rfl, ht, keys⟩
      exact ⟨⟨_, ht, rfl⟩, keys⟩
  | _ => exact iff_of_false nofun fun ⟨_, e, _⟩ => nomatch e

/-- `joined` are the lists of the plain strings among the alternatives, one after the other, and
`kept` are the other alternatives. -/
inductive Joined : List Node → List Node → List Node → Prop
  | nil : Joined [] [] []
  | listed {fs : Fields} {values alternatives joined kept} : PlainString (.map fs) →
      fs.get? "enum" = some (.list values) → Joined alternatives joined kept →
      Joined (.map fs :: alternatives) (values ++ joined) kept
  | unlisted {fs : Fields} {alternatives joined kept} : PlainString (.map fs) →
      ¬ fs.HasList "enum" → Joined alternatives joined kept →
      Joined (.map fs :: alternatives) joined kept
  | other {a alternatives joined kept} : ¬ PlainString a → Joined alternatives joined kept →
      Joined (a :: alternatives) joined (a :: kept)

variable {fs gs : Fields} {a v : Node} {outer values joined kept alternatives : List Node}
  {r : Reading}

/-- The rule collects what is to be joined. -/
theorem joined_alternatives (alternatives : List Node) : Joined alternatives
    ((alternatives.filter isPlainString).flatMap enumValues) (otherAlternatives alternatives) := by
  induction alternatives with
  | nil => exact .nil
  | cons a alternatives ih =>
    by_cases ha : isPlainString a = true
    · rw [List.filter_cons_of_pos ha, List.flatMap_cons, otherAlternatives,
        List.filter_cons_of_neg (by simp [ha])]
      have plain := isPlainString_iff.1 ha
      rcases a.map_or_list_or_other with ⟨fs, rfl⟩ | ⟨xs, rfl⟩ | ⟨hm, -⟩
      · by_cases list : Fields.HasList fs "enum"
        · obtain ⟨values, he⟩ := list
          rw [enumValues, he]
          exact .listed plain he ih
        · rw [enumValues_of_not_hasList list, List.nil_append]
          exact .unlisted plain list ih
      · cases ha
      · obtain ⟨fs, e, -⟩ := plain
        exact absurd e (hm fs)
    · rw [List.filter_cons_of_neg ha, otherAlternatives, List.filter_cons_of_pos (by simp [ha])]
      exact .other (fun plain => ha (isPlainString_iff.2 plain)) ih

/-- Kept are just the alternatives that are no plain strings. -/
theorem Joined.mem_kept_iff (h : Joined alternatives joined kept) :
    a ∈ kept ↔ a ∈ alternatives ∧ ¬ PlainString a := by
  induction h with
  | nil => simp
  | listed plain _ _ ih | unlisted plain _ _ ih =>
    rw [ih, List.mem_cons]
    refine and_congr_left fun ha => ⟨.inr, fun h => h.resolve_left ?_⟩
    rintro rfl
    exact ha plain
  | other noString _ ih =>
    rw [List.mem_cons, List.mem_cons, ih]
    constructor
    · rintro (rfl | ⟨hm, ha⟩)
      · exact ⟨.inl rfl, noString⟩
      · exact ⟨.inr hm, ha⟩
    · rintro ⟨rfl | hm, ha⟩
      · exact .inl rfl
      · exact .inr ⟨hm, ha⟩

/-! ### The two forms of the result -/

/-- What the keywords in question are after the joining: the schema has become a plain string with
the joined values, or the values are its first alternative. -/
inductive MergedForm (values kept : List Node) (gs : Fields) : Prop
  | plain : kept = [] → gs.get? "enum" = some (.list values) →
      gs.get? "type" = some (.str "string") → gs.get? "anyOf" = none → MergedForm values kept gs
  | alternatives : kept ≠ [] → gs.get? "anyOf" = some (.list (stringEnum values :: kept)) →
      gs.get? "enum" = none → gs.get? "type" = none → MergedForm values kept gs

theorem mergeEnums_form (he : fs.get? "enum" = some (.list outer))
    (ha : fs.get? "anyOf" = some (.list alternatives)) :
    ∃ gs, mergeEnums? fs = some gs ∧
      MergedForm (mergedValues outer alternatives) (otherAlternatives alternatives) gs := by
  rw [mergeEnums?, he, ha]
  dsimp only
  split
  · next none =>
    refine ⟨_, rfl, .plain none ?_ Fields.get?_put_self ?_⟩
    · rw [get?_put_of_ne (by decide), Fields.get?_put_self]
    · rw [get?_put_of_ne (by decide), get?_put_of_ne (by decide), Fields.get?_erase_self]
  · next some =>
    refine ⟨_, rfl, .alternatives some Fields.get?_put_self ?_ ?_⟩
    · rw [get?_put_of_ne (by decide), get?_erase_of_ne (by decide), Fields.get?_erase_self]
    · rw [get?_put_of_ne (by decide), Fields.get?_erase_self]

/-- The joining leaves the other entries as they are. -/
theorem otherEntries_mergeEnums (h : mergeEnums? fs = some gs) :
    Reading.otherEntries gs = Reading.otherEntries fs := by
  have rest : (applied mergeEnums? fs).only Reading.isOther = fs.only Reading.isOther :=
    only_mergeEnums (by decide) (by decide) (by decide)
  rwa [applied, h] at rest

/-! ### What is accepted -/

theorem plainString_stringEnum : PlainString (stringEnum values) :=
  isPlainString_iff.1 (by rfl)

/-- The alternative for all strings accepts the strings among its values. -/
theorem acceptsAsAlternative_stringEnum (hs : TypeName.string.describes v = true)
    (hv : r.Lists values v) : r.AcceptsAsAlternative (stringEnum values) v where
  string _ := hs
  listed _ fs xs e hx := by
    obtain rfl := Node.map.inj e
    obtain rfl := Node.list.inj (Option.some.inj hx)
    exact hv
  other h := absurd plainString_stringEnum h

/-- Nothing that was accepted is lost. -/
theorem MergedForm.accepts (form : MergedForm (outer ++ joined) kept gs)
    (he : fs.get? "enum" = some (.list outer)) (ha : fs.get? "anyOf" = some (.list alternatives))
    (hj : Joined alternatives joined kept)
    (others : Reading.otherEntries gs = Reading.otherEntries fs) (h : r.Accepts fs v) :
    r.Accepts gs v := by
  -- The value is on the joined list, whichever alternative accepts it.
  have listed : r.Lists (outer ++ joined) v := by
    obtain ⟨x, hx, same⟩ := h.enum outer he
    exact ⟨x, List.mem_append_left joined hx, same⟩
  obtain ⟨a, hm, accepted⟩ := h.anyOf alternatives ha
  cases form with
  | plain none hge hgt hga =>
    have plain : PlainString a := by
      by_contra other
      have : a ∈ kept := hj.mem_kept_iff.2 ⟨hm, other⟩
      rw [none] at this
      cases this
    refine ⟨fun xs hx => ?_, fun t ht => ?_, fun xs hx => ?_, others ▸ h.others⟩
    · obtain rfl := Node.list.inj (Option.some.inj (hge.symm.trans hx))
      exact listed
    · obtain rfl := Option.some.inj (hgt.symm.trans ht)
      exact accepted.string plain
    · cases hga.symm.trans hx
  | alternatives _ hga hge hgt =>
    refine ⟨fun xs hx => ?_, fun t ht => ?_, fun xs hx => ?_, others ▸ h.others⟩
    · cases hge.symm.trans hx
    · cases hgt.symm.trans ht
    · obtain rfl := Node.list.inj (Option.some.inj (hga.symm.trans hx))
      by_cases plain : PlainString a
      · exact ⟨_, List.mem_cons_self,
          acceptsAsAlternative_stringEnum (accepted.string plain) listed⟩
      · exact ⟨a, List.mem_cons_of_mem _ (hj.mem_kept_iff.2 ⟨hm, plain⟩), accepted⟩

/-- **The joining of enums only widens.**  The joined list is the outer one followed by those of
the plain strings in order, every other alternative is kept once and in order, and a value
that was accepted still is, whatever the other keywords and alternatives accept. -/
theorem mergeEnums_widens (he : fs.get? "enum" = some (.list outer))
    (ha : fs.get? "anyOf" = some (.list alternatives)) :
    ∃ gs joined kept, mergeEnums? fs = some gs ∧ Joined alternatives joined kept ∧
      MergedForm (outer ++ joined) kept gs ∧
      Reading.otherEntries gs = Reading.otherEntries fs ∧
      ∀ (r : Reading) v, r.Accepts fs v → r.Accepts gs v := by
  obtain ⟨gs, hg, form⟩ := mergeEnums_form he ha
  have hj := joined_alternatives alternatives
  have others := otherEntries_mergeEnums hg
  exact ⟨gs, _, _, hg, hj, form, others, fun r v h => form.accepts he ha hj others h⟩

/-- A number or one of some strings, of which not all alternatives are plain strings. -/
def limitSchema : Fields :=
  [(.str "title", .str "limit"), (.str "enum", .list [.str "none", .int 1]),
    (.str "anyOf", .list [.map [(.str "type", .str "integer"), (.str "minimum", .int 0)],
      .map [(.str "type", .str "string"), (.str "enum", .list [.str "none", .str "all"])]])]

/-- Types are read, and no other keyword. -/
def typeReading : Reading where
  same := Eq
  alternative a v := alternativeAccepts v a = true
  others _ _ := True

theorem mergeEnums_widens_limit :
    limitSchema.get? "enum" = some (.list [.str "none", .int 1]) ∧
    limitSchema.get? "anyOf" = some (.list [
      .map [(.str "type", .str "integer"), (.str "minimum", .int 0)],
      .map [(.str "type", .str "string"), (.str "enum", .list [.str "none", .str "all"])]]) ∧
    ∃ gs, mergeEnums? limitSchema = some gs ∧ typeReading.Accepts gs (.int 1) := by
  have he : limitSchema.get? "enum" = some (.list [.str "none", .int 1]) := rfl
  have ha : limitSchema.get? "anyOf" = some (.list [
      .map [(.str "type", .str "integer"), (.str "minimum", .int 0)],
      .map [(.str "type", .str "string"), (.str "enum", .list [.str "none", .str "all"])]]) := rfl
  obtain ⟨gs, _, _, hg, -, -, -, widens⟩ := mergeEnums_widens he ha
  refine ⟨he, ha, gs, hg, widens typeReading _ ⟨fun values hv => ?_, nofun, fun bs hb => ?_, trivial⟩⟩
  · obtain rfl := Node.list.inj (Option.some.inj (he.symm.trans hv))
    exact ⟨.int 1, by simp, rfl⟩
  · obtain rfl := Node.list.inj (Option.some.inj (ha.symm.trans hb))
    -- The value is no string, so it is the first alternative that accepts it.
    have noString : ¬ PlainString
        (.map [(.str "type", .str "integer"), (.str "minimum", .int 0)]) :=
      fun h => absurd (isPlainString_iff.2 h) (by decide)
    have accepted : alternativeAccepts (.int 1)
        (.map [(.str "type", .str "integer"), (.str "minimum", .int 0)]) = true := by decide
    exact ⟨_, List.mem_cons_self, fun h => absurd h noString, fun h => absurd h noString,
      fun _ => accepted⟩

end Schema

end PlainSchema
