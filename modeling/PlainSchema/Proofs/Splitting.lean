/-
PlainSchema/Proofs/Splitting.lean

What the splitting of a list of types does to the values that a schema accepts.

A list of types says that a value has one of them at least, and `oneOf` says that it
has exactly one.  So a schema that is split accepts no value that it did not accept
before, and loses those of which two entries of the list are types
(`splitTypes_accepts`).  There are two ways to that: a name that is in the list twice,
and `integer` beside `number` (`eq_or_numeric_of_describes`).  A list without them is
split without a loss.
-/
import PlainSchema.Proofs.Rules
import PlainSchema.Schema.Acceptance

namespace PlainSchema

namespace Schema

variable {names : List TypeName} {a b n : TypeName} {v : Node} {path : Pointer}

/-! ### Names and kinds -/

namespace TypeName

/-- The name as it stands in a schema. -/
def node (n : TypeName) : Node := .str n.text

theorem ofText?_text (n : TypeName) : ofText? n.text = some n := by
  cases n <;> decide

theorem isText_null_node (n : TypeName) : n.node.isText "null" = decide (n = null) := by
  cases n <;> decide

/-- Two names for one value are the same one, or they are those for numbers. -/
theorem eq_or_numeric_of_describes (ha : a.describes v = true) (hb : b.describes v = true) :
    a = b ∨ (a = number ∧ b = integer) ∨ a = integer ∧ b = number := by
  cases v <;> cases a <;> simp [describes] at ha <;> cases b <;> simp [describes] at hb ⊢

end TypeName

theorem isOfType_node : isOfType v n.node = n.describes v := by
  rw [TypeName.node, isOfType, TypeName.ofText?_text, Option.any_some]

theorem hasType_node : hasType v n.node = n.describes v := isOfType_node

theorem alternativeAccepts_typeOnly : alternativeAccepts v (typeOnly n.node) = n.describes v :=
  hasType_node

/-! ### The schema before -/

/-- The schema that says nothing but a list of types. -/
def typesOnly (names : List TypeName) : Fields :=
  [(.str "type", .list (names.map TypeName.node))]

/-- The names of a list other than `null`. -/
def described (names : List TypeName) : List TypeName := names.filter (· ≠ .null)

/-- How many entries of a list other than `null` are types of a value. -/
def typeCount (names : List TypeName) (v : Node) : Nat :=
  (described names).countP fun n => n.describes v

/-- Whether null is accepted since its name is in the list. -/
def AllowsNull (names : List TypeName) (v : Node) : Prop :=
  .null ∈ names ∧ TypeName.null.describes v = true

/-- No other name describes null. -/
theorem typeCount_of_allowsNull (h : AllowsNull names v) : typeCount names v = 0 := by
  refine List.countP_eq_zero.2 fun n hn hd => ?_
  have other : n ≠ .null := of_decide_eq_true (List.mem_filter.1 hn).2
  rcases TypeName.eq_or_numeric_of_describes hd h.2 with rfl | ⟨-, hb⟩ | ⟨-, hb⟩
  · exact other rfl
  · cases hb
  · cases hb

theorem accepts_typesOnly :
    accepts (typesOnly names) v = true ↔ AllowsNull names v ∨ 0 < typeCount names v := by
  have listed : accepts (typesOnly names) v = true ↔ ∃ n ∈ names, n.describes v = true := by
    simp [accepts, typesOnly, isNullable, Fields.get?, hasType, isOfType_node]
  rw [listed, typeCount, List.countP_pos_iff]
  constructor
  · rintro ⟨n, hn, hd⟩
    by_cases hnull : n = .null
    · exact .inl ⟨hnull ▸ hn, hnull ▸ hd⟩
    · exact .inr ⟨n, List.mem_filter.2 ⟨hn, decide_eq_true hnull⟩, hd⟩
  · rintro (⟨hn, hd⟩ | ⟨n, hn, hd⟩)
    · exact ⟨_, hn, hd⟩
    · exact ⟨n, (List.mem_filter.1 hn).1, hd⟩

/-! ### The schema after -/

/-- What is left of the entries but for the types: whether null is allowed. -/
def nullableOnly (names : List TypeName) : Fields :=
  if .null ∈ names then [(.str "nullable", .bool true)] else []

theorem markNullable_typesOnly (names : List TypeName) :
    markNullable (names.map TypeName.node) ((typesOnly names).erase "type")
      = nullableOnly names := by
  have erased : (typesOnly names).erase "type" = [] := by simp [typesOnly, Fields.erase]
  have listed : (names.map TypeName.node).any (Node.isText "null") = true ↔ .null ∈ names := by
    simp [TypeName.isText_null_node]
  rw [markNullable, erased, nullableOnly]
  simp only [listed, Fields.put]

theorem describedTypes_map (names : List TypeName) :
    describedTypes (names.map TypeName.node) = (described names).map TypeName.node := by
  rw [describedTypes, List.filter_map, described]
  congr 1
  exact List.filter_congr fun n _ => by simp [TypeName.isText_null_node]

/-- The list becomes one type, or one alternative for each of several types. -/
theorem splitTypes_typesOnly (h : ∃ n ∈ names, n ≠ .null) (path : Pointer) :
    (∃ n, described names = [n] ∧ splitTypes? (typesOnly names) path
        = .ok (some ((nullableOnly names).put "type" n.node))) ∨
      splitTypes? (typesOnly names) path = .ok (some ((nullableOnly names).put "oneOf"
        (.list ((described names).map fun n => typeOnly n.node)))) := by
  have listed : (typesOnly names).get? "type" = some (.list (names.map TypeName.node)) := rfl
  have left := describedTypes_map names
  rcases hd : described names with - | ⟨n, - | ⟨n', rest⟩⟩ <;> rw [hd] at left
  · obtain ⟨n, hn, hnull⟩ := h
    have : n ∈ described names := List.mem_filter.2 ⟨hn, decide_eq_true hnull⟩
    rw [hd] at this
    cases this
  · refine .inl ⟨n, rfl, ?_⟩
    rw [splitTypes?, listed]
    dsimp only
    rw [left, markNullable_typesOnly]
    rfl
  · refine .inr ?_
    rw [splitTypes?, listed]
    dsimp only
    rw [left, markNullable_typesOnly]
    simp [typeOnly, Function.comp_def]

theorem isNullable_nullableOnly {name : String} (hn : name ≠ "nullable") {w : Node} :
    (isNullable ((nullableOnly names).put name w) && TypeName.null.describes v) = true ↔
      AllowsNull names v := by
  unfold nullableOnly AllowsNull
  split <;> simp [isNullable, Fields.put, Fields.get?, Ne.symm hn, *]

theorem get?_nullableOnly {name : String} (hn : name ≠ "nullable") :
    (nullableOnly names).get? name = none := by
  unfold nullableOnly
  split <;> simp [Fields.get?, Ne.symm hn]

/-- The schema that is split accepts null as before, and else what exactly one entry describes. -/
theorem accepts_of_splitTypes (h : ∃ n ∈ names, n ≠ .null) (path : Pointer) :
    ∃ fs, splitTypes? (typesOnly names) path = .ok (some fs) ∧
      ∀ v, accepts fs v = true ↔ AllowsNull names v ∨ typeCount names v = 1 := by
  rcases splitTypes_typesOnly h path with ⟨n, hd, hs⟩ | hs
  · refine ⟨_, hs, fun v => ?_⟩
    have other : ((nullableOnly names).put "type" n.node).get? "oneOf" = none := by
      rw [get?_put_of_ne (by decide), get?_nullableOnly (by decide)]
    rw [accepts, Bool.or_eq_true, Bool.or_eq_true, isNullable_nullableOnly (by decide), other,
      Fields.get?_put_self]
    by_cases hn : n.describes v = true <;> simp [typeCount, hd, hasType_node, hn]
  · refine ⟨_, hs, fun v => ?_⟩
    have other : ((nullableOnly names).put "oneOf"
        (.list ((described names).map fun n => typeOnly n.node))).get? "type" = none := by
      rw [get?_put_of_ne (by decide), get?_nullableOnly (by decide)]
    rw [accepts, Bool.or_eq_true, Bool.or_eq_true, isNullable_nullableOnly (by decide), other,
      Fields.get?_put_self]
    simp [exactlyOneAccepts, List.countP_map, Function.comp_def, alternativeAccepts_typeOnly,
      typeCount]

/-! ### Lists whose types exclude each other -/

/-- Whether no value has two of the types that a list names: no name other than `null` is in it
twice, and not both names for numbers are. -/
structure Exclusive (names : List TypeName) : Prop where
  distinct : (described names).Nodup
  oneNumeric : ¬ (.number ∈ names ∧ .integer ∈ names)

theorem typeCount_le_one (h : Exclusive names) (v : Node) : typeCount names v ≤ 1 := by
  have distinct : ((described names).filter fun n => n.describes v).Nodup := h.distinct.filter _
  rw [typeCount, List.countP_eq_length_filter]
  rcases hf : (described names).filter fun n => n.describes v with - | ⟨a, - | ⟨b, rest⟩⟩ <;>
    rw [hf] at distinct ⊢
  · exact Nat.zero_le 1
  · exact Nat.le_refl 1
  -- Two entries would be the same one, or the two names for numbers.
  have named : ∀ n ∈ [a, b], n ∈ names ∧ n.describes v = true := by
    intro n hn
    have hm : n ∈ (described names).filter fun n => n.describes v := by
      rw [hf]
      exact List.mem_append_left rest hn
    obtain ⟨hm, hd⟩ := List.mem_filter.1 hm
    exact ⟨(List.mem_filter.1 hm).1, hd⟩
  obtain ⟨ha, hda⟩ := named a (by simp)
  obtain ⟨hb, hdb⟩ := named b (by simp)
  rcases TypeName.eq_or_numeric_of_describes hda hdb with rfl | ⟨rfl, rfl⟩ | ⟨rfl, rfl⟩
  · exact absurd List.mem_cons_self (List.nodup_cons.1 distinct).1
  · exact absurd ⟨ha, hb⟩ h.oneNumeric
  · exact absurd ⟨hb, ha⟩ h.oneNumeric

/-- **What splitting does to a list of types.**  The schema that is split accepts a value if and
only if it did before and no more than one entry other than `null` is a type of the value.  So
nothing is lost of a list whose types exclude each other. -/
theorem splitTypes_accepts (h : ∃ n ∈ names, n ≠ .null) (path : Pointer) :
    ∃ fs, splitTypes? (typesOnly names) path = .ok (some fs) ∧
      (∀ v, accepts fs v = true ↔
        accepts (typesOnly names) v = true ∧ typeCount names v ≤ 1) ∧
      (Exclusive names → ∀ v, accepts fs v = accepts (typesOnly names) v) := by
  obtain ⟨fs, hs, split⟩ := accepts_of_splitTypes h path
  have exact : ∀ v, accepts fs v = true ↔
      accepts (typesOnly names) v = true ∧ typeCount names v ≤ 1 := by
    intro v
    rw [split, accepts_typesOnly]
    constructor
    · rintro (hn | hc)
      · exact ⟨.inl hn, by rw [typeCount_of_allowsNull hn]; exact Nat.zero_le 1⟩
      · exact ⟨.inr (by omega), Nat.le_of_eq hc⟩
    · rintro ⟨hn | hc, hle⟩
      · exact .inl hn
      · exact .inr (by omega)
  refine ⟨fs, hs, exact, fun exclusive v => Bool.eq_iff_iff.2 ?_⟩
  rw [exact, and_iff_left (typeCount_le_one exclusive v)]

/-- A list of exclusive types, with null among them. -/
theorem splitTypes_accepts_optional : (∃ n ∈ [TypeName.string, .null, .integer], n ≠ .null) ∧
    Exclusive [.string, .null, .integer] ∧
    ∃ fs, splitTypes? (typesOnly [.string, .null, .integer]) [] = .ok (some fs) ∧
      [Node.null, .int 1, .str "a", .bool true].map (accepts fs) = [true, true, true, false] := by
  have named : ∃ n ∈ [TypeName.string, .null, .integer], n ≠ .null := ⟨.string, by decide⟩
  have exclusive : Exclusive [.string, .null, .integer] := ⟨by decide, by decide⟩
  obtain ⟨fs, hs, -, same⟩ := splitTypes_accepts named []
  refine ⟨named, exclusive, fs, hs, ?_⟩
  simp only [List.map_cons, List.map_nil, same exclusive]
  decide

/-- An integer has both types of a list, and is accepted no more when the list is split. -/
theorem splitTypes_loses_integer :
    accepts (typesOnly [.integer, .number]) (.int 1) = true ∧
    ∃ fs, splitTypes? (typesOnly [.integer, .number]) [] = .ok (some fs) ∧
      accepts fs (.int 1) = false :=
  ⟨by decide, _, rfl, by decide⟩

end Schema

end PlainSchema
