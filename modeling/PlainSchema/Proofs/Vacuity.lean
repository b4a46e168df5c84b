/-
PlainSchema/Proofs/Vacuity.lean

What is lost with a schema that is dropped.

A vacuous schema has no property and allows no other, so there is one object that it
accepts: the empty one.  Of the values that are no objects it accepts those of its
types (`admits_vacuous_iff`).  These are not looked at when it is dropped: to describe
objects it is enough to have `object` among several types, or as a bare name among
alternatives.

So what goes with the schema is the empty object and null if these are all that the
types speak of, and more otherwise; `vacuous_admits` is an equivalence.
-/
import PlainSchema.Proofs.Cleaning
import PlainSchema.Proofs.Splitting

namespace PlainSchema

namespace Schema

variable {fs : Fields} {t v : Node}

/-! ### Types of a value -/

theorem TypeName.ofText?_eq_some_iff {s : String} {n : TypeName} :
    ofText? s = some n ↔ s = n.text := by
  constructor
  · intro h
    have := List.find?_some h
    exact (of_decide_eq_true this).symm
  · rintro rfl
    exact ofText?_text n

theorem isOfType_iff : isOfType v t = true ↔ ∃ n : TypeName, t.isText n.text = true ∧
    n.describes v = true := by
  cases t with
  | str s =>
    simp only [isOfType, Option.any_eq_true, TypeName.ofText?_eq_some_iff, Node.isText,
      decide_eq_true_eq]
  | _ => simp [isOfType, Node.isText]

/-- A value is of the type of a schema if one of the names given describes it. -/
theorem hasType_iff : hasType v t = true ↔ ∃ n, Names t n ∧ n.describes v = true := by
  cases t with
  | list ts =>
    simp only [hasType, List.any_eq_true, isOfType_iff, Names, Node.isText, Node.listsText,
      Bool.false_eq_true, false_or]
    constructor
    · rintro ⟨x, hx, n, hn, hd⟩
      exact ⟨n, ⟨x, hx, hn⟩, hd⟩
    · rintro ⟨n, ⟨x, hx, hn⟩, hd⟩
      exact ⟨x, hx, n, hn, hd⟩
  | _ => simp [hasType, isOfType_iff, Names, Node.listsText]

/-- Every kind but those of objects and of null has a value that is neither. -/
theorem TypeName.exists_describes {n : TypeName} (ho : n ≠ .object) (hn : n ≠ .null) :
    ∃ v, n.describes v = true ∧ (∀ entries, v ≠ .map entries) ∧ v ≠ .null := by
  cases n with
  | string => exact ⟨.str "", rfl, nofun, nofun⟩
  | number => exact ⟨.int 0, rfl, nofun, nofun⟩
  | integer => exact ⟨.int 0, rfl, nofun, nofun⟩
  | boolean => exact ⟨.bool true, rfl, nofun, nofun⟩
  | array => exact ⟨.list [], rfl, nofun, nofun⟩
  | object => exact absurd rfl ho
  | null => exact absurd rfl hn

theorem TypeName.object_describes (h : object.describes v = true) :
    ∃ entries, v = .map entries := by
  cases v with
  | map entries => exact ⟨entries, rfl⟩
  | _ => cases h

theorem TypeName.null_describes (h : TypeName.null.describes v = true) : v = .null := by
  cases v with
  | null => rfl
  | _ => cases h

/-! ### What a vacuous schema accepts -/

theorem admits_false : admits (.bool false) v = false := by
  cases v <;> rfl

/-- A vacuous schema allows no value under any key. -/
theorem entrySchema_vacuous (h : isVacuous fs = true) (key : Node) :
    entrySchema key (.map fs) = .bool false := by
  obtain ⟨-, properties, additional⟩ := isVacuous_iff.1 h
  have none : property? fs key = none := by
    cases key with
    | str name => rcases properties with e | e <;> simp only [property?, e, Fields.get?]
    | _ => rfl
  rw [entrySchema, none, additional]
  rfl

/-- It accepts what is of its type, if it has one, and is no object with entries. -/
theorem admits_vacuous_iff (h : isVacuous fs = true) : admits (.map fs) v = true ↔
    (fs.get? "type").all (hasType v) = true ∧ ∀ entries, v = .map entries → entries = [] := by
  cases v with
  | map entries =>
    rw [admits, Bool.and_eq_true, allowsType]
    refine and_congr_right fun _ => ?_
    rcases entries with - | ⟨⟨k, w⟩, entries⟩
    · simp [admitsEntries]
    · rw [admitsEntries, entrySchema_vacuous h, admits_false, Bool.false_and]
      simp
  | _ => exact (and_iff_left nofun).symm

/-- It accepts every value of a type that it names, but for objects. -/
theorem admits_of_names {n : TypeName} (h : isVacuous fs = true) (ht : fs.get? "type" = some t)
    (hn : Names t n) (hd : n.describes v = true) (noObject : ∀ entries, v ≠ .map entries) :
    admits (.map fs) v = true := by
  refine (admits_vacuous_iff h).2 ⟨?_, fun entries e => absurd e (noObject entries)⟩
  rw [ht, Option.all_some]
  exact hasType_iff.2 ⟨n, hn, hd⟩

/-- If it names nothing but `object` and `null`, it accepts nothing but the empty object and
null. -/
theorem eq_of_admits (h : isVacuous fs = true) (ht : fs.get? "type" = some t)
    (named : ∀ n, Names t n → n = .object ∨ n = .null) (hv : admits (.map fs) v = true) :
    v = .map [] ∨ v = .null := by
  obtain ⟨typed, empty⟩ := (admits_vacuous_iff h).1 hv
  rw [ht, Option.all_some] at typed
  obtain ⟨n, hn, hd⟩ := hasType_iff.1 typed
  rcases named n hn with rfl | rfl
  · obtain ⟨entries, rfl⟩ := TypeName.object_describes hd
    exact .inl (congrArg Node.map (empty entries rfl))
  · exact .inr (TypeName.null_describes hd)

/-- **What goes with a schema that is dropped.**  It accepts no object with entries, and it
accepts nothing but the empty object and null if and only if it has a type that names
nothing else. -/
theorem vacuous_admits (h : isVacuous fs = true) :
    clean (.map fs) = .ok none ∧
    (∀ f entries, admits (.map fs) (.map (f :: entries)) = false) ∧
    ((∀ v, admits (.map fs) v = true → v = .map [] ∨ v = .null) ↔
      ∃ t, fs.get? "type" = some t ∧ ∀ n, Names t n → n = .object ∨ n = .null) := by
  refine ⟨clean_map_iff.2 (.inl ⟨h, rfl⟩), fun f entries => ?_, fun only => ?_, ?_⟩
  · rw [← Bool.not_eq_true, admits_vacuous_iff h]
    exact fun ⟨_, empty⟩ => nomatch empty _ rfl
  · rcases ht : fs.get? "type" with - | t
    · -- Without a type every string is accepted.
      have accepted : admits (.map fs) (.str "") = true :=
        (admits_vacuous_iff h).2 ⟨by rw [ht]; rfl, nofun⟩
      rcases only _ accepted with e | e <;> cases e
    · refine ⟨t, rfl, fun n hn => ?_⟩
      by_contra other
      rw [not_or] at other
      obtain ⟨v, hd, noObject, notNull⟩ := TypeName.exists_describes other.1 other.2
      exact (only v (admits_of_names h ht hn hd noObject)).elim (noObject []) notNull
  · rintro ⟨t, ht, named⟩ v hv
    exact eq_of_admits h ht named hv

/-- An object or null, without properties. -/
def nothingOrNull : Fields :=
  [(.str "type", .list [.str "object", .str "null"]), (.str "properties", .map []),
    (.str "additionalProperties", .bool false)]

theorem vacuous_admits_nothing : isVacuous nothingOrNull = true ∧
    clean (.map nothingOrNull) = .ok none ∧
    ∀ v, admits (.map nothingOrNull) v = true → v = .map [] ∨ v = .null := by
  have vacuous : isVacuous nothingOrNull = true := by decide
  obtain ⟨dropped, -, exact⟩ := vacuous_admits vacuous
  refine ⟨vacuous, dropped, exact.2 ⟨_, rfl, fun n hn => ?_⟩⟩
  revert hn
  cases n <;> simp [Names, Node.isText, Node.listsText, TypeName.text]

/-- An object or a string, and a schema whose only alternative is the bare name for objects: both
are dropped, and both accept a string. -/
theorem vacuous_admits_string :
    (isVacuous [(.str "type", .list [.str "object", .str "string"]),
        (.str "additionalProperties", .bool false)] = true ∧
      admits (.map [(.str "type", .list [.str "object", .str "string"]),
        (.str "additionalProperties", .bool false)]) (.str "a") = true) ∧
    isVacuous [(.str "anyOf", .list [.str "object"]),
        (.str "additionalProperties", .bool false)] = true ∧
    admits (.map [(.str "anyOf", .list [.str "object"]),
        (.str "additionalProperties", .bool false)]) (.str "a") = true := by
  decide

end Schema

end PlainSchema
