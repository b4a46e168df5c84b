/-
PlainSchema/Proofs/PassThrough.lean

The keywords that no rule knows.

Every rule is made of `put` and `erase` under names of its own, so it does not move,
make or lose an entry of another key, however it fires.  The lemmas `only_…` say so,
rule by rule, of any choice of keys without the names in question: a rule leaves the
same entries of these keys, in the same order (`only_applyRules`).

What happens to such an entry is then the recursion's doing alone.  `clean_passes` is
the result: among the keys that are no keywords of the rules, a cleaned mapping has
what the entries of the mapping clean to, without the bookkeeping entries and without
those of which nothing is left.
-/
import PlainSchema.Proofs.Cleaning

namespace PlainSchema

namespace Schema

variable {fs gs kept : Fields} {path : Pointer} {split : Option Fields} {types : List Node}
  {chosen : Node → Bool} {f : Node × Node} {r : Option (Node × Node)} {m : Node}

/-! ### Entries under other names than a rule's -/

theorem only_markNullable (hn : chosen (.str "nullable") = false) :
    (markNullable types fs).only chosen = fs.only chosen := by
  unfold markNullable
  split
  · exact Fields.only_put hn
  · rfl

theorem only_splitTypes (ht : chosen (.str "type") = false) (hn : chosen (.str "nullable") = false)
    (ho : chosen (.str "oneOf") = false) (h : splitTypes? fs path = .ok split) :
    Fields.only (split.getD fs) chosen = fs.only chosen := by
  have rest : ∀ types, (markNullable types (fs.erase "type")).only chosen = fs.only chosen := by
    intro types
    rw [only_markNullable hn, Fields.only_erase ht]
  rcases splitTypes_cases h with ⟨-, rfl⟩ | ⟨types, -, ⟨t, -, rfl⟩ | rfl⟩
  · rfl
  · rw [Option.getD_some, Fields.only_put ht, rest]
  · rw [Option.getD_some, Fields.only_put ho, rest]

theorem only_singleItems (hi : chosen (.str "items") = false) :
    (applied singleItems? fs).only chosen = fs.only chosen := by
  rcases singleItems_cases fs with ⟨e, -⟩ | ⟨-, v, -, e⟩ <;> rw [e]
  rw [Fields.only_put hi, Fields.only_erase hi]

theorem only_dropEmptyDefault (hd : chosen (.str "default") = false) :
    (applied dropEmptyDefault? fs).only chosen = fs.only chosen := by
  rcases dropEmptyDefault_cases fs with ⟨e, -⟩ | ⟨-, -, e⟩ <;> rw [e]
  rw [Fields.only_erase hd]

theorem only_mergeEnums (ht : chosen (.str "type") = false) (he : chosen (.str "enum") = false)
    (ha : chosen (.str "anyOf") = false) :
    (applied mergeEnums? fs).only chosen = fs.only chosen := by
  rcases mergeEnums_cases fs with ⟨e, -⟩ | ⟨outer, alternatives, -, -, ⟨-, e⟩ | e⟩ <;> rw [e]
  · rw [Fields.only_put ht, Fields.only_put he, Fields.only_erase ha]
  · rw [Fields.only_put ha, Fields.only_erase ht, Fields.only_erase he, Fields.only_erase ha]

/-- The names that the rules read and write. -/
def keywords : List String := ["type", "nullable", "oneOf", "anyOf", "enum", "items", "default"]

/-- All rules together leave the entries of other keys where they are. -/
theorem only_applyRules (hc : ∀ name ∈ keywords, chosen (.str name) = false)
    (h : applyRules fs path = .ok gs) : gs.only chosen = fs.only chosen := by
  obtain ⟨split, hs, rfl⟩ := applyRules_eq h
  simp only [keywords, List.forall_mem_cons] at hc
  obtain ⟨type, nullable, oneOf, anyOf, enum, items, default, -⟩ := hc
  rw [settled, only_mergeEnums type enum anyOf, only_dropEmptyDefault default,
    only_singleItems items, only_splitTypes type nullable oneOf hs]

/-! ### What the cleaner makes of them -/

/-- Whether a key is none of the names that the rules read and write. -/
def passesThrough (key : Node) : Bool := !keywords.any fun name => key.isText name

/-- Whether a key passes and is not bookkeeping. -/
def ordinary (key : Node) : Bool := passesThrough key && !isBookkeeping key

theorem passesThrough_keyword {name : String} (h : name ∈ keywords) :
    passesThrough (.str name) = false := by
  rw [passesThrough, Bool.not_eq_false', List.any_eq_true]
  exact ⟨name, h, Node.isText_iff.2 rfl⟩

/-- What is left of an entry whose value is cleaned: the key with the clean value, or nothing. -/
def cleaned (f : Node × Node) : Option (Node × Node) :=
  match clean f.2 with
  | .ok (some v) => some (f.1, v)
  | _ => none

/-- An entry that is not bookkeeping becomes what its value cleans to. -/
theorem EntryCleans.cleaned_eq (h : EntryCleans f r) (hb : isBookkeeping f.1 = false) :
    cleaned f = r ∧ ∃ a, clean f.2 = .ok a := by
  cases r with
  | none =>
    rcases h with hb' | hc
    · cases hb.symm.trans hb'
    · exact ⟨by rw [cleaned, hc], _, hc⟩
  | some g =>
    obtain ⟨-, hk, hc⟩ := h
    exact ⟨by rw [cleaned, hc, ← hk], _, hc⟩

/-- Of the keys that pass, an entry is left from each ordinary entry whose value is left. -/
theorem kept_only (hr : applyRules fs path = .ok gs) (h : Kept EntryCleans gs kept) :
    Kept EntryCleans (fs.only ordinary) (kept.only passesThrough) := by
  have same : gs.only ordinary = fs.only ordinary :=
    only_applyRules (fun name hn => by rw [ordinary, passesThrough_keyword hn, Bool.false_and]) hr
  rw [← same]
  refine h.filter fun {f g} hg => ?_
  -- What is left of an entry has its key, which is no bookkeeping.
  obtain ⟨hb, hk, -⟩ := hg
  rw [ordinary, hb, hk, Bool.not_false, Bool.and_true]

/-- **The frame of a cleaning**: a mapping that is not dropped becomes a mapping, and among the
keys that no rule knows its entries are those of the mapping, in order, without bookkeeping and
with each value cleaned; an entry goes only if nothing is left of its value, and no value ends in
a fault. -/
theorem clean_passes (h : clean (.map fs) = .ok (some m)) :
    ∃ kept : Fields, m = .map kept ∧
      kept.only passesThrough = (fs.only ordinary).filterMap cleaned ∧
      ∀ f ∈ fs.only ordinary, ∃ a, clean f.2 = .ok a := by
  rcases clean_map_iff.1 h with ⟨-, e⟩ | ⟨-, gs, hr, kept, hk, e⟩
  · cases e
  obtain rfl := Option.some.inj e
  have left := kept_only hr hk
  have ordinaryKey : ∀ f ∈ fs.only ordinary, isBookkeeping f.1 = false := by
    intro f hf
    have := (Fields.mem_only.1 hf).2
    rw [ordinary, Bool.and_eq_true, Bool.not_eq_true'] at this
    exact this.2
  refine ⟨kept, rfl, ?_, fun f hf => ?_⟩
  · exact left.eq_filterMap fun f hf r hc => (hc.cleaned_eq (ordinaryKey f hf)).1
  · rcases left.dropped_or_kept hf with hc | ⟨g, -, hc⟩
    · exact (hc.cleaned_eq (ordinaryKey f hf)).2
    · exact (hc.cleaned_eq (ordinaryKey f hf)).2

/-- A schema on which every rule has something to do, with other entries in between. -/
def busySchema : Fields :=
  [(.str "title", .str "t"), (.str "_name_", .map [(.str "type", .list [.str "null"])]),
    (.str "type", .list [.str "array", .str "null"]),
    (.str "x", .map [(.str "type", .str "object"), (.str "additionalProperties", .bool false)]),
    (.str "items", .list [.str "i"]), (.int 1, .list [.map [(.str "type", .list [.str "string"])]]),
    (.str "enum", .list [.str "a"]), (.str "anyOf", .list [.map [(.str "type", .str "string")],
      .str "object"]),
    (.str "default", .null), (.str "not", .map [])]

theorem clean_passes_busy :
    clean (.map busySchema) = .ok (some (.map [(.str "title", .str "t"),
      (.int 1, .list [.map [(.str "type", .str "string")]]), (.str "not", .map []),
      (.str "nullable", .bool true), (.str "items", .str "i"),
      (.str "anyOf", .list [stringEnum [.str "a"], .str "object"])])) ∧
    (busySchema.only ordinary).filterMap cleaned = [(.str "title", .str "t"),
      (.int 1, .list [.map [(.str "type", .str "string")]]), (.str "not", .map [])] := by
  have result : clean (.map busySchema) = .ok (some (.map [(.str "title", .str "t"),
      (.int 1, .list [.map [(.str "type", .str "string")]]), (.str "not", .map []),
      (.str "nullable", .bool true), (.str "items", .str "i"),
      (.str "anyOf", .list [stringEnum [.str "a"], .str "object"])])) := by with_unfolding_all rfl
  refine ⟨result, ?_⟩
  obtain ⟨kept, e, passing, -⟩ := clean_passes result
  obtain rfl := Node.map.inj e
  rw [← passing]
  rfl

end Schema

end PlainSchema
