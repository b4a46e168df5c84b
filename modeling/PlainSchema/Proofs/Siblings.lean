/-
PlainSchema/Proofs/Siblings.lean

What the splitting of a list of types leaves of the keywords beside it.

The rule takes `type` away and writes `nullable`, and then `type` or `oneOf`.  The
entries under all other names it leaves where they are, with their values
(`only_splitTypes`), and `oneOf` too if one type is left.  Several types become the
alternatives of a new `oneOf`, which is put in the stead of one that was there: its
alternatives go, unless the types happen to be the same ones.  So nothing is lost
beside the list of types exactly if one of the two is the case
(`splitTypes_carries_iff`).
-/
import PlainSchema.Proofs.Location
import PlainSchema.Proofs.PassThrough

namespace PlainSchema

namespace Schema

variable {fs gs : Fields} {types : List Node} {f : Node × Node} {t v w : Node} {path : Pointer}

/-! ### What is still there of an entry -/

/-- Whether a value holds all that another one held: it is the same, or both are lists and each item
is there still. -/
def Holds (w v : Node) : Prop := w = v ∨ ∃ xs ys, v = .list xs ∧ w = .list ys ∧ xs ⊆ ys

/-- Whether the entries have one under the key of another entry that holds all that it held. -/
def Carries (gs : Fields) (f : Node × Node) : Prop := ∃ w, (f.1, w) ∈ gs ∧ Holds w f.2

theorem Carries.of_mem (h : f ∈ gs) : Carries gs f := ⟨f.2, h, .inl rfl⟩

/-- What is not seen by a choice of keys that sees the entry is of no account for it. -/
theorem Carries.of_only {chosen : Node → Bool} (h : gs.only chosen = fs.only chosen) (hf : f ∈ fs)
    (hc : chosen f.1 = true) : Carries gs f :=
  .of_mem (Fields.mem_only.1 (h ▸ Fields.mem_only.2 ⟨hf, hc⟩)).1

/-! ### The two forms of the result -/

/-- Whether a key is neither that of the list of types nor the mark for null. -/
def isBeside (key : Node) : Bool := !(key.isText "type" || key.isText "nullable")

/-- Whether a key is none of those that the rule writes. -/
def isUnwritten (key : Node) : Bool := isBeside key && !key.isText "oneOf"

theorem isBeside_iff {key : Node} :
    isBeside key = true ↔ key ≠ .str "type" ∧ key ≠ .str "nullable" := by
  rw [isBeside, Bool.not_eq_true', Bool.or_eq_false_iff, ← Bool.not_eq_true, ← Bool.not_eq_true,
    Node.isText_iff, Node.isText_iff]

/-- A list with a type other than `null` is split: one type stands under `type` then, several are
the alternatives under `oneOf`. -/
theorem splitTypes_of_described (ht : fs.get? "type" = some (.list types))
    (hd : ∃ t ∈ types, t ≠ .str "null") (path : Pointer) :
    (∃ t gs, describedTypes types = [t] ∧ splitTypes? fs path = .ok (some gs) ∧
      gs = (markNullable types (fs.erase "type")).put "type" t) ∨
    ∃ gs, splitTypes? fs path = .ok (some gs) ∧ (∀ t, describedTypes types ≠ [t]) ∧
      gs = (markNullable types (fs.erase "type")).put "oneOf"
        (.list ((describedTypes types).map typeOnly)) := by
  rw [splitTypes?, ht]
  dsimp only
  rcases he : describedTypes types with - | ⟨t, - | ⟨t', rest⟩⟩
  · obtain ⟨t, hm, hn⟩ := hd
    exact absurd (describedTypes_eq_nil_iff.1 he t hm) hn
  · exact .inl ⟨t, _, rfl, rfl, rfl⟩
  · exact .inr ⟨_, rfl, nofun, rfl⟩

/-- If one type is left, the entries beside it are the same ones. -/
theorem only_isBeside (hg : gs = (markNullable types (fs.erase "type")).put "type" t) :
    gs.only isBeside = fs.only isBeside := by
  rw [hg, Fields.only_put (by decide), only_markNullable (by decide), Fields.only_erase (by decide)]

/-- What an alternative list holds that stands for several types. -/
theorem holds_alternatives_iff {ts : List Node} : Holds (.list (ts.map typeOnly)) v ↔
    ∃ old, v = .list old ∧ ∀ a ∈ old, ∃ t ∈ ts, a = typeOnly t := by
  constructor
  · rintro (rfl | ⟨xs, ys, rfl, e, sub⟩)
    · refine ⟨_, rfl, fun a ha => ?_⟩
      obtain ⟨t, ht, rfl⟩ := List.mem_map.1 ha
      exact ⟨t, ht, rfl⟩
    · obtain rfl := Node.list.inj e
      refine ⟨xs, rfl, fun a ha => ?_⟩
      obtain ⟨t, ht, rfl⟩ := List.mem_map.1 (sub ha)
      exact ⟨t, ht, rfl⟩
  · rintro ⟨old, rfl, new⟩
    refine .inr ⟨old, _, rfl, rfl, fun a ha => ?_⟩
    obtain ⟨t, ht, rfl⟩ := new a ha
    exact List.mem_map_of_mem ht

/-- If several types are left, what was under `oneOf` is held exactly by the new alternatives. -/
theorem carries_oneOf_iff (distinct : fs.Distinct)
    (hg : gs = (markNullable types (fs.erase "type")).put "oneOf" w) :
    Carries gs (.str "oneOf", v) ↔ Holds w v := by
  have put : gs.get? "oneOf" = some w := hg ▸ Fields.get?_put_self
  constructor
  · rintro ⟨w', hm, hold⟩
    -- There is one entry of the name, and it is the one that was put.
    have distinct' : gs.Distinct := hg ▸ (distinct_markNullable (distinct.erase _)).put _ _
    have := distinct'.get?_eq_some_iff.2 hm
    obtain rfl := Option.some.inj (put.symm.trans this)
    exact hold
  · exact fun hold => ⟨w, mem_of_get? put, hold⟩

/-! ### The frame of the rule -/

/-- **What splitting leaves beside a list of types.**  The entries under names that the rule does
not write stay in their order, with their values.  Nothing is lost of any entry beside the list
exactly if one type is left, or the alternatives that were there stand for types of the list. -/
theorem splitTypes_carries_iff (distinct : fs.Distinct) (ht : fs.get? "type" = some (.list types))
    (hd : ∃ t ∈ types, t ≠ .str "null") (path : Pointer) :
    ∃ gs, splitTypes? fs path = .ok (some gs) ∧ gs.only isUnwritten = fs.only isUnwritten ∧
      ((∀ f ∈ fs, f.1 ≠ .str "type" → f.1 ≠ .str "nullable" → Carries gs f) ↔
        (∃ t, describedTypes types = [t]) ∨
        ∀ v, fs.get? "oneOf" = some v →
          ∃ old, v = .list old ∧ ∀ a ∈ old, ∃ t ∈ describedTypes types, a = typeOnly t) := by
  have unwritten {gs} (hs : splitTypes? fs path = .ok (some gs)) :
      Fields.only ((some gs).getD fs) isUnwritten = fs.only isUnwritten :=
    only_splitTypes (by decide) (by decide) (by decide) hs
  rcases splitTypes_of_described ht hd path with ⟨t, gs, single, hs, hg⟩ | ⟨gs, hs, several, hg⟩
  · refine ⟨gs, hs, unwritten hs, iff_of_true (fun f hf htype hnull => ?_) (.inl ⟨t, single⟩)⟩
    exact .of_only (only_isBeside hg) hf (isBeside_iff.2 ⟨htype, hnull⟩)
  refine ⟨gs, hs, unwritten hs, fun all => .inr fun v hv => ?_, fun old f hf htype hnull => ?_⟩
  · have carried := all _ (mem_of_get? hv) (by simp) (by simp)
    exact holds_alternatives_iff.1 ((carries_oneOf_iff distinct hg).1 carried)
  · obtain ⟨k, v⟩ := f
    by_cases ho : k = .str "oneOf"
    · subst ho
      have old := (old.resolve_left fun ⟨t, single⟩ => several t single) v
        (distinct.get?_eq_some_iff.2 hf)
      exact (carries_oneOf_iff distinct hg).2 (holds_alternatives_iff.2 old)
    · refine .of_only (unwritten hs) hf ?_
      rw [isUnwritten, isBeside_iff.2 ⟨htype, hnull⟩, Bool.true_and, Bool.not_eq_true',
        ← Bool.not_eq_true, Node.isText_iff]
      exact ho

/-- A text or null, with alternatives beside it. -/
def branchedSchema : Fields :=
  [(.str "oneOf", .list [.map [(.str "minLength", .int 1)], .map [(.str "const", .null)]]),
    (.str "type", .list [.str "string", .str "null"]), (.str "title", .str "t")]

/-- One type is left, and the alternatives stay. -/
theorem splitTypes_carries_branched : branchedSchema.Distinct ∧
    branchedSchema.get? "type" = some (.list [.str "string", .str "null"]) ∧
    ∃ gs, splitTypes? branchedSchema [] = .ok (some gs) ∧
      Carries gs (.str "oneOf", .list [.map [(.str "minLength", .int 1)],
        .map [(.str "const", .null)]]) := by
  have distinct : branchedSchema.Distinct := by decide
  have ht : branchedSchema.get? "type" = some (.list [.str "string", .str "null"]) := rfl
  obtain ⟨gs, hs, -, carried⟩ :=
    splitTypes_carries_iff distinct ht ⟨.str "string", by simp, by simp⟩ []
  refine ⟨distinct, ht, gs, hs, carried.2 (.inl ⟨.str "string", rfl⟩) _ ?_ (by simp) (by simp)⟩
  exact List.mem_cons_self

/-- A text or a number, with an alternative of another kind beside it. -/
def alternativeSchema : Fields :=
  [(.str "oneOf", .list [.map [(.str "minLength", .int 1)]]),
    (.str "type", .list [.str "string", .str "integer"])]

/-- Two types are left, and the alternative that was there is gone. -/
theorem splitTypes_drops_alternative : alternativeSchema.Distinct ∧
    splitTypes? alternativeSchema [] = .ok (some [(.str "oneOf",
      .list [typeOnly (.str "string"), typeOnly (.str "integer")])]) ∧
    ¬ Carries [(.str "oneOf", .list [typeOnly (.str "string"), typeOnly (.str "integer")])]
      (.str "oneOf", .list [.map [(.str "minLength", .int 1)]]) := by
  refine ⟨by decide, rfl, ?_⟩
  rintro ⟨w, hm, hold⟩
  obtain rfl := (Prod.mk.inj (List.mem_singleton.1 hm)).2
  obtain ⟨old, e, new⟩ := (@holds_alternatives_iff _ [.str "string", .str "integer"]).1 hold
  obtain rfl := Node.list.inj e
  obtain ⟨t, -, e⟩ := new _ (List.mem_singleton_self _)
  simp [typeOnly] at e

end Schema

end PlainSchema
