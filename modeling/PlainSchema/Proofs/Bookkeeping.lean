/-
PlainSchema/Proofs/Bookkeeping.lean

Bookkeeping entries do not interfere with a cleaning.

Two documents that are the same without their bookkeeping entries (`Node.bare`) clean to
the same result, or end in the same fault, whatever these entries hold.  There are three
kinds of places where a rule looks at a mapping as a whole, so that an entry counts by
being there: the value of `properties`, the value of `default`, and the items of a list
under `anyOf` (`Exposed`).  There the two documents must have the same bookkeeping keys;
what is under the keys does not matter there either.

`alike_of_bare_eq` takes the documents apart and finds them alike; the rest is
`cleanAt_of_alike`.
-/
import PlainSchema.Proofs.Alike

namespace PlainSchema

open Schema

/-! ### Documents without bookkeeping -/

namespace Node

mutual
/-- The document without its bookkeeping entries. -/
def bare : Node → Node
  | map fs => map (bareFields fs)
  | list xs => list (bareItems xs)
  | n => n

/-- The items without their bookkeeping entries. -/
def bareItems : List Node → List Node
  | [] => []
  | x :: xs => x.bare :: bareItems xs

/-- The entries that are no bookkeeping, and none in their values. -/
def bareFields : List (Node × Node) → List (Node × Node)
  | [] => []
  | (k, v) :: fs => if isBookkeeping k then bareFields fs else (k, v.bare) :: bareFields fs
end

theorem bareItems_eq_map (xs : List Node) : bareItems xs = xs.map bare := by
  induction xs with
  | nil => rfl
  | cons x xs ih => rw [bareItems, ih, List.map_cons]

theorem bare_of_not_map_list {n : Node} (hm : ∀ fs, n ≠ .map fs) (hl : ∀ xs, n ≠ .list xs) :
    n.bare = n := by
  cases n with
  | map fs => exact absurd rfl (hm fs)
  | list xs => exact absurd rfl (hl xs)
  | _ => rfl

/-- What is a mapping without bookkeeping is one with it. -/
theorem map_of_bare {n : Node} {gs : Fields} (h : n.bare = .map gs) :
    ∃ fs, n = .map fs ∧ bareFields fs = gs := by
  cases n with
  | map fs => exact ⟨fs, rfl, Node.map.inj h⟩
  | _ => cases h

/-- What is a list without bookkeeping is one with it. -/
theorem list_of_bare {n : Node} {ys : List Node} (h : n.bare = .list ys) :
    ∃ xs, n = .list xs ∧ xs.map bare = ys := by
  cases n with
  | list xs => exact ⟨xs, rfl, (bareItems_eq_map xs).symm.trans (Node.list.inj h)⟩
  | _ => cases h

/-- Documents that are the same without bookkeeping have the same form. -/
theorem bare_eq_cases {x y : Node} (h : x.bare = y.bare) :
    (∃ fs gs, x = .map fs ∧ y = .map gs ∧ bareFields fs = bareFields gs) ∨
    (∃ xs ys, x = .list xs ∧ y = .list ys ∧ xs.map bare = ys.map bare) ∨
    (x = y ∧ (∀ fs, x ≠ .map fs) ∧ ∀ xs, x ≠ .list xs) := by
  rcases y.map_or_list_or_other with ⟨gs, rfl⟩ | ⟨ys, rfl⟩ | ⟨hm, hl⟩
  · obtain ⟨fs, rfl, e⟩ := map_of_bare h
    exact .inl ⟨fs, gs, rfl, rfl, e⟩
  · obtain ⟨xs, rfl, e⟩ := list_of_bare h
    exact .inr (.inl ⟨xs, ys, rfl, rfl, e.trans (bareItems_eq_map ys)⟩)
  · rw [bare_of_not_map_list hm hl] at h
    rcases x.map_or_list_or_other with ⟨fs, rfl⟩ | ⟨xs, rfl⟩ | ⟨hm', hl'⟩
    · exact absurd h.symm (hm _)
    · exact absurd h.symm (hl _)
    · rw [bare_of_not_map_list hm' hl'] at h
      exact .inr (.inr ⟨h, hm', hl'⟩)

/-- Induction from the values to a mapping, and from the items to a list. -/
@[elab_as_elim]
theorem parts_induction {motive : Node → Prop}
    (map : ∀ fs, (∀ f ∈ fs, motive f.2) → motive (.map fs))
    (list : ∀ xs, (∀ x ∈ xs, motive x) → motive (.list xs))
    (other : ∀ n, (∀ fs, n ≠ .map fs) → (∀ xs, n ≠ .list xs) → motive n) (n : Node) :
    motive n := by
  induction h : n.height using Nat.strongRecOn generalizing n with
  | _ bound ih =>
    subst h
    rcases n.map_or_list_or_other with ⟨fs, rfl⟩ | ⟨xs, rfl⟩ | ⟨hm, hl⟩
    · exact map fs fun f hf => ih _ (height_lt_of_mem_fields (k := f.1) hf) _ rfl
    · exact list xs fun x hx => ih _ (height_lt_of_mem_items hx) _ rfl
    · exact other n hm hl

end Node

open Node

namespace Schema

variable {fs gs : Fields} {v w x y k : Node} {xs ys as bs : List Node} {i : Nat}

theorem bareFields_of_isBookkeeping (hk : isBookkeeping k = true) :
    bareFields ((k, v) :: fs) = bareFields fs := by
  rw [bareFields, if_pos hk]

theorem bareFields_of_not (hk : ¬ isBookkeeping k = true) :
    bareFields ((k, v) :: fs) = (k, v.bare) :: bareFields fs := by
  rw [bareFields, if_neg hk]

/-- Entries that are the same without bookkeeping match. -/
theorem matched_of_bareFields {R : Node → Node → Prop} (h : bareFields fs = bareFields gs)
    (hr : ∀ k v w, (k, v) ∈ fs → (k, w) ∈ gs → isBookkeeping k = false → v.bare = w.bare → R v w) :
    Matched R fs gs := by
  induction fs generalizing gs with
  | nil =>
    induction gs with
    | nil => exact .nil
    | cons g gs ih =>
      obtain ⟨k, w⟩ := g
      by_cases hk : isBookkeeping k = true
      · rw [bareFields_of_isBookkeeping hk] at h
        exact .right hk (ih h fun k v w hv => nomatch hv)
      · rw [bareFields_of_not hk] at h
        cases h
  | cons f fs ih =>
    obtain ⟨k, v⟩ := f
    by_cases hk : isBookkeeping k = true
    · rw [bareFields_of_isBookkeeping hk] at h
      exact .left hk (ih h fun k v w hv => hr k v w (List.mem_cons_of_mem _ hv))
    · -- On the other side the entry may stand behind bookkeeping.
      rw [bareFields_of_not hk] at h
      induction gs with
      | nil => cases h
      | cons g gs ihg =>
        obtain ⟨k', w⟩ := g
        by_cases hk' : isBookkeeping k' = true
        · rw [bareFields_of_isBookkeeping hk'] at h
          exact .right hk' (ihg h fun k v w hv hw => hr k v w hv (List.mem_cons_of_mem _ hw))
        · rw [bareFields_of_not hk'] at h
          obtain ⟨e, rest⟩ := List.cons.inj h
          obtain ⟨rfl, same⟩ := Prod.mk.inj e
          refine .both (hr k v w List.mem_cons_self List.mem_cons_self (by simpa using hk) same) ?_
          exact ih rest fun k v w hv hw =>
            hr k v w (List.mem_cons_of_mem _ hv) (List.mem_cons_of_mem _ hw)

/-- The values are the same without bookkeeping. -/
theorem matched_bare (h : bareFields fs = bareFields gs) :
    Matched (fun v w => v.bare = w.bare) fs gs :=
  matched_of_bareFields h fun _ _ _ _ _ _ same => same

/-! ### Mappings seen as a whole -/

/-- The two mappings have the same bookkeeping keys. -/
def SameBookkeeping (fs gs : Fields) : Prop :=
  ∀ name ∈ bookkeepingNames, name ∈ fs.names ↔ name ∈ gs.names

instance (fs gs : Fields) : Decidable (SameBookkeeping fs gs) :=
  inferInstanceAs (Decidable (∀ name ∈ bookkeepingNames, name ∈ fs.names ↔ name ∈ gs.names))

theorem exists_isBookkeeping_iff :
    (∃ f ∈ fs, isBookkeeping f.1 = true) ↔ ∃ name ∈ bookkeepingNames, name ∈ fs.names := by
  simp only [isBookkeeping, List.any_eq_true, Node.isText_iff, Fields.mem_names]
  constructor
  · rintro ⟨⟨k, v⟩, hf, name, hn, rfl⟩
    exact ⟨name, hn, v, hf⟩
  · rintro ⟨name, hn, v, hf⟩
    exact ⟨_, hf, name, hn, rfl⟩

/-- A test of all keys that bookkeeping does not pass has the same outcome for both. -/
theorem all_keys_eq {R : Node → Node → Prop} {p : Node → Bool}
    (hp : ∀ k, isBookkeeping k = true → p k = false) (h : Matched R fs gs)
    (same : SameBookkeeping fs gs) : (fs.all fun f => p f.1) = gs.all fun f => p f.1 := by
  have fails : ∀ {hs : Fields}, (∃ f ∈ hs, isBookkeeping f.1 = true) →
      (hs.all fun f => p f.1) = false := by
    rintro hs ⟨f, hf, hk⟩
    exact List.all_eq_false.2 ⟨f, hf, by simp [hp _ hk]⟩
  have both : (∃ f ∈ fs, isBookkeeping f.1 = true) ↔ ∃ g ∈ gs, isBookkeeping g.1 = true := by
    rw [exists_isBookkeeping_iff, exists_isBookkeeping_iff]
    exact exists_congr fun name => and_congr_right fun hn => same name hn
  by_cases hf : ∃ f ∈ fs, isBookkeeping f.1 = true
  · rw [fails hf, fails (both.1 hf)]
  · have hg := fun h => hf (both.2 h)
    clear same both
    -- Without bookkeeping the keys are the same, one by one.
    induction h with
    | nil => rfl
    | left hk => exact absurd ⟨_, List.mem_cons_self, hk⟩ hf
    | right hk => exact absurd ⟨_, List.mem_cons_self, hk⟩ hg
    | both _ _ ih =>
      rw [List.all_cons, List.all_cons, ih]
      · exact fun ⟨f, hm, hk⟩ => hf ⟨f, List.mem_cons_of_mem _ hm, hk⟩
      · exact fun ⟨g, hm, hk⟩ => hg ⟨g, List.mem_cons_of_mem _ hm, hk⟩

theorem isEmptyMap_map (fs : Fields) : (Node.map fs).isEmptyMap = fs.all fun _ => false := by
  cases fs <;> rfl

section Seen

variable (h : v.bare = w.bare) (same : ∀ fs gs, v = .map fs → w = .map gs → SameBookkeeping fs gs)
include h same

theorem isEmptyMap_eq : v.isEmptyMap = w.isEmptyMap := by
  rcases bare_eq_cases h with ⟨fs, gs, rfl, rfl, e⟩ | ⟨xs, ys, rfl, rfl, -⟩ | ⟨rfl, -⟩
  · rw [isEmptyMap_map, isEmptyMap_map]
    exact all_keys_eq (p := fun _ => false) (fun _ _ => rfl) (matched_bare e) (same _ _ rfl rfl)
  · rfl
  · rfl

theorem isSilent_eq : isSilent v = isSilent w := by
  have empty := isEmptyMap_eq h same
  rcases bare_eq_cases h with ⟨fs, gs, rfl, rfl, -⟩ | ⟨xs, ys, rfl, rfl, -⟩ | ⟨rfl, -⟩
  · exact empty
  · rfl
  · rfl

theorem isPlainString_eq : isPlainString v = isPlainString w := by
  rcases bare_eq_cases h with ⟨fs, gs, rfl, rfl, e⟩ | ⟨xs, ys, rfl, rfl, -⟩ | ⟨rfl, -⟩
  · have matched := matched_bare e
    have type : (Fields.get? fs "type").any (Node.isText "string")
        = (Fields.get? gs "type").any (Node.isText "string") := by
      refine any_eq_of_rel (matched.get? _ (by decide)) fun t u htu => ?_
      rcases bare_eq_cases htu with ⟨_, _, rfl, rfl, -⟩ | ⟨_, _, rfl, rfl, -⟩ | ⟨rfl, -⟩ <;> rfl
    have keys : (fs.all fun f => f.1.isText "type" || f.1.isText "enum")
        = gs.all fun f => f.1.isText "type" || f.1.isText "enum" :=
      all_keys_eq (p := fun k => k.isText "type" || k.isText "enum") (fun k hk => by
        rw [Bool.or_eq_false_iff, ← Bool.not_eq_true, ← Bool.not_eq_true]
        exact ⟨isText_of_isBookkeeping hk (by decide), isText_of_isBookkeeping hk (by decide)⟩)
        matched (same _ _ rfl rfl)
    rw [isPlainString, isPlainString, type, keys]
  · rfl
  · rfl

end Seen

/-! ### Where the rules see bookkeeping -/

/-- A place at which a rule looks at a mapping as a whole. -/
inductive Exposed : Pointer → Prop
  | properties (p : Pointer) : Exposed (p ++ [.key (.str "properties")])
  | default (p : Pointer) : Exposed (p ++ [.key (.str "default")])
  | alternative (p : Pointer) (i : Nat) : Exposed (p ++ [.key (.str "anyOf"), .index i])

/-- Mappings at the same exposed place of two documents have the same bookkeeping keys.  What is
below a bookkeeping entry does not count. -/
def SameExposed (x y : Node) : Prop :=
  ∀ p fs gs, Exposed p → (∀ k, Step.key k ∈ p → isBookkeeping k = false) →
    x.Leads p (.map fs) → y.Leads p (.map gs) → SameBookkeeping fs gs

theorem Exposed.cons {p : Pointer} (h : Exposed p) (s : Step) : Exposed (s :: p) := by
  cases h with
  | properties p => exact .properties (s :: p)
  | default p => exact .default (s :: p)
  | alternative p i => exact .alternative (s :: p) i

theorem not_exposed_nil : ¬ Exposed [] := by
  intro h
  generalize e : ([] : Pointer) = p at h
  cases h <;> simp at e

theorem SameExposed.value (h : SameExposed (.map fs) (.map gs)) (hv : (k, v) ∈ fs)
    (hw : (k, w) ∈ gs) (hk : isBookkeeping k = false) : SameExposed v w := by
  intro p fs' gs' exposed plain hf hg
  refine h _ _ _ (exposed.cons (.key k)) (fun k' hk' => ?_) (.key hv hf) (.key hw hg)
  rcases List.mem_cons.1 hk' with e | hk'
  · obtain rfl := Step.key.inj e
    exact hk
  · exact plain k' hk'

theorem SameExposed.item (h : SameExposed (.list xs) (.list ys)) (hx : xs[i]? = some x)
    (hy : ys[i]? = some y) : SameExposed x y := by
  intro p fs' gs' exposed plain hf hg
  refine h _ _ _ (exposed.cons (.index i)) (fun k' hk' => ?_) (.index hx hf) (.index hy hg)
  exact plain k' ((List.mem_cons.1 hk').resolve_left nofun)

/-- The values at an exposed place are the same without bookkeeping, and if they are mappings they
have the same bookkeeping keys. -/
theorem rel_of_exposed {name : String} (e : bareFields fs = bareFields gs)
    (h : SameExposed (.map fs) (.map gs)) (exposed : Exposed [.key (.str name)])
    (hn : isBookkeeping (.str name) = false) :
    Option.Rel (fun v w => v.bare = w.bare ∧
        ∀ as bs, v = .map as → w = .map bs → SameBookkeeping as bs)
      (fs.get? name) (gs.get? name) := by
  have rel := (matched_bare e).get? _ hn
  rcases hf : fs.get? name with - | v <;> rcases hg : gs.get? name with - | w <;> rw [hf, hg] at rel
  · exact .none
  · cases rel
  · cases rel
  · cases rel with
    | some same =>
      refine .some ⟨same, ?_⟩
      rintro as bs rfl rfl
      refine h _ _ _ exposed (fun k hk => ?_) (.key (mem_of_get? hf) .here)
        (.key (mem_of_get? hg) .here)
      obtain rfl := Step.key.inj (List.mem_singleton.1 hk)
      exact hn

/-- Alternatives that are the same without bookkeeping are plain strings on both sides or on
neither. -/
theorem map_isPlainString_eq (h : as.map bare = bs.map bare)
    (same : ∀ (i : Nat) fs gs, as[i]? = some (.map fs) → bs[i]? = some (.map gs) →
      SameBookkeeping fs gs) : as.map isPlainString = bs.map isPlainString := by
  refine List.ext_getElem? fun i => ?_
  have item := congrArg (·[i]?) h
  simp only [List.getElem?_map] at item ⊢
  rcases ha : as[i]? with - | a <;> rcases hb : bs[i]? with - | b <;>
    simp only [ha, hb, Option.map_none, Option.map_some, reduceCtorEq, Option.some.injEq] at item
  · rfl
  · refine congrArg some (isPlainString_eq item ?_)
    rintro fs gs rfl rfl
    exact same i fs gs ha hb

/-- Mappings that are the same without bookkeeping look the same to the rules if their exposed
parts have the same bookkeeping keys. -/
theorem sameSight_of_bare_eq (e : bareFields fs = bareFields gs)
    (h : SameExposed (.map fs) (.map gs)) : SameSight fs gs where
  properties :=
    all_eq_of_rel (rel_of_exposed e h (.properties []) (by decide))
      fun _ _ hr => isEmptyMap_eq hr.1 hr.2
  default :=
    any_eq_of_rel (rel_of_exposed e h (.default []) (by decide)) fun _ _ hr => isSilent_eq hr.1 hr.2
  alternatives _ as bs ha hb := by
    have rel := (matched_bare e).get? "anyOf" (by decide)
    rw [ha, hb] at rel
    cases rel with
    | some same =>
      have items := Node.list.inj same
      rw [bareItems_eq_map, bareItems_eq_map] at items
      refine map_isPlainString_eq items fun i fs' gs' hf hg => ?_
      refine h _ _ _ (.alternative [] i) (fun k hk => ?_) (.key (mem_of_get? ha) (.index hf .here))
        (.key (mem_of_get? hb) (.index hg .here))
      simp only [List.nil_append, List.mem_cons, Step.key.injEq, reduceCtorEq, List.not_mem_nil,
        or_false] at hk
      subst hk
      decide

/-- Documents that are the same without bookkeeping are alike if their exposed mappings have the
same bookkeeping keys. -/
theorem alike_of_bare_eq (e : x.bare = y.bare) (h : SameExposed x y) : Alike x y := by
  induction x using Node.parts_induction generalizing y with
  | map fs ih =>
    rcases bare_eq_cases e with ⟨_, gs, e', rfl, bare⟩ | ⟨_, _, e', -⟩ | ⟨-, hm, -⟩
    · obtain rfl := Node.map.inj e'
      refine .map (matched_of_bareFields bare ?_) (sameSight_of_bare_eq bare h)
      exact fun k v w hv hw hk same => ih (k, v) hv same (h.value hv hw hk)
    · cases e'
    · exact absurd rfl (hm fs)
  | list xs ih =>
    rcases bare_eq_cases e with ⟨_, _, e', -⟩ | ⟨_, ys, e', rfl, bare⟩ | ⟨-, -, hl⟩
    · cases e'
    · obtain rfl := Node.list.inj e'
      refine .list (List.forall₂_iff_get.2 ⟨?_, fun i hx hy => ?_⟩)
      · simpa using congrArg List.length bare
      · have item := congrArg (·[i]?) bare
        simp only [List.getElem?_map, List.getElem?_eq_getElem hx, List.getElem?_eq_getElem hy,
          Option.map_some, Option.some.injEq] at item
        exact ih _ (List.getElem_mem hx) item
          (h.item (List.getElem?_eq_getElem hx) (List.getElem?_eq_getElem hy))
    · exact absurd rfl (hl xs)
  | other n hm hl =>
    rcases bare_eq_cases e with ⟨fs, _, rfl, -⟩ | ⟨xs, _, rfl, -⟩ | ⟨rfl, -⟩
    · exact absurd rfl (hm fs)
    · exact absurd rfl (hl xs)
    · exact .other hm hl

/-- **Bookkeeping does not interfere.**  Two documents that are the same without their bookkeeping
entries, and have the same bookkeeping keys at the exposed places, clean to the same: nothing, the
same result, or a fault with the same place and list of types. -/
theorem clean_eq_of_bare_eq (e : x.bare = y.bare) (h : SameExposed x y) : clean x = clean y :=
  cleanAt_of_alike (alike_of_bare_eq e h) []

/-- An object with nothing but bookkeeping among its properties. -/
def notedSchema : Node :=
  .map [(.str "_name_", .str "Pet"), (.str "type", .str "object"),
    (.str "properties", .map [(.str "_required_", .bool true)]),
    (.str "additionalProperties", .bool false)]

/-- The same with other notes, among them a list of types that would be at fault. -/
def renotedSchema : Node :=
  .map [(.str "type", .str "object"), (.str "properties", .map [(.str "_required_", .null)]),
    (.str "_attrs_order_", .map [(.str "type", .list [.str "null"])]),
    (.str "additionalProperties", .bool false)]

theorem clean_eq_of_bare_eq_noted : notedSchema.bare = renotedSchema.bare ∧
    SameExposed notedSchema renotedSchema ∧
    clean notedSchema = clean renotedSchema ∧
    clean renotedSchema = .ok (some (.map [(.str "type", .str "object"),
      (.str "properties", .map []), (.str "additionalProperties", .bool false)])) := by
  have bare : notedSchema.bare = renotedSchema.bare := rfl
  have exposed : SameExposed notedSchema renotedSchema := by
    intro p fs gs exposed plain hx hy
    cases hx with
    | here => exact absurd exposed not_exposed_nil
    | key hk hx =>
      simp only [List.mem_cons, Prod.mk.injEq, List.not_mem_nil, or_false] at hk
      rcases hk with ⟨rfl, rfl⟩ | ⟨rfl, rfl⟩ | ⟨rfl, rfl⟩ | ⟨rfl, rfl⟩
      · exact absurd (plain _ List.mem_cons_self) (by decide)
      · cases hx
      · cases hx with
        | here =>
          cases hy with
          | key hk' hy =>
            simp only [List.mem_cons, Prod.mk.injEq, List.not_mem_nil, or_false, Node.str.injEq,
              String.reduceEq, false_and, true_and, false_or] at hk'
            subst hk'
            cases hy
            decide
        | key hk' =>
          simp only [List.mem_cons, Prod.mk.injEq, List.not_mem_nil, or_false] at hk'
          obtain ⟨rfl, -⟩ := hk'
          exact absurd (plain _ (List.mem_cons_of_mem _ List.mem_cons_self)) (by decide)
      · cases hx
  exact ⟨bare, exposed, clean_eq_of_bare_eq bare exposed, by with_unfolding_all rfl⟩

end Schema

end PlainSchema
