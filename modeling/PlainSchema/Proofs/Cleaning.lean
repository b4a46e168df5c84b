/-
PlainSchema/Proofs/Cleaning.lean

Cleaning as a relation between a document and what it cleans to.

The cleaner carries the place of the node it is at, and uses it for nothing but the
fault that it may end in.  `cleanAt_append` says so; since then `clean` is enough,
and no place occurs in `clean_map_iff` and `clean_list_iff`, which say what becomes
of a mapping and of a list.

The values a rule leaves behind are smaller than the mapping, but need not be parts
of it.  `cleaning_induction` is induction along that order, and
`everywhere_clean` uses it once for all: what holds of every mapping of a document
and of those the rules make brings about what holds of every mapping of the result,
if one mapping's step does.
-/
import Mathlib.Data.List.Forall2
import PlainSchema.Schema.Clean
import PlainSchema.Proofs.Rules

namespace PlainSchema

variable {α β γ ε ε' : Type}

theorem map_eq_ok_iff {f : α → β} {a : Except ε α} {y : β} :
    a.map f = .ok y ↔ ∃ x, a = .ok x ∧ f x = y := by
  cases a <;> simp [Except.map]

theorem bind_eq_ok_iff {f : α → Except ε β} {a : Except ε α} {y : β} :
    a.bind f = .ok y ↔ ∃ x, a = .ok x ∧ f x = .ok y := by
  cases a <;> simp [Except.bind]

namespace Schema

/-! ### Members that are kept -/

/-- `ys` is what is left of `xs` if each member becomes what `R` says, those that become nothing
being dropped. -/
inductive Kept (R : α → Option β → Prop) : List α → List β → Prop
  | nil : Kept R [] []
  | dropped {x xs ys} : R x none → Kept R xs ys → Kept R (x :: xs) ys
  | kept {x y xs ys} : R x (some y) → Kept R xs ys → Kept R (x :: xs) (y :: ys)

theorem keep_eq_ok_iff {f : α → Except ε (Option β)} {xs : List α} {ys : List β} :
    keep f xs = .ok ys ↔ Kept (fun x r => f x = .ok r) xs ys := by
  constructor
  · intro h
    induction xs generalizing ys with
    | nil =>
      obtain rfl := Except.ok.inj h
      exact .nil
    | cons x xs ih =>
      rw [keep] at h
      rcases hx : f x with e | r <;> rw [hx] at h
      · cases h
      rcases hxs : keep f xs with e | zs <;> rw [hxs] at h
      · cases h
      obtain rfl := Except.ok.inj h
      cases r with
      | none => exact .dropped hx (ih hxs)
      | some y => exact .kept hx (ih hxs)
  · intro h
    induction h with
    | nil => rfl
    | dropped hx _ ih => simp only [keep, hx, ih, Option.toList_none, List.nil_append]
    | kept hx _ ih => simp only [keep, hx, ih, Option.toList_some, List.singleton_append]

namespace Kept

variable {R : α → Option β → Prop} {xs : List α} {ys : List β}

theorem exists_of_mem (h : Kept R xs ys) {y : β} (hy : y ∈ ys) : ∃ x ∈ xs, R x (some y) := by
  induction h with
  | nil => cases hy
  | dropped _ _ ih =>
    obtain ⟨x, hx, hr⟩ := ih hy
    exact ⟨x, List.mem_cons_of_mem _ hx, hr⟩
  | kept hr _ ih =>
    rcases List.mem_cons.1 hy with rfl | hy
    · exact ⟨_, List.mem_cons_self, hr⟩
    · obtain ⟨x, hx, hr⟩ := ih hy
      exact ⟨x, List.mem_cons_of_mem _ hx, hr⟩

theorem dropped_or_kept (h : Kept R xs ys) {x : α} (hx : x ∈ xs) :
    R x none ∨ ∃ y ∈ ys, R x (some y) := by
  induction h with
  | nil => cases hx
  | dropped hr _ ih =>
    rcases List.mem_cons.1 hx with rfl | hx
    · exact .inl hr
    · exact ih hx
  | kept hr _ ih =>
    rcases List.mem_cons.1 hx with rfl | hx
    · exact .inr ⟨_, List.mem_cons_self, hr⟩
    · rcases ih hx with hn | ⟨y, hy, hr⟩
      · exact .inl hn
      · exact .inr ⟨y, List.mem_cons_of_mem _ hy, hr⟩

theorem length_le (h : Kept R xs ys) : ys.length ≤ xs.length := by
  induction h with
  | nil => exact Nat.le_refl _
  | dropped _ _ ih => exact Nat.le_succ_of_le ih
  | kept _ _ ih => exact Nat.succ_le_succ ih

/-- If as many members are left as there were, none was dropped. -/
theorem forall₂ (h : Kept R xs ys) (hl : xs.length ≤ ys.length) :
    List.Forall₂ (fun x y => R x (some y)) xs ys := by
  induction h with
  | nil => exact .nil
  | dropped _ hk _ => exact absurd (Nat.le_trans hl hk.length_le) (Nat.not_succ_le_self _)
  | kept hr _ ih => exact .cons hr (ih (Nat.le_of_succ_le_succ hl))

/-- If no member becomes nothing, none was dropped. -/
theorem forall₂_of_not_none (h : Kept R xs ys) (hn : ∀ x ∈ xs, ¬ R x none) :
    List.Forall₂ (fun x y => R x (some y)) xs ys := by
  induction h with
  | nil => exact .nil
  | dropped hr _ _ => exact absurd hr (hn _ List.mem_cons_self)
  | kept hr _ ih => exact .cons hr (ih fun x hx => hn x (List.mem_cons_of_mem _ hx))

theorem of_map {g : γ → α} {zs : List γ} (h : Kept R (zs.map g) ys) :
    Kept (fun z => R (g z)) zs ys := by
  induction zs generalizing ys with
  | nil => cases h; exact .nil
  | cons z zs ih =>
    cases h with
    | dropped hr hk => exact .dropped hr (ih hk)
    | kept hr hk => exact .kept hr (ih hk)

theorem map {g : γ → α} {zs : List γ} (h : Kept (fun z => R (g z)) zs ys) :
    Kept R (zs.map g) ys := by
  induction h with
  | nil => exact .nil
  | dropped hr _ ih => exact .dropped hr ih
  | kept hr _ ih => exact .kept hr ih

/-- What is left of chosen members, if a member is chosen with what it becomes. -/
theorem filter {p : α → Bool} {q : β → Bool} (h : Kept R xs ys)
    (hpq : ∀ {x y}, R x (some y) → p x = q y) : Kept R (xs.filter p) (ys.filter q) := by
  induction h with
  | nil => exact .nil
  | @dropped x xs ys hr _ ih =>
    rw [List.filter_cons]
    split
    · exact .dropped hr ih
    · exact ih
  | @kept x y xs ys hr _ ih =>
    rw [List.filter_cons, List.filter_cons, hpq hr]
    split
    · exact .kept hr ih
    · exact ih

/-- If a function says what each member becomes, what is left is what it gives. -/
theorem eq_filterMap {f : α → Option β} (h : Kept R xs ys) (hf : ∀ x ∈ xs, ∀ r, R x r → f x = r) :
    ys = xs.filterMap f := by
  induction h with
  | nil => rfl
  | dropped hr _ ih =>
    rw [List.filterMap_cons_none (hf _ List.mem_cons_self _ hr),
      ← ih fun x hx => hf x (List.mem_cons_of_mem _ hx)]
  | kept hr _ ih =>
    rw [List.filterMap_cons_some (hf _ List.mem_cons_self _ hr),
      ← ih fun x hx => hf x (List.mem_cons_of_mem _ hx)]

/-- Every member is kept as it is. -/
theorem refl {R : α → Option α → Prop} {xs : List α} (h : ∀ x ∈ xs, R x (some x)) :
    Kept R xs xs := by
  induction xs with
  | nil => exact .nil
  | cons x xs ih =>
    exact .kept (h x List.mem_cons_self) (ih fun y hy => h y (List.mem_cons_of_mem _ hy))

end Kept

/-! ### Induction along the rules -/

/-- Induction from the values that the rules leave behind to a mapping, and from the items to a
list. -/
@[elab_as_elim]
theorem cleaning_induction {motive : Node → Prop}
    (map : ∀ fs, (∀ {path gs}, applyRules fs path = .ok gs → ∀ f ∈ gs, motive f.2) →
      motive (.map fs))
    (list : ∀ xs, (∀ x ∈ xs, motive x) → motive (.list xs))
    (other : ∀ n, (∀ fs, n ≠ .map fs) → (∀ xs, n ≠ .list xs) → motive n) (n : Node) :
    motive n := by
  -- On the height, which falls from a mapping to whatever the rules leave in it.
  induction h : n.height using Nat.strongRecOn generalizing n with
  | _ bound ih =>
    subst h
    rcases n.map_or_list_or_other with ⟨fs, rfl⟩ | ⟨xs, rfl⟩ | ⟨hm, hl⟩
    · exact map fs fun hr f hf => ih _ (height_lt_of_mem_applyRules hr (k := f.1) hf) _ rfl
    · exact list xs fun x hx => ih _ (height_lt_of_mem_items hx) _ rfl
    · exact other n hm hl

/-! ### The place only labels the fault -/

/-- The fault, seen from further up. -/
def NullOnlyTypes.below (path : Pointer) (e : NullOnlyTypes) : NullOnlyTypes :=
  { e with path := path ++ e.path }

theorem splitTypes_append (fs : Fields) (p q : Pointer) :
    splitTypes? fs (p ++ q) = (splitTypes? fs q).mapError (.below p) := by
  unfold splitTypes?
  split
  · dsimp only
    split <;> rfl
  · rfl

theorem applyRules_append (fs : Fields) (p q : Pointer) :
    applyRules fs (p ++ q) = (applyRules fs q).mapError (.below p) := by
  rw [applyRules, applyRules, splitTypes_append]
  cases splitTypes? fs q <;> rfl

theorem keep_mapError {f : α → Except ε (Option β)} {g : α → Except ε' (Option β)} {h : ε' → ε}
    {xs : List α} (hfg : ∀ x ∈ xs, f x = (g x).mapError h) :
    keep f xs = (keep g xs).mapError h := by
  induction xs with
  | nil => rfl
  | cons x xs ih =>
    rw [keep, keep, hfg x List.mem_cons_self, ih fun y hy => hfg y (List.mem_cons_of_mem _ hy)]
    rcases g x with e | r
    · rfl
    · rcases keep g xs with e | ys <;> rfl

theorem fieldAnswer_mapError (key : Node) (h : NullOnlyTypes → NullOnlyTypes)
    (a : Except NullOnlyTypes (Option Node)) :
    fieldAnswer key (a.mapError h) = (fieldAnswer key a).mapError h := by
  cases a <;> rfl

/-- **The place only labels the fault**: further down the answer is the same, and a fault has the
way there in front of its own. -/
theorem cleanAt_append (n : Node) (p q : Pointer) :
    cleanAt n (p ++ q) = (cleanAt n q).mapError (.below p) := by
  induction n using cleaning_induction generalizing q with
  | map fs ih =>
    rw [cleanAt_map, cleanAt_map, applyRules_append]
    split
    · rfl
    · -- Both runs go through the same entries, so the fault is the only difference.
      rcases hr : applyRules fs q with e | gs
      · rfl
      · show (keep (cleanField (p ++ q)) gs).map _ = ((keep (cleanField q) gs).map _).mapError _
        rw [keep_mapError (g := cleanField q) (h := .below p)]
        · rcases keep (cleanField q) gs with e | kept <;> rfl
        · intro f hf
          unfold cleanField
          split
          · rfl
          · rw [List.append_assoc, ih hr f hf, fieldAnswer_mapError]
  | list xs ih =>
    rw [cleanAt_list, cleanAt_list, keep_mapError (g := cleanItem q) (h := .below p)]
    · rcases keep (cleanItem q) xs.zipIdx with e | kept <;> rfl
    · intro x hx
      rw [cleanItem, List.append_assoc, ih x.1 (List.fst_mem_of_mem_zipIdx hx)]
      rfl
  | other n hm hl => rw [cleanAt_other hm hl, cleanAt_other hm hl]; rfl

theorem cleanAt_eq_ok_iff {n : Node} {path : Pointer} {r : Option Node} :
    cleanAt n path = .ok r ↔ clean n = .ok r := by
  have := cleanAt_append n path []
  rw [List.append_nil] at this
  rw [this, clean]
  rcases cleanAt n [] with e | r' <;> simp [Except.mapError]

/-! ### What a document cleans to -/

variable {fs gs kept : Fields} {path : Pointer} {n m v w : Node} {xs ys : List Node}
  {name : String} {r : Option Node}

/-- What becomes of an entry: nothing if it is bookkeeping or its value becomes nothing. -/
def EntryCleans (f : Node × Node) : Option (Node × Node) → Prop
  | none => isBookkeeping f.1 = true ∨ clean f.2 = .ok none
  | some g => isBookkeeping f.1 = false ∧ g.1 = f.1 ∧ clean f.2 = .ok (some g.2)

theorem fieldAnswer_eq_ok_iff {k : Node} {a : Except NullOnlyTypes (Option Node)}
    {r : Option (Node × Node)} :
    fieldAnswer k a = .ok r ↔ ∃ x, a = .ok x ∧ x.map (fun v => (k, v)) = r :=
  map_eq_ok_iff

theorem cleanField_eq_ok_iff {f : Node × Node} {r : Option (Node × Node)} :
    cleanField path f = .ok r ↔ EntryCleans f r := by
  obtain ⟨k, v⟩ := f
  unfold cleanField
  by_cases hk : isBookkeeping k = true
  · rw [if_pos hk]
    cases r with
    | none => exact iff_of_true rfl (.inl hk)
    | some g => exact iff_of_false (by simp) fun h => absurd (h.1.symm.trans hk) (by simp)
  · rw [if_neg hk, fieldAnswer_eq_ok_iff]
    simp only [cleanAt_eq_ok_iff]
    cases r with
    | none =>
      constructor
      · rintro ⟨x, hx, h⟩
        cases x with
        | none => exact .inr hx
        | some w => cases h
      · rintro (h | h)
        · exact absurd h hk
        · exact ⟨none, h, rfl⟩
    | some g =>
      constructor
      · rintro ⟨x, hx, h⟩
        cases x with
        | none => cases h
        | some w =>
          obtain rfl := Option.some.inj h
          exact ⟨by simpa using hk, rfl, hx⟩
      · obtain ⟨k', w⟩ := g
        rintro ⟨-, rfl, h⟩
        exact ⟨some w, h, rfl⟩

/-- A mapping becomes nothing if it is vacuous, and otherwise a mapping of what becomes of the
entries that the rules leave behind. -/
theorem clean_map_iff : clean (.map fs) = .ok r ↔
    (isVacuous fs = true ∧ r = none) ∨
    (isVacuous fs = false ∧ ∃ gs, applyRules fs [] = .ok gs ∧
      ∃ kept, Kept EntryCleans gs kept ∧ r = some (.map kept)) := by
  rw [clean, cleanAt_map]
  by_cases hv : isVacuous fs = true
  · simp [hv, eq_comm]
  · rw [if_neg hv, bind_eq_ok_iff]
    rw [Bool.not_eq_true] at hv
    simp only [map_eq_ok_iff, keep_eq_ok_iff, cleanField_eq_ok_iff, hv, Bool.false_eq_true,
      false_and, false_or, true_and, eq_comm (a := r)]

/-- The schema that allows everything stays. -/
theorem clean_nil : clean (.map []) = .ok (some (.map [])) :=
  clean_map_iff.2 (.inr ⟨rfl, [], rfl, [], .nil, rfl⟩)

/-- A list becomes the list of what becomes of its items. -/
theorem clean_list_iff : clean (.list xs) = .ok r ↔
    ∃ ys, Kept (fun x a => clean x = .ok a) xs ys ∧ r = some (.list ys) := by
  -- The indices are in the place only.
  have items : ∀ ys, keep (cleanItem []) xs.zipIdx = .ok ys ↔
      Kept (fun x a => clean x = .ok a) xs ys := by
    intro ys
    rw [keep_eq_ok_iff]
    simp only [cleanItem, cleanAt_eq_ok_iff]
    constructor
    · intro h
      have := h.map (R := fun x a => clean x = .ok a)
      rwa [List.zipIdx_map_fst] at this
    · intro h
      refine Kept.of_map (R := fun x a => clean x = .ok a) (g := Prod.fst) ?_
      rwa [List.zipIdx_map_fst]
  rw [clean, cleanAt_list, map_eq_ok_iff]
  simp only [items, eq_comm (a := r)]

theorem clean_other (hm : ∀ fs, n ≠ .map fs) (hl : ∀ xs, n ≠ .list xs) :
    clean n = .ok (some n) := cleanAt_other hm hl

/-- A node becomes one of its own form: a mapping a mapping, a list a list, and every other value
stays. -/
theorem clean_cases (h : clean n = .ok (some m)) :
    (∃ fs gs, n = .map fs ∧ m = .map gs) ∨
    (∃ xs ys, n = .list xs ∧ m = .list ys ∧ Kept (fun x a => clean x = .ok a) xs ys) ∨
    (m = n ∧ (∀ fs, n ≠ .map fs) ∧ ∀ xs, n ≠ .list xs) := by
  rcases n.map_or_list_or_other with ⟨fs, rfl⟩ | ⟨xs, rfl⟩ | ⟨hm, hl⟩
  · rcases clean_map_iff.1 h with ⟨-, e⟩ | ⟨-, gs, -, kept, -, e⟩
    · cases e
    · exact .inl ⟨fs, kept, rfl, Option.some.inj e⟩
  · obtain ⟨ys, hk, e⟩ := clean_list_iff.1 h
    exact .inr (.inl ⟨xs, ys, rfl, Option.some.inj e, hk⟩)
  · rw [clean_other hm hl] at h
    exact .inr (.inr ⟨(Option.some.inj (Except.ok.inj h)).symm, hm, hl⟩)

/-- What becomes a list was a list. -/
theorem list_of_clean_eq_list (h : clean n = .ok (some (.list ys))) :
    ∃ xs, n = .list xs ∧ Kept (fun x a => clean x = .ok a) xs ys := by
  rcases clean_cases h with ⟨fs, gs, -, e⟩ | ⟨xs, zs, hn, e, hk⟩ | ⟨e, -, hl⟩
  · cases e
  · obtain rfl := Node.list.inj e
    exact ⟨xs, hn, hk⟩
  · exact absurd e.symm (hl ys)

/-- What becomes neither a mapping nor a list was that before. -/
theorem eq_of_clean_eq (h : clean n = .ok (some m)) (hm : ∀ fs, m ≠ .map fs)
    (hl : ∀ xs, m ≠ .list xs) : n = m := by
  rcases clean_cases h with ⟨fs, gs, -, e⟩ | ⟨xs, ys, -, e, -⟩ | ⟨e, -, -⟩
  · exact absurd e (hm gs)
  · exact absurd e (hl ys)
  · exact e.symm

theorem isText_of_clean {text : String} (h : clean n = .ok (some m)) (hm : m.isText text = true) :
    n.isText text = true := by
  obtain rfl := Node.isText_iff.1 hm
  rw [eq_of_clean_eq h (by simp) (by simp)]
  exact hm

theorem listsText_of_clean {text : String} (h : clean n = .ok (some m))
    (hm : m.listsText text = true) : n.listsText text = true := by
  rcases clean_cases h with ⟨fs, gs, -, rfl⟩ | ⟨xs, ys, rfl, rfl, hk⟩ | ⟨rfl, -, -⟩
  · cases hm
  · obtain ⟨y, hy, hm⟩ := List.any_eq_true.1 hm
    obtain ⟨x, hx, hc⟩ := hk.exists_of_mem hy
    exact List.any_eq_true.2 ⟨x, hx, isText_of_clean hc hm⟩
  · exact hm

/-! ### Look-ups before and after -/

/-- Whatever is found in `kept` is what the value found in `gs` becomes. -/
def Traced (gs kept : Fields) : Prop :=
  ∀ name w, kept.get? name = some w → ∃ v, gs.get? name = some v ∧ clean v = .ok (some w)

/-- An entry that is left comes from one of the same key. -/
theorem exists_entry (h : Kept EntryCleans gs kept) (hw : (Node.str name, w) ∈ kept) :
    ∃ v, (Node.str name, v) ∈ gs ∧ clean v = .ok (some w) := by
  obtain ⟨⟨k, v⟩, hf, -, hk, hc⟩ := h.exists_of_mem hw
  obtain rfl : Node.str name = k := hk
  exact ⟨v, hf, hc⟩

theorem traced_of_distinct (hd : gs.Distinct) (h : Kept EntryCleans gs kept) : Traced gs kept := by
  intro name w hw
  obtain ⟨v, hv, hc⟩ := exists_entry h (mem_of_get? hw)
  exact ⟨v, hd.get?_eq_some_iff.2 hv, hc⟩

namespace Traced

/-- What is neither a mapping nor a list was found before, too. -/
theorem get?_eq (h : Traced gs kept) (hm : ∀ fs, w ≠ .map fs) (hl : ∀ xs, w ≠ .list xs)
    (hw : kept.get? name = some w) : gs.get? name = some w := by
  obtain ⟨v, hv, hc⟩ := h name w hw
  rwa [eq_of_clean_eq hc hm hl] at hv

theorem hasList (h : Traced gs kept) (hl : kept.HasList name) : gs.HasList name := by
  obtain ⟨ys, hy⟩ := hl
  obtain ⟨v, hv, hc⟩ := h name _ hy
  obtain ⟨xs, rfl, -⟩ := list_of_clean_eq_list hc
  exact ⟨xs, hv⟩

theorem declares (h : Traced gs kept) (hd : Schema.declares kept name = true) :
    Schema.declares gs name = true := by
  rw [declares_iff] at hd ⊢
  rcases hd with ⟨w, hw, hd⟩ | ⟨w, hw, hd⟩ | ⟨w, hw, hd⟩
  · obtain ⟨v, hv, hc⟩ := h _ w hw
    exact .inl ⟨v, hv, hd.imp (isText_of_clean hc) (listsText_of_clean hc)⟩
  · obtain ⟨v, hv, hc⟩ := h _ w hw
    exact .inr (.inl ⟨v, hv, listsText_of_clean hc hd⟩)
  · obtain ⟨v, hv, hc⟩ := h _ w hw
    exact .inr (.inr ⟨v, hv, listsText_of_clean hc hd⟩)

end Traced

/-! ### From every mapping to every mapping -/

/-- **What holds of every mapping of a cleaned document**: `Q`, if every mapping of the document
has a property `P` that those made by the rules have as well, and if `P` brings about `Q` in one
mapping's step. -/
theorem everywhere_clean {P Q : Fields → Prop} (closed : RuleClosed P)
    (step : ∀ {fs gs kept}, (Node.map fs).Everywhere P → isVacuous fs = false →
      applyRules fs [] = .ok gs → Kept EntryCleans gs kept → Q kept)
    (hn : n.Everywhere P) (h : clean n = .ok (some m)) : m.Everywhere Q := by
  induction n using cleaning_induction generalizing m with
  | map fs ih =>
    rcases clean_map_iff.1 h with ⟨-, e⟩ | ⟨hv, gs, hr, kept, hk, e⟩
    · cases e
    · obtain rfl := Option.some.inj e
      refine Node.everywhere_map.2 ⟨step hn hv hr hk, fun g hg => ?_⟩
      obtain ⟨f, hf, -, -, hc⟩ := hk.exists_of_mem hg
      exact ih hr f hf (everywhere_applyRules closed hn hr hf) hc
  | list xs ih =>
    obtain ⟨ys, hk, e⟩ := clean_list_iff.1 h
    obtain rfl := Option.some.inj e
    rw [Node.everywhere_list] at hn ⊢
    intro y hy
    obtain ⟨x, hx, hc⟩ := hk.exists_of_mem hy
    exact ih x hx (hn x hx) hc
  | other n hm hl =>
    rw [clean_other hm hl] at h
    obtain rfl := Option.some.inj (Except.ok.inj h)
    exact Node.everywhere_of_not_map_list hm hl

end Schema

end PlainSchema
