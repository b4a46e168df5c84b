/-
PlainSchema/Proofs/Alike.lean

Two documents that the cleaner cannot tell apart.

The cleaner leaves bookkeeping entries out when it goes down, but the rules have run
by then, and they have seen the mapping with these entries in it.  `SameSight` lists
what a rule looks at besides the entries under its own names, one by one: whether
`properties` and `default` are empty, and which alternatives beside an `enum` are plain
strings.  Two documents are `Alike` if they have the same entries but for bookkeeping,
and the same sight in every mapping.

Each rule makes entries that match out of entries that match (`alike_splitTypes`,
`alike_singleItems`, `alike_dropEmptyDefault`, `alike_mergeEnums`).  The mappings that a
rule makes show nothing else to the rules, so what is put into them need not be watched:
the schemas of a list of items may differ in bookkeeping though they become alternatives.
By induction along the rules two documents that are alike come to the same end
(`cleanAt_of_alike`).
-/
import PlainSchema.Proofs.Cleaning
import PlainSchema.Proofs.Location

namespace PlainSchema

namespace Schema

/-! ### Entries that match -/

/-- The same keys in the same order with related values, bookkeeping entries being passed over on
both sides. -/
inductive Matched (R : Node → Node → Prop) : Fields → Fields → Prop
  | nil : Matched R [] []
  | left {k v fs gs} : isBookkeeping k = true → Matched R fs gs → Matched R ((k, v) :: fs) gs
  | right {k v fs gs} : isBookkeeping k = true → Matched R fs gs → Matched R fs ((k, v) :: gs)
  | both {k v w fs gs} : R v w → Matched R fs gs → Matched R ((k, v) :: fs) ((k, w) :: gs)

theorem isText_of_isBookkeeping {k : Node} {name : String} (hk : isBookkeeping k = true)
    (hn : isBookkeeping (.str name) = false) : ¬ k.isText name = true := by
  intro h
  obtain rfl := Node.isText_iff.1 h
  cases hk.symm.trans hn

namespace Matched

variable {R : Node → Node → Prop} {fs gs : Fields} {v w : Node} (name : String)

theorem get? (h : Matched R fs gs) (hn : isBookkeeping (.str name) = false) :
    Option.Rel R (fs.get? name) (gs.get? name) := by
  induction h with
  | nil => exact .none
  | left hk _ ih => rwa [Fields.get?_cons, if_neg (isText_of_isBookkeeping hk hn)]
  | right hk _ ih => rwa [Fields.get?_cons, if_neg (isText_of_isBookkeeping hk hn)]
  | both hr _ ih =>
    rw [Fields.get?_cons, Fields.get?_cons]
    split
    · exact .some hr
    · exact ih

theorem put (h : Matched R fs gs) (hn : isBookkeeping (.str name) = false) (hr : R v w) :
    Matched R (fs.put name v) (gs.put name w) := by
  induction h with
  | nil => exact .both hr .nil
  | left hk _ ih =>
    rw [Fields.put_cons, if_neg (isText_of_isBookkeeping hk hn)]
    exact .left hk ih
  | right hk _ ih =>
    rw [Fields.put_cons (v := w), if_neg (isText_of_isBookkeeping hk hn)]
    exact .right hk ih
  | both hr' hm ih =>
    rw [Fields.put_cons, Fields.put_cons]
    split
    · exact .both hr hm
    · exact .both hr' ih

theorem erase (h : Matched R fs gs) (hn : isBookkeeping (.str name) = false) :
    Matched R (fs.erase name) (gs.erase name) := by
  induction h with
  | nil => exact .nil
  | left hk _ ih =>
    rw [Fields.erase_cons, if_neg (isText_of_isBookkeeping hk hn)]
    exact .left hk ih
  | right hk _ ih =>
    rw [Fields.erase_cons, if_neg (isText_of_isBookkeeping hk hn)]
    exact .right hk ih
  | both hr _ ih =>
    rw [Fields.erase_cons, Fields.erase_cons]
    split
    · exact ih
    · exact .both hr ih

end Matched

/-! ### Documents that are alike -/

/-- What the rules see of a mapping besides the entries under their names. -/
structure SameSight (fs gs : Fields) : Prop where
  properties : (fs.get? "properties").all Node.isEmptyMap
    = (gs.get? "properties").all Node.isEmptyMap
  default : (fs.get? "default").any isSilent = (gs.get? "default").any isSilent
  alternatives : fs.HasList "enum" → ∀ as bs, fs.get? "anyOf" = some (.list as) →
    gs.get? "anyOf" = some (.list bs) → as.map isPlainString = bs.map isPlainString

/-- Two nodes are the same but for bookkeeping entries that no rule can see. -/
inductive Alike : Node → Node → Prop
  | map {fs gs} : Matched Alike fs gs → SameSight fs gs → Alike (.map fs) (.map gs)
  | list {xs ys} : List.Forall₂ Alike xs ys → Alike (.list xs) (.list ys)
  | other {n} : (∀ fs, n ≠ .map fs) → (∀ xs, n ≠ .list xs) → Alike n n

variable {fs gs : Fields} {n m v w : Node} {xs ys types types' : List Node} {path : Pointer}
  {text : String}

namespace Alike

theorem isText_eq (h : Alike n m) (text : String) : n.isText text = m.isText text := by
  cases h <;> rfl

theorem eq_str (h : Alike (.str text) m) : m = .str text := by
  cases h
  rfl

theorem eq_bool_iff (h : Alike n m) {b : Bool} : n = .bool b ↔ m = .bool b := by
  cases h with
  | map | list => exact iff_of_false nofun nofun
  | other => rfl

theorem listsText_eq (h : Alike n m) (text : String) : n.listsText text = m.listsText text := by
  cases h with
  | list h =>
    rw [Node.listsText, Node.listsText]
    induction h with
    | nil => rfl
    | cons hx _ ih => rw [List.any_cons, List.any_cons, hx.isText_eq, ih]
  | _ => rfl

end Alike

/-! ### What is the same for a rule -/

theorem any_eq_of_rel {R : Node → Node → Prop} {p : Node → Bool} {a b : Option Node}
    (h : Option.Rel R a b) (hp : ∀ v w, R v w → p v = p w) : a.any p = b.any p := by
  cases h with
  | some hr => exact hp _ _ hr
  | none => rfl

theorem all_eq_of_rel {R : Node → Node → Prop} {p : Node → Bool} {a b : Option Node}
    (h : Option.Rel R a b) (hp : ∀ v w, R v w → p v = p w) : a.all p = b.all p := by
  cases h with
  | some hr => exact hp _ _ hr
  | none => rfl

theorem declares_eq (h : Matched Alike fs gs) (name : String) :
    declares fs name = declares gs name := by
  have lists : ∀ {keyword}, isBookkeeping (.str keyword) = false →
      (fs.get? keyword).any (·.listsText name) = (gs.get? keyword).any (·.listsText name) :=
    fun hn => any_eq_of_rel (h.get? _ hn) fun v w hr => hr.listsText_eq name
  have type : (fs.get? "type").any (fun t => t.isText name || t.listsText name)
      = (gs.get? "type").any (fun t => t.isText name || t.listsText name) :=
    any_eq_of_rel (h.get? _ (by decide)) fun v w hr => by rw [hr.isText_eq, hr.listsText_eq]
  rw [declares, declares, type, lists (by decide), lists (by decide)]

theorem isVacuous_eq (h : Matched Alike fs gs) (sight : SameSight fs gs) :
    isVacuous fs = isVacuous gs := by
  have object : describesObject fs = describesObject gs := declares_eq h "object"
  have additional : ∀ a b : Option Node, Option.Rel Alike a b →
      (a = some (.bool false) ↔ b = some (.bool false)) := by
    rintro _ _ (hr | -)
    · rw [Option.some.injEq, Option.some.injEq, hr.eq_bool_iff]
    · rfl
  have properties : ∀ a : Option Node, a.all Node.isEmptyMap = true ↔
      a = none ∨ a = some (.map []) := by
    rintro (- | v) <;> simp [Node.isEmptyMap_iff]
  rw [Bool.eq_iff_iff, isVacuous_iff, isVacuous_iff, object, ← properties, ← properties,
    sight.properties, additional _ _ (h.get? _ (by decide))]

/-- Under a name there are lists that are alike on both sides, or none on either. -/
theorem lists_or_not (h : Matched Alike fs gs) (name : String)
    (hn : isBookkeeping (.str name) = false) :
    (∃ xs ys, fs.get? name = some (.list xs) ∧ gs.get? name = some (.list ys) ∧
      List.Forall₂ Alike xs ys) ∨
    ¬ fs.HasList name ∧ ¬ gs.HasList name := by
  have rel := h.get? _ hn
  unfold Fields.HasList
  generalize fs.get? name = a at rel
  generalize gs.get? name = b at rel
  rcases rel with hr | -
  · cases hr with
    | map => exact .inr ⟨by simp, by simp⟩
    | list hl => exact .inl ⟨_, _, rfl, rfl, hl⟩
    | other _ hl => exact .inr ⟨by simp [hl], by simp [hl]⟩
  · exact .inr ⟨by simp, by simp⟩

/-! ### The rules, one by one -/

theorem forall₂_describedTypes (h : List.Forall₂ Alike types types') :
    List.Forall₂ Alike (describedTypes types) (describedTypes types') :=
  List.rel_filter (fun t u htu => by simp only [htu.isText_eq]) h

theorem forall₂_typeOnly (h : List.Forall₂ Alike types types') :
    List.Forall₂ Alike (types.map typeOnly) (types'.map typeOnly) :=
  List.rel_map (fun _ _ htu => .map (.both htu .nil) ⟨rfl, rfl, nofun⟩) h

/-- Lists that are alike and hold nothing but null are the same. -/
theorem eq_of_forall_null (h : List.Forall₂ Alike types types')
    (hn : ∀ t ∈ types, t = .str "null") : types = types' := by
  induction h with
  | nil => rfl
  | cons ht _ ih =>
    obtain rfl := hn _ List.mem_cons_self
    rw [ht.eq_str, ih fun t hm => hn t (List.mem_cons_of_mem _ hm)]

theorem Matched.markNullable (h : Matched Alike fs gs) (ht : List.Forall₂ Alike types types') :
    Matched Alike (markNullable types fs) (markNullable types' gs) := by
  have listed : types.any (Node.isText "null") = types'.any (Node.isText "null") :=
    (Alike.list ht).listsText_eq "null"
  rw [Schema.markNullable, Schema.markNullable, listed]
  split
  · exact h.put _ (by decide) (.other nofun nofun)
  · exact h

/-- A list of types is split on both sides, or it is at fault on both. -/
theorem alike_splitTypes (h : Matched Alike fs gs) (path : Pointer) :
    (∃ e, splitTypes? fs path = .error e ∧ splitTypes? gs path = .error e) ∨
    ∃ split split', splitTypes? fs path = .ok split ∧ splitTypes? gs path = .ok split' ∧
      Matched Alike (split.getD fs) (split'.getD gs) := by
  rcases lists_or_not h "type" (by decide) with
    ⟨types, types', hf, hg, ht⟩ | ⟨hf, hg⟩
  · have rest := (h.erase "type" (by decide)).markNullable ht
    have left := forall₂_describedTypes ht
    rw [splitTypes?, splitTypes?, hf, hg]
    dsimp only
    generalize hd : describedTypes types = ts at left
    generalize describedTypes types' = us at left
    rcases left with - | ⟨htu, - | ⟨htu', hts⟩⟩
    · have same := eq_of_forall_null ht (describedTypes_eq_nil_iff.1 hd)
      exact .inl ⟨_, rfl, by rw [same]⟩
    · exact .inr ⟨_, _, rfl, rfl, rest.put _ (by decide) htu⟩
    · refine .inr ⟨_, _, rfl, rfl, rest.put _ (by decide) (.list ?_)⟩
      exact forall₂_typeOnly (.cons htu (.cons htu' hts))
  · exact .inr ⟨none, none, splitTypes_eq_none hf path, splitTypes_eq_none hg path, h⟩

/-- An array gets one schema for its items on both sides. -/
theorem alike_singleItems (h : Matched Alike fs gs) :
    Matched Alike (applied singleItems? fs) (applied singleItems? gs) := by
  have array : describesArray fs = describesArray gs := declares_eq h "array"
  have put : ∀ {v w}, Alike v w →
      Matched Alike ((fs.erase "items").put "items" v) ((gs.erase "items").put "items" w) :=
    fun hr => (h.erase _ (by decide)).put _ (by decide) hr
  have nothing : Alike (.map []) (.map []) := .map .nil ⟨rfl, rfl, nofun⟩
  unfold applied singleItems?
  rw [array]
  split
  · have rel := h.get? "items" (by decide)
    generalize fs.get? "items" = a at rel ⊢
    generalize gs.get? "items" = b at rel ⊢
    cases rel with
    | none => exact put nothing
    | @some v w hr =>
      cases hr with
      | map => exact h
      | list hl =>
        rcases hl with - | ⟨hx, - | ⟨hx', hxs⟩⟩
        · exact put nothing
        · exact put hx
        · -- No rule looks at alternatives that have no `enum` beside them.
          exact put (.map (.both (.list (.cons hx (.cons hx' hxs))) .nil) ⟨rfl, rfl, nofun⟩)
      | other _ hl =>
        cases v with
        | list xs => exact absurd rfl (hl xs)
        | _ => exact h
  · exact h

/-- A silent default goes on both sides. -/
theorem alike_dropEmptyDefault (h : Matched Alike fs gs)
    (sight : (fs.get? "default").any isSilent = (gs.get? "default").any isSilent) :
    Matched Alike (applied dropEmptyDefault? fs) (applied dropEmptyDefault? gs) := by
  have object : describesObject fs = describesObject gs := declares_eq h "object"
  unfold applied dropEmptyDefault?
  rw [object, sight]
  split
  · exact h.erase _ (by decide)
  · exact h

theorem forall₂_enumValues (h : Alike n m) : List.Forall₂ Alike (enumValues n) (enumValues m) := by
  cases h with
  | map hm _ =>
    rcases lists_or_not hm "enum" (by decide) with ⟨xs, ys, hf, hg, hl⟩ | ⟨hf, hg⟩
    · rw [enumValues, enumValues, hf, hg]
      exact hl
    · rw [enumValues_of_not_hasList hf, enumValues_of_not_hasList hg]
      exact .nil
  | list => exact .nil
  | other hm _ =>
    cases n with
    | map fs => exact absurd rfl (hm fs)
    | _ => exact .nil

/-- Alternatives that are alike and look alike to the rule. -/
def Alternatives (as bs : List Node) : Prop :=
  List.Forall₂ (fun a b => Alike a b ∧ isPlainString a = isPlainString b) as bs

theorem alternatives_of_map_eq {as bs : List Node} (h : List.Forall₂ Alike as bs)
    (plain : as.map isPlainString = bs.map isPlainString) : Alternatives as bs := by
  induction h with
  | nil => exact .nil
  | cons ha _ ih =>
    obtain ⟨e, plain⟩ := List.cons.inj plain
    exact .cons ⟨ha, e⟩ (ih plain)

theorem Alternatives.mergedValues {as bs outer outer' : List Node} (h : Alternatives as bs)
    (ho : List.Forall₂ Alike outer outer') :
    List.Forall₂ Alike (mergedValues outer as) (mergedValues outer' bs) := by
  have plain : Alternatives (as.filter isPlainString) (bs.filter isPlainString) :=
    List.rel_filter (fun _ _ hab => by simp only [hab.2]) h
  exact List.rel_append ho (List.rel_flatMap plain fun _ _ hab => forall₂_enumValues hab.1)

theorem Alternatives.otherAlternatives {as bs : List Node} (h : Alternatives as bs) :
    List.Forall₂ Alike (otherAlternatives as) (otherAlternatives bs) := by
  have other : Alternatives (Schema.otherAlternatives as) (Schema.otherAlternatives bs) :=
    List.rel_filter (fun _ _ hab => by simp only [hab.2]) h
  exact List.Forall₂.imp (fun _ _ hab => hab.1) other

/-- Enums are joined on both sides. -/
theorem alike_mergeEnums (h : Matched Alike fs gs)
    (sight : fs.HasList "enum" → ∀ as bs, fs.get? "anyOf" = some (.list as) →
      gs.get? "anyOf" = some (.list bs) → as.map isPlainString = bs.map isPlainString) :
    Matched Alike (applied mergeEnums? fs) (applied mergeEnums? gs) := by
  rcases lists_or_not h "enum" (by decide) with ⟨outer, outer', hf, hg, ho⟩ | ⟨hf, hg⟩
  · rcases lists_or_not h "anyOf" (by decide) with ⟨as, bs, haf, hag, ha⟩ | ⟨haf, hag⟩
    · have alternatives := alternatives_of_map_eq ha (sight ⟨outer, hf⟩ as bs haf hag)
      have merged := alternatives.mergedValues ho
      have kept := alternatives.otherAlternatives
      have rest := h.erase "anyOf" (by decide)
      unfold applied mergeEnums?
      rw [hf, hg, haf, hag]
      dsimp only
      generalize Schema.otherAlternatives as = ks at kept
      generalize Schema.otherAlternatives bs = ls at kept
      rcases kept with - | ⟨hk, hks⟩
      · exact (rest.put _ (by decide) (.list merged)).put _ (by decide) (.other nofun nofun)
      · have strings : Alike (stringEnum (Schema.mergedValues outer as))
            (stringEnum (Schema.mergedValues outer' bs)) :=
          .map (.both (.other nofun nofun) (.both (.list merged) .nil))
            ⟨rfl, rfl, fun _ _ _ e => nomatch e⟩
        exact ((rest.erase _ (by decide)).erase _ (by decide)).put _ (by decide)
          (.list (.cons strings (.cons hk hks)))
    · rw [mergeEnums_eq_self fun hl => haf hl.2, mergeEnums_eq_self fun hl => hag hl.2]
      exact h
  · rw [mergeEnums_eq_self fun hl => hf hl.1, mergeEnums_eq_self fun hl => hg hl.1]
    exact h

/-- **The rules cannot tell them apart**: what they leave matches, or they fail with the same
fault. -/
theorem alike_applyRules (h : Matched Alike fs gs) (sight : SameSight fs gs) (path : Pointer) :
    (∃ e, applyRules fs path = .error e ∧ applyRules gs path = .error e) ∨
    ∃ fs' gs', applyRules fs path = .ok fs' ∧ applyRules gs path = .ok gs' ∧
      Matched Alike fs' gs' := by
  unfold applyRules
  rcases alike_splitTypes h path with ⟨e, hf, hg⟩ | ⟨split, split', hf, hg, matched⟩ <;>
    rw [hf, hg]
  · exact .inl ⟨e, rfl, rfl⟩
  · refine .inr ⟨_, _, rfl, rfl, ?_⟩
    -- The entries that a later rule looks at are still those of the mapping.
    have same : ∀ name, name ≠ "type" → name ≠ "nullable" → name ≠ "oneOf" →
        (split.getD fs).get? name = fs.get? name ∧ (split'.getD gs).get? name = gs.get? name :=
      fun _ ht hn ho => ⟨get?_getD_splitTypes hf ht hn ho, get?_getD_splitTypes hg ht hn ho⟩
    have items := alike_singleItems matched
    have default := alike_dropEmptyDefault items (by
      rw [get?_applied_singleItems (by decide), get?_applied_singleItems (by decide)]
      have d := same "default" (by decide) (by decide) (by decide)
      rw [d.1, d.2]
      exact sight.default)
    refine alike_mergeEnums default ?_
    have e := same "enum" (by decide) (by decide) (by decide)
    have a := same "anyOf" (by decide) (by decide) (by decide)
    rw [Fields.HasList]
    simp only [get?_applied_dropEmptyDefault, get?_applied_singleItems, ne_eq, String.reduceEq,
      not_false_eq_true, e.1, a.1, a.2]
    exact sight.alternatives

/-! ### The whole cleaning -/

theorem keep_cons_of_none {α β ε : Type} {f : α → Except ε (Option β)} {x : α} {xs : List α}
    (h : f x = .ok none) : keep f (x :: xs) = keep f xs := by
  rw [keep, h]
  rcases keep f xs with e | ys <;> rfl

theorem cleanField_of_isBookkeeping {k : Node} (h : isBookkeeping k = true) :
    cleanField path (k, v) = .ok none := by
  rw [cleanField, if_pos h]

/-- Entries that match come to the same end if their values do. -/
theorem keep_cleanField_eq {R : Node → Node → Prop} (h : Matched R fs gs)
    (values : ∀ f ∈ fs, ∀ w, R f.2 w → ∀ path, cleanAt f.2 path = cleanAt w path) :
    keep (cleanField path) fs = keep (cleanField path) gs := by
  induction h with
  | nil => rfl
  | left hk _ ih =>
    rw [keep_cons_of_none (cleanField_of_isBookkeeping hk)]
    exact ih fun f hf => values f (List.mem_cons_of_mem _ hf)
  | right hk _ ih =>
    rw [keep_cons_of_none (x := (_, _)) (cleanField_of_isBookkeeping hk)]
    exact ih values
  | @both k v w fs gs hr _ ih =>
    have head : cleanField path (k, v) = cleanField path (k, w) := by
      rw [cleanField, cleanField, values _ List.mem_cons_self w hr]
    rw [keep, keep, head, ih fun f hf => values f (List.mem_cons_of_mem _ hf)]

/-- So do items. -/
theorem keep_cleanItem_eq (h : List.Forall₂ Alike xs ys)
    (items : ∀ x ∈ xs, ∀ y, Alike x y → ∀ path, cleanAt x path = cleanAt y path) (start : Nat) :
    keep (cleanItem path) (xs.zipIdx start) = keep (cleanItem path) (ys.zipIdx start) := by
  induction h generalizing start with
  | nil => rfl
  | @cons x y xs ys hx _ ih =>
    have head : cleanItem path (x, start) = cleanItem path (y, start) :=
      items x List.mem_cons_self y hx _
    rw [List.zipIdx_cons, List.zipIdx_cons, keep, keep, head,
      ih fun x hx => items x (List.mem_cons_of_mem _ hx)]

/-- **Documents that are alike come to the same end**, with the same result or the same fault. -/
theorem cleanAt_of_alike (h : Alike n m) (path : Pointer) : cleanAt n path = cleanAt m path := by
  induction n using cleaning_induction generalizing m path with
  | map fs ih =>
    cases h with
    | map matched sight =>
      rw [cleanAt_map, cleanAt_map, isVacuous_eq matched sight]
      split
      · rfl
      · rcases alike_applyRules matched sight path with ⟨e, hf, hg⟩ | ⟨fs', gs', hf, hg, left⟩
        · rw [hf, hg]
        · rw [hf, hg, Except.bind, Except.bind,
            keep_cleanField_eq left fun f hm w hr path => ih hf f hm hr path]
    | other hm => exact absurd rfl (hm fs)
  | list xs ih =>
    cases h with
    | list items =>
      rw [cleanAt_list, cleanAt_list,
        keep_cleanItem_eq items (fun x hx y hr path => ih x hx hr path) 0]
    | other _ hl => exact absurd rfl (hl xs)
  | other n hm hl =>
    cases h with
    | map => exact absurd rfl (hm _)
    | list => exact absurd rfl (hl _)
    | other => rfl

end Schema

end PlainSchema
