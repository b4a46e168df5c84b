/-
PlainSchema/Proofs/Noting.lean

The cleaner as it runs, and what its answer has to do with the place.

A note is made of a list of types before it is split, and needs the text of the place.
`cleanNotingAt_map`, `cleanNotingAt_list` and `cleanNotingAt_other` are the recursion of
the cleaner with its notes: at each mapping that is not dropped comes its own list of
types, then what the rules leave.

So the place is more than a label.  As long as it has a text, the answer is the one at
the root, but for the way there (`cleanNotingAt_append`).  Behind an integer of too
many digits the cleaner gets as far as the first list of types that it comes to
(`Meets`), and ends there without a word about the types.
-/
import Mathlib.Algebra.Group.Nat.Defs
import PlainSchema.Proofs.Origins
import PlainSchema.Proofs.Spelling
import PlainSchema.Schema.Noting

namespace PlainSchema

variable {α β ε : Type}

/-! ### Places with a text -/

namespace Pointer

theorem hasText_append (p q : Pointer) : (p ++ q).hasText = (p.hasText && q.hasText) :=
  List.all_append

theorem hasText_singleton (s : Step) : Pointer.hasText [s] = s.hasText := Bool.and_true _

end Pointer

theorem length_toString_le_iff (n : Nat) :
    (toString n).length ≤ Text.digitLimit ↔ n < 10 ^ Text.digitLimit := by
  rw [← String.length_toList, toList_toString]
  exact Nat.length_toDigits_le_iff (by decide) (by decide)

/-- An index has a text unless its digits are too many. -/
theorem Step.hasText_index_iff (n : Nat) :
    (Step.index n).hasText = true ↔ n < 10 ^ Text.digitLimit := by
  rw [Step.hasText, decide_eq_true_iff, length_toString_le_iff]

/-- An integer for a key has a text unless its digits are too many. -/
theorem Step.hasText_int_iff (i : Int) :
    (Step.key (.int i)).hasText = true ↔ i.natAbs < 10 ^ Text.digitLimit := by
  rw [Step.hasText, Node.hasLongInteger, ← length_toString_le_iff, Bool.not_eq_true',
    decide_eq_false_iff_not, Nat.not_lt]

namespace Schema

variable {n x : Node} {fs gs : Fields} {p q : Pointer} {types : List Node} {e : NullOnlyTypes}
  {o : Obstacle} {r : Option Node}

/-! ### Notes before an answer -/

theorem noting_append (ss ts : List Split) (a : Except NullOnlyTypes α) :
    noting (ss ++ ts) a = (noting ss (.ok ())).bind fun _ => noting ts a := by
  unfold noting
  rw [List.find?_append]
  rcases ss.find? _ with - | s <;> rfl

theorem noting_map (ss : List Split) (a : Except NullOnlyTypes α) (f : α → β) :
    noting ss (a.map f) = (noting ss a).map f := by
  unfold noting
  rcases ss.find? _ with - | s
  · rcases a with e | r <;> rfl
  · rfl

/-- With its notes made, an answer is what it is without them. -/
theorem noting_eq_ok_iff {ss : List Split} {a : Except NullOnlyTypes α} {r : α} :
    noting ss a = .ok r ↔ (∀ s ∈ ss, s.path.hasText = true) ∧ a = .ok r := by
  unfold noting
  rcases h : ss.find? _ with - | s
  · have all : ∀ s ∈ ss, s.path.hasText = true := by simpa using h
    rw [and_iff_right all]
    rcases a with e | r' <;> simp [Except.mapError]
  · refine iff_of_false nofun fun ⟨all, _⟩ => ?_
    have untold := List.find?_some (p := fun s : Split => !s.path.hasText) h
    rw [all s (List.mem_of_find?_eq_some h)] at untold
    cases untold

/-- What is cleaned with notes is cleaned. -/
theorem clean_of_cleanNotingAt (h : cleanNotingAt n p = .ok r) : clean n = .ok r :=
  cleanAt_eq_ok_iff.1 (noting_eq_ok_iff.1 h).2

/-- The fault that is told is the answer's own. -/
theorem eq_error_of_noting_eq_types {ss : List Split} {a : Except NullOnlyTypes α}
    (h : noting ss a = .error (.types e)) : a = .error e := by
  unfold noting at h
  split at h
  · cases h
  · rcases a with e' | r
    · have h : e'.obstacle = .types e := Except.error.inj h
      unfold NullOnlyTypes.obstacle at h
      split at h
      · rw [Obstacle.types.inj h]
      · cases h
    · cases h

/-! ### Splits that end in a fault -/

theorem untilFault_snd {s : α → List Split × Bool} {f : α → Except ε (Option β)} {xs : List α}
    (h : ∀ x ∈ xs, (s x).2 = !(f x).toBool) : (untilFault s xs).2 = !(keep f xs).toBool := by
  induction xs with
  | nil => rfl
  | cons x xs ih =>
    have hx := h x List.mem_cons_self
    have hxs := ih fun y hy => h y (List.mem_cons_of_mem _ hy)
    rw [untilFault, keep]
    rcases hs : s x with ⟨splits, fault⟩
    rcases hf : f x with e | y <;> rw [hs, hf] at hx <;> obtain rfl : fault = _ := hx
    · rfl
    · refine hxs.trans ?_
      rcases keep f xs with e | ys <;> rfl

theorem splitsOfField_snd {f : Node × Node}
    (h : (splitsAt f.2 (p ++ [.key f.1])).2 = !(cleanAt f.2 (p ++ [.key f.1])).toBool) :
    (splitsOfField p f).2 = !(cleanField p f).toBool := by
  unfold splitsOfField cleanField
  split
  · rfl
  · rw [h]
    rcases cleanAt f.2 _ with e | r <;> rfl

/-- The splits at and below a place end in a fault if and only if the cleaning does. -/
theorem splitsAt_snd (n : Node) (path : Pointer) :
    (splitsAt n path).2 = !(cleanAt n path).toBool := by
  induction n using cleaning_induction generalizing path with
  | map fs ih =>
    rw [splitsAt_map, cleanAt_map]
    split
    · rfl
    · rcases hr : applyRules fs path with e | gs
      · rfl
      · have fields : ∀ f ∈ gs, (splitsOfField path f).2 = !(cleanField path f).toBool :=
          fun f hf => splitsOfField_snd (ih hr f hf _)
        refine (untilFault_snd fields).trans ?_
        show _ = !Except.toBool ((keep (cleanField path) gs).map _)
        rcases keep (cleanField path) gs with e | kept <;> rfl
  | list xs ih =>
    have items : ∀ x ∈ xs.zipIdx, (splitsOfItem path x).2 = !(cleanItem path x).toBool :=
      fun x hx => ih x.1 (List.fst_mem_of_mem_zipIdx hx) _
    rw [splitsAt_list, cleanAt_list, untilFault_snd items]
    rcases keep (cleanItem path) xs.zipIdx with e | kept <;> rfl
  | other n hm hl =>
    rw [splitsAt_other hm hl, cleanAt_other hm hl]
    rfl

/-- The notes of the members come one after the other, each before what is kept of its member. -/
theorem noting_keep {s : α → List Split × Bool} {f : α → Except NullOnlyTypes (Option β)}
    {xs : List α} (h : ∀ x ∈ xs, (s x).2 = !(f x).toBool) :
    noting (untilFault s xs).1 (keep f xs) = keep (fun x => noting (s x).1 (f x)) xs := by
  induction xs with
  | nil => rfl
  | cons x xs ih =>
    have hx := h x List.mem_cons_self
    have hxs := ih fun y hy => h y (List.mem_cons_of_mem _ hy)
    rw [untilFault, keep, keep, ← hxs]
    rcases hs : s x with ⟨splits, fault⟩
    rcases hf : f x with e | y <;> rw [hs, hf] at hx <;> obtain rfl : fault = _ := hx
    · show noting splits (.error e) = _
      unfold noting
      rcases splits.find? _ with - | s <;> rfl
    · calc noting (splits ++ (untilFault s xs).1) _
        _ = (noting splits (.ok ())).bind fun _ => noting (untilFault s xs).1
              ((keep f xs).map (y.toList ++ ·)) := by
            rw [noting_append]
            rcases keep f xs with e | ys <;> rfl
        _ = _ := by
            rw [noting_map]
            generalize noting (untilFault s xs).1 (keep f xs) = more
            unfold noting
            rcases splits.find? _ with - | s
            · rcases more with o | ys <;> rfl
            · rfl

/-! ### The recursion -/

/-- Cleans one entry of a mapping at a place and makes notes. -/
def noteField (path : Pointer) (f : Node × Node) : Except Obstacle (Option (Node × Node)) :=
  if isBookkeeping f.1 then .ok none
  else (cleanNotingAt f.2 (path ++ [.key f.1])).map fun value => value.map fun v => (f.1, v)

/-- Cleans one item of a list at a place and makes notes. -/
def noteItem (path : Pointer) (x : Node × Nat) : Except Obstacle (Option Node) :=
  cleanNotingAt x.1 (path ++ [.index x.2])

/-- Changes a mapping at a place by the rules and makes a note of its own list of types. -/
def noteRules (fs : Fields) (path : Pointer) : Except Obstacle Fields :=
  noting (ownSplit fs path) (applyRules fs path)

theorem ownSplit_of_list (ht : fs.get? "type" = some (.list types)) (path : Pointer) :
    ownSplit fs path = [⟨types, path⟩] := by
  rw [ownSplit, ht]

theorem noting_singleton (types : List Node) (path : Pointer) (a : Except NullOnlyTypes α) :
    noting [⟨types, path⟩] a =
      if path.hasText then a.mapError NullOnlyTypes.obstacle else .error (.place path) := by
  unfold noting
  rcases h : path.hasText <;> simp [h]

/-- A list of nothing but null is a fault whether or not a note of it is made first. -/
theorem noteRules_of_error (h : applyRules fs p = .error e) :
    noteRules fs p = .error e.obstacle := by
  obtain ⟨rfl, ht, -⟩ := applyRules_eq_error_iff.1 h
  rw [noteRules, h, ownSplit_of_list ht, noting_singleton, NullOnlyTypes.obstacle]
  split <;> simp [*, Except.mapError, NullOnlyTypes.obstacle]

theorem noteField_eq (path : Pointer) :
    noteField path = fun f => noting (splitsOfField path f).1 (cleanField path f) := by
  funext f
  unfold noteField splitsOfField cleanField
  split
  · rfl
  · exact (noting_map _ _ _).symm

theorem cleanNotingAt_map (fs : Fields) (path : Pointer) :
    cleanNotingAt (.map fs) path =
      if isVacuous fs then .ok none
      else (noteRules fs path).bind fun gs =>
        (keep (noteField path) gs).map fun kept => some (.map kept) := by
  rw [cleanNotingAt, splitsAt_map, cleanAt_map]
  split
  · rfl
  · rcases hr : applyRules fs path with e | gs
    · rw [noteRules_of_error hr]
      rfl
    · have fields : ∀ f ∈ gs, (splitsOfField path f).2 = !(cleanField path f).toBool :=
        fun f _ => splitsOfField_snd (splitsAt_snd f.2 _)
      show noting (ownSplit fs path ++ _) ((keep (cleanField path) gs).map _) = _
      rw [noting_append, noting_map, noting_keep fields, ← noteField_eq, noteRules, hr]
      unfold noting
      rcases (ownSplit fs path).find? _ with - | s <;> rfl

theorem cleanNotingAt_list (xs : List Node) (path : Pointer) :
    cleanNotingAt (.list xs) path =
      (keep (noteItem path) xs.zipIdx).map fun kept => some (.list kept) := by
  have items : ∀ x ∈ xs.zipIdx, (splitsOfItem path x).2 = !(cleanItem path x).toBool :=
    fun x _ => splitsAt_snd x.1 _
  rw [cleanNotingAt, splitsAt_list, cleanAt_list, noting_map, noting_keep items]
  rfl

theorem cleanNotingAt_other (hm : ∀ fs, n ≠ .map fs) (hl : ∀ xs, n ≠ .list xs) :
    cleanNotingAt n p = .ok (some n) := by
  rw [cleanNotingAt, splitsAt_other hm hl, cleanAt_other hm hl]
  rfl

/-! ### The place in front -/

/-- The obstacle, seen from further up. -/
def Obstacle.below (path : Pointer) : Obstacle → Obstacle
  | .types fault => .types (fault.below path)
  | .place q => .place (path ++ q)

theorem obstacle_below (hp : p.hasText = true) (e : NullOnlyTypes) :
    (e.below p).obstacle = e.obstacle.below p := by
  unfold NullOnlyTypes.obstacle NullOnlyTypes.below
  rw [Pointer.hasText_append, hp, Bool.true_and]
  split <;> rfl

theorem noteRules_append (hp : p.hasText = true) (fs : Fields) (q : Pointer) :
    noteRules fs (p ++ q) = (noteRules fs q).mapError (.below p) := by
  rw [noteRules, noteRules, applyRules_append]
  unfold ownSplit
  split
  · rw [noting_singleton, noting_singleton, Pointer.hasText_append, hp, Bool.true_and]
    split
    · rcases applyRules fs q with e | gs
      · exact congrArg Except.error (obstacle_below hp e)
      · rfl
    · rfl
  · rcases applyRules fs q with e | gs
    · exact congrArg Except.error (obstacle_below hp e)
    · rfl

/-- **At a place with a text the answer is the one at the root**, but for the way there in front of
the place of an obstacle. -/
theorem cleanNotingAt_append (hp : p.hasText = true) (n : Node) (q : Pointer) :
    cleanNotingAt n (p ++ q) = (cleanNotingAt n q).mapError (.below p) := by
  induction n using cleaning_induction generalizing q with
  | map fs ih =>
    rw [cleanNotingAt_map, cleanNotingAt_map, noteRules_append hp]
    split
    · rfl
    · rcases hr : noteRules fs q with o | gs
      · rfl
      · have hr := (noting_eq_ok_iff.1 hr).2
        show (keep (noteField (p ++ q)) gs).map _ = ((keep (noteField q) gs).map _).mapError _
        rw [keep_mapError (g := noteField q) (h := .below p)]
        · rcases keep (noteField q) gs with o | kept <;> rfl
        · intro f hf
          unfold noteField
          split
          · rfl
          · rw [List.append_assoc, ih hr f hf]
            rcases cleanNotingAt f.2 _ with o | r <;> rfl
  | list xs ih =>
    rw [cleanNotingAt_list, cleanNotingAt_list, keep_mapError (g := noteItem q) (h := .below p)]
    · rcases keep (noteItem q) xs.zipIdx with o | kept <;> rfl
    · intro x hx
      rw [noteItem, List.append_assoc, ih x.1 (List.fst_mem_of_mem_zipIdx hx)]
      rfl
  | other n hm hl => rw [cleanNotingAt_other hm hl, cleanNotingAt_other hm hl]; rfl

/-! ### Where the cleaner ends -/

/-- The cleaner comes to a list of types at a place. -/
def Meets (x : Node) (path : Pointer) (types : List Node) : Prop :=
  ∃ fs : Fields, Handled x path (.map fs) ∧ isVacuous fs = false ∧
    fs.get? "type" = some (.list types)

/-- What a list of types at a place can end a cleaning in. -/
inductive Blocks (path : Pointer) (types : List Node) : Obstacle → Prop
  /-- Whatever the types are, no note of them can be made. -/
  | place : path.hasText = false → Blocks path types (.place path)
  | types : path.hasText = true → (∀ t ∈ types, t = .str "null") →
    Blocks path types (.types ⟨path, types⟩)

theorem applyRules_eq_ok_iff (p q : Pointer) :
    applyRules fs (p ++ q) = .ok gs ↔ applyRules fs q = .ok gs := by
  rw [applyRules_append]
  rcases applyRules fs q with e | gs' <;> simp [Except.mapError]

theorem noteRules_eq_error (h : noteRules fs p = .error o) :
    ∃ types, fs.get? "type" = some (.list types) ∧ Blocks p types o := by
  rcases hr : applyRules fs p with e | gs
  · obtain ⟨rfl, ht, hn⟩ := applyRules_eq_error_iff.1 hr
    refine ⟨e.types, ht, ?_⟩
    rw [noteRules_of_error hr] at h
    obtain rfl := Except.error.inj h
    unfold NullOnlyTypes.obstacle
    split
    · exact .types ‹_› hn
    · exact .place (eq_false_of_ne_true ‹_›)
  · rw [noteRules, hr, ownSplit] at h
    split at h
    · next types ht =>
      rw [noting_singleton] at h
      split at h
      · cases h
      · obtain rfl := Except.error.inj h
        exact ⟨types, ht, .place (eq_false_of_ne_true ‹_›)⟩
    · cases h

/-- An obstacle is one of a list of types that the cleaner comes to. -/
theorem exists_meets_of_error (hn : Handled x q n) (h : cleanNotingAt n (p ++ q) = .error o) :
    ∃ q' types, Meets x q' types ∧ Blocks (p ++ q') types o := by
  induction n using cleaning_induction generalizing q with
  | map fs ih =>
    rw [cleanNotingAt_map] at h
    by_cases hv : isVacuous fs = true
    · rw [if_pos hv] at h
      cases h
    rw [if_neg hv] at h
    rw [Bool.not_eq_true] at hv
    rcases hr : noteRules fs (p ++ q) with o' | gs <;> rw [hr] at h
    · obtain rfl : o' = o := Except.error.inj h
      obtain ⟨types, ht, hb⟩ := noteRules_eq_error hr
      exact ⟨q, types, ⟨fs, hn, hv, ht⟩, hb⟩
    · have hr := (noting_eq_ok_iff.1 hr).2
      rcases hk : keep (noteField (p ++ q)) gs with o' | kept
      · obtain rfl : o' = o := by simpa [Except.bind, hk, Except.map] using h
        obtain ⟨⟨k, v⟩, hf, he⟩ := exists_of_keep_eq_error hk
        unfold noteField at he
        by_cases hb : isBookkeeping k = true
        · rw [if_pos hb] at he
          cases he
        · rw [if_neg hb] at he
          rw [Bool.not_eq_true] at hb
          rcases hc : cleanNotingAt v (p ++ q ++ [.key k]) with o'' | r <;> rw [hc] at he
          · obtain rfl : o'' = o' := Except.error.inj he
            rw [List.append_assoc] at hc
            exact ih hr (k, v) hf (.value hn hv ((applyRules_eq_ok_iff p q).1 hr) hf hb) hc
          · cases he
      · rw [Except.bind, hk] at h
        cases h
  | list xs ih =>
    rw [cleanNotingAt_list] at h
    rcases hk : keep (noteItem (p ++ q)) xs.zipIdx with o' | ys <;> rw [hk] at h
    · obtain rfl : o' = o := Except.error.inj h
      obtain ⟨⟨y, i⟩, hy, he⟩ := exists_of_keep_eq_error hk
      have hi : xs[i]? = some y := List.mk_mem_zipIdx_iff_getElem?.1 hy
      rw [noteItem, List.append_assoc] at he
      exact ih y (List.mem_of_getElem? hi) (.item hn hi) he
    · cases h
  | other n hm hl =>
    rw [cleanNotingAt_other hm hl] at h
    cases h

/-- A cleaning that comes to its end has cleaned all that the cleaner comes to. -/
theorem exists_ok_of_handled (h : cleanNotingAt x p = .ok r) (hn : Handled x q n) :
    ∃ r', cleanNotingAt n (p ++ q) = .ok r' := by
  induction hn with
  | root => exact ⟨r, by rwa [List.append_nil]⟩
  | @value q fs gs k v _ hv hr hf hb ih =>
    obtain ⟨r', h'⟩ := ih
    rw [cleanNotingAt_map, if_neg (by rw [hv]; decide), bind_eq_ok_iff] at h'
    obtain ⟨gs', hr', hk⟩ := h'
    obtain rfl : gs = gs' := by
      have := (applyRules_eq_ok_iff p q).2 hr
      rw [(noting_eq_ok_iff.1 hr').2] at this
      exact (Except.ok.inj this).symm
    obtain ⟨kept, hk, -⟩ := map_eq_ok_iff.1 hk
    have done : ∃ f, noteField (p ++ q) (k, v) = .ok f := by
      rcases (keep_eq_ok_iff.1 hk).dropped_or_kept hf with hd | ⟨f, -, hd⟩
      · exact ⟨_, hd⟩
      · exact ⟨_, hd⟩
    obtain ⟨f, hf⟩ := done
    rw [noteField, if_neg (by rw [hb]; decide), List.append_assoc, map_eq_ok_iff] at hf
    obtain ⟨r'', hc, -⟩ := hf
    exact ⟨r'', hc⟩
  | @item q xs i y _ hi ih =>
    obtain ⟨r', h'⟩ := ih
    rw [cleanNotingAt_list, map_eq_ok_iff] at h'
    obtain ⟨ys, hk, -⟩ := h'
    have hm : (y, i) ∈ xs.zipIdx := List.mk_mem_zipIdx_iff_getElem?.2 hi
    have done : ∃ z, noteItem (p ++ q) (y, i) = .ok z := by
      rcases (keep_eq_ok_iff.1 hk).dropped_or_kept hm with hd | ⟨z, -, hd⟩
      · exact ⟨_, hd⟩
      · exact ⟨_, hd⟩
    rwa [noteItem, List.append_assoc] at done

/-- **The place only labels the answer as long as it has a text, and lists of types are all that a
cleaning can end at.**  At a place with a text the answer is the one at the root, but for the way
there.  At any place a document is cleaned to what the rules make of it alone, if and only if every
list of types that the cleaner comes to is at a place with a text.  Otherwise it ends at such a list:
one at a place with no text, or one of nothing but `null`; the list stands below the `type` of a
mapping of the document.  So a document with no list of nothing but `null` is cleaned, as far as the
places of its lists have texts. -/
theorem cleanNotingAt_labels (x : Node) :
    (∀ p, p.hasText = true → cleanNotingAt x p = (cleanNoting x).mapError (.below p)) ∧
    (∀ p r, cleanNotingAt x p = .ok r ↔
      clean x = .ok r ∧ ∀ q types, Meets x q types → (p ++ q).hasText = true) ∧
    (∀ p o, cleanNotingAt x p = .error o →
      ∃ q types, Meets x q types ∧ Blocks (p ++ q) types o ∧ x.TypeNests types) ∧
    ((∀ types, x.TypeNests types → ∃ t ∈ types, t ≠ .str "null") →
      ∀ p, (∀ q types, Meets x q types → (p ++ q).hasText = true) →
        ∃ r, cleanNotingAt x p = .ok r) := by
  have blamed : ∀ p o, cleanNotingAt x p = .error o →
      ∃ q types, Meets x q types ∧ Blocks (p ++ q) types o ∧ x.TypeNests types := by
    intro p o h
    rw [← p.append_nil] at h
    obtain ⟨q, types, hm, hb⟩ := exists_meets_of_error .root h
    obtain ⟨fs, hh, -, ht⟩ := id hm
    exact ⟨q, types, hm, hb, typeNests_of_handled hh ht⟩
  refine ⟨fun p hp => ?_, fun p r => ⟨fun h => ⟨clean_of_cleanNotingAt h, ?_⟩, ?_⟩, blamed,
    fun sound p texts => ?_⟩
  · rw [cleanNoting, ← cleanNotingAt_append hp, List.append_nil]
  · rintro q types ⟨fs, hh, hv, ht⟩
    -- The note of the list has been made, or the cleaning would have ended there.
    obtain ⟨r', h'⟩ := exists_ok_of_handled h hh
    rw [cleanNotingAt_map, if_neg (by rw [hv]; decide), bind_eq_ok_iff] at h'
    obtain ⟨gs, hr, -⟩ := h'
    rw [noteRules, ownSplit_of_list ht, noting_eq_ok_iff] at hr
    exact hr.1 _ (List.mem_singleton_self _)
  · rintro ⟨hc, texts⟩
    have hc : cleanAt x p = .ok r := cleanAt_eq_ok_iff.2 hc
    rcases h : cleanNotingAt x p with o | r'
    · obtain ⟨q, types, hm, hb, -⟩ := blamed p o h
      cases hb with
      | place untold => exact absurd (texts q types hm) (by rw [untold]; decide)
      | types _ _ => cases hc.symm.trans (eq_error_of_noting_eq_types h)
    · exact congrArg Except.ok (Except.ok.inj ((noting_eq_ok_iff.1 h).2.symm.trans hc))
  · rcases h : cleanNotingAt x p with o | r
    · obtain ⟨q, types, hm, hb, hn⟩ := blamed p o h
      cases hb with
      | place untold => exact absurd (texts q types hm) (by rw [untold]; decide)
      | types _ nulls =>
        obtain ⟨t, ht, hne⟩ := sound types hn
        exact absurd (nulls t ht) hne
    · exact ⟨r, rfl⟩

/-- A list of types with a list in it that has no type but `null`. -/
def nestedTypesSchema : Node :=
  .map [(.str "not", .map [(.str "type", .list [.list [.str "null"], .str "string"])])]

/-- The list is met in an alternative that the document does not have. -/
theorem cleanNotingAt_nestedTypes :
    Pointer.hasText [.index 3] = true ∧
    cleanNotingAt nestedTypesSchema [.index 3] = .error (.types ⟨[.index 3, .key (.str "not"),
      .key (.str "oneOf"), .index 0], [.str "null"]⟩) ∧
    ∃ q types, Meets nestedTypesSchema q types ∧ nestedTypesSchema.TypeNests types ∧
      Blocks ([.index 3] ++ q) types (.types ⟨[.index 3, .key (.str "not"), .key (.str "oneOf"),
        .index 0], [.str "null"]⟩) := by
  have fault : cleanNoting nestedTypesSchema = .error (.types ⟨[.key (.str "not"),
      .key (.str "oneOf"), .index 0], [.str "null"]⟩) := by with_unfolding_all rfl
  obtain ⟨place, -, blamed, -⟩ := cleanNotingAt_labels nestedTypesSchema
  have there := place [.index 3] rfl
  rw [fault] at there
  obtain ⟨q, types, hm, hb, hn⟩ := blamed _ _ there
  exact ⟨rfl, there, q, types, hm, hn, hb⟩

/-- A mapping whose type is a list of one text. -/
def listedSchema : Node := .map [(.str "type", .list [.str "string"])]

theorem cleanNotingAt_listed {s : Step} (hs : s.hasText = false) :
    cleanNotingAt listedSchema [s] = .error (.place [s]) := by
  have vacuous : isVacuous [(.str "type", .list [.str "string"])] = false := rfl
  have listed : Fields.get? [(.str "type", .list [.str "string"])] "type"
      = some (.list [.str "string"]) := rfl
  rw [listedSchema, cleanNotingAt_map, vacuous, noteRules, ownSplit_of_list listed,
    noting_singleton, Pointer.hasText_singleton, hs]
  rfl

/-- That mapping behind an integer for a key. -/
def behindSchema (i : Int) : Node := .map [(.int i, listedSchema)]

theorem cleanNoting_behind {i : Int} (hi : (Step.key (.int i)).hasText = false) :
    cleanNoting (behindSchema i) = .error (.place [.key (.int i)]) := by
  have vacuous : isVacuous [(.int i, listedSchema)] = false := rfl
  have rules : noteRules [(.int i, listedSchema)] [] = .ok [(.int i, listedSchema)] := by
    with_unfolding_all rfl
  have value : noteField [] (.int i, listedSchema) = .error (.place [.key (.int i)]) := by
    show Except.map _ (cleanNotingAt listedSchema [.key (.int i)]) = _
    rw [cleanNotingAt_listed hi]
    rfl
  rw [cleanNoting, behindSchema, cleanNotingAt_map, vacuous, rules]
  show (keep (noteField []) [(.int i, listedSchema)]).map _ = _
  rw [keep, value]
  rfl

theorem eq_of_typeNests_behind {i : Int} (h : (behindSchema i).TypeNests types) :
    types = [.str "string"] := by
  obtain ⟨fs, hfs, v, hv, hn⟩ := h
  simp [behindSchema, listedSchema, Node.mappings, Node.fieldMappings, Node.itemMappings] at hfs
  rcases hfs with rfl | rfl
  · cases hv
  · obtain rfl : Node.list [.str "string"] = v := by simpa [Fields.get?] using hv
    cases hn with
    | here => rfl
    | item hx hn =>
      obtain rfl := List.mem_singleton.1 hx
      cases hn

/-- Behind an index of too many digits a list of one text is not split as it is at the root, and
behind a key of too many digits a document is not cleaned that has no list of nothing but
`null`. -/
theorem cleanNoting_longKey :
    cleanNoting listedSchema = .ok (some (.map [(.str "type", .str "string")])) ∧
    cleanNotingAt listedSchema [.index (10 ^ Text.digitLimit)]
      = .error (.place [.index (10 ^ Text.digitLimit)]) ∧
    cleanNoting (behindSchema (10 ^ Text.digitLimit : Nat))
      = .error (.place [.key (.int (10 ^ Text.digitLimit : Nat))]) ∧
    ∀ types, (behindSchema (10 ^ Text.digitLimit : Nat)).TypeNests types →
      ∃ t ∈ types, t ≠ .str "null" := by
  have index : (Step.index (10 ^ Text.digitLimit)).hasText = false := by
    rw [← Bool.not_eq_true, Step.hasText_index_iff]
    exact Nat.lt_irrefl _
  have key : (Step.key (.int (10 ^ Text.digitLimit : Nat))).hasText = false := by
    rw [← Bool.not_eq_true, Step.hasText_int_iff, Int.natAbs_natCast]
    exact Nat.lt_irrefl _
  refine ⟨by with_unfolding_all rfl, cleanNotingAt_listed index, cleanNoting_behind key, ?_⟩
  intro types h
  rw [eq_of_typeNests_behind h]
  exact ⟨_, List.mem_singleton_self _, by simp⟩

end Schema

end PlainSchema
