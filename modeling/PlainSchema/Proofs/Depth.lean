/-
PlainSchema/Proofs/Depth.lean

The cleaner goes down in nodes that are no parts of the document, and still comes to
an end.

`cleanWithin` is the cleaner without a measure: it goes down as it is told, at most as
many levels as it may, and has no answer where these are not enough.  Levels do not
change an answer (`eq_of_cleanWithin`), so one may speak of the answer, and by
`cleanWithin_of_height_le` there is one for every document: the height of a node falls
from each level to the next, from a list to its items and from a mapping to whatever
the rules make of it.

The levels of the document itself are not enough: with two types in a list the cleaner
goes one level deeper than the document does.
-/
import PlainSchema.Proofs.Cleaning

namespace PlainSchema

namespace Schema

variable {α β ε : Type} {n : Node} {path : Pointer} {depth : Nat}

/-- Handles the members of a list in order and keeps the answers that are not dropped; the first
fault ends it, and so does the first member without an answer. -/
def keepWithin (f : α → Option (Except ε (Option β))) : List α → Option (Except ε (List β))
  | [] => some (.ok [])
  | x :: xs =>
    match f x with
    | none => none
    | some (.error e) => some (.error e)
    | some (.ok y) => (keepWithin f xs).map fun answer => answer.map (y.toList ++ ·)

/-- Cleans the node at a place and goes down at most so many levels; `none` if there are more. -/
def cleanWithin : Nat → Node → Pointer → Option (Except NullOnlyTypes (Option Node))
  | 0, _, _ => none
  | depth + 1, .map fs, path =>
    if isVacuous fs then some (.ok none)
    else
      match applyRules fs path with
      | .error e => some (.error e)
      | .ok gs =>
        let field := fun f : Node × Node =>
          if isBookkeeping f.1 then some (.ok none)
          else (cleanWithin depth f.2 (path ++ [.key f.1])).map (fieldAnswer f.1)
        (keepWithin field gs).map fun answer => answer.map fun kept => some (.map kept)
  | depth + 1, .list xs, path =>
    let item := fun x : Node × Nat => cleanWithin depth x.1 (path ++ [.index x.2])
    (keepWithin item xs.zipIdx).map fun answer => answer.map fun kept => some (.list kept)
  | _ + 1, n, _ => some (.ok (some n))

/-! ### Members -/

/-- Where there is an answer for every member, there is one for the list. -/
theorem keepWithin_eq_some {f : α → Option (Except ε (Option β))} {g : α → Except ε (Option β)}
    {xs : List α} (h : ∀ x ∈ xs, f x = some (g x)) : keepWithin f xs = some (keep g xs) := by
  induction xs with
  | nil => rfl
  | cons x xs ih =>
    obtain ⟨first, others⟩ := List.forall_mem_cons.1 h
    rw [keepWithin, keep, first]
    rcases g x with e | y
    · rfl
    · rw [ih others]
      rcases keep g xs with e | ys <;> rfl

/-- An answer for a list comes from the answers for its members. -/
theorem eq_of_keepWithin {f : α → Option (Except ε (Option β))} {g : α → Except ε (Option β)}
    {xs : List α} {answer : Except ε (List β)} (h : ∀ x ∈ xs, ∀ a, f x = some a → a = g x)
    (ha : keepWithin f xs = some answer) : answer = keep g xs := by
  induction xs generalizing answer with
  | nil => exact (Option.some.inj ha).symm
  | cons x xs ih =>
    obtain ⟨first, others⟩ := List.forall_mem_cons.1 h
    rw [keepWithin] at ha
    rcases hx : f x with - | e | y <;> rw [hx] at ha
    · cases ha
    · obtain rfl := Option.some.inj ha
      rw [keep, ← first _ hx]
    · obtain ⟨rest, hr, rfl⟩ := Option.map_eq_some_iff.1 ha
      rw [keep, ← first _ hx, ← ih others hr]
      rcases rest with e | ys <;> rfl

/-! ### Answers -/

theorem cleanWithin_other (hm : ∀ fs, n ≠ .map fs) (hl : ∀ xs, n ≠ .list xs) :
    cleanWithin (depth + 1) n path = some (.ok (some n)) := by
  rw [cleanWithin]
  · exact hm
  · exact hl

/-- Levels do not change an answer. -/
theorem eq_of_cleanWithin {answer : Except NullOnlyTypes (Option Node)}
    (h : cleanWithin depth n path = some answer) : answer = cleanAt n path := by
  induction depth generalizing n path answer with
  | zero => cases h
  | succ depth ih =>
    rcases n.map_or_list_or_other with ⟨fs, rfl⟩ | ⟨xs, rfl⟩ | ⟨hm, hl⟩
    · rw [cleanWithin] at h
      rw [cleanAt_map]
      by_cases hv : isVacuous fs = true
      · rw [if_pos hv] at h ⊢
        exact (Option.some.inj h).symm
      rw [if_neg hv] at h ⊢
      rcases hr : applyRules fs path with e | gs <;> rw [hr] at h
      · exact (Option.some.inj h).symm
      · obtain ⟨kept, hk, rfl⟩ := Option.map_eq_some_iff.1 h
        rw [eq_of_keepWithin (g := cleanField path) _ hk]
        · rfl
        · intro f _ a ha
          rw [cleanField]
          by_cases hb : isBookkeeping f.1 = true
          · rw [if_pos hb] at ha ⊢
            exact (Option.some.inj ha).symm
          · rw [if_neg hb] at ha ⊢
            obtain ⟨b, hb, rfl⟩ := Option.map_eq_some_iff.1 ha
            rw [ih hb]
    · rw [cleanWithin] at h
      rw [cleanAt_list]
      obtain ⟨kept, hk, rfl⟩ := Option.map_eq_some_iff.1 h
      rw [eq_of_keepWithin (g := cleanItem path) (fun x _ a ha => ih ha) hk]
    · rw [cleanWithin_other hm hl] at h
      rw [cleanAt_other hm hl]
      exact (Option.some.inj h).symm

/-- As many levels as the node is high are enough. -/
theorem cleanWithin_of_height_le (h : n.height ≤ depth) :
    cleanWithin depth n path = some (cleanAt n path) := by
  induction depth generalizing n path with
  | zero => exact absurd (heightAs_pos false n) (Nat.not_lt.2 h)
  | succ depth ih =>
    rcases n.map_or_list_or_other with ⟨fs, rfl⟩ | ⟨xs, rfl⟩ | ⟨hm, hl⟩
    · rw [cleanWithin, cleanAt_map]
      split
      · rfl
      · rcases hr : applyRules fs path with e | gs
        · rfl
        · -- What the rules leave is lower than the mapping.
          have lower : ∀ f ∈ gs, f.2.height ≤ depth := by
            intro f hf
            have := height_lt_of_mem_applyRules hr (k := f.1) hf
            omega
          dsimp only
          rw [keepWithin_eq_some (g := cleanField path)]
          · rfl
          · intro f hf
            rw [cleanField]
            split
            · rfl
            · rw [ih (lower f hf)]
              rfl
    · rw [cleanWithin, cleanAt_list, keepWithin_eq_some (g := cleanItem path)]
      · rfl
      · intro x hx
        have := height_lt_of_mem_items (List.fst_mem_of_mem_zipIdx hx)
        exact ih (by omega)
    · rw [cleanWithin_other hm hl, cleanAt_other hm hl]

/-- **The cleaner comes to an end.**  There is a measure that falls from a list to each of its
items, and from a mapping that is not dropped to each value that the rules leave in it; as many
levels as it says are enough for an answer, and no number of levels gives another one. -/
theorem exists_falling_measure :
    ∃ measure : Node → Nat,
      (∀ xs, ∀ x ∈ xs, measure x < measure (.list xs)) ∧
      (∀ fs path split, isVacuous fs = false → splitTypes? fs path = .ok split →
        ∀ f ∈ settled (split.getD fs), measure f.2 < measure (.map fs)) ∧
      ∀ n path, (∀ depth, measure n ≤ depth → cleanWithin depth n path = some (cleanAt n path)) ∧
        ∀ depth answer, cleanWithin depth n path = some answer → answer = cleanAt n path := by
  refine ⟨Node.height, fun xs x hx => height_lt_of_mem_items hx, ?_, fun n path => ⟨?_, ?_⟩⟩
  · intro fs path split _ hs f hf
    have left : applyRules fs path = .ok (settled (split.getD fs)) := by
      rw [applyRules, hs]
    exact height_lt_of_mem_applyRules left (k := f.1) hf
  · intro depth h
    exact cleanWithin_of_height_le h
  · intro depth answer h
    exact eq_of_cleanWithin h

/-- With two types in a list three levels of a document are not enough for the cleaner. -/
example :
    let n : Node := .map [(.str "type", .list [.str "string", .str "integer"])]
    (cleanWithin 3 n []).isNone = true ∧ (cleanWithin 4 n []).isSome = true := by
  decide

end Schema

end PlainSchema
