/-
PlainSchema/Schema/Clean.lean

The cleaner.  A mapping is dropped if it is vacuous; otherwise the rules change it
and the values they leave behind are cleaned in turn, bookkeeping entries being left
out.  A list keeps the items that are not dropped.  Every other value is kept.

The values that the rules leave behind need not be parts of the mapping, so the
recursion is on `Node.height`.  The equations `cleanAt_map`, `cleanAt_list` and
`cleanAt_other` say what the cleaner does without speaking of the measure.
-/
import PlainSchema.Schema.Height

namespace PlainSchema

namespace Schema

/-- The names of bookkeeping entries. -/
def bookkeepingNames : List String := ["_name_", "_required_", "_attrs_order_"]

/-- Whether a key is the name of a bookkeeping entry. -/
def isBookkeeping (key : Node) : Bool := bookkeepingNames.any fun name => key.isText name

/-! ### Keeping what is not dropped -/

/-- Handles the members of a list in order and keeps the answers that are not dropped; the first
fault ends it. -/
def keep {α β ε : Type} (f : α → Except ε (Option β)) : List α → Except ε (List β)
  | [] => .ok []
  | x :: xs =>
    match f x with
    | .error e => .error e
    | .ok y =>
      match keep f xs with
      | .error e => .error e
      | .ok ys => .ok (y.toList ++ ys)

/-- `keep` with a function that is told that what it gets is a member. -/
def keepMember {α β ε : Type} : (xs : List α) → ((x : α) → x ∈ xs → Except ε (Option β)) →
    Except ε (List β)
  | [], _ => .ok []
  | x :: xs, f =>
    match f x List.mem_cons_self with
    | .error e => .error e
    | .ok y =>
      match keepMember xs (fun x h => f x (List.mem_cons_of_mem _ h)) with
      | .error e => .error e
      | .ok ys => .ok (y.toList ++ ys)

theorem keepMember_eq {α β ε : Type} (f : α → Except ε (Option β)) (xs : List α) :
    keepMember xs (fun x _ => f x) = keep f xs := by
  induction xs with
  | nil => rfl
  | cons x xs ih => simp only [keepMember, keep, ih]

/-! ### The recursion -/

/-- What becomes of an entry whose value cleans to `answer`. -/
def fieldAnswer (key : Node) (answer : Except NullOnlyTypes (Option Node)) :
    Except NullOnlyTypes (Option (Node × Node)) :=
  answer.map fun value => value.map fun v => (key, v)

/-- Cleans the node at a place; `none` if it is dropped. -/
def cleanAt (n : Node) (path : Pointer) : Except NullOnlyTypes (Option Node) :=
  match n with
  | .map fs =>
    if isVacuous fs then .ok none
    else
      match hr : applyRules fs path with
      | .error e => .error e
      | .ok gs =>
        (keepMember gs fun f hf =>
          if isBookkeeping f.1 then .ok none
          else
            have := height_lt_of_mem_applyRules hr (k := f.1) hf
            fieldAnswer f.1 (cleanAt f.2 (path ++ [.key f.1]))).map fun kept => some (.map kept)
  | .list xs =>
    (keepMember xs.zipIdx fun x hx =>
      have := height_lt_of_mem_items (List.fst_mem_of_mem_zipIdx hx)
      cleanAt x.1 (path ++ [.index x.2])).map fun kept => some (.list kept)
  | n => .ok (some n)
termination_by n.height

/-- Cleans one entry of a mapping at a place. -/
def cleanField (path : Pointer) (f : Node × Node) : Except NullOnlyTypes (Option (Node × Node)) :=
  if isBookkeeping f.1 then .ok none else fieldAnswer f.1 (cleanAt f.2 (path ++ [.key f.1]))

/-- Cleans one item of a list at a place. -/
def cleanItem (path : Pointer) (x : Node × Nat) : Except NullOnlyTypes (Option Node) :=
  cleanAt x.1 (path ++ [.index x.2])

theorem cleanAt_map (fs : Fields) (path : Pointer) :
    cleanAt (.map fs) path =
      if isVacuous fs then .ok none
      else (applyRules fs path).bind fun gs =>
        (keep (cleanField path) gs).map fun kept => some (.map kept) := by
  rw [cleanAt]
  split
  · rfl
  · split
    · next h => rw [h]; rfl
    · next gs h =>
      refine (congrArg (Except.map _) (keepMember_eq (cleanField path) gs)).trans ?_
      rw [h]
      rfl

theorem cleanAt_list (xs : List Node) (path : Pointer) :
    cleanAt (.list xs) path =
      (keep (cleanItem path) xs.zipIdx).map fun kept => some (.list kept) := by
  rw [cleanAt]
  exact congrArg (Except.map _) (keepMember_eq (cleanItem path) xs.zipIdx)

theorem cleanAt_other {n : Node} {path : Pointer} (hm : ∀ fs, n ≠ .map fs)
    (hl : ∀ xs, n ≠ .list xs) : cleanAt n path = .ok (some n) := by
  rw [cleanAt]
  · exact hm
  · exact hl

/-- Cleans a document; `none` if nothing of it is left. -/
def clean (n : Node) : Except NullOnlyTypes (Option Node) := cleanAt n []

end Schema

end PlainSchema
