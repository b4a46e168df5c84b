/-
PlainSchema/Schema/Splits.lean

The lists of types that a cleaning splits, in the order in which it meets them, up to
the fault that ends it if there is one.
-/
import PlainSchema.Schema.Clean

namespace PlainSchema

namespace Schema

/-- A list of types that was split, and where. -/
structure Split where
  types : List Node
  path : Pointer
  deriving Inhabited, Repr

/-- The text of the note about it, with every integer written in full. -/
def Split.message [SetOrder] (s : Split) : String :=
  "Split type list " ++ (Node.list s.types).arranged.shown ++ " at " ++ s.path.text

/-! ### Until a fault -/

/-- The splits of the members of a list, in order, until one of them ends in a fault. -/
def untilFault {α : Type} (f : α → List Split × Bool) : List α → List Split × Bool
  | [] => ([], false)
  | x :: xs =>
    match f x with
    | (splits, true) => (splits, true)
    | (splits, false) =>
      let (more, fault) := untilFault f xs
      (splits ++ more, fault)

/-- `untilFault` with a function that is told that what it gets is a member. -/
def untilFaultMember {α : Type} : (xs : List α) → ((x : α) → x ∈ xs → List Split × Bool) →
    List Split × Bool
  | [], _ => ([], false)
  | x :: xs, f =>
    match f x List.mem_cons_self with
    | (splits, true) => (splits, true)
    | (splits, false) =>
      let (more, fault) := untilFaultMember xs (fun x h => f x (List.mem_cons_of_mem _ h))
      (splits ++ more, fault)

theorem untilFaultMember_eq {α : Type} (f : α → List Split × Bool) (xs : List α) :
    untilFaultMember xs (fun x _ => f x) = untilFault f xs := by
  induction xs with
  | nil => rfl
  | cons x xs ih => simp only [untilFaultMember, untilFault, ih]

/-! ### The recursion -/

/-- The split of a mapping itself, if its type is a list. -/
def ownSplit (fs : Fields) (path : Pointer) : List Split :=
  match fs.get? "type" with
  | some (.list types) => [⟨types, path⟩]
  | _ => []

/-- The splits at and below a place, and whether they end in a fault. -/
def splitsAt (n : Node) (path : Pointer) : List Split × Bool :=
  match n with
  | .map fs =>
    if isVacuous fs then ([], false)
    else
      match hr : applyRules fs path with
      | .error _ => ([], true)
      | .ok gs =>
        let (below, fault) := untilFaultMember gs fun f hf =>
          if isBookkeeping f.1 then ([], false)
          else
            have := height_lt_of_mem_applyRules hr (k := f.1) hf
            splitsAt f.2 (path ++ [.key f.1])
        (ownSplit fs path ++ below, fault)
  | .list xs =>
    untilFaultMember xs.zipIdx fun x hx =>
      have := height_lt_of_mem_items (List.fst_mem_of_mem_zipIdx hx)
      splitsAt x.1 (path ++ [.index x.2])
  | _ => ([], false)
termination_by n.height

/-- The splits of one entry of a mapping at a place. -/
def splitsOfField (path : Pointer) (f : Node × Node) : List Split × Bool :=
  if isBookkeeping f.1 then ([], false) else splitsAt f.2 (path ++ [.key f.1])

/-- The splits of one item of a list at a place. -/
def splitsOfItem (path : Pointer) (x : Node × Nat) : List Split × Bool :=
  splitsAt x.1 (path ++ [.index x.2])

theorem splitsAt_map (fs : Fields) (path : Pointer) :
    splitsAt (.map fs) path =
      if isVacuous fs then ([], false)
      else match applyRules fs path with
        | .error _ => ([], true)
        | .ok gs =>
          let (below, fault) := untilFault (splitsOfField path) gs
          (ownSplit fs path ++ below, fault) := by
  rw [splitsAt]
  split
  · rfl
  · split
    · next h => rw [h]
    · next gs h =>
      refine (congrArg (fun r : List Split × Bool => (ownSplit fs path ++ r.1, r.2))
        (untilFaultMember_eq (splitsOfField path) gs)).trans ?_
      rw [h]

theorem splitsAt_list (xs : List Node) (path : Pointer) :
    splitsAt (.list xs) path = untilFault (splitsOfItem path) xs.zipIdx := by
  rw [splitsAt]
  exact untilFaultMember_eq (splitsOfItem path) xs.zipIdx

theorem splitsAt_other {n : Node} {path : Pointer} (hm : ∀ fs, n ≠ .map fs)
    (hl : ∀ xs, n ≠ .list xs) : splitsAt n path = ([], false) := by
  rw [splitsAt]
  · exact hm
  · exact hl

/-- The splits of a document. -/
def splits (n : Node) : List Split := (splitsAt n []).1

end Schema

end PlainSchema
