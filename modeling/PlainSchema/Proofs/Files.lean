/-
PlainSchema/Proofs/Files.lean

Which faults the operations on files can end in.

A path with a NUL character is refused before the system sees it, by every operation
that follows the path, and no other path is refused so.  Making directories follows
a path and those above it; `ensureParts` recurses on the parts of the path, and so do
the proofs about it.

Looking for what a path leads to has one fault left, a name that is too long.
-/
import PlainSchema.Files.Tree

namespace PlainSchema

namespace Path

/-- The path above has no NUL that the path has not. -/
theorem hasNul_of_parent {p : Path} (h : p.parent.hasNul = true) : p.hasNul = true := by
  obtain ⟨s, hs, hn⟩ := List.any_eq_true.1 h
  exact List.any_eq_true.2 ⟨s, List.dropLast_subset _ hs, hn⟩

end Path

namespace FileTree

variable {t : FileTree} {p : Path} {e : FileFault} {octets : List UInt8}

/-! ### Paths that the system never sees -/

theorem place_eq_nul_iff : t.place p = .error .nul ↔ p.hasNul = true := by
  unfold place
  by_cases hn : p.hasNul = true
  · simp [hn]
  · rw [if_neg hn]
    refine iff_of_false (fun h => ?_) hn
    split at h
    · cases h
    · split at h <;> cases h

/-- An operation that hands on the faults of following a path, and adds none of this kind at the
place that the path leads to. -/
theorem eq_nul_iff_of_place {α : Type} {a : Except FileFault α}
    (he : ∀ e, t.place p = .error e → a = .error e)
    (hk : ∀ place, t.place p = .ok place → a ≠ .error .nul) :
    a = .error .nul ↔ p.hasNul = true := by
  rw [← place_eq_nul_iff (t := t)]
  rcases h : t.place p with e | place
  · rw [he e h]
    simp only [Except.error.injEq]
  · exact iff_of_false (hk place h) (fun h => nomatch h)

theorem read_eq_nul_iff : t.read p = .error .nul ↔ p.hasNul = true := by
  refine eq_nul_iff_of_place (t := t) (fun e h => ?_) (fun place h => ?_)
  · rw [read, h]
  · rw [read, h]
    dsimp only
    split <;> exact fun h => nomatch h

theorem write_eq_nul_iff : t.write p octets = .error .nul ↔ p.hasNul = true := by
  refine eq_nul_iff_of_place (t := t) (fun e h => ?_) (fun place h => ?_)
  · rw [write, h]
  · rw [write, h]
    dsimp only
    split <;> exact fun h => nomatch h

theorem makeDirectory_eq_nul_iff : t.makeDirectory p = .error .nul ↔ p.hasNul = true := by
  refine eq_nul_iff_of_place (t := t) (fun e h => ?_) (fun place h => ?_)
  · rw [makeDirectory, h]
  · rw [makeDirectory, h]
    dsimp only
    split <;> exact fun h => nomatch h

theorem ensureDirectory_eq_nul_iff : t.ensureDirectory p = .error .nul ↔ p.hasNul = true := by
  rw [← makeDirectory_eq_nul_iff (t := t), ensureDirectory]
  rcases t.makeDirectory p with e | t'
  · dsimp only
    split
    · next h =>
      refine iff_of_false (fun h => nomatch h) fun h' => ?_
      obtain rfl := Except.error.inj h'
      simp at h
    · simp only [Except.error.injEq]
  · exact iff_of_false (fun h => nomatch h) (fun h => nomatch h)

theorem ensureParts_eq_nul_iff {anchor : Anchor} {parts : List String} :
    (t.ensureParts anchor parts).2 = .error .nul ↔ (Path.mk anchor parts).hasNul = true := by
  induction h : parts.length using Nat.strongRecOn generalizing t parts with
  | _ bound ih =>
    subst h
    rw [ensureParts]
    split
    · next t' ht =>
      refine iff_of_false (by simp) fun hn => ?_
      rw [← ensureDirectory_eq_nul_iff (t := t), ht] at hn
      cases hn
    · next q hq =>
      -- The path was seen by the system, and so are those above it.
      have seen : ¬ (Path.mk anchor parts).hasNul = true := by
        rw [← ensureDirectory_eq_nul_iff (t := t), hq]
        simp
      refine iff_of_false ?_ seen
      split
      · simp
      · next hp =>
        have above := @ih parts.dropLast.length
          (by have := List.length_pos_iff.2 hp; rw [List.length_dropLast]; omega) t _ rfl
        split
        · next t' e he =>
          intro h
          rw [he] at above
          exact seen (Path.hasNul_of_parent (p := ⟨anchor, parts⟩) (above.1 h))
        · split
          · simp
          · next t' _ e he =>
            intro h
            obtain rfl : e = .nul := Except.error.inj h
            exact seen (ensureDirectory_eq_nul_iff.1 he)
    · next e _ he =>
      rw [← ensureDirectory_eq_nul_iff (t := t), he]
      simp only [Except.error.injEq]

theorem makeDirectories_eq_nul_iff : (t.makeDirectories p).2 = .error .nul ↔ p.hasNul = true :=
  ensureParts_eq_nul_iff

/-! ### What a path leads to -/

/-- The path that is refused is the path that is followed. -/
theorem eq_of_place_eq_refused {why : Refusal} {q : Path}
    (h : t.place p = .error (.refused why q)) : q = p := by
  unfold place at h
  split at h
  · cases h
  · split at h
    · cases h
      rfl
    · split at h <;> cases h
      rfl

/-- Looking for what a path leads to ends in a fault only if a name is too long. -/
theorem find?_eq_error_iff : t.find? p = .error e ↔
    e = .refused .nameTooLong p ∧ t.place p = .error (.refused .nameTooLong p) := by
  unfold find?
  split
  · next place h => exact iff_of_false (fun h => nomatch h) (fun h' => nomatch h.symm.trans h'.2)
  · next q h =>
    obtain rfl := eq_of_place_eq_refused h
    exact ⟨fun h' => ⟨(Except.error.inj h').symm, h⟩, fun h' => congrArg _ h'.1.symm⟩
  · next e' hn h =>
    exact iff_of_false (fun h => nomatch h) fun h' => hn p (Except.error.inj (h.symm.trans h'.2))

/-- A file that is found can be removed. -/
theorem remove_of_find? (h : t.find? p = .ok (some (.file octets))) :
    ∃ place, t.place p = .ok place ∧ t.remove p = .ok (t.drop place) := by
  unfold find? at h
  split at h
  · next place hp =>
    refine ⟨place, hp, ?_⟩
    rw [remove, hp]
    dsimp only
    rw [Except.ok.inj h]
  · cases h
  · cases h

end FileTree

end PlainSchema
