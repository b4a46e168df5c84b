/-
PlainSchema/Proofs/Places.lean

What paths lead to in a tree of files, and what of it stays when the tree changes.

A list of entries need not be a tree.  `Sound` says that it is one: what is above an
entry is a directory, and no name is the two dots that lead back.  In a sound tree a
path that leads somewhere leads where its parts say, whatever lies there
(`eq_walk_of_follow`, `resolve_of_place`), and a path without dots leads to an entry
whenever there is one (`Sound.follow_of_isSome`).

`Keeps` says what a change leaves alone: directories stay, files outside of the
places it is about stay as they are, and so does all that lies below a directory
that is not on the way to one of these places.
-/
import Mathlib.Data.List.Induction
import PlainSchema.Proofs.Files

namespace PlainSchema

namespace Path

variable {here parts xs ys : List String} {part : String}

/-- Follows parts from a place on, two dots back and every other part down. -/
def walk (here parts : List String) : List String :=
  parts.foldl (fun seen part => if part = ".." then seen.dropLast else seen ++ [part]) here

@[simp] theorem walk_nil : walk here [] = here := rfl

theorem walk_cons : walk here (part :: parts)
    = walk (if part = ".." then here.dropLast else here ++ [part]) parts := rfl

theorem walk_append : walk here (xs ++ ys) = walk (walk here xs) ys := List.foldl_append

/-- Without dots every part leads down. -/
theorem walk_of_plain (h : ".." ∉ parts) : walk here parts = here ++ parts := by
  induction parts generalizing here with
  | nil => rw [walk_nil, List.append_nil]
  | cons part parts ih =>
    rw [List.mem_cons, not_or] at h
    rw [walk_cons, if_neg (Ne.symm h.1), ih h.2, List.append_assoc, List.singleton_append]

theorem not_mem_walk (h : ".." ∉ here) : ".." ∉ walk here parts := by
  induction parts generalizing here with
  | nil => exact h
  | cons part parts ih =>
    rw [walk_cons]
    apply ih
    split
    · exact fun hm => h (List.dropLast_subset _ hm)
    · next hp =>
      intro hm
      rcases List.mem_append.1 hm with hm | hm
      · exact h hm
      · exact hp (List.mem_singleton.1 hm).symm

/-! ### Paths that are followed -/

/-- Whether a path is followed at all: it has no NUL, and its text is not too long. -/
def IsFollowed (p : Path) : Prop :=
  p.hasNul = false ∧ p.text.utf8ByteSize ≤ FileTree.pathLimit

/-- A path above one that is followed is followed. -/
theorem IsFollowed.of_concat {anchor : Anchor} (h : (Path.mk anchor (xs ++ [part])).IsFollowed) :
    (Path.mk anchor xs).IsFollowed := by
  constructor
  · rw [← Bool.not_eq_true]
    refine fun hn => Bool.false_ne_true (h.1.symm.trans (hasNul_of_parent ?_))
    rwa [parent, List.dropLast_concat]
  · have hl := h.2
    -- A path of no parts has a text of its own; every other text grows with the parts.
    rcases xs with - | ⟨y, ys⟩
    · cases anchor <;> decide
    · have longer : ("/".intercalate (y :: ys)).utf8ByteSize
          ≤ ("/".intercalate (y :: ys ++ [part])).utf8ByteSize := by
        rw [String.intercalate_append_of_ne_nil (by simp) (by simp), String.utf8ByteSize_append,
          String.utf8ByteSize_append]
        omega
      cases anchor <;>
        simp only [Path.text, List.cons_append, List.isEmpty_cons, Bool.false_eq_true, if_false,
          String.utf8ByteSize_append] at hl longer ⊢ <;> omega

theorem IsFollowed.of_append {anchor : Anchor} (h : (Path.mk anchor (xs ++ ys)).IsFollowed) :
    (Path.mk anchor xs).IsFollowed := by
  induction ys using List.reverseRecOn with
  | nil => rwa [List.append_nil] at h
  | append_singleton ys y ih => exact ih (IsFollowed.of_concat (by rwa [List.append_assoc]))

end Path

namespace FileTree

variable {t t' t'' : FileTree} {p : Path} {here place q : Place} {parts rest xs ys : List String}
  {part : String} {entry : Entry} {octets : List UInt8} {touched touched' : Place → Prop}

/-! ### Following the parts of a path -/

theorem isDirectoryAt_iff : t.isDirectoryAt place = true ↔ t.at? place = some .directory := by
  simp [isDirectoryAt]

theorem isDirectoryAt_nil : t.isDirectoryAt [] = true := by
  simp [isDirectoryAt, at?]

theorem isFileAt_iff : t.isFileAt place = true ↔ ∃ octets, t.at? place = some (.file octets) := by
  rw [isFileAt]
  rcases t.at? place with - | - | octets <;> simp

/-- A step leads on from a directory, back or to a name that is not too long. -/
theorem follow_cons_eq_ok_iff : t.follow here (part :: parts) = .ok place ↔
    t.isDirectoryAt here = true ∧ (part = ".." ∨ isTooLong part = false) ∧
      t.follow (if part = ".." then here.dropLast else here ++ [part]) parts = .ok place := by
  rw [isDirectoryAt_iff, follow]
  rcases h : t.at? here with - | - | octets
  · simp
  · by_cases hd : part = ".."
    · simp [hd]
    · by_cases hl : isTooLong part = true
      · simp [hd, hl]
      · simp [hd, hl]
  · simp

theorem follow_append : t.follow here (xs ++ ys) =
    (t.follow here xs).bind fun place => t.follow place ys := by
  induction xs generalizing here with
  | nil => rfl
  | cons x xs ih =>
    simp only [List.cons_append, follow]
    split
    · rfl
    · rfl
    · split
      · exact ih
      · split
        · rfl
        · exact ih

/-- A path that leads somewhere leads where its parts say. -/
theorem eq_walk_of_follow (h : t.follow here parts = .ok place) : place = Path.walk here parts := by
  induction parts generalizing here with
  | nil => exact (Except.ok.inj h).symm
  | cons part parts ih =>
    obtain ⟨-, -, h⟩ := follow_cons_eq_ok_iff.1 h
    rw [ih h, Path.walk_cons]

/-- What is followed to a place is not too long. -/
theorem short_of_follow (h : t.follow here parts = .ok place) :
    ∀ part ∈ parts, part = ".." ∨ isTooLong part = false := by
  induction parts generalizing here with
  | nil => exact fun part hm => nomatch hm
  | cons part parts ih =>
    obtain ⟨-, hp, h⟩ := follow_cons_eq_ok_iff.1 h
    exact List.forall_mem_cons.2 ⟨hp, ih h⟩

/-- A path leads to the same place as long as directories stay. -/
theorem follow_mono (hd : ∀ p, t.isDirectoryAt p = true → t'.isDirectoryAt p = true)
    (h : t.follow here parts = .ok place) : t'.follow here parts = .ok place := by
  induction parts generalizing here with
  | nil => exact h
  | cons part parts ih =>
    obtain ⟨directory, hp, h⟩ := follow_cons_eq_ok_iff.1 h
    exact follow_cons_eq_ok_iff.2 ⟨hd _ directory, hp, ih h⟩

/-- A path without dots leads to the same place where the same lies below. -/
theorem follow_congr (plain : ".." ∉ rest)
    (same : ∀ xs, t'.at? (here ++ xs) = t.at? (here ++ xs)) :
    t'.follow here rest = t.follow here rest := by
  induction rest generalizing here with
  | nil => rfl
  | cons part rest ih =>
    rw [List.mem_cons, not_or] at plain
    rw [follow, follow, show t'.at? here = t.at? here by simpa using same []]
    split
    · rfl
    · rfl
    · rw [if_neg (Ne.symm plain.1), if_neg (Ne.symm plain.1), ih plain.2]
      intro xs
      rw [List.append_assoc]
      exact same ([part] ++ xs)

/-- Nothing on the way to a place is too long. -/
theorem follow_ne_nameTooLong (short : ∀ part ∈ rest, isTooLong part = false) :
    t.follow here rest ≠ .error .nameTooLong := by
  induction rest generalizing here with
  | nil => exact nofun
  | cons part rest ih =>
    obtain ⟨hp, short⟩ := List.forall_mem_cons.1 short
    rw [follow]
    split
    · exact nofun
    · exact nofun
    · split
      · exact ih short
      · rw [hp]
        exact ih short

/-- Where a path is followed from. -/
def start (t : FileTree) (p : Path) : Place := if p.isAbsolute then [] else t.current

/-- A path that is followed leads to where its parts lead. -/
theorem place_of_isFollowed (h : p.IsFollowed) :
    t.place p = (t.follow (t.start p) p.parts).mapError (.refused · p) := by
  rw [FileTree.place, if_neg (by rw [h.1]; exact Bool.false_ne_true), if_neg (Nat.not_lt.2 h.2),
    ← FileTree.start]
  rcases t.follow (t.start p) p.parts with why | place <;> rfl

/-- A path that is not followed is refused in every tree. -/
theorem place_of_not_isFollowed (h : ¬ p.IsFollowed) :
    ∃ e, (∀ t : FileTree, t.place p = .error e) ∧ ∀ q, e ≠ .refused .missing q := by
  by_cases hn : p.hasNul = true
  · exact ⟨.nul, fun t => if_pos hn, nofun⟩
  · have hl : pathLimit < p.text.utf8ByteSize :=
      Nat.not_le.1 fun hl => h ⟨Bool.not_eq_true _ ▸ hn, hl⟩
    exact ⟨.refused .nameTooLong p, fun t => by rw [FileTree.place, if_neg hn, if_pos hl], nofun⟩

theorem place_eq_ok_iff : t.place p = .ok place ↔
    p.IsFollowed ∧ t.follow (t.start p) p.parts = .ok place := by
  by_cases h : p.IsFollowed
  · rw [place_of_isFollowed h]
    rcases t.follow (t.start p) p.parts with why | place' <;> simp [Except.mapError, h]
  · obtain ⟨e, he, -⟩ := place_of_not_isFollowed h
    simp [he t, h]

theorem place_eq_missing_iff {q : Path} : t.place p = .error (.refused .missing q) ↔
    q = p ∧ p.IsFollowed ∧ t.follow (t.start p) p.parts = .error .missing := by
  by_cases h : p.IsFollowed
  · rw [place_of_isFollowed h]
    rcases t.follow (t.start p) p.parts with why | place' <;>
      simp [Except.mapError, h, and_comm, eq_comm]
  · obtain ⟨e, he, hm⟩ := place_of_not_isFollowed h
    simp [he t, h, hm q]

theorem place_congr (h : t'.follow (t'.start p) p.parts = t.follow (t.start p) p.parts) :
    t'.place p = t.place p := by
  by_cases hp : p.IsFollowed
  · rw [place_of_isFollowed hp, place_of_isFollowed hp, h]
  · obtain ⟨e, he, -⟩ := place_of_not_isFollowed hp
    rw [he, he]

/-- What is refused before its end is reached stays refused further on, and nothing is missing. -/
theorem place_append_error {anchor : Anchor} {e : FileFault}
    (h : t.place ⟨anchor, xs⟩ = .error e) (hm : e ≠ .refused .missing ⟨anchor, xs⟩)
    (ys : List String) :
    ∃ e', t.place ⟨anchor, xs ++ ys⟩ = .error e' ∧ ∀ q, e' ≠ .refused .missing q := by
  by_cases hp : (Path.mk anchor (xs ++ ys)).IsFollowed
  · rw [place_of_isFollowed hp.of_append] at h
    rw [place_of_isFollowed hp]
    show ∃ e', (t.follow (t.start ⟨anchor, xs⟩) (xs ++ ys)).mapError _ = _ ∧ _
    rw [follow_append]
    rcases hf : t.follow (t.start ⟨anchor, xs⟩) xs with why | place
    · -- The reason is the same further on; only the path that is reported is longer.
      refine ⟨_, rfl, fun q hq => hm ?_⟩
      rw [← Except.error.inj ((congrArg (Except.mapError _) hf).symm.trans h),
        (FileFault.refused.inj hq).1]
    · cases (congrArg (Except.mapError _) hf).symm.trans h
  · obtain ⟨e', he, hm⟩ := place_of_not_isFollowed hp
    exact ⟨e', he t, hm⟩

/-- The place of a file that is read. -/
theorem read_eq_ok_iff : t.read p = .ok octets ↔
    ∃ place, t.place p = .ok place ∧ t.at? place = some (.file octets) := by
  unfold read
  rcases t.place p with e | place
  · simp
  · dsimp only
    rcases h : t.at? place with - | - | octets' <;> simp [h]

theorem find?_eq_some_iff : t.find? p = .ok (some entry) ↔
    ∃ place, t.place p = .ok place ∧ t.at? place = some entry := by
  unfold find?
  split
  · next place h => simp [h]
  · next h => simp [h]
  · next e he h => simp [h]

/-- A file is written where its path leads, if that is no directory. -/
theorem write_eq_ok_iff : t.write p octets = .ok t' ↔
    ∃ place, t.place p = .ok place ∧ t.isDirectoryAt place = false ∧
      t' = t.put place (.file octets) := by
  unfold write
  rcases t.place p with e | place
  · simp
  · dsimp only
    rcases h : t.at? place with - | - | octets' <;> simp [isDirectoryAt, h, eq_comm]

/-- What is removed is a file, where its path leads. -/
theorem remove_eq_ok_iff : t.remove p = .ok t' ↔
    ∃ place octets, t.place p = .ok place ∧ t.at? place = some (.file octets) ∧
      t' = t.drop place := by
  unfold remove
  rcases t.place p with e | place
  · simp
  · dsimp only
    rcases h : t.at? place with - | - | octets' <;> simp [h, eq_comm]

/-! ### Trees as they can be -/

/-- A list of entries that is a tree: what is above an entry is a directory, the current directory
is there, and no name is the two dots that lead back. -/
structure Sound (t : FileTree) : Prop where
  parents : ∀ e ∈ t.entries, t.isDirectoryAt e.1.dropLast = true
  names : ∀ e ∈ t.entries, ".." ∉ e.1
  currentNames : ".." ∉ t.current
  currentDirectory : t.isDirectoryAt t.current = true

namespace Sound

theorem parent (hs : t.Sound) (h : (t.at? place).isSome = true) :
    t.isDirectoryAt place.dropLast = true := by
  by_cases hp : place = []
  · rw [hp]
    exact isDirectoryAt_nil
  · rw [at?, if_neg hp, Option.isSome_map, List.find?_isSome] at h
    obtain ⟨e, he, hq⟩ := h
    rw [← of_decide_eq_true hq]
    exact hs.parents e he

/-- All that is above an entry is a directory. -/
theorem directory_of_prefix (hs : t.Sound) (h : (t.at? place).isSome = true) (hp : q <+: place)
    (hne : q ≠ place) : t.isDirectoryAt q = true := by
  obtain ⟨rest, rfl⟩ := hp
  -- On what is below `q`, from its end: `Sound` speaks of what is directly above an entry.
  induction rest using List.reverseRecOn with
  | nil => exact absurd (List.append_nil q).symm hne
  | append_singleton rest part ih =>
    have above := hs.parent h
    rw [← List.append_assoc, List.dropLast_concat] at above
    by_cases hr : rest = []
    · rwa [hr, List.append_nil] at above
    · exact ih (by rw [isDirectoryAt_iff.1 above]; rfl) (by simpa using hr)

/-- A path without dots leads to an entry that is there. -/
theorem follow_of_isSome (hs : t.Sound) (h : (t.at? (here ++ rest)).isSome = true)
    (plain : ".." ∉ rest) (short : ∀ part ∈ rest, isTooLong part = false) :
    t.follow here rest = .ok (here ++ rest) := by
  induction rest generalizing here with
  | nil => rw [List.append_nil]; rfl
  | cons part rest ih =>
    rw [List.mem_cons, not_or] at plain
    rw [List.append_cons] at h ⊢
    refine follow_cons_eq_ok_iff.2 ⟨?_, .inr (short part List.mem_cons_self), ?_⟩
    · exact hs.directory_of_prefix h ⟨part :: rest, by simp⟩ (by simp)
    · rw [if_neg (Ne.symm plain.1)]
      exact ih h plain.2 fun part' hm => short part' (List.mem_cons_of_mem _ hm)

/-- What is refused on the way to a place is refused since nothing is there, unless for a name that
is too long. -/
theorem at?_of_follow_error (hs : t.Sound) {why : Refusal} (h : t.follow here rest = .error why)
    (plain : ".." ∉ rest) (hw : why ≠ .nameTooLong) : t.at? (here ++ rest) = none := by
  induction rest generalizing here with
  | nil => cases h
  | cons part rest ih =>
    rw [List.mem_cons, not_or] at plain
    by_cases hd : t.isDirectoryAt here = true
    · rw [follow, isDirectoryAt_iff.1 hd] at h
      dsimp only at h
      rw [if_neg (Ne.symm plain.1)] at h
      split at h
      · exact absurd (Except.error.inj h).symm hw
      · rw [List.append_cons]
        exact ih h plain.2
    · -- What is above something that is there would be a directory.
      by_contra hn
      have there := Option.isSome_iff_ne_none.2 hn
      exact hd (hs.directory_of_prefix there (List.prefix_append _ _) (by simp))

theorem startDirectory (hs : t.Sound) (p : Path) : t.isDirectoryAt (t.start p) = true := by
  unfold start
  split
  · exact isDirectoryAt_nil
  · exact hs.currentDirectory

theorem not_mem_start (hs : t.Sound) (p : Path) : ".." ∉ t.start p := by
  unfold start
  split
  · exact List.not_mem_nil
  · exact hs.currentNames

/-- The directory above the place that a path leads to is there. -/
theorem parent_of_follow (hs : t.Sound) (hd : t.isDirectoryAt here.dropLast = true)
    (h : t.follow here parts = .ok place) : t.isDirectoryAt place.dropLast = true := by
  have above : ∀ {q : Place}, t.isDirectoryAt q = true → t.isDirectoryAt q.dropLast = true :=
    fun h => hs.parent (by rw [isDirectoryAt_iff.1 h]; rfl)
  induction parts generalizing here with
  | nil => rwa [← Except.ok.inj h]
  | cons part parts ih =>
    obtain ⟨directory, -, h⟩ := follow_cons_eq_ok_iff.1 h
    refine ih ?_ h
    split
    · exact above hd
    · rwa [List.dropLast_concat]

/-- A path that does not depend on the tree stands for the place that it leads to. -/
theorem resolve_eq_walk (hs : t.Sound) (p : Path) :
    p.resolve t.current = Path.walk (t.start p) p.parts := by
  unfold Path.resolve start
  show Path.walk [] _ = _
  split
  · rfl
  · rw [Path.walk_append, Path.walk_of_plain hs.currentNames, List.nil_append]

theorem resolve_of_place (hs : t.Sound) (h : t.place p = .ok place) :
    place = p.resolve t.current := by
  rw [hs.resolve_eq_walk]
  exact eq_walk_of_follow (place_eq_ok_iff.1 h).2

end Sound

/-! ### What lies below a place -/

/-- The entries that lie below a place. -/
def below (t : FileTree) (q : Place) : List (Place × Entry) :=
  t.entries.filter fun e => q.isPrefixOf e.1 && e.1 ≠ q

theorem below_put (h : ¬ q <+: place ∨ place = q) (entry : Entry) :
    (t.put place entry).below q = t.below q := by
  have out : ∀ e : Entry, (q.isPrefixOf (place, e).1 && (place, e).1 ≠ q) = false := by
    intro e
    rcases h with h | h
    · simp [h]
    · simp [h]
  show (putEntry place entry t.entries).filter _ = t.entries.filter _
  induction t.entries with
  | nil => rw [putEntry, List.filter_cons_of_neg (by simpa using out entry)]
  | cons e es ih =>
    obtain ⟨place', entry'⟩ := e
    rw [putEntry]
    split
    · next he =>
      obtain rfl : place' = place := he
      rw [List.filter_cons_of_neg (by simpa using out entry),
        List.filter_cons_of_neg (by simpa using out entry')]
    · rw [List.filter_cons, List.filter_cons, ih]

theorem below_drop (h : ¬ q <+: place ∨ place = q) : (t.drop place).below q = t.below q := by
  show (t.entries.filter _).filter _ = t.entries.filter _
  rw [List.filter_filter]
  refine List.filter_congr fun e _ => ?_
  by_cases he : e.1 = place
  · rcases h with h | h <;> simp [he, h]
  · simp [he]

/-- What lies at a place below another one is among the entries below that. -/
theorem at?_eq_of_below (h : t'.below q = t.below q) (hp : q <+: place) (hne : place ≠ q) :
    t'.at? place = t.at? place := by
  -- The look-up goes through all entries, but stops at none that is not below `q`.
  have found : ∀ t : FileTree, (t.below q).find? (fun e => e.1 = place)
      = t.entries.find? fun e => e.1 = place := by
    intro t
    rw [below, List.find?_filter]
    congr 1
    funext e
    by_cases he : e.1 = place
    · simp [he, hp, hne]
    · simp [he]
  unfold at?
  rw [← found t, ← found t', h]

/-! ### What a change leaves alone -/

theorem directory_ne_file (h : t.isDirectoryAt place = true) :
    t.at? place ≠ some (.file octets) := by
  rw [isDirectoryAt_iff.1 h]
  exact nofun

/-- What a change on the way to an area or inside of it leaves alone, if the files that it makes,
changes or removes are at the touched places. -/
structure Keeps (area : Place) (touched : Place → Prop) (t t' : FileTree) : Prop where
  sound : t'.Sound
  current : t'.current = t.current
  directories : ∀ q, t.isDirectoryAt q = true → t'.isDirectoryAt q = true
  files : ∀ q octets, ¬ touched q →
    (t'.at? q = some (.file octets) ↔ t.at? q = some (.file octets))
  below : ∀ q, ¬ q <+: area → ¬ area <+: q → t'.below q = t.below q

namespace Keeps

variable {area : Place}

theorem refl (hs : t.Sound) : Keeps area touched t t where
  sound := hs
  current := rfl
  directories _ := id
  files _ _ _ := Iff.rfl
  below _ _ _ := rfl

theorem trans (h : Keeps area touched t t') (h' : Keeps area touched t' t'') :
    Keeps area touched t t'' where
  sound := h'.sound
  current := h'.current.trans h.current
  directories q hq := h'.directories q (h.directories q hq)
  files q octets hq := (h'.files q octets hq).trans (h.files q octets hq)
  below q h₁ h₂ := (h'.below q h₁ h₂).trans (h.below q h₁ h₂)

theorem mono (h : Keeps area touched t t') (ht : ∀ q, touched q → touched' q) :
    Keeps area touched' t t' :=
  { h with files := fun q octets hq => h.files q octets fun hq' => hq (ht q hq') }

theorem start_eq (h : Keeps area touched t t') (p : Path) : t'.start p = t.start p := by
  rw [start, start, h.current]

/-- A path leads to where it led before. -/
theorem place_eq_ok (h : Keeps area touched t t') (hp : t.place p = .ok place) :
    t'.place p = .ok place := by
  obtain ⟨hp, hf⟩ := place_eq_ok_iff.1 hp
  exact place_eq_ok_iff.2 ⟨hp, follow_mono h.directories (by rwa [h.start_eq])⟩

/-- What is refused on the way to a place is refused as before, unless something was missing. -/
theorem follow_eq (h : Keeps area touched t t') (plain : ".." ∉ rest)
    (out : ∀ xs, xs <+: rest → ¬ touched (here ++ xs))
    (hf : t.follow here rest ≠ .error .missing) : t'.follow here rest = t.follow here rest := by
  induction rest generalizing here with
  | nil => rfl
  | cons part rest ih =>
    rw [List.mem_cons, not_or] at plain
    rw [follow] at hf ⊢
    rw [follow]
    -- A directory is one still, and a file in the way is there still.
    rcases hq : t.at? here with - | - | octets <;> rw [hq] at hf
    · exact absurd rfl hf
    · rw [isDirectoryAt_iff.1 (h.directories here (isDirectoryAt_iff.2 hq))]
      dsimp only at hf ⊢
      rw [if_neg (Ne.symm plain.1)] at hf ⊢
      rw [if_neg (Ne.symm plain.1)]
      split at hf
      · next hl => rw [if_pos hl, if_pos hl]
      · next hl =>
        rw [if_neg hl, if_neg hl]
        refine ih plain.2 (fun xs hx => ?_) hf
        rw [List.append_assoc]
        exact out (part :: xs) (List.cons_prefix_cons.2 ⟨rfl, hx⟩)
    · have := out [] List.nil_prefix
      rw [List.append_nil] at this
      rw [(h.files here octets this).2 hq]

end Keeps

/-- Nothing lies at the root of the entries that `put` changes below a place apart from the area. -/
theorem below_put_of_apart {area : Place} (hp : place <+: area ∨ area <+: place)
    (h₁ : ¬ q <+: area) (h₂ : ¬ area <+: q) : ¬ q <+: place := by
  rcases hp with hp | hp
  · exact fun h => h₁ (h.trans hp)
  · exact fun h => (List.prefix_or_prefix_of_prefix h hp).elim h₁ h₂

theorem mem_of_mem_putEntry {es : List (Place × Entry)} {e : Place × Entry}
    (h : e ∈ putEntry place entry es) : e = (place, entry) ∨ e ∈ es := by
  induction es with
  | nil => exact .inl (List.mem_singleton.1 h)
  | cons e' es ih =>
    rw [putEntry] at h
    split at h <;> rcases List.mem_cons.1 h with rfl | h
    · exact .inl rfl
    · exact .inr (List.mem_cons_of_mem _ h)
    · exact .inr List.mem_cons_self
    · exact (ih h).imp id (List.mem_cons_of_mem _)

namespace Sound

/-- An entry is put into a directory, and no file in the stead of a directory. -/
theorem put (hs : t.Sound) (hp : place ≠ []) (above : t.isDirectoryAt place.dropLast = true)
    (plain : ".." ∉ place) (he : t.isDirectoryAt place = true → entry = .directory) :
    (t.put place entry).Sound ∧
      ∀ q, t.isDirectoryAt q = true → (t.put place entry).isDirectoryAt q = true := by
  have stay : ∀ q, t.isDirectoryAt q = true → (t.put place entry).isDirectoryAt q = true := by
    intro q hq
    rw [isDirectoryAt_iff, at?_put t hp]
    split
    · next h => rw [he (h ▸ hq)]
    · exact isDirectoryAt_iff.1 hq
  refine ⟨⟨fun e hm => ?_, fun e hm => ?_, hs.currentNames, stay _ hs.currentDirectory⟩, stay⟩
  · rcases mem_of_mem_putEntry hm with rfl | hm
    · exact stay _ above
    · exact stay _ (hs.parents e hm)
  · rcases mem_of_mem_putEntry hm with rfl | hm
    · exact plain
    · exact hs.names e hm

/-- A directory is made where nothing is. -/
theorem keeps_put_directory {area : Place} (hs : t.Sound) (hn : t.at? place = none)
    (above : t.isDirectoryAt place.dropLast = true) (plain : ".." ∉ place)
    (near : place <+: area ∨ area <+: place) :
    Keeps area (fun _ => False) t (t.put place .directory) := by
  have hp : place ≠ [] := by
    rintro rfl
    cases hn
  obtain ⟨sound, stay⟩ := hs.put hp above plain fun _ => rfl
  refine ⟨sound, rfl, stay, fun q octets _ => ?_, fun q h₁ h₂ =>
    below_put (.inl (below_put_of_apart near h₁ h₂)) _⟩
  rw [at?_put t hp]
  split
  · next h => simp [← h, hn]
  · rfl

/-- A file is written. -/
theorem keeps_put_file {area : Place} (hs : t.Sound) (hf : t.isDirectoryAt place = false)
    (octets : List UInt8) (above : t.isDirectoryAt place.dropLast = true) (plain : ".." ∉ place)
    (near : area <+: place) : Keeps area (· = place) t (t.put place (.file octets)) := by
  have hp : place ≠ [] := by
    rintro rfl
    cases hf
  -- No directory is there that the file would take the place of.
  have noDirectory : t.isDirectoryAt place = true → Entry.file octets = .directory :=
    fun h => Bool.noConfusion (hf.symm.trans h)
  obtain ⟨sound, stay⟩ := hs.put hp above plain noDirectory
  refine ⟨sound, rfl, stay, fun q octets hq => ?_, fun q h₁ h₂ =>
    below_put (.inl (below_put_of_apart (.inr near) h₁ h₂)) _⟩
  rw [at?_put t hp, if_neg (Ne.symm hq)]

/-- A file is removed. -/
theorem keeps_drop {area : Place} (hs : t.Sound) (hf : t.at? place = some (.file octets))
    (near : area <+: place) : Keeps area (· = place) t (t.drop place) := by
  have hp : place ≠ [] := by
    rintro rfl
    cases hf
  have stay : ∀ q, t.isDirectoryAt q = true → (t.drop place).isDirectoryAt q = true := by
    intro q hq
    rw [isDirectoryAt_iff, at?_drop t hp, if_neg]
    · exact isDirectoryAt_iff.1 hq
    · rintro rfl
      exact directory_ne_file hq hf
  have left : ∀ e ∈ (t.drop place).entries, e ∈ t.entries := fun e hm => (List.mem_filter.1 hm).1
  refine ⟨⟨fun e hm => stay _ (hs.parents e (left e hm)), fun e hm => hs.names e (left e hm),
    hs.currentNames, stay _ hs.currentDirectory⟩, rfl, stay, fun q octets hq => ?_, fun q h₁ h₂ =>
    below_drop (.inl (below_put_of_apart (.inr near) h₁ h₂))⟩
  rw [at?_drop t hp, if_neg (Ne.symm hq)]

end Sound

theorem putEntry_of_find? {es : List (Place × Entry)} {e : Place × Entry}
    (h : es.find? (fun e => e.1 = place) = some e) : putEntry place e.2 es = es := by
  induction es with
  | nil => cases h
  | cons e' es ih =>
    rw [putEntry]
    by_cases he : e'.1 = place
    · rw [List.find?_cons_of_pos (by simpa using he)] at h
      rw [if_pos he, ← he, Option.some.inj h]
    · rw [List.find?_cons_of_neg (by simpa using he)] at h
      rw [if_neg he, ih h]

/-- To put what is there changes nothing. -/
theorem put_of_at? (hp : place ≠ []) (h : t.at? place = some entry) : t.put place entry = t := by
  rw [at?, if_neg hp] at h
  obtain ⟨e, he, rfl⟩ := Option.map_eq_some_iff.1 h
  rw [put, putEntry_of_find? he]

end FileTree

end PlainSchema
