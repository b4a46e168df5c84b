/-
PlainSchema/Proofs/Halves.lean

Settings files with halves of surrogate pairs, where no half is in the way.

The strings of such a file are spelled.  A text without the mark is its own spelling
(`spelling_eq_self`), so a directory with such a text is found in the same way in a
file with halves and in one without (`spelledDirectoryOf_eq`).  The directory of the
file itself may have the mark in its path; it is spelled, and comes back from that.
-/
import PlainSchema.Proofs.Loading

namespace PlainSchema

namespace Text

variable {s : String} {cs : List Char}

theorem spelled_map_char (h : mark ∉ cs) : spelled (cs.map .char) = cs := by
  induction cs with
  | nil => rfl
  | cons c cs ih =>
    have hc : c ≠ mark := fun e => h (e ▸ List.mem_cons_self)
    rw [spelled, List.map_cons, List.flatMap_cons, ← spelled,
      ih fun hm => h (List.mem_cons_of_mem _ hm), Code.spelled, if_neg hc]
    rfl

/-- A text without the mark is its own spelling. -/
theorem spelling_eq_self (h : mark ∉ s.toList) : spelling s = s := by
  rw [spelling, spelled_map_char h, String.ofList_toList]

theorem ofSpelling?_eq_self (h : mark ∉ s.toList) : ofSpelling? s = some s := by
  rw [← congrArg ofSpelling? (spelling_eq_self h), ofSpelling?_spelling]

theorem unspelled_eq_map_char (h : mark ∉ cs) : unspelled cs = cs.map .char := by
  rw [← congrArg unspelled (spelled_map_char h), unspelled_spelled]

theorem spelling_injective : Function.Injective spelling := by
  intro s s' h
  have := congrArg ofSpelling? h
  rw [ofSpelling?_spelling, ofSpelling?_spelling] at this
  exact Option.some.inj this

theorem mapM_ofSpelling?_spelling (ss : List String) :
    (ss.map spelling).mapM ofSpelling? = some ss := by
  induction ss with
  | nil => rfl
  | cons s ss ih =>
    rw [List.map_cons, List.mapM_cons, ofSpelling?_spelling, ih]
    rfl

theorem map_spelling_eq_self {ss : List String} (h : ∀ s ∈ ss, mark ∉ s.toList) :
    ss.map spelling = ss := by
  rw [List.map_congr_left fun s hs => spelling_eq_self (h s hs), List.map_id']

theorem mapM_ofSpelling?_eq_self {ss : List String} (h : ∀ s ∈ ss, mark ∉ s.toList) :
    ss.mapM ofSpelling? = some ss := by
  rw [← congrArg (List.mapM ofSpelling?) (map_spelling_eq_self h), mapM_ofSpelling?_spelling]

theorem halfFault?_map_char (place : Nat) (cs : List Char) :
    halfFault? place (cs.map .char) = none := by
  induction cs generalizing place with
  | nil => rfl
  | cons c cs ih => rw [List.map_cons, halfFault?, ih]

end Text

/-- Two dots are followed in a path with spelled parts as in the path itself. -/
theorem Path.followDots_map_spelling (parts : List String) :
    followDots (parts.map Text.spelling) = (followDots parts).map Text.spelling := by
  have dots : ∀ part, Text.spelling part = ".." ↔ part = ".." := by
    intro part
    have own : Text.spelling ".." = ".." := Text.spelling_eq_self (by decide)
    rw [← congrArg (Text.spelling part = ·) own]
    exact Text.spelling_injective.eq_iff
  unfold followDots
  rw [List.foldl_map]
  show List.foldl _ (List.map Text.spelling []) parts = _
  refine List.foldl_hom (List.map Text.spelling) fun seen part => ?_
  by_cases h : part = ".."
  · rw [if_pos h, if_pos ((dots part).2 h), List.map_dropLast]
  · rw [if_neg h, if_neg (mt (dots part).1 h), List.map_append, List.map_singleton]

namespace Settings

open Text (mark)

variable {home : Place} {byDefault : Path} {parts : List String} {text? : Option String}

/-- Without halves a NUL character is all that keeps a path from being followed. -/
theorem followFault?_eq (h : ∀ part ∈ parts, mark ∉ part.toList) (here : List String) :
    followFault? here parts =
      if parts.any fun part => part.toList.contains '\x00' then some (.file .nul) else none := by
  induction parts generalizing here with
  | nil => rfl
  | cons part parts ih =>
    obtain ⟨hp, hps⟩ := List.forall_mem_cons.1 h
    have dots : ("..".toList.contains '\x00') = false := by decide
    rw [followFault?, Text.unspelled_eq_map_char hp, Text.halfFault?_map_char, List.any_cons]
    split
    · next e => rw [ih hps, e, dots, Bool.false_or]
    · dsimp only
      split
      · next hn => rw [hn, Bool.true_or, if_pos rfl]
      · next hn => rw [ih hps, eq_false_of_ne_true hn, Bool.false_or]

/-- A directory whose text has no half in it is the same in a file with halves elsewhere. -/
theorem spelledDirectoryOf_eq (h : ∀ text, text? = some text → mark ∉ text.toList) :
    spelledDirectoryOf home byDefault text? = (directoryOf home byDefault text?).map some := by
  rcases text? with - | text
  · rfl
  have whole : ∀ part ∈ (Path.ofText text).parts, mark ∉ part.toList :=
    fun part hp hm => h text rfl (Path.mem_of_mem_ofText hp hm)
  unfold spelledDirectoryOf directoryOf
  dsimp only
  by_cases ha : (Path.ofText text).isAbsolute = true
  · rw [if_pos ha, if_pos ha, Text.mapM_ofSpelling?_eq_self whole]
    rfl
  · have spelled : (Path.ofText text).resolve (home.map Text.spelling) =
        ((Path.ofText text).resolve home).map Text.spelling := by
      rw [Path.resolve, Path.resolve, if_neg ha, if_neg ha, ← Path.followDots_map_spelling,
        List.map_append, Text.map_spelling_eq_self whole]
    rw [if_neg ha, if_neg ha, followFault?_eq whole, ← Path.hasNul, spelled,
      Text.mapM_ofSpelling?_spelling]
    by_cases hn : (Path.ofText text).hasNul = true
    · rw [if_pos hn, if_pos hn]
      rfl
    · rw [if_neg hn, if_neg hn]
      rfl

end Settings

end PlainSchema
