/-
PlainSchema/Proofs/Matching.lean

What a pattern selects is what it matches.

A wildcard is read from its start and may try several ends for many characters; that
it accepts the names it covers, and no others, goes by its pieces (`accepts_iff`).
The same for patterns goes by their segments (`mem_select_iff`).  A spot is selected
together with the way to it, so what is said is that the way is matched and leads
there.  It is said of files alone: what is left of a pattern starts from a directory,
and so a way on which something is left has a part to come.
-/
import PlainSchema.Files.Matching
import PlainSchema.Proofs.Ways

namespace PlainSchema

/-! ### Names -/

namespace Wildcard

variable {piece : Piece} {ps : Wildcard} {c : Char} {cs : List Char}

theorem covers_nil_iff : Covers [] cs ↔ cs = [] := by
  constructor
  · rintro ⟨⟩
    rfl
  · rintro rfl
    exact .nil

theorem covers_cons_iff : Covers (piece :: ps) cs ↔
    ∃ part rest, cs = part ++ rest ∧ piece.Covers part ∧ Covers ps rest := by
  constructor
  · rintro ⟨⟩
    exact ⟨_, _, rfl, ‹_›, ‹_›⟩
  · rintro ⟨part, rest, rfl, hp, hr⟩
    exact .cons hp hr

/-- Many characters are none, or the first one and many more. -/
theorem covers_many_cons_iff :
    Covers (.many :: ps) (c :: cs) ↔ Covers ps (c :: cs) ∨ Covers (.many :: ps) cs := by
  constructor
  · intro h
    obtain ⟨part, rest, e, -, hr⟩ := covers_cons_iff.1 h
    rcases part with - | ⟨d, part⟩
    · obtain rfl : c :: cs = rest := e
      exact .inl hr
    · obtain ⟨rfl, rfl⟩ := List.cons.inj e
      exact .inr (.cons (.many part) hr)
  · rintro (h | h)
    · exact .cons (.many []) h
    · obtain ⟨part, rest, rfl, -, hr⟩ := covers_cons_iff.1 h
      exact .cons (.many (c :: part)) hr

theorem covers_many_nil_iff : Covers (.many :: ps) [] ↔ Covers ps [] := by
  constructor
  · intro h
    obtain ⟨part, rest, e, -, hr⟩ := covers_cons_iff.1 h
    rwa [(List.append_eq_nil_iff.1 e.symm).2] at hr
  · exact fun h => .cons (.many []) h

/-- A piece for one character stands for texts of one character. -/
theorem exists_of_covers {part : List Char} (h : piece.Covers part) (hm : piece ≠ .many) :
    ∃ c, part = [c] := by
  cases h with
  | many => exact absurd rfl hm
  | one c => exact ⟨c, rfl⟩
  | only c => exact ⟨c, rfl⟩
  | among _ => exact ⟨_, rfl⟩

theorem covers_one_cons_iff (hm : piece ≠ .many) :
    Covers (piece :: ps) (c :: cs) ↔ piece.Covers [c] ∧ Covers ps cs := by
  constructor
  · intro h
    obtain ⟨part, rest, e, hp, hr⟩ := covers_cons_iff.1 h
    obtain ⟨d, rfl⟩ := exists_of_covers hp hm
    obtain ⟨rfl, rfl⟩ := List.cons.inj e
    exact ⟨hp, hr⟩
  · rintro ⟨hp, hr⟩
    exact .cons hp hr

theorem not_covers_nil (hm : piece ≠ .many) : ¬ Covers (piece :: ps) [] := by
  intro h
  obtain ⟨part, rest, e, hp, -⟩ := covers_cons_iff.1 h
  obtain ⟨d, rfl⟩ := exists_of_covers hp hm
  cases e

theorem inSet_iff {negated : Bool} {ranges : List (Char × Char)} :
    inSet negated ranges c = true ↔
      ((∃ r ∈ ranges, r.1 ≤ c ∧ c ≤ r.2) ↔ negated = false) := by
  unfold inSet
  generalize hb : ranges.any _ = found
  have hf : found = true ↔ ∃ r ∈ ranges, r.1 ≤ c ∧ c ≤ r.2 := by
    rw [← hb]
    simp [List.any_eq_true]
  rw [← hf]
  cases found <;> cases negated <;> decide

/-- **A wildcard accepts the names that it stands for**, and no others. -/
theorem accepts_iff : accepts ps cs = true ↔ Covers ps cs := by
  fun_induction accepts ps cs with
  | case1 cs => rw [covers_nil_iff, List.isEmpty_iff]
  | case2 ps ih => rw [ih, covers_many_nil_iff]
  | case3 ps c cs ih ih' => rw [Bool.or_eq_true, ih, ih', covers_many_cons_iff]
  | case4 ps c cs ih =>
    rw [ih, covers_one_cons_iff (nofun : Piece.one ≠ .many)]
    exact (and_iff_right (.one c)).symm
  | case5 d ps c cs ih =>
    rw [Bool.and_eq_true, ih, covers_one_cons_iff (nofun : Piece.only d ≠ .many),
      decide_eq_true_iff]
    refine and_congr_left' ?_
    constructor
    · rintro rfl
      exact .only d
    · rintro ⟨⟩
      rfl
  | case6 negated ranges ps c cs ih =>
    rw [Bool.and_eq_true, ih, covers_one_cons_iff (nofun : Piece.among negated ranges ≠ .many),
      inSet_iff]
    refine and_congr_left' ?_
    constructor
    · exact .among
    · rintro ⟨⟩
      assumption
  | case7 piece ps hm =>
    exact iff_of_false nofun (not_covers_nil hm)

end Wildcard

/-! ### Ways -/

namespace FileTree

variable {t : FileTree} {root here place mid : Place} {s spot : Spot} {pattern left : Pattern}
  {part text : String} {way xs ys : List String} {directory : Path} {entry : Entry}

theorem leads_nil_iff : t.Leads here [] place ↔ place = here := by
  constructor
  · rintro ⟨⟩
    rfl
  · rintro rfl
    exact .here

theorem leads_cons_iff : t.Leads here (part :: way) place ↔
    t.isDirectoryAt here = true ∧
      t.Leads (if part = ".." then here.dropLast else here ++ [part]) way place := by
  constructor
  · rintro ⟨⟩
    exact ⟨‹_›, ‹_›⟩
  · rintro ⟨hd, h⟩
    exact .enter hd h

theorem leads_append_iff :
    t.Leads here (xs ++ ys) place ↔ ∃ mid, t.Leads here xs mid ∧ t.Leads mid ys place := by
  induction xs generalizing here with
  | nil => simp only [List.nil_append, leads_nil_iff, exists_eq_left]
  | cons part xs ih =>
    rw [List.cons_append, leads_cons_iff, ih]
    simp only [leads_cons_iff, and_assoc, exists_and_left]

/-- A way with parts starts from a directory. -/
theorem Leads.isDirectoryAt (h : t.Leads here way place) (hw : way ≠ []) :
    t.isDirectoryAt here = true := by
  cases h with
  | here => exact absurd rfl hw
  | enter hd _ => exact hd

theorem Leads.eq_append (h : t.Leads here way place) (plain : ".." ∉ way) :
    place = here ++ way := by
  induction h with
  | here => exact (List.append_nil _).symm
  | @enter here place part way _ _ ih =>
    rw [List.mem_cons, not_or] at plain
    rw [ih plain.2, if_neg (Ne.symm plain.1), List.append_assoc]
    rfl

/-- Every place below a directory is led to from there. -/
theorem leads_append (hs : t.Sound) (h : (t.at? (here ++ way)).isSome = true)
    (plain : ".." ∉ way) : t.Leads here way (here ++ way) := by
  induction way generalizing here with
  | nil =>
    rw [List.append_nil]
    exact .here
  | cons part way ih =>
    rw [List.mem_cons, not_or] at plain
    refine .enter (hs.directory_of_prefix h (List.prefix_append _ _) (by simp)) ?_
    rw [if_neg (Ne.symm plain.1)]
    rw [List.append_cons here part way] at h ⊢
    exact ih h plain.2

theorem isSome_of_isFileAt (h : t.isFileAt place = true) : (t.at? place).isSome = true := by
  obtain ⟨octets, hf⟩ := isFileAt_iff.1 h
  rw [hf]
  rfl

theorem not_isFileAt (hd : t.isDirectoryAt place = true) : t.isFileAt place ≠ true := by
  intro hf
  obtain ⟨octets, hf⟩ := isFileAt_iff.1 hf
  exact directory_ne_file hd hf

/-- No place in a tree has two dots for a name. -/
theorem Sound.not_mem_of_isSome (hs : t.Sound) (h : (t.at? place).isSome = true) :
    ".." ∉ place := by
  obtain ⟨entry, h⟩ := Option.isSome_iff_exists.1 h
  by_cases hp : place = []
  · rw [hp]
    exact List.not_mem_nil
  · exact hs.names _ (mem_of_at? h hp)

/-- What is found on a way without dots lies where the way leads. -/
theorem isFileWay_iff_of_plain (hs : t.Sound) (plain : ".." ∉ way) :
    t.IsFileWay root way ↔ t.isFileAt (root ++ way) = true := by
  constructor
  · rintro ⟨place, h, hf⟩
    rwa [h.eq_append plain] at hf
  · intro hf
    exact ⟨root ++ way, leads_append hs (isSome_of_isFileAt hf) plain, hf⟩

/-! ### What is selected -/

theorem matches_nil_iff : Pattern.Matches [] way ↔ way = [] := by
  constructor
  · rintro ⟨⟩
    rfl
  · rintro rfl
    exact .nil

/-- What is left of a pattern matches parts of the way. -/
theorem ne_nil_of_matches (h : Pattern.Matches pattern way) (hp : pattern ≠ []) : way ≠ [] := by
  cases h with
  | nil => exact absurd rfl hp
  | name _ => exact List.cons_ne_nil _ _
  | names _ _ _ => exact List.cons_ne_nil _ _
  | anyDepth _ hw _ => exact fun h => hw (List.append_eq_nil_iff.1 h).2

theorem isSome_of_admits (h : t.admits left s = true) : (t.at? s.place).isSome = true := by
  rw [admits] at h
  split at h
  · exact h
  · rw [isDirectoryAt_iff.1 h]
    rfl

theorem directory_of_admits (h : t.admits left s = true) (hl : left ≠ []) :
    t.isDirectoryAt s.place = true := by
  rwa [admits, if_neg (by simpa using hl)] at h

/-- Whether a pattern leads from a spot to another one, on a way that it matches. -/
def LeadsAlong (t : FileTree) (pattern : Pattern) (s spot : Spot) : Prop :=
  ∃ way, pattern.Matches way ∧ t.Leads s.place way spot.place ∧ spot.way = s.way ++ way

theorem leadsAlong_nil_iff : t.LeadsAlong [] s spot ↔ spot = s := by
  constructor
  · rintro ⟨way, hm, h, hw⟩
    obtain rfl := matches_nil_iff.1 hm
    rw [List.append_nil] at hw
    obtain ⟨place, way⟩ := spot
    obtain rfl := leads_nil_iff.1 h
    obtain rfl := hw
    rfl
  · rintro rfl
    exact ⟨[], .nil, .here, (List.append_nil _).symm⟩

theorem not_leadsAlong_slash : ¬ t.LeadsAlong (.slash :: left) s spot := by
  rintro ⟨way, hm, -⟩
  cases hm

theorem leadsAlong_name_iff (hd : t.isDirectoryAt s.place = true) :
    t.LeadsAlong (.name part :: left) s spot ↔ t.LeadsAlong left (s.enter part) spot := by
  constructor
  · rintro ⟨way, hm, h, hw⟩
    cases hm with
    | name hm => exact ⟨_, hm, (leads_cons_iff.1 h).2, by rw [hw, List.append_cons]; rfl⟩
  · rintro ⟨way, hm, h, hw⟩
    exact ⟨part :: way, .name hm, .enter hd h, by rw [hw, List.append_cons]; rfl⟩

theorem leadsAlong_names_iff {wildcard : Wildcard} (hd : t.isDirectoryAt s.place = true) :
    t.LeadsAlong (.names wildcard :: left) s spot ↔
      ∃ part, wildcard.Covers part.toList ∧ part ≠ ".." ∧
        t.LeadsAlong left (s.enter part) spot := by
  constructor
  · rintro ⟨way, hm, h, hw⟩
    cases hm with
    | @names _ part _ way hc hp hm =>
      exact ⟨part, hc, hp, way, hm, (leads_cons_iff.1 h).2, by rw [hw, List.append_cons]; rfl⟩
  · rintro ⟨part, hc, hp, way, hm, h, hw⟩
    exact ⟨part :: way, .names hc hp hm, .enter hd h, by rw [hw, List.append_cons]; rfl⟩

/-- Two stars lead to a directory first, and the way to a file goes on from there. -/
theorem leadsAlong_anyDepth_iff (hs : t.Sound) (hf : t.isFileAt spot.place = true) :
    t.LeadsAlong (.anyDepth :: left) s spot ↔
      ∃ between, ".." ∉ between ∧ t.isDirectoryAt (s.place ++ between) = true ∧
        t.LeadsAlong left ⟨s.place ++ between, s.way ++ between⟩ spot := by
  constructor
  · rintro ⟨way, hm, h, hw⟩
    cases hm with
    | @anyDepth between _ way plain hne hm =>
      obtain ⟨mid, hb, hl⟩ := leads_append_iff.1 h
      obtain rfl := hb.eq_append plain
      exact ⟨between, plain, hl.isDirectoryAt hne, way, hm, hl, by rw [hw, List.append_assoc]⟩
  · rintro ⟨between, plain, hb, way, hm, hl, hw⟩
    have hne : way ≠ [] := by
      rintro rfl
      rw [leads_nil_iff.1 hl] at hf
      exact not_isFileAt hb hf
    have first := leads_append hs (by rw [isDirectoryAt_iff.1 hb]; rfl) plain
    exact ⟨between ++ way, .anyDepth plain hne hm, leads_append_iff.2 ⟨_, first, hl⟩,
      by rw [hw, List.append_assoc]⟩

/-- A spot is admitted if the pattern leads on from there to a file. -/
theorem LeadsAlong.admits (h : t.LeadsAlong left s spot) (hf : t.isFileAt spot.place = true) :
    t.admits left s = true := by
  obtain ⟨way, hm, h, -⟩ := h
  rw [FileTree.admits]
  by_cases hl : left = []
  · subst hl
    obtain rfl := matches_nil_iff.1 hm
    rw [leads_nil_iff.1 h] at hf
    exact isSome_of_isFileAt hf
  · rw [if_neg (by simpa using hl)]
    exact h.isDirectoryAt (ne_nil_of_matches hm hl)

/-- **A pattern selects the files on the ways that it matches.** -/
theorem mem_select_iff (ht : t.IsTree) (hd : pattern ≠ [] → t.isDirectoryAt s.place = true)
    (hf : t.isFileAt spot.place = true) :
    spot ∈ t.select pattern s ↔ t.LeadsAlong pattern s spot := by
  -- What is left of a pattern is tried at spots that are admitted, and it leads on from no others.
  induction pattern generalizing s with
  | nil => rw [select, List.mem_singleton, leadsAlong_nil_iff]
  | cons segment left ih =>
    have above : t.isDirectoryAt s.place = true := hd (List.cons_ne_nil _ _)
    have further : ∀ part, t.admits left (s.enter part) = true ∧
        spot ∈ t.select left (s.enter part) ↔ t.LeadsAlong left (s.enter part) spot := by
      intro part
      constructor
      · rintro ⟨ha, h⟩
        exact (ih (directory_of_admits ha)).1 h
      · intro h
        exact ⟨h.admits hf, (ih (directory_of_admits (h.admits hf))).2 h⟩
    cases segment with
    | slash =>
      rw [select, List.mem_singleton]
      refine iff_of_false ?_ not_leadsAlong_slash
      rintro rfl
      exact not_isFileAt above hf
    | name part => rw [select, List.mem_ite_nil_right, further, leadsAlong_name_iff above]
    | names wildcard =>
      simp only [select, List.mem_flatMap, List.mem_ite_nil_right, Bool.and_eq_true, and_assoc,
        further, Wildcard.accepts_iff, leadsAlong_names_iff above]
      constructor
      · rintro ⟨part, hn, hc, h⟩
        exact ⟨part, hc, ne_of_mem_namesIn ht.toSound hn, h⟩
      · rintro ⟨part, hc, hp, h⟩
        refine ⟨part, mem_namesIn ?_, hc, h⟩
        have there := isSome_of_admits (h.admits hf)
        rwa [Spot.enter, if_neg hp] at there
    | anyDepth =>
      rw [select, List.mem_flatMap, leadsAlong_anyDepth_iff ht.toSound hf]
      constructor
      · rintro ⟨spot', hm, h⟩
        obtain ⟨between, plain, rfl, hb⟩ := (mem_directoriesFrom_iff ht above).1 hm
        exact ⟨between, plain, hb, (ih fun _ => hb).1 h⟩
      · rintro ⟨between, plain, hb, h⟩
        exact ⟨_, (mem_directoriesFrom_iff ht above).2 ⟨between, plain, rfl, hb⟩,
          (ih fun _ => hb).2 h⟩

end FileTree

end PlainSchema
