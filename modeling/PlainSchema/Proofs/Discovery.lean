/-
PlainSchema/Proofs/Discovery.lean

What patterns select depends on what lies below the directory alone.

A pattern without dots that lead back never leaves the directory that it starts from:
every spot that it comes to is where its way leads from there (`Spot.Under`), and so
it sees no more of the tree than what is below the directory.  `select` goes through
the segments of a pattern, and so do the proofs, one case for each kind of segment.
-/
import Mathlib.Data.List.Nodup
import PlainSchema.Files.Selection
import PlainSchema.Proofs.Places

namespace PlainSchema

/-- Whether a spot is where its way leads from a place, and the way does not lead back. -/
structure Spot.Under (root : Place) (s : Spot) : Prop where
  place : s.place = root ++ s.way
  plain : ".." ∉ s.way

theorem Spot.Under.enter {root : Place} {s : Spot} {part : String} (h : s.Under root)
    (hp : part ≠ "..") : (s.enter part).Under root where
  place := by
    rw [Spot.enter, if_neg hp, h.place, List.append_assoc]
  plain := by
    rw [Spot.enter, List.mem_append, not_or]
    exact ⟨h.plain, fun hm => hp (List.mem_singleton.1 hm).symm⟩

namespace Pattern

variable {parts : List String} {pattern : Pattern} {text part : String}

/-- Whether no segment of a pattern leads back. -/
def IsPlain (pattern : Pattern) : Prop := Segment.name ".." ∉ pattern

theorem mem_of_segments (h : segments parts = .ok pattern) (hm : .name part ∈ pattern) :
    part ∈ parts := by
  induction parts generalizing pattern with
  | nil =>
    obtain rfl := Except.ok.inj h
    cases hm
  | cons part' parts ih =>
    rw [segments] at h
    split at h
    · cases h
    · next s hs =>
      rcases hr : segments parts with e | rest <;> rw [hr] at h
      · cases h
      · obtain rfl : s :: rest = pattern := Except.ok.inj h
        rcases List.mem_cons.1 hm with rfl | hm
        · -- The only segment with this name is the one of the part itself.
          unfold segment at hs
          split at hs
          · cases hs
          · split at hs
            · cases hs
            · split at hs <;> cases hs
              exact List.mem_cons_self
        · exact List.mem_cons_of_mem _ (ih hr hm)

/-- A pattern whose text has no part that leads back. -/
theorem isPlain_of_text (plain : ".." ∉ (Path.ofText text).parts)
    (h : ofText text = .ok pattern) : pattern.IsPlain := by
  unfold ofText at h
  dsimp only at h
  split at h
  · cases h
  · split at h
    · cases h
    · split at h
      · cases h
      · rcases hs : segments (Path.ofText text).parts with e | pattern' <;> rw [hs] at h
        · cases h
        · obtain rfl := Except.ok.inj h
          intro hm
          rcases List.mem_append.1 hm with hm | hm
          · exact plain (mem_of_segments hs hm)
          · split at hm <;> simp at hm

end Pattern

namespace FileTree

variable {t t' : FileTree} {root place : Place} {s spot : Spot} {pattern left before : Pattern}
  {part : String} {directory : Path} {texts : List String} {ways : List Path}

/-! ### Where patterns lead -/

theorem ne_of_mem_namesIn (hs : t.Sound) (h : part ∈ t.namesIn place) : part ≠ ".." := by
  obtain ⟨e, he, hp⟩ := List.mem_filterMap.1 h
  split at hp
  · rintro rfl
    exact hs.names e he (List.mem_of_getLast? hp)
  · cases hp

theorem under_of_mem_directoriesFrom (hs : t.Sound) (hu : s.Under root)
    (h : spot ∈ t.directoriesFrom s) : spot.Under root := by
  rcases List.mem_cons.1 h with rfl | h
  · exact hu
  obtain ⟨place, hp, rfl⟩ := List.mem_map.1 h
  obtain ⟨e, he, hp⟩ := List.mem_filterMap.1 hp
  split at hp
  · next hc =>
    obtain rfl := Option.some.inj hp
    simp only [Bool.and_eq_true, List.isPrefixOf_iff_prefix] at hc
    obtain ⟨rest, hr⟩ := hc.1.2
    rw [← hr, List.drop_left]
    constructor
    · rw [hu.place, List.append_assoc]
    · rw [List.mem_append, not_or]
      exact ⟨hu.plain, fun hm => hs.names e he (hr ▸ List.mem_append_right _ hm)⟩
  · cases hp

/-- A plain pattern never leaves the directory that it starts from. -/
theorem under_of_mem_select (hs : t.Sound) (hp : pattern.IsPlain) (hu : s.Under root)
    (h : spot ∈ t.select pattern s) : spot.Under root := by
  induction pattern generalizing s with
  | nil =>
    rw [select, List.mem_singleton] at h
    exact h ▸ hu
  | cons segment left ih =>
    have hl : Pattern.IsPlain left := fun hm => hp (List.mem_cons_of_mem _ hm)
    cases segment with
    | slash =>
      rw [select, List.mem_singleton] at h
      exact h ▸ hu
    | name part =>
      rw [select] at h
      split at h
      · exact ih hl (hu.enter fun hd => hp (hd ▸ List.mem_cons_self)) h
      · cases h
    | names wildcard =>
      rw [select] at h
      obtain ⟨part, hm, h⟩ := List.mem_flatMap.1 h
      split at h
      · exact ih hl (hu.enter (ne_of_mem_namesIn hs hm)) h
      · cases h
    | anyDepth =>
      rw [select] at h
      obtain ⟨spot', hm, h⟩ := List.mem_flatMap.1 h
      exact ih hl (under_of_mem_directoriesFrom hs hu hm) h

/-! ### The same directory in another tree -/

/-- Whether the same lies in a directory of two trees. -/
structure SameBelow (root : Place) (t t' : FileTree) : Prop where
  before : t.isDirectoryAt root = true
  after : t'.isDirectoryAt root = true
  below : t'.below root = t.below root

namespace SameBelow

theorem at? (h : SameBelow root t t') (way : List String) :
    t'.at? (root ++ way) = t.at? (root ++ way) := by
  by_cases hw : way = []
  · rw [hw, List.append_nil, isDirectoryAt_iff.1 h.before, isDirectoryAt_iff.1 h.after]
  · exact at?_eq_of_below h.below (List.prefix_append _ _) (by simpa using hw)

/-- What is found by going through the entries depends on those below the directory alone. -/
theorem filterMap {α : Type} (h : SameBelow root t t') (f : Place × Entry → Option α)
    (hf : ∀ e, ¬ (root <+: e.1 ∧ e.1 ≠ root) → f e = none) :
    t'.entries.filterMap f = t.entries.filterMap f := by
  have found : ∀ t : FileTree, (t.below root).filterMap f = t.entries.filterMap f := by
    intro t
    rw [FileTree.below, List.filterMap_filter]
    refine List.filterMap_congr fun e _ => ?_
    split
    · rfl
    · next he =>
      refine (hf e fun hr => he ?_).symm
      simp [hr.1, hr.2]
  rw [← found t, ← found t', h.below]

theorem namesIn (h : SameBelow root t t') (hu : s.Under root) :
    t'.namesIn s.place = t.namesIn s.place := by
  refine h.filterMap _ fun e he => if_neg fun hc => he ?_
  simp only [Bool.and_eq_true, decide_eq_true_eq, ne_eq] at hc
  have hp : e.1 = root ++ (s.way ++ [e.1.getLast hc.1]) := by
    rw [← List.append_assoc, ← hu.place]
    exact (List.dropLast_append_getLast hc.1).symm.trans (congrArg (· ++ _) hc.2)
  rw [hp]
  exact ⟨List.prefix_append _ _, by simp⟩

theorem directoriesFrom (h : SameBelow root t t') (hu : s.Under root) :
    t'.directoriesFrom s = t.directoriesFrom s := by
  -- The spot itself comes first in both; the others lie below it, and so below the directory.
  have below : t'.directoriesBelow s.place = t.directoriesBelow s.place := by
    refine h.filterMap _ fun e he => if_neg fun hc => he ?_
    simp only [Bool.and_eq_true, decide_eq_true_eq, List.isPrefixOf_iff_prefix, ne_eq] at hc
    obtain ⟨⟨-, rest, hr⟩, hne⟩ := hc
    have hp : e.1 = root ++ (s.way ++ rest) := by rw [← hr, hu.place, List.append_assoc]
    refine ⟨hp ▸ List.prefix_append _ _, fun hq => hne ?_⟩
    rw [hq, List.self_eq_append_right, List.append_eq_nil_iff] at hp
    rw [hq, hu.place, hp.1, List.append_nil]
  rw [FileTree.directoriesFrom, FileTree.directoriesFrom, below]

theorem admits (h : SameBelow root t t') (hu : s.Under root) (left : Pattern) :
    t'.admits left s = t.admits left s := by
  rw [FileTree.admits, FileTree.admits, isDirectoryAt, isDirectoryAt, hu.place, h.at?]

/-- A plain pattern selects the same spots. -/
theorem select (h : SameBelow root t t') (hs : t.Sound) (hp : pattern.IsPlain)
    (hu : s.Under root) : t'.select pattern s = t.select pattern s := by
  induction pattern generalizing s with
  | nil => rw [FileTree.select, FileTree.select]
  | cons segment left ih =>
    have hl : Pattern.IsPlain left := fun hm => hp (List.mem_cons_of_mem _ hm)
    cases segment with
    | slash => rw [FileTree.select, FileTree.select]
    | name part =>
      have hu' : (s.enter part).Under root := hu.enter fun hd => hp (hd ▸ List.mem_cons_self)
      rw [FileTree.select, FileTree.select, h.admits hu', ih hl hu']
    | names wildcard =>
      rw [FileTree.select, FileTree.select, h.namesIn hu]
      refine List.flatMap_congr fun part hm => ?_
      have hu' := hu.enter (ne_of_mem_namesIn hs hm)
      rw [h.admits hu', ih hl hu']
    | anyDepth =>
      rw [FileTree.select, FileTree.select, h.directoriesFrom hu]
      exact List.flatMap_congr fun spot hm => ih hl (under_of_mem_directoriesFrom hs hu hm)

theorem overlong? (h : SameBelow root t t') (hs : t.Sound) (hu : s.Under root)
    (hp : (before ++ left).IsPlain) : t'.overlong? s before left = t.overlong? s before left := by
  induction left generalizing before with
  | nil => rw [FileTree.overlong?, FileTree.overlong?]
  | cons segment left ih =>
    rw [List.append_cons] at hp
    -- A name is tried in the directories that what comes before it selects.
    have hb : Pattern.IsPlain (before ++ [.slash]) := by
      intro hm
      rcases List.mem_append.1 hm with hm | hm
      · exact hp (List.mem_append_left _ (List.mem_append_left _ hm))
      · simp at hm
    cases segment with
    | name part =>
      rw [FileTree.overlong?, FileTree.overlong?, h.select hs hb hu, ih hp]
    | names wildcard => rw [FileTree.overlong?, FileTree.overlong?, ih hp] <;> exact nofun
    | anyDepth => rw [FileTree.overlong?, FileTree.overlong?, ih hp] <;> exact nofun
    | slash => rw [FileTree.overlong?, FileTree.overlong?, ih hp] <;> exact nofun

/-- The directory is found where it was. -/
theorem find? (h : SameBelow root t t') (hp : t.place directory = .ok root)
    (hp' : t'.place directory = .ok root) :
    t'.find? directory = .ok (some .directory) ∧ t.find? directory = .ok (some .directory) := by
  simp only [FileTree.find?, hp, hp', isDirectoryAt_iff.1 h.before, isDirectoryAt_iff.1 h.after,
    and_self]

end SameBelow

/-- The directory itself is a spot below it. -/
theorem under_start : (Spot.mk root []).Under root where
  place := (List.append_nil root).symm
  plain := List.not_mem_nil

/-- What a pattern selects below a directory is selected again where the same lies there. -/
theorem glob_congr {text : String} (h : SameBelow root t t') (hs : t.Sound)
    (hp : t.place directory = .ok root) (hp' : t'.place directory = .ok root)
    (plain : ".." ∉ (Path.ofText text).parts) :
    t'.glob directory text = t.glob directory text := by
  obtain ⟨hf', hf⟩ := h.find? hp hp'
  rcases hr : Pattern.ofText text with e | pattern
  · simp only [glob, hr]
  · have hpl := Pattern.isPlain_of_text plain hr
    have hl : t'.overlong? ⟨root, []⟩ [] pattern = t.overlong? ⟨root, []⟩ [] pattern :=
      h.overlong? hs under_start hpl
    simp only [glob, hr, hf, hf', hp, hp', h.select hs hpl under_start, hl]

theorem under_of_mem_glob {text : String} {spots : List Spot} (hs : t.Sound)
    (hp : t.place directory = .ok root) (plain : ".." ∉ (Path.ofText text).parts)
    (hg : t.glob directory text = .ok spots) (hm : spot ∈ spots) : spot.Under root := by
  unfold glob at hg
  split at hg
  · cases hg
  · next pattern hr =>
    split at hg
    · cases hg
    · rw [hp] at hg
      dsimp only at hg
      split at hg
      · cases hg
      · obtain rfl := Except.ok.inj hg
        exact under_of_mem_select hs (Pattern.isPlain_of_text plain hr) under_start hm
    · obtain rfl := Except.ok.inj hg
      cases hm

theorem globAll_congr (h : SameBelow root t t') (hs : t.Sound)
    (hp : t.place directory = .ok root) (hp' : t'.place directory = .ok root)
    (plain : ∀ text ∈ texts, ".." ∉ (Path.ofText text).parts) :
    t'.globAll directory texts = t.globAll directory texts := by
  induction texts with
  | nil => rfl
  | cons text texts ih =>
    obtain ⟨first, others⟩ := List.forall_mem_cons.1 plain
    rw [globAll, globAll, glob_congr h hs hp hp' first, ih others]

theorem under_of_mem_globAll {spots : List Spot} (hs : t.Sound)
    (hp : t.place directory = .ok root)
    (plain : ∀ text ∈ texts, ".." ∉ (Path.ofText text).parts)
    (hg : t.globAll directory texts = .ok spots) (hm : spot ∈ spots) : spot.Under root := by
  induction texts generalizing spots with
  | nil =>
    obtain rfl := Except.ok.inj hg
    cases hm
  | cons text texts ih =>
    obtain ⟨first, others⟩ := List.forall_mem_cons.1 plain
    rw [globAll] at hg
    split at hg
    · cases hg
    · next spots' hg' =>
      rcases hr : t.globAll directory texts with e | rest <;> rw [hr] at hg
      · cases hg
      · obtain rfl := Except.ok.inj hg
        rcases List.mem_append.1 hm with hm | hm
        · exact under_of_mem_glob hs hp first hg' hm
        · exact ih others hr hm

/-! ### The files that are found -/

/-- The way of a file below a place. -/
structure IsWay (t : FileTree) (root : Place) (way : Path) : Prop where
  anchor : way.anchor = .here
  plain : ".." ∉ way.parts
  file : t.isFileAt (root ++ way.parts) = true

theorem IsWay.parts_ne_nil {way : Path} (h : t.IsWay root way) (hd : t.isDirectoryAt root = true) :
    way.parts ≠ [] := by
  intro hp
  obtain ⟨octets, hf⟩ := isFileAt_iff.1 h.file
  rw [hp, List.append_nil] at hf
  exact directory_ne_file hd hf

theorem nodup_eraseDups {α : Type} [BEq α] [LawfulBEq α] (xs : List α) : xs.eraseDups.Nodup := by
  induction h : xs.length using Nat.strongRecOn generalizing xs with
  | _ bound ih =>
    subst h
    rcases xs with - | ⟨x, xs⟩
    · exact List.nodup_nil
    · rw [List.eraseDups_cons, List.nodup_cons]
      refine ⟨?_, ih _ (Nat.lt_succ_of_le (List.length_filter_le _ _)) _ rfl⟩
      simp [List.mem_eraseDups]

/-- **What patterns find below a directory** are ways of files there, each once, and they are found
again in every tree in which the same lies in the directory. -/
theorem discover_spec (hs : t.Sound) (hp : t.place directory = .ok root)
    (plain : ∀ text ∈ texts, ".." ∉ (Path.ofText text).parts)
    (hw : t.discover directory texts = .ok ways) :
    (∀ way ∈ ways, t.IsWay root way) ∧ ways.Nodup ∧
      ∀ t', SameBelow root t t' → t'.place directory = .ok root →
        t'.discover directory texts = .ok ways := by
  rcases hg : t.globAll directory texts with e | spots
  · rw [discover, hg] at hw
    cases hw
  have under : ∀ spot ∈ spots, spot.Under root := fun spot =>
    under_of_mem_globAll hs hp plain hg
  refine ⟨fun way hm => ?_, ?_, fun t' h hp' => ?_⟩
  · rw [discover, hg] at hw
    obtain rfl := Except.ok.inj hw
    simp only [List.mem_map, List.mem_mergeSort, List.mem_eraseDups, List.mem_filter] at hm
    obtain ⟨_, ⟨spot, ⟨hm, hf⟩, rfl⟩, rfl⟩ := hm
    exact ⟨rfl, (under spot hm).plain, by rwa [← (under spot hm).place]⟩
  · rw [discover, hg] at hw
    obtain rfl := Except.ok.inj hw
    refine List.Nodup.map (fun v w h => (Path.mk.inj h).2) ?_
    exact (List.mergeSort_perm _ _).nodup_iff.2 (nodup_eraseDups _)
  · rw [← hw, discover, discover, globAll_congr h hs hp hp' plain, hg]
    -- The same spots are selected, and the same of them are files.
    have same : spots.filter (fun s => t'.isFileAt s.place)
        = spots.filter fun s => t.isFileAt s.place := by
      refine List.filter_congr fun spot hm => ?_
      rw [isFileAt, isFileAt, (under spot hm).place, h.at?]
    simp only [Except.map, same]

end FileTree

end PlainSchema
