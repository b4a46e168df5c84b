/-
PlainSchema/Proofs/Finding.lean

The files that several patterns find, in order.

Each way is taken once, and they are sorted by their parts, so the list is settled by
its members (`eq_of_sorted`): it does not matter in which order the patterns stand,
or how often one of them finds a file.  The default patterns are made for an ending of
the name, and ask for nothing else (`found_endingIn_iff`).
-/
import PlainSchema.Proofs.Matching
import PlainSchema.Settings

namespace PlainSchema

namespace FileTree

variable {t : FileTree} {root : Place} {pattern : Pattern} {directory : Path} {text : String}
  {texts : List String}

/-! ### Order -/

/-- Ways in order, each once. -/
def inOrder (ways : List (List String)) : List (List String) :=
  ways.eraseDups.mergeSort fun v w => !decide (w < v)

theorem mem_inOrder {ways : List (List String)} {way : List String} :
    way ∈ inOrder ways ↔ way ∈ ways := by
  rw [inOrder, List.mem_mergeSort, List.mem_eraseDups]

theorem pairwise_inOrder (ways : List (List String)) : (inOrder ways).Pairwise (· < ·) := by
  have sorted : (inOrder ways).Pairwise fun v w => (!decide (w < v)) = true := by
    apply List.pairwise_mergeSort
    · intro u v w
      simp only [Bool.not_eq_true', decide_eq_false_iff_not, List.not_lt]
      exact List.le_trans
    · intro v w
      simp only [Bool.or_eq_true, Bool.not_eq_true', decide_eq_false_iff_not, List.not_lt]
      exact List.le_total v w
  have once : (inOrder ways).Nodup := (List.mergeSort_perm _ _).nodup_iff.2 (nodup_eraseDups _)
  refine sorted.imp₂ (fun v w hs hn => ?_) once
  simp only [Bool.not_eq_true', decide_eq_false_iff_not, List.not_lt] at hs
  by_contra hl
  exact hn (List.le_antisymm hs (List.not_lt.1 hl))

/-- Two lists in order are the same if they have the same members. -/
theorem eq_of_sorted {vs ws : List Path} (hv : (vs.map Path.parts).Pairwise (· < ·))
    (hw : (ws.map Path.parts).Pairwise (· < ·)) (h : ∀ way, way ∈ vs ↔ way ∈ ws) : vs = ws := by
  rw [List.pairwise_map] at hv hw
  have once : ∀ {us : List Path}, us.Pairwise (fun v w => v.parts < w.parts) → us.Nodup := by
    intro us hu
    refine hu.imp fun hl => ?_
    rintro rfl
    exact List.lt_irrefl _ hl
  refine List.Perm.eq_of_pairwise ?_ hv hw ((List.perm_ext_iff_of_nodup (once hv) (once hw)).2 h)
  intro v w _ _ hl hl'
  exact absurd hl' (List.not_lt.2 (List.le_of_lt hl))

/-! ### What is found -/

theorem exists_globAll (hg : ∀ text ∈ texts, ∃ spots, t.glob directory text = .ok spots) :
    ∃ spots, t.globAll directory texts = .ok spots := by
  induction texts with
  | nil => exact ⟨[], rfl⟩
  | cons text texts ih =>
    obtain ⟨⟨first, hf⟩, others⟩ := List.forall_mem_cons.1 hg
    obtain ⟨rest, hr⟩ := ih others
    exact ⟨first ++ rest, by rw [globAll, hf, hr]; rfl⟩

/-- The ways to the files that are selected are those that are matched. -/
theorem exists_spot_iff (ht : t.IsTree) (hd : t.find? directory = .ok (some .directory))
    (hp : t.place directory = .ok root) {spots : List Spot}
    (hg : t.globAll directory texts = .ok spots) {way : List String} :
    (∃ spot ∈ spots, t.isFileAt spot.place = true ∧ spot.way = way) ↔
      Pattern.MatchesOne texts way ∧ t.IsFileWay root way := by
  have above : t.isDirectoryAt root = true := by
    obtain ⟨place, hp', there⟩ := find?_eq_some_iff.1 hd
    obtain rfl := Except.ok.inj (hp.symm.trans hp')
    exact isDirectoryAt_iff.2 there
  constructor
  · rintro ⟨spot, hm, hf, rfl⟩
    obtain ⟨text, htx, pattern, ho, hm⟩ := (mem_globAll_iff hd hp hg).1 hm
    obtain ⟨way, matched, leads, hw⟩ := (mem_select_iff ht (fun _ => above) hf).1 hm
    obtain rfl : spot.way = way := hw
    exact ⟨⟨text, htx, pattern, ho, matched⟩, spot.place, leads, hf⟩
  · rintro ⟨⟨text, htx, pattern, ho, matched⟩, place, leads, hf⟩
    refine ⟨⟨place, way⟩, (mem_globAll_iff hd hp hg).2 ⟨text, htx, pattern, ho, ?_⟩, hf, rfl⟩
    exact (mem_select_iff ht (fun _ => above) hf).2 ⟨way, matched, leads, rfl⟩

/-- **What patterns find**: the files on the ways that one of them matches, in order. -/
theorem discover_eq_ok (ht : t.IsTree) (hd : t.find? directory = .ok (some .directory))
    (hp : t.place directory = .ok root)
    (hg : ∀ text ∈ texts, ∃ spots, t.glob directory text = .ok spots) :
    ∃ ways, t.discover directory texts = .ok ways ∧ (ways.map Path.parts).Pairwise (· < ·) ∧
      ∀ way, way ∈ ways ↔
        way.anchor = .here ∧ Pattern.MatchesOne texts way.parts ∧ t.IsFileWay root way.parts := by
  obtain ⟨spots, hs⟩ := exists_globAll hg
  refine ⟨(inOrder ((spots.filter fun s => t.isFileAt s.place).map Spot.way)).map
    fun way => ⟨.here, way⟩, by rw [discover, hs]; rfl, ?_, ?_⟩
  · rw [List.map_map]
    show (List.map id _).Pairwise _
    rw [List.map_id]
    exact pairwise_inOrder _
  · intro way
    rw [← exists_spot_iff ht hd hp hs]
    simp only [List.mem_map, mem_inOrder, List.mem_filter, and_assoc]
    constructor
    · rintro ⟨parts, found, rfl⟩
      exact ⟨rfl, found⟩
    · rintro ⟨anchor, found⟩
      exact ⟨way.parts, found, anchor ▸ rfl⟩

/-! ### Patterns that are accepted -/

theorem overlong?_eq_none {before : Pattern} {s : Spot}
    (short : ∀ part, .name part ∈ pattern → isTooLong part = false) :
    t.overlong? s before pattern = none := by
  induction pattern generalizing before with
  | nil => rw [overlong?]
  | cons segment left ih =>
    have rest : ∀ part, .name part ∈ left → isTooLong part = false :=
      fun part hm => short part (List.mem_cons_of_mem _ hm)
    cases segment with
    | name part => rw [overlong?, short part List.mem_cons_self, if_neg Bool.false_ne_true, ih rest]
    | _ =>
      rw [overlong?, ih rest]
      intro part h
      cases h

/-- A pattern is accepted if its names are not too long. -/
theorem exists_glob (hd : t.find? directory = .ok (some .directory))
    (hr : Pattern.ofText text = .ok pattern)
    (short : ∀ part, .name part ∈ pattern → isTooLong part = false) :
    ∃ spots, t.glob directory text = .ok spots := by
  obtain ⟨place, hp, -⟩ := find?_eq_some_iff.1 hd
  exact ⟨t.select pattern ⟨place, []⟩,
    by simp only [glob, hr, hd, hp, overlong?_eq_none short]⟩

/-! ### Endings -/

/-- The pattern for the files at any depth whose names have an ending. -/
def endingIn (ending : List Char) : Pattern := [.anyDepth, .names (.many :: ending.map .only)]

theorem covers_only_iff {ending cs : List Char} :
    Wildcard.Covers (ending.map .only) cs ↔ cs = ending := by
  induction ending generalizing cs with
  | nil => exact Wildcard.covers_nil_iff
  | cons c ending ih =>
    have hm : Piece.only c ≠ .many := nofun
    rw [List.map_cons]
    rcases cs with - | ⟨d, cs⟩
    · exact iff_of_false (Wildcard.not_covers_nil hm) nofun
    · rw [Wildcard.covers_one_cons_iff hm, ih, List.cons.injEq]
      refine and_congr_left' ?_
      constructor
      · rintro ⟨⟩
        rfl
      · rintro rfl
        exact .only d

theorem matches_endingIn_iff {ending : List Char} {way : List String} :
    (endingIn ending).Matches way ↔ ∃ init part, way = init ++ [part] ∧ ".." ∉ init ∧
      part ≠ ".." ∧ ending <:+ part.toList := by
  have covers : ∀ {cs : List Char},
      Wildcard.Covers (.many :: ending.map .only) cs ↔ ending <:+ cs := by
    intro cs
    rw [Wildcard.covers_cons_iff]
    constructor
    · rintro ⟨part, rest, rfl, -, hr⟩
      rw [covers_only_iff.1 hr]
      exact List.suffix_append _ _
    · rintro ⟨part, rfl⟩
      exact ⟨part, ending, rfl, .many part, covers_only_iff.2 rfl⟩
  constructor
  · intro h
    cases h with
    | @anyDepth init _ way plain _ hm =>
      cases hm with
      | @names _ part _ way hc hp hm =>
        obtain rfl := matches_nil_iff.1 hm
        exact ⟨init, part, rfl, plain, hp, covers.1 hc⟩
  · rintro ⟨init, part, rfl, plain, hp, he⟩
    exact .anyDepth plain (List.cons_ne_nil _ _) (.names (covers.2 he) hp .nil)

theorem ofText_yml : Pattern.ofText "**/*.yml" = .ok (endingIn ".yml".toList) := by
  with_unfolding_all rfl

theorem ofText_yaml : Pattern.ofText "**/*.yaml" = .ok (endingIn ".yaml".toList) := by
  with_unfolding_all rfl

/-- A way to a file whose name has an ending is matched at any depth. -/
theorem found_endingIn_iff (hs : t.Sound) {ending : List Char} {way : List String} :
    (endingIn ending).Matches way ∧ t.IsFileWay root way ↔
      ∃ init part, way = init ++ [part] ∧ t.isFileAt (root ++ way) = true ∧
        ending <:+ part.toList := by
  rw [matches_endingIn_iff]
  constructor
  · rintro ⟨⟨init, part, rfl, plain, hp, he⟩, hf⟩
    have plain' : ".." ∉ init ++ [part] := by
      simp [plain, Ne.symm hp]
    exact ⟨init, part, rfl, (isFileWay_iff_of_plain hs plain').1 hf, he⟩
  · rintro ⟨init, part, rfl, hf, he⟩
    -- The names in a tree are no dots.
    have plain := hs.not_mem_of_isSome (isSome_of_isFileAt hf)
    simp only [List.mem_append, List.mem_singleton, not_or] at plain
    refine ⟨⟨init, part, rfl, plain.2.1, Ne.symm plain.2.2, he⟩, ?_⟩
    exact (isFileWay_iff_of_plain hs (by simp [plain])).2 hf

/-- The default patterns are those for two endings. -/
theorem matchesOne_defaultPatterns_iff {way : List String} :
    Pattern.MatchesOne defaultPatterns way ↔
      (endingIn ".yml".toList).Matches way ∨ (endingIn ".yaml".toList).Matches way := by
  simp [Pattern.MatchesOne, defaultPatterns, ofText_yml, ofText_yaml]

/-! ### All that is found -/

/-- **Discovery is exact.**  Patterns that are accepted find the files on the ways that one of them
matches, in order, so that only the set of the patterns counts; the default ones find all files
with one of two endings. -/
theorem discover_exact (ht : t.IsTree) (hp : t.place directory = .ok root)
    (hd : t.isDirectoryAt root = true) :
    (∀ texts, (∀ text ∈ texts, ∃ spots, t.glob directory text = .ok spots) →
      ∃ ways, t.discover directory texts = .ok ways ∧
        (ways.map Path.parts).Pairwise (· < ·) ∧
        (∀ way, way ∈ ways ↔ way.anchor = .here ∧ Pattern.MatchesOne texts way.parts ∧
          t.IsFileWay root way.parts) ∧
        ∀ texts', (∀ text, text ∈ texts' ↔ text ∈ texts) →
          t.discover directory texts' = .ok ways) ∧
    ∃ ways, t.discover directory defaultPatterns = .ok ways ∧
      (ways.map Path.parts).Pairwise (· < ·) ∧
      ∀ way, way ∈ ways ↔ way.anchor = .here ∧ ∃ init part, way.parts = init ++ [part] ∧
        t.isFileAt (root ++ way.parts) = true ∧
        (".yml".toList <:+ part.toList ∨ ".yaml".toList <:+ part.toList) := by
  have found : t.find? directory = .ok (some .directory) :=
    find?_eq_some_iff.2 ⟨root, hp, isDirectoryAt_iff.1 hd⟩
  constructor
  · intro texts hg
    obtain ⟨ways, hw, sorted, members⟩ := discover_eq_ok ht found hp hg
    refine ⟨ways, hw, sorted, members, fun texts' same => ?_⟩
    obtain ⟨ways', hw', sorted', members'⟩ :=
      discover_eq_ok ht found hp fun text hm => hg text ((same text).1 hm)
    rw [hw']
    refine congrArg Except.ok (eq_of_sorted sorted' sorted fun way => ?_)
    rw [members, members', Pattern.MatchesOne, Pattern.MatchesOne]
    simp only [same]
  · have accepted : ∀ text ∈ defaultPatterns, ∃ spots, t.glob directory text = .ok spots := by
      simp only [defaultPatterns, List.forall_mem_cons]
      refine ⟨exists_glob found ofText_yml ?_, exists_glob found ofText_yaml ?_, nofun⟩ <;>
        simp [endingIn]
    obtain ⟨ways, hw, sorted, members⟩ := discover_eq_ok ht found hp accepted
    refine ⟨ways, hw, sorted, fun way => ?_⟩
    rw [members, matchesOne_defaultPatterns_iff, or_and_right, found_endingIn_iff ht.toSound,
      found_endingIn_iff ht.toSound]
    simp only [and_or_left, exists_or]

/-- A directory with a file whose name is hidden, one whose name is an ending, one inside of a
directory whose name ends like a file, and one with another ending. -/
def mixedTree : FileTree :=
  ⟨[(["w"], .directory), (["w", "a-b.yml"], .file []), (["w", "a"], .directory),
    (["w", "a", "x.yml"], .file []), (["w", ".h.yml"], .file []), (["w", "d.yml"], .directory),
    (["w", "d.yml", ".yaml"], .file []), (["w", "n.txt"], .file [])], []⟩

theorem isFileAt_mixedTree {place : Place} : mixedTree.isFileAt place = true ↔
    place ∈ [["w", "a-b.yml"], ["w", "a", "x.yml"], ["w", ".h.yml"], ["w", "d.yml", ".yaml"],
      ["w", "n.txt"]] := by
  constructor
  · intro h
    obtain ⟨octets, h⟩ := isFileAt_iff.1 h
    have hp : place ≠ [] := by
      rintro rfl
      exact absurd h nofun
    have hm := mem_of_at? h hp
    simp only [mixedTree, List.mem_cons, Prod.mk.injEq, reduceCtorEq, and_false, false_or,
      List.not_mem_nil, or_false] at hm
    simp only [List.mem_cons, List.not_mem_nil, or_false]
    tauto
  · intro h
    simp only [List.mem_cons, List.not_mem_nil, or_false] at h
    rcases h with rfl | rfl | rfl | rfl | rfl <;> rfl

/-- Two patterns find one file, and the default ones find four: all of `a` comes before `a-b`. -/
theorem discover_exact_mixedTree :
    mixedTree.IsTree ∧ mixedTree.place ⟨.here, ["w"]⟩ = .ok ["w"] ∧
    mixedTree.isDirectoryAt ["w"] = true ∧
    (∀ text ∈ ["a/*", "**/x.*"], ∃ spots, mixedTree.glob ⟨.here, ["w"]⟩ text = .ok spots) ∧
    (∃ ways, mixedTree.discover ⟨.here, ["w"]⟩ ["a/*", "**/x.*"] = .ok ways ∧
      ⟨.here, ["a", "x.yml"]⟩ ∈ ways ∧
      mixedTree.discover ⟨.here, ["w"]⟩ ["**/x.*", "a/*", "**/x.*"] = .ok ways) ∧
    mixedTree.discover ⟨.here, ["w"]⟩ defaultPatterns = .ok [⟨.here, [".h.yml"]⟩,
      ⟨.here, ["a", "x.yml"]⟩, ⟨.here, ["a-b.yml"]⟩, ⟨.here, ["d.yml", ".yaml"]⟩] := by
  have ht : mixedTree.IsTree := ⟨⟨by decide, by decide, by decide, by decide⟩, by decide⟩
  have hp : mixedTree.place ⟨.here, ["w"]⟩ = .ok ["w"] := rfl
  have hd : mixedTree.isDirectoryAt ["w"] = true := rfl
  have found : mixedTree.find? ⟨.here, ["w"]⟩ = .ok (some .directory) := rfl
  have inA : Pattern.ofText "a/*" = .ok [.name "a", .names [.many]] := by with_unfolding_all rfl
  have anyX : Pattern.ofText "**/x.*" = .ok [.anyDepth, .names [.only 'x', .only '.', .many]] := by
    with_unfolding_all rfl
  have hg : ∀ text ∈ ["a/*", "**/x.*"],
      ∃ spots, mixedTree.glob ⟨.here, ["w"]⟩ text = .ok spots := by
    simp only [List.forall_mem_cons]
    refine ⟨exists_glob found inA ?_, exists_glob found anyX ?_, nofun⟩
    · simp only [List.mem_cons, Segment.name.injEq, reduceCtorEq, List.not_mem_nil, or_false]
      rintro part rfl
      decide
    · simp
  obtain ⟨several, ways', hw', sorted', members'⟩ := discover_exact ht hp hd
  obtain ⟨ways, hw, -, members, same⟩ := several _ hg
  refine ⟨ht, hp, hd, hg, ⟨ways, hw, (members _).2 ?_, same _ ?_⟩, ?_⟩
  · refine ⟨rfl, ⟨"a/*", by simp, _, inA, ?_⟩, (isFileWay_iff_of_plain ht.toSound ?_).2 ?_⟩
    · have any : Wildcard.Covers [.many] "x.yml".toList :=
        Wildcard.covers_cons_iff.2 ⟨_, [], (List.append_nil _).symm, .many _, .nil⟩
      exact .name (.names any (by decide) .nil)
    · decide
    · rfl
  · intro text
    simp only [List.mem_cons, List.not_mem_nil, or_false]
    tauto
  · rw [hw']
    refine congrArg Except.ok (eq_of_sorted sorted' (by decide) fun way => ?_)
    rw [members']
    simp only [isFileAt_mixedTree, List.mem_cons, List.not_mem_nil, or_false]
    constructor
    · obtain ⟨anchor, parts⟩ := way
      rintro ⟨rfl, init, part, hparts : parts = _, hf, he⟩
      simp only [List.singleton_append, List.cons.injEq, true_and] at hf
      rcases hf with rfl | rfl | rfl | rfl | rfl
      · simp
      · simp
      · simp
      · simp
      · -- The last file has another ending.
        obtain rfl : part = "n.txt" := by
          have := congrArg List.getLast? hparts
          simpa using this.symm
        revert he
        decide
    · rintro (rfl | rfl | rfl | rfl)
      · exact ⟨rfl, [], ".h.yml", rfl, by simp, by decide⟩
      · exact ⟨rfl, ["a"], "x.yml", rfl, by simp, by decide⟩
      · exact ⟨rfl, [], "a-b.yml", rfl, by simp, by decide⟩
      · exact ⟨rfl, ["d.yml"], ".yaml", rfl, by simp, by decide⟩

end FileTree

end PlainSchema
