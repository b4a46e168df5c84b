/-
PlainSchema/Proofs/Accepted.lean

Which settings files are accepted, and which settings they give.

The reader's answer is taken apart entry by entry: each of its steps succeeds exactly
with what the entry stands for (`wordingUnder?_eq_ok_iff`, `directories_eq_ok_iff`,
`patternsOf_eq_ok_iff`, `policyOf_eq_ok_iff`), and so does the whole of it
(`ofNode_eq_ok_iff`).  A document stands for some settings if and only if it is
well-formed (`exists_standsFor_iff`), and every other document is refused.

The reader would take a pair for a list of patterns, but no YAML text has one there.

What is said of a file is said of one that `Shows` its document.  A document may hold
itself then, and halves of surrogate pairs wherever nothing is made of them.  A half in
the name of a directory is another matter: no path is written with it, and the loading
ends in a stray fault (`load_torn`).
-/
import Mathlib.Data.List.DropRight
import PlainSchema.Proofs.Construction
import PlainSchema.Proofs.Halves
import PlainSchema.Settings.Meaning

namespace PlainSchema

namespace Text

variable {s : String} {p : Char → Bool}

theorem toList_stripOf : (stripOf p s).toList = (s.toList.dropWhile p).rdropWhile p := by
  simp [stripOf, List.rdropWhile]

/-- Taking off the end of a list brings nothing new to its front. -/
theorem dropWhile_rdropWhile {α : Type} {p : α → Bool} {xs : List α} (h : xs.dropWhile p = xs) :
    (xs.rdropWhile p).dropWhile p = xs.rdropWhile p := by
  obtain ⟨rest, hr⟩ := xs.rdropWhile_prefix p
  rcases hx : xs.rdropWhile p with - | ⟨x, kept⟩
  · rfl
  · rw [hx] at hr
    rw [← hr, List.cons_append, List.dropWhile_cons] at h
    rw [List.dropWhile_cons]
    split at h
    · -- The list would have got shorter.
      have := congrArg List.length h
      have := (List.dropWhile_sublist p (l := kept ++ rest)).length_le
      simp at *
      omega
    · next hp => rw [if_neg hp]

/-- A text without blanks at its ends has none to take off. -/
theorem strip_strip : strip (strip s) = strip s := by
  apply String.toList_inj.1
  rw [strip, strip, toList_stripOf, toList_stripOf,
    dropWhile_rdropWhile (List.dropWhile_idempotent _ _), List.rdropWhile_idempotent]

theorem mem_of_mem_strip {c : Char} (h : c ∈ (strip s).toList) : c ∈ s.toList := by
  rw [strip, toList_stripOf] at h
  exact (List.dropWhile_sublist _).subset ((List.rdropWhile_prefix _ _).subset h)

end Text

namespace Settings

open Document (HasText)

variable {fs : Fields} {name w : String} {n v document : Node} {r raw clean : Option String}
  {home : Place} {byDefault p : Path} {patterns : List String} {policy : Policy} {s : Settings}
  {e : StrayFault}

/-! ### Texts -/

theorem text_eq_ok_iff : text name n = .ok w ↔ ∃ s, n = .str s ∧ Text.strip s = w := by
  cases n <;> simp [text]

theorem wording_eq_ok_iff : wording name n = .ok w ↔
    ∃ s, n = .str s ∧ Text.strip s = w ∧ w ≠ "" := by
  unfold wording
  rcases ht : text name n with e | w'
  · refine iff_of_false nofun ?_
    rintro ⟨s, hs, hw, -⟩
    cases ht.symm.trans (text_eq_ok_iff.2 ⟨s, hs, hw⟩)
  · obtain ⟨s, rfl, rfl⟩ := text_eq_ok_iff.1 ht
    by_cases hb : Text.strip s = ""
    · simp only [hb, if_true]
      refine iff_of_false nofun ?_
      rintro ⟨s', e, rfl, hne⟩
      obtain rfl := Node.str.inj e
      exact hne hb
    · simp only [hb, if_false]
      constructor
      · intro h
        obtain rfl := Except.ok.inj h
        exact ⟨s, rfl, rfl, hb⟩
      · rintro ⟨s', e, rfl, -⟩
        obtain rfl := Node.str.inj e
        rfl

/-- What an entry for a directory says: nothing if it has no value or a blank one. -/
inductive Says : Option Node → Option String → Prop
  | missing : Says none none
  | blank {s : String} : Text.strip s = "" → Says (some (.str s)) none
  | words {s : String} : Text.strip s ≠ "" → Says (some (.str s)) (some (Text.strip s))

theorem wordingUnder?_eq_ok_iff (fs : Fields) (name shown : String) (r : Option String) :
    wordingUnder? fs name shown = .ok r ↔ Says (given fs name) r := by
  unfold wordingUnder?
  rcases given fs name with - | n
  · constructor
    · intro h
      obtain rfl := Except.ok.inj h
      exact .missing
    · rintro ⟨⟩
      rfl
  · dsimp only
    rw [map_eq_ok_iff]
    constructor
    · rintro ⟨w, ht, rfl⟩
      obtain ⟨s, rfl, rfl⟩ := text_eq_ok_iff.1 ht
      by_cases hb : Text.strip s = ""
      · rw [if_pos hb]
        exact .blank hb
      · rw [if_neg hb]
        exact .words hb
    · intro h
      cases h with
      | @blank s hb => exact ⟨_, text_eq_ok_iff.2 ⟨s, rfl, rfl⟩, if_pos hb⟩
      | @words s hb => exact ⟨_, text_eq_ok_iff.2 ⟨s, rfl, rfl⟩, if_neg hb⟩

/-- A value comes from an entry of a mapping. -/
theorem exists_of_value? (h : value? document name = some v) :
    ∃ fs, document = .map fs ∧ (.str name, v) ∈ fs := by
  unfold value? at h
  split at h
  · next fs =>
    unfold given at h
    split at h
    · cases h
    · exact ⟨fs, rfl, mem_of_get? h⟩
  · cases h

/-- An empty document has the values of an empty mapping. -/
theorem value?_of_root? (h : root? document = some fs) : value? (.map fs) = value? document := by
  unfold root? at h
  split at h
  · obtain rfl := Option.some.inj h
    rfl
  · obtain rfl := Option.some.inj h
    rfl
  · cases h

theorem directory?_of_root? (h : root? document = some fs) :
    directory? (.map fs) = directory? document := by
  unfold directory?
  rw [value?_of_root? h]

/-! ### Directories -/

theorem directories_eq_ok_iff : directories fs = .ok (raw, clean) ↔
    (∀ n, value? (.map fs) "directories" = some n → ∃ gs, n = .map gs) ∧
      Says (directory? (.map fs) "original") raw ∧ Says (directory? (.map fs) "clean") clean := by
  unfold directories directory?
  show _ ↔ (∀ n, given fs "directories" = some n → _) ∧
    Says ((given fs "directories").bind _) raw ∧ Says ((given fs "directories").bind _) clean
  rcases given fs "directories" with - | n
  · constructor
    · intro h
      obtain ⟨rfl, rfl⟩ := Prod.mk.inj (Except.ok.inj h)
      exact ⟨nofun, .missing, .missing⟩
    · rintro ⟨-, ⟨⟩, ⟨⟩⟩
      rfl
  · cases n with
    | map gs =>
      show _ ↔ _ ∧ Says (given gs "original") raw ∧ Says (given gs "clean") clean
      dsimp only
      have original := wordingUnder?_eq_ok_iff gs "original" "directories.original" raw
      have cleaned := wordingUnder?_eq_ok_iff gs "clean" "directories.clean" clean
      rw [← original, ← cleaned]
      rcases wordingUnder? gs "original" "directories.original" with e | raw'
      · simp
      · rcases wordingUnder? gs "clean" "directories.clean" with e | clean'
        · simp [Except.map]
        · simp [Except.map]
    | _ =>
      refine iff_of_false nofun ?_
      rintro ⟨section_, -, -⟩
      obtain ⟨gs, e⟩ := section_ _ rfl
      cases e

/-- Whether there is no NUL character in a text for a directory. -/
def IsClear (v : Option Node) : Prop := ∀ s, v = some (.str s) → '\x00' ∉ s.toList

theorem not_hasNul_strip {s : String} (h : '\x00' ∉ s.toList) :
    (Path.ofText (Text.strip s)).hasNul = false :=
  Path.hasNul_ofText fun hm => h (Text.mem_of_mem_strip hm)

/-- A text for a directory leads to the path that its entry stands for. -/
theorem directoryOf_eq_ok_iff {v : Option Node} (hs : Says v r) (hc : IsClear v) :
    directoryOf home byDefault r = .ok p ↔ StandsForPath home byDefault v p := by
  unfold directoryOf
  cases hs with
  | missing =>
    constructor
    · intro h
      obtain rfl := Except.ok.inj h
      exact .missing
    · rintro ⟨⟩
      rfl
  | blank hb =>
    constructor
    · intro h
      obtain rfl := Except.ok.inj h
      exact .blank hb
    · intro h
      cases h with
      | blank => rfl
      | absolute hne => exact absurd hb hne
      | relative hne => exact absurd hb hne
  | @words s hb =>
    dsimp only
    rcases ha : (Path.ofText (Text.strip s)).isAbsolute
    · rw [if_neg Bool.false_ne_true, not_hasNul_strip (hc s rfl), if_neg Bool.false_ne_true]
      constructor
      · intro h
        obtain rfl := Except.ok.inj h
        exact .relative hb ha
      · intro h
        cases h with
        | blank hb' => exact absurd hb' hb
        | absolute _ ha' => cases ha.symm.trans ha'
        | relative => rfl
    · rw [if_pos rfl]
      constructor
      · intro h
        obtain rfl := Except.ok.inj h
        exact .absolute hb ha
      · intro h
        cases h with
        | blank hb' => exact absurd hb' hb
        | absolute => rfl
        | relative _ ha' => cases ha.symm.trans ha'

/-- Whatever an entry stands for, it says. -/
theorem StandsForPath.exists_said {v : Option Node} (h : StandsForPath home byDefault v p) :
    ∃ r, Says v r := by
  cases h with
  | missing => exact ⟨_, .missing⟩
  | blank hb => exact ⟨_, .blank hb⟩
  | absolute hb _ => exact ⟨_, .words hb⟩
  | relative hb _ => exact ⟨_, .words hb⟩

theorem StandsForPath.isAbsolute {v : Option Node} (h : StandsForPath home byDefault v p)
    (hd : byDefault.anchor = .here) : p.isAbsolute = true := by
  cases h with
  | missing => rw [Path.join, if_pos hd]; rfl
  | blank _ => rw [Path.join, if_pos hd]; rfl
  | absolute _ ha => exact ha
  | relative _ _ => rfl

/-! ### Patterns and policy -/

theorem patternList_eq_ok_iff {xs : List Node} : patternList xs = .ok patterns ↔
    ∃ ss : List String, xs = ss.map .str ∧ (∀ s ∈ ss, Text.strip s ≠ "") ∧
      patterns = ss.map Text.strip := by
  induction xs generalizing patterns with
  | nil =>
    constructor
    · intro h
      obtain rfl := Except.ok.inj h
      exact ⟨[], rfl, nofun, rfl⟩
    · rintro ⟨ss, hs, -, rfl⟩
      obtain rfl := List.map_eq_nil_iff.1 hs.symm
      rfl
  | cons x xs ih =>
    rw [patternList]
    constructor
    · intro h
      rcases hw : wording "patterns entries" x with e | w <;> rw [hw] at h
      · cases h
      · obtain ⟨rest, hr, rfl⟩ := map_eq_ok_iff.1 h
        obtain ⟨s, rfl, rfl, hne⟩ := wording_eq_ok_iff.1 hw
        obtain ⟨ss, rfl, hss, rfl⟩ := ih.1 hr
        exact ⟨s :: ss, rfl, List.forall_mem_cons.2 ⟨hne, hss⟩, rfl⟩
    · rintro ⟨ss, hs, hss, rfl⟩
      rcases ss with - | ⟨s, ss⟩
      · cases hs
      · obtain ⟨rfl, rfl⟩ := List.cons.inj hs
        obtain ⟨hne, hss⟩ := List.forall_mem_cons.1 hss
        rw [wording_eq_ok_iff.2 ⟨s, rfl, rfl, hne⟩, ih.2 ⟨ss, rfl, hss, rfl⟩]
        rfl

theorem patternsOf_eq_ok_iff (hp : ∀ xs, given fs "patterns" ≠ some (.tuple xs)) :
    patternsOf fs = .ok patterns ↔ StandsForPatterns (given fs "patterns") patterns := by
  unfold patternsOf
  rcases hg : given fs "patterns" with - | n
  · constructor
    · intro h
      obtain rfl := Except.ok.inj h
      exact .missing
    · rintro ⟨⟩
      rfl
  cases n with
  | str s =>
    dsimp only
    rw [map_eq_ok_iff]
    constructor
    · rintro ⟨w, hw, rfl⟩
      obtain ⟨s', e, rfl, hne⟩ := wording_eq_ok_iff.1 hw
      obtain rfl := Node.str.inj e
      exact .one hne
    · intro h
      cases h with
      | one hne => exact ⟨_, wording_eq_ok_iff.2 ⟨s, rfl, rfl, hne⟩, rfl⟩
  | list xs =>
    -- A list of no patterns is refused, and each of several has to say something.
    have several : patternList xs = .ok patterns ∧ xs ≠ [] ↔
        StandsForPatterns (some (.list xs)) patterns := by
      rw [patternList_eq_ok_iff]
      constructor
      · rintro ⟨⟨ss, rfl, hss, rfl⟩, hne⟩
        exact .several (fun e => hne (by rw [e]; rfl)) hss
      · intro h
        generalize hv : some (Node.list xs) = v at h
        cases h with
        | missing => cases hv
        | one => cases hv
        | @several ss hne hss =>
          obtain rfl := Node.list.inj (Option.some.inj hv)
          exact ⟨⟨ss, rfl, hss, rfl⟩, fun e => hne (List.map_eq_nil_iff.1 e)⟩
    rw [← several]
    cases xs with
    | nil => exact iff_of_false nofun fun h => h.2 rfl
    | cons x xs => exact ⟨fun h => ⟨h, List.cons_ne_nil _ _⟩, fun h => h.1⟩
  | tuple xs => exact absurd hg (hp xs)
  | bytes octets => cases octets <;> exact iff_of_false nofun nofun
  | _ => exact iff_of_false nofun nofun

theorem Policy.ofWord?_eq_some_iff : Policy.ofWord? w = some policy ↔
    (w = "abort" ∧ policy = .abort) ∨ (w = "skip" ∧ policy = .skip) := by
  unfold Policy.ofWord?
  split
  · simp [eq_comm]
  · simp [eq_comm]
  · next ha hs =>
    refine iff_of_false nofun ?_
    rintro (⟨rfl, -⟩ | ⟨rfl, -⟩)
    · exact ha rfl
    · exact hs rfl

theorem policyOf_eq_ok_iff :
    policyOf fs = .ok policy ↔ StandsForPolicy (given fs "on_error") policy := by
  unfold policyOf
  rcases given fs "on_error" with - | n
  · constructor
    · intro h
      obtain rfl := Except.ok.inj h
      exact .missing
    · rintro ⟨⟩
      rfl
  dsimp only
  constructor
  · intro h
    rcases hw : wording "on_error" n with e | w <;> rw [hw] at h
    · cases h
    obtain ⟨s, rfl, rfl, -⟩ := wording_eq_ok_iff.1 hw
    dsimp only at h
    rcases ho : Policy.ofWord? (Text.lower (Text.strip s)) with - | policy' <;> rw [ho] at h
    · cases h
    obtain rfl := Except.ok.inj h
    rcases Policy.ofWord?_eq_some_iff.1 ho with ⟨hl, rfl⟩ | ⟨hl, rfl⟩
    · exact .abort hl
    · exact .skip hl
  · intro h
    obtain ⟨s, rfl, ho⟩ : ∃ s, n = .str s ∧
        Policy.ofWord? (Text.lower (Text.strip s)) = some policy := by
      cases h with
      | @abort s hl => exact ⟨s, rfl, Policy.ofWord?_eq_some_iff.2 (.inl ⟨hl, rfl⟩)⟩
      | @skip s hl => exact ⟨s, rfl, Policy.ofWord?_eq_some_iff.2 (.inr ⟨hl, rfl⟩)⟩
    have nonblank : Text.strip s ≠ "" := by
      intro hb
      rw [hb] at ho
      cases ho
    rw [wording_eq_ok_iff.2 ⟨s, rfl, rfl, nonblank⟩]
    dsimp only
    rw [ho]

/-! ### Documents -/

/-- Settings are read from a mapping exactly if it stands for them. -/
theorem ofNode_map_eq_ok_iff (hp : ∀ xs, given fs "patterns" ≠ some (.tuple xs))
    (hc : ∀ name ∈ directoryNames, IsClear (directory? (.map fs) name)) :
    ofNode home (.map fs) = .ok s ↔ StandsFor home (.map fs) s := by
  obtain ⟨clearRaw, clearClean⟩ : IsClear (directory? (.map fs) "original") ∧
      IsClear (directory? (.map fs) "clean") := ⟨hc _ (by simp [directoryNames]),
    hc _ (by simp [directoryNames])⟩
  constructor
  · intro h
    rcases hd : directories fs with f | ⟨raw, clean⟩
    · simp only [ofNode, entries, root?, Except.map, hd] at h
      cases h
    obtain ⟨directories, saysRaw, saysClean⟩ := directories_eq_ok_iff.1 hd
    rcases hr : directoryOf home defaultRaw raw with e | rawDir
    · simp only [ofNode, entries, root?, Except.map, hd, hr] at h
      cases h
    rcases hl : directoryOf home defaultCleaned clean with e | cleanedDir
    · simp only [ofNode, entries, root?, Except.map, hd, hr, hl] at h
      cases h
    rcases hx : patternsOf fs with f | patterns
    · simp only [ofNode, entries, root?, Except.map, hd, hr, hl, hx] at h
      cases h
    rcases ho : policyOf fs with f | policy
    · simp only [ofNode, entries, root?, Except.map, hd, hr, hl, hx, ho] at h
      cases h
    simp only [ofNode, entries, root?, Except.map, hd, hr, hl, hx, ho] at h
    obtain rfl := Except.ok.inj h
    exact {
      root := .inr ⟨fs, rfl⟩
      directories
      rawDir := (directoryOf_eq_ok_iff saysRaw clearRaw).1 hr
      cleanedDir := (directoryOf_eq_ok_iff saysClean clearClean).1 hl
      patterns := (patternsOf_eq_ok_iff hp).1 hx
      policy := policyOf_eq_ok_iff.1 ho }
  · intro h
    obtain ⟨raw, saysRaw⟩ := h.rawDir.exists_said
    obtain ⟨clean, saysClean⟩ := h.cleanedDir.exists_said
    have hd := directories_eq_ok_iff.2 ⟨h.directories, saysRaw, saysClean⟩
    have hr := (directoryOf_eq_ok_iff saysRaw clearRaw).2 h.rawDir
    have hl := (directoryOf_eq_ok_iff saysClean clearClean).2 h.cleanedDir
    have hx := (patternsOf_eq_ok_iff hp).2 h.patterns
    have ho := policyOf_eq_ok_iff.2 h.policy
    simp only [ofNode, entries, root?, Except.map, hd, hr, hl, hx, ho]

/-- An empty document stands for what an empty mapping stands for. -/
theorem standsFor_null_iff : StandsFor home .null s ↔ StandsFor home (.map []) s :=
  ⟨fun h => { h with root := .inr ⟨[], rfl⟩ }, fun h => { h with root := .inl rfl }⟩

/-- Settings are read from a document exactly if it stands for them. -/
theorem ofNode_eq_ok_iff (hp : ∀ xs, value? document "patterns" ≠ some (.tuple xs))
    (hc : ∀ name ∈ directoryNames, IsClear (directory? document name)) :
    ofNode home document = .ok s ↔ StandsFor home document s := by
  cases document with
  | map fs => exact ofNode_map_eq_ok_iff hp hc
  | null =>
    rw [standsFor_null_iff]
    show ofNode home (.map []) = _ ↔ _
    exact ofNode_map_eq_ok_iff nofun hc
  | _ =>
    refine iff_of_false nofun fun h => ?_
    rcases h.root with e | ⟨fs, e⟩ <;> cases e

/-- No directory is in the way of the settings without a NUL character in its text. -/
theorem not_strays (hc : ∀ name ∈ directoryNames, IsClear (directory? document name)) :
    ¬ Strays (directoryOf home) document e := by
  intro h
  obtain ⟨-, fs, raw, clean, hr, hd, hn⟩ := h.names_nul
  have clear : ∀ {v text?}, Says v text? → IsClear v → ¬ NamesNul text? := by
    rintro v text? hs hv ⟨text, rfl, -, hn⟩
    cases hs with
    | @words s _ => exact Bool.false_ne_true ((not_hasNul_strip (hv s rfl)).symm.trans hn)
  obtain ⟨-, saysRaw, saysClean⟩ := directories_eq_ok_iff.1 hd
  rw [directory?_of_root? hr] at saysRaw saysClean
  rcases hn with hn | hn
  · exact clear saysRaw (hc _ (by simp [directoryNames])) hn
  · exact clear saysClean (hc _ (by simp [directoryNames])) hn

/-! ### Acceptance -/

theorem StandsForPath.text {v : Option Node} (h : StandsForPath home byDefault v p) :
    ∀ n, v = some n → ∃ s, n = .str s := by
  rintro n rfl
  cases h with
  | blank _ => exact ⟨_, rfl⟩
  | absolute _ _ => exact ⟨_, rfl⟩
  | relative _ _ => exact ⟨_, rfl⟩

theorem exists_standsForPath (home : Place) (byDefault : Path) {v : Option Node}
    (h : ∀ n, v = some n → ∃ s, n = .str s) :
    ∃ p, StandsForPath home byDefault v p := by
  rcases v with - | n
  · exact ⟨_, .missing⟩
  obtain ⟨s, rfl⟩ := h n rfl
  by_cases hb : Text.strip s = ""
  · exact ⟨_, .blank hb⟩
  rcases ha : (Path.ofText (Text.strip s)).isAbsolute
  · exact ⟨_, .relative hb ha⟩
  · exact ⟨_, .absolute hb ha⟩

theorem StandsForPatterns.accepted {v : Option Node} (h : StandsForPatterns v patterns) :
    ∀ n, v = some n → IsWording n ∨ ∃ xs, n = .list xs ∧ xs ≠ [] ∧ ∀ x ∈ xs, IsWording x := by
  rintro n rfl
  cases h with
  | one hne => exact .inl ⟨_, rfl, hne⟩
  | several hne hss =>
    refine .inr ⟨_, rfl, fun e => hne (List.map_eq_nil_iff.1 e), ?_⟩
    intro x hx
    obtain ⟨s, hs, rfl⟩ := List.mem_map.1 hx
    exact ⟨s, rfl, hss s hs⟩

theorem exists_standsForPatterns {v : Option Node}
    (h : ∀ n, v = some n → IsWording n ∨ ∃ xs, n = .list xs ∧ xs ≠ [] ∧ ∀ x ∈ xs, IsWording x) :
    ∃ patterns, StandsForPatterns v patterns := by
  rcases v with - | n
  · exact ⟨_, .missing⟩
  rcases h n rfl with ⟨s, rfl, hne⟩ | ⟨xs, rfl, hne, hxs⟩
  · exact ⟨_, .one hne⟩
  · -- Each item is a text, so the list is one of texts.
    obtain ⟨ss, rfl, hss⟩ : ∃ ss : List String, xs = ss.map .str ∧ ∀ s ∈ ss, Text.strip s ≠ "" := by
      clear hne h
      induction xs with
      | nil => exact ⟨[], rfl, nofun⟩
      | cons x xs ih =>
        obtain ⟨⟨s, rfl, hs⟩, others⟩ := List.forall_mem_cons.1 hxs
        obtain ⟨ss, rfl, hss⟩ := ih others
        exact ⟨s :: ss, rfl, List.forall_mem_cons.2 ⟨hs, hss⟩⟩
    exact ⟨_, .several (fun e => hne (by rw [e]; rfl)) hss⟩

theorem StandsForPolicy.accepted {v : Option Node} (h : StandsForPolicy v policy) :
    ∀ n, v = some n → ∃ s, n = .str s ∧ Text.lower (Text.strip s) ∈ ["abort", "skip"] := by
  rintro n rfl
  cases h with
  | abort hl => exact ⟨_, rfl, by simp [hl]⟩
  | skip hl => exact ⟨_, rfl, by simp [hl]⟩

theorem exists_standsForPolicy {v : Option Node}
    (h : ∀ n, v = some n → ∃ s, n = .str s ∧ Text.lower (Text.strip s) ∈ ["abort", "skip"]) :
    ∃ policy, StandsForPolicy v policy := by
  rcases v with - | n
  · exact ⟨_, .missing⟩
  obtain ⟨s, rfl, hl⟩ := h n rfl
  simp only [List.mem_cons, List.not_mem_nil, or_false] at hl
  rcases hl with hl | hl
  · exact ⟨_, .abort hl⟩
  · exact ⟨_, .skip hl⟩

/-- The documents that stand for settings are those that are well-formed. -/
theorem exists_standsFor_iff (home : Place) :
    (∃ s, StandsFor home document s) ↔ WellFormed document := by
  constructor
  · rintro ⟨s, h⟩
    refine ⟨h.root, h.directories, ?_, h.patterns.accepted, h.policy.accepted⟩
    simp only [directoryNames, List.forall_mem_cons]
    exact ⟨h.rawDir.text, h.cleanedDir.text, nofun⟩
  · intro h
    have paths := h.paths
    simp only [directoryNames, List.forall_mem_cons] at paths
    obtain ⟨rawDir, hr⟩ := exists_standsForPath home defaultRaw paths.1
    obtain ⟨cleanedDir, hc⟩ := exists_standsForPath home defaultCleaned paths.2.1
    obtain ⟨patterns, hp⟩ := exists_standsForPatterns h.patterns
    obtain ⟨policy, ho⟩ := exists_standsForPolicy h.policy
    exact ⟨⟨rawDir, cleanedDir, patterns, policy⟩, h.root, h.directories, hr, hc, hp, ho⟩

/-- Patterns are there, and no blanks are left at their ends. -/
theorem StandsForPatterns.stripped {v : Option Node} (h : StandsForPatterns v patterns) :
    patterns ≠ [] ∧ ∀ x ∈ patterns, x ≠ "" ∧ Text.strip x = x := by
  cases h with
  | missing => exact ⟨nofun, by with_unfolding_all decide⟩
  | one hne =>
    refine ⟨nofun, fun x hx => ?_⟩
    obtain rfl := List.mem_singleton.1 hx
    exact ⟨hne, Text.strip_strip⟩
  | several hne hss =>
    refine ⟨fun e => hne (List.map_eq_nil_iff.1 e), fun x hx => ?_⟩
    obtain ⟨s, hs, rfl⟩ := List.mem_map.1 hx
    exact ⟨hss s hs, Text.strip_strip⟩

/-! ### Halves of surrogate pairs -/

/-- The strings of the patterns are strings of their entry, without the blanks at their ends. -/
theorem StandsForPatterns.not_mem_mark {v : Option Node} (h : StandsForPatterns v patterns)
    (hv : ∀ n s, v = some n → HasString n s → Text.mark ∉ s.toList) :
    ∀ x ∈ patterns, Text.mark ∉ x.toList := by
  cases h with
  | missing => decide
  | @one s _ =>
    intro x hx hm
    obtain rfl := List.mem_singleton.1 hx
    exact hv _ s rfl .self (Text.mem_of_mem_strip hm)
  | several _ _ =>
    intro x hx hm
    obtain ⟨s, hs, rfl⟩ := List.mem_map.1 hx
    exact hv _ s rfl (.item (List.mem_map_of_mem hs)) (Text.mem_of_mem_strip hm)

/-- A document with halves elsewhere than in directories and patterns holds the settings that it
would hold without them. -/
theorem ofSpelled_eq_ofNode (hp : ∀ xs, value? document "patterns" ≠ some (.tuple xs))
    (hd : ∀ name ∈ directoryNames, ∀ s, directory? document name = some (.str s) →
      Text.mark ∉ s.toList)
    (hs : ∀ v s, value? document "patterns" = some v → HasString v s → Text.mark ∉ s.toList) :
    ofSpelled home document = ofNode home document := by
  rcases hr : root? document with - | fs
  · simp only [ofSpelled, ofNode, entries, hr, Except.map]
  rw [← value?_of_root? hr] at hp hs
  rw [← directory?_of_root? hr] at hd
  rcases hf : directories fs with f | ⟨raw, clean⟩
  · simp only [ofSpelled, ofNode, entries, hr, hf, Except.map]
  obtain ⟨-, saysRaw, saysClean⟩ := directories_eq_ok_iff.1 hf
  have found : ∀ {v : Option Node} {text?} (byDefault : Path), Says v text? →
      (∀ s, v = some (.str s) → Text.mark ∉ s.toList) →
      spelledDirectoryOf home byDefault text? = (directoryOf home byDefault text?).map some := by
    intro v text? byDefault said whole
    refine spelledDirectoryOf_eq ?_
    rintro text rfl hm
    cases said with
    | @words s _ => exact whole s rfl (Text.mem_of_mem_strip hm)
  have foundRaw := found defaultRaw saysRaw (hd _ (by simp [directoryNames]))
  have foundClean := found defaultCleaned saysClean (hd _ (by simp [directoryNames]))
  rcases hl : directoryOf home defaultRaw raw with e | rawDir
  · simp only [ofSpelled, ofNode, entries, hr, hf, foundRaw, hl, Except.map]
  rcases hc : directoryOf home defaultCleaned clean with e | cleanedDir
  · simp only [ofSpelled, ofNode, entries, hr, hf, foundRaw, foundClean, hl, hc, Except.map]
  rcases hx : patternsOf fs with f | patterns
  · simp only [ofSpelled, ofNode, entries, hr, hf, foundRaw, foundClean, hl, hc, hx, Except.map]
  rcases ho : policyOf fs with f | policy
  · simp only [ofSpelled, ofNode, entries, hr, hf, foundRaw, foundClean, hl, hc, hx, ho, Except.map]
  have whole := Text.mapM_ofSpelling?_eq_self
    (((patternsOf_eq_ok_iff hp).1 hx).not_mem_mark hs)
  simp only [ofSpelled, ofNode, entries, hr, hf, foundRaw, foundClean, hl, hc, hx, ho, Except.map,
    whole]

/-! ### Files -/

variable {t : FileTree} {text : List Char}

/-- No text shows a pair for patterns. -/
theorem Shows.not_tuple (h : Shows text n) (xs : List Node) :
    value? n.unlabelled "patterns" ≠ some (.tuple xs) := by
  intro hv
  obtain ⟨fs, hn, hv⟩ := exists_of_value? hv
  cases h with
  | whole hy => exact Yaml.not_tuple_of_readOuter hy hn xs _ hv rfl
  | spelled _ hz _ _ => exact Yaml.not_tuple_of_readSpelled hz hn xs _ hv rfl

theorem load_of_shows (ht : HasText t p text) (h : Shows text n) :
    load t p = ofNode (p.resolve t.current).dropLast n.unlabelled := by
  rw [load_of_hasText ht, ofText]
  cases id h with
  | whole hy => rw [hy]
  | spelled hy hz hd hs =>
    rw [hy]
    dsimp only
    rw [hz]
    exact ofSpelled_eq_ofNode h.not_tuple hd hs

/-- Settings are loaded from a file exactly if the document in it stands for them. -/
theorem load_eq_ok_iff (ht : HasText t p text) (hy : Shows text n)
    (hc : ∀ name ∈ directoryNames, IsClear (directory? n.unlabelled name)) :
    load t p = .ok s ↔ StandsFor (p.resolve t.current).dropLast n.unlabelled s := by
  rw [load_of_shows ht hy]
  exact ofNode_eq_ok_iff hy.not_tuple hc

/-- Settings are loaded from a file, or what is wrong with them is reported. -/
theorem load_ok_or_settings (ht : HasText t p text) (hy : Shows text n)
    (hc : ∀ name ∈ directoryNames, IsClear (directory? n.unlabelled name)) :
    (∃ s, load t p = .ok s) ∨ ∃ f, load t p = .error (.settings f) := by
  rw [load_of_shows ht hy]
  rcases ofNode_cases (p.resolve t.current).dropLast n.unlabelled with h | h | ⟨e, h⟩
  · exact .inl h
  · exact .inr h
  · exact absurd h (not_strays hc)

/-- What a document stands for, another one stands for too that has the same entries. -/
theorem StandsFor.congr {other : Node} (h : StandsFor home document s) (hw : WellFormed other)
    (hd : ∀ name ∈ directoryNames, directory? other name = directory? document name)
    (hv : ∀ name ∈ ["patterns", "on_error"], value? other name = value? document name) :
    StandsFor home other s := by
  simp only [directoryNames, List.forall_mem_cons] at hd hv
  refine ⟨hw.root, hw.directories, ?_, ?_, ?_, ?_⟩
  · rw [hd.1]
    exact h.rawDir
  · rw [hd.2.1]
    exact h.cleanedDir
  · rw [hv.1]
    exact h.patterns
  · rw [hv.2.1]
    exact h.policy

/-- **The settings of a file are those that its document stands for, and they are refused exactly if
it is not well-formed.**  Neither the other entries nor the current directory have a say in them.  No
half of a surrogate pair is in what the document says of directories and patterns. -/
theorem load_wellFormed (ht : HasText t p text) (hy : Shows text n)
    (hc : ∀ name ∈ directoryNames, IsClear (directory? n.unlabelled name)) :
    (¬ WellFormed n.unlabelled → ∃ f, load t p = .error (.settings f)) ∧
    (WellFormed n.unlabelled → ∃ s, load t p = .ok s ∧
      StandsFor (p.resolve t.current).dropLast n.unlabelled s ∧
      s.rawDir.isAbsolute = true ∧ s.cleanedDir.isAbsolute = true ∧
      s.patterns ≠ [] ∧ (∀ x ∈ s.patterns, x ≠ "" ∧ Text.strip x = x) ∧
      ∀ t' p' text' n', HasText t' p' text' → Shows text' n' →
        WellFormed n'.unlabelled →
        (p'.resolve t'.current).dropLast = (p.resolve t.current).dropLast →
        (∀ name ∈ directoryNames, directory? n'.unlabelled name = directory? n.unlabelled name) →
        (∀ name ∈ ["patterns", "on_error"], value? n'.unlabelled name = value? n.unlabelled name) →
        load t' p' = .ok s) := by
  constructor
  · intro hw
    refine (load_ok_or_settings ht hy hc).resolve_left ?_
    rintro ⟨s, hs⟩
    exact hw ((exists_standsFor_iff _).1 ⟨s, (load_eq_ok_iff ht hy hc).1 hs⟩)
  · intro hw
    obtain ⟨s, hs⟩ := (exists_standsFor_iff (p.resolve t.current).dropLast).2 hw
    obtain ⟨patterned, stripped⟩ := hs.patterns.stripped
    refine ⟨s, (load_eq_ok_iff ht hy hc).2 hs, hs, hs.rawDir.isAbsolute rfl,
      hs.cleanedDir.isAbsolute rfl, patterned, stripped, ?_⟩
    intro t' p' text' n' ht' hy' hw' hh hd hv
    have hc' : ∀ name ∈ directoryNames, IsClear (directory? n'.unlabelled name) := by
      intro name hm
      rw [hd name hm]
      exact hc name hm
    rw [load_eq_ok_iff ht' hy' hc', hh]
    exact hs.congr hw' hd hv

/-- A file of settings in a directory. -/
def settingsTree (text : List Char) : FileTree :=
  ⟨[(["w"], .directory), (["w", "s.yaml"], .file (Text.encodeUtf8 text))], ["w"]⟩

/-- A document that names the directory of the originals. -/
def originalDocument (word : String) : Node :=
  .map [(.str "directories", .map [(.str "original", .str word)])]

theorem directory?_originalDocument (word : String) :
    directory? (originalDocument word).unlabelled "original" = some (.str word) ∧
    directory? (originalDocument word).unlabelled "clean" = none :=
  ⟨by with_unfolding_all rfl, by with_unfolding_all rfl⟩

theorem wellFormed_originalDocument (word : String) :
    WellFormed (originalDocument word).unlabelled := by
  obtain ⟨original, clean⟩ := directory?_originalDocument word
  have noPatterns : value? (originalDocument word).unlabelled "patterns" = none := by
    with_unfolding_all rfl
  have noPolicy : value? (originalDocument word).unlabelled "on_error" = none := by
    with_unfolding_all rfl
  refine ⟨.inr ⟨_, rfl⟩, ?_, ?_, ?_, ?_⟩
  · rintro n hn
    exact ⟨_, (Option.some.inj hn).symm⟩
  · simp only [directoryNames, List.forall_mem_cons]
    rw [original, clean]
    refine ⟨?_, nofun, nofun⟩
    rintro n ⟨⟩
    exact ⟨_, rfl⟩
  · rw [noPatterns]
    exact nofun
  · rw [noPolicy]
    exact nofun

theorem isClear_originalDocument {word : String} (h : '\x00' ∉ word.toList) :
    ∀ name ∈ directoryNames, IsClear (directory? (originalDocument word).unlabelled name) := by
  obtain ⟨original, clean⟩ := directory?_originalDocument word
  simp only [directoryNames, List.forall_mem_cons]
  rw [original, clean]
  refine ⟨?_, nofun, nofun⟩
  rintro s ⟨⟩
  exact h

/-- The text of such a document. -/
def originalText : List Char := "directories:\n  original: ' raw '\n".toList

/-- The directory is found from that of the file, and blanks around its name do not count. -/
theorem load_wellFormed_original :
    HasText (settingsTree originalText) ⟨.here, ["s.yaml"]⟩
      originalText ∧
    Shows originalText (originalDocument " raw ") ∧
    (∀ name ∈ directoryNames, IsClear (directory? (originalDocument " raw ").unlabelled name)) ∧
    WellFormed (originalDocument " raw ").unlabelled ∧
    ∃ s, load (settingsTree originalText) ⟨.here, ["s.yaml"]⟩ = .ok s ∧
      s.rawDir = ⟨.root, ["w", "raw"]⟩ := by
  have ht : HasText (settingsTree originalText) ⟨.here, ["s.yaml"]⟩
      originalText :=
    ⟨Text.encodeUtf8 originalText, by with_unfolding_all rfl,
      by with_unfolding_all rfl⟩
  have tokens : Yaml.Tokens.ofText originalText =
      ⟨[.blockMappingStart, .key, .scalar "directories" true, .value, .blockMappingStart, .key,
        .scalar "original" true, .value, .scalar " raw " false, .blockEnd, .blockEnd], none⟩ := by
    with_unfolding_all rfl
  have tree : Yaml.Tree.ofText? originalText =
      .ok (some (Yaml.sectionTree "directories" "original" " raw ")) := by
    rw [Yaml.Tree.ofText?, tokens]
    with_unfolding_all rfl
  have hy : Shows originalText (originalDocument " raw ") := by
    refine .whole ?_
    rw [Yaml.readOuter, tree]
    exact Yaml.value_section
  have hc : ∀ name ∈ directoryNames,
      IsClear (directory? (originalDocument " raw ").unlabelled name) :=
    isClear_originalDocument (by decide)
  have hw := wellFormed_originalDocument " raw "
  obtain ⟨s, hs, stands, -⟩ := (load_wellFormed ht hy hc).2 hw
  refine ⟨ht, hy, hc, hw, s, hs, ?_⟩
  have raw := stands.rawDir
  rw [(directory?_originalDocument _).1] at raw
  generalize s.rawDir = found at raw ⊢
  cases raw with
  | blank hb => exact absurd hb (by with_unfolding_all decide)
  | absolute _ ha => exact absurd ha (by with_unfolding_all decide)
  | relative _ _ => with_unfolding_all rfl

/-- A text with half of a surrogate pair for the name of the directory. -/
def tornText : List Char := "directories:\n  original: \"\\uD800\"\n".toList

/-- The spelling of that name. -/
def tornWord : String := String.ofList (Text.spelled [.half ⟨0, by decide⟩])

/-- A document that is well-formed ends the loading, if a directory has half of a surrogate pair. -/
theorem load_torn :
    HasText (settingsTree tornText) ⟨.here, ["s.yaml"]⟩ tornText ∧
    Yaml.readSpelled tornText = .ok (originalDocument tornWord) ∧
    (∀ name ∈ directoryNames, IsClear (directory? (originalDocument tornWord).unlabelled name)) ∧
    WellFormed (originalDocument tornWord).unlabelled ∧
    load (settingsTree tornText) ⟨.here, ["s.yaml"]⟩ = .error (.stray (.unencodable ⟨0, 3, 1⟩)) := by
  have ht : HasText (settingsTree tornText) ⟨.here, ["s.yaml"]⟩ tornText :=
    ⟨Text.encodeUtf8 tornText, by with_unfolding_all rfl, by with_unfolding_all rfl⟩
  have tokens : Yaml.Tokens.ofText tornText =
      ⟨[.blockMappingStart, .key, .scalar "directories" true, .value, .blockMappingStart, .key,
        .scalar "original" true, .value, .torn [.half ⟨0, by decide⟩], .blockEnd, .blockEnd],
        none⟩ := by
    with_unfolding_all rfl
  let torn := Yaml.entryMapping 0 "directories"
    (Yaml.entryMapping 2 "original" (.torn 4 (Yaml.standard "str") [.half ⟨0, by decide⟩]))
  have tree : Yaml.Tree.ofText? tornText = .ok (some torn) := by
    rw [Yaml.Tree.ofText?, tokens]
    with_unfolding_all rfl
  have shown : torn.spelledShown = .ok (originalDocument tornWord) := by
    have spelled : torn.spelled = Yaml.sectionTree "directories" "original" tornWord := by
      with_unfolding_all rfl
    have seen : (Yaml.sectionTree "directories" "original" tornWord).shown
        = .ok (originalDocument tornWord) := Yaml.value_section
    unfold Yaml.Tree.spelledShown
    rw [spelled, seen]
    rfl
  have spelled : Yaml.readSpelled tornText = .ok (originalDocument tornWord) := by
    rw [Yaml.readSpelled, tree]
    exact shown
  have halves : Yaml.readOuter tornText = .error (.beyond .half) := by
    rw [Yaml.readOuter, tree]
    show (torn.spelledShown >>= fun _ => throw _) = _
    rw [shown]
    rfl
  have words : directories [(.str "directories", .map [(.str "original", .str tornWord)])]
      = .ok (some tornWord, none) := by with_unfolding_all rfl
  have lost : spelledDirectoryOf ["w"] defaultRaw (some tornWord)
      = .error (.unencodable ⟨0, 3, 1⟩) := by with_unfolding_all rfl
  have strays : Strays (spelledDirectoryOf ["w"]) (originalDocument tornWord).unlabelled
      (.unencodable ⟨0, 3, 1⟩) := .raw rfl words lost
  have escapes : LoadEscapes (settingsTree tornText) ⟨.here, ["s.yaml"]⟩
      (.unencodable ⟨0, 3, 1⟩) := .spelledPath ht halves spelled strays
  exact ⟨ht, spelled, isClear_originalDocument (by with_unfolding_all decide),
    wellFormed_originalDocument _, escapes.load_eq⟩

end Settings

end PlainSchema
