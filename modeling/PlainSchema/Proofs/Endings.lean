/-
PlainSchema/Proofs/Endings.lean

How a batch can end, under either policy.

It comes to its end, or it ends in a fault that it reports (`BatchFails`), or in a
stray one (`BatchEscapes`).  Before the first document there are the directory and
the patterns; after that the batch is a run through the documents, and it ends at the
first one whose turn does (`cleanEach_eq_error_iff`), in the tree that those before it
leave.
-/
import PlainSchema.Proofs.Places
import PlainSchema.Proofs.Policies

namespace PlainSchema

variable {t : FileTree} {directory : Path} {text : String} {texts : List String} {e : StrayFault}

namespace FileTree

/-! ### Patterns -/

/-- A fault of a pattern that is looked for in a directory. -/
inductive PatternEscapes (t : FileTree) (directory : Path) (text : String) : StrayFault → Prop
  | text {why : PatternFault} : Pattern.ofText text = .error why →
      PatternEscapes t directory text (.pattern why)
  | name {pattern : Pattern} {place : Place} {spot : Spot} : Pattern.ofText text = .ok pattern →
      t.place directory = .ok place → t.overlong? ⟨place, []⟩ [] pattern = some spot →
      PatternEscapes t directory text
        (.file (.refused .nameTooLong (directory.join ⟨.here, spot.way⟩)))

theorem glob_eq_error_iff (hd : t.find? directory = .ok (some .directory)) :
    t.glob directory text = .error e ↔ PatternEscapes t directory text e := by
  obtain ⟨place, hp, -⟩ := find?_eq_some_iff.1 hd
  rcases ht : Pattern.ofText text with why | pattern
  · simp only [glob, ht]
    constructor
    · intro h
      obtain rfl := Except.error.inj h
      exact .text ht
    · rintro (⟨h⟩ | ⟨h, -, -⟩) <;> cases ht.symm.trans h
      rfl
  rcases ho : t.overlong? ⟨place, []⟩ [] pattern with - | spot
  · simp only [glob, ht, hd, hp, ho]
    constructor
    · intro h
      cases h
    · rintro (⟨h⟩ | ⟨h, h', h''⟩) <;> cases ht.symm.trans h
      cases hp.symm.trans h'
      cases ho.symm.trans h''
  · simp only [glob, ht, hd, hp, ho]
    constructor
    · intro h
      obtain rfl := Except.error.inj h
      exact .name ht hp ho
    · rintro (⟨h⟩ | ⟨h, h', h''⟩) <;> cases ht.symm.trans h
      cases hp.symm.trans h'
      cases ho.symm.trans h''
      rfl

/-- The fault of several patterns is that of the first one that has any. -/
theorem globAll_eq_error_iff : t.globAll directory texts = .error e ↔
    ∃ before text after, texts = before ++ text :: after ∧
      (∀ b ∈ before, ∃ spots, t.glob directory b = .ok spots) ∧
      t.glob directory text = .error e := by
  induction texts with
  | nil =>
    refine iff_of_false nofun ?_
    rintro ⟨before, text, after, h, -⟩
    cases before <;> cases h
  | cons first texts ih =>
    rcases hf : t.glob directory first with e' | spots
    · simp only [globAll, hf]
      constructor
      · intro h
        exact ⟨[], first, texts, rfl, List.forall_mem_nil _, hf.trans h⟩
      · rintro ⟨before, text, after, h, hb, ht⟩
        cases before with
        | nil =>
          obtain ⟨rfl, -⟩ := List.cons.inj h
          exact hf.symm.trans ht
        | cons b before =>
          obtain ⟨rfl, -⟩ := List.cons.inj h
          obtain ⟨spots, hs⟩ := hb first (List.mem_cons_self ..)
          cases hf.symm.trans hs
    · simp only [globAll, hf, map_eq_error_iff, ih]
      constructor
      · rintro ⟨before, text, after, rfl, hb, ht⟩
        exact ⟨first :: before, text, after, rfl, List.forall_mem_cons.2 ⟨⟨spots, hf⟩, hb⟩, ht⟩
      · rintro ⟨before, text, after, h, hb, ht⟩
        cases before with
        | nil =>
          obtain ⟨rfl, -⟩ := List.cons.inj h
          cases hf.symm.trans ht
        | cons b before =>
          obtain ⟨-, rfl⟩ := List.cons.inj h
          exact ⟨before, text, after, rfl, fun b' hb' => hb b' (List.mem_cons_of_mem _ hb'), ht⟩

end FileTree

namespace Batch

variable [SetOrder] {s : Settings} {way : Path} {ways : List Path} {outcome : Outcome}
  {outcomes : List Outcome} {f : CleaningFault} {fault : BatchFault} {why : Failure}

/-! ### One document's turn -/

/-- At its turn a document fails, or escapes, or is recorded with another fate. -/
theorem cleanOne_cases (s : Settings) (t : FileTree) (way : Path) :
    (∃ f, Fails t (s.rawDir.join way) (s.cleanedDir.join way) f) ∨
    (∃ e, Escapes t (s.rawDir.join way) (s.cleanedDir.join way) e) ∨
    ∃ outcome, (cleanOne s t way).result = .ok outcome ∧ outcome.isFailed = false := by
  rcases cleanFile_cases t (s.rawDir.join way) (s.cleanedDir.join way) with
    hf | ⟨e, he, -⟩ | ⟨n, hr, hc⟩ | h
  · exact .inl hf
  · exact .inr (.inl ⟨e, he⟩)
  · rcases removeStale_result t (s.cleanedDir.join way) with ⟨hp, -⟩ | ⟨-, h⟩
    · exact .inr (.inl ⟨_, .stale hr hc hp⟩)
    · refine .inr (.inr ⟨⟨s.rawDir.join way, some (s.cleanedDir.join way), .pruned⟩, ?_, rfl⟩)
      rw [cleanOne_of_nothing_left hr hc, h]
      rfl
  · refine .inr (.inr ⟨⟨s.rawDir.join way, some (s.cleanedDir.join way), .cleaned none⟩, ?_, rfl⟩)
    rw [cleanOne_of_outcome h]
    rfl

/-- A document that fails stops a batch that is to stop there. -/
theorem Fails.cleanOne_abort (hs : s.policy = .abort)
    (h : Fails t (s.rawDir.join way) (s.cleanedDir.join way) f) :
    (cleanOne s t way).result = .error (.batch (.stopped (s.rawDir.join way) f)) := by
  simp only [cleanOne, h.cleanFile_result, settle, hs]

/-- A turn ends the batch in a stray fault, or, if the batch is to stop there, in a fault of the
document. -/
theorem cleanOne_eq_error_iff : (cleanOne s t way).result = .error why ↔
    (∃ e, why = .stray e ∧ Escapes t (s.rawDir.join way) (s.cleanedDir.join way) e) ∨
    s.policy = .abort ∧ ∃ f, why = .batch (.stopped (s.rawDir.join way) f) ∧
      Fails t (s.rawDir.join way) (s.cleanedDir.join way) f := by
  constructor
  · intro h
    rcases cleanOne_cases s t way with ⟨f, hf⟩ | ⟨e, he⟩ | ⟨outcome, ho, -⟩
    · rcases hs : s.policy with - | -
      · exact .inr ⟨rfl, f, Except.error.inj (h.symm.trans (hf.cleanOne_abort hs)), hf⟩
      · cases h.symm.trans (hf.cleanOne_result hs)
    · exact .inl ⟨e, Except.error.inj (h.symm.trans he.cleanOne_result), he⟩
    · cases h.symm.trans ho
  · rintro (⟨e, rfl, he⟩ | ⟨hs, f, rfl, hf⟩)
    · exact he.cleanOne_result
    · exact hf.cleanOne_abort hs

/-- A turn after which the batch goes on records a failure exactly if the document fails. -/
theorem isFailed_iff (h : (cleanOne s t way).result = .ok outcome) :
    outcome.isFailed = true ↔ ∃ f, Fails t (s.rawDir.join way) (s.cleanedDir.join way) f := by
  constructor
  · intro hf
    rcases cleanOne_cases s t way with hf | ⟨e, he⟩ | ⟨outcome', ho, hn⟩
    · exact hf
    · cases h.symm.trans he.cleanOne_result
    · obtain rfl := Except.ok.inj (h.symm.trans ho)
      exact absurd hf (Bool.eq_false_iff.1 hn)
  · rintro ⟨f, hf⟩
    rcases hs : s.policy with - | -
    · cases h.symm.trans (hf.cleanOne_abort hs)
    · rw [Except.ok.inj (h.symm.trans (hf.cleanOne_result hs))]
      rfl

/-! ### The run through the documents -/

/-- The batch goes through so many documents. -/
def ComesTo (s : Settings) (t : FileTree) (ways : List Path) (i : Nat) : Prop :=
  ∃ outcomes, (cleanEach s t (ways.take i)).result = .ok outcomes

/-- The document that so many others come before fails at its turn. -/
def FailsAt (s : Settings) (t : FileTree) (ways : List Path) (i : Nat) (f : CleaningFault) : Prop :=
  ∃ way, ways[i]? = some way ∧
    Fails (treeBefore s t ways i) (s.rawDir.join way) (s.cleanedDir.join way) f

theorem comesTo_zero : ComesTo s t ways 0 := ⟨[], rfl⟩

theorem comesTo_succ (h : (cleanOne s t way).result = .ok outcome) (i : Nat) :
    ComesTo s t (way :: ways) (i + 1) ↔ ComesTo s (cleanOne s t way).tree ways i := by
  rw [ComesTo, List.take_succ_cons, cleanEach_of_ok h, ComesTo]
  constructor
  · rintro ⟨outcomes, ho⟩
    obtain ⟨outcomes', ho', -⟩ := map_eq_ok_iff.1 ho
    exact ⟨outcomes', ho'⟩
  · rintro ⟨outcomes, ho⟩
    exact ⟨outcome :: outcomes, map_eq_ok_iff.2 ⟨outcomes, ho, rfl⟩⟩

theorem not_comesTo_succ (h : (cleanOne s t way).result = .error why) (i : Nat) :
    ¬ ComesTo s t (way :: ways) (i + 1) := by
  rintro ⟨outcomes, ho⟩
  rw [List.take_succ_cons, cleanEach_of_error h] at ho
  cases ho

/-- The run ends at the first document whose turn does. -/
theorem cleanEach_eq_error_iff : (cleanEach s t ways).result = .error why ↔
    ∃ i way, ComesTo s t ways i ∧ ways[i]? = some way ∧
      (cleanOne s (treeBefore s t ways i) way).result = .error why := by
  -- Each document changes the tree for those after it, so the tree is generalized.
  induction ways generalizing t with
  | nil => exact iff_of_false nofun fun ⟨_, _, _, h, _⟩ => nomatch h
  | cons first ways ih =>
    rcases h : (cleanOne s t first).result with why' | outcome
    · rw [cleanEach_of_error h]
      constructor
      · rintro ⟨⟩
        exact ⟨0, first, comesTo_zero, rfl, h⟩
      · rintro ⟨- | i, way, hc, hw, he⟩
        · cases hw
          exact congrArg _ (Except.error.inj (h.symm.trans he))
        · exact absurd hc (not_comesTo_succ h i)
    · rw [cleanEach_of_ok h, map_eq_error_iff, ih]
      constructor
      · rintro ⟨i, way, hc, hw, he⟩
        exact ⟨i + 1, way, (comesTo_succ h i).2 hc, hw, by rwa [treeBefore_succ h]⟩
      · rintro ⟨- | i, way, hc, hw, he⟩
        · cases hw
          cases h.symm.trans he
        · exact ⟨i, way, (comesTo_succ h i).1 hc, hw, by rwa [treeBefore_succ h] at he⟩

/-- Some document of a run that comes to its end is recorded as failed exactly if one fails at its
turn. -/
theorem exists_isFailed_iff (h : (cleanEach s t ways).result = .ok outcomes) :
    (∃ outcome ∈ outcomes, outcome.isFailed = true) ↔ ∃ i f, FailsAt s t ways i f := by
  induction ways generalizing t outcomes with
  | nil =>
    obtain rfl := Except.ok.inj h
    exact iff_of_false nofun fun ⟨_, _, _, h, _⟩ => nomatch h
  | cons first ways ih =>
    rcases ho : (cleanOne s t first).result with why | outcome
    · rw [cleanEach_of_error ho] at h
      cases h
    rw [cleanEach_of_ok ho] at h
    obtain ⟨rest, hr, rfl⟩ := map_eq_ok_iff.1 h
    rw [List.exists_mem_cons_iff, isFailed_iff ho, ih hr]
    constructor
    · rintro (⟨f, hf⟩ | ⟨i, f, way, hw, hf⟩)
      · exact ⟨0, f, first, rfl, hf⟩
      · exact ⟨i + 1, f, way, hw, by rwa [treeBefore_succ ho]⟩
    · rintro ⟨- | i, f, way, hw, hf⟩
      · cases hw
        exact .inl ⟨f, hf⟩
      · exact .inr ⟨i, f, way, hw, by rwa [treeBefore_succ ho] at hf⟩

/-! ### The whole batch -/

/-- A fault that ends a batch and that the batch reports. -/
inductive BatchFails (s : Settings) (t : FileTree) : BatchFault → Prop
  | noDirectory {found : Option Entry} : t.find? s.rawDir = .ok found → found ≠ some .directory →
      BatchFails s t (.noDirectory s.rawDir)
  | stopped {ways : List Path} {i : Nat} {way : Path} {f : CleaningFault} :
      t.find? s.rawDir = .ok (some .directory) → t.discover s.rawDir s.patterns = .ok ways →
      s.policy = .abort → ComesTo s t ways i → ways[i]? = some way →
      Fails (treeBefore s t ways i) (s.rawDir.join way) (s.cleanedDir.join way) f →
      BatchFails s t (.stopped (s.rawDir.join way) f)

/-- A stray fault that ends a batch. -/
inductive BatchEscapes (s : Settings) (t : FileTree) : StrayFault → Prop
  | directory : t.place s.rawDir = .error (.refused .nameTooLong s.rawDir) →
      BatchEscapes s t (.file (.refused .nameTooLong s.rawDir))
  /-- The first pattern that has a fault. -/
  | pattern {before after : List String} {text : String} {e : StrayFault} :
      t.find? s.rawDir = .ok (some .directory) → s.patterns = before ++ text :: after →
      (∀ b ∈ before, ∃ spots, t.glob s.rawDir b = .ok spots) →
      t.PatternEscapes s.rawDir text e → BatchEscapes s t e
  | document {ways : List Path} {i : Nat} {e : StrayFault} :
      t.find? s.rawDir = .ok (some .directory) → t.discover s.rawDir s.patterns = .ok ways →
      ComesTo s t ways i → EscapesAt s t ways i e → BatchEscapes s t e

theorem BatchFails.cleanDirectory_result (h : BatchFails s t fault) :
    (cleanDirectory s t).result = .error (.batch fault) := by
  cases h with
  | @noDirectory found hf hn =>
    rcases found with - | - | octets
    · simp only [cleanDirectory, hf]
    · exact absurd rfl hn
    · simp only [cleanDirectory, hf]
  | stopped hd hw hs hc hi hf =>
    simp only [cleanDirectory, hd, hw]
    exact cleanEach_eq_error_iff.2 ⟨_, _, hc, hi, hf.cleanOne_abort hs⟩

theorem BatchEscapes.cleanDirectory_result (h : BatchEscapes s t e) :
    (cleanDirectory s t).result = .error (.stray e) := by
  cases h with
  | directory hp =>
    have hd : t.find? s.rawDir = .error (.refused .nameTooLong s.rawDir) :=
      FileTree.find?_eq_error_iff.2 ⟨rfl, hp⟩
    simp only [cleanDirectory, hd]
  | pattern hd hs hb he =>
    have hg : t.globAll s.rawDir s.patterns = .error e :=
      FileTree.globAll_eq_error_iff.2
        ⟨_, _, _, hs, hb, (FileTree.glob_eq_error_iff hd).2 he⟩
    have hw : t.discover s.rawDir s.patterns = .error e := by
      rw [FileTree.discover, map_eq_error_iff, hg]
    simp only [cleanDirectory, hd, hw]
  | document hd hw hc he =>
    obtain ⟨way, hi, he⟩ := he
    simp only [cleanDirectory, hd, hw]
    exact cleanEach_eq_error_iff.2 ⟨_, _, hc, hi, he.cleanOne_result⟩

/-- A batch ends in one of these faults, or comes to its end with an outcome for each document. -/
theorem cleanDirectory_cases (s : Settings) (t : FileTree) :
    (∃ fault, BatchFails s t fault) ∨ (∃ e, BatchEscapes s t e) ∨
    ∃ ways outcomes, t.find? s.rawDir = .ok (some .directory) ∧
      t.discover s.rawDir s.patterns = .ok ways ∧ (cleanDirectory s t).result = .ok outcomes ∧
      (cleanEach s t ways).result = .ok outcomes := by
  rcases hd : t.find? s.rawDir with e | found
  · obtain ⟨rfl, hp⟩ := FileTree.find?_eq_error_iff.1 hd
    exact .inr (.inl ⟨_, .directory hp⟩)
  by_cases hf : found = some .directory
  · subst hf
    rcases hw : t.discover s.rawDir s.patterns with e | ways
    · obtain ⟨before, text, after, hs, hb, he⟩ :=
        FileTree.globAll_eq_error_iff.1 (map_eq_error_iff.1 hw)
      exact .inr (.inl ⟨e, .pattern hd hs hb ((FileTree.glob_eq_error_iff hd).1 he)⟩)
    -- From here on the batch is the run through the documents.
    rcases hr : (cleanEach s t ways).result with why | outcomes
    · obtain ⟨i, way, hc, hi, he⟩ := cleanEach_eq_error_iff.1 hr
      rcases cleanOne_eq_error_iff.1 he with ⟨e, rfl, escapes⟩ | ⟨hs, f, rfl, hf⟩
      · exact .inr (.inl ⟨e, .document hd hw hc ⟨way, hi, escapes⟩⟩)
      · exact .inl ⟨_, .stopped hd hw hs hc hi hf⟩
    · exact .inr (.inr ⟨ways, outcomes, rfl, rfl, by simp only [cleanDirectory, hd, hw, hr], hr⟩)
  · exact .inl ⟨_, .noDirectory hd hf⟩

end Batch

end PlainSchema
