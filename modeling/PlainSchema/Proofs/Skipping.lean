/-
PlainSchema/Proofs/Skipping.lean

A batch that skips the documents it cannot clean: when it comes to its end, and what
it records then.

`Fails` and `Escapes` say what can be wrong with a document when its turn comes, by
the stage at which it shows.  The first kind is recorded and the batch goes on.  The
second kind is not expected by the batch, which ends there and records nothing, the
documents before it included.  One document's turn is `cleanOne_skip`; the batch
follows by induction on the documents, each met in the tree that those before it
leave (`treeBefore`).

A document that is no `Node` is not followed.  The result speaks of the batches that do
not come to one.
-/
import PlainSchema.Batch
import PlainSchema.Proofs.Documents
import PlainSchema.Proofs.Noting

namespace PlainSchema

namespace Batch

variable {s : Settings} {t : FileTree} {input output way : Path} {ways : List Path}
  {outcome : Outcome} {f : CleaningFault} {e : StrayFault} {n m : Node}

/-- Only a name that is too long keeps a file that an earlier run left from being removed. -/
theorem removeStale_result (t : FileTree) (output : Path) :
    (t.place output = .error (.refused .nameTooLong output) ∧ (removeStale t output).result
      = .error (.stray (.file (.refused .nameTooLong output)))) ∨
    (t.place output ≠ .error (.refused .nameTooLong output) ∧
      (removeStale t output).result = .ok ()) := by
  unfold removeStale
  rcases hf : t.find? output with e | found
  · obtain ⟨rfl, hp⟩ := FileTree.find?_eq_error_iff.1 hf
    exact .inl ⟨hp, rfl⟩
  · right
    constructor
    · intro hp
      rw [FileTree.find?_eq_error_iff.2 ⟨rfl, hp⟩] at hf
      cases hf
    · rcases found with - | - | octets
      · rfl
      · rfl
      · obtain ⟨place, -, hr⟩ := FileTree.remove_of_find? hf
        simp only [hr]

section

variable [SetOrder]

/-! ### What can be wrong with a document -/

/-- A fault of the document, for which it is skipped. -/
inductive Fails (t : FileTree) (input output : Path) : CleaningFault → Prop
  | reading {f : DocumentFault} : Document.ReadFails t input f → Fails t input output (.document f)
  | types {n : Node} {f : Schema.NullOnlyTypes} : Document.read t input = .ok n →
      Schema.cleanNoting n = .error (.types f) → Fails t input output (.types f)
  | writing {n m : Node} {f : DocumentFault} : Document.read t input = .ok n →
      Schema.cleanNoting n = .ok (some m) → Document.WriteFails t output m f →
      Fails t input output (.document f)

/-- A stray fault that the document leads to. -/
inductive Escapes (t : FileTree) (input output : Path) : StrayFault → Prop
  | reading {e : StrayFault} : Document.ReadEscapes t input e → Escapes t input output e
  | writing {n m : Node} {e : StrayFault} : Document.read t input = .ok n →
      Schema.cleanNoting n = .ok (some m) → Document.WriteEscapes t output m e →
      Escapes t input output e
  /-- The cleaner comes to a list of types at a place that has no text. -/
  | place {n : Node} {path : Pointer} : Document.read t input = .ok n →
      Schema.cleanNoting n = .error (.place path) → Escapes t input output (.longInteger {})
  /-- Nothing is left of the document, and no file could be in its place. -/
  | stale {n : Node} : Document.read t input = .ok n → Schema.cleanNoting n = .ok none →
      t.place output = .error (.refused .nameTooLong output) →
      Escapes t input output (.file (.refused .nameTooLong output))

/-! ### One file -/

theorem cleanFile_of_read_error {e : Failure} (h : Document.read t input = .error e) :
    (cleanFile t input (some output)).result = .error e := by
  rw [cleanFile, h]

theorem cleanFile_of_clean_error {e : Schema.Obstacle} (hr : Document.read t input = .ok n)
    (hc : Schema.cleanNoting n = .error e) :
    (cleanFile t input (some output)).result = .error (.ofObstacle e) := by
  simp only [cleanFile, hr, hc]

theorem cleanFile_of_nothing_left (hr : Document.read t input = .ok n)
    (hc : Schema.cleanNoting n = .ok none) (output : Path) :
    (cleanFile t input (some output)).tree = t ∧
      (cleanFile t input (some output)).result = .ok ⟨input, some output, .pruned⟩ := by
  simp only [cleanFile, hr, hc, and_self]

theorem cleanFile_of_clean (hr : Document.read t input = .ok n)
    (hc : Schema.cleanNoting n = .ok (some m)) :
    (cleanFile t input (some output)).result =
      (Document.write t output m).2.map fun () => ⟨input, some output, .cleaned none⟩ := by
  simp only [cleanFile, hr, hc]

theorem Fails.cleanFile_result (h : Fails t input output f) :
    (cleanFile t input (some output)).result = .error (.cleaning f) := by
  cases h with
  | reading hr => exact cleanFile_of_read_error hr.read_eq
  | types hr hc => exact cleanFile_of_clean_error hr hc
  | writing hr hc hw =>
    rw [cleanFile_of_clean hr hc, hw.write_eq]
    rfl

/-- One file is cleaned, or nothing of it is left, or it ends in one of the faults. -/
theorem cleanFile_cases (t : FileTree) (input output : Path) :
    (∃ f, Fails t input output f) ∨
    (∃ e, Escapes t input output e ∧
      (cleanFile t input (some output)).result = .error (.stray e)) ∨
    (∃ n, Document.read t input = .ok n ∧ Schema.cleanNoting n = .ok none) ∨
    (cleanFile t input (some output)).result = .ok ⟨input, some output, .cleaned none⟩ := by
  rcases Document.read_cases t input with ⟨n, hr⟩ | ⟨f, hr⟩ | ⟨e, hr⟩
  · rcases hc : Schema.cleanNoting n with (f | path) | - | m
    · exact .inl ⟨_, .types hr hc⟩
    · exact .inr (.inl ⟨_, .place hr hc, cleanFile_of_clean_error hr hc⟩)
    · exact .inr (.inr (.inl ⟨n, hr, hc⟩))
    · rcases Document.write_cases t output m with ⟨t', hw⟩ | ⟨f, hw⟩ | ⟨e, hw⟩
      · refine .inr (.inr (.inr ?_))
        rw [cleanFile_of_clean hr hc, hw]
        rfl
      · exact .inl ⟨_, .writing hr hc hw⟩
      · refine .inr (.inl ⟨e, .writing hr hc hw, ?_⟩)
        rw [cleanFile_of_clean hr hc, hw.write_eq]
        rfl
  · exact .inl ⟨_, .reading hr⟩
  · exact .inr (.inl ⟨e, .reading hr, cleanFile_of_read_error hr.read_eq⟩)

/-! ### One document's turn -/

/-- The run of one file ends in a stray fault. -/
theorem cleanOne_of_stray
    (h : (cleanFile t (s.rawDir.join way) (some (s.cleanedDir.join way))).result
      = .error (.stray e)) : (cleanOne s t way).result = .error (.stray e) := by
  simp only [cleanOne, h, settle]

/-- The run of one file ends in a fault of the document. -/
theorem cleanOne_of_cleaning (hs : s.policy = .skip)
    (h : (cleanFile t (s.rawDir.join way) (some (s.cleanedDir.join way))).result
      = .error (.cleaning f)) : (cleanOne s t way).result =
        .ok ⟨s.rawDir.join way, some (s.cleanedDir.join way), .failed f⟩ := by
  simp only [cleanOne, h, settle, hs, afterwards]

/-- The run of one file comes to an outcome. -/
theorem cleanOne_of_outcome
    (h : (cleanFile t (s.rawDir.join way) (some (s.cleanedDir.join way))).result = .ok outcome) :
    (cleanOne s t way).result =
      (afterwards (cleanFile t (s.rawDir.join way) (some (s.cleanedDir.join way))).tree
        (s.cleanedDir.join way) outcome).result := by
  simp only [cleanOne, h, settle]

theorem cleanOne_of_nothing_left (hr : Document.read t (s.rawDir.join way) = .ok n)
    (hc : Schema.cleanNoting n = .ok none) : (cleanOne s t way).result =
      (removeStale t (s.cleanedDir.join way)).result.map fun () =>
        ⟨s.rawDir.join way, some (s.cleanedDir.join way), .pruned⟩ := by
  obtain ⟨ht, hf⟩ := cleanFile_of_nothing_left hr hc (s.cleanedDir.join way)
  rw [cleanOne_of_outcome hf, ht]
  rfl

/-- A document that fails is recorded. -/
theorem Fails.cleanOne_result (hs : s.policy = .skip)
    (h : Fails t (s.rawDir.join way) (s.cleanedDir.join way) f) : (cleanOne s t way).result =
      .ok ⟨s.rawDir.join way, some (s.cleanedDir.join way), .failed f⟩ :=
  cleanOne_of_cleaning hs h.cleanFile_result

/-- A document that escapes ends the batch. -/
theorem Escapes.cleanOne_result (h : Escapes t (s.rawDir.join way) (s.cleanedDir.join way) e) :
    (cleanOne s t way).result = .error (.stray e) := by
  cases h with
  | reading hr => exact cleanOne_of_stray (cleanFile_of_read_error hr.read_eq)
  | writing hr hc hw =>
    refine cleanOne_of_stray ?_
    rw [cleanFile_of_clean hr hc, hw.write_eq]
    rfl
  | place hr hc => exact cleanOne_of_stray (cleanFile_of_clean_error hr hc)
  | stale hr hc hp =>
    rw [cleanOne_of_nothing_left hr hc]
    rcases removeStale_result t (s.cleanedDir.join way) with ⟨-, h⟩ | ⟨hn, -⟩
    · rw [h]
      rfl
    · exact absurd hp hn

/-- What is recorded of a document that is met in a tree. -/
structure Records (s : Settings) (t : FileTree) (way : Path) (outcome : Outcome) : Prop where
  input : outcome.input = s.rawDir.join way
  output : outcome.output = some (s.cleanedDir.join way)
  failed : ∀ f, outcome.fate = .failed f ↔ Fails t (s.rawDir.join way) (s.cleanedDir.join way) f

/-- A fate other than a failure is recorded of a document that does not fail. -/
theorem Records.of_result {fate : Fate} (hs : s.policy = .skip) (hf : ∀ f, fate ≠ .failed f)
    (h : (cleanOne s t way).result
      = .ok ⟨s.rawDir.join way, some (s.cleanedDir.join way), fate⟩) :
    Records s t way ⟨s.rawDir.join way, some (s.cleanedDir.join way), fate⟩ where
  input := rfl
  output := rfl
  failed f := by
    refine iff_of_false (hf f) fun hb => hf f ?_
    rw [hb.cleanOne_result hs] at h
    exact (congrArg Outcome.fate (Except.ok.inj h)).symm

/-- At its turn a document is recorded, unless it escapes. -/
theorem cleanOne_skip (hs : s.policy = .skip) (t : FileTree) (way : Path) :
    (∃ outcome, (cleanOne s t way).result = .ok outcome ∧ Records s t way outcome) ∨
    ∃ e, Escapes t (s.rawDir.join way) (s.cleanedDir.join way) e := by
  rcases cleanFile_cases t (s.rawDir.join way) (s.cleanedDir.join way) with
    ⟨f, hf⟩ | ⟨e, he, -⟩ | ⟨n, hr, hc⟩ | h
  · -- Only one fault can be recorded, so it is the one that the document has.
    refine .inl ⟨_, hf.cleanOne_result hs, rfl, rfl, fun f' => ⟨?_, fun hf' => ?_⟩⟩
    · rintro h
      obtain rfl : f = f' := Fate.failed.inj h
      exact hf
    · have := (hf.cleanOne_result hs).symm.trans (hf'.cleanOne_result hs)
      exact congrArg Outcome.fate (Except.ok.inj this)
  · exact .inr ⟨e, he⟩
  · rcases removeStale_result t (s.cleanedDir.join way) with ⟨hp, -⟩ | ⟨-, h⟩
    · exact .inr ⟨_, .stale hr hc hp⟩
    · have h : (cleanOne s t way).result =
          .ok ⟨s.rawDir.join way, some (s.cleanedDir.join way), .pruned⟩ := by
        rw [cleanOne_of_nothing_left hr hc, h]
        rfl
      exact .inl ⟨_, h, .of_result hs (fun f => nofun) h⟩
  · have h : (cleanOne s t way).result =
        .ok ⟨s.rawDir.join way, some (s.cleanedDir.join way), .cleaned none⟩ := by
      rw [cleanOne_of_outcome h]
      rfl
    exact .inl ⟨_, h, .of_result hs (fun f => nofun) h⟩

/-! ### The whole batch -/

/-- The tree in which the document is met that as many others come before. -/
def treeBefore (s : Settings) (t : FileTree) (ways : List Path) (i : Nat) : FileTree :=
  (cleanEach s t (ways.take i)).tree

/-- The document that so many others come before leads to a stray fault at its turn. -/
def EscapesAt (s : Settings) (t : FileTree) (ways : List Path) (i : Nat) (e : StrayFault) : Prop :=
  ∃ way, ways[i]? = some way ∧
    Escapes (treeBefore s t ways i) (s.rawDir.join way) (s.cleanedDir.join way) e

/-- Each document is recorded, in their order. -/
structure RecordsAll (s : Settings) (t : FileTree) (ways : List Path) (outcomes : List Outcome) :
    Prop where
  length : outcomes.length = ways.length
  each : ∀ i way outcome, ways[i]? = some way → outcomes[i]? = some outcome →
    Records s (treeBefore s t ways i) way outcome

theorem treeBefore_zero : treeBefore s t ways 0 = t := rfl

theorem treeBefore_succ (h : (cleanOne s t way).result = .ok outcome) (i : Nat) :
    treeBefore s t (way :: ways) (i + 1) = treeBefore s (cleanOne s t way).tree ways i := by
  simp only [treeBefore, List.take_succ_cons, cleanEach, h]

theorem escapesAt_zero : EscapesAt s t (way :: ways) 0 e ↔
    Escapes t (s.rawDir.join way) (s.cleanedDir.join way) e := by
  simp [EscapesAt, treeBefore_zero]

theorem escapesAt_succ (h : (cleanOne s t way).result = .ok outcome) (i : Nat) :
    EscapesAt s t (way :: ways) (i + 1) e ↔ EscapesAt s (cleanOne s t way).tree ways i e := by
  simp only [EscapesAt, List.getElem?_cons_succ, treeBefore_succ h]

/-- Documents are recorded one after the other, up to the first that escapes. -/
theorem cleanEach_skip (hs : s.policy = .skip) (t : FileTree) (ways : List Path) :
    (∃ outcomes, (cleanEach s t ways).result = .ok outcomes ∧
      (∀ i e, ¬ EscapesAt s t ways i e) ∧ RecordsAll s t ways outcomes) ∨
    ∃ i e, (cleanEach s t ways).result = .error (.stray e) ∧ EscapesAt s t ways i e ∧
      ∀ j < i, ∀ e', ¬ EscapesAt s t ways j e' := by
  -- Each document changes the tree for those after it, so the tree is generalized.
  induction ways generalizing t with
  | nil =>
    refine .inl ⟨[], rfl, ?_, rfl, ?_⟩
    · rintro i e ⟨way, hw, -⟩
      cases hw
    · intro i way outcome hw
      cases hw
  | cons way ways ih =>
    rcases cleanOne_skip hs t way with ⟨outcome, ho, recorded⟩ | ⟨e, he⟩
    · have first : ∀ e, ¬ EscapesAt s t (way :: ways) 0 e := by
        intro e he
        rw [(escapesAt_zero.1 he).cleanOne_result] at ho
        cases ho
      rcases ih (cleanOne s t way).tree with ⟨outcomes, hr, none, all⟩ | ⟨i, e, hr, he, before⟩
      · refine .inl ⟨outcome :: outcomes, ?_, ?_, ?_, ?_⟩
        · simp only [cleanEach, ho, hr]
          rfl
        · intro i e
          cases i with
          | zero => exact first e
          | succ i => exact fun he => none i e ((escapesAt_succ ho i).1 he)
        · rw [List.length_cons, List.length_cons, all.length]
        · intro i w o hw ho'
          cases i with
          | zero =>
            obtain rfl := Option.some.inj hw
            obtain rfl := Option.some.inj ho'
            exact recorded
          | succ i =>
            rw [treeBefore_succ ho]
            exact all.each i w o hw ho'
      · refine .inr ⟨i + 1, e, ?_, (escapesAt_succ ho i).2 he, ?_⟩
        · simp only [cleanEach, ho, hr]
          rfl
        · intro j hj e'
          cases j with
          | zero => exact first e'
          | succ j =>
            exact fun he => before j (Nat.lt_of_succ_lt_succ hj) e' ((escapesAt_succ ho j).1 he)
    · refine .inr ⟨0, e, ?_, escapesAt_zero.2 he, fun j hj => absurd hj (Nat.not_lt_zero j)⟩
      simp only [cleanEach, he.cleanOne_result]

/-- **A batch that skips what it cannot clean comes to its end if and only if no document escapes
at its turn.**  Then every document is recorded in order, as failed exactly if it fails; otherwise
the batch ends in the fault of the first document that escapes.  The batch is not one that comes to
a document that is no `Node`. -/
theorem cleanDirectory_skip (hs : s.policy = .skip)
    (hd : t.find? s.rawDir = .ok (some .directory))
    (hw : t.discover s.rawDir s.patterns = .ok ways)
    (held : ∀ limit, (cleanDirectory s t).result ≠ .error (.stray (.beyond limit))) :
    ((∃ outcomes, (cleanDirectory s t).result = .ok outcomes) ↔
      ∀ i e, ¬ EscapesAt s t ways i e) ∧
    (∀ outcomes, (cleanDirectory s t).result = .ok outcomes → RecordsAll s t ways outcomes) ∧
    ∀ e, (cleanDirectory s t).result = .error e →
      ∃ i stray, e = .stray stray ∧ (∀ limit, stray ≠ .beyond limit) ∧
        EscapesAt s t ways i stray ∧ ∀ j < i, ∀ e', ¬ EscapesAt s t ways j e' := by
  have run : (cleanDirectory s t).result = (cleanEach s t ways).result := by
    simp only [cleanDirectory, hd, hw]
  rw [run] at held ⊢
  rcases cleanEach_skip hs t ways with ⟨outcomes, hr, none, all⟩ | ⟨i, e, hr, he, before⟩
  · rw [hr]
    refine ⟨iff_of_true ⟨outcomes, rfl⟩ none, ?_, nofun⟩
    intro outcomes' h
    obtain rfl := Except.ok.inj h
    exact all
  · rw [hr]
    refine ⟨iff_of_false nofun fun none => none i e he, nofun, ?_⟩
    intro e' h
    refine ⟨i, e, (Except.error.inj h).symm, ?_, he, before⟩
    rintro limit rfl
    exact held limit hr

end

/-! ### Two documents in a directory -/

/-- A directory with two JSON documents. -/
def twoFiles (first second : List UInt8) : FileTree :=
  ⟨[(["original"], .directory), (["original", "a.json"], .file first),
    (["original", "b.json"], .file second)], []⟩

/-- Takes the JSON documents of that directory and skips what it cannot clean. -/
def skipSettings : Settings := ⟨⟨.here, ["original"]⟩, ⟨.here, ["clean"]⟩, ["*.json"], .skip⟩

theorem discover_twoFiles (first second : List UInt8) :
    (twoFiles first second).discover skipSettings.rawDir skipSettings.patterns
      = .ok [⟨.here, ["a.json"]⟩, ⟨.here, ["b.json"]⟩] := by
  have pattern : Pattern.ofText "*.json"
      = .ok [.names [.many, .only '.', .only 'j', .only 's', .only 'o', .only 'n']] := by
    with_unfolding_all rfl
  have found : (twoFiles first second).find? skipSettings.rawDir = .ok (some .directory) := rfl
  have place : (twoFiles first second).place skipSettings.rawDir = .ok ["original"] := rfl
  have names : (twoFiles first second).namesIn ["original"] = ["a.json", "b.json"] := rfl
  have spots : (twoFiles first second).glob skipSettings.rawDir "*.json"
      = .ok [⟨["original", "a.json"], ["a.json"]⟩, ⟨["original", "b.json"], ["b.json"]⟩] := by
    simp only [FileTree.glob, pattern, found, place, FileTree.overlong?, FileTree.select, names]
    simp [Wildcard.accepts, FileTree.admits, Spot.enter, twoFiles, FileTree.at?]
  have all : (twoFiles first second).globAll skipSettings.rawDir skipSettings.patterns
      = .ok [⟨["original", "a.json"], ["a.json"]⟩, ⟨["original", "b.json"], ["b.json"]⟩] := by
    simp only [FileTree.globAll, skipSettings] at spots ⊢
    rw [spots]
    rfl
  have before : ¬ ["b.json"] < ["a.json"] := by decide
  have sorted : [["a.json"], ["b.json"]].mergeSort (fun v w => !decide (w < v))
      = [["a.json"], ["b.json"]] := by
    simp [List.mergeSort, List.MergeSort.Internal.splitInTwo, before]
  rw [FileTree.discover, all]
  show Except.ok (([["a.json"], ["b.json"]].mergeSort fun v w => !decide (w < v)).map _) = _
  rw [sorted]
  rfl

section

attribute [local instance] SetOrder.written

/-- An empty document is skipped, and the one after it is cleaned. -/
theorem cleanDirectory_skip_empty :
    (twoFiles [] [0x31]).find? skipSettings.rawDir = .ok (some .directory) ∧
    (twoFiles [] [0x31]).discover skipSettings.rawDir skipSettings.patterns
      = .ok [⟨.here, ["a.json"]⟩, ⟨.here, ["b.json"]⟩] ∧
    (∀ limit, (cleanDirectory skipSettings (twoFiles [] [0x31])).result
      ≠ .error (.stray (.beyond limit))) ∧
    ∃ outcomes, (cleanDirectory skipSettings (twoFiles [] [0x31])).result = .ok outcomes ∧
      outcomes.map Outcome.isFailed = [true, false] ∧
      RecordsAll skipSettings (twoFiles [] [0x31])
        [⟨.here, ["a.json"]⟩, ⟨.here, ["b.json"]⟩] outcomes := by
  have found : (twoFiles [] [0x31]).find? skipSettings.rawDir = .ok (some .directory) := rfl
  have ways := discover_twoFiles [] [0x31]
  have runs : (cleanDirectory skipSettings (twoFiles [] [0x31])).result = .ok
      [⟨⟨.here, ["original", "a.json"]⟩, some ⟨.here, ["clean", "a.json"]⟩,
        .failed (.document (.inFile ⟨.here, ["original", "a.json"]⟩
          (.malformedJson .value ⟨1, 1, 0⟩)))⟩,
      ⟨⟨.here, ["original", "b.json"]⟩, some ⟨.here, ["clean", "b.json"]⟩, .cleaned none⟩] := by
    simp only [cleanDirectory, found, ways]
    with_unfolding_all rfl
  have held : ∀ limit, (cleanDirectory skipSettings (twoFiles [] [0x31])).result
      ≠ .error (.stray (.beyond limit)) := by
    rw [runs]
    exact nofun
  exact ⟨found, ways, held, _, runs, rfl, (cleanDirectory_skip rfl found ways held).2.1 _ runs⟩

/-- A document that is no UTF-8 ends the batch, and the one after it is not cleaned. -/
theorem cleanDirectory_undecodable :
    skipSettings.policy = .skip ∧
    (twoFiles [0xff] [0x31]).find? skipSettings.rawDir = .ok (some .directory) ∧
    (twoFiles [0xff] [0x31]).discover skipSettings.rawDir skipSettings.patterns
      = .ok [⟨.here, ["a.json"]⟩, ⟨.here, ["b.json"]⟩] ∧
    (cleanDirectory skipSettings (twoFiles [0xff] [0x31])).result
      = .error (.stray (.encoding ⟨.start, 0xff, 0, 1⟩)) := by
  have found : (twoFiles [0xff] [0x31]).find? skipSettings.rawDir = .ok (some .directory) := rfl
  have ways := discover_twoFiles [0xff] [0x31]
  have read : (twoFiles [0xff] [0x31]).read ⟨.here, ["original", "a.json"]⟩ = .ok [0xff] := rfl
  have escapes : Escapes (twoFiles [0xff] [0x31]) ⟨.here, ["original", "a.json"]⟩
      ⟨.here, ["clean", "a.json"]⟩ (.encoding ⟨.start, 0xff, 0, 1⟩) :=
    .reading (.octets read rfl)
  have turn : (cleanOne skipSettings (twoFiles [0xff] [0x31]) ⟨.here, ["a.json"]⟩).result
      = .error (.stray (.encoding ⟨.start, 0xff, 0, 1⟩)) := escapes.cleanOne_result
  refine ⟨rfl, found, ways, ?_⟩
  simp only [cleanDirectory, found, ways, cleanEach, turn]

end

end Batch

end PlainSchema
