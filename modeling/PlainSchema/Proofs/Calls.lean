/-
PlainSchema/Proofs/Calls.lean

How a call of the program ends: with 0, or with 1 or 2 and a line that says what is
wrong, or in a stray fault.

`CallFails` lists what a call can say last and the number that goes with it, and
`CallEscapes` the stray faults, by the layer in which they arise: the words of the
call, the settings, the patterns, the documents.  A command expects a fixed kind of
failure of the layers below it; what escapes is what none of them turns into that
kind.  `run_contained` says that the two lists are complete and exact, for the calls
that do not come to a document or to settings that are not followed.
-/
import PlainSchema.CommandLine
import PlainSchema.Proofs.Endings
import PlainSchema.Proofs.Loading

namespace PlainSchema

variable {t : FileTree} {input output : Path} {e : StrayFault} {f : CleaningFault}

/-! ### NUL characters -/

namespace Settings

variable {p : Path} {why : StrayFault}

/-- A new file of settings is refused as the system refuses it, or because the file is there. -/
theorem writeTemplate_ne_nul (hn : p.hasNul = false) :
    writeTemplate t p ≠ .error (.file .nul) := by
  intro h
  unfold writeTemplate at h
  split at h
  · next e hf =>
    obtain ⟨rfl, -⟩ := FileTree.find?_eq_error_iff.1 hf
    cases h
  · cases h
  · split at h
    · next e hw =>
      obtain rfl : e = .nul := StrayFault.file.inj (Except.error.inj h)
      rw [FileTree.write_eq_nul_iff.1 hw] at hn
      cases hn
    · cases h

end Settings

namespace Batch

open Document (ReadFails ReadEscapes WriteFails WriteEscapes Format)

variable [SetOrder] {output? : Option Path} {n m : Node}

/-! ### One document, to a file or to nowhere -/

/-- A fault of the document in a file that is cleaned, and written to a file if one is given. -/
inductive FileFails (t : FileTree) (input : Path) : Option Path → CleaningFault → Prop
  | filed {output : Path} {f : CleaningFault} : Fails t input output f →
      FileFails t input (some output) f
  | reading {f : DocumentFault} : ReadFails t input f → FileFails t input none (.document f)
  | types {n : Node} {f : Schema.NullOnlyTypes} : Document.read t input = .ok n →
      Schema.cleanNoting n = .error (.types f) → FileFails t input none (.types f)
  | rendering {n m : Node} {why : Json.WriteFault} : Document.read t input = .ok n →
      Schema.cleanNoting n = .ok (some m) → Format.ofPath input = .json →
      Json.write m = .error why → FileFails t input none (.document (.noJson why))

/-- A stray fault of cleaning the document in a file; nothing is removed, so it makes no difference
that nothing may be left of the document. -/
inductive FileEscapes (t : FileTree) (input : Path) : Option Path → StrayFault → Prop
  | reading {output? : Option Path} {e : StrayFault} : ReadEscapes t input e →
      FileEscapes t input output? e
  | place {output? : Option Path} {n : Node} {path : Pointer} : Document.read t input = .ok n →
      Schema.cleanNoting n = .error (.place path) → FileEscapes t input output? (.longInteger ⟨⟩)
  | writing {output : Path} {n m : Node} {e : StrayFault} : Document.read t input = .ok n →
      Schema.cleanNoting n = .ok (some m) → WriteEscapes t output m e →
      FileEscapes t input (some output) e
  | rendering {n m : Node} : Document.read t input = .ok n → Schema.cleanNoting n = .ok (some m) →
      Format.ofPath input = .yaml → m.hasLongInteger = true →
      FileEscapes t input none (.longInteger ⟨⟩)

theorem FileFails.cleanFile_result (h : FileFails t input output? f) :
    (cleanFile t input output?).result = .error (.cleaning f) := by
  cases h with
  | filed hf => exact hf.cleanFile_result
  | reading hr =>
    rw [cleanFile, hr.read_eq]
    rfl
  | types hr hc =>
    simp only [cleanFile, hr, hc]
    rfl
  | rendering hr hc hf hw =>
    simp only [cleanFile, hr, hc, hf, Document.render, hw]
    rfl

theorem FileEscapes.cleanFile_result (h : FileEscapes t input output? e) :
    (cleanFile t input output?).result = .error (.stray e) := by
  cases h with
  | reading hr => rw [cleanFile, hr.read_eq]
  | place hr hc =>
    simp only [cleanFile, hr, hc]
    rfl
  | writing hr hc hw =>
    rw [cleanFile_of_clean hr hc, hw.write_eq]
    rfl
  | rendering hr hc hf hl =>
    have hw : Yaml.write _ = .error ⟨⟩ := Yaml.write_eq_error_iff.2 hl
    simp only [cleanFile, hr, hc, hf, Document.render, hw]
    rfl

/-- A document in a file comes to an outcome, or to one of these faults. -/
theorem fileFails_cases (t : FileTree) (input : Path) (output? : Option Path) :
    (∃ outcome, (cleanFile t input output?).result = .ok outcome) ∨
    (∃ f, FileFails t input output? f) ∨ ∃ e, FileEscapes t input output? e := by
  rcases Document.read_cases t input with ⟨n, hr⟩ | ⟨f, hr⟩ | ⟨e, hr⟩
  · rcases hc : Schema.cleanNoting n with (f | path) | - | m
    · cases output? with
      | none => exact .inr (.inl ⟨_, .types hr hc⟩)
      | some output => exact .inr (.inl ⟨_, .filed (.types hr hc)⟩)
    · exact .inr (.inr ⟨_, .place hr hc⟩)
    · exact .inl ⟨⟨input, output?, .pruned⟩, by simp only [cleanFile, hr, hc]⟩
    · cases output? with
      | none =>
        rcases hf : Format.ofPath input
        · rcases hw : Yaml.write m with ⟨⟩ | text
          · exact .inr (.inr ⟨_, .rendering hr hc hf (Yaml.write_eq_error_iff.1 hw)⟩)
          · exact .inl ⟨⟨input, none, .cleaned (some text.toList)⟩,
              by simp only [cleanFile, hr, hc, hf, Document.render, hw]; rfl⟩
        · rcases hw : Json.write m with why | text
          · exact .inr (.inl ⟨_, .rendering hr hc hf hw⟩)
          · exact .inl ⟨⟨input, none, .cleaned (some text)⟩,
              by simp only [cleanFile, hr, hc, hf, Document.render, hw]; rfl⟩
      | some output =>
        rcases Document.write_cases t output m with ⟨t', hw⟩ | ⟨f, hw⟩ | ⟨e, hw⟩
        · refine .inl ⟨⟨input, some output, .cleaned none⟩, ?_⟩
          rw [cleanFile_of_clean hr hc, hw]
          rfl
        · exact .inr (.inl ⟨_, .filed (.writing hr hc hw)⟩)
        · exact .inr (.inr ⟨e, .writing hr hc hw⟩)
  · cases output? with
    | none => exact .inr (.inl ⟨_, .reading hr⟩)
    | some output => exact .inr (.inl ⟨_, .filed (.reading hr)⟩)
  · exact .inr (.inr ⟨e, .reading hr⟩)

end Batch

namespace CommandLine

open Batch (FileFails FileEscapes BatchFails BatchEscapes FailsAt)
open Settings (LoadEscapes)

variable {args : List String} {c : Command} {verbose : Bool} {request : Request} {n : Nat}
  {said text : String}

/-! ### Words -/

theorem pathWord_eq_ok_iff {s s' : String} :
    pathWord s = .ok s' ↔ '\x00' ∉ s.toList ∧ s = s' := by
  unfold pathWord
  split
  · next h => exact iff_of_false nofun fun h' => h'.1 (List.contains_iff_mem.1 h)
  · next h =>
    rw [List.contains_iff_mem] at h
    simp [h]

theorem closed_eq_ok_iff {left : List String} {r : Request} :
    closed c left r = .ok request ↔ left = [] ∧ r = request := by
  unfold closed
  split
  · next h => simp [List.isEmpty_iff.1 h]
  · next h => simp [List.isEmpty_iff.not.1 h]

theorem commandRequest_generateConfig {output : String}
    (h : commandRequest c args = .ok (.generateConfig output)) : '\x00' ∉ output.toList := by
  unfold commandRequest at h
  split at h
  · cases h
  split at h
  · cases h
  cases c with
  | clean =>
    obtain ⟨output?, -, h⟩ := bind_eq_ok_iff.1 h
    split at h
    · cases h
    · obtain ⟨input, -, h⟩ := bind_eq_ok_iff.1 h
      cases (closed_eq_ok_iff.1 h).2
  | cleanAll =>
    obtain ⟨config, -, h⟩ := bind_eq_ok_iff.1 h
    obtain ⟨raw, -, h⟩ := bind_eq_ok_iff.1 h
    obtain ⟨cleaned, -, h⟩ := bind_eq_ok_iff.1 h
    cases (closed_eq_ok_iff.1 h).2
  | generateConfig =>
    obtain ⟨output', ho, h⟩ := bind_eq_ok_iff.1 h
    obtain ⟨hn, rfl⟩ := pathWord_eq_ok_iff.1 ho
    cases (closed_eq_ok_iff.1 h).2
    exact hn

/-- Before its command a program can be asked for help or its version only. -/
theorem readProgram_ne_generateConfig {output : String} :
    readProgram args ≠ .ok (.inl (.generateConfig output)) := by
  intro h
  unfold readProgram at h
  split at h
  · cases h
  · split at h
    · next r _ request he =>
      obtain rfl : request = .generateConfig output := Sum.inl.inj (Except.ok.inj h)
      obtain ⟨g, -, hg⟩ := Option.map_eq_some_iff.1 he
      split at hg <;> cases hg
    · cases h

theorem unknownCommand_ne_generateConfig {word output : String} {rest : List String} :
    unknownCommand word rest ≠ .ok (.generateConfig output) := by
  intro h
  unfold unknownCommand at h
  split at h
  · cases h
  · next request hr =>
    obtain rfl : request = .generateConfig output := Except.ok.inj h
    exact readProgram_ne_generateConfig hr
  · cases h

/-- The path of a new file of settings has no NUL character. -/
theorem readCall_generateConfig {output : String}
    (h : readCall args = .ok ⟨verbose, .generateConfig output⟩) : '\x00' ∉ output.toList := by
  unfold readCall at h
  split at h
  · cases h
  split at h
  · cases h
  · next request hr =>
    obtain rfl : request = .generateConfig output := (Call.mk.inj (Except.ok.inj h)).2
    exact absurd hr readProgram_ne_generateConfig
  · split at h
    · cases h
    · obtain ⟨request, hr, h⟩ := map_eq_ok_iff.1 h
      obtain rfl : request = .generateConfig output := (Call.mk.inj h).2
      split at hr
      · exact commandRequest_generateConfig hr
      · exact absurd hr unknownCommand_ne_generateConfig

/-! ### The end of a call -/

/-- The end of a report: a number that is not 0, and a text that is printed last. -/
def Report.Says (r : Report) (n : Nat) (said : String) : Prop :=
  r.status = .ok n ∧ ∃ before, r.errors = before ++ said

theorem line_ne_empty (s : String) : line s ≠ "" := by
  intro h
  have := congrArg String.length h
  simp [line] at this

theorem settingsFor_eq_error_iff {raw cleaned config : Option String} {keepGoing : Bool}
    {why : Failure} : settingsFor t raw cleaned config keepGoing = .error why ↔
      ∃ text, config = some text ∧ Settings.load t (.ofText text) = .error why := by
  unfold settingsFor
  dsimp only
  rw [map_eq_error_iff]
  cases config with
  | none => exact iff_of_false nofun fun ⟨_, h, _⟩ => nomatch h
  | some text =>
    constructor
    · exact fun h => ⟨text, rfl, h⟩
    · rintro ⟨text', ht, h⟩
      obtain rfl := Option.some.inj ht
      exact h

section

variable [SetOrder]

/-- What a call that fails says last, and the number that it ends with. -/
inductive CallFails (t : FileTree) (args : List String) : Nat → String → Prop
  | wordless : readCall args = .error .wordless → CallFails t args 2 (helpText none)
  | usage {c : Option Command} {fault : UsageFault} : readCall args = .error (.usage c fault) →
      CallFails t args 2 (line (usageText c fault))
  | document {verbose : Bool} {input : String} {output : Option String} {f : CleaningFault} :
      readCall args = .ok ⟨verbose, .clean input output⟩ →
      FileFails t (.ofText input) (output.map .ofText) f → CallFails t args 1 (line f.message)
  | settings {verbose keepGoing : Bool} {raw cleaned : Option String} {config : String}
      {fault : SettingsFault} :
      readCall args = .ok ⟨verbose, .cleanAll raw cleaned (some config) keepGoing⟩ →
      Settings.load t (.ofText config) = .error (.settings fault) →
      CallFails t args 1 (line fault.message)
  | batch {verbose keepGoing : Bool} {raw cleaned config : Option String} {s : Settings}
      {fault : BatchFault} : readCall args = .ok ⟨verbose, .cleanAll raw cleaned config keepGoing⟩ →
      settingsFor t raw cleaned config keepGoing = .ok s → BatchFails s t fault →
      CallFails t args 1 (line fault.message)
  /-- Documents that fail are recorded, and the batch comes to its end. -/
  | skipped {verbose keepGoing : Bool} {raw cleaned config : Option String} {s : Settings}
      {ways : List Path} {outcomes : List Outcome} {i : Nat} {f : CleaningFault} :
      readCall args = .ok ⟨verbose, .cleanAll raw cleaned config keepGoing⟩ →
      settingsFor t raw cleaned config keepGoing = .ok s →
      t.find? s.rawDir = .ok (some .directory) → t.discover s.rawDir s.patterns = .ok ways →
      (Batch.cleanDirectory s t).result = .ok outcomes → FailsAt s t ways i f →
      CallFails t args 1 (line (toString (outcomes.countP Outcome.isFailed)
        ++ " schema document(s) failed to clean."))
  | template {verbose : Bool} {output : String} {why : StrayFault} :
      readCall args = .ok ⟨verbose, .generateConfig output⟩ →
      Settings.writeTemplate t (.ofText output) = .error why → CallFails t args 1 (line why.message)

/-- A stray fault that a call ends in. -/
inductive CallEscapes (t : FileTree) (args : List String) : StrayFault → Prop
  | words : readCall args = .error .nul → CallEscapes t args (.file .nul)
  | document {verbose : Bool} {input : String} {output : Option String} {e : StrayFault} :
      readCall args = .ok ⟨verbose, .clean input output⟩ →
      FileEscapes t (.ofText input) (output.map .ofText) e → CallEscapes t args e
  | settings {verbose keepGoing : Bool} {raw cleaned : Option String} {config : String}
      {e : StrayFault} :
      readCall args = .ok ⟨verbose, .cleanAll raw cleaned (some config) keepGoing⟩ →
      LoadEscapes t (.ofText config) e → CallEscapes t args e
  | batch {verbose keepGoing : Bool} {raw cleaned config : Option String} {s : Settings}
      {e : StrayFault} : readCall args = .ok ⟨verbose, .cleanAll raw cleaned config keepGoing⟩ →
      settingsFor t raw cleaned config keepGoing = .ok s → BatchEscapes s t e →
      CallEscapes t args e

theorem run_of_call (h : readCall args = .ok ⟨verbose, request⟩) :
    run t args = perform t ⟨verbose, request⟩ := by
  rw [run, h]

theorem run_of_misuse {m : Misuse} (h : readCall args = .error m) : run t args = misused t m := by
  rw [run, h]

/-! ### Cleaning one document -/

theorem runClean_fails {input : String} {output : Option String}
    (h : FileFails t (.ofText input) (output.map .ofText) f) :
    (runClean t verbose input output).Says 1 (line f.message) := by
  simp only [runClean, h.cleanFile_result, failing]
  exact ⟨rfl, _, rfl⟩

theorem runClean_escapes {input : String} {output : Option String}
    (h : FileEscapes t (.ofText input) (output.map .ofText) e) :
    (runClean t verbose input output).status = .error e := by
  simp only [runClean, h.cleanFile_result, failing]

theorem runClean_ok {input : String} {output : Option String} {outcome : Outcome}
    (h : (Batch.cleanFile t (.ofText input) (output.map .ofText)).result = .ok outcome) :
    (runClean t verbose input output).status = .ok 0 := by
  simp only [runClean, h]
  split <;> rfl

/-! ### Cleaning a directory -/

theorem runCleanAll_of_error {s : Settings} {why : Failure}
    (h : (Batch.cleanDirectory s t).result = .error why) :
    runCleanAll t verbose (.ok s) = failing (Batch.cleanDirectory s t).tree ""
      (noteLines verbose (Batch.cleanDirectory s t).notes) why := by
  simp only [runCleanAll, h]

theorem runCleanAll_of_ok (verbose : Bool) {s : Settings} {outcomes : List Outcome}
    (h : (Batch.cleanDirectory s t).result = .ok outcomes) :
    (outcomes.countP Outcome.isFailed = 0 ∧
      (runCleanAll t verbose (.ok s)).status = .ok 0) ∨
    (outcomes.countP Outcome.isFailed ≠ 0 ∧
      (runCleanAll t verbose (.ok s)).Says 1 (line (toString (outcomes.countP Outcome.isFailed)
        ++ " schema document(s) failed to clean."))) := by
  simp only [runCleanAll, h]
  split
  · next h => exact .inl ⟨h, rfl⟩
  · next h => exact .inr ⟨h, rfl, _, rfl⟩

/-! ### All calls -/

theorem CallFails.says (h : CallFails t args n said) : (run t args).Says n said := by
  cases h with
  | wordless hr =>
    rw [run_of_misuse hr]
    exact ⟨rfl, "", (String.empty_append ..).symm⟩
  | usage hr =>
    rw [run_of_misuse hr]
    exact ⟨rfl, "", (String.empty_append ..).symm⟩
  | document hr hf =>
    rw [run_of_call hr]
    exact runClean_fails hf
  | settings hr hl =>
    rw [run_of_call hr, perform]
    dsimp only
    rw [settingsFor_eq_error_iff.2 ⟨_, rfl, hl⟩]
    exact ⟨rfl, "", rfl⟩
  | batch hr hs hb =>
    rw [run_of_call hr, perform]
    dsimp only
    rw [hs, runCleanAll_of_error hb.cleanDirectory_result]
    exact ⟨rfl, _, rfl⟩
  | @skipped verbose _ _ _ _ s ways outcomes i f hr hs hd hw ho hf =>
    have run : (Batch.cleanEach s t ways).result = .ok outcomes := by
      simpa only [Batch.cleanDirectory, hd, hw] using ho
    have failed : ∃ outcome ∈ outcomes, outcome.isFailed = true :=
      (Batch.exists_isFailed_iff run).2 ⟨i, f, hf⟩
    rw [run_of_call hr, perform]
    dsimp only
    rw [hs]
    rcases runCleanAll_of_ok verbose ho with ⟨hn, -⟩ | ⟨-, h⟩
    · obtain ⟨outcome, hm, hf⟩ := failed
      exact absurd hf (List.countP_eq_zero.1 hn outcome hm)
    · exact h
  | @template verbose output why hr ht =>
    rw [run_of_call hr, perform]
    dsimp only
    have seen :=
      Settings.writeTemplate_ne_nul (t := t) (Path.hasNul_ofText (readCall_generateConfig hr))
    unfold runGenerateConfig
    dsimp only
    split
    · next h => cases ht.symm.trans h
    · next h => exact absurd h seen
    · next h =>
      obtain rfl := Except.error.inj (ht.symm.trans h)
      exact ⟨rfl, "", (String.empty_append ..).symm⟩

theorem CallFails.number (h : CallFails t args n said) : n = 1 ∨ n = 2 := by
  cases h <;> simp

theorem CallFails.said_ne_empty (h : CallFails t args n said) : said ≠ "" := by
  cases h with
  | wordless => decide
  | _ => exact line_ne_empty _

theorem CallEscapes.status_eq (h : CallEscapes t args e) : (run t args).status = .error e := by
  cases h with
  | words hr => rw [run_of_misuse hr]; rfl
  | document hr he =>
    rw [run_of_call hr]
    exact runClean_escapes he
  | settings hr hl =>
    rw [run_of_call hr, perform]
    dsimp only
    rw [settingsFor_eq_error_iff.2 ⟨_, rfl, hl.load_eq⟩]
    rfl
  | batch hr hs hb =>
    rw [run_of_call hr, perform]
    dsimp only
    rw [hs, runCleanAll_of_error hb.cleanDirectory_result]
    rfl

/-- A call ends in one of the faults, or with 0. -/
theorem run_cases (t : FileTree) (args : List String) :
    (∃ e, CallEscapes t args e) ∨ (∃ n said, CallFails t args n said) ∨
      (run t args).status = .ok 0 := by
  rcases hr : readCall args with (- | ⟨c, fault⟩ | -) | ⟨verbose, request⟩
  · exact .inr (.inl ⟨2, _, .wordless hr⟩)
  · exact .inr (.inl ⟨2, _, .usage hr⟩)
  · exact .inl ⟨_, .words hr⟩
  cases request with
  | help c =>
    rw [run_of_call hr]
    exact .inr (.inr rfl)
  | version =>
    rw [run_of_call hr]
    exact .inr (.inr rfl)
  | clean input output =>
    rcases Batch.fileFails_cases t (.ofText input) (output.map .ofText) with
      ⟨outcome, ho⟩ | ⟨f, hf⟩ | ⟨e, he⟩
    · rw [run_of_call hr]
      exact .inr (.inr (runClean_ok ho))
    · exact .inr (.inl ⟨1, _, .document hr hf⟩)
    · exact .inl ⟨e, .document hr he⟩
  | cleanAll raw cleaned config keepGoing =>
    rcases hs : settingsFor t raw cleaned config keepGoing with why | s
    · obtain ⟨text, rfl, hl⟩ := settingsFor_eq_error_iff.1 hs
      rcases Settings.load_cases t (.ofText text) with ⟨s, h⟩ | ⟨fault, h⟩ | ⟨e, he⟩
      · cases hl.symm.trans h
      · exact .inr (.inl ⟨1, _, .settings hr h⟩)
      · exact .inl ⟨e, .settings hr he⟩
    rcases Batch.cleanDirectory_cases s t with
      ⟨fault, hf⟩ | ⟨e, he⟩ | ⟨ways, outcomes, hd, hw, ho, hrun⟩
    · exact .inr (.inl ⟨1, _, .batch hr hs hf⟩)
    · exact .inl ⟨e, .batch hr hs he⟩
    rcases runCleanAll_of_ok verbose ho with ⟨-, h⟩ | ⟨hn, -⟩
    · refine .inr (.inr ?_)
      rw [run_of_call hr, perform]
      dsimp only
      rw [hs, h]
    · obtain ⟨outcome, hm, hf⟩ := List.countP_pos_iff.1 (Nat.pos_of_ne_zero hn)
      obtain ⟨i, f, hi⟩ := (Batch.exists_isFailed_iff hrun).1 ⟨outcome, hm, hf⟩
      exact .inr (.inl ⟨1, _, .skipped hr hs hd hw ho hi⟩)
  | generateConfig output =>
    rcases ht : Settings.writeTemplate t (.ofText output) with why | t'
    · exact .inr (.inl ⟨1, _, .template hr ht⟩)
    · refine .inr (.inr ?_)
      rw [run_of_call hr, perform]
      dsimp only
      unfold runGenerateConfig
      dsimp only
      rw [ht]
      rfl

/-- **A call ends in a stray fault exactly if one escapes from its words, its settings, its
patterns or a document; every other fault ends it with 1 or 2 and a text on the stream of errors,
and without a fault it ends with 0.**  The call is not one that comes to a document that is no
`Node`, or to settings that are not followed. -/
theorem run_contained (t : FileTree) (args : List String)
    (held : ∀ limit, (run t args).status ≠ .error (.beyond limit)) :
    (∀ e, (run t args).status = .error e ↔ CallEscapes t args e) ∧
    (∀ limit, ¬ CallEscapes t args (.beyond limit)) ∧
    (∀ n said, CallFails t args n said →
      (n = 1 ∨ n = 2) ∧ said ≠ "" ∧ (run t args).status = .ok n ∧
        ∃ before, (run t args).errors = before ++ said) ∧
    ∀ n, (run t args).status = .ok n → n = 0 ∨ ∃ said, CallFails t args n said := by
  refine ⟨fun e => ⟨fun h => ?_, fun h => h.status_eq⟩, fun limit h => held limit h.status_eq,
    fun n said h => ⟨h.number, h.said_ne_empty, h.says.1, h.says.2⟩, fun n h => ?_⟩
  · rcases run_cases t args with ⟨e', he⟩ | ⟨n, said, hf⟩ | h0
    · obtain rfl := Except.error.inj (h.symm.trans he.status_eq)
      exact he
    · cases h.symm.trans hf.says.1
    · cases h.symm.trans h0
  · rcases run_cases t args with ⟨e, he⟩ | ⟨n', said, hf⟩ | h0
    · cases h.symm.trans he.status_eq
    · obtain rfl := Except.ok.inj (h.symm.trans hf.says.1)
      exact .inr ⟨said, hf⟩
    · exact .inl (Except.ok.inj (h.symm.trans h0))

end

section

attribute [local instance] SetOrder.written

/-- An empty document is one of the faults that end a call with 1. -/
theorem run_contained_empty :
    (∀ limit, (run ⟨[(["a.json"], .file [])], []⟩ ["clean", "a.json"]).status
      ≠ .error (.beyond limit)) ∧
    (run ⟨[(["a.json"], .file [])], []⟩ ["clean", "a.json"]).status = .ok 1 ∧
    ∃ said, CallFails ⟨[(["a.json"], .file [])], []⟩ ["clean", "a.json"] 1 said := by
  have ends : (run ⟨[(["a.json"], .file [])], []⟩ ["clean", "a.json"]).status = .ok 1 := by
    with_unfolding_all rfl
  have held : ∀ limit, (run ⟨[(["a.json"], .file [])], []⟩ ["clean", "a.json"]).status
      ≠ .error (.beyond limit) := by
    rw [ends]
    exact nofun
  exact ⟨held, ends, ((run_contained _ _ held).2.2.2 1 ends).resolve_left (by decide)⟩

/-- A document that is no UTF-8, and a directory in the stead of a file of settings, end a call
without a number and without a word. -/
theorem run_escapes :
    (run ⟨[(["a.json"], .file [0xff])], []⟩ ["clean", "a.json"]).status
      = .error (.encoding ⟨.start, 0xff, 0, 1⟩) ∧
    (run ⟨[(["a.json"], .file [0xff])], []⟩ ["clean", "a.json"]).errors = "" ∧
    (run ⟨[(["b"], .directory)], []⟩ ["clean-all", "--config", "b"]).status
      = .error (.file (.refused .isDirectory ⟨.here, ["b"]⟩)) ∧
    (run ⟨[(["b"], .directory)], []⟩ ["clean-all", "--config", "b"]).errors = "" := by
  refine ⟨?_, ?_, ?_, ?_⟩ <;> with_unfolding_all rfl

end

end CommandLine

end PlainSchema
