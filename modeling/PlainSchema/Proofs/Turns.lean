/-
PlainSchema/Proofs/Turns.lean

One document's turn in a batch: what it does to the tree.

What is wanted of a document (`wanted`) is the text that is to stand for it, or
nothing, or a fault.  It is known before anything is changed, and what happens then
happens at the output alone (`cleanOne_of_wanted_error`, `_none`, `_text`).  `Turned`
lists the four ways in which a turn can end so that the batch goes on, each with the
tree that it leaves; nothing else can happen (`turned_of_cleanOne`), and each of them
does (`Turned.cleanOne_eq`).
-/
import PlainSchema.Proofs.Cleaning
import PlainSchema.Proofs.Policies

namespace PlainSchema

namespace Document

variable {t t' : FileTree} {p way : Path} {n : Node} {text : List Char}

/-- A document that is read is the one that the text of its file holds. -/
theorem read_eq_ok_iff : read t p = .ok n ↔
    ∃ text, HasText t p text ∧ parse (.ofPath p) text = .ok n := by
  constructor
  · intro h
    unfold read at h
    split at h
    · cases h
    · next octets ho =>
      unfold ofOctets at h
      split at h
      · cases h
      · next text ht =>
        refine ⟨text, ⟨octets, ho, ht⟩, ?_⟩
        rcases hp : parse (.ofPath p) text with e | n' <;> rw [hp] at h
        · cases h
        · exact h
  · rintro ⟨text, ht, hp⟩
    rw [read_of_hasText ht, hp]
    rfl

/-- The directories on the way to the file cannot be made; what was made of them stays. -/
theorem store_of_makeDirectories {why : FileFault}
    (h : t.makeDirectories p.parent = (t', .error why)) :
    store t p text = (t', .error (unwritable p why)) := by
  simp only [store, h]

/-- The format is told by the name, and the name is at the end of the way. -/
theorem Format.ofPath_join (base : Path) (ha : way.anchor = .here) (hp : way.parts ≠ []) :
    Format.ofPath (base.join way) = Format.ofPath way := by
  have name : (base.join way).name = way.name := by
    rw [Path.join, if_pos ha, Path.name, Path.name, List.getLast?_append_of_ne_nil _ hp]
  rw [ofPath, ofPath, Path.suffix, Path.suffix, name]

end Document

namespace Batch

variable [SetOrder] {s : Settings} {t t' : FileTree} {input output way : Path} {ways : List Path}
  {outcome : Outcome} {outcomes : List Outcome} {fate : Fate} {f : CleaningFault} {e : Failure}
  {text : List Char}

/-! ### What is wanted of a document -/

/-- The text that is to stand for the document in a file; `none` if nothing is left of it. -/
def wanted (t : FileTree) (input output : Path) : Except Failure (Option (List Char)) :=
  match Document.read t input with
  | .error e => .error e
  | .ok n =>
    match Schema.cleanNoting n with
    | .error e => .error (.ofObstacle e)
    | .ok none => .ok none
    | .ok (some m) => (Document.render (.ofPath output) m).map some

theorem wanted_congr (h : t'.read input = t.read input) :
    wanted t' input output = wanted t input output := by
  rw [wanted, wanted, Document.read, Document.read, h]

theorem wanted_eq_none_iff : wanted t input output = .ok none ↔
    ∃ n, Document.read t input = .ok n ∧ Schema.cleanNoting n = .ok none := by
  unfold wanted
  rcases Document.read t input with e | n
  · simp
  · rcases hc : Schema.cleanNoting n with e | - | m
    · simp [hc]
    · simp [hc]
    · simp [hc, map_eq_ok_iff]

theorem wanted_eq_some_iff : wanted t input output = .ok (some text) ↔
    ∃ n m, Document.read t input = .ok n ∧ Schema.cleanNoting n = .ok (some m) ∧
      Document.render (.ofPath output) m = .ok text := by
  unfold wanted
  rcases Document.read t input with e | n
  · simp
  · rcases hc : Schema.cleanNoting n with e | - | m
    · simp [hc]
    · simp [hc]
    · simp [hc, map_eq_ok_iff]

theorem cleanFile_of_wanted_error (h : wanted t input output = .error e) :
    (cleanFile t input (some output)).tree = t ∧
      (cleanFile t input (some output)).result = .error e := by
  unfold wanted at h
  rcases hr : Document.read t input with e' | n <;> rw [hr] at h
  · rw [cleanFile, hr]
    exact ⟨rfl, congrArg _ (Except.error.inj h)⟩
  rcases hc : Schema.cleanNoting n with e' | - | m <;> simp only [hc] at h
  · rw [cleanFile_of_clean_error hr hc, Except.error.inj h]
    simp only [cleanFile, hr, hc, and_self]
  · cases h
  · have hw := Document.write_of_render_error (t := t) (map_eq_error_iff.1 h)
    rw [cleanFile_of_clean hr hc, hw]
    exact ⟨by simp only [cleanFile, hr, hc, hw], rfl⟩

theorem cleanFile_of_wanted_none (h : wanted t input output = .ok none) :
    (cleanFile t input (some output)).tree = t ∧
      (cleanFile t input (some output)).result = .ok ⟨input, some output, .pruned⟩ := by
  obtain ⟨n, hr, hc⟩ := wanted_eq_none_iff.1 h
  exact cleanFile_of_nothing_left hr hc output

theorem cleanFile_of_wanted_text (h : wanted t input output = .ok (some text)) :
    (cleanFile t input (some output)).tree = (Document.store t output text).1 ∧
      (cleanFile t input (some output)).result =
        (Document.store t output text).2.map fun () => ⟨input, some output, .cleaned none⟩ := by
  obtain ⟨n, m, hr, hc, ht⟩ := wanted_eq_some_iff.1 h
  have hw := Document.write_of_render (t := t) ht
  rw [cleanFile_of_clean hr hc, hw]
  refine ⟨?_, rfl⟩
  simp only [cleanFile, hr, hc, hw]

/-! ### What comes of it -/

/-- What is recorded of a document when all that can be done about it is done. -/
def recordedAs (s : Settings) (way : Path) (result : Except Failure Fate) :
    Except Failure Outcome :=
  (settle s.policy (s.rawDir.join way) (s.cleanedDir.join way) (result.map fun fate =>
    ⟨s.rawDir.join way, some (s.cleanedDir.join way), fate⟩)).2

theorem cleanOne_of_wanted_error
    (h : wanted t (s.rawDir.join way) (s.cleanedDir.join way) = .error e) :
    (cleanOne s t way).tree = t ∧
      (cleanOne s t way).result = recordedAs s way (.error e) := by
  obtain ⟨ht, hr⟩ := cleanFile_of_wanted_error h
  cases e with
  | cleaning f =>
    rcases hp : s.policy <;>
      simp only [cleanOne, recordedAs, hr, ht, settle, hp, Except.map, afterwards, and_self]
  | settings | batch | stray =>
    simp only [cleanOne, recordedAs, hr, ht, settle, Except.map, and_self]

theorem cleanOne_of_wanted_none
    (h : wanted t (s.rawDir.join way) (s.cleanedDir.join way) = .ok none) :
    (cleanOne s t way).tree = (removeStale t (s.cleanedDir.join way)).tree ∧
      (cleanOne s t way).result = (removeStale t (s.cleanedDir.join way)).result.map fun () =>
        ⟨s.rawDir.join way, some (s.cleanedDir.join way), .pruned⟩ := by
  obtain ⟨ht, hr⟩ := cleanFile_of_wanted_none h
  simp only [cleanOne, hr, ht, settle, afterwards, and_self]

theorem cleanOne_of_wanted_text
    (h : wanted t (s.rawDir.join way) (s.cleanedDir.join way) = .ok (some text)) :
    (cleanOne s t way).tree = (Document.store t (s.cleanedDir.join way) text).1 ∧
      (cleanOne s t way).result = recordedAs s way
        ((Document.store t (s.cleanedDir.join way) text).2.map fun () => .cleaned none) := by
  obtain ⟨ht, hr⟩ := cleanFile_of_wanted_text h
  rcases hk : (Document.store t (s.cleanedDir.join way) text).2 with (f | f | f | f) | ⟨⟩ <;>
    rw [hk] at hr <;> simp only [Except.map] at hr
  · rcases hp : s.policy <;>
      simp only [cleanOne, recordedAs, hr, ht, settle, hp, Except.map, afterwards, and_self]
  all_goals simp only [cleanOne, recordedAs, hr, ht, settle, Except.map, afterwards, and_self]

/-! ### The end of a turn -/

/-- How a document's turn can end so that the batch goes on: the tree that it leaves and what is
recorded. -/
inductive Turned (s : Settings) (t : FileTree) (way : Path) : FileTree → Fate → Prop
  /-- The document cannot be read or cleaned, or has no text when it is cleaned. -/
  | unread {f : CleaningFault} : s.policy = .skip →
      wanted t (s.rawDir.join way) (s.cleanedDir.join way) = .error (.cleaning f) →
      Turned s t way t (.failed f)
  | unwritten {text : List Char} {f : CleaningFault} : s.policy = .skip →
      wanted t (s.rawDir.join way) (s.cleanedDir.join way) = .ok (some text) →
      (Document.store t (s.cleanedDir.join way) text).2 = .error (.cleaning f) →
      Turned s t way (Document.store t (s.cleanedDir.join way) text).1 (.failed f)
  | pruned : wanted t (s.rawDir.join way) (s.cleanedDir.join way) = .ok none →
      (removeStale t (s.cleanedDir.join way)).result = .ok () →
      Turned s t way (removeStale t (s.cleanedDir.join way)).tree .pruned
  | cleaned {text : List Char} :
      wanted t (s.rawDir.join way) (s.cleanedDir.join way) = .ok (some text) →
      (Document.store t (s.cleanedDir.join way) text).2 = .ok () →
      Turned s t way (Document.store t (s.cleanedDir.join way) text).1 (.cleaned none)

theorem Turned.cleanOne_eq (h : Turned s t way t' fate) :
    (cleanOne s t way).result = .ok ⟨s.rawDir.join way, some (s.cleanedDir.join way), fate⟩ ∧
      (cleanOne s t way).tree = t' := by
  cases h with
  | unread hs hw =>
    obtain ⟨ht, hr⟩ := cleanOne_of_wanted_error hw
    simp only [hr, ht, recordedAs, settle, hs, Except.map, and_self]
  | unwritten hs hw hf =>
    obtain ⟨ht, hr⟩ := cleanOne_of_wanted_text hw
    simp only [hr, ht, hf, recordedAs, settle, hs, Except.map, and_self]
  | pruned hw hr' =>
    obtain ⟨ht, hr⟩ := cleanOne_of_wanted_none hw
    simp only [hr, ht, hr', Except.map, and_self]
  | cleaned hw hk =>
    obtain ⟨ht, hr⟩ := cleanOne_of_wanted_text hw
    simp only [hr, ht, hk, recordedAs, settle, Except.map, and_self]

/-- A fault that the batch goes on after is one of the document, and the batch skips it. -/
theorem eq_cleaning_of_cleanOne (hr : (cleanFile t (s.rawDir.join way)
    (some (s.cleanedDir.join way))).result = .error e)
    (h : (cleanOne s t way).result = .ok outcome) : s.policy = .skip ∧ ∃ f, e = .cleaning f := by
  cases e with
  | cleaning f =>
    rcases hs : s.policy with - | -
    · simp only [cleanOne, hr, settle, hs] at h
      cases h
    · exact ⟨rfl, f, rfl⟩
  | settings | batch | stray =>
    simp only [cleanOne, hr, settle] at h
    cases h

/-- Nothing else can happen in a turn after which the batch goes on. -/
theorem turned_of_cleanOne (h : (cleanOne s t way).result = .ok outcome) :
    ∃ fate, outcome = ⟨s.rawDir.join way, some (s.cleanedDir.join way), fate⟩ ∧
      Turned s t way (cleanOne s t way).tree fate := by
  -- What is recorded and what is left is then what `cleanOne_eq` says.
  suffices ∃ t' fate, Turned s t way t' fate by
    obtain ⟨t', fate, turned⟩ := this
    obtain ⟨hr, rfl⟩ := turned.cleanOne_eq
    exact ⟨fate, Except.ok.inj (h.symm.trans hr), turned⟩
  rcases hw : wanted t (s.rawDir.join way) (s.cleanedDir.join way) with e | - | text
  · obtain ⟨hs, f, rfl⟩ := eq_cleaning_of_cleanOne (cleanFile_of_wanted_error hw).2 h
    exact ⟨_, _, .unread hs hw⟩
  · rw [cleanOne_of_outcome (cleanFile_of_wanted_none hw).2] at h
    obtain ⟨⟨⟩, hr, -⟩ := map_eq_ok_iff.1 h
    rw [(cleanFile_of_wanted_none hw).1] at hr
    exact ⟨_, _, .pruned hw hr⟩
  · have hr := (cleanFile_of_wanted_text hw).2
    rcases hf : (Document.store t (s.cleanedDir.join way) text).2 with e | ⟨⟩ <;> rw [hf] at hr
    · obtain ⟨hs, f, rfl⟩ := eq_cleaning_of_cleanOne hr h
      exact ⟨_, _, .unwritten hs hw hf⟩
    · exact ⟨_, _, .cleaned hw hf⟩

end Batch

end PlainSchema
