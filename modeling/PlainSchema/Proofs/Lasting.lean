/-
PlainSchema/Proofs/Lasting.lean

What the turns of a batch have come to lasts, if the documents and the outputs are in
directories that have nothing in common.

Every turn changes one place, the output of its document, and makes directories on
the way to it (`Layout.turn`).  What it has come to can be seen in the tree
(`Rests`): a text that is written is there, a file that is removed is not, and what
kept a document from being written is in the way.  The later turns leave all of it
alone (`Layout.rests_keeps`), since no output is on the way to another one.  So it can
be seen in the tree at the end of the batch (`Layout.run`), and a turn that is taken
again there changes nothing (`Layout.turned_of_rests`).
-/
import PlainSchema.Proofs.Layout

namespace PlainSchema

namespace Batch

open FileTree (Keeps IsWay isTooLong)

variable {s : Settings} {t t' : FileTree} {way : Path} {ways : List Path} {outcome : Outcome}
  {outcomes : List Outcome} {fate : Fate} {source here place : Place} {front pre : List String}
  {touched : Place → Prop}

/-! ### What lasts -/

/-- What a document's turn has come to, as far as it can be seen in a tree: `out` is the place of
the output, and `pre` is what has to be made on the way to the directory of the outputs. -/
inductive Rests [SetOrder] (s : Settings) (t : FileTree) (pre : List String) (out : Place)
    (way : Path) : Fate → Prop
  | unread {f : CleaningFault} : s.policy = .skip →
      wanted t (s.rawDir.join way) (s.cleanedDir.join way) = .error (.cleaning f) →
      Rests s t pre out way (.failed f)
  /-- The directories on the way to the output cannot be made. -/
  | blocked {text : List Char} {why : FileFault} {f : CleaningFault} : s.policy = .skip →
      wanted t (s.rawDir.join way) (s.cleanedDir.join way) = .ok (some text) →
      Document.unwritable (s.cleanedDir.join way) why = .cleaning f →
      ((∀ part ∈ pre, isTooLong part = false) →
        t.ensureDirectory (s.cleanedDir.join way).parent = .error why ∧
        t.place (s.cleanedDir.join way).parent
          ≠ .error (.refused .missing (s.cleanedDir.join way).parent)) →
      Rests s t pre out way (.failed f)
  /-- The directories are there, and the output cannot be written. -/
  | refused {text : List Char} {why : FileFault} {f : CleaningFault} : s.policy = .skip →
      wanted t (s.rawDir.join way) (s.cleanedDir.join way) = .ok (some text) →
      Document.unwritable (s.cleanedDir.join way) why = .cleaning f →
      t.leadsToDirectory (s.cleanedDir.join way).parent = true →
      t.write (s.cleanedDir.join way) (Text.encodeUtf8 text) = .error why →
      Rests s t pre out way (.failed f)
  | pruned : wanted t (s.rawDir.join way) (s.cleanedDir.join way) = .ok none →
      t.isFileAt out = false → (s.cleanedDir.join way).IsFollowed → Rests s t pre out way .pruned
  | cleaned {text : List Char} :
      wanted t (s.rawDir.join way) (s.cleanedDir.join way) = .ok (some text) →
      t.leadsToDirectory (s.cleanedDir.join way).parent = true →
      t.place (s.cleanedDir.join way) = .ok out →
      t.at? out = some (.file (Text.encodeUtf8 text)) → Rests s t pre out way (.cleaned none)

/-- A document of which something is wanted is read. -/
theorem read_of_wanted [SetOrder] {input output : Path} {text? : Option (List Char)}
    (h : wanted t input output = .ok text?) : ∃ octets, t.read input = .ok octets := by
  have hr : ∃ n, Document.read t input = .ok n := by
    cases text? with
    | none => exact (wanted_eq_none_iff.1 h).imp fun n hn => hn.1
    | some text => exact (wanted_eq_some_iff.1 h).imp fun n ⟨m, hn, _⟩ => hn
  obtain ⟨n, hn⟩ := hr
  obtain ⟨text, ⟨octets, ho, -⟩, -⟩ := Document.read_eq_ok_iff.1 hn
  exact ⟨octets, ho⟩

/-- Whether a place is the output of a document that did not fail. -/
def IsOutput (current : Place) (outcomes : List Outcome) (place : Place) : Prop :=
  ∃ o ∈ outcomes, o.isFailed = false ∧ ∃ p, o.output = some p ∧ place = p.resolve current

theorem IsOutput.mono {current : Place} {more : List Outcome} (h : outcomes ⊆ more)
    (ho : IsOutput current outcomes place) : IsOutput current more place := by
  obtain ⟨o, hm, hf, hp⟩ := ho
  exact ⟨o, h hm, hf, hp⟩

namespace Layout

/-- A text is stored, or it is not for a reason that lasts. -/
theorem store_cases (h : Layout s t source front pre here) (hw : t.IsWay source way)
    (text : List Char) {octets : List UInt8} (hr : t.read (s.rawDir.join way) = .ok octets) :
    (∃ t' why, Document.store t (s.cleanedDir.join way) text
        = (t', .error (Document.unwritable (s.cleanedDir.join way) why)) ∧
      Keeps (here ++ pre) (fun _ => False) t t' ∧
      ((t'.leadsToDirectory (s.cleanedDir.join way).parent = true ∧
          t'.write (s.cleanedDir.join way) (Text.encodeUtf8 text) = .error why) ∨
        ((∀ part ∈ pre, isTooLong part = false) →
          t'.ensureDirectory (s.cleanedDir.join way).parent = .error why ∧
          t'.place (s.cleanedDir.join way).parent
            ≠ .error (.refused .missing (s.cleanedDir.join way).parent)))) ∨
    ∃ t', Document.store t (s.cleanedDir.join way) text = (t', .ok ()) ∧
      Keeps (here ++ pre) (· = here ++ pre ++ way.parts) t t' ∧
      t'.leadsToDirectory (s.cleanedDir.join way).parent = true ∧
      t'.place (s.cleanedDir.join way) = .ok (here ++ pre ++ way.parts) ∧
      t'.at? (here ++ pre ++ way.parts) = some (.file (Text.encodeUtf8 text)) := by
  rcases hd : t.makeDirectories (s.cleanedDir.join way).parent with ⟨t₁, why | ⟨⟩⟩
  · have kept := (h.makeDirectories_keeps hw).1
    rw [hd] at kept
    refine .inl ⟨t₁, why, Document.store_of_makeDirectories hd, kept, .inr fun short => ?_⟩
    -- Without names that are too long, nothing was made.
    have short' : ∀ part ∈ pre ++ way.parts.dropLast, isTooLong part = false := by
      intro part hm
      rcases List.mem_append.1 hm with hm | hm
      · exact short part hm
      · exact h.short_of_read hw hr part (List.dropLast_subset _ hm)
    rw [h.output_parent hw] at hd ⊢
    obtain ⟨he, hm⟩ := h.outputs.ensureParts_of_error (h.plain_parent hw) short'
      (congrArg Prod.snd hd)
    have same := hd.symm.trans (FileTree.ensureParts_of_ensureDirectory_error he hm)
    obtain rfl : t₁ = t := congrArg Prod.fst same
    exact ⟨he, hm⟩
  · obtain ⟨kept, leads⟩ := h.makeDirectories_keeps hw
    rw [hd] at kept leads
    rcases hf : t₁.write (s.cleanedDir.join way) (Text.encodeUtf8 text) with why | t₂
    · exact .inl ⟨t₁, why, Document.store_of_write_error hd hf, kept, .inl ⟨leads rfl, hf⟩⟩
    · obtain ⟨kept', rest⟩ := (h.keeps kept).write_keeps (h.isWay kept hw) (leads rfl) hf
      exact .inr ⟨t₂, Document.store_of_write hd hf, (kept.mono nofun).trans kept', rest⟩

/-- The place of the output is the output of the turn, if the document does not fail. -/
theorem isOutput (h : Layout s t source front pre here) (hw : t.IsWay source way)
    (hf : Outcome.isFailed ⟨s.rawDir.join way, some (s.cleanedDir.join way), fate⟩ = false) :
    ∀ q, q = here ++ pre ++ way.parts →
      IsOutput t.current [⟨s.rawDir.join way, some (s.cleanedDir.join way), fate⟩] q :=
  fun _ hq => ⟨_, List.mem_singleton_self _, hf, _, rfl, hq.trans (h.output_resolve hw).symm⟩

/-- **What a turn changes** is the output of its document, if that does not fail, and what it has
come to can be seen in the tree that it leaves. -/
theorem turn [SetOrder] (h : Layout s t source front pre here) (hw : t.IsWay source way)
    (ht : Turned s t way t' fate) :
    Keeps (here ++ pre)
        (IsOutput t.current [⟨s.rawDir.join way, some (s.cleanedDir.join way), fate⟩]) t t' ∧
      Rests s t' pre (here ++ pre ++ way.parts) way fate := by
  cases ht with
  | unread hs hn => exact ⟨.refl h.outputs.sound, .unread hs hn⟩
  | @unwritten text f hs hn hf =>
    obtain ⟨octets, hr⟩ := read_of_wanted hn
    rcases h.store_cases hw text hr with ⟨t₁, why, hst, kept, lasts⟩ | ⟨t₁, hst, -⟩ <;>
      rw [hst] at hf ⊢
    · have hn' := (h.wanted_eq kept hw).trans hn
      refine ⟨kept.mono nofun, ?_⟩
      rcases lasts with ⟨leads, hf'⟩ | lasts
      · exact .refused hs hn' (Except.error.inj hf) leads hf'
      · exact .blocked hs hn' (Except.error.inj hf) lasts
    · cases hf
  | pruned hn hk =>
    obtain ⟨octets, hr⟩ := read_of_wanted hn
    obtain ⟨kept, gone, followed⟩ := h.removeStale_keeps hw (h.output_hasNul hw hr) hk
    exact ⟨kept.mono (h.isOutput hw rfl), .pruned ((h.wanted_eq kept hw).trans hn) gone followed⟩
  | @cleaned text hn hk =>
    obtain ⟨octets, hr⟩ := read_of_wanted hn
    rcases h.store_cases hw text hr with
      ⟨t₁, why, hst, -⟩ | ⟨t₁, hst, kept, leads, hp, file⟩ <;> rw [hst] at hk ⊢
    · cases hk
    · exact ⟨kept.mono (h.isOutput hw rfl), .cleaned ((h.wanted_eq kept hw).trans hn) leads hp file⟩

/-- What a turn has come to lasts, as long as nothing is touched at its output or on the way to
it. -/
theorem rests_keeps [SetOrder] (h : Layout s t source front pre here) (hw : t.IsWay source way)
    (hk : Keeps (here ++ pre) touched t t')
    (out : ∀ q, q <+: here ++ pre ++ way.parts → ¬ touched q)
    (hr : Rests s t pre (here ++ pre ++ way.parts) way fate) :
    Rests s t' pre (here ++ pre ++ way.parts) way fate := by
  have last := out _ (List.prefix_refl _)
  cases hr with
  | unread hs hn => exact .unread hs ((h.wanted_eq hk hw).trans hn)
  | blocked hs hn hf lasts =>
    refine .blocked hs ((h.wanted_eq hk hw).trans hn) hf fun short => ?_
    obtain ⟨he, hm⟩ := lasts short
    rw [h.output_parent hw] at he hm ⊢
    refine h.outputs.ensureParts_stays hk (h.plain_parent hw) (fun xs hx => out _ ?_) he hm
    rw [List.append_assoc, List.prefix_append_right_inj]
    exact hx.trans ((List.prefix_append_right_inj _).2 (List.dropLast_prefix _))
  | refused hs hn hf leads hf' =>
    refine .refused hs ((h.wanted_eq hk hw).trans hn) hf (hk.leadsToDirectory leads) ?_
    exact hk.write_eq_error (h.output_parts_ne_nil hw) leads hf'
  | pruned hn gone followed =>
    refine .pruned ((h.wanted_eq hk hw).trans hn) (Bool.eq_false_iff.2 fun file => ?_) followed
    obtain ⟨octets, ho⟩ := FileTree.isFileAt_iff.1 file
    rw [FileTree.isFileAt_iff.2 ⟨octets, (hk.files _ octets last).1 ho⟩] at gone
    cases gone
  | cleaned hn leads hp file =>
    exact .cleaned ((h.wanted_eq hk hw).trans hn) (hk.leadsToDirectory leads) (hk.place_eq_ok hp)
      ((hk.files _ _ last).2 file)

/-- Without names that are too long, a document's turn comes to the same again. -/
theorem turned_of_rests [SetOrder] (h : Layout s t source front pre here) (hw : t.IsWay source way)
    (short : ∀ part ∈ pre, isTooLong part = false)
    (hr : Rests s t pre (here ++ pre ++ way.parts) way fate) : Turned s t way t fate := by
  cases hr with
  | unread hs hn => exact .unread hs hn
  | @blocked text why f hs hn hf lasts =>
    obtain ⟨he, hm⟩ := lasts short
    have hst : Document.store t (s.cleanedDir.join way) text = (t, .error (.cleaning f)) := by
      rw [← hf]
      exact Document.store_of_makeDirectories (FileTree.ensureParts_of_ensureDirectory_error he hm)
    have turned := Turned.unwritten (t := t) hs hn (congrArg Prod.snd hst)
    rwa [hst] at turned
  | @refused text why f hs hn hf leads hf' =>
    have hst : Document.store t (s.cleanedDir.join way) text = (t, .error (.cleaning f)) := by
      rw [← hf]
      exact Document.store_of_write_error (FileTree.ensureParts_of_leadsToDirectory leads) hf'
    have turned := Turned.unwritten (t := t) hs hn (congrArg Prod.snd hst)
    rwa [hst] at turned
  | pruned hn gone followed =>
    obtain ⟨octets, hr⟩ := read_of_wanted hn
    have short' : ∀ part ∈ pre ++ way.parts, isTooLong part = false := by
      intro part hm
      rcases List.mem_append.1 hm with hm | hm
      · exact short part hm
      · exact h.short_of_read hw hr part hm
    have result : (removeStale t (s.cleanedDir.join way)).result = .ok () := by
      rcases removeStale_result t (s.cleanedDir.join way) with ⟨hp, -⟩ | ⟨-, hk⟩
      · rw [FileTree.place_of_isFollowed followed, h.output_eq hw] at hp
        have hp : (t.follow (t.start ⟨s.cleanedDir.anchor, front ++ (pre ++ way.parts)⟩)
          (front ++ (pre ++ way.parts))).mapError _ = _ := hp
        rw [h.outputs.follow_append] at hp
        rcases hf : t.follow here (pre ++ way.parts) with why | place <;> rw [hf] at hp
        · obtain rfl := (FileFault.refused.inj (Except.error.inj hp)).1
          exact absurd hf (FileTree.follow_ne_nameTooLong short')
        · cases hp
      · exact hk
    have turned := Turned.pruned hn result
    rwa [removeStale_of_no_file] at turned
    intro octets ho
    rw [FileTree.isFileAt_iff.2 ⟨octets, h.at?_of_find? hw ho⟩] at gone
    cases gone
  | @cleaned text hn leads hp file =>
    have hst : Document.store t (s.cleanedDir.join way) text = (t, .ok ()) := by
      refine Document.store_of_write (FileTree.ensureParts_of_leadsToDirectory leads) ?_
      simp only [FileTree.write, hp, file]
      rw [FileTree.put_of_at? (by simp [h.parts_ne_nil hw]) file]
    have turned := Turned.cleaned (t := t) hn (congrArg Prod.snd hst)
    rwa [hst] at turned

end Layout

/-! ### The run -/

/-- What a batch records of a document, and what its turn has come to in a tree. -/
def Recorded (s : Settings) (P : Path → Fate → Prop) (way : Path) (outcome : Outcome) : Prop :=
  ∃ fate, outcome = ⟨s.rawDir.join way, some (s.cleanedDir.join way), fate⟩ ∧ P way fate

theorem Recorded.imp {P Q : Path → Fate → Prop} (h : Recorded s P way outcome)
    (hi : ∀ fate, P way fate → Q way fate) : Recorded s Q way outcome := by
  obtain ⟨fate, ho, hp⟩ := h
  exact ⟨fate, ho, hi fate hp⟩

/-- The output of a recorded document is that of a document of the batch. -/
theorem exists_way_of_isOutput {P : Path → Fate → Prop} {current : Place}
    (h : List.Forall₂ (Recorded s P) ways outcomes) (ho : IsOutput current outcomes place) :
    ∃ way ∈ ways, place = (s.cleanedDir.join way).resolve current := by
  obtain ⟨o, hm, -, p, hp, rfl⟩ := ho
  induction h with
  | nil => cases hm
  | cons hr _ ih =>
    rcases List.mem_cons.1 hm with rfl | hm
    · obtain ⟨fate, rfl, -⟩ := hr
      obtain rfl := Option.some.inj hp
      exact ⟨_, List.mem_cons_self, rfl⟩
    · obtain ⟨way, hm, hw⟩ := ih hm
      exact ⟨way, List.mem_cons_of_mem _ hm, hw⟩

/-- No output is on the way to another one, since the documents are files. -/
theorem Layout.not_prefix (h : Layout s t source front pre here) {way' : Path}
    (hw : t.IsWay source way) (hw' : t.IsWay source way') (hne : way ≠ way') :
    ¬ here ++ pre ++ way'.parts <+: here ++ pre ++ way.parts := by
  intro hp
  rw [List.prefix_append_right_inj] at hp
  obtain ⟨octets, hf⟩ := FileTree.isFileAt_iff.1 hw.file
  obtain ⟨octets', hf'⟩ := FileTree.isFileAt_iff.1 hw'.file
  refine FileTree.directory_ne_file (h.inputs.sound.directory_of_prefix (by rw [hf]; rfl)
    ((List.prefix_append_right_inj source).2 hp) fun he => hne ?_) hf'
  rcases way with ⟨anchor, parts⟩
  rcases way' with ⟨anchor', parts'⟩
  obtain rfl : anchor = .here := hw.anchor
  obtain rfl : anchor' = .here := hw'.anchor
  rw [(List.append_cancel_left he : parts' = parts)]

/-- No output of other documents is the one of a document, or on the way to it. -/
theorem Layout.not_isOutput (h : Layout s t source front pre here) {P : Path → Fate → Prop}
    (hw : t.IsWay source way) (others : ∀ way' ∈ ways, t.IsWay source way') (fresh : way ∉ ways)
    (hr : List.Forall₂ (Recorded s P) ways outcomes) :
    ∀ q, q <+: here ++ pre ++ way.parts → ¬ IsOutput t.current outcomes q := by
  intro q hq ho
  obtain ⟨way', hm, rfl⟩ := exists_way_of_isOutput hr ho
  rw [h.output_resolve (others way' hm)] at hq
  exact h.not_prefix hw (others way' hm) (fun he => fresh (he ▸ hm)) hq

/-- The output of one document that did not fail. -/
theorem Layout.eq_of_isOutput (h : Layout s t source front pre here) (hw : t.IsWay source way)
    (ho : IsOutput t.current [⟨s.rawDir.join way, some (s.cleanedDir.join way), fate⟩] place) :
    place = here ++ pre ++ way.parts ∧ ∀ f, fate ≠ .failed f := by
  obtain ⟨o, hm, hf, p, hp, rfl⟩ := ho
  obtain rfl := List.mem_singleton.1 hm
  obtain rfl := Option.some.inj hp
  refine ⟨h.output_resolve hw, ?_⟩
  rintro f rfl
  cases hf

/-- What a document has come to, from the tree before a batch to the tree after it. -/
structure Ends [SetOrder] (s : Settings) (t t' : FileTree) (pre : List String) (out : Place)
    (way : Path) (fate : Fate) : Prop where
  rests : Rests s t' pre out way fate
  unchanged : ∀ f, fate = .failed f → ∀ octets,
    t'.at? out = some (.file octets) ↔ t.at? out = some (.file octets)

/-- **A batch that comes to its end** has changed the outputs of the documents that did not fail and
nothing else, and what every document has come to can be seen in the tree that it leaves. -/
theorem Layout.run [SetOrder] (h : Layout s t source front pre here)
    (hw : ∀ way ∈ ways, t.IsWay source way) (distinct : ways.Nodup)
    (hr : (cleanEach s t ways).result = .ok outcomes) :
    Keeps (here ++ pre) (IsOutput t.current outcomes) t (cleanEach s t ways).tree ∧
      List.Forall₂ (Recorded s fun way fate =>
          Ends s t (cleanEach s t ways).tree pre (here ++ pre ++ way.parts) way fate)
        ways outcomes := by
  -- Each document changes the tree for those after it, so the tree is generalized.
  induction ways generalizing t outcomes with
  | nil =>
    obtain rfl : [] = outcomes := Except.ok.inj hr
    exact ⟨.refl h.outputs.sound, .nil⟩
  | cons way ways ih =>
    rcases ho : (cleanOne s t way).result with e | outcome
    · rw [cleanEach_of_error ho] at hr
      cases hr
    rw [cleanEach_of_ok ho] at hr ⊢
    obtain ⟨rest, hrest, rfl⟩ := map_eq_ok_iff.1 hr
    obtain ⟨first, others⟩ := List.forall_mem_cons.1 hw
    obtain ⟨fresh, distinct⟩ := List.nodup_cons.1 distinct
    obtain ⟨fate, rfl, turned⟩ := turned_of_cleanOne ho
    obtain ⟨kept, rests⟩ := h.turn first turned
    obtain ⟨kept', all⟩ := ih (h.keeps kept) (fun way hm => h.isWay kept (others way hm)) distinct
      hrest
    rw [kept.current] at kept'
    have later := h.not_isOutput first others fresh all
    refine ⟨(kept.mono ?_).trans (kept'.mono ?_), .cons ⟨fate, rfl, ?_, ?_⟩ ?_⟩
    · exact fun _ => IsOutput.mono (List.cons_subset_cons _ (List.nil_subset rest))
    · exact fun _ => IsOutput.mono (List.subset_cons_self _ rest)
    · exact (h.keeps kept).rests_keeps (h.isWay kept first) kept' later rests
    · intro f hf octets
      refine (kept'.files _ octets (later _ (List.prefix_refl _))).trans (kept.files _ octets ?_)
      exact fun ht => (h.eq_of_isOutput first ht).2 f hf
    · have all' := (List.forall₂_and_left _ _).2 ⟨fun way' (hm : way' ∈ ways) => hm, all⟩
      refine all'.imp fun way' outcome hr => hr.2.imp fun fate' ends => ⟨ends.rests, ?_⟩
      intro f hf octets
      refine (ends.unchanged f hf octets).trans (kept.files _ octets fun ht => ?_)
      -- Its output is not the one of this turn.
      exact h.not_prefix first (others way' hr.1) (fun he => fresh (he ▸ hr.1))
        ((h.eq_of_isOutput first ht).1 ▸ List.prefix_refl _)

/-- A batch whose documents each come to the same again leaves the tree as it is. -/
theorem cleanEach_of_turned [SetOrder]
    (h : List.Forall₂ (Recorded s fun way fate => Turned s t way t fate) ways outcomes) :
    (cleanEach s t ways).result = .ok outcomes ∧ (cleanEach s t ways).tree = t := by
  induction h with
  | nil => exact ⟨rfl, rfl⟩
  | cons hr _ ih =>
    obtain ⟨fate, rfl, turned⟩ := hr
    obtain ⟨ho, ht⟩ := turned.cleanOne_eq
    rw [cleanEach_of_ok ho, ht, ih.1, ih.2]
    exact ⟨rfl, rfl⟩

end Batch

end PlainSchema
