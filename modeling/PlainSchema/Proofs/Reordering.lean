/-
PlainSchema/Proofs/Reordering.lean

The order of the documents in a batch.

If no output is another document, or at or above another output, the documents of a
batch know nothing of each other: each comes to what it comes to alone, in the tree
before the batch, and what is at a place in the end is what the document that changes
it makes of it there (`Combines`).  Neither depends on the order.

One document's turn after some others is `combines_cleanOne`; a run through documents
follows by induction on those that are left.

Nothing keeps two directories apart when a batch starts, and where one output is
another document the order matters (`cleanEach_overlapping`).
-/
import PlainSchema.Proofs.Effects

namespace PlainSchema

namespace Batch

open FileTree (Grown Free IsTree LeadsToFile Stands isTooLong)

variable {s : Settings} {t t' : FileTree} {way : Path} {ways ways' done todo : List Path}
  {outcome : Outcome} {outcomes : List Outcome} {root : Place} {outs : Place → Prop}
  {alone : Path → Outcome}

/-! ### Documents that do not meet -/

/-- The place of a document. -/
def sourceOf (s : Settings) (t : FileTree) (way : Path) : Place :=
  (s.rawDir.join way).resolve t.current

/-- The place of its output. -/
def targetOf (s : Settings) (t : FileTree) (way : Path) : Place :=
  (s.cleanedDir.join way).resolve t.current

/-- Whether the documents of a batch do not meet, and the directories for their outputs can be made
where they are missing. -/
structure Independent (s : Settings) (t : FileTree) (ways : List Path) : Prop where
  /-- No output is at or above another one. -/
  outputs : ∀ way ∈ ways, ∀ way' ∈ ways, way ≠ way' → ¬ targetOf s t way <+: targetOf s t way'
  /-- No output is another document. -/
  inputs : ∀ way ∈ ways, ∀ way' ∈ ways, way ≠ way' → targetOf s t way ≠ sourceOf s t way'
  steady : ∀ way ∈ ways, IsSteady t (s.cleanedDir.join way).parent
  short : t.place s.cleanedDir = .error (.refused .missing s.cleanedDir) →
    ∀ part ∈ s.cleanedDir.parts, isTooLong part = false

/-- The place of a document that is found. -/
theorem sourceOf_eq (hs : t.Sound) (hp : t.place s.rawDir = .ok root) (h : t.LeadsToFile root way) :
    sourceOf s t way = Path.walk root way.parts := by
  have start : Path.walk (t.start s.rawDir) s.rawDir.parts = root :=
    (FileTree.eq_walk_of_follow (FileTree.place_eq_ok_iff.1 hp).2).symm
  rw [sourceOf, hs.resolve_eq_walk, Path.join, if_pos h.anchor]
  show Path.walk (t.start s.rawDir) (s.rawDir.parts ++ way.parts) = _
  rw [Path.walk_append, start]

/-- A document that is found can be read as before, if it is no output of another one. -/
theorem read_same (hs : t.Sound) (hp : t.place s.rawDir = .ok root) (h : t.LeadsToFile root way)
    (hg : Grown outs t t') (free : ¬ outs (sourceOf s t way)) :
    t'.read (s.rawDir.join way) = t.read (s.rawDir.join way) := by
  rw [sourceOf_eq hs hp h] at free
  obtain ⟨octets, file⟩ := FileTree.isFileAt_iff.1 h.file
  have same : t'.at? (Path.walk root way.parts) = t.at? (Path.walk root way.parts) := by
    rcases hg.at?_of_not free with same | ⟨none, -⟩
    · exact same
    · cases file.symm.trans none
  rw [FileTree.read, FileTree.read, h.place_eq hg.keeps hp]
  rcases hq : t.place (s.rawDir.join way) with e | place
  · rfl
  · have : place = Path.walk root way.parts := by
      rw [← sourceOf_eq hs hp h]
      exact hs.resolve_of_place hq
    rw [this]
    dsimp only
    rw [same]

/-- Where a directory is missing on a way through another one, no name in the path of that one is
too long. -/
theorem short_of_missing {p : Path} {init : List String} {part : String}
    (short : t.place p = .error (.refused .missing p) → ∀ name ∈ p.parts, isTooLong name = false)
    (followed : (Path.mk p.anchor (p.parts ++ init)).IsFollowed)
    (missing : t.follow (t.start p) (p.parts ++ init ++ [part]) = .error .missing) :
    ∀ name ∈ p.parts, name = ".." ∨ isTooLong name = false := by
  intro name hm
  rcases hp : t.place p with e | place
  · by_cases he : e = .refused .missing p
    · rw [he] at hp
      exact .inr (short hp name hm)
    · -- Whatever else is in the way is in the way further on, too.
      exfalso
      obtain ⟨e', he', other⟩ := FileTree.place_append_error hp he init
      rw [FileTree.place_of_isFollowed followed] at he'
      rw [FileTree.follow_append] at missing
      rcases hf : t.follow (t.start p) (p.parts ++ init) with why | place <;> rw [hf] at missing
      · obtain rfl : why = .missing := Except.error.inj missing
        have refused := (congrArg (Except.mapError _) hf).symm.trans he'
        exact other _ (Except.error.inj refused).symm
      · cases (congrArg (Except.mapError _) hf).symm.trans he'
  · exact FileTree.short_of_follow (FileTree.place_eq_ok_iff.1 hp).2 name hm

/-- The output of a document that can be read is somewhere. -/
theorem hasTarget (hs : t.Sound) (h : t.LeadsToFile root way)
    (steady : IsSteady t (s.cleanedDir.join way).parent)
    (short : t.place s.cleanedDir = .error (.refused .missing s.cleanedDir) →
      ∀ part ∈ s.cleanedDir.parts, isTooLong part = false) : HasTarget s t way := by
  intro octets ho
  obtain ⟨init, part, hw, dots⟩ := h.name
  have joined : s.cleanedDir.join way = ⟨s.cleanedDir.anchor, s.cleanedDir.parts ++ way.parts⟩ := by
    rw [Path.join, if_pos h.anchor]
  obtain ⟨front, rest, parts, leads, plain⟩ := steady
  have above : s.cleanedDir.parts ++ init = front ++ rest := by
    rw [← parts, joined, hw, Path.parent, ← List.append_assoc, List.dropLast_concat]
  obtain ⟨here, hp, -⟩ := FileTree.leadsToDirectory_iff.1 leads
  have stands : t.Stands s.cleanedDir.anchor front here := by
    rw [joined] at hp
    exact ⟨hs, (FileTree.place_eq_ok_iff.1 hp).2⟩
  refine ⟨front, rest, part, here, ⟨?_, ?_, ?_, ?_⟩⟩
  · rw [joined, hw, ← List.append_assoc, above, List.append_assoc]
  · rw [joined]
    exact stands
  · rw [List.mem_append, not_or, List.mem_singleton]
    exact ⟨plain, Ne.symm dots⟩
  · intro followed missing name hm
    have named : name ∈ s.cleanedDir.parts ++ way.parts := by
      rw [hw, ← List.append_assoc, above, List.append_assoc]
      exact List.mem_append_right _ hm
    have down : name ≠ ".." := by
      rintro rfl
      rcases List.mem_append.1 hm with hm | hm
      · exact plain hm
      · exact dots (List.mem_singleton.1 hm).symm
    -- A name is in the path of the directory, or on the way on which the document is read.
    rcases List.mem_append.1 named with hn | hn
    · have whole := stands.follow_append (rest ++ [part])
      rw [missing, ← List.append_assoc, ← above] at whole
      have followed' : (Path.mk s.cleanedDir.anchor (s.cleanedDir.parts ++ init)).IsFollowed := by
        rw [above]
        rwa [joined] at followed
      exact (short_of_missing short followed' whole name hn).resolve_left down
    · obtain ⟨place, hq, -⟩ := FileTree.read_eq_ok_iff.1 ho
      have read := FileTree.short_of_follow (FileTree.place_eq_ok_iff.1 hq).2 name
      rw [Path.join, if_pos h.anchor] at read
      exact (read (List.mem_append_right _ hn)).resolve_left down

/-- Whether a place is that of the output of one of the documents. -/
def IsTargetOf (s : Settings) (t : FileTree) (ways : List Path) (q : Place) : Prop :=
  ∃ way ∈ ways, q = targetOf s t way

/-- Documents that are found in a directory and do not meet. -/
structure Scattered (s : Settings) (t : FileTree) (root : Place) (ways : List Path) : Prop where
  sound : t.Sound
  place : t.place s.rawDir = .ok root
  found : ∀ way ∈ ways, t.LeadsToFile root way
  independent : Independent s t ways

theorem Scattered.hasTarget (h : Scattered s t root ways) (hm : way ∈ ways) : HasTarget s t way :=
  Batch.hasTarget h.sound (h.found way hm) (h.independent.steady way hm) h.independent.short

section

variable [SetOrder]

/-! ### What documents come to together -/

/-- A tree in which at each place lies what one of the documents makes of it alone, or, if none
does, what was there before. -/
structure Combines (s : Settings) (t : FileTree) (ways : List Path) (t' : FileTree) : Prop where
  sound : t'.Sound
  current : t'.current = t.current
  at? : ∀ q,
    (∃ way ∈ ways, (cleanOne s t way).tree.at? q ≠ t.at? q ∧
      t'.at? q = (cleanOne s t way).tree.at? q) ∨
    (∀ way ∈ ways, (cleanOne s t way).tree.at? q = t.at? q) ∧ t'.at? q = t.at? q

theorem combines_nil (hs : t.Sound) : Combines s t [] t where
  sound := hs
  current := rfl
  at? _ := .inr ⟨nofun, rfl⟩

namespace Scattered

/-- What a document changes is its output, or a directory that it makes on the way there. -/
theorem changed_cases (h : Scattered s t root ways) (hm : way ∈ ways) {q : Place}
    (changed : (cleanOne s t way).tree.at? q ≠ t.at? q) :
    q <+: targetOf s t way ∧
      ((cleanOne s t way).tree.at? q = some .directory ∨ q = targetOf s t way) := by
  rcases (cleanOne_grown h.sound (h.hasTarget hm)).at? q with
    same | ⟨-, made, out, rfl, hq, -⟩ | ⟨hq, -⟩
  · exact absurd same changed
  · exact ⟨hq, .inl made⟩
  · exact ⟨hq ▸ List.prefix_refl _, .inr hq⟩

/-- Where two documents change the tree they change it alike. -/
theorem at?_eq_of_changed (h : Scattered s t root ways) {way' : Path} {q : Place} (hm : way ∈ ways)
    (hm' : way' ∈ ways) (changed : (cleanOne s t way).tree.at? q ≠ t.at? q)
    (changed' : (cleanOne s t way').tree.at? q ≠ t.at? q) :
    (cleanOne s t way).tree.at? q = (cleanOne s t way').tree.at? q := by
  by_cases hw : way = way'
  · rw [hw]
  -- At the output of one document nothing is changed by the other.
  obtain ⟨hq, made | rfl⟩ := h.changed_cases hm changed
  · obtain ⟨-, made' | rfl⟩ := h.changed_cases hm' changed'
    · rw [made, made']
    · exact absurd hq (h.independent.outputs way' hm' way hm (Ne.symm hw))
  · exact absurd (h.changed_cases hm' changed').1 (h.independent.outputs way hm way' hm' hw)

/-- Some of the documents, done in some order, change nothing but their outputs. -/
theorem grown (h : Scattered s t root ways) (hd : ∀ way ∈ done, way ∈ ways)
    (hc : Combines s t done t') : Grown (IsTargetOf s t done) t t' where
  sound := hc.sound
  current := hc.current
  at? q := by
    rcases hc.at? q with ⟨way, hm, changed, made⟩ | ⟨-, same⟩
    · rw [FileTree.isDirectoryAt, FileTree.isDirectoryAt, made]
      rcases (cleanOne_grown h.sound (h.hasTarget (hd way hm))).at? q with
        same | ⟨none, directory, out, rfl, hq⟩ | hq
      · exact absurd same changed
      · exact .inr (.inl ⟨none, directory, _, ⟨way, hm, rfl⟩, hq⟩)
      · exact .inr (.inr ⟨⟨way, hm, hq.1⟩, hq.2⟩)
    · exact .inl same

/-- What documents come to together does not depend on their order. -/
theorem at?_eq (h : Scattered s t root ways) (hp : ways.Perm ways') {t'' : FileTree}
    (hc : Combines s t ways t') (hc' : Combines s t ways' t'') (q : Place) :
    t''.at? q = t'.at? q := by
  rcases hc.at? q with ⟨way, hm, changed, made⟩ | ⟨none, same⟩ <;>
    rcases hc'.at? q with ⟨way', hm', changed', made'⟩ | ⟨none', same'⟩
  · rw [made, made']
    exact h.at?_eq_of_changed (hp.mem_iff.2 hm') hm changed' changed
  · exact absurd (none' way (hp.mem_iff.1 hm)) changed
  · exact absurd (none way' (hp.mem_iff.2 hm')) changed'
  · rw [same, same']

/-! ### A run through documents -/

/-- The next document comes to what it comes to alone. -/
theorem turn (h : Scattered s t root ways) (hc : Combines s t done t') (hm : way ∈ ways)
    (hd : ∀ way' ∈ done, way' ∈ ways) (new : way ∉ done) :
    (cleanOne s t' way).result = (cleanOne s t way).result ∧
      Combines s t (done ++ [way]) (cleanOne s t' way).tree := by
  have grown := h.grown hd hc
  have other : ∀ way' ∈ done, way' ≠ way := by
    rintro way' hm' rfl
    exact new hm'
  have input : t'.read (s.rawDir.join way) = t.read (s.rawDir.join way) := by
    apply read_same h.sound h.place (h.found way hm) grown
    rintro ⟨way', hm', hq⟩
    exact h.independent.inputs way' (hd way' hm') way hm (other way' hm') hq.symm
  have free : Free (IsTargetOf s t done) (targetOf s t way) := by
    rintro q hq ⟨way', hm', rfl⟩
    exact h.independent.outputs way' (hd way' hm') way hm (other way' hm') hq
  have ends : t'.at? (targetOf s t way) = t.at? (targetOf s t way) := by
    rcases grown.at? (targetOf s t way) with same | ⟨-, -, out, ⟨way', hm', rfl⟩, hq, -⟩ | ⟨hq, -⟩
    · exact same
    · exact absurd hq
        (h.independent.outputs way hm way' (hd way' hm') (Ne.symm (other way' hm')))
    · exact absurd hq (free _ (List.prefix_refl _))
  obtain ⟨result, effect⟩ := cleanOne_same (h.hasTarget hm) grown input free ends
  have kept := cleanOne_keeps hc.sound s way
  refine ⟨result, kept.sound, kept.current.trans hc.current, fun q => ?_⟩
  rcases effect q with ⟨same, same'⟩ | ⟨changed, made⟩
  · rw [same']
    rcases hc.at? q with ⟨way', hm', changed, made⟩ | ⟨none, unchanged⟩
    · exact .inl ⟨way', List.mem_append_left _ hm', changed, made⟩
    · right
      refine ⟨fun way' hm' => ?_, unchanged⟩
      rcases List.mem_append.1 hm' with hm' | hm'
      · exact none way' hm'
      · rw [List.mem_singleton.1 hm']
        exact same
  · exact .inl ⟨way, List.mem_append_right _ (List.mem_singleton_self way), changed, made⟩

/-- A run that comes to its end comes to the outcomes that the documents have alone. -/
theorem exists_outcome (h : Scattered s t root ways) (hc : Combines s t done t')
    (hd : ∀ way ∈ done ++ todo, way ∈ ways) (distinct : (done ++ todo).Nodup)
    (hr : (cleanEach s t' todo).result = .ok outcomes) :
    ∀ way ∈ todo, ∃ outcome, (cleanOne s t way).result = .ok outcome := by
  -- On the documents that are left; those that are done are more each time.
  induction todo generalizing done t' outcomes with
  | nil => exact nofun
  | cons way todo ih =>
    have hm : way ∈ ways := hd way (List.mem_append_right _ List.mem_cons_self)
    have new : way ∉ done := fun hm => List.disjoint_of_nodup_append distinct hm List.mem_cons_self
    obtain ⟨result, next⟩ := h.turn hc hm (fun way' hm' => hd way' (List.mem_append_left _ hm')) new
    rcases ho : (cleanOne s t' way).result with e | outcome
    · rw [cleanEach_of_error ho] at hr
      cases hr
    rw [cleanEach_of_ok ho] at hr
    obtain ⟨rest, hr, -⟩ := map_eq_ok_iff.1 hr
    rw [List.append_cons] at hd distinct
    exact List.forall_mem_cons.2 ⟨⟨outcome, result.symm.trans ho⟩, ih next hd distinct hr⟩

/-- Documents that come to outcomes alone come to them one after the other. -/
theorem run (h : Scattered s t root ways) (hc : Combines s t done t')
    (hd : ∀ way ∈ done ++ todo, way ∈ ways) (distinct : (done ++ todo).Nodup)
    (ho : ∀ way ∈ todo, (cleanOne s t way).result = .ok (alone way)) :
    (cleanEach s t' todo).result = .ok (todo.map alone) ∧
      Combines s t (done ++ todo) (cleanEach s t' todo).tree := by
  induction todo generalizing done t' with
  | nil =>
    rw [List.append_nil]
    exact ⟨rfl, hc⟩
  | cons way todo ih =>
    have hm : way ∈ ways := hd way (List.mem_append_right _ List.mem_cons_self)
    have new : way ∉ done := fun hm => List.disjoint_of_nodup_append distinct hm List.mem_cons_self
    obtain ⟨result, next⟩ := h.turn hc hm (fun way' hm' => hd way' (List.mem_append_left _ hm')) new
    obtain ⟨first, others⟩ := List.forall_mem_cons.1 ho
    rw [cleanEach_of_ok (result.trans first)]
    rw [List.append_cons] at hd distinct ⊢
    obtain ⟨rest, made⟩ := ih next hd distinct others
    dsimp only
    rw [rest]
    exact ⟨rfl, made⟩

end Scattered

/-! ### The whole batch -/

/-- **The order of the documents does not matter, if they do not meet.**  A batch that comes to its
end comes to it in every order: each document gets the outcome that it gets alone, and the same lies
at every place in the end.  The tree has no links, and a file that is opened is written to its
end. -/
theorem cleanDirectory_reordered (ht : t.IsTree) (hw : t.discover s.rawDir s.patterns = .ok ways)
    (hi : Independent s t ways) (hr : (cleanDirectory s t).result = .ok outcomes)
    (hp : ways.Perm ways') :
    ∃ alone : Path → Outcome,
      (∀ way ∈ ways, (cleanOne s t way).result = .ok (alone way)) ∧
      outcomes = ways.map alone ∧ (cleanEach s t ways').result = .ok (ways'.map alone) ∧
      (∀ place, (cleanEach s t ways').tree.at? place = (cleanDirectory s t).tree.at? place) ∧
      (cleanEach s t ways').tree.current = (cleanDirectory s t).tree.current := by
  obtain ⟨root, found, place, directory, hf, run, tree⟩ := exists_of_cleanDirectory hr
  obtain rfl : ways = found := Except.ok.inj (hw.symm.trans hf)
  obtain ⟨leads, distinct⟩ := FileTree.leadsToFile_of_mem_discover ht place directory hw
  have scattered : Scattered s t root ways := ⟨ht.toSound, place, leads, hi⟩
  have start : Combines s t [] t := combines_nil ht.toSound
  have outcome : Nonempty Outcome := ⟨s.rawDir, none, .pruned⟩
  choose! alone ho using scattered.exists_outcome start (fun _ hm => hm) distinct run
  obtain ⟨result, made⟩ := scattered.run start (fun _ hm => hm) distinct ho
  have ho' : ∀ way ∈ ways', (cleanOne s t way).result = .ok (alone way) :=
    fun way hm => ho way (hp.mem_iff.2 hm)
  obtain ⟨result', made'⟩ := scattered.run start (fun way hm => hp.mem_iff.2 hm)
    (hp.nodup_iff.1 distinct) ho'
  rw [tree]
  refine ⟨alone, ho, ?_, result', scattered.at?_eq hp made made', ?_⟩
  · exact Except.ok.inj (run.symm.trans result)
  · exact made'.current.trans made.current.symm

end

section

attribute [local instance] SetOrder.written

/-- Two documents and their outputs, in directories of their own. -/
theorem cleanDirectory_reordered_twoFiles :
    (twoFiles [0x30] [0x31]).IsTree ∧
    Independent skipSettings (twoFiles [0x30] [0x31]) [⟨.here, ["a.json"]⟩, ⟨.here, ["b.json"]⟩] ∧
    ∃ outcomes, (cleanDirectory skipSettings (twoFiles [0x30] [0x31])).result = .ok outcomes ∧
      (cleanEach skipSettings (twoFiles [0x30] [0x31])
        [⟨.here, ["b.json"]⟩, ⟨.here, ["a.json"]⟩]).result = .ok outcomes.reverse ∧
      ∀ place, (cleanEach skipSettings (twoFiles [0x30] [0x31])
          [⟨.here, ["b.json"]⟩, ⟨.here, ["a.json"]⟩]).tree.at? place
        = (cleanDirectory skipSettings (twoFiles [0x30] [0x31])).tree.at? place := by
  have tree : (twoFiles [0x30] [0x31]).IsTree :=
    ⟨⟨by decide, by decide, by decide, by decide⟩, by decide⟩
  have steady : ∀ way ∈ [Path.mk .here ["a.json"], ⟨.here, ["b.json"]⟩],
      IsSteady (twoFiles [0x30] [0x31]) (skipSettings.cleanedDir.join way).parent := by
    intro way hm
    rcases List.mem_pair.1 hm with rfl | rfl
    · exact ⟨[], ["clean"], rfl, rfl, by decide⟩
    · exact ⟨[], ["clean"], rfl, rfl, by decide⟩
  have independent : Independent skipSettings (twoFiles [0x30] [0x31])
      [⟨.here, ["a.json"]⟩, ⟨.here, ["b.json"]⟩] :=
    ⟨by decide, by decide, steady, fun _ => by decide⟩
  have found : (twoFiles [0x30] [0x31]).find? skipSettings.rawDir = .ok (some .directory) := rfl
  have runs : (cleanDirectory skipSettings (twoFiles [0x30] [0x31])).result =
      .ok [⟨⟨.here, ["original", "a.json"]⟩, some ⟨.here, ["clean", "a.json"]⟩, .cleaned none⟩,
        ⟨⟨.here, ["original", "b.json"]⟩, some ⟨.here, ["clean", "b.json"]⟩, .cleaned none⟩] := by
    simp only [cleanDirectory, found, discover_twoFiles]
    with_unfolding_all rfl
  obtain ⟨alone, -, outcomes, reversed, same, -⟩ := cleanDirectory_reordered tree
    (discover_twoFiles [0x30] [0x31]) independent runs (List.Perm.swap _ _ _)
  refine ⟨tree, independent, _, runs, ?_, same⟩
  rw [reversed, outcomes]
  rfl

/-! ### Directories that overlap -/

/-- A directory with a document and, in the directory for its outputs, another one. -/
def overlappingTree : FileTree :=
  ⟨[(["x"], .directory), (["x", "a.json"], .file [0x31]), (["x", "clean"], .directory),
    (["x", "clean", "a.json"], .file [0x32])], []⟩

/-- Takes both documents and puts the outputs into the directory of the second. -/
def overlappingSettings : Settings :=
  ⟨⟨.here, ["x"]⟩, ⟨.here, ["x", "clean"]⟩, ["a.json", "clean/a.json"], .skip⟩

/-- The output of the first document is the second document, whose output depends on which of them
comes first. -/
theorem cleanEach_overlapping :
    overlappingTree.IsTree ∧ overlappingSettings.policy = .skip ∧
    overlappingTree.discover overlappingSettings.rawDir overlappingSettings.patterns
      = .ok [⟨.here, ["a.json"]⟩, ⟨.here, ["clean", "a.json"]⟩] ∧
    (∃ outcomes, (cleanDirectory overlappingSettings overlappingTree).result = .ok outcomes) ∧
    (cleanDirectory overlappingSettings overlappingTree).tree.at? ["x", "clean", "clean", "a.json"]
      = some (.file [0x31, 0x0a]) ∧
    (cleanEach overlappingSettings overlappingTree
        [⟨.here, ["clean", "a.json"]⟩, ⟨.here, ["a.json"]⟩]).tree.at?
          ["x", "clean", "clean", "a.json"] = some (.file [0x32, 0x0a]) := by
  have found : overlappingTree.find? overlappingSettings.rawDir = .ok (some .directory) := rfl
  have spots : overlappingTree.globAll overlappingSettings.rawDir overlappingSettings.patterns
      = .ok [⟨["x", "a.json"], ["a.json"]⟩, ⟨["x", "clean", "a.json"], ["clean", "a.json"]⟩] := by
    with_unfolding_all rfl
  have before : ¬ ["clean", "a.json"] < ["a.json"] := by decide
  have sorted : [["a.json"], ["clean", "a.json"]].mergeSort (fun v w => !decide (w < v))
      = [["a.json"], ["clean", "a.json"]] := by
    simp [List.mergeSort, List.MergeSort.Internal.splitInTwo, before]
  have ways : overlappingTree.discover overlappingSettings.rawDir overlappingSettings.patterns
      = .ok [⟨.here, ["a.json"]⟩, ⟨.here, ["clean", "a.json"]⟩] := by
    rw [FileTree.discover, spots]
    show Except.ok (([["a.json"], ["clean", "a.json"]].mergeSort fun v w => !decide (w < v)).map _)
      = _
    rw [sorted]
    rfl
  have run : (cleanDirectory overlappingSettings overlappingTree).result = .ok
        [⟨⟨.here, ["x", "a.json"]⟩, some ⟨.here, ["x", "clean", "a.json"]⟩, .cleaned none⟩,
          ⟨⟨.here, ["x", "clean", "a.json"]⟩, some ⟨.here, ["x", "clean", "clean", "a.json"]⟩,
            .cleaned none⟩] ∧
      (cleanDirectory overlappingSettings overlappingTree).tree.at?
        ["x", "clean", "clean", "a.json"] = some (.file [0x31, 0x0a]) := by
    simp only [cleanDirectory, found, ways]
    with_unfolding_all exact ⟨rfl, rfl⟩
  refine ⟨⟨⟨by decide, by decide, by decide, by decide⟩, by decide⟩, rfl, ways, ⟨_, run.1⟩, run.2, ?_⟩
  with_unfolding_all rfl

end

end Batch

end PlainSchema
