/-
PlainSchema/Proofs/Layout.lean

The documents of a batch in one directory, and the outputs in another that has
nothing in common with it: where they are, and what happens at an output.

The path of an output is followed from the last place on the way to it that is known
to be there, and what is left of it has no dots (`Layout`).  So an output has one
place in every tree that a batch can come to, whether or not the directories on the
way are made already, and everything that happens at it happens at that place or on
the way to it (`makeDirectories_keeps`, `write_keeps`, `removeStale_keeps`).  The
directory of the documents stays as it is, and so do they (`read_eq`).
-/
import PlainSchema.Proofs.Directories
import PlainSchema.Proofs.Discovery
import PlainSchema.Proofs.Turns

namespace PlainSchema

namespace Batch

open FileTree (Keeps Stands IsWay SameBelow isTooLong)

variable {s : Settings} {t t' : FileTree} {way : Path} {source here place : Place}
  {front pre : List String} {touched : Place → Prop}

/-- No file at the output, nothing to remove. -/
theorem removeStale_of_no_file {output : Path}
    (h : ∀ octets, t.find? output ≠ .ok (some (.file octets))) :
    (removeStale t output).tree = t := by
  unfold removeStale
  split
  · rfl
  · next octets hf => exact absurd hf (h octets)
  · rfl

/-! ### Where documents and outputs are -/

/-- The directory of the documents is there, and the one of the outputs is apart from it: what its
path starts with leads to a place, and what is left of the path has no dots. -/
structure Layout (s : Settings) (t : FileTree) (source : Place) (front pre : List String)
    (here : Place) : Prop where
  inputs : t.Stands s.rawDir.anchor s.rawDir.parts source
  root : t.place s.rawDir = .ok source
  directory : t.isDirectoryAt source = true
  outputs : t.Stands s.cleanedDir.anchor front here
  parts : s.cleanedDir.parts = front ++ pre
  plain : ".." ∉ pre
  noNul : s.cleanedDir.hasNul = false
  notInside : ¬ source <+: here ++ pre
  notAround : ¬ here ++ pre <+: source

namespace Layout

theorem keeps (h : Layout s t source front pre here) (hk : Keeps (here ++ pre) touched t t') :
    Layout s t' source front pre here where
  inputs := h.inputs.keeps hk
  root := hk.place_eq_ok h.root
  directory := hk.directories _ h.directory
  outputs := h.outputs.keeps hk
  parts := h.parts
  plain := h.plain
  noNul := h.noNul
  notInside := h.notInside
  notAround := h.notAround

/-- The directory of the documents stays as it is. -/
theorem sameBelow (h : Layout s t source front pre here)
    (hk : Keeps (here ++ pre) touched t t') : SameBelow source t t' where
  before := h.directory
  after := hk.directories _ h.directory
  below := hk.below _ h.notInside h.notAround

theorem parts_ne_nil (h : Layout s t source front pre here) (hw : t.IsWay source way) :
    way.parts ≠ [] :=
  hw.parts_ne_nil h.directory

theorem isWay (h : Layout s t source front pre here) (hk : Keeps (here ++ pre) touched t t')
    (hw : t.IsWay source way) : t'.IsWay source way where
  anchor := hw.anchor
  plain := hw.plain
  file := by
    rw [FileTree.isFileAt, (h.sameBelow hk).at?]
    exact hw.file

/-- The path of a document. -/
theorem input_eq (hw : t.IsWay source way) :
    s.rawDir.join way = ⟨s.rawDir.anchor, s.rawDir.parts ++ way.parts⟩ := by
  rw [Path.join, if_pos hw.anchor]

/-- The path of an output. -/
theorem output_eq (h : Layout s t source front pre here) (hw : t.IsWay source way) :
    s.cleanedDir.join way = ⟨s.cleanedDir.anchor, front ++ (pre ++ way.parts)⟩ := by
  rw [Path.join, if_pos hw.anchor, h.parts, List.append_assoc]

theorem output_parts_ne_nil (h : Layout s t source front pre here) (hw : t.IsWay source way) :
    (s.cleanedDir.join way).parts ≠ [] := by
  rw [h.output_eq hw]
  simp [h.parts_ne_nil hw]

theorem output_parent (h : Layout s t source front pre here) (hw : t.IsWay source way) :
    (s.cleanedDir.join way).parent
      = ⟨s.cleanedDir.anchor, front ++ (pre ++ way.parts.dropLast)⟩ := by
  rw [h.output_eq hw]
  show Path.mk s.cleanedDir.anchor (front ++ (pre ++ way.parts)).dropLast = _
  rw [← List.append_assoc, List.dropLast_append_of_ne_nil (h.parts_ne_nil hw), List.append_assoc]

theorem plain_output (h : Layout s t source front pre here) (hw : t.IsWay source way) :
    ".." ∉ pre ++ way.parts := by
  rw [List.mem_append, not_or]
  exact ⟨h.plain, hw.plain⟩

/-- The text of a document stays the same. -/
theorem read_eq (h : Layout s t source front pre here) (hk : Keeps (here ++ pre) touched t t')
    (hw : t.IsWay source way) : t'.read (s.rawDir.join way) = t.read (s.rawDir.join way) := by
  have hp : t'.place (s.rawDir.join way) = t.place (s.rawDir.join way) := by
    refine FileTree.place_congr ?_
    rw [input_eq hw]
    show t'.follow (t'.start ⟨s.rawDir.anchor, s.rawDir.parts ++ way.parts⟩)
      (s.rawDir.parts ++ way.parts) = t.follow _ (s.rawDir.parts ++ way.parts)
    rw [h.inputs.follow_append, (h.keeps hk).inputs.follow_append]
    exact FileTree.follow_congr hw.plain (h.sameBelow hk).at?
  rw [FileTree.read, FileTree.read, hp]
  rcases hq : t.place (s.rawDir.join way) with e | place
  · rfl
  · rw [input_eq hw] at hq
    obtain rfl := h.inputs.eq_of_place hw.plain hq
    dsimp only
    rw [(h.sameBelow hk).at?]

theorem wanted_eq [SetOrder] (h : Layout s t source front pre here)
    (hk : Keeps (here ++ pre) touched t t') (hw : t.IsWay source way) :
    wanted t' (s.rawDir.join way) (s.cleanedDir.join way)
      = wanted t (s.rawDir.join way) (s.cleanedDir.join way) :=
  wanted_congr (h.read_eq hk hw)

/-- The names on the way to a document that is read are not too long. -/
theorem short_of_read (h : Layout s t source front pre here) (hw : t.IsWay source way)
    {octets : List UInt8} (hr : t.read (s.rawDir.join way) = .ok octets) :
    ∀ part ∈ way.parts, isTooLong part = false := by
  obtain ⟨place, hp, -⟩ := FileTree.read_eq_ok_iff.1 hr
  rw [input_eq hw] at hp
  intro part hm
  refine (FileTree.short_of_follow (h.inputs.place_ok_iff.1 hp).2 part hm).resolve_left ?_
  rintro rfl
  exact hw.plain hm

/-- The output of a document that is read has a path that reaches the system. -/
theorem output_hasNul (h : Layout s t source front pre here) (hw : t.IsWay source way)
    {octets : List UInt8} (hr : t.read (s.rawDir.join way) = .ok octets) :
    (s.cleanedDir.join way).hasNul = false := by
  obtain ⟨place, hp, -⟩ := FileTree.read_eq_ok_iff.1 hr
  have hn := (FileTree.place_eq_ok_iff.1 hp).1.1
  have hc := h.noNul
  rw [Path.join, if_pos hw.anchor] at hn ⊢
  simp only [Path.hasNul, List.any_append, Bool.or_eq_false_iff] at hn hc ⊢
  exact ⟨hc, hn.2⟩

/-- The place of an output, whatever lies there. -/
theorem output_resolve (h : Layout s t source front pre here) (hw : t.IsWay source way) :
    (s.cleanedDir.join way).resolve t.current = here ++ pre ++ way.parts := by
  rw [h.outputs.sound.resolve_eq_walk, h.output_eq hw]
  show Path.walk (t.start ⟨s.cleanedDir.anchor, front⟩) (front ++ (pre ++ way.parts)) = _
  rw [Path.walk_append, ← FileTree.eq_walk_of_follow h.outputs.reaches,
    Path.walk_of_plain (h.plain_output hw), List.append_assoc]

theorem eq_of_place (h : Layout s t source front pre here) (hw : t.IsWay source way)
    (hp : t.place (s.cleanedDir.join way) = .ok place) : place = here ++ pre ++ way.parts := by
  rw [← h.output_resolve hw]
  exact h.outputs.sound.resolve_of_place hp

/-- A file at the path of an output is at its place. -/
theorem at?_of_find? (h : Layout s t source front pre here) (hw : t.IsWay source way)
    {octets : List UInt8} (hf : t.find? (s.cleanedDir.join way) = .ok (some (.file octets))) :
    t.at? (here ++ pre ++ way.parts) = some (.file octets) := by
  obtain ⟨place, hp, hf⟩ := FileTree.find?_eq_some_iff.1 hf
  rwa [← h.eq_of_place hw hp]

/-- What is on the way to an output is on the way to the directory of the outputs, or inside. -/
theorem near {xs ys : List String} (hx : xs <+: pre ++ ys) :
    here ++ xs <+: here ++ pre ∨ here ++ pre <+: here ++ xs := by
  rw [List.prefix_append_right_inj, List.prefix_append_right_inj]
  exact List.prefix_or_prefix_of_prefix hx (List.prefix_append _ _)

theorem plain_parent (h : Layout s t source front pre here) (hw : t.IsWay source way) :
    ".." ∉ pre ++ way.parts.dropLast :=
  fun hm => h.plain_output hw (List.mem_append.2
    ((List.mem_append.1 hm).imp id fun hm => List.dropLast_subset _ hm))

/-! ### What a turn changes -/

/-- The directories on the way to an output are made, or only some of them and then it says so. -/
theorem makeDirectories_keeps (h : Layout s t source front pre here) (hw : t.IsWay source way) :
    Keeps (here ++ pre) (fun _ => False) t (t.makeDirectories (s.cleanedDir.join way).parent).1 ∧
      ((t.makeDirectories (s.cleanedDir.join way).parent).2 = .ok () →
        (t.makeDirectories (s.cleanedDir.join way).parent).1.leadsToDirectory
          (s.cleanedDir.join way).parent = true) := by
  rw [h.output_parent hw]
  exact h.outputs.ensureParts_keeps (h.plain_parent hw) fun xs hx => near hx

/-- A text that is stored is at the place of the output, and nothing else is changed. -/
theorem write_keeps (h : Layout s t source front pre here) (hw : t.IsWay source way)
    {octets : List UInt8} (hd : t.leadsToDirectory (s.cleanedDir.join way).parent = true)
    (hk : t.write (s.cleanedDir.join way) octets = .ok t') :
    Keeps (here ++ pre) (· = here ++ pre ++ way.parts) t t' ∧
      t'.leadsToDirectory (s.cleanedDir.join way).parent = true ∧
      t'.place (s.cleanedDir.join way) = .ok (here ++ pre ++ way.parts) ∧
      t'.at? (here ++ pre ++ way.parts) = some (.file octets) := by
  obtain ⟨place, hp, hn, rfl⟩ := FileTree.write_eq_ok_iff.1 hk
  have above := h.outputs.sound.parent_of_place hp
  obtain rfl := h.eq_of_place hw hp
  have plain : ".." ∉ here ++ pre ++ way.parts := by
    rw [List.append_assoc]
    exact h.outputs.not_mem (h.plain_output hw)
  have kept : Keeps (here ++ pre) _ t _ := h.outputs.sound.keeps_put_file hn octets above plain
    (List.prefix_append _ _)
  refine ⟨kept, kept.leadsToDirectory hd, kept.place_eq_ok hp, ?_⟩
  rw [FileTree.at?_put, if_pos rfl]
  simp [h.parts_ne_nil hw]

/-- A file that an earlier run left is removed from the place of the output. -/
theorem removeStale_keeps (h : Layout s t source front pre here) (hw : t.IsWay source way)
    (hn : (s.cleanedDir.join way).hasNul = false)
    (hr : (removeStale t (s.cleanedDir.join way)).result = .ok ()) :
    Keeps (here ++ pre) (· = here ++ pre ++ way.parts) t
        (removeStale t (s.cleanedDir.join way)).tree ∧
      (removeStale t (s.cleanedDir.join way)).tree.isFileAt (here ++ pre ++ way.parts) = false ∧
      (s.cleanedDir.join way).IsFollowed := by
  have found : t.place (s.cleanedDir.join way) ≠
      .error (.refused .nameTooLong (s.cleanedDir.join way)) := by
    rcases removeStale_result t (s.cleanedDir.join way) with ⟨-, he⟩ | ⟨hl, -⟩
    · cases he.symm.trans hr
    · exact hl
  have followed : (s.cleanedDir.join way).IsFollowed := by
    refine ⟨hn, Nat.not_lt.1 fun hl => found ?_⟩
    rw [FileTree.place, if_neg (by rw [hn]; exact Bool.false_ne_true), if_pos hl]
  by_cases hf : ∃ octets, t.find? (s.cleanedDir.join way) = .ok (some (.file octets))
  · obtain ⟨octets, hf⟩ := hf
    have file := h.at?_of_find? hw hf
    obtain ⟨place, hp, hd⟩ := FileTree.remove_of_find? hf
    obtain rfl := h.eq_of_place hw hp
    have tree : (removeStale t (s.cleanedDir.join way)).tree
        = t.drop (here ++ pre ++ way.parts) := by
      simp only [removeStale, hf, hd]
    rw [tree]
    refine ⟨h.outputs.sound.keeps_drop file (List.prefix_append _ _), ?_, followed⟩
    rw [FileTree.isFileAt, FileTree.at?_drop, if_pos rfl]
    simp [h.parts_ne_nil hw]
  · rw [removeStale_of_no_file fun octets ho => hf ⟨octets, ho⟩]
    refine ⟨.refl h.outputs.sound, Bool.eq_false_iff.2 fun file => ?_, followed⟩
    obtain ⟨octets, ho⟩ := FileTree.isFileAt_iff.1 file
    -- The path leads to the file, unless it is refused, and then there is none.
    rcases hp : t.place (s.cleanedDir.join way) with e | place
    · rw [h.output_eq hw] at hp followed found
      have none := h.outputs.at?_of_place_error (h.plain_output hw) followed hp
        fun he => found (he ▸ hp)
      rw [← List.append_assoc, ho] at none
      cases none
    · obtain rfl := h.eq_of_place hw hp
      exact hf ⟨octets, FileTree.find?_eq_some_iff.2 ⟨_, hp, ho⟩⟩

end Layout

end Batch

end PlainSchema
