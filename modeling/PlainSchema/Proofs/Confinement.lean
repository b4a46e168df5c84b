/-
PlainSchema/Proofs/Confinement.lean

Which files a batch can change, whatever its directories and patterns are and however
it ends: those at its outputs, and no others.

Where a path leads does not depend on the state of the tree, if it leads anywhere
(`Sound.resolve_of_place`).  So every file that is written or removed is where the
path of an output says, and everything else that happens is a directory that is made
(`store_keeps`, `removeStale_keeps`).  One document's turn is `cleanOne_keeps`, the
batch follows by induction on the documents.

The path of an output is the directory of the outputs and the way on which a pattern
found the document.  Two dots in a pattern are on the way too, and so an output can be
outside of that directory: `cleanDirectory_outside` removes a file there.
-/
import PlainSchema.Proofs.Mirroring

namespace PlainSchema

namespace FileTree

variable {t t' : FileTree} {p : Path} {place : Place} {parts : List String} {anchor : Anchor}
  {octets : List UInt8} {touched : Place → Prop}

/-! ### Paths of any kind -/

namespace Sound

/-- A directory that is made changes no file. -/
theorem ensureDirectory_keeps (hs : t.Sound) (he : t.ensureDirectory p = .ok t') :
    Keeps [] (fun _ => False) t t' := by
  obtain ⟨place, hp, ⟨hf, rfl⟩ | ⟨-, rfl⟩⟩ := ensureDirectory_eq_ok_iff.1 he
  · exact hs.keeps_put_directory hf (hs.parent_of_place hp) (hs.plain_of_place hp)
      (.inr List.nil_prefix)
  · exact .refl hs

/-- Directories that are made change no file, and nor do those that are made before one is
refused. -/
theorem ensureParts_keeps (hs : t.Sound) (anchor : Anchor) (parts : List String) :
    Keeps [] (fun _ => False) t (t.ensureParts anchor parts).1 := by
  have stands : t.Stands anchor [] (t.start ⟨anchor, []⟩) := ⟨hs, rfl⟩
  rw [← List.nil_append parts]
  exact (stands.ensureParts_induction (.refl hs)
    fun _ _ _ _ hk he => hk.trans (hk.sound.ensureDirectory_keeps he)).1

/-- A file that is written is where its path says. -/
theorem write_keeps (hs : t.Sound) (hk : t.write p octets = .ok t') :
    Keeps [] (· = p.resolve t.current) t t' := by
  obtain ⟨place, hp, hd, rfl⟩ := write_eq_ok_iff.1 hk
  rw [← hs.resolve_of_place hp]
  exact hs.keeps_put_file hd octets (hs.parent_of_place hp) (hs.plain_of_place hp) List.nil_prefix

/-- A file that is removed was where its path says. -/
theorem remove_keeps (hs : t.Sound) (hk : t.remove p = .ok t') :
    Keeps [] (· = p.resolve t.current) t t' := by
  obtain ⟨place, octets, hp, hf, rfl⟩ := remove_eq_ok_iff.1 hk
  rw [← hs.resolve_of_place hp]
  exact hs.keeps_drop hf List.nil_prefix

end Sound

end FileTree

namespace Document

variable {t : FileTree} {p : Path} {text : List Char}

/-- A text that is stored changes no other file, and nor does one that is refused. -/
theorem store_keeps (hs : t.Sound) (p : Path) (text : List Char) :
    FileTree.Keeps [] (· = p.resolve t.current) t (store t p text).1 := by
  have made : FileTree.Keeps [] (fun _ => False) t (t.makeDirectories p.parent).1 :=
    hs.ensureParts_keeps _ _
  unfold store
  rcases hd : t.makeDirectories p.parent with ⟨t', e | ⟨⟩⟩ <;> rw [hd] at made
  · exact made.mono nofun
  · dsimp only at made ⊢
    split
    · exact made.mono nofun
    · next t'' hw =>
      have written := made.sound.write_keeps hw
      rw [made.current] at written
      exact (made.mono nofun).trans written

end Document

namespace Batch

open FileTree (Keeps)

variable {s : Settings} {t : FileTree} {input output way : Path} {ways : List Path}
  {text : List Char} {e : Failure} {place : Place}

/-! ### One document's turn -/

theorem removeStale_keeps (hs : t.Sound) (output : Path) :
    Keeps [] (· = output.resolve t.current) t (removeStale t output).tree := by
  unfold removeStale
  split
  · exact .refl hs
  · split
    · exact .refl hs
    · exact .refl hs
    · next hr => exact hs.remove_keeps hr
  · exact .refl hs

/-- A turn changes no file but the output, however it ends. -/
theorem cleanOne_keeps [SetOrder] (hs : t.Sound) (s : Settings) (way : Path) :
    Keeps [] (· = (s.cleanedDir.join way).resolve t.current) t (cleanOne s t way).tree := by
  rcases hw : wanted t (s.rawDir.join way) (s.cleanedDir.join way) with e | - | text
  · rw [(cleanOne_of_wanted_error hw).1]
    exact .refl hs
  · rw [(cleanOne_of_wanted_none hw).1]
    exact removeStale_keeps hs _
  · rw [(cleanOne_of_wanted_text hw).1]
    exact Document.store_keeps hs _ _

/-! ### The whole batch -/

/-- Whether a place is where the output of one of the documents is to be. -/
def IsTarget (s : Settings) (current : Place) (ways : List Path) (place : Place) : Prop :=
  ∃ way ∈ ways, place = (s.cleanedDir.join way).resolve current

/-- A run changes no file but the outputs, however it ends. -/
theorem cleanEach_keeps [SetOrder] (hs : t.Sound) (s : Settings) (ways : List Path) :
    Keeps [] (IsTarget s t.current ways) t (cleanEach s t ways).tree := by
  -- Each document changes the tree for those after it, so the tree is generalized.
  induction ways generalizing t with
  | nil => exact .refl hs
  | cons way ways ih =>
    have first : Keeps [] (IsTarget s t.current (way :: ways)) t (cleanOne s t way).tree :=
      (cleanOne_keeps hs s way).mono fun q hq => ⟨way, List.mem_cons_self, hq⟩
    rcases ho : (cleanOne s t way).result with e | outcome
    · rw [cleanEach_of_error ho]
      exact first
    · rw [cleanEach_of_ok ho]
      have rest := ih first.sound
      rw [first.current] at rest
      refine first.trans (rest.mono fun q hq => ?_)
      obtain ⟨way', hm, hq⟩ := hq
      exact ⟨way', List.mem_cons_of_mem _ hm, hq⟩

/-- A batch leaves the tree as it is, or it goes through the documents that the patterns select. -/
theorem cleanDirectory_tree [SetOrder] (s : Settings) (t : FileTree) :
    (cleanDirectory s t).tree = t ∨ ∃ ways, t.discover s.rawDir s.patterns = .ok ways ∧
      (cleanDirectory s t).tree = (cleanEach s t ways).tree ∧
      ∃ source, t.place s.rawDir = .ok source ∧ t.isDirectoryAt source = true := by
  unfold cleanDirectory
  split
  · exact .inl rfl
  · next hf =>
    split
    · exact .inl rfl
    · next ways hw =>
      obtain ⟨source, hp, hd⟩ := FileTree.find?_eq_some_iff.1 hf
      exact .inr ⟨ways, hw, rfl, source, hp, FileTree.isDirectoryAt_iff.2 hd⟩
  · exact .inl rfl

/-- The way to a document is a relative one. -/
theorem anchor_of_mem_discover {directory : Path} {texts : List String}
    (hw : t.discover directory texts = .ok ways) (hm : way ∈ ways) : way.anchor = .here := by
  rcases hg : t.globAll directory texts with e | spots <;> rw [FileTree.discover, hg] at hw
  · cases hw
  · obtain rfl := Except.ok.inj hw
    obtain ⟨parts, -, rfl⟩ := List.mem_map.1 hm
    rfl

/-- Whether a file is made, written or removed at a place. -/
def FileChanged (t t' : FileTree) (place : Place) : Prop :=
  ¬ ∀ octets, t'.at? place = some (.file octets) ↔ t.at? place = some (.file octets)

/-- **Where a batch changes files**, however it ends: at the output of a document that is found,
which is where the way to the document leads from the directory of the outputs.  If no pattern has
two dots, that is below this directory.  The tree has no links, so a path leads where it says; a
batch is not followed beyond a document that is no `Node`. -/
theorem cleanDirectory_confined [SetOrder] (hs : t.Sound)
    (h : FileChanged t (cleanDirectory s t).tree place) :
    ∃ ways way, t.discover s.rawDir s.patterns = .ok ways ∧ way ∈ ways ∧
      place = Path.walk (s.cleanedDir.resolve t.current) way.parts ∧
      ((∀ text ∈ s.patterns, ".." ∉ (Path.ofText text).parts) →
        way.parts ≠ [] ∧ place = s.cleanedDir.resolve t.current ++ way.parts) := by
  rcases cleanDirectory_tree s t with same | ⟨ways, hw, tree, source, hp, hd⟩
  · rw [same] at h
    exact absurd (fun _ => Iff.rfl) h
  have kept := cleanEach_keeps hs s ways
  rw [← tree] at kept
  obtain ⟨way, hm, rfl⟩ : IsTarget s t.current ways place := by
    by_contra hn
    exact h fun octets => kept.files place octets hn
  have resolved : (s.cleanedDir.join way).resolve t.current
      = Path.walk (s.cleanedDir.resolve t.current) way.parts := by
    rw [hs.resolve_eq_walk, hs.resolve_eq_walk, Path.join, if_pos (anchor_of_mem_discover hw hm),
      ← Path.walk_append]
    rfl
  refine ⟨ways, way, hw, hm, resolved, fun plain => ?_⟩
  have found := (FileTree.discover_spec hs hp plain hw).1 way hm
  exact ⟨found.parts_ne_nil hd, resolved.trans (Path.walk_of_plain found.plain)⟩

section

attribute [local instance] SetOrder.written

/-- A clean document is new in the directory of the outputs. -/
theorem cleanDirectory_confined_twoFiles : (twoFiles [0x30] [0x31]).Sound ∧
    FileChanged (twoFiles [0x30] [0x31]) (cleanDirectory skipSettings (twoFiles [0x30] [0x31])).tree
      ["clean", "a.json"] ∧
    ∃ way : Path, way.parts ≠ [] ∧ ["clean", "a.json"] = ["clean"] ++ way.parts := by
  have sound : (twoFiles [0x30] [0x31]).Sound := ⟨by decide, by decide, by decide, by decide⟩
  have made : (cleanDirectory skipSettings (twoFiles [0x30] [0x31])).tree.at? ["clean", "a.json"]
      = some (.file [0x30, 0x0a]) := by
    have found : (twoFiles [0x30] [0x31]).find? skipSettings.rawDir = .ok (some .directory) := rfl
    simp only [cleanDirectory, found, discover_twoFiles]
    with_unfolding_all rfl
  have changed : FileChanged (twoFiles [0x30] [0x31])
      (cleanDirectory skipSettings (twoFiles [0x30] [0x31])).tree ["clean", "a.json"] := by
    intro same
    cases (same _).1 made
  obtain ⟨ways, way, -, -, -, below⟩ := cleanDirectory_confined sound changed
  exact ⟨sound, changed, way, below (by decide)⟩

/-- A document beside the directory in which patterns start. -/
def besideTree : FileTree := ⟨[(["original"], .directory), (["x.json"], .file [0x30])], []⟩

/-- Takes that document. -/
def upwardSettings : Settings := { skipSettings with patterns := ["../x.json"] }

/-- The output of a document to which a pattern leads back is outside of the directory of the
outputs: here it is the document itself. -/
theorem cleanDirectory_outside : besideTree.Sound ∧
    (∃ outcomes, (cleanDirectory upwardSettings besideTree).result = .ok outcomes) ∧
    FileChanged besideTree (cleanDirectory upwardSettings besideTree).tree ["x.json"] ∧
    ¬ upwardSettings.cleanedDir.resolve besideTree.current <+: ["x.json"] := by
  have ways : besideTree.discover upwardSettings.rawDir upwardSettings.patterns
      = .ok [⟨.here, ["..", "x.json"]⟩] := by
    with_unfolding_all rfl
  have found : besideTree.find? upwardSettings.rawDir = .ok (some .directory) := rfl
  have run : (cleanDirectory upwardSettings besideTree).result = .ok
        [⟨⟨.here, ["original", "..", "x.json"]⟩, some ⟨.here, ["clean", "..", "x.json"]⟩,
          .cleaned none⟩] ∧
      (cleanDirectory upwardSettings besideTree).tree.at? ["x.json"]
        = some (.file [0x30, 0x0a]) := by
    simp only [cleanDirectory, found, ways]
    with_unfolding_all exact ⟨rfl, rfl⟩
  refine ⟨⟨by decide, by decide, by decide, by decide⟩, ⟨_, run.1⟩, fun same => ?_, by decide⟩
  have before := (same _).1 run.2
  cases before

end

end Batch

end PlainSchema
