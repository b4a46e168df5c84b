/-
PlainSchema/Proofs/Effects.lean

What one document's turn changes, wherever in a batch it comes.

Other documents can have made directories before, on the way to their outputs, and
have made, changed or removed files at them (`Grown`).  If no such output is at or
above the one of this document, or below it, the turn ends as it would have ended in
the tree before the batch, and it makes the same changes (`SameEffect`): a directory
that is made is there already at worst, and whatever is refused is refused for a
reason that stays.

A text is stored in two steps, and so is the proof: the directories
(`ensureParts_same`), then the file (`store_same`).
-/
import PlainSchema.Proofs.Confinement
import PlainSchema.Proofs.Ways

namespace PlainSchema

namespace FileTree

variable {t t' u u' r r' : FileTree} {p : Path} {anchor : Anchor} {front rest : List String}
  {part : String} {here place q last : Place} {e : FileFault} {outs : Place → Prop}
  {octets : List UInt8}

/-! ### What other documents can have done -/

/-- A tree to which another one can have come when files at some places are made, changed or
removed: directories on the way to these places are new where nothing was. -/
structure Grown (outs : Place → Prop) (t t' : FileTree) : Prop where
  sound : t'.Sound
  current : t'.current = t.current
  at? : ∀ q, t'.at? q = t.at? q ∨
    (t.at? q = none ∧ t'.at? q = some .directory ∧ ∃ out, outs out ∧ q <+: out ∧ q ≠ out) ∨
    (outs q ∧ t.isDirectoryAt q = false ∧ t'.isDirectoryAt q = false)

/-- Whether no output is at or above a place. -/
def Free (outs : Place → Prop) (place : Place) : Prop := ∀ q, q <+: place → ¬ outs q

theorem Free.of_prefix (h : Free outs place) (hq : q <+: place) : Free outs q := by
  intro q' hq'
  exact h q' (hq'.trans hq)

namespace Grown

theorem refl (hs : t.Sound) : Grown outs t t where
  sound := hs
  current := rfl
  at? _ := .inl rfl

theorem keeps (h : Grown outs t t') : Keeps [] outs t t' where
  sound := h.sound
  current := h.current
  directories q hq := by
    rw [isDirectoryAt_iff] at hq ⊢
    rcases h.at? q with same | ⟨none, -, -⟩ | ⟨-, file, -⟩
    · rw [same, hq]
    · cases none.symm.trans hq
    · cases file.symm.trans (isDirectoryAt_iff.2 hq)
  files q octets hq := by
    rcases h.at? q with same | ⟨none, made, -⟩ | ⟨out, -, -⟩
    · rw [same]
    · rw [none, made]
      simp
    · exact absurd out hq
  below _ _ hq := absurd List.nil_prefix hq

/-- What is at a place with no output at it is the same, unless it is a directory that is new. -/
theorem at?_of_not (h : Grown outs t t') (hq : ¬ outs q) :
    t'.at? q = t.at? q ∨ t.at? q = none ∧ t'.at? q = some .directory := by
  rcases h.at? q with same | ⟨none, made, -⟩ | ⟨out, -, -⟩
  · exact .inl same
  · exact .inr ⟨none, made⟩
  · exact absurd out hq

/-- Where nothing is on the way to a place, directories may be by now, but no file. -/
theorem follow_of_missing (h : Grown outs t t') (hs : t.Sound) (plain : ".." ∉ rest)
    (short : ∀ part ∈ rest, isTooLong part = false) (free : Free outs (here ++ rest))
    (hm : t.follow here rest = .error .missing) :
    t'.follow here rest = .error .missing ∨ t'.follow here rest = .ok (here ++ rest) := by
  induction rest generalizing here with
  | nil => cases hm
  | cons part rest ih =>
    rw [List.mem_cons, not_or] at plain
    obtain ⟨shortPart, shortRest⟩ := List.forall_mem_cons.1 short
    rw [List.append_cons] at free ⊢
    have onward : t'.at? here = some .directory →
        t'.follow here (part :: rest) = t'.follow (here ++ [part]) rest := by
      intro hd
      rw [FileTree.follow, hd]
      dsimp only
      rw [if_neg (Ne.symm plain.1), shortPart, if_neg Bool.false_ne_true]
    have free' : ¬ outs here := free here ((List.prefix_append _ _).trans (List.prefix_append _ _))
    rw [FileTree.follow] at hm
    rcases hq : t.at? here with - | - | octets <;> rw [hq] at hm
    · rcases h.at?_of_not free' with same | ⟨-, made⟩
      · left
        rw [FileTree.follow, same, hq]
      · rw [onward made]
        -- Nothing is below what is not there.
        have none : t.at? (here ++ [part]) = none := by
          by_contra hn
          have there := Option.isSome_iff_ne_none.2 hn
          have above := hs.parent there
          rw [List.dropLast_concat, isDirectoryAt_iff, hq] at above
          cases above
        cases rest with
        | nil =>
          rw [List.append_nil]
          exact .inr rfl
        | cons part' rest =>
          apply ih plain.2 shortRest free
          rw [FileTree.follow, none]
    · dsimp only at hm
      rw [if_neg (Ne.symm plain.1), shortPart, if_neg Bool.false_ne_true] at hm
      rw [onward (isDirectoryAt_iff.1 (h.keeps.directories here (isDirectoryAt_iff.2 hq)))]
      exact ih plain.2 shortRest free hm
    · cases hm

end Grown

/-! ### Directories on the way -/

/-- Whether the only changes to a tree are directories that are made on the way to a place. -/
def Paves (last : Place) (t t' : FileTree) : Prop :=
  ∀ q, t'.at? q = t.at? q ∨ t.at? q = none ∧ t'.at? q = some .directory ∧ q <+: last

theorem Paves.refl : Paves last t t := fun _ => .inl rfl

theorem Paves.trans (h : Paves last t t') (h' : Paves last t' u) : Paves last t u := by
  intro q
  rcases h' q with same | ⟨none, made, hq⟩
  · rw [same]
    exact h q
  · rcases h q with same' | ⟨-, made', -⟩
    · exact .inr ⟨same' ▸ none, made, hq⟩
    · cases none.symm.trans made'

theorem Paves.mono (h : Paves place t t') (hp : place <+: last) : Paves last t t' := by
  intro q
  rcases h q with same | ⟨none, made, hq⟩
  · exact .inl same
  · exact .inr ⟨none, made, hq.trans hp⟩

namespace Stands

theorem ensureDirectory_paves (h : Stands t anchor front here) (plain : ".." ∉ rest)
    (he : t.ensureDirectory ⟨anchor, front ++ rest⟩ = .ok t') : Paves (here ++ rest) t t' := by
  obtain ⟨place, hp, ⟨hf, rfl⟩ | ⟨-, rfl⟩⟩ := ensureDirectory_eq_ok_iff.1 he
  · obtain rfl := h.eq_of_place plain hp
    have named : here ++ rest ≠ [] := by
      intro hn
      rw [hn] at hf
      cases hf
    intro q
    rw [at?_put t named]
    split
    · next hq =>
      subst hq
      exact .inr ⟨hf, rfl, List.prefix_refl _⟩
    · exact .inl rfl
  · exact .refl

/-- Only directories on the way to a place are made, whether they are refused in the end or not. -/
theorem ensureParts_paves (h : Stands t anchor front here) (plain : ".." ∉ rest) :
    Paves (here ++ rest) t (t.ensureParts anchor (front ++ rest)).1 := by
  apply And.right
  apply (h.ensureParts_induction (motive := fun u => Keeps [] (fun _ => False) t u ∧
    Paves (here ++ rest) t u) ⟨.refl h.sound, .refl⟩ _).1
  rintro xs hx u u' ⟨kept, paved⟩ he
  have plain' : ".." ∉ xs := fun hm => plain (hx.subset hm)
  have next := (h.keeps kept).ensureDirectory_paves plain' he
  exact ⟨kept.trans (kept.sound.ensureDirectory_keeps he),
    paved.trans (next.mono ((List.prefix_append_right_inj here).2 hx))⟩

/-- Where a way is made, its path leads to a directory. -/
theorem leads_of_ensureParts (h : Stands t anchor front here) (plain : ".." ∉ rest)
    (hk : t.ensureParts anchor (front ++ rest) = (u, .ok ())) :
    Keeps [] (fun _ => False) t u ∧ u.place ⟨anchor, front ++ rest⟩ = .ok (here ++ rest) ∧
      u.isDirectoryAt (here ++ rest) = true := by
  have near : ∀ v, v <+: rest → here ++ v <+: [] ∨ [] <+: here ++ v :=
    fun v _ => .inr List.nil_prefix
  obtain ⟨kept, leads⟩ := h.ensureParts_keeps plain near
  rw [hk] at kept leads
  obtain ⟨place, hp, hd⟩ := leadsToDirectory_iff.1 (leads rfl)
  obtain rfl := (h.keeps kept).eq_of_place plain hp
  exact ⟨kept, hp, hd⟩

/-- Where a way is made, every place on it is a directory, and all else is as before. -/
theorem at?_of_ensureParts (h : Stands t anchor front here) (plain : ".." ∉ rest)
    (hk : t.ensureParts anchor (front ++ rest) = (u, .ok ())) (q : Place) :
    (q <+: here ++ rest ∧ u.at? q = some .directory) ∨
      (¬ q <+: here ++ rest ∧ u.at? q = t.at? q) := by
  have paved := h.ensureParts_paves plain
  rw [hk] at paved
  obtain ⟨kept, -, hd⟩ := h.leads_of_ensureParts plain hk
  by_cases hq : q <+: here ++ rest
  · left
    refine ⟨hq, ?_⟩
    by_cases hl : q = here ++ rest
    · rw [hl]
      exact isDirectoryAt_iff.1 hd
    · apply isDirectoryAt_iff.1
      apply kept.sound.directory_of_prefix _ hq hl
      rw [isDirectoryAt_iff.1 hd]
      rfl
  · right
    rcases paved q with same | ⟨-, -, hq'⟩
    · exact ⟨hq, same⟩
    · exact absurd hq' hq

/-- A place is not at or above the directory that it is in. -/
theorem not_prefix : ¬ here ++ (rest ++ [part]) <+: here ++ rest := by
  intro hp
  have := hp.length_le
  simp only [List.length_append, List.length_singleton] at this
  omega

/-- The way ends above the file, so that the same is at its place as before. -/
theorem at?_end_of_ensureParts (h : Stands t anchor front here) (plain : ".." ∉ rest)
    (hk : t.ensureParts anchor (front ++ rest) = (u, .ok ())) (part : String) :
    u.at? (here ++ (rest ++ [part])) = t.at? (here ++ (rest ++ [part])) := by
  rcases h.at?_of_ensureParts plain hk (here ++ (rest ++ [part])) with ⟨hq, -⟩ | ⟨-, same⟩
  · exact absurd hq not_prefix
  · exact same

/-- Where no name is too long, directories are made as they would have been made before, or they are
refused as before and nothing is made. -/
theorem ensureParts_same (h : Stands t anchor front here) (hg : Grown outs t t')
    (plain : ".." ∉ rest) (free : Free outs (here ++ rest))
    (short : (Path.mk anchor (front ++ rest)).IsFollowed → t.follow here rest = .error .missing →
      ∀ part ∈ rest, isTooLong part = false) :
    (∃ u u', t.ensureParts anchor (front ++ rest) = (u, .ok ()) ∧
      t'.ensureParts anchor (front ++ rest) = (u', .ok ())) ∨
    ∃ e, t.ensureParts anchor (front ++ rest) = (t, .error e) ∧
      t'.ensureParts anchor (front ++ rest) = (t', .error e) := by
  have h' := h.keeps hg.keeps
  -- Nothing but a file at the end can be in the way where the path leads somewhere.
  have made : ∀ {v : FileTree}, v.place ⟨anchor, front ++ rest⟩ = .ok (here ++ rest) →
      v.at? (here ++ rest) = none ∨ v.at? (here ++ rest) = some .directory →
      ∃ v', v.ensureParts anchor (front ++ rest) = (v', .ok ()) := by
    intro v hp hv
    rw [ensureParts]
    rcases hv with hv | hv
    · rw [ensureDirectory_of_none hp hv]
      exact ⟨_, rfl⟩
    · rw [ensureDirectory_of_directory hp hv]
      exact ⟨_, rfl⟩
  have ends := hg.at?_of_not (free _ (List.prefix_refl _))
  by_cases hm : t.place ⟨anchor, front ++ rest⟩ = .error (.refused .missing ⟨anchor, front ++ rest⟩)
  · left
    obtain ⟨-, followed, hf⟩ := h.place_missing_iff.1 hm
    have short := short followed hf
    have first := h.ensureParts_of_place_missing plain short hm
    have second : ∃ u', t'.ensureParts anchor (front ++ rest) = (u', .ok ()) := by
      rcases hg.follow_of_missing h.sound plain short free hf with hf' | hf'
      · have hm' := h'.place_missing_iff.2 ⟨rfl, followed, hf'⟩
        exact ⟨_, Prod.ext rfl (h'.ensureParts_of_place_missing plain short hm')⟩
      · have none : t.at? (here ++ rest) = none := h.sound.at?_of_follow_error hf plain (by decide)
        apply made (h'.place_ok_iff.2 ⟨followed, hf'⟩)
        rcases ends with same | ⟨-, directory⟩
        · exact .inl (same.trans none)
        · exact .inr directory
    obtain ⟨u', second⟩ := second
    exact ⟨_, u', Prod.ext rfl first, second⟩
  · rcases hd : t.ensureDirectory ⟨anchor, front ++ rest⟩ with e | u
    · right
      have untouched : ∀ xs, xs <+: rest → ¬ outs (here ++ xs) := by
        intro xs hx
        exact free _ ((List.prefix_append_right_inj here).2 hx)
      obtain ⟨hd', hm'⟩ := h.ensureParts_stays hg.keeps plain untouched hd hm
      exact ⟨e, ensureParts_of_ensureDirectory_error hd hm,
        ensureParts_of_ensureDirectory_error hd' hm'⟩
    · left
      obtain ⟨place, hp, there⟩ := ensureDirectory_eq_ok_iff.1 hd
      obtain rfl := h.eq_of_place plain hp
      have there : t.at? (here ++ rest) = none ∨ t.at? (here ++ rest) = some .directory :=
        there.imp And.left And.left
      obtain ⟨v, first⟩ := made hp there
      have there' : t'.at? (here ++ rest) = none ∨ t'.at? (here ++ rest) = some .directory := by
        rcases ends with same | ⟨-, directory⟩
        · rwa [same]
        · exact .inr directory
      obtain ⟨v', second⟩ := made (hg.keeps.place_eq_ok hp) there'
      exact ⟨v, v', first, second⟩

end Stands

/-! ### The place of an output -/

theorem find?_of_place_error (h : t.place p = .error e) (h' : t'.place p = .error e) :
    t'.find? p = t.find? p := by
  rw [find?, find?, h, h']
  rcases e with ⟨why, q⟩ | -
  · cases why <;> rfl
  · rfl

/-- A path that a file is written to: what it starts with leads to a directory, and what is left of
it has no dots that lead back. -/
structure Target (t : FileTree) (p : Path) (front rest : List String) (part : String)
    (here : Place) : Prop where
  parts : p.parts = front ++ (rest ++ [part])
  stands : t.Stands p.anchor front here
  plain : ".." ∉ rest ++ [part]
  /-- No name on the way is too long, if directories are missing there. -/
  short : (Path.mk p.anchor (front ++ rest)).IsFollowed →
    t.follow here (rest ++ [part]) = .error .missing →
    ∀ name ∈ rest ++ [part], isTooLong name = false

namespace Target

theorem eq_mk (h : t.Target p front rest part here) :
    p = ⟨p.anchor, front ++ (rest ++ [part])⟩ := by
  rw [← h.parts]

theorem parent_eq (h : t.Target p front rest part here) :
    p.parent = ⟨p.anchor, front ++ rest⟩ := by
  rw [Path.parent, h.parts, ← List.append_assoc, List.dropLast_concat]

theorem plain_rest (h : t.Target p front rest part here) : ".." ∉ rest :=
  fun hm => h.plain (List.mem_append_left _ hm)

theorem eq_of_place (h : t.Target p front rest part here) (hp : t.place p = .ok place) :
    place = here ++ (rest ++ [part]) := by
  rw [h.eq_mk] at hp
  exact h.stands.eq_of_place h.plain hp

/-- The place of the file is resolved from its path. -/
theorem resolve_eq (h : t.Target p front rest part here) :
    p.resolve t.current = here ++ (rest ++ [part]) := by
  have start : Path.walk (t.start p) front = here := (eq_walk_of_follow h.stands.reaches).symm
  rw [h.stands.sound.resolve_eq_walk, h.parts, Path.walk_append, start, Path.walk_of_plain h.plain]

/-- Directories are made as before, or nothing is. -/
theorem makeDirectories_same (h : t.Target p front rest part here) (hg : Grown outs t t')
    (free : Free outs (here ++ (rest ++ [part]))) :
    (∃ u u', t.makeDirectories p.parent = (u, .ok ()) ∧
      t'.makeDirectories p.parent = (u', .ok ())) ∨
    ∃ e, t.makeDirectories p.parent = (t, .error e) ∧
      t'.makeDirectories p.parent = (t', .error e) := by
  have above : here ++ rest <+: here ++ (rest ++ [part]) :=
    (List.prefix_append_right_inj here).2 (List.prefix_append _ _)
  rw [makeDirectories, makeDirectories, h.parent_eq]
  apply h.stands.ensureParts_same hg h.plain_rest (free.of_prefix above)
  intro followed missing name hm
  apply h.short followed _ name (List.mem_append_left _ hm)
  rw [follow_append, missing]
  rfl

/-- What is found at the output is what was found there before. -/
theorem find?_same (h : t.Target p front rest part here) (hg : Grown outs t t')
    (free : Free outs (here ++ (rest ++ [part])))
    (ends : t'.at? (here ++ (rest ++ [part])) = t.at? (here ++ (rest ++ [part]))) :
    t'.find? p = t.find? p := by
  by_cases followed : p.IsFollowed
  · have split : ∀ {v : FileTree}, Stands v p.anchor front here →
        v.follow (v.start p) p.parts = v.follow here (rest ++ [part]) := by
      intro v hv
      rw [h.parts]
      exact hv.follow_append (rest ++ [part])
    have h' := h.stands.keeps hg.keeps
    by_cases hm : t.follow here (rest ++ [part]) = .error .missing
    · -- What was missing is missing still, or its directory is there and nothing in it.
      have nothing : t.at? (here ++ (rest ++ [part])) = none :=
        h.stands.sound.at?_of_follow_error hm h.plain (by decide)
      have first : t.find? p = .ok none := by
        rw [find?, place_of_isFollowed followed, split h.stands, hm]
        rfl
      have above : (Path.mk p.anchor (front ++ rest)).IsFollowed := by
        have whole : (Path.mk p.anchor (front ++ rest ++ [part])).IsFollowed := by
          rw [List.append_assoc, ← h.parts]
          exact followed
        exact whole.of_concat
      rw [first, find?, place_of_isFollowed followed, split h']
      rcases hg.follow_of_missing h.stands.sound h.plain (h.short above hm) free hm with hf | hf
      · rw [hf]
        rfl
      · rw [hf]
        show Except.ok (t'.at? _) = _
        rw [ends, nothing]
    · have same : t'.place p = t.place p := by
        apply place_congr
        rw [split h', split h.stands]
        apply hg.keeps.follow_eq h.plain _ hm
        intro xs hx
        exact free _ ((List.prefix_append_right_inj here).2 hx)
      rcases hp : t.place p with e | place
      · exact find?_of_place_error hp (same.trans hp)
      · obtain rfl := h.eq_of_place hp
        rw [find?, find?, same, hp]
        exact congrArg _ ends
  · obtain ⟨e, he, -⟩ := place_of_not_isFollowed followed
    exact find?_of_place_error (he t) (he t')

end Target

/-! ### The same changes -/

/-- Whether two trees are changed alike: what the first change makes another of, the second makes
the same, and it leaves all else. -/
def SameEffect (t r t' r' : FileTree) : Prop :=
  ∀ q, r.at? q = t.at? q ∧ r'.at? q = t'.at? q ∨ r.at? q ≠ t.at? q ∧ r'.at? q = r.at? q

theorem SameEffect.refl : SameEffect t t t' t' := fun _ => .inl ⟨rfl, rfl⟩

/-- Two trees in which the same lies at a place are changed alike if the same is put there, and
everything else is changed alike. -/
theorem SameEffect.of_place (target : Place) (before : t'.at? target = t.at? target)
    (after : r'.at? target = r.at? target)
    (others : ∀ q, q ≠ target → r.at? q = t.at? q ∧ r'.at? q = t'.at? q ∨
      r.at? q ≠ t.at? q ∧ r'.at? q = r.at? q) : SameEffect t r t' r' := by
  intro q
  by_cases hq : q = target
  · subst hq
    by_cases hr : r.at? q = t.at? q
    · exact .inl ⟨hr, after.trans (hr.trans before.symm)⟩
    · exact .inr ⟨hr, after⟩
  · exact others q hq

namespace Stands

/-- Two trees are changed alike when the same way is made in them. -/
theorem sameEffect_of_ensureParts (h : Stands t anchor front here) (hg : Grown outs t t')
    (plain : ".." ∉ rest) (free : Free outs (here ++ rest))
    (hk : t.ensureParts anchor (front ++ rest) = (u, .ok ()))
    (hk' : t'.ensureParts anchor (front ++ rest) = (u', .ok ())) : SameEffect t u t' u' := by
  intro q
  rcases h.at?_of_ensureParts plain hk q with ⟨hq, hu⟩ | ⟨hq, hu⟩ <;>
    rcases (h.keeps hg.keeps).at?_of_ensureParts plain hk' q with ⟨hq', hu'⟩ | ⟨hq', hu'⟩
  · by_cases same : u.at? q = t.at? q
    · left
      refine ⟨same, ?_⟩
      rcases hg.at?_of_not (free q hq) with unchanged | ⟨-, made⟩
      · rw [hu', unchanged, ← same, hu]
      · rw [hu', made]
    · exact .inr ⟨same, hu'.trans hu.symm⟩
  · exact absurd hq hq'
  · exact absurd hq' hq
  · exact .inl ⟨hu, hu'⟩

end Stands

/-! ### Files -/

/-- A file is written to two trees, or to none of them, if they have the same at its place. -/
theorem write_same (octets : List UInt8) (hp : u'.place p = u.place p)
    (ends : ∀ place, u.place p = .ok place → u'.at? place = u.at? place) :
    (∃ place, u.place p = .ok place ∧ u.isDirectoryAt place = false ∧
      u.write p octets = .ok (u.put place (.file octets)) ∧
      u'.write p octets = .ok (u'.put place (.file octets))) ∨
    ∃ e, u.write p octets = .error e ∧ u'.write p octets = .error e := by
  rcases hq : u.place p with e | place
  · right
    exact ⟨e, by rw [write, hq], by rw [write, hp, hq]⟩
  have same := ends place hq
  rcases hd : u.isDirectoryAt place
  · left
    have hd' : u'.isDirectoryAt place = false := by rwa [isDirectoryAt, same]
    exact ⟨place, rfl, hd, write_eq_ok_iff.2 ⟨place, hq, hd, rfl⟩,
      write_eq_ok_iff.2 ⟨place, hp.trans hq, hd', rfl⟩⟩
  · right
    rw [isDirectoryAt_iff] at hd
    rw [hd] at same
    refine ⟨.refused .isDirectory p, ?_, ?_⟩
    · rw [write, hq]
      dsimp only
      rw [hd]
    · rw [write, hp, hq]
      dsimp only
      rw [same]

end FileTree

namespace Document

open FileTree (Grown Free Target SameEffect Keeps)

variable {t t' u u' : FileTree} {p : Path} {front rest : List String} {part : String} {here : Place}
  {outs : Place → Prop} {text : List Char}

/-- A text is stored as it would have been stored before, or refused as before. -/
theorem store_same (h : t.Target p front rest part here) (hg : Grown outs t t')
    (free : Free outs (here ++ (rest ++ [part])))
    (ends : t'.at? (here ++ (rest ++ [part])) = t.at? (here ++ (rest ++ [part])))
    (text : List Char) :
    (store t' p text).2 = (store t p text).2 ∧
      SameEffect t (store t p text).1 t' (store t' p text).1 := by
  have above : here ++ rest <+: here ++ (rest ++ [part]) :=
    (List.prefix_append_right_inj here).2 (List.prefix_append _ _)
  rcases h.makeDirectories_same hg free with ⟨u, u', hk, hk'⟩ | ⟨e, he, he'⟩
  · have h' := h.stands.keeps hg.keeps
    have made : t.ensureParts p.anchor (front ++ rest) = (u, .ok ()) := by
      rw [← hk, FileTree.makeDirectories, h.parent_eq]
    have made' : t'.ensureParts p.anchor (front ++ rest) = (u', .ok ()) := by
      rw [← hk', FileTree.makeDirectories, h.parent_eq]
    have effect := h.stands.sameEffect_of_ensureParts hg h.plain_rest (free.of_prefix above) made made'
    obtain ⟨kept, hp, hd⟩ := h.stands.leads_of_ensureParts h.plain_rest made
    obtain ⟨kept', hp', hd'⟩ := h'.leads_of_ensureParts h.plain_rest made'
    have places : u'.place p = u.place p := by
      have current : u'.current = u.current := by rw [kept'.current, hg.current, kept.current]
      have named : p.parts ≠ [] := by
        rw [h.parts]
        simp
      rw [← h.parent_eq] at hp hp'
      exact FileTree.place_eq_of_parent current named hp hp' hd hd'
    have target : ∀ place, u.place p = .ok place → place = here ++ (rest ++ [part]) := by
      intro place hq
      rw [h.eq_mk] at hq
      exact (h.stands.keeps kept).eq_of_place h.plain hq
    have same : ∀ place, u.place p = .ok place → u'.at? place = u.at? place := by
      intro place hq
      rw [target place hq, h'.at?_end_of_ensureParts h.plain_rest made',
        h.stands.at?_end_of_ensureParts h.plain_rest made, ends]
    rcases FileTree.write_same (Text.encodeUtf8 text) places same with
      ⟨place, hq, hn, hw, hw'⟩ | ⟨e, hw, hw'⟩
    · rw [store_of_write hk hw, store_of_write hk' hw']
      obtain rfl := target place hq
      have named : here ++ (rest ++ [part]) ≠ [] := by simp
      refine ⟨rfl, .of_place (here ++ (rest ++ [part])) ends ?_ fun q hne => ?_⟩
      · rw [FileTree.at?_put _ named, FileTree.at?_put _ named, if_pos rfl, if_pos rfl]
      · rw [FileTree.at?_put _ named, FileTree.at?_put _ named, if_neg (Ne.symm hne),
          if_neg (Ne.symm hne)]
        exact effect q
    · rw [store_of_write_error hk hw, store_of_write_error hk' hw']
      exact ⟨rfl, effect⟩
  · rw [store_of_makeDirectories he, store_of_makeDirectories he']
    exact ⟨rfl, .refl⟩

/-- A text that is stored is at the place of its path, below directories. -/
theorem store_grown (h : t.Target p front rest part here) (text : List Char) :
    Grown (· = here ++ (rest ++ [part])) t (store t p text).1 := by
  have kept := store_keeps h.stands.sound p text
  refine ⟨kept.sound, kept.current, fun q => ?_⟩
  have none : Grown (fun _ => False) t t := .refl h.stands.sound
  rcases h.makeDirectories_same none fun _ _ => not_false with ⟨u, -, hk, -⟩ | ⟨e, he, -⟩
  · have made : t.ensureParts p.anchor (front ++ rest) = (u, .ok ()) := by
      rw [← hk, FileTree.makeDirectories, h.parent_eq]
    obtain ⟨kept, -, -⟩ := h.stands.leads_of_ensureParts h.plain_rest made
    have paved := h.stands.ensureParts_paves h.plain_rest
    rw [made] at paved
    have way : u.at? q = t.at? q ∨ t.at? q = Option.none ∧ u.at? q = some .directory ∧
        ∃ out, out = here ++ (rest ++ [part]) ∧ q <+: out ∧ q ≠ out := by
      rcases paved q with same | ⟨none, made, hq⟩
      · exact .inl same
      · right
        refine ⟨none, made, _, rfl, hq.trans ?_, ?_⟩
        · exact (List.prefix_append_right_inj here).2 (List.prefix_append _ _)
        · rintro rfl
          exact FileTree.Stands.not_prefix hq
    rcases FileTree.write_same (Text.encodeUtf8 text) (rfl : u.place p = u.place p)
      fun _ _ => rfl with ⟨place, hq, hn, hw, -⟩ | ⟨e, hw, -⟩
    · rw [store_of_write hk hw]
      have target : place = here ++ (rest ++ [part]) := by
        rw [h.eq_mk] at hq
        exact (h.stands.keeps kept).eq_of_place h.plain hq
      have named : place ≠ [] := by
        rw [target]
        simp
      rw [FileTree.at?_put _ named]
      split
      · next hpq =>
        right
        right
        subst hpq
        refine ⟨target, ?_, ?_⟩
        · rw [FileTree.isDirectoryAt, target,
            ← h.stands.at?_end_of_ensureParts h.plain_rest made, ← target]
          exact hn
        · rw [FileTree.isDirectoryAt, FileTree.at?_put _ named, if_pos rfl]
          rfl
      · exact way.imp id .inl
    · rw [store_of_write_error hk hw]
      exact way.imp id .inl
  · rw [store_of_makeDirectories he]
    exact .inl rfl

end Document

namespace Batch

open FileTree (Grown Free Target SameEffect)

variable {s : Settings} {t t' : FileTree} {p way : Path} {front rest : List String} {part : String}
  {here : Place} {outs : Place → Prop}

/-! ### One document's turn -/

/-- The file that an earlier run left is removed as it would have been removed before. -/
theorem removeStale_same (h : t.Target p front rest part here) (hg : Grown outs t t')
    (free : Free outs (here ++ (rest ++ [part])))
    (ends : t'.at? (here ++ (rest ++ [part])) = t.at? (here ++ (rest ++ [part]))) :
    (removeStale t' p).result = (removeStale t p).result ∧
      SameEffect t (removeStale t p).tree t' (removeStale t' p).tree := by
  have found := h.find?_same hg free ends
  rcases hf : t.find? p with e | - | - | octets <;> rw [hf] at found
  · simp only [removeStale, found, hf]
    exact ⟨trivial, .refl⟩
  · simp only [removeStale, found, hf]
    exact ⟨trivial, .refl⟩
  · simp only [removeStale, found, hf]
    exact ⟨trivial, .refl⟩
  · obtain ⟨place, hp, hr⟩ := FileTree.remove_of_find? hf
    obtain ⟨place', hp', hr'⟩ := FileTree.remove_of_find? found
    obtain rfl := h.eq_of_place hp
    rw [hg.keeps.place_eq_ok hp] at hp'
    obtain rfl := Except.ok.inj hp'
    have named : here ++ (rest ++ [part]) ≠ [] := by simp
    simp only [removeStale, found, hf, hr, hr']
    refine ⟨trivial, .of_place (here ++ (rest ++ [part])) ends ?_ fun q hne => ?_⟩
    · rw [FileTree.at?_drop _ named, FileTree.at?_drop _ named, if_pos rfl, if_pos rfl]
    · rw [FileTree.at?_drop _ named, FileTree.at?_drop _ named, if_neg (Ne.symm hne),
        if_neg (Ne.symm hne)]
      exact .inl ⟨rfl, rfl⟩

/-- Only the file at the place of its path is removed. -/
theorem removeStale_grown (h : t.Target p front rest part here) :
    Grown (· = here ++ (rest ++ [part])) t (removeStale t p).tree := by
  have kept := removeStale_keeps h.stands.sound p
  refine ⟨kept.sound, kept.current, fun q => ?_⟩
  by_cases hf : ∃ octets, t.find? p = .ok (some (.file octets))
  · obtain ⟨octets, hf⟩ := hf
    obtain ⟨place, hp, hr⟩ := FileTree.remove_of_find? hf
    obtain ⟨place', hp', file⟩ := FileTree.find?_eq_some_iff.1 hf
    obtain rfl := Except.ok.inj (hp.symm.trans hp')
    obtain rfl := h.eq_of_place hp
    have named : here ++ (rest ++ [part]) ≠ [] := by simp
    simp only [removeStale, hf, hr, FileTree.at?_drop _ named]
    split
    · next hq =>
      subst hq
      right
      right
      refine ⟨rfl, ?_, ?_⟩
      · rw [FileTree.isDirectoryAt, file]
        rfl
      · rw [FileTree.isDirectoryAt, FileTree.at?_drop _ named, if_pos rfl]
        rfl
    · exact .inl rfl
  · rw [removeStale_of_no_file (not_exists.1 hf)]
    exact .inl rfl

/-- The output of a document that can be read is somewhere. -/
def HasTarget (s : Settings) (t : FileTree) (way : Path) : Prop :=
  ∀ octets, t.read (s.rawDir.join way) = .ok octets →
    ∃ front rest part here, t.Target (s.cleanedDir.join way) front rest part here

/-- **A turn ends as it would have ended before the batch**, and makes the same changes. -/
theorem cleanOne_same [SetOrder] (h : HasTarget s t way) (hg : Grown outs t t')
    (input : t'.read (s.rawDir.join way) = t.read (s.rawDir.join way))
    (free : Free outs ((s.cleanedDir.join way).resolve t.current))
    (ends : t'.at? ((s.cleanedDir.join way).resolve t.current)
      = t.at? ((s.cleanedDir.join way).resolve t.current)) :
    (cleanOne s t' way).result = (cleanOne s t way).result ∧
      SameEffect t (cleanOne s t way).tree t' (cleanOne s t' way).tree := by
  have asked : wanted t' (s.rawDir.join way) (s.cleanedDir.join way)
      = wanted t (s.rawDir.join way) (s.cleanedDir.join way) := wanted_congr input
  rcases hw : wanted t (s.rawDir.join way) (s.cleanedDir.join way) with e | text? <;>
    rw [hw] at asked
  · obtain ⟨ht, hr⟩ := cleanOne_of_wanted_error hw
    obtain ⟨ht', hr'⟩ := cleanOne_of_wanted_error asked
    rw [ht, hr, ht', hr']
    exact ⟨rfl, .refl⟩
  obtain ⟨octets, ho⟩ := read_of_wanted hw
  obtain ⟨front, rest, part, here, h⟩ := h octets ho
  rw [h.resolve_eq] at free ends
  cases text? with
  | none =>
    obtain ⟨ht, hr⟩ := cleanOne_of_wanted_none hw
    obtain ⟨ht', hr'⟩ := cleanOne_of_wanted_none asked
    obtain ⟨result, effect⟩ := removeStale_same h hg free ends
    rw [ht, hr, ht', hr', result]
    exact ⟨rfl, effect⟩
  | some text =>
    obtain ⟨ht, hr⟩ := cleanOne_of_wanted_text hw
    obtain ⟨ht', hr'⟩ := cleanOne_of_wanted_text asked
    obtain ⟨result, effect⟩ := Document.store_same h hg free ends text
    rw [ht, hr, ht', hr', result]
    exact ⟨rfl, effect⟩

/-- A turn changes the tree at its output, and makes directories on the way to it. -/
theorem cleanOne_grown [SetOrder] (hs : t.Sound) (h : HasTarget s t way) :
    Grown (· = (s.cleanedDir.join way).resolve t.current) t (cleanOne s t way).tree := by
  rcases hw : wanted t (s.rawDir.join way) (s.cleanedDir.join way) with e | text?
  · rw [(cleanOne_of_wanted_error hw).1]
    exact .refl hs
  obtain ⟨octets, ho⟩ := read_of_wanted hw
  obtain ⟨front, rest, part, here, h⟩ := h octets ho
  rw [h.resolve_eq]
  cases text? with
  | none =>
    rw [(cleanOne_of_wanted_none hw).1]
    exact removeStale_grown h
  | some text =>
    rw [(cleanOne_of_wanted_text hw).1]
    exact Document.store_grown h text

end Batch

end PlainSchema
