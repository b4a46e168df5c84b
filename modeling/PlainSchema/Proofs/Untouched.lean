/-
PlainSchema/Proofs/Untouched.lean

What the cleaning of one file leaves of the tree of files when it fails, or when there
is nothing to write.

The tree is not touched before the text of the clean document is known (`wanted`), so
a document that cannot be read or cleaned, or has no text then, leaves no trace.  After
that there are two steps: the directories on the way to the output are made, and the
file is written.  The file is the last thing that happens, and it is written whole or
refused.  So a failure leaves new directories at most (`store_failed`), each of them on
the way to the output; making directories recurses on the parts of the path, and so
does the proof about it (`ensureParts_furnishes`).  There is always room for a file
that is opened, so none is left behind half written.

No tree has to be sound for that: what is refused is refused whatever the entries are.
-/
import PlainSchema.Proofs.Confinement

namespace PlainSchema

namespace FileTree

variable {t t' u : FileTree} {p : Path} {anchor : Anchor} {parts xs : List String}
  {way way' : Place → Prop} {q : Place}

/-! ### Trees with more directories -/

/-- Whether the only changes to a tree are new directories, at some of the places in question. -/
structure Furnishes (way : Place → Prop) (t t' : FileTree) : Prop where
  current : t'.current = t.current
  at? : ∀ q, t'.at? q = t.at? q ∨ t.at? q = none ∧ t'.at? q = some .directory ∧ way q

namespace Furnishes

theorem refl : Furnishes way t t := ⟨rfl, fun _ => .inl rfl⟩

theorem mono (h : Furnishes way t t') (hw : ∀ q, way q → way' q) : Furnishes way' t t' where
  current := h.current
  at? q := (h.at? q).imp_right fun ⟨absent, made, hq⟩ => ⟨absent, made, hw q hq⟩

theorem trans (h : Furnishes way t t') (h' : Furnishes way t' u) : Furnishes way t u where
  current := h'.current.trans h.current
  at? q := by
    rcases h'.at? q with same | ⟨none, made, hq⟩
    · rw [same]
      exact h.at? q
    · rcases h.at? q with same' | ⟨-, made', -⟩
      · exact .inr ⟨same' ▸ none, made, hq⟩
      · cases none.symm.trans made'

/-- No file is another one. -/
theorem not_fileChanged (h : Furnishes way t t') (q : Place) : ¬ Batch.FileChanged t t' q := by
  refine not_not_intro fun octets => ?_
  rcases h.at? q with same | ⟨none, made, -⟩
  · rw [same]
  · rw [none, made]
    exact iff_of_false nofun nofun

end Furnishes

/-- The places on the way to where a path leads: those of the parts at its front. -/
def OnWay (t : FileTree) (p : Path) (q : Place) : Prop :=
  ∃ xs, xs <+: p.parts ∧ q = Path.walk (t.start p) xs

theorem OnWay.of_prefix (hx : xs <+: parts) (hq : t.OnWay ⟨anchor, xs⟩ q) :
    t.OnWay ⟨anchor, parts⟩ q := by
  obtain ⟨ys, hy, e⟩ := hq
  exact ⟨ys, hy.trans hx, e⟩

/-! ### Making directories -/

theorem ensureDirectory_furnishes (h : t.ensureDirectory p = .ok t') :
    Furnishes (t.OnWay p) t t' := by
  obtain ⟨place, hp, ⟨hf, rfl⟩ | ⟨-, rfl⟩⟩ := ensureDirectory_eq_ok_iff.1 h
  · have named : place ≠ [] := by
      rintro rfl
      cases hf
    refine ⟨rfl, fun q => ?_⟩
    rw [at?_put t named]
    split
    · next hq =>
      subst hq
      exact .inr ⟨hf, rfl, p.parts, List.prefix_refl _, eq_walk_of_follow (place_eq_ok_iff.1 hp).2⟩
    · exact .inl rfl
  · exact .refl

/-- Directories are made on the way to a path, whether they are refused in the end or not. -/
theorem ensureParts_furnishes (t : FileTree) (anchor : Anchor) (parts : List String) :
    Furnishes (t.OnWay ⟨anchor, parts⟩) t (t.ensureParts anchor parts).1 := by
  induction parts using List.reverseRecOn with
  | nil =>
    rw [ensureParts]
    split
    · next he => exact ensureDirectory_furnishes he
    · exact .refl
    · exact .refl
  | append_singleton parts part ih =>
    rcases he : t.ensureDirectory ⟨anchor, parts ++ [part]⟩ with e | t'
    · by_cases hm : ∃ q, e = .refused .missing q
      · obtain ⟨q, rfl⟩ := hm
        have above := ih.mono fun q hq => OnWay.of_prefix (List.prefix_append _ [part]) hq
        rw [ensureParts_of_missing he]
        split
        · next ht => rwa [ht] at above
        · next u ht =>
          rw [ht] at above
          split
          · next u' hu =>
            -- The places on the way are the same ones in the tree with the directories above.
            refine above.trans ((ensureDirectory_furnishes hu).mono fun q hq => ?_)
            rwa [OnWay, start, above.current, ← start] at hq
          · exact above
      · rw [ensureParts_of_ensureDirectory_error he]
        · exact .refl
        · intro hp
          exact hm ⟨_, Except.error.inj (he.symm.trans (ensureDirectory_of_place_error hp))⟩
    · rw [ensureParts, he]
      exact ensureDirectory_furnishes he

end FileTree

namespace Document

open FileTree (Furnishes)

variable {t : FileTree} {p : Path} {text : List Char} {e : Failure}

/-- A text that cannot be stored leaves new directories above its file at most. -/
theorem store_failed (h : (store t p text).2 = .error e) :
    Furnishes (t.OnWay p.parent) t (store t p text).1 := by
  have made : Furnishes (t.OnWay p.parent) t (t.makeDirectories p.parent).1 :=
    FileTree.ensureParts_furnishes t p.anchor p.parent.parts
  rcases hd : t.makeDirectories p.parent with ⟨t', why | ⟨⟩⟩ <;> rw [hd] at made
  · rwa [store_of_makeDirectories hd]
  rcases hw : t'.write p (Text.encodeUtf8 text) with why | t''
  · rwa [store_of_write_error hd hw]
  · rw [store_of_write hd hw] at h
    cases h

end Document

namespace Batch

open FileTree (Furnishes)

variable {t : FileTree} {input output : Path} {e : Failure} {outcome : Outcome}

section

variable [SetOrder]

/-- Without an output nothing is written. -/
theorem cleanFile_of_no_output (t : FileTree) (input : Path) :
    (cleanFile t input none).tree = t := by
  unfold cleanFile
  split
  · rfl
  · dsimp only
    split <;> rfl

/-- A document that is pruned leaves the tree as it is. -/
theorem cleanFile_of_pruned (h : (cleanFile t input (some output)).result = .ok outcome)
    (hp : outcome.fate = .pruned) : (cleanFile t input (some output)).tree = t := by
  rcases hw : wanted t input output with e | - | text
  · exact (cleanFile_of_wanted_error hw).1
  · exact (cleanFile_of_wanted_none hw).1
  · obtain ⟨⟨⟩, -, rfl⟩ := map_eq_ok_iff.1 ((cleanFile_of_wanted_text hw).2.symm.trans h)
    cases hp

/-- A failure leaves the tree as it is, unless the text was known and could not be stored. -/
theorem cleanFile_of_failed (h : (cleanFile t input (some output)).result = .error e) :
    (cleanFile t input (some output)).tree = t ∨
      (∃ text, wanted t input output = .ok (some text)) ∧
        Furnishes (t.OnWay output.parent) t (cleanFile t input (some output)).tree := by
  rcases hw : wanted t input output with e' | - | text
  · exact .inl (cleanFile_of_wanted_error hw).1
  · exact .inl (cleanFile_of_wanted_none hw).1
  · obtain ⟨tree, result⟩ := cleanFile_of_wanted_text hw
    rw [tree]
    exact .inr ⟨⟨text, rfl⟩, Document.store_failed (map_eq_error_iff.1 (result.symm.trans h))⟩

/-- **What is left of the tree by a run that writes no document.**  A failure changes no file.  It
can leave new directories on the way to the output, and that only if the document was read,
cleaned and had its text.  A run that finds nothing left of the document leaves the tree as it is,
and so does a run without an output.  The tree has no links, and writing a file that is opened does
not fail. -/
theorem cleanFile_untouched (t : FileTree) (input : Path) (output : Option Path) :
    (∀ e, (cleanFile t input output).result = .error e →
      (∀ q, ¬ FileChanged t (cleanFile t input output).tree q) ∧
      (∀ q, (cleanFile t input output).tree.at? q ≠ t.at? q → t.at? q = none ∧
        (cleanFile t input output).tree.at? q = some .directory ∧
        ∃ p, output = some p ∧ t.OnWay p.parent q) ∧
      ((cleanFile t input output).tree ≠ t →
        ∃ p text, output = some p ∧ wanted t input p = .ok (some text))) ∧
    (∀ outcome, (cleanFile t input output).result = .ok outcome → outcome.fate = .pruned →
      (cleanFile t input output).tree = t) ∧
    (output = none → (cleanFile t input output).tree = t) := by
  cases output with
  | none =>
    have same := cleanFile_of_no_output t input
    rw [same]
    exact ⟨fun _ _ => ⟨fun _ => not_not_intro fun _ => Iff.rfl, fun _ h => absurd rfl h,
      fun h => absurd rfl h⟩, fun _ _ _ => rfl, fun _ => rfl⟩
  | some p =>
    refine ⟨fun e h => ?_, fun outcome h hp => cleanFile_of_pruned h hp, nofun⟩
    have left : Furnishes (t.OnWay p.parent) t (cleanFile t input (some p)).tree := by
      rcases cleanFile_of_failed h with same | ⟨-, new⟩
      · rw [same]
        exact .refl
      · exact new
    refine ⟨left.not_fileChanged, fun q hq => ?_, fun hn => ?_⟩
    · obtain ⟨none, made, way⟩ := (left.at? q).resolve_left hq
      exact ⟨none, made, p, rfl, way⟩
    · obtain ⟨text, hw⟩ := ((cleanFile_of_failed h).resolve_left hn).1
      exact ⟨p, text, rfl, hw⟩

end

/-- A document, and a directory that has the name of its output. -/
def takenTree : FileTree :=
  ⟨[(["a.json"], .file [0x30]), (["dir.json"], .directory)], []⟩

section

attribute [local instance] SetOrder.written

/-- The directory on the way is new, and the name of the output is taken. -/
theorem cleanFile_untouched_taken :
    (cleanFile takenTree ⟨.here, ["a.json"]⟩ (some ⟨.here, ["new", "..", "dir.json"]⟩)).result =
      .error (.document (.unwritable ⟨.here, ["new", "..", "dir.json"]⟩
        (.refused .isDirectory ⟨.here, ["new", "..", "dir.json"]⟩))) ∧
    (cleanFile takenTree ⟨.here, ["a.json"]⟩
      (some ⟨.here, ["new", "..", "dir.json"]⟩)).tree.at? ["new"] = some .directory ∧
    ∀ q, ¬ FileChanged takenTree
      (cleanFile takenTree ⟨.here, ["a.json"]⟩ (some ⟨.here, ["new", "..", "dir.json"]⟩)).tree q := by
  have failed : (cleanFile takenTree ⟨.here, ["a.json"]⟩
      (some ⟨.here, ["new", "..", "dir.json"]⟩)).result =
      .error (.document (.unwritable ⟨.here, ["new", "..", "dir.json"]⟩
        (.refused .isDirectory ⟨.here, ["new", "..", "dir.json"]⟩))) := by
    with_unfolding_all rfl
  refine ⟨failed, by with_unfolding_all rfl, ?_⟩
  exact ((cleanFile_untouched takenTree _ _).1 _ failed).1

end

end Batch

end PlainSchema
