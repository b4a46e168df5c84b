/-
PlainSchema/Proofs/Loading.lean

The faults of loading settings from a file, all of them.

As with documents, some faults are stray (`LoadEscapes`): a file that is there and
cannot be read, octets that are no UTF-8, a scalar that does not say what its tag
promises, and a directory that cannot be found, because its name has a NUL character or
a half of a surrogate pair (`Strays`).  All others are faults of the settings, which the
program knows how to report; `load_cases` says that nothing else can happen.
-/
import PlainSchema.Proofs.Documents
import PlainSchema.Proofs.Places
import PlainSchema.Settings.Reader

namespace PlainSchema

variable {t : FileTree} {p base : Path} {n : Node} {e : StrayFault} {s : Settings}

/-! ### NUL characters -/

namespace Path

/-- The parts between slashes have no characters of their own. -/
theorem mem_of_mem_betweenSlashes {cs part : List Char} {c : Char}
    (hp : part ∈ betweenSlashes cs) (hc : c ∈ part) : c ∈ cs := by
  induction cs generalizing part with
  | nil =>
    obtain rfl := List.mem_singleton.1 hp
    exact hc
  | cons d cs ih =>
    rw [betweenSlashes, List.foldr_cons, ← betweenSlashes] at hp
    rcases hs : betweenSlashes cs with - | ⟨first, parts⟩ <;> rw [hs] at hp ih
    · cases hp
    · dsimp only at hp
      split at hp
      · rcases List.mem_cons.1 hp with rfl | hp
        · cases hc
        · exact List.mem_cons_of_mem _ (ih hp hc)
      · rcases List.mem_cons.1 hp with rfl | hp
        · rcases List.mem_cons.1 hc with rfl | hc
          · exact List.mem_cons_self ..
          · exact List.mem_cons_of_mem _ (ih (List.mem_cons_self ..) hc)
        · exact List.mem_cons_of_mem _ (ih (List.mem_cons_of_mem _ hp) hc)

/-- The characters of a path are characters of its text. -/
theorem mem_of_mem_ofText {text part : String} {c : Char} (hp : part ∈ (Path.ofText text).parts)
    (hc : c ∈ part.toList) : c ∈ text.toList := by
  obtain ⟨cs, hcs, rfl⟩ := List.mem_map.1 hp
  rw [String.toList_ofList] at hc
  exact mem_of_mem_betweenSlashes (List.mem_filter.1 hcs).1 hc

theorem hasNul_ofText {text : String} (h : '\x00' ∉ text.toList) :
    (Path.ofText text).hasNul = false :=
  List.any_eq_false.2 fun _ hp hn => h (mem_of_mem_ofText hp (List.contains_iff_mem.1 hn))

end Path

namespace Settings

open Document (HasText)

variable {home : Place} {byDefault : Path}

/-! ### Directories -/

/-- A text for a directory that no path can be made of. -/
def NamesNul (text? : Option String) : Prop :=
  ∃ text, text? = some text ∧ (Path.ofText text).isAbsolute = false ∧
    (Path.ofText text).hasNul = true

theorem directoryOf_eq_error_iff {text? : Option String} :
    directoryOf home byDefault text? = .error e ↔ e = .file .nul ∧ NamesNul text? := by
  unfold directoryOf NamesNul
  rcases text? with - | text
  · exact iff_of_false nofun fun ⟨_, _, h, _⟩ => nomatch h
  by_cases ha : (Path.ofText text).isAbsolute = true
  · simp only [ha, if_true]
    exact iff_of_false nofun fun ⟨_, text', h, hr, _⟩ =>
      absurd (Option.some.inj h ▸ ha) (Bool.eq_false_iff.1 hr)
  by_cases hn : (Path.ofText text).hasNul = true
  · simp only [ha, hn, if_true]
    constructor
    · intro h
      exact ⟨(Except.error.inj h).symm, text, rfl, Bool.eq_false_iff.2 ha, hn⟩
    · rintro ⟨rfl, -⟩
      rfl
  · simp only [ha, hn]
    exact iff_of_false nofun fun ⟨_, text', h, _, hn'⟩ => hn (Option.some.inj h ▸ hn')

/-! ### Entries -/

section

variable {δ : Type} {find : Path → Option String → Except StrayFault δ}

/-- The directories of a document are well-formed, and the first of them that cannot be found leads
to a stray fault. -/
inductive Strays (find : Path → Option String → Except StrayFault δ) (n : Node) : StrayFault → Prop
  | raw {fs : Fields} {raw clean : Option String} {e : StrayFault} : root? n = some fs →
      directories fs = .ok (raw, clean) → find defaultRaw raw = .error e → Strays find n e
  | cleaned {fs : Fields} {raw clean : Option String} {rawDir : δ} {e : StrayFault} :
      root? n = some fs → directories fs = .ok (raw, clean) → find defaultRaw raw = .ok rawDir →
      find defaultCleaned clean = .error e → Strays find n e

theorem Strays.entries_eq (h : Strays find n e) : entries find n = .error (.stray e) := by
  cases h with
  | raw hn hd hr => simp only [entries, hn, hd, hr]
  | cleaned hn hd hr hc => simp only [entries, hn, hd, hr, hc]

/-- The entries of a document say something, or a fault is reported, or a directory cannot be
found. -/
theorem entries_cases (find : Path → Option String → Except StrayFault δ) (n : Node) :
    (∃ found, entries find n = .ok found) ∨ (∃ f, entries find n = .error (.settings f)) ∨
      ∃ e, Strays find n e := by
  rcases hn : root? n with - | fs
  · exact .inr (.inl ⟨.root, by simp only [entries, hn]⟩)
  rcases hd : directories fs with f | ⟨raw, clean⟩
  · exact .inr (.inl ⟨f, by simp only [entries, hn, hd]⟩)
  rcases hr : find defaultRaw raw with e | rawDir
  · exact .inr (.inr ⟨e, .raw hn hd hr⟩)
  rcases hc : find defaultCleaned clean with e | cleanedDir
  · exact .inr (.inr ⟨e, .cleaned hn hd hr hc⟩)
  rcases hp : patternsOf fs with f | patterns
  · exact .inr (.inl ⟨f, by simp only [entries, hn, hd, hr, hc, hp]⟩)
  rcases ho : policyOf fs with f | policy
  · exact .inr (.inl ⟨f, by simp only [entries, hn, hd, hr, hc, hp, ho]⟩)
  · exact .inl ⟨⟨rawDir, cleanedDir, patterns, policy⟩, by simp only [entries, hn, hd, hr, hc, hp, ho]⟩

end

/-- Without halves of surrogate pairs a NUL character is all that can be wrong. -/
theorem Strays.names_nul (h : Strays (directoryOf home) n e) :
    e = .file .nul ∧ ∃ fs raw clean, root? n = some fs ∧ directories fs = .ok (raw, clean) ∧
      (NamesNul raw ∨ NamesNul clean) := by
  cases h with
  | raw hn hd hr =>
    obtain ⟨rfl, names⟩ := directoryOf_eq_error_iff.1 hr
    exact ⟨rfl, _, _, _, hn, hd, .inl names⟩
  | cleaned hn hd _ hc =>
    obtain ⟨rfl, names⟩ := directoryOf_eq_error_iff.1 hc
    exact ⟨rfl, _, _, _, hn, hd, .inr names⟩

theorem ofNode_cases (home : Place) (n : Node) :
    (∃ s, ofNode home n = .ok s) ∨ (∃ f, ofNode home n = .error (.settings f)) ∨
      ∃ e, Strays (directoryOf home) n e := by
  rcases entries_cases (directoryOf home) n with ⟨found, h⟩ | ⟨f, h⟩ | h
  · exact .inl ⟨_, by rw [ofNode, h]; rfl⟩
  · exact .inr (.inl ⟨f, by rw [ofNode, h]; rfl⟩)
  · exact .inr (.inr h)

/-- With halves of surrogate pairs in it, a document may hold settings that are not followed. -/
theorem ofSpelled_cases (home : Place) (n : Node) :
    (∃ s, ofSpelled home n = .ok s) ∨ (∃ f, ofSpelled home n = .error (.settings f)) ∨
      (∃ e, Strays (spelledDirectoryOf home) n e) ∨
      ofSpelled home n = .error (.stray (.beyond .half)) := by
  rcases entries_cases (spelledDirectoryOf home) n with ⟨found, h⟩ | ⟨f, h⟩ | h
  · unfold ofSpelled
    rw [h]
    dsimp only
    split
    · exact .inl ⟨_, rfl⟩
    · exact .inr (.inr (.inr rfl))
  · exact .inr (.inl ⟨f, by rw [ofSpelled, h]⟩)
  · exact .inr (.inr (.inl h))

/-! ### One file -/

/-- A stray fault of loading settings from the file at a path. -/
inductive LoadEscapes (t : FileTree) (p : Path) : StrayFault → Prop
  | name : t.place p = .error (.refused .nameTooLong p) →
      LoadEscapes t p (.file (.refused .nameTooLong p))
  | directory : t.find? p = .ok (some .directory) →
      LoadEscapes t p (.file (.refused .isDirectory p))
  | octets {octets : List UInt8} {why : Text.Utf8Fault} : t.read p = .ok octets →
      Text.decodeUtf8 octets = .error why → LoadEscapes t p (.encoding why)
  | scalar {text : List Char} {why : Yaml.Fault} : HasText t p text →
      Yaml.readOuter text = .error why → why ≠ .malformed → (∀ limit, why ≠ .beyond limit) →
      LoadEscapes t p (.scalar why)
  | path {text : List Char} {n : Node} {e : StrayFault} : HasText t p text →
      Yaml.readOuter text = .ok n →
      Strays (directoryOf (p.resolve t.current).dropLast) n.unlabelled e → LoadEscapes t p e
  | spelledPath {text : List Char} {n : Node} {e : StrayFault} : HasText t p text →
      Yaml.readOuter text = .error (.beyond .half) → Yaml.readSpelled text = .ok n →
      Strays (spelledDirectoryOf (p.resolve t.current).dropLast) n.unlabelled e →
      LoadEscapes t p e
  | beyond {text : List Char} {limit : Node.Limit} : HasText t p text →
      ofText (p.resolve t.current).dropLast text = .error (.stray (.beyond limit)) →
      LoadEscapes t p (.beyond limit)

theorem load_of_find?_directory (h : t.find? p = .ok (some .directory)) :
    load t p = .error (.stray (.file (.refused .isDirectory p))) := by
  obtain ⟨place, hp, hd⟩ := FileTree.find?_eq_some_iff.1 h
  simp only [load, h, FileTree.read, hp, hd]

/-- A file that can be read is found. -/
theorem find?_of_read {octets : List UInt8} (h : t.read p = .ok octets) :
    t.find? p = .ok (some (.file octets)) :=
  FileTree.find?_eq_some_iff.2 (FileTree.read_eq_ok_iff.1 h)

theorem load_of_hasText {text : List Char} (h : HasText t p text) :
    load t p = ofText (p.resolve t.current).dropLast text := by
  obtain ⟨octets, ho, ht⟩ := h
  simp only [load, find?_of_read ho, ho, ht]

theorem ofText_of_stray {text : List Char} {why : Yaml.Fault}
    (h : Yaml.readOuter text = .error why) (hm : why ≠ .malformed)
    (hb : ∀ limit, why ≠ .beyond limit) : ofText home text = .error (.stray (.scalar why)) := by
  rw [ofText, h]
  cases why with
  | malformed => exact absurd rfl hm
  | beyond limit => exact absurd rfl (hb limit)
  | _ => rfl

theorem LoadEscapes.load_eq (h : LoadEscapes t p e) : load t p = .error (.stray e) := by
  cases h with
  | name hp => rw [load, FileTree.find?_eq_error_iff.2 ⟨rfl, hp⟩]
  | directory hd => exact load_of_find?_directory hd
  | octets ho hd => simp only [load, find?_of_read ho, ho, textOf, hd]
  | scalar ht hy hm hb => rw [load_of_hasText ht, ofText_of_stray hy hm hb]
  | path ht hy hs =>
    rw [load_of_hasText ht, ofText, hy]
    show ofNode _ _ = _
    rw [ofNode, hs.entries_eq]
    rfl
  | spelledPath ht hy hz hs =>
    rw [load_of_hasText ht, ofText, hy]
    dsimp only
    rw [hz]
    show ofSpelled _ _ = _
    rw [ofSpelled, hs.entries_eq]
  | beyond ht hb => rw [load_of_hasText ht, hb]

/-- A text holds settings, or a fault that is reported, or a stray one. -/
theorem ofText_cases {text : List Char} (ht : HasText t p text) :
    (∃ s, ofText (p.resolve t.current).dropLast text = .ok s) ∨
    (∃ f, ofText (p.resolve t.current).dropLast text = .error (.settings f)) ∨
    ∃ e, LoadEscapes t p e := by
  rcases hy : Yaml.readOuter text with why | n
  · by_cases hm : why = .malformed
    · subst hm
      exact .inr (.inl ⟨.malformed, by rw [ofText, hy]⟩)
    by_cases hb : ∀ limit, why ≠ .beyond limit
    · exact .inr (.inr ⟨_, .scalar ht hy hm hb⟩)
    push Not at hb
    obtain ⟨- | -, rfl⟩ := hb
    · -- There are halves in the document; its strings are spelled.
      rcases hz : Yaml.readSpelled text with why | n
      · exact .inr (.inr ⟨_, .beyond ht (by rw [ofText, hy]; dsimp only; rw [hz])⟩)
      have found : ofText (p.resolve t.current).dropLast text =
          ofSpelled (p.resolve t.current).dropLast n.unlabelled := by
        rw [ofText, hy]
        dsimp only
        rw [hz]
      rw [found]
      rcases ofSpelled_cases (p.resolve t.current).dropLast n.unlabelled with h | h | ⟨e, h⟩ | h
      · exact .inl h
      · exact .inr (.inl h)
      · exact .inr (.inr ⟨e, .spelledPath ht hy hz h⟩)
      · exact .inr (.inr ⟨_, .beyond ht (found.trans h)⟩)
    · exact .inr (.inr ⟨_, .beyond ht (by rw [ofText, hy])⟩)
  · have found : ofText (p.resolve t.current).dropLast text =
        ofNode (p.resolve t.current).dropLast n.unlabelled := by rw [ofText, hy]
    rw [found]
    rcases ofNode_cases (p.resolve t.current).dropLast n.unlabelled with h | h | ⟨e, h⟩
    · exact .inl h
    · exact .inr (.inl h)
    · exact .inr (.inr ⟨e, .path ht hy h⟩)

/-- Settings are loaded, or a fault is reported, or one of the stray faults ends it. -/
theorem load_cases (t : FileTree) (p : Path) :
    (∃ s, load t p = .ok s) ∨ (∃ f, load t p = .error (.settings f)) ∨ ∃ e, LoadEscapes t p e := by
  rcases hf : t.find? p with e | - | - | octets
  · obtain ⟨rfl, hp⟩ := FileTree.find?_eq_error_iff.1 hf
    exact .inr (.inr ⟨_, .name hp⟩)
  · exact .inr (.inl ⟨.noFile p, by rw [load, hf]⟩)
  · exact .inr (.inr ⟨_, .directory hf⟩)
  have ho : t.read p = .ok octets := FileTree.read_eq_ok_iff.2 (FileTree.find?_eq_some_iff.1 hf)
  rcases hd : Text.decodeUtf8 octets with why | cs
  · exact .inr (.inr ⟨_, .octets ho hd⟩)
  have ht : HasText t p (unifiedBreaks cs) := ⟨octets, ho, by rw [textOf, hd]⟩
  rw [load_of_hasText ht]
  exact ofText_cases ht

end Settings

end PlainSchema
