/-
PlainSchema/Proofs/Documents.lean

The faults of reading and writing the document in a file, all of them.

A fault is either one of the document, which a batch may skip (`ReadFails`,
`WriteFails`), or a stray one, which nothing expects (`ReadEscapes`,
`WriteEscapes`).  The stray ones are few: a path that the system never sees, octets
that are no UTF-8, a scalar with a tag of the language that does not say what the tag
promises, and an integer of too many digits, which JSON cannot read and YAML cannot
write.  A document that is no `Node` is counted among them; what becomes of it is not
followed.

`read_cases` and `write_cases` say that nothing else can happen.
-/
import PlainSchema.Document.File
import PlainSchema.Proofs.Files

namespace PlainSchema

variable {t t' : FileTree} {p : Path} {n m : Node} {e : StrayFault} {f : DocumentFault}

theorem map_eq_error_iff {α β ε : Type} {a : Except ε α} {g : α → β} {e : ε} :
    a.map g = .error e ↔ a = .error e := by
  cases a <;> simp [Except.map]

/-! ### Integers that cannot be written -/

namespace Node

theorem itemsHaveLongInteger_eq_any (xs : List Node) :
    itemsHaveLongInteger xs = xs.any hasLongInteger := by
  induction xs with
  | nil => rfl
  | cons x xs ih => rw [itemsHaveLongInteger, ih, List.any_cons]

section

variable [SetOrder]

mutual
/-- The order of the members of sets does not matter for their integers. -/
theorem hasLongInteger_arranged : ∀ n : Node, n.arranged.hasLongInteger = n.hasLongInteger
  | .set xs => by
    rw [arranged, hasLongInteger, hasLongInteger, itemsHaveLongInteger_eq_any,
      (SetOrder.arrange_perm _).any_eq, ← itemsHaveLongInteger_eq_any,
      itemsHaveLongInteger_arranged]
  | .list xs | .tuple xs => by
    rw [arranged, hasLongInteger, hasLongInteger, itemsHaveLongInteger_arranged]
  | .map fs => by rw [arranged, hasLongInteger, hasLongInteger, fieldsHaveLongInteger_arranged]
  | .shared _ n => by rw [arranged, hasLongInteger, hasLongInteger, hasLongInteger_arranged]
  | .null | .bool _ | .int _ | .float _ | .str _ | .bytes _ | .date _ | .datetime _ => rfl

theorem itemsHaveLongInteger_arranged : ∀ xs : List Node,
    itemsHaveLongInteger (arrangedItems xs) = itemsHaveLongInteger xs
  | [] => rfl
  | x :: xs => by
    rw [arrangedItems, itemsHaveLongInteger, itemsHaveLongInteger, hasLongInteger_arranged,
      itemsHaveLongInteger_arranged]

theorem fieldsHaveLongInteger_arranged : ∀ fs : List (Node × Node),
    fieldsHaveLongInteger (arrangedFields fs) = fieldsHaveLongInteger fs
  | [] => rfl
  | (k, v) :: fs => by
    rw [arrangedFields, fieldsHaveLongInteger, fieldsHaveLongInteger, hasLongInteger_arranged,
      hasLongInteger_arranged, fieldsHaveLongInteger_arranged]
end

end

end Node

namespace Yaml

variable {l : Text.LongInteger}

mutual
theorem outline_eq_error_iff : (n : Node) → (outline n = .error l ↔ n.hasLongInteger = true)
  | .int i => by
    rw [outline, Node.hasLongInteger]
    split <;> simp_all
  | .list xs => by
    rw [outline, Node.hasLongInteger, map_eq_error_iff]
    exact outlines_eq_error_iff xs
  | .tuple xs => by
    rw [outline, Node.hasLongInteger, map_eq_error_iff]
    exact outlines_eq_error_iff xs
  | .set xs => by
    rw [outline, Node.hasLongInteger, map_eq_error_iff]
    exact outlines_eq_error_iff xs
  | .map fs => by
    rw [outline, Node.hasLongInteger, map_eq_error_iff]
    exact entryOutlines_eq_error_iff fs
  | .shared _ n => by
    rw [outline, Node.hasLongInteger, map_eq_error_iff]
    exact outline_eq_error_iff n
  | .null | .bool _ | .float _ | .str _ | .bytes _ | .date _ | .datetime _ => by
    simp [outline, Node.hasLongInteger]

theorem outlines_eq_error_iff : (xs : List Node) →
    (outlines xs = .error l ↔ Node.itemsHaveLongInteger xs = true)
  | [] => by simp [outlines, Node.itemsHaveLongInteger]
  | x :: xs => by
    rw [outlines, Node.itemsHaveLongInteger, Bool.or_eq_true, ← outline_eq_error_iff x,
      ← outlines_eq_error_iff xs]
    rcases outline x with e | o
    · simp
    · simp [map_eq_error_iff]

theorem entryOutlines_eq_error_iff : (fs : List (Node × Node)) →
    (entryOutlines fs = .error l ↔ Node.fieldsHaveLongInteger fs = true)
  | [] => by simp [entryOutlines, Node.fieldsHaveLongInteger]
  | (k, v) :: fs => by
    rw [entryOutlines, Node.fieldsHaveLongInteger, Bool.or_eq_true, Bool.or_eq_true,
      ← outline_eq_error_iff k, ← outline_eq_error_iff v, ← entryOutlines_eq_error_iff fs]
    rcases outline k with e | k
    · simp
    · rcases outline v with e | v
      · simp
      · simp [map_eq_error_iff]
end

/-- A document has a YAML text unless it holds an integer of too many digits. -/
theorem write_eq_error_iff [SetOrder] : write n = .error l ↔ n.hasLongInteger = true := by
  rw [write, map_eq_error_iff, outline_eq_error_iff, Node.hasLongInteger_arranged]

end Yaml

namespace Document

variable {text : List Char} {octets : List UInt8}

/-! ### Reading -/

/-- The text of the file at a path, as it is parsed. -/
def HasText (t : FileTree) (p : Path) (text : List Char) : Prop :=
  ∃ octets, t.read p = .ok octets ∧ textOf octets = .ok text

/-- A fault of the document in the file at a path, when it is read. -/
inductive ReadFails (t : FileTree) (p : Path) : DocumentFault → Prop
  | file {why : FileFault} : t.read p = .error why → why ≠ .nul → ReadFails t p (.unreadable p why)
  | json {text : List Char} {cause : Json.Cause} {left : Nat} :
      HasText t p text → Format.ofPath p = .json → Json.read text = .error (.malformed cause left) →
      ReadFails t p (.inFile p (.malformedJson cause (.whenLeft text left)))
  | yaml {text : List Char} : HasText t p text → Format.ofPath p = .yaml →
      Yaml.read text = .error .malformed → ReadFails t p (.inFile p .malformedYaml)

/-- A stray fault of reading the document in the file at a path. -/
inductive ReadEscapes (t : FileTree) (p : Path) : StrayFault → Prop
  | path : p.hasNul = true → ReadEscapes t p (.file .nul)
  | octets {octets : List UInt8} {why : Text.Utf8Fault} : t.read p = .ok octets →
      Text.decodeUtf8 octets = .error why → ReadEscapes t p (.encoding why)
  | integer {text : List Char} {digits : Nat} : HasText t p text → Format.ofPath p = .json →
      Json.read text = .error (.longInteger digits) → ReadEscapes t p (.integer (.tooLong digits))
  | scalar {text : List Char} {why : Yaml.Fault} : HasText t p text → Format.ofPath p = .yaml →
      Yaml.read text = .error why → why ≠ .malformed → (∀ limit, why ≠ .beyond limit) →
      ReadEscapes t p (.scalar why)
  | half {text : List Char} : HasText t p text → Format.ofPath p = .json →
      Json.read text = .error .half → ReadEscapes t p (.beyond .half)
  | beyond {text : List Char} {limit : Node.Limit} : HasText t p text → Format.ofPath p = .yaml →
      Yaml.read text = .error (.beyond limit) → ReadEscapes t p (.beyond limit)

theorem read_of_hasText (h : HasText t p text) :
    read t p = (parse (.ofPath p) text).mapError (inFile p) := by
  obtain ⟨octets, hr, ht⟩ := h
  simp only [read, hr, ofOctets, ht]

theorem unreadable_eq {why : FileFault} (h : why ≠ .nul) :
    unreadable p why = .document (.unreadable p why) := by
  cases why with
  | refused why q => rfl
  | nul => exact absurd rfl h

theorem parse_yaml_eq {why : Yaml.Fault} (h : Yaml.read text = .error why)
    (hm : why ≠ .malformed) (hb : ∀ limit, why ≠ .beyond limit) :
    parse .yaml text = .error (.stray (.scalar why)) := by
  rw [parse, h]
  cases why with
  | malformed => exact absurd rfl hm
  | beyond limit => exact absurd rfl (hb limit)
  | _ => rfl

theorem ReadFails.read_eq (h : ReadFails t p f) : read t p = .error (.document f) := by
  cases h with
  | file hr hn => rw [read, hr, ← unreadable_eq hn]
  | json ht hf hr => rw [read_of_hasText ht, hf, parse, hr]; rfl
  | yaml ht hf hr => rw [read_of_hasText ht, hf, parse, hr]; rfl

theorem ReadEscapes.read_eq (h : ReadEscapes t p e) : read t p = .error (.stray e) := by
  cases h with
  | path hn => rw [read, FileTree.read_eq_nul_iff.2 hn]; rfl
  | octets hr hd => simp only [read, hr, ofOctets, textOf, hd]
  | integer ht hf hr => rw [read_of_hasText ht, hf, parse, hr]; rfl
  | scalar ht hf hr hm hb => rw [read_of_hasText ht, hf, parse_yaml_eq hr hm hb]; rfl
  | half ht hf hr => rw [read_of_hasText ht, hf, parse, hr]; rfl
  | beyond ht hf hr => rw [read_of_hasText ht, hf, parse, hr]; rfl

/-- A document is read, or its reading ends in one of these faults. -/
theorem read_cases (t : FileTree) (p : Path) :
    (∃ n, read t p = .ok n) ∨ (∃ f, ReadFails t p f) ∨ ∃ e, ReadEscapes t p e := by
  rcases hr : t.read p with why | octets
  · by_cases hn : why = .nul
    · subst hn
      exact .inr (.inr ⟨_, .path (FileTree.read_eq_nul_iff.1 hr)⟩)
    · exact .inr (.inl ⟨_, .file hr hn⟩)
  -- The octets are there; what can go wrong now is in them.
  rcases hd : Text.decodeUtf8 octets with why | cs
  · exact .inr (.inr ⟨_, .octets hr hd⟩)
  have ht : HasText t p (unifiedBreaks cs) := ⟨octets, hr, by rw [textOf, hd]⟩
  rcases hf : Format.ofPath p
  · rcases hy : Yaml.read (unifiedBreaks cs) with why | n
    · cases why with
      | malformed => exact .inr (.inl ⟨_, .yaml ht hf hy⟩)
      | beyond limit => exact .inr (.inr ⟨_, .beyond ht hf hy⟩)
      | _ => exact .inr (.inr ⟨_, .scalar ht hf hy nofun nofun⟩)
    · exact .inl ⟨n, by rw [read_of_hasText ht, hf, parse, hy]; rfl⟩
  · rcases hj : Json.read (unifiedBreaks cs) with (⟨cause, left⟩ | digits | -) | n
    · exact .inr (.inl ⟨_, .json ht hf hj⟩)
    · exact .inr (.inr ⟨_, .integer ht hf hj⟩)
    · exact .inr (.inr ⟨_, .half ht hf hj⟩)
    · exact .inl ⟨n, by rw [read_of_hasText ht, hf, parse, hj]; rfl⟩

/-! ### Writing -/

theorem unwritable_eq {why : FileFault} (h : why ≠ .nul) :
    unwritable p why = .document (.unwritable p why) := by
  cases why with
  | refused why q => rfl
  | nul => exact absurd rfl h

/-- The directories on the way to the file cannot be made. -/
theorem store_of_directories_error {why : FileFault}
    (hd : (t.makeDirectories p.parent).2 = .error why) :
    (store t p text).2 = .error (unwritable p why) := by
  unfold store
  rcases h : t.makeDirectories p.parent with ⟨t', why' | ⟨⟩⟩ <;> rw [h] at hd
  · rw [Except.error.inj hd]
  · cases hd

/-- The directories on the way to the file are made, and the file cannot be written. -/
theorem store_of_write_error {why : FileFault} (hd : t.makeDirectories p.parent = (t', .ok ()))
    (hw : t'.write p (Text.encodeUtf8 text) = .error why) :
    store t p text = (t', .error (unwritable p why)) := by
  simp only [store, hd, hw]

theorem store_of_write {t'' : FileTree} (hd : t.makeDirectories p.parent = (t', .ok ()))
    (hw : t'.write p (Text.encodeUtf8 text) = .ok t'') : store t p text = (t'', .ok ()) := by
  simp only [store, hd, hw]

variable [SetOrder]

/-- A fault of a document that is to be written to the file at a path. -/
inductive WriteFails (t : FileTree) (p : Path) (n : Node) : DocumentFault → Prop
  | json {why : Json.WriteFault} : Format.ofPath p = .json → Json.write n = .error why →
      WriteFails t p n (.noJson why)
  | directories {text : List Char} {why : FileFault} : render (.ofPath p) n = .ok text →
      (t.makeDirectories p.parent).2 = .error why → why ≠ .nul →
      WriteFails t p n (.unwritable p why)
  | file {text : List Char} {t' : FileTree} {why : FileFault} : render (.ofPath p) n = .ok text →
      t.makeDirectories p.parent = (t', .ok ()) →
      t'.write p (Text.encodeUtf8 text) = .error why → why ≠ .nul →
      WriteFails t p n (.unwritable p why)

/-- A stray fault of writing a document to the file at a path. -/
inductive WriteEscapes (t : FileTree) (p : Path) (n : Node) : StrayFault → Prop
  | integer : Format.ofPath p = .yaml → n.hasLongInteger = true →
      WriteEscapes t p n (.longInteger ⟨⟩)
  | directories {text : List Char} : render (.ofPath p) n = .ok text → p.parent.hasNul = true →
      WriteEscapes t p n (.file .nul)
  | file {text : List Char} {t' : FileTree} : render (.ofPath p) n = .ok text →
      t.makeDirectories p.parent = (t', .ok ()) → p.hasNul = true →
      WriteEscapes t p n (.file .nul)

-- The equation of `write` itself takes seconds to derive, so its definition is opened by `delta`.
theorem write_of_render_error {why : Failure} (h : render (.ofPath p) n = .error why) :
    write t p n = (t, .error why) := by
  delta write
  rw [h]

theorem write_of_render (h : render (.ofPath p) n = .ok text) :
    write t p n = store t p text := by
  delta write
  rw [h]

theorem WriteFails.write_eq (h : WriteFails t p n f) : (write t p n).2 = .error (.document f) := by
  cases h with
  | @json why hf hw =>
    have hr : render (.ofPath p) n = .error (.document (.noJson why)) := by
      rw [hf, render, hw]
      rfl
    rw [write_of_render_error hr]
  | directories hr hd hn => rw [write_of_render hr, store_of_directories_error hd, unwritable_eq hn]
  | file hr hd hw hn =>
    rw [write_of_render hr, store_of_write_error hd hw, ← unwritable_eq hn]

theorem WriteEscapes.write_eq (h : WriteEscapes t p n e) : (write t p n).2 = .error (.stray e) := by
  cases h with
  | integer hf hl =>
    have hw : Yaml.write n = .error ⟨⟩ := Yaml.write_eq_error_iff.2 hl
    have hr : render (.ofPath p) n = .error (.stray (.longInteger ⟨⟩)) := by
      rw [hf, render, hw]
      rfl
    rw [write_of_render_error hr]
  | directories hr hn =>
    rw [write_of_render hr, store_of_directories_error (FileTree.makeDirectories_eq_nul_iff.2 hn)]
    rfl
  | file hr hd hn =>
    rw [write_of_render hr, store_of_write_error hd (FileTree.write_eq_nul_iff.2 hn)]
    rfl

/-- A document is written, or its writing ends in one of these faults. -/
theorem write_cases (t : FileTree) (p : Path) (n : Node) :
    (∃ t', write t p n = (t', .ok ())) ∨ (∃ f, WriteFails t p n f) ∨ ∃ e, WriteEscapes t p n e := by
  rcases hr : render (.ofPath p) n with e | text
  · rcases hf : Format.ofPath p <;> rw [hf, render] at hr
    · rcases hw : Yaml.write n with l | s <;> rw [hw] at hr
      · exact .inr (.inr ⟨_, .integer hf (Yaml.write_eq_error_iff.1 hw)⟩)
      · cases hr
    · rcases hw : Json.write n with why | text <;> rw [hw] at hr
      · exact .inr (.inl ⟨_, .json hf hw⟩)
      · cases hr
  -- The document has a text; what can go wrong now is in the tree.
  rcases hd : t.makeDirectories p.parent with ⟨t', why | ⟨⟩⟩
  · by_cases hn : why = .nul
    · subst hn
      refine .inr (.inr ⟨_, .directories hr ?_⟩)
      rw [← FileTree.makeDirectories_eq_nul_iff (t := t), hd]
    · exact .inr (.inl ⟨_, .directories hr (by rw [hd]) hn⟩)
  rcases hw : t'.write p (Text.encodeUtf8 text) with why | t''
  · by_cases hn : why = .nul
    · subst hn
      exact .inr (.inr ⟨_, .file hr hd (FileTree.write_eq_nul_iff.1 hw)⟩)
    · exact .inr (.inl ⟨_, .file hr hd hw hn⟩)
  · exact .inl ⟨t'', by rw [write_of_render hr, store_of_write hd hw]⟩

end Document

end PlainSchema
