/-
PlainSchema/Proofs/Mirroring.lean

What a batch leaves in the tree, if the documents and the outputs are in directories
that have nothing in common.

The outcomes can be read off the tree that the whole batch leaves (`Mirrored`), since
what the turns have come to lasts; nothing else in the tree is another, and a second
batch goes the same way without changing anything.

Where the outputs go may be missing when the batch starts.  If two dots come after a
directory that is missing, their path leads somewhere only once the batch has made
that directory, and then it may lead to what is there already: `IsSteady` leaves that
out, and `cleanDirectory_unsteady` shows it.  Where something other than a missing
directory is in the way no output can be written, and the tree stays as it is
(`eq_of_turned`).
-/
import PlainSchema.Proofs.Lasting
import PlainSchema.Proofs.Reading

namespace PlainSchema

namespace Batch

open FileTree (Keeps IsWay SameBelow isTooLong)

variable {s : Settings} {t t' : FileTree} {way : Path} {ways : List Path} {outcome : Outcome}
  {outcomes : List Outcome} {fate : Fate} {source here place : Place} {front pre : List String}
  {touched : Place → Prop}

/-! ### Where the outputs are -/

/-- A file at the place of an output is read at its path before and after. -/
theorem Layout.read_output_iff (h : Layout s t source front pre here) (hw : t.IsWay source way)
    (hk : Keeps (here ++ pre) touched t t')
    (hf : ∀ octets, t'.at? (here ++ pre ++ way.parts) = some (.file octets) ↔
      t.at? (here ++ pre ++ way.parts) = some (.file octets)) (octets : List UInt8) :
    t'.read (s.cleanedDir.join way) = .ok octets ↔ t.read (s.cleanedDir.join way) = .ok octets := by
  rw [FileTree.read_eq_ok_iff, FileTree.read_eq_ok_iff]
  constructor
  · rintro ⟨place, hp, ho⟩
    have hw' := h.isWay hk hw
    obtain rfl := (h.keeps hk).eq_of_place hw' hp
    have ho := (hf octets).1 ho
    refine ⟨_, ?_, ho⟩
    rw [h.output_eq hw] at hp ⊢
    obtain ⟨followed, hp⟩ := (h.keeps hk).outputs.place_ok_iff.1 hp
    -- The file was there, and so were the directories above it.
    refine h.outputs.place_ok_iff.2 ⟨followed, ?_⟩
    rw [List.append_assoc] at ho ⊢
    refine h.outputs.sound.follow_of_isSome (by rw [ho]; rfl) (h.plain_output hw) ?_
    intro part hm
    refine (FileTree.short_of_follow hp part hm).resolve_left ?_
    rintro rfl
    exact h.plain_output hw hm
  · rintro ⟨place, hp, ho⟩
    obtain rfl := h.eq_of_place hw hp
    exact ⟨_, hk.place_eq_ok hp, (hf octets).2 ho⟩

/-- Whether the dots of a path that lead back come before the first directory that is missing: what
the path starts with leads to a directory, and what is left of it has no dots. -/
def IsSteady (t : FileTree) (p : Path) : Prop :=
  ∃ front rest, p.parts = front ++ rest ∧ t.leadsToDirectory ⟨p.anchor, front⟩ = true ∧ ".." ∉ rest

/-- A directory of outputs either can have no place or is laid out. -/
theorem layout_of_apart (hs : t.Sound) (hp : t.place s.rawDir = .ok source)
    (hd : t.isDirectoryAt source = true)
    (notInside : ¬ source <+: s.cleanedDir.resolve t.current)
    (notAround : ¬ s.cleanedDir.resolve t.current <+: source)
    (steady : t.place s.cleanedDir = .error (.refused .missing s.cleanedDir) →
      IsSteady t s.cleanedDir) :
    (∃ e, t.place s.cleanedDir = .error e ∧ e ≠ .refused .missing s.cleanedDir) ∨
    ∃ front pre here, Layout s t source front pre here ∧
      here ++ pre = s.cleanedDir.resolve t.current ∧
      ∀ part ∈ pre, t.place s.cleanedDir = .error (.refused .missing s.cleanedDir) ∧
        part ∈ s.cleanedDir.parts := by
  have inputs : t.Stands s.rawDir.anchor s.rawDir.parts source :=
    ⟨hs, (FileTree.place_eq_ok_iff.1 hp).2⟩
  rcases hc : t.place s.cleanedDir with e | place
  · -- What is missing can be made; whatever else is in the way stays there.
    by_cases hm : e = .refused .missing s.cleanedDir
    · subst hm
      obtain ⟨front, pre, parts, leads, plain⟩ := steady hc
      obtain ⟨here, hf, -⟩ := FileTree.leadsToDirectory_iff.1 leads
      have reaches : t.follow (t.start s.cleanedDir) front = .ok here :=
        (FileTree.place_eq_ok_iff.1 hf).2
      have resolved : here ++ pre = s.cleanedDir.resolve t.current := by
        rw [hs.resolve_eq_walk, parts, Path.walk_append, ← FileTree.eq_walk_of_follow reaches,
          Path.walk_of_plain plain]
      refine .inr ⟨front, pre, here,
        ⟨inputs, hp, hd, ⟨hs, reaches⟩, parts, plain, ?_, resolved ▸ notInside,
          resolved ▸ notAround⟩,
        resolved, fun part hm => ⟨rfl, parts ▸ List.mem_append_right _ hm⟩⟩
      exact (FileTree.place_eq_missing_iff.1 hc).2.1.1
    · exact .inl ⟨e, rfl, hm⟩
  · have resolved : place ++ [] = s.cleanedDir.resolve t.current := by
      rw [List.append_nil, hs.resolve_of_place hc]
    obtain ⟨followed, reaches⟩ := FileTree.place_eq_ok_iff.1 hc
    exact .inr ⟨s.cleanedDir.parts, [], place,
      ⟨inputs, hp, hd, ⟨hs, reaches⟩, (List.append_nil _).symm, List.not_mem_nil, followed.1,
        resolved ▸ notInside, resolved ▸ notAround⟩, resolved, nofun⟩

section

variable [SetOrder]

/-! ### Originals and outputs -/

/-- What a batch makes of a document, from the tree before it to the tree after it. -/
structure Mirrored (s : Settings) (t t' : FileTree) (way : Path) (outcome : Outcome) : Prop where
  input : outcome.input = s.rawDir.join way
  output : outcome.output = some (s.cleanedDir.join way)
  /-- The text of the clean document is in the output. -/
  cleaned : ∀ shown, outcome.fate = .cleaned shown → ∃ original n m text,
    Document.HasText t (s.rawDir.join way) original ∧
    Document.parse (.ofPath way) original = .ok n ∧ Schema.clean n = .ok (some m) ∧
    Document.render (.ofPath way) m = .ok text ∧
    t'.read (s.cleanedDir.join way) = .ok (Text.encodeUtf8 text)
  /-- Nothing is left of the document, and there is no output. -/
  pruned : outcome.fate = .pruned → ∃ original n,
    Document.HasText t (s.rawDir.join way) original ∧
    Document.parse (.ofPath way) original = .ok n ∧ Schema.clean n = .ok none ∧
    ∀ octets, t'.find? (s.cleanedDir.join way) ≠ .ok (some (.file octets))
  /-- What was in the output is there still. -/
  failed : ∀ f, outcome.fate = .failed f → ∀ octets,
    t'.read (s.cleanedDir.join way) = .ok octets ↔ t.read (s.cleanedDir.join way) = .ok octets

/-- The document of which nothing is wanted. -/
theorem original_of_wanted_none (ha : way.anchor = .here) (hp : way.parts ≠ [])
    (h : wanted t (s.rawDir.join way) (s.cleanedDir.join way) = .ok none) :
    ∃ original n, Document.HasText t (s.rawDir.join way) original ∧
      Document.parse (.ofPath way) original = .ok n ∧ Schema.clean n = .ok none := by
  obtain ⟨n, hr, hc⟩ := wanted_eq_none_iff.1 h
  obtain ⟨original, ho, hn⟩ := Document.read_eq_ok_iff.1 hr
  rw [Document.Format.ofPath_join _ ha hp] at hn
  exact ⟨original, n, ho, hn, Schema.clean_of_cleanNotingAt hc⟩

/-- The document of which a text is wanted. -/
theorem original_of_wanted_some {text : List Char} (ha : way.anchor = .here) (hp : way.parts ≠ [])
    (h : wanted t (s.rawDir.join way) (s.cleanedDir.join way) = .ok (some text)) :
    ∃ original n m, Document.HasText t (s.rawDir.join way) original ∧
      Document.parse (.ofPath way) original = .ok n ∧ Schema.clean n = .ok (some m) ∧
      Document.render (.ofPath way) m = .ok text := by
  obtain ⟨n, m, hr, hc, ht⟩ := wanted_eq_some_iff.1 h
  obtain ⟨original, ho, hn⟩ := Document.read_eq_ok_iff.1 hr
  rw [Document.Format.ofPath_join _ ha hp] at hn ht
  exact ⟨original, n, m, ho, hn, Schema.clean_of_cleanNotingAt hc, ht⟩

theorem Layout.mirrored (h : Layout s t source front pre here) (hw : t.IsWay source way)
    (hk : Keeps (here ++ pre) touched t t')
    (hr : Recorded s (fun way fate => Ends s t t' pre (here ++ pre ++ way.parts) way fate)
      way outcome) : Mirrored s t t' way outcome := by
  obtain ⟨fate, rfl, ends⟩ := hr
  have hp := h.parts_ne_nil hw
  have hw' := h.isWay hk hw
  refine ⟨rfl, rfl, ?_, ?_, ?_⟩
  · rintro shown rfl
    cases ends.rests with
    | @cleaned text hn leads hq file =>
      obtain ⟨original, n, m, ho, hn, hc, ht⟩ :=
        original_of_wanted_some hw.anchor hp ((h.wanted_eq hk hw).symm.trans hn)
      exact ⟨original, n, m, text, ho, hn, hc, ht, FileTree.read_eq_ok_iff.2 ⟨_, hq, file⟩⟩
  · rintro rfl
    cases ends.rests with
    | pruned hn gone followed =>
      obtain ⟨original, n, ho, hn, hc⟩ :=
        original_of_wanted_none hw.anchor hp ((h.wanted_eq hk hw).symm.trans hn)
      refine ⟨original, n, ho, hn, hc, fun octets hf => ?_⟩
      rw [FileTree.isFileAt_iff.2 ⟨octets, (h.keeps hk).at?_of_find? hw' hf⟩] at gone
      cases gone
  · exact fun f hf => h.read_output_iff hw hk (ends.unchanged f hf)

/-! ### Where no output can be written -/

/-- A document that has failed, in a tree that is not changed. -/
theorem mirrored_failed (f : CleaningFault) :
    Mirrored s t t way ⟨s.rawDir.join way, some (s.cleanedDir.join way), .failed f⟩ where
  input := rfl
  output := rfl
  cleaned _ h := by cases h
  pruned h := by cases h
  failed _ _ _ := Iff.rfl

/-- Nothing is changed by a turn whose output can have no place, whatever is made on the way. -/
theorem eq_of_turned {e : FileFault} (hc : t.place s.cleanedDir = .error e)
    (hm : e ≠ .refused .missing s.cleanedDir) (ha : way.anchor = .here) (hp : way.parts ≠ [])
    (ht : Turned s t way t' fate) :
    t' = t ∧ Mirrored s t t way ⟨s.rawDir.join way, some (s.cleanedDir.join way), fate⟩ := by
  have refused : ∀ xs, ∃ e', t.place ⟨s.cleanedDir.anchor, s.cleanedDir.parts ++ xs⟩ = .error e' ∧
      ∀ q, e' ≠ .refused .missing q := FileTree.place_append_error hc hm
  -- It is refused at the directory of the outputs, before anything is made.
  have stored : ∀ text, ∃ e, Document.store t (s.cleanedDir.join way) text = (t, .error e) := by
    intro text
    obtain ⟨e', he, hm'⟩ := refused way.parts.dropLast
    have made : t.makeDirectories (s.cleanedDir.join way).parent = (t, .error e') := by
      rw [Path.join, if_pos ha]
      show t.ensureParts s.cleanedDir.anchor (s.cleanedDir.parts ++ way.parts).dropLast = _
      rw [List.dropLast_append_of_ne_nil hp]
      exact FileTree.ensureParts_of_ensureDirectory_error
        (FileTree.ensureDirectory_of_place_error he)
        fun h => hm' _ (Except.error.inj (he.symm.trans h))
    exact ⟨_, Document.store_of_makeDirectories made⟩
  have found : ∀ octets, t.find? (s.cleanedDir.join way) ≠ .ok (some (.file octets)) := by
    intro octets hf
    obtain ⟨place, hp, -⟩ := FileTree.find?_eq_some_iff.1 hf
    obtain ⟨e', he, -⟩ := refused way.parts
    rw [Path.join, if_pos ha, he] at hp
    cases hp
  cases ht with
  | unread => exact ⟨rfl, mirrored_failed _⟩
  | @unwritten text =>
    obtain ⟨e, hst⟩ := stored text
    rw [hst]
    exact ⟨rfl, mirrored_failed _⟩
  | pruned hn =>
    obtain ⟨original, n, ho, hn, hc⟩ := original_of_wanted_none ha hp hn
    refine ⟨removeStale_of_no_file found, rfl, rfl, ?_, fun _ => ?_, ?_⟩
    · exact fun _ h => by cases h
    · exact ⟨original, n, ho, hn, hc, found⟩
    · exact fun _ h => by cases h
  | @cleaned text hn hk =>
    obtain ⟨e, hst⟩ := stored text
    rw [hst] at hk
    cases hk

/-- A batch changes nothing if none of its turns does. -/
theorem turned_of_cleanEach
    (hw : ∀ way ∈ ways, ∀ t' fate, Turned s t way t' fate → t' = t)
    (hr : (cleanEach s t ways).result = .ok outcomes) :
    (cleanEach s t ways).tree = t ∧
      List.Forall₂ (Recorded s fun way fate => Turned s t way t fate) ways outcomes := by
  induction ways generalizing outcomes with
  | nil =>
    obtain rfl : [] = outcomes := Except.ok.inj hr
    exact ⟨rfl, .nil⟩
  | cons way ways ih =>
    rcases ho : (cleanOne s t way).result with e | outcome
    · rw [cleanEach_of_error ho] at hr
      cases hr
    rw [cleanEach_of_ok ho] at hr ⊢
    obtain ⟨rest, hrest, rfl⟩ := map_eq_ok_iff.1 hr
    obtain ⟨first, others⟩ := List.forall_mem_cons.1 hw
    obtain ⟨fate, rfl, turned⟩ := turned_of_cleanOne ho
    have same := first _ _ turned
    rw [same] at turned hrest ⊢
    obtain ⟨tree, all⟩ := ih others hrest
    exact ⟨tree, .cons ⟨fate, rfl, turned⟩ all⟩

/-! ### The whole batch -/

/-- What a run through the documents that are found does. -/
theorem cleanEach_mirrors (hs : t.Sound) (hp : t.place s.rawDir = .ok source)
    (hd : t.isDirectoryAt source = true)
    (notInside : ¬ source <+: s.cleanedDir.resolve t.current)
    (notAround : ¬ s.cleanedDir.resolve t.current <+: source)
    (steady : t.place s.cleanedDir = .error (.refused .missing s.cleanedDir) →
      IsSteady t s.cleanedDir)
    (hw : ∀ way ∈ ways, t.IsWay source way) (distinct : ways.Nodup)
    (hr : (cleanEach s t ways).result = .ok outcomes) :
    (∃ area, ¬ source <+: area ∧ ¬ area <+: source ∧
      Keeps area (IsOutput t.current outcomes) t (cleanEach s t ways).tree) ∧
    List.Forall₂ (Mirrored s t (cleanEach s t ways).tree) ways outcomes ∧
    ((t.place s.cleanedDir = .error (.refused .missing s.cleanedDir) →
        ∀ part ∈ s.cleanedDir.parts, isTooLong part = false) →
      List.Forall₂ (Recorded s fun way fate =>
          Turned s (cleanEach s t ways).tree way (cleanEach s t ways).tree fate)
        ways outcomes) := by
  rcases layout_of_apart hs hp hd notInside notAround steady with
    ⟨e, hc, hm⟩ | ⟨front, pre, here, h, resolved, missing⟩
  · have still : ∀ way ∈ ways, ∀ t' fate, Turned s t way t' fate → t' = t ∧
        Mirrored s t t way ⟨s.rawDir.join way, some (s.cleanedDir.join way), fate⟩ :=
      fun way hin t' fate => eq_of_turned hc hm (hw way hin).anchor ((hw way hin).parts_ne_nil hd)
    obtain ⟨tree, all⟩ :=
      turned_of_cleanEach (fun way hin t' fate ht => (still way hin t' fate ht).1) hr
    rw [tree]
    refine ⟨⟨_, notInside, notAround, .refl hs⟩, ?_, fun _ => all⟩
    have all' := (List.forall₂_and_left _ _).2 ⟨fun way (hin : way ∈ ways) => hin, all⟩
    refine all'.imp fun way outcome hr => ?_
    obtain ⟨hin, fate, rfl, turned⟩ := hr
    exact (still way hin t fate turned).2
  · obtain ⟨kept, all⟩ := h.run hw distinct hr
    have all' := (List.forall₂_and_left _ _).2 ⟨hw, all⟩
    refine ⟨⟨_, h.notInside, h.notAround, kept⟩, ?_, fun short => ?_⟩
    · exact all'.imp fun way outcome hr => h.mirrored hr.1 kept hr.2
    · refine all'.imp fun way outcome hr => hr.2.imp fun fate ends => ?_
      exact (h.keeps kept).turned_of_rests (h.isWay kept hr.1)
        (fun part hm => short (missing part hm).1 part (missing part hm).2) ends.rests

/-- A batch that comes to its end has found the directory of the documents and gone through those
that the patterns select there. -/
theorem exists_of_cleanDirectory (hr : (cleanDirectory s t).result = .ok outcomes) :
    ∃ source ways, t.place s.rawDir = .ok source ∧ t.isDirectoryAt source = true ∧
      t.discover s.rawDir s.patterns = .ok ways ∧ (cleanEach s t ways).result = .ok outcomes ∧
      (cleanDirectory s t).tree = (cleanEach s t ways).tree := by
  rcases hf : t.find? s.rawDir with e | - | - | octets
  · simp only [cleanDirectory, hf] at hr
    cases hr
  · simp only [cleanDirectory, hf] at hr
    cases hr
  · rcases hw : t.discover s.rawDir s.patterns with e | ways
    · simp only [cleanDirectory, hf, hw] at hr
      cases hr
    · simp only [cleanDirectory, hf, hw] at hr ⊢
      obtain ⟨source, hp, hd⟩ := FileTree.find?_eq_some_iff.1 hf
      exact ⟨source, ways, hp, FileTree.isDirectoryAt_iff.2 hd, rfl, hr, rfl⟩
  · simp only [cleanDirectory, hf] at hr
    cases hr

/-- The documents and the outputs are in directories that have nothing in common, and no pattern
leads back; the tree is one. -/
structure Apart (s : Settings) (t : FileTree) : Prop where
  sound : t.Sound
  notInside : ¬ s.rawDir.resolve t.current <+: s.cleanedDir.resolve t.current
  notAround : ¬ s.cleanedDir.resolve t.current <+: s.rawDir.resolve t.current
  plain : ∀ text ∈ s.patterns, ".." ∉ (Path.ofText text).parts

/-- **What a batch does**, if the documents and the outputs are in directories that have nothing in
common.  A directory on the way to the outputs may be missing, if no dots come after it that lead
back.  If the batch comes to its end, its outcomes are those of the documents that are found, in
their order; a clean document is in its output, one of which nothing is left has none, and the
output of one that has failed is as it was.  No other file is changed, and nothing in the directory
of the documents.  A second batch comes to the same outcomes and changes nothing, unless a directory
on the way to the outputs was missing and there is a name that is too long on that way.  The tree
has no links, and a file that is opened is written to its end. -/
theorem cleanDirectory_mirrors (h : Apart s t)
    (steady : t.place s.cleanedDir = .error (.refused .missing s.cleanedDir) →
      IsSteady t s.cleanedDir)
    (hr : (cleanDirectory s t).result = .ok outcomes) :
    (∃ ways, t.discover s.rawDir s.patterns = .ok ways ∧
      List.Forall₂ (Mirrored s t (cleanDirectory s t).tree) ways outcomes) ∧
    (∀ place octets, ¬ IsOutput t.current outcomes place →
      ((cleanDirectory s t).tree.at? place = some (.file octets) ↔
        t.at? place = some (.file octets))) ∧
    (∀ place, s.rawDir.resolve t.current <+: place →
      (cleanDirectory s t).tree.at? place = t.at? place) ∧
    ((t.place s.cleanedDir = .error (.refused .missing s.cleanedDir) →
        ∀ part ∈ s.cleanedDir.parts, isTooLong part = false) →
      (cleanDirectory s (cleanDirectory s t).tree).result = .ok outcomes ∧
      (cleanDirectory s (cleanDirectory s t).tree).tree = (cleanDirectory s t).tree) := by
  obtain ⟨hs, notInside, notAround, plain⟩ := h
  obtain ⟨source, ways, hp, hd, hw, hr, tree⟩ := exists_of_cleanDirectory hr
  obtain ⟨are, distinct, again⟩ := FileTree.discover_spec hs hp plain hw
  rw [← hs.resolve_of_place hp] at notInside notAround ⊢
  obtain ⟨⟨area, inside, around, kept⟩, all, turned⟩ :=
    cleanEach_mirrors hs hp hd notInside notAround steady are distinct hr
  rw [tree]
  -- The documents are found again, since the run leaves their directory alone.
  have same : SameBelow source t (cleanEach s t ways).tree :=
    ⟨hd, kept.directories _ hd, kept.below _ inside around⟩
  have hp' := kept.place_eq_ok hp
  refine ⟨⟨ways, hw, all⟩, fun place octets => kept.files place octets, ?_, fun short => ?_⟩
  · rintro place ⟨way, rfl⟩
    exact same.at? way
  · obtain ⟨hr', ht'⟩ := cleanEach_of_turned (turned short)
    simp only [cleanDirectory, (same.find? hp hp').1, again _ same hp', hr', ht', and_self]

end

/-! ### What an earlier run left -/

/-- The text of an object schema that allows no property at all. -/
def closedText : List Char := "\x7b\"type\":\"object\",\"additionalProperties\":false\x7d".toList

/-- Two documents, of the first of which nothing is left, and what an earlier run made of it. -/
def staleTree : FileTree :=
  ⟨(twoFiles (Text.encodeUtf8 closedText) [0x31]).entries
    ++ [(["clean"], .directory), (["clean", "a.json"], .file [0x30])], []⟩

/-- Takes the two documents and puts the clean ones where a path leads. -/
def skipInto (parts : List String) : Settings := { skipSettings with cleanedDir := ⟨.here, parts⟩ }

section

attribute [local instance] SetOrder.written

theorem wanted_first (parts : List String)
    (hr : t.read ⟨.here, ["original", "a.json"]⟩ = .ok (Text.encodeUtf8 closedText)) :
    wanted t ((skipInto parts).rawDir.join ⟨.here, ["a.json"]⟩)
      ((skipInto parts).cleanedDir.join ⟨.here, ["a.json"]⟩) = .ok none := by
  have text : textOf (Text.encodeUtf8 closedText) = .ok closedText := by with_unfolding_all rfl
  have value : Json.read closedText = .ok (.map [(.str "type", .str "object"),
      (.str "additionalProperties", .bool false)]) := by
    rw [show closedText = ['\x7b', '"', 't', 'y', 'p', 'e', '"', ':', '"', 'o', 'b', 'j', 'e', 'c',
      't', '"', ',', '"', 'a', 'd', 'd', 'i', 't', 'i', 'o', 'n', 'a', 'l', 'P', 'r', 'o', 'p', 'e',
      'r', 't', 'i', 'e', 's', '"', ':', 'f', 'a', 'l', 's', 'e', '\x7d'] from rfl]
    simp [Json.read, Json.document, Json.skipBlanks, Json.isBlank, Json.value, Json.members,
      Json.scalar, Json.word?, Json.string_plain, Json.isPlain, Json.string.eq_2, Json.push,
      Json.textOf, Text.whole?, Except.map, Fields.ofEntries]
    rfl
  have format : Document.Format.ofPath ⟨.here, ["original", "a.json"]⟩ = .json := by
    with_unfolding_all rfl
  have read : Document.read t ⟨.here, ["original", "a.json"]⟩ = .ok (.map
      [(.str "type", .str "object"), (.str "additionalProperties", .bool false)]) := by
    refine Document.read_eq_ok_iff.2 ⟨_, ⟨_, hr, text⟩, ?_⟩
    rw [format, Document.parse, value]
  exact wanted_eq_none_iff.2 ⟨_, read, by with_unfolding_all rfl⟩

theorem wanted_second (parts : List String)
    (hr : t.read ⟨.here, ["original", "b.json"]⟩ = .ok [0x31]) :
    wanted t ((skipInto parts).rawDir.join ⟨.here, ["b.json"]⟩)
      ((skipInto parts).cleanedDir.join ⟨.here, ["b.json"]⟩) = .ok (some ['1', '\n']) := by
  have format : Document.Format.ofPath ⟨.here, ["b.json"]⟩ = .json := by with_unfolding_all rfl
  have read : Document.read t ((skipInto parts).rawDir.join ⟨.here, ["b.json"]⟩)
      = .ok (.int 1) := by
    refine Document.read_eq_ok_iff.2 ⟨['1'], ⟨_, hr, rfl⟩, ?_⟩
    rw [Document.Format.ofPath_join _ rfl (List.cons_ne_nil _ _), format]
    with_unfolding_all rfl
  refine wanted_eq_some_iff.2 ⟨_, .int 1, read, by with_unfolding_all rfl, ?_⟩
  rw [Document.Format.ofPath_join _ rfl (List.cons_ne_nil _ _), format]
  with_unfolding_all rfl

theorem plain_skipInto (parts : List String) :
    ∀ text ∈ (skipInto parts).patterns, ".." ∉ (Path.ofText text).parts := by
  show ∀ text ∈ ["*.json"], ".." ∉ (Path.ofText text).parts
  decide

theorem apart_skipInto {parts : List String}
    (notInside : ¬ ["original"] <+: (Path.mk .here parts).resolve [])
    (notAround : ¬ (Path.mk .here parts).resolve [] <+: ["original"]) :
    Apart (skipInto parts) staleTree :=
  ⟨⟨by decide, by decide, by decide, by decide⟩, notInside, notAround, plain_skipInto parts⟩

/-- The two documents are found in every tree in which they are the only ones. -/
theorem cleanDirectory_skipInto (parts : List String)
    (hr : t.place ⟨.here, ["original"]⟩ = .ok ["original"])
    (h : SameBelow ["original"] (twoFiles (Text.encodeUtf8 closedText) [0x31]) t) :
    (cleanDirectory (skipInto parts) t).result
        = (cleanEach (skipInto parts) t [⟨.here, ["a.json"]⟩, ⟨.here, ["b.json"]⟩]).result ∧
      (cleanDirectory (skipInto parts) t).tree
        = (cleanEach (skipInto parts) t [⟨.here, ["a.json"]⟩, ⟨.here, ["b.json"]⟩]).tree := by
  have sound : (twoFiles (Text.encodeUtf8 closedText) [0x31]).Sound :=
    ⟨by decide, by decide, by decide, by decide⟩
  have ways : t.discover (skipInto parts).rawDir (skipInto parts).patterns
      = .ok [⟨.here, ["a.json"]⟩, ⟨.here, ["b.json"]⟩] :=
    (FileTree.discover_spec sound rfl (plain_skipInto parts) (discover_twoFiles _ _)).2.2 t h hr
  have found : t.find? (skipInto parts).rawDir = .ok (some .directory) := (h.find? rfl hr).1
  simp only [cleanDirectory, found, ways, and_self]

/-- The run of two documents. -/
theorem cleanEach_two {first second : Path} {t'' : FileTree} {fate' : Fate}
    (h : Turned s t first t' fate) (h' : Turned s t' second t'' fate') :
    (cleanEach s t [first, second]).result =
        .ok [⟨s.rawDir.join first, some (s.cleanedDir.join first), fate⟩,
          ⟨s.rawDir.join second, some (s.cleanedDir.join second), fate'⟩] ∧
      (cleanEach s t [first, second]).tree = t'' := by
  obtain ⟨ho, ht⟩ := h.cleanOne_eq
  obtain ⟨ho', ht'⟩ := h'.cleanOne_eq
  simp only [cleanEach, ho, ht, ho', ht', Except.map, and_self]

/-- The run of the two documents in the tree, the second of which is cleaned. -/
theorem cleanDirectory_staleTree (parts : List String)
    (hs : (removeStale staleTree ⟨.here, parts ++ ["a.json"]⟩).result = .ok ())
    (hr : (removeStale staleTree ⟨.here, parts ++ ["a.json"]⟩).tree.read
      ⟨.here, ["original", "b.json"]⟩ = .ok [0x31])
    (hk : (Document.store (removeStale staleTree ⟨.here, parts ++ ["a.json"]⟩).tree
      ⟨.here, parts ++ ["b.json"]⟩ ['1', '\n']).2 = .ok ()) :
    (cleanDirectory (skipInto parts) staleTree).result = .ok
        [⟨⟨.here, ["original", "a.json"]⟩, some ⟨.here, parts ++ ["a.json"]⟩, .pruned⟩,
          ⟨⟨.here, ["original", "b.json"]⟩, some ⟨.here, parts ++ ["b.json"]⟩, .cleaned none⟩] ∧
      (cleanDirectory (skipInto parts) staleTree).tree = (Document.store
        (removeStale staleTree ⟨.here, parts ++ ["a.json"]⟩).tree
        ⟨.here, parts ++ ["b.json"]⟩ ['1', '\n']).1 := by
  have first : Turned (skipInto parts) staleTree ⟨.here, ["a.json"]⟩ _ .pruned :=
    .pruned (wanted_first _ rfl) hs
  have second : Turned (skipInto parts) _ ⟨.here, ["b.json"]⟩ _ (.cleaned none) :=
    .cleaned (wanted_second _ hr) hk
  obtain ⟨result, tree⟩ := cleanDirectory_skipInto (t := staleTree) parts rfl
    ⟨rfl, rfl, rfl⟩
  obtain ⟨result', tree'⟩ := cleanEach_two first second
  exact ⟨result.trans result', tree.trans tree'⟩

/-- The file that an earlier run left is removed, and a second batch does nothing more. -/
theorem cleanDirectory_mirrors_stale :
    Apart (skipInto ["clean"]) staleTree ∧
    staleTree.place (skipInto ["clean"]).cleanedDir = .ok ["clean"] ∧
    staleTree.read ⟨.here, ["clean", "a.json"]⟩ = .ok [0x30] ∧
    ∃ outcomes, (cleanDirectory (skipInto ["clean"]) staleTree).result = .ok outcomes ∧
      outcomes.map Outcome.isPruned = [true, false] ∧
      (∃ ways, staleTree.discover ⟨.here, ["original"]⟩ ["*.json"] = .ok ways ∧
        List.Forall₂ (Mirrored (skipInto ["clean"]) staleTree
          (cleanDirectory (skipInto ["clean"]) staleTree).tree) ways outcomes) ∧
      (cleanDirectory (skipInto ["clean"])
        (cleanDirectory (skipInto ["clean"]) staleTree).tree).result = .ok outcomes := by
  have apart : Apart (skipInto ["clean"]) staleTree := apart_skipInto (by decide) (by decide)
  have there : staleTree.place (skipInto ["clean"]).cleanedDir = .ok ["clean"] := rfl
  obtain ⟨result, -⟩ := cleanDirectory_staleTree ["clean"] rfl rfl (by with_unfolding_all rfl)
  obtain ⟨found, -, -, again⟩ := cleanDirectory_mirrors apart
    (fun missing => nomatch there.symm.trans missing) result
  exact ⟨apart, there, rfl, _, result, rfl, found,
    (again fun missing => nomatch there.symm.trans missing).1⟩

/-- A name of so many octets. -/
def nameOf (size : Nat) : String := String.ofList (List.replicate size 'a')

theorem utf8ByteSize_nameOf (size : Nat) : (nameOf size).utf8ByteSize = size := by
  induction size with
  | zero => rfl
  | succ size ih =>
    rw [nameOf, List.replicate_succ, String.ofList_cons, String.utf8ByteSize_append, ← nameOf, ih,
      String.utf8ByteSize_singleton, show 'a'.utf8Size = 1 from rfl, Nat.add_comm]

theorem isFollowed_nameOf {size : Nat} (h : size ≤ 4000) :
    (Path.mk .here ["x", nameOf size, "a.json"]).IsFollowed := by
  constructor
  · simp [Path.hasNul, nameOf]
  · have sizes : "x".utf8ByteSize = 1 ∧ "/".utf8ByteSize = 1 ∧ "a.json".utf8ByteSize = 6 := by
      decide
    show ("/".intercalate ["x", nameOf size, "a.json"]).utf8ByteSize ≤ FileTree.pathLimit
    simp only [String.intercalate_cons_cons, String.intercalate_singleton,
      String.utf8ByteSize_append, utf8ByteSize_nameOf, sizes, FileTree.pathLimit]
    omega

/-- The tree with a directory on the way to the outputs. -/
def madeTree : FileTree := staleTree.put ["x"] .directory

variable {name : String} {rest : List String}

theorem ne_dots_of_long (long : isTooLong name = true) : name ≠ ".." := by
  rintro rfl
  revert long
  decide

/-- A name that is too long is noticed where the directory above is there. -/
theorem place_madeTree (long : isTooLong name = true)
    (followed : (Path.mk .here ("x" :: name :: rest)).IsFollowed) :
    madeTree.place ⟨.here, "x" :: name :: rest⟩
      = .error (.refused .nameTooLong ⟨.here, "x" :: name :: rest⟩) := by
  have refused : madeTree.follow ["x"] (name :: rest) = .error .nameTooLong := by
    rw [FileTree.follow, show madeTree.at? ["x"] = some .directory from rfl]
    dsimp only
    rw [if_neg (ne_dots_of_long long), if_pos long]
  rw [FileTree.place_of_isFollowed followed]
  show (madeTree.follow [] (["x"] ++ name :: rest)).mapError _ = _
  rw [FileTree.follow_append, show madeTree.follow [] ["x"] = .ok ["x"] from rfl]
  exact congrArg (Except.mapError _) refused

/-- It is not noticed where the directory above is missing. -/
theorem place_staleTree (followed : (Path.mk .here ("x" :: name :: rest)).IsFollowed) :
    staleTree.place ⟨.here, "x" :: name :: rest⟩
      = .error (.refused .missing ⟨.here, "x" :: name :: rest⟩) :=
  FileTree.place_eq_missing_iff.2 ⟨rfl, followed, rfl⟩

theorem removeStale_staleTree (followed : (Path.mk .here ("x" :: name :: rest)).IsFollowed) :
    removeStale staleTree ⟨.here, "x" :: name :: rest⟩ = ⟨staleTree, [], .ok ()⟩ := by
  rw [removeStale, FileTree.find?, place_staleTree followed]

theorem store_staleTree (long : isTooLong name = true)
    (followed : (Path.mk .here ["x", name]).IsFollowed) (text : List Char) :
    Document.store staleTree ⟨.here, ["x", name, "b.json"]⟩ text = (madeTree,
      .error (.document (.unwritable ⟨.here, ["x", name, "b.json"]⟩
        (.refused .nameTooLong ⟨.here, ["x", name]⟩)))) := by
  have first : staleTree.ensureParts .here ["x"] = (madeTree, .ok ()) := by
    rw [FileTree.ensureParts, FileTree.ensureDirectory_of_none rfl rfl]
    rfl
  have stopped : staleTree.makeDirectories (Path.mk .here ["x", name, "b.json"]).parent
      = (madeTree, .error (.refused .nameTooLong ⟨.here, ["x", name]⟩)) := by
    show staleTree.ensureParts .here (["x"] ++ [name]) = _
    rw [FileTree.ensureParts_of_missing
      (FileTree.ensureDirectory_of_place_error (place_staleTree followed)), first]
    simp only [List.singleton_append,
      FileTree.ensureDirectory_of_place_error (place_madeTree long followed)]
  exact Document.store_of_makeDirectories stopped

/-- The second document is refused for the name once the directory is made, and the first one ends
the next batch. -/
theorem cleanDirectory_long (long : isTooLong name = true)
    (followed : (Path.mk .here ["x", name, "a.json"]).IsFollowed) :
    Apart (skipInto ["x", name]) staleTree ∧
    ∃ outcomes, (cleanDirectory (skipInto ["x", name]) staleTree).result = .ok outcomes ∧
      (cleanDirectory (skipInto ["x", name])
        (cleanDirectory (skipInto ["x", name]) staleTree).tree).result ≠ .ok outcomes := by
  have resolved : (Path.mk .here ["x", name]).resolve [] = ["x", name] := by
    simp [Path.resolve, Path.followDots, Path.isAbsolute, ne_dots_of_long long]
  have stale := removeStale_staleTree followed
  have above : (Path.mk .here ["x", name]).IsFollowed := Path.IsFollowed.of_concat followed
  have stored := store_staleTree long above ['1', '\n']
  have first : Turned (skipInto ["x", name]) staleTree ⟨.here, ["a.json"]⟩ staleTree .pruned := by
    have turned : Turned (skipInto ["x", name]) staleTree ⟨.here, ["a.json"]⟩
        (removeStale staleTree ⟨.here, ["x", name, "a.json"]⟩).tree .pruned :=
      .pruned (wanted_first _ rfl) (congrArg Run.result stale)
    rwa [stale] at turned
  obtain ⟨f, second⟩ : ∃ f,
      Turned (skipInto ["x", name]) staleTree ⟨.here, ["b.json"]⟩ madeTree (.failed f) := by
    have turned : Turned (skipInto ["x", name]) staleTree ⟨.here, ["b.json"]⟩
        (Document.store staleTree ⟨.here, ["x", name, "b.json"]⟩ ['1', '\n']).1
        (.failed (.document _)) :=
      .unwritten rfl (wanted_second _ rfl) (congrArg Prod.snd stored)
    rw [stored] at turned
    exact ⟨_, turned⟩
  obtain ⟨result, tree⟩ := cleanDirectory_skipInto (t := staleTree) ["x", name] rfl ⟨rfl, rfl, rfl⟩
  obtain ⟨result', tree'⟩ := cleanEach_two first second
  refine ⟨apart_skipInto (by simp [resolved]) (by simp [resolved]), _, result.trans result',
    fun h => ?_⟩
  obtain ⟨n, read, clean⟩ := wanted_eq_none_iff.1 (wanted_first (t := madeTree) ["x", name] rfl)
  have escapes := (Escapes.stale read clean (place_madeTree long followed)).cleanOne_result
  rw [tree, tree', (cleanDirectory_skipInto (t := madeTree) ["x", name] rfl ⟨rfl, rfl, rfl⟩).1,
    cleanEach_of_error escapes] at h
  cases h

/-- **Two dots after a missing directory, and names that are too long.**  In the first batch nothing
is left of a document, and there is a file in its output all the same; the second batch comes to its
end once and not again. -/
theorem cleanDirectory_unsteady :
    (Apart (skipInto ["x", "..", "clean"]) staleTree ∧ ∃ outcomes,
      (cleanDirectory (skipInto ["x", "..", "clean"]) staleTree).result = .ok outcomes ∧
      (∃ outcome ∈ outcomes, outcome.isPruned = true ∧
        outcome.output = some ⟨.here, ["x", "..", "clean", "a.json"]⟩) ∧
      (cleanDirectory (skipInto ["x", "..", "clean"]) staleTree).tree.find?
        ⟨.here, ["x", "..", "clean", "a.json"]⟩ = .ok (some (.file [0x30]))) ∧
    (Apart (skipInto ["x", nameOf 256]) staleTree ∧ ∃ outcomes,
      (cleanDirectory (skipInto ["x", nameOf 256]) staleTree).result = .ok outcomes ∧
      (cleanDirectory (skipInto ["x", nameOf 256])
        (cleanDirectory (skipInto ["x", nameOf 256]) staleTree).tree).result ≠ .ok outcomes) := by
  constructor
  · obtain ⟨result, tree⟩ := cleanDirectory_staleTree ["x", "..", "clean"] rfl rfl
      (by with_unfolding_all rfl)
    refine ⟨apart_skipInto (by decide) (by decide), _, result,
      ⟨_, List.mem_cons_self, rfl, rfl⟩, ?_⟩
    rw [tree]
    with_unfolding_all rfl
  · refine cleanDirectory_long ?_ (isFollowed_nameOf (by decide))
    rw [isTooLong, utf8ByteSize_nameOf]
    decide

end

end Batch

end PlainSchema
