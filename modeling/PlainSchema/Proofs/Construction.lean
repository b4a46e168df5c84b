/-
PlainSchema/Proofs/Construction.lean

What the value of a YAML document can be.

A survey of a tree is made in steps, and no step adds a scalar whose value holds other
values (`Survey.Plain`).  So no value of a node is a pair: pairs are made for the list
of an ordered mapping, which is the value of a node in their stead
(`not_tuple_of_value`), and no entry of a mapping has one for its value
(`not_tuple_of_readOuter`).

The survey of a mapping of one entry is made out in full, for a section of one word
(`value_section`).
-/
import Mathlib.Data.List.Induction
import PlainSchema.Proofs.Cleaning
import PlainSchema.Yaml.Value

namespace PlainSchema

/-- Whether a value holds no other values. -/
def Node.IsSingle : Node → Prop
  | list _ | map _ | tuple _ | set _ | shared _ _ => False
  | _ => True

theorem foldlM_induction {α σ ε : Type} {f : σ → α → Except ε σ} {P : σ → Prop}
    (step : ∀ s x s', P s → f s x = .ok s' → P s') {xs : List α} {s s' : σ} (hs : P s)
    (h : xs.foldlM f s = .ok s') : P s' := by
  induction xs generalizing s with
  | nil =>
    obtain rfl := Except.ok.inj h
    exact hs
  | cons x xs ih =>
    rw [List.foldlM_cons] at h
    obtain ⟨mid, first, rest⟩ := bind_eq_ok_iff.1 h
    exact ih (step s x mid hs first) rest

/-- What a function gives for the members of a list, it gives for one of them. -/
theorem exists_of_mem_mapM {α β : Type} {f : α → Option β} {xs : List α} {ys : List β} {y : β}
    (h : xs.mapM f = some ys) (hy : y ∈ ys) : ∃ x ∈ xs, f x = some y := by
  induction xs generalizing ys with
  | nil =>
    obtain rfl := Option.some.inj h
    cases hy
  | cons x xs ih =>
    rw [List.mapM_cons] at h
    obtain ⟨y', hx, h⟩ := Option.bind_eq_some_iff.1 h
    obtain ⟨ys', hxs, h⟩ := Option.bind_eq_some_iff.1 h
    obtain rfl := Option.some.inj h
    rcases List.mem_cons.1 hy with rfl | hy
    · exact ⟨x, List.mem_cons_self, hx⟩
    · obtain ⟨z, hz, hy⟩ := ih hxs hy
      exact ⟨z, List.mem_cons_of_mem _ hz, hy⟩

namespace Fields

variable {κ : Type} {same : κ → κ → Bool} {fs : List (κ × Node)} {k key : κ} {v w : Node}

/-- A value that is there after an entry was added is that of the entry, or was there before. -/
theorem eq_or_exists_of_mem_insert (h : (k, v) ∈ insert same fs key w) :
    v = w ∨ ∃ k', (k', v) ∈ fs := by
  induction fs with
  | nil =>
    obtain ⟨-, rfl⟩ := Prod.mk.inj (List.mem_singleton.1 h)
    exact .inl rfl
  | cons f fs ih =>
    obtain ⟨k', w'⟩ := f
    rw [insert] at h
    split at h
    · rcases List.mem_cons.1 h with e | h
      · obtain ⟨-, rfl⟩ := Prod.mk.inj e
        exact .inl rfl
      · exact .inr ⟨k, List.mem_cons_of_mem _ h⟩
    · rcases List.mem_cons.1 h with e | h
      · obtain ⟨-, rfl⟩ := Prod.mk.inj e
        exact .inr ⟨k', List.mem_cons_self⟩
      · refine (ih h).imp id ?_
        rintro ⟨k', h⟩
        exact ⟨k', List.mem_cons_of_mem _ h⟩

/-- The value of an entry comes from one of the entries read. -/
theorem exists_of_mem_ofEntries (h : (k, v) ∈ ofEntries same fs) : ∃ k', (k', v) ∈ fs := by
  induction fs using List.reverseRecOn generalizing k with
  | nil => cases h
  | append_singleton fs f ih =>
    rw [ofEntries, List.foldl_append] at h
    rcases eq_or_exists_of_mem_insert h with rfl | ⟨k', h⟩
    · exact ⟨f.1, List.mem_append_right _ List.mem_cons_self⟩
    · obtain ⟨k'', h⟩ := ih h
      exact ⟨k'', List.mem_append_left _ h⟩

end Fields

theorem Node.exists_of_mem_unlabelledFields {fs : Fields} {k v : Node}
    (h : (k, v) ∈ Node.unlabelledFields fs) : ∃ f ∈ fs, v = f.2.unlabelled := by
  induction fs with
  | nil => cases h
  | cons f fs ih =>
    obtain ⟨k', v'⟩ := f
    rw [Node.unlabelledFields] at h
    rcases List.mem_cons.1 h with e | h
    · obtain ⟨-, rfl⟩ := Prod.mk.inj e
      exact ⟨_, List.mem_cons_self, rfl⟩
    · obtain ⟨f, hf, e⟩ := ih h
      exact ⟨f, List.mem_cons_of_mem _ hf, e⟩

namespace Yaml

variable {s s' : Survey} {t : Tree} {ts : List Tree} {es : List (Tree × Tree)} {n v : Node}
  {deeper : Option Node} {levels : Nat} {pair : Bool} {text : List Char}

theorem isSingle_of_timestamp {cs : List Char} (h : timestamp cs = .ok v) : v.IsSingle := by
  unfold timestamp at h
  split at h
  · cases h
  · next w _ =>
    split at h
    · rcases hd : Date.of w.year w.month w.day with e | d <;> rw [hd] at h
      · cases h
      · obtain rfl := Except.ok.inj h
        trivial
    · next time _ =>
      rcases hd : DateTime.of w.year w.month w.day time.hour time.minute time.second
        (microseconds time.fraction) time.zone with e | d <;> rw [hd] at h
      · cases h
      · obtain rfl := Except.ok.inj h
        trivial

/-- No value of a text under a tag holds other values. -/
theorem isSingle_of_scalarValue {tag text : String} (h : scalarValue? tag text = some (.ok v)) :
    v.IsSingle := by
  have mapped : ∀ {α : Type} {f : α → Node} {a : Except Fault α}, some (a.map f) = some (.ok v) →
      (∀ x, (f x).IsSingle) → v.IsSingle := by
    intro α f a h hf
    obtain ⟨x, -, rfl⟩ := map_eq_ok_iff.1 (Option.some.inj h)
    exact hf x
  unfold scalarValue? at h
  split at h
  · obtain rfl := Except.ok.inj (Option.some.inj h)
    trivial
  split at h
  · exact mapped h fun _ => trivial
  split at h
  · exact mapped h fun _ => trivial
  split at h
  · exact mapped h fun _ => trivial
  split at h
  · exact mapped h fun _ => trivial
  split at h
  · exact isSingle_of_timestamp (Option.some.inj h)
  split at h
  · obtain rfl := Except.ok.inj (Option.some.inj h)
    trivial
  · cases h

namespace Survey

/-- No value that is known of a scalar holds other values. -/
def Plain (s : Survey) : Prop :=
  ∀ label v saysNan, s.parts.get? label = some (.scalar v saysNan) → v.IsSingle

theorem plain_start : start.Plain := by
  intro label v saysNan h
  simp [start] at h

/-- A part that is no scalar, or has the value of a text, may be added. -/
theorem Plain.insert {label : Nat} {part : Part} (hs : s.Plain)
    (hp : ∀ v saysNan, part = .scalar v saysNan → v.IsSingle) {waiting : List Tree}
    {strings merged : List Nat} :
    (Survey.mk (s.parts.insert label part) waiting strings merged).Plain := by
  intro label' v saysNan h
  rw [Std.HashMap.get?_insert] at h
  split at h
  · exact hp v saysNan (Option.some.inj h)
  · exact hs label' v saysNan h

theorem isSingle_of_scalar {part : Part} (h : s.scalar t = .ok part) :
    ∀ v saysNan, part = .scalar v saysNan → v.IsSingle := by
  rintro w saysNan rfl
  have known : ∀ {tag text}, scalar.known tag text = .ok (.scalar w saysNan) → w.IsSingle := by
    intro tag text h
    unfold scalar.known at h
    split at h
    · next a ha =>
      obtain ⟨v, rfl, e⟩ := map_eq_ok_iff.1 h
      obtain ⟨rfl, -⟩ := Part.scalar.inj e
      exact isSingle_of_scalarValue ha
    · cases h
  unfold scalar at h
  split at h
  · cases h
  · dsimp only at h
    split at h
    · split at h
      · cases h
      · exact known h
    · exact known h

theorem Plain.visit (hs : s.Plain) (h : s.visit t = .ok s') : s'.Plain := by
  unfold Survey.visit at h
  split at h
  · obtain rfl := Except.ok.inj h
    exact hs
  · split at h
    · obtain rfl := Except.ok.inj h
      refine hs.insert ?_
      rintro _ _ ⟨⟩
    · obtain ⟨part, hp, rfl⟩ := map_eq_ok_iff.1 h
      exact hs.insert (isSingle_of_scalar hp)

theorem Plain.visitEntry {entry : Tree × Tree} (hs : s.Plain) (h : s.visitEntry entry = .ok s') :
    s'.Plain := by
  obtain ⟨mid, hk, hv⟩ := bind_eq_ok_iff.1 h
  exact (hs.visit hk).visit hv

theorem Plain.visitMapping (hs : s.Plain) (h : s.visitMapping t = .ok (s', es)) : s'.Plain := by
  unfold Survey.visitMapping at h
  split at h
  · obtain ⟨m, -, h⟩ := bind_eq_ok_iff.1 h
    obtain ⟨s₁, hf, h⟩ := bind_eq_ok_iff.1 h
    obtain ⟨rfl, -⟩ := Prod.mk.inj (Except.ok.inj h)
    refine foldlM_induction (P := Plain) ?_ ?_ hf
    · intro s entry s' hs h
      dsimp only at h
      split at h
      · cases h
      · exact hs.visitEntry h
    · exact hs
  · cases h
  · cases h

theorem Plain.visitPairs (hs : s.Plain) (h : s.visitPairs ts = .ok (s', es)) : s'.Plain := by
  induction ts generalizing s s' es with
  | nil =>
    obtain ⟨rfl, -⟩ := Prod.mk.inj (Except.ok.inj h)
    exact hs
  | cons t ts ih =>
    unfold Survey.visitPairs at h
    split at h
    · next heq =>
      cases heq
    · next heq =>
      obtain ⟨-, rfl⟩ := List.cons.inj heq
      obtain ⟨entries, -, h⟩ := bind_eq_ok_iff.1 h
      split at h
      · obtain ⟨s₁, hv, h⟩ := bind_eq_ok_iff.1 h
        obtain ⟨⟨s₂, more⟩, hp, h⟩ := bind_eq_ok_iff.1 h
        obtain ⟨rfl, -⟩ := Prod.mk.inj (Except.ok.inj h)
        exact ih (hs.visitEntry hv) hp
      · cases h
    · cases h
    · cases h

theorem Plain.look (hs : s.Plain) (h : s.look t = .ok s') : s'.Plain := by
  -- A collection stands for its members, and never for a scalar.
  have finish : ∀ {a : Except Fault (Survey × Part)},
      (a >>= fun p => pure { p.1 with parts := p.1.parts.insert t.label p.2 }) = .ok s' →
      (∀ s₁ part, a = .ok (s₁, part) → s₁.Plain ∧ ∀ v saysNan, part ≠ .scalar v saysNan) →
      s'.Plain := by
    intro a h ha
    obtain ⟨⟨s₁, part⟩, hp, h⟩ := bind_eq_ok_iff.1 h
    obtain rfl := Except.ok.inj h
    obtain ⟨plain, collection⟩ := ha s₁ part hp
    exact plain.insert fun v saysNan e => absurd e (collection v saysNan)
  unfold Survey.look at h
  dsimp only at h
  split at h
  · refine finish h fun s₁ part hp => ?_
    obtain ⟨⟨s₂, es⟩, hm, e⟩ := map_eq_ok_iff.1 hp
    obtain ⟨rfl, rfl⟩ := Prod.mk.inj e
    exact ⟨hs.visitMapping hm, by simp⟩
  split at h
  · refine finish h fun s₁ part hp => ?_
    obtain ⟨⟨s₂, es⟩, hm, e⟩ := map_eq_ok_iff.1 hp
    obtain ⟨rfl, rfl⟩ := Prod.mk.inj e
    exact ⟨hs.visitMapping hm, by simp⟩
  split at h
  · split at h
    · refine finish h fun s₁ part hp => ?_
      obtain ⟨s₂, hf, e⟩ := map_eq_ok_iff.1 hp
      obtain ⟨rfl, rfl⟩ := Prod.mk.inj e
      exact ⟨foldlM_induction (fun _ _ _ hs h => Plain.visit hs h) hs hf, by simp⟩
    · refine finish h fun s₁ part hp => ?_
      obtain ⟨⟨s₂, es⟩, hm, e⟩ := map_eq_ok_iff.1 hp
      obtain ⟨rfl, rfl⟩ := Prod.mk.inj e
      exact ⟨hs.visitPairs hm, by simp⟩
  · cases h
  · cases h

theorem Plain.rounds {bound : Nat} (hs : s.Plain) (h : s.rounds bound = .ok s') : s'.Plain := by
  induction bound generalizing s with
  | zero =>
    rw [Survey.rounds] at h
    split at h
    · obtain rfl := Except.ok.inj h
      exact hs
    · cases h
  | succ bound ih =>
    rw [Survey.rounds] at h
    split at h
    · obtain rfl := Except.ok.inj h
      exact hs
    · obtain ⟨s₁, hf, h⟩ := bind_eq_ok_iff.1 h
      refine ih (foldlM_induction (fun _ _ _ hs h => Plain.look hs h) ?_ hf) h
      exact hs

theorem plain_of (h : Survey.of t = .ok s) : s.Plain := by
  obtain ⟨s₁, hv, h⟩ := bind_eq_ok_iff.1 h
  exact (plain_start.visit hv).rounds h

/-! ### Values -/

theorem unlabelled_labelledScalar {label : Nat} (h : v.IsSingle) :
    (labelledScalar label v).unlabelled = v := by
  cases v <;> first
    | rfl
    | exact h.elim

theorem unlabelled_labelledIn {label : Nat} :
    (labelledIn pair label v).unlabelled = v.unlabelled := by
  cases pair <;> rfl

/-- No node stands for a pair, and no entry of a mapping that a node stands for has one for its
value. -/
theorem Plain.not_tuple_of_value (hs : s.Plain) (hd : ∀ n, deeper = some n → n = .null)
    (h : s.value? deeper pair levels t = some n) (xs : List Node) :
    n.unlabelled ≠ .tuple xs ∧
      ∀ fs, n.unlabelled = .map fs → ∀ f ∈ fs, f.2 ≠ .tuple xs := by
  induction levels generalizing pair t n with
  | zero =>
    obtain rfl := hd n h
    exact ⟨nofun, nofun⟩
  | succ levels ih =>
    rw [Survey.value?] at h
    dsimp only at h
    obtain ⟨part, hp, h⟩ := Option.bind_eq_some_iff.1 h
    cases part with
    | scalar v saysNan =>
      obtain rfl := Option.some.inj h
      have single := hs _ _ _ hp
      rw [unlabelled_labelledScalar single]
      constructor
      · rintro rfl
        exact single
      · rintro fs rfl
        exact single.elim
    | waiting => cases h
    | list ts =>
      obtain ⟨ys, -, h⟩ := Option.bind_eq_some_iff.1 h
      obtain rfl := Option.some.inj h
      rw [unlabelled_labelledIn]
      exact ⟨nofun, nofun⟩
    | map es =>
      obtain ⟨fs, hf, h⟩ := Option.bind_eq_some_iff.1 h
      obtain rfl := Option.some.inj h
      obtain ⟨read, hr, hf⟩ := Option.bind_eq_some_iff.1 hf
      obtain rfl := Option.some.inj hf
      rw [unlabelled_labelledIn]
      refine ⟨nofun, ?_⟩
      rintro gs e ⟨k, v⟩ hm
      obtain rfl := Node.map.inj e
      -- The entry goes back to one of the tree.
      obtain ⟨f, hf, rfl⟩ := Node.exists_of_mem_unlabelledFields hm
      obtain ⟨⟨key, w⟩, he, rfl⟩ := List.mem_map.1 hf
      obtain ⟨key', he⟩ := Fields.exists_of_mem_ofEntries he
      obtain ⟨⟨tk, tv⟩, -, he⟩ := exists_of_mem_mapM hr he
      obtain ⟨key, -, he⟩ := Option.bind_eq_some_iff.1 he
      obtain ⟨value, hv, he⟩ := Option.bind_eq_some_iff.1 he
      obtain ⟨-, rfl⟩ := Prod.mk.inj (Option.some.inj he)
      exact (ih hv).1
    | set es =>
      obtain ⟨fs, -, h⟩ := Option.bind_eq_some_iff.1 h
      obtain rfl := Option.some.inj h
      exact ⟨nofun, nofun⟩
    | pairs es =>
      obtain ⟨ps, -, h⟩ := Option.bind_eq_some_iff.1 h
      obtain rfl := Option.some.inj h
      rw [unlabelled_labelledIn]
      exact ⟨nofun, nofun⟩

end Survey

/-- No entry of a mapping that a tree shows has a pair for its value. -/
theorem not_tuple_of_shown {fs : Fields} (h : t.shown = .ok n) (hn : n.unlabelled = .map fs)
    (xs : List Node) : ∀ f ∈ fs, f.2 ≠ .tuple xs := by
  obtain ⟨s, deeper, levels, hs, hd, hv⟩ : ∃ s deeper levels, Survey.of t = .ok s ∧
      (∀ n, deeper = some n → n = .null) ∧ s.value? deeper false levels t = some n := by
    unfold Tree.shown at h
    split at h <;> obtain ⟨s, hs, h⟩ := bind_eq_ok_iff.1 h <;> split at h
    · next hv =>
      obtain rfl := Except.ok.inj h
      exact ⟨s, _, _, hs, fun n e => (Option.some.inj e).symm, hv⟩
    · cases h
    · next hv =>
      obtain rfl := Except.ok.inj h
      exact ⟨s, _, _, hs, fun n e => (by cases e), hv⟩
    · cases h
  exact ((Survey.plain_of hs).not_tuple_of_value hd hv xs).2 fs hn

theorem shown_of_spelledShown (h : t.spelledShown = .ok n) : t.spelled.shown = .ok n := by
  unfold Tree.spelledShown at h
  split at h
  · cases h
  · split at h
    · cases h
    · cases h
    · next hv => rwa [← Except.ok.inj h]

theorem shown_of_seen (h : t.seen = .ok n) : t.shown = .ok n := by
  unfold Tree.seen at h
  split at h
  · obtain ⟨_, -, h⟩ := bind_eq_ok_iff.1 h
    cases h
  · exact h

/-- No entry of a settings file that is a mapping has a pair for its value. -/
theorem not_tuple_of_readOuter {fs : Fields} (h : readOuter text = .ok n)
    (hn : n.unlabelled = .map fs) (xs : List Node) : ∀ f ∈ fs, f.2 ≠ .tuple xs := by
  obtain ⟨t, -, h⟩ := bind_eq_ok_iff.1 h
  split at h
  · obtain rfl := Except.ok.inj h
    cases hn
  · exact not_tuple_of_shown (shown_of_seen h) hn xs

/-- The same goes for a file with halves of surrogate pairs. -/
theorem not_tuple_of_readSpelled {fs : Fields} (h : readSpelled text = .ok n)
    (hn : n.unlabelled = .map fs) (xs : List Node) : ∀ f ∈ fs, f.2 ≠ .tuple xs := by
  obtain ⟨t, -, h⟩ := bind_eq_ok_iff.1 h
  split at h
  · obtain rfl := Except.ok.inj h
    cases hn
  · exact not_tuple_of_shown (shown_of_spelledShown h) hn xs

/-! ### Mappings of one entry -/

theorem standard_inj {a b : String} : standard a = standard b ↔ a = b :=
  String.append_right_inj _

theorem str_ne_value : standard "str" ≠ standard "value" := by
  rw [ne_eq, standard_inj]
  decide

theorem str_ne_merge : standard "str" ≠ standard "merge" := by
  rw [ne_eq, standard_inj]
  decide

theorem map_ne_value : standard "map" ≠ standard "value" := by
  rw [ne_eq, standard_inj]
  decide

theorem str_not_mem_collectionTags : standard "str" ∉ collectionTags := by
  simp [collectionTags, standard_inj]

/-- A mapping of one entry, whose key is a word. -/
def entryMapping (label : Nat) (key : String) (v : Tree) : Tree :=
  .mapping label (standard "map") [(.scalar (label + 1) (standard "str") key, v)]

variable {label : Nat} {key word : String} {value : Tree}

theorem merge_entry : merge [(.scalar label (standard "str") key, value)] =
    .ok ⟨[], [(.scalar label (standard "str") key, value)], []⟩ := by
  simp [merge, Tree.tag, str_ne_merge, Merged.none, pure, bind, Except.pure, Except.bind]

theorem levels_entryMapping :
    (entryMapping label key value).levels = 1 + max 1 value.levels := by
  simp [entryMapping, Tree.levels, entryLevels]

namespace Survey

/-- A word stands for its text. -/
theorem visit_word (h : label ∉ s.parts) : s.visit (.scalar label (standard "str") word) =
    .ok { s with parts := s.parts.insert label (.scalar (.str word) (saysNan word)) } := by
  have value : s.scalar (.scalar label (standard "str") word) =
      .ok (.scalar (.str word) (saysNan word)) := by
    simp [scalar, Survey.text, tag, Tree.tag, scalar.known, scalarValue?, standard_inj, Except.map]
  simp [visit, tag, Tree.tag, Tree.label, h, str_ne_value, str_not_mem_collectionTags, value,
    Except.map]

/-- A mapping waits to be looked at. -/
theorem visit_entryMapping (h : label ∉ s.parts) :
    s.visit (entryMapping label key value) = .ok { s with
      parts := s.parts.insert label .waiting
      waiting := entryMapping label key value :: s.waiting } := by
  have collection : standard "map" ∈ collectionTags := List.mem_cons_self
  simp [visit, tag, entryMapping, Tree.tag, Tree.label, h, map_ne_value, collection]

/-- When a mapping of one entry is looked at, its key is found first and then its value. -/
theorem look_entryMapping (hk : label + 1 ∉ s.parts)
    (hv : ({ s with
      parts := s.parts.insert (label + 1) (.scalar (.str key) (saysNan key))
      merged := label :: s.merged } : Survey).visit value = .ok s') :
    s.look (entryMapping label key value) = .ok { s' with
      parts := s'.parts.insert label
        (.map [(.scalar (label + 1) (standard "str") key, value)]) } := by
  have mapping : (entryMapping label key value).tag = standard "map" := rfl
  have found : ({ s with merged := label :: s.merged } : Survey).visit
      (.scalar (label + 1) (standard "str") key) = .ok { s with
        parts := s.parts.insert (label + 1) (.scalar (.str key) (saysNan key))
        merged := label :: s.merged } := visit_word hk
  have visited : s.visitMapping (entryMapping label key value) =
      .ok (s', [(.scalar (label + 1) (standard "str") key, value)]) := by
    simp [visitMapping, entryMapping, merge_entry, bind, Except.bind, Merged.entries, Tree.tag,
      str_ne_value, str_not_mem_collectionTags, visitEntry, found, hv, pure, Except.pure]
  unfold look
  rw [if_pos mapping, visited]
  rfl

theorem value?_word {known : Bool} (h : s.parts.get? label = some (.scalar (.str word) known)) :
    s.value? deeper pair (levels + 1) (.scalar label (standard "str") word) = some (.str word) := by
  unfold value?
  rw [Tree.label, h]
  rfl

theorem value?_entryMapping {known : Bool}
    (hm : s.parts.get? label = some (.map [(.scalar (label + 1) (standard "str") key, value)]))
    (hk : s.parts.get? (label + 1) = some (.scalar (.str key) known))
    (hv : s.value? deeper false levels value = some v) :
    s.value? deeper false (levels + 1) (entryMapping label key value)
      = some (.map [(.str key, v)]) := by
  unfold value? entryMapping
  rw [Tree.label, hm]
  simp only [List.mapM_cons, List.mapM_nil, key?, Tree.label, hk, hv, bind, Option.bind, pure]
  rfl

end Survey

/-- A section of one entry, which is a word. -/
def sectionTree (name key word : String) : Tree :=
  entryMapping 0 name (entryMapping 2 key (.scalar 4 (standard "str") word))

namespace Survey

/-- The section waits while its name is found, and is looked at in the next round. -/
theorem of_sectionTree {name : String} : ∃ s, Survey.of (sectionTree name key word) = .ok s ∧
    s.parts.get? 0 = some (.map [(.scalar 1 (standard "str") name,
      entryMapping 2 key (.scalar 4 (standard "str") word))]) ∧
    s.parts.get? 1 = some (.scalar (.str name) (saysNan name)) ∧
    s.parts.get? 2 = some (.map [(.scalar 3 (standard "str") key,
      .scalar 4 (standard "str") word)]) ∧
    s.parts.get? 3 = some (.scalar (.str key) (saysNan key)) ∧
    s.parts.get? 4 = some (.scalar (.str word) (saysNan word)) := by
  have levels : (sectionTree name key word).levels = 3 := by
    simp [sectionTree, levels_entryMapping, Tree.levels]
  have whole : start.visit (sectionTree name key word) =
      .ok ⟨(∅ : Std.HashMap _ _).insert 0 .waiting, [sectionTree name key word], [], []⟩ :=
    visit_entryMapping (by simp [start])
  have outer : (⟨(∅ : Std.HashMap _ _).insert 0 .waiting, [], [], []⟩ : Survey).look
      (entryMapping 0 name (entryMapping 2 key (.scalar 4 (standard "str") word))) = .ok _ :=
    look_entryMapping (by simp) (visit_entryMapping (by simp))
  have looked : Survey.of (sectionTree name key word) = .ok {
      parts := (((((((∅ : Std.HashMap _ _).insert 0 .waiting).insert 1
        (.scalar (.str name) (saysNan name))).insert 2 .waiting).insert 0
          (.map [(.scalar 1 (standard "str") name,
            entryMapping 2 key (.scalar 4 (standard "str") word))])).insert 3
        (.scalar (.str key) (saysNan key))).insert 4
        (.scalar (.str word) (saysNan word))).insert 2
          (.map [(.scalar 3 (standard "str") key, .scalar 4 (standard "str") word)])
      waiting := []
      strings := []
      merged := [2, 0] } := by
    unfold Survey.of
    rw [whole, levels]
    show (List.foldlM look _ [sectionTree name key word] >>= rounds 2) = _
    rw [List.foldlM_cons, sectionTree, outer]
    show (List.foldlM look _ [entryMapping 2 key (.scalar 4 (standard "str") word)] >>= rounds 1)
      = _
    rw [List.foldlM_cons, look_entryMapping (by simp) (visit_word (by simp))]
    rfl
  exact ⟨_, looked, by simp [Std.HashMap.getElem_insert]⟩

end Survey

theorem value_section {name : String} : (sectionTree name key word).value =
    .ok (.map [(.str name, .map [(.str key, .str word)])]) := by
  obtain ⟨s, hs, outer, first, inner, second, third⟩ := @Survey.of_sectionTree key word name
  have levels : (sectionTree name key word).levels = 3 := by
    simp [sectionTree, levels_entryMapping, Tree.levels]
  have hv : s.value? none false 3 (sectionTree name key word)
      = some (.map [(.str name, .map [(.str key, .str word)])]) :=
    Survey.value?_entryMapping outer first
      (Survey.value?_entryMapping inner second (Survey.value?_word third))
  simp only [Tree.value, hs, bind, Except.bind, levels, hv]
  rfl

end Yaml

end PlainSchema
