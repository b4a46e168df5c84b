/-
PlainSchema/Proofs/RoundTrip.lean

Documents that are written as JSON and read again.

The writer's text stands for a tree, and the reader takes the text for what the tree
says, so a document that has a text comes back as `Returns` tells: days and moments as
their ISO texts, tuples as lists, keys as the texts of their names, and labels are gone.
This rests on names that do not come twice in a mapping.  Where one does, the reader
keeps one of the values, and the other entries are lost (`render_json_wellFormed_iff`).

A document of the values that JSON has comes back as it was, but for its days and
moments (`parse_render_json`).
-/
import PlainSchema.Document.Text
import PlainSchema.Proofs.Reading

namespace PlainSchema

/-! ### Entries with different keys -/

namespace Fields

variable {same : Node → Node → Bool} {fs gs : Fields}

theorem insert_of_new {k v : Node} (h : ∀ f ∈ fs, same f.1 k = false) :
    insert same fs k v = fs ++ [(k, v)] := by
  induction fs with
  | nil => rfl
  | cons f fs ih =>
    obtain ⟨hf, hfs⟩ := List.forall_mem_cons.1 h
    rw [insert, if_neg (by rw [hf]; exact Bool.false_ne_true), ih hfs, List.cons_append]

/-- Entries without a key that comes twice are the entries of a mapping. -/
theorem ofEntries_of_pairwise (h : fs.Pairwise fun f g => same f.1 g.1 = false) :
    ofEntries same fs = fs := by
  have step : ∀ gs, (gs ++ fs).Pairwise (fun f g => same f.1 g.1 = false) →
      fs.foldl (fun fs f => insert same fs f.1 f.2) gs = gs ++ fs := by
    clear h
    induction fs with
    | nil => simp
    | cons f fs ih =>
      intro gs hp
      obtain ⟨k, v⟩ := f
      have new : ∀ g ∈ gs, same g.1 k = false :=
        fun g hg => (List.pairwise_append.1 hp).2.2 g hg (k, v) List.mem_cons_self
      have added : insert same gs k v = gs ++ [(k, v)] := insert_of_new new
      simp only [List.foldl_cons, added]
      rw [ih _ (by simpa using hp), List.append_assoc, List.singleton_append]
  exact step [] h

end Fields

/-! ### What comes back -/

mutual
/-- Whether a value comes back as another one when it is written and read.  Of a float this says no
more than that it comes back as a float. -/
inductive Returns : Node → Node → Prop
  | null : Returns .null .null
  | bool (b : Bool) : Returns (.bool b) (.bool b)
  | int (i : Int) : Returns (.int i) (.int i)
  | float (x y : Binary64) : Returns (.float x) (.float y)
  | str (s : String) : Returns (.str s) (.str s)
  | date (d : Date) : Returns (.date d) (.str d.isoText)
  | datetime (t : DateTime) : Returns (.datetime t) (.str (t.isoText "T"))
  | list {xs ys : List Node} : ReturnsAll xs ys → Returns (.list xs) (.list ys)
  | tuple {xs ys : List Node} : ReturnsAll xs ys → Returns (.tuple xs) (.list ys)
  | map {fs gs : List (Node × Node)} : ReturnsEach fs gs → Returns (.map fs) (.map gs)
  | shared {l : List Nat} {n m : Node} : Returns n m → Returns (.shared l n) m

/-- Whether items come back one by one. -/
inductive ReturnsAll : List Node → List Node → Prop
  | nil : ReturnsAll [] []
  | cons {x y : Node} {xs ys : List Node} : Returns x y → ReturnsAll xs ys →
      ReturnsAll (x :: xs) (y :: ys)

/-- Whether entries come back one by one, each under its name. -/
inductive ReturnsEach : List (Node × Node) → List (Node × Node) → Prop
  | nil : ReturnsEach [] []
  | cons {k v w : Node} {cs : List Char} {fs gs : List (Node × Node)} : Json.name k = .ok cs →
      Returns v w → ReturnsEach fs gs →
      ReturnsEach ((k, v) :: fs) ((.str (String.ofList cs), w) :: gs)
end

theorem ReturnsEach.exists_name {fs gs : Fields} (h : ReturnsEach fs gs) :
    ∀ g ∈ gs, ∃ f ∈ fs, ∃ cs, Json.name f.1 = .ok cs ∧ g.1 = .str (String.ofList cs) := by
  induction fs generalizing gs with
  | nil => cases h; simp
  | cons f fs ih =>
    cases h with
    | cons hn _ rest =>
      refine List.forall_mem_cons.2 ⟨⟨_, List.mem_cons_self, _, hn, rfl⟩, fun g hg => ?_⟩
      obtain ⟨f, hf, named⟩ := ih rest g hg
      exact ⟨f, List.mem_cons_of_mem _ hf, named⟩

/-- Names that differ come back as different keys. -/
theorem ReturnsEach.pairwise {fs gs : Fields} (h : ReturnsEach fs gs)
    (distinct : (fs.map fun f => Json.name f.1).Nodup) :
    gs.Pairwise fun f g => Node.sameKey f.1 g.1 = false := by
  induction fs generalizing gs with
  | nil => cases h; exact .nil
  | cons f fs ih =>
    cases h with
    | cons hn _ rest =>
      obtain ⟨new, distinct⟩ := List.nodup_cons.1 distinct
      refine .cons (fun g hg => ?_) (ih rest distinct)
      obtain ⟨f, hf, cs, named, key⟩ := rest.exists_name g hg
      rw [key]
      refine decide_eq_false fun same => new ?_
      rw [String.ofList_injective same] at hn
      exact List.mem_map.2 ⟨f, hf, named.trans hn.symm⟩

namespace Json

theorem natural_toDigits (n : Nat) : natural (Nat.toDigits 10 n) = n := by
  have read := Nat.ofDigitChars_ten_toDigits (n := n)
  simp only [Nat.ofDigitChars_eq_foldl, Nat.mul_comm 10] at read
  exact read

theorem numeral_toDigits {n : Nat} (short : (Nat.toDigits 10 n).length ≤ Text.digitLimit)
    (negative : Bool) : numeral negative (Nat.toDigits 10 n) [] none =
      .ok (.int (if negative then -(n : Int) else n)) :=
  calc numeral negative (Nat.toDigits 10 n) [] none
    _ = .ok (.int (if negative then -(natural (Nat.toDigits 10 n) : Int)
          else natural (Nat.toDigits 10 n))) := (if_pos rfl).trans (if_neg (Nat.not_lt.2 short))
    _ = .ok (.int (if negative then -(n : Int) else n)) := by rw [natural_toDigits]

/-- An integer is read as the one that was written. -/
theorem scalar_of_integer {i : Int} {cs : List Char} (h : integer i = .ok cs) :
    (scalar cs).map Prod.fst = .ok (.int i) := by
  obtain ⟨short, rfl⟩ := integer_eq_ok_iff.1 h
  have read := scalar_of_parts (sign_mem i) (isWhole_toDigits i.natAbs) .absent .absent notAhead_nil
  simp only [List.append_nil] at read
  rw [read, List.tail_nil, exponent, numeral_toDigits short]
  refine congrArg (fun i => Except.ok (Node.int i)) ?_
  by_cases negative : i < 0
  · rw [if_pos negative, decide_eq_true rfl, if_pos rfl]
    omega
  · rw [if_neg negative, decide_eq_false (List.cons_ne_nil _ _).symm, if_neg Bool.false_ne_true]
    omega

/-- Digits behind the point or a power of ten make a number that is no integer. -/
theorem numeral_of_mark {negative : Bool} {whole part : List Char} {power : Option Int}
    (h : part ≠ [] ∨ power ≠ none) : ∃ y, numeral negative whole part power = .ok (.float y) := by
  refine ⟨_, if_neg fun bare => ?_⟩
  obtain ⟨hp, he⟩ := Bool.and_eq_true_iff.1 bare
  exact h.elim (absurd (List.isEmpty_iff.1 hp)) (absurd (Option.isNone_iff_eq_none.1 he))

/-- A point or the mark of a power of ten comes with digits behind the point or a power. -/
theorem part_or_power {sign w f e : List Char} {c : Char} (hs : sign ∈ [[], ['-']])
    (hw : IsWhole w) (hf : IsFraction f) (he : IsExponent e) (hc : c ∈ ['.', 'e'])
    (mem : c ∈ sign ++ (w ++ (f ++ e))) : f.tail ≠ [] ∨ (exponent e).1 ≠ none := by
  cases hf with
  | present hds => exact .inl hds.1
  | absent =>
    cases he with
    | present hm hs hds =>
      have power := exponent_present hm hs hds notAhead_nil
      rw [List.append_nil] at power
      exact .inr (by rw [power]; exact nofun)
    | absent =>
      -- Nothing is left but a sign and digits.
      have marks : ∀ c ∈ ['.', 'e'], c.isDigit = false ∧ ∀ sign ∈ [[], ['-']], c ∉ sign := by simp
      obtain ⟨digit, noSign⟩ := marks c hc
      simp only [List.append_nil] at mem
      obtain mem | mem := List.mem_append.1 mem
      · exact absurd mem (noSign sign hs)
      · exact absurd (hw.isDigits.2 c mem) (by rw [digit]; exact Bool.false_ne_true)

/-- So it is not read as an integer. -/
theorem scalar_of_mark {cs : List Char} {c : Char} (h : IsNumber cs) (hc : c ∈ ['.', 'e'])
    (mem : c ∈ cs) : ∃ y, (scalar cs).map Prod.fst = .ok (.float y) := by
  obtain ⟨hs, hw, hf, he⟩ := h
  obtain ⟨y, value⟩ := numeral_of_mark (part_or_power hs hw hf he hc mem)
  have read := scalar_of_parts hs hw hf he notAhead_nil
  rw [List.append_nil] at read
  exact ⟨y, by rw [read, value]; rfl⟩

/-- A text comes back from its code units. -/
theorem nodeOf_text (s : String) : nodeOf (.text (s.toList.flatMap codeUnits)) = .ok (.str s) := by
  rw [nodeOf, textOf_decoded_flatMap, String.ofList_toList]
  rfl

/-- A finite number is read as a number with a point, and the words as what they stand for. -/
theorem nodeOf_float (x : Binary64) : ∃ y, nodeOf (treeOf (.float x)) = .ok (.float y) := by
  cases x with
  | nan => exact ⟨_, rfl⟩
  | infinite negative => cases negative <;> exact ⟨_, rfl⟩
  | finite negative m q =>
    obtain ⟨c, hc, mem⟩ := Binary64.exists_mark_format negative m q
    exact scalar_of_mark (Binary64.isNumber_format negative m q) hc mem

mutual
/-- A document that has a text comes back if no name comes twice. -/
theorem nodeOf_treeOf : ∀ {n : Node} {level : Nat} {cs : List Char}, valueText level n = .ok cs →
    (∀ fs, .map fs ∈ n.written → (fs.map fun f => name f.1).Nodup) →
      ∃ m, nodeOf (treeOf n) = .ok m ∧ Returns n m
  | .null, _, _, _, _ => ⟨_, rfl, .null⟩
  | .bool b, _, _, _, _ => ⟨_, rfl, .bool b⟩
  | .int i, _, cs, h, _ => by
    have hi : integer i = .ok cs := h
    refine ⟨_, ?_, .int i⟩
    rw [treeOf, hi]
    exact scalar_of_integer hi
  | .float x, _, _, _, _ => by
    obtain ⟨y, hy⟩ := nodeOf_float x
    exact ⟨_, hy, .float x y⟩
  | .str s, _, _, _, _ => ⟨_, nodeOf_text s, .str s⟩
  | .date d, _, _, _, _ => ⟨_, nodeOf_text _, .date d⟩
  | .datetime t, _, _, _, _ => ⟨_, nodeOf_text _, .datetime t⟩
  | .list xs, _, _, h, distinct => by
    obtain ⟨ps, hps, -⟩ := map_eq_ok_iff.1 h
    obtain ⟨ys, hy, all⟩ := nodesOf_treesOf hps fun fs hm => distinct fs (List.mem_cons_of_mem _ hm)
    exact ⟨.list ys, by rw [treeOf, nodeOf, hy]; rfl, .list all⟩
  | .tuple xs, _, _, h, distinct => by
    obtain ⟨ps, hps, -⟩ := map_eq_ok_iff.1 h
    obtain ⟨ys, hy, all⟩ := nodesOf_treesOf hps fun fs hm => distinct fs (List.mem_cons_of_mem _ hm)
    exact ⟨.list ys, by rw [treeOf, nodeOf, hy]; rfl, .tuple all⟩
  | .map fs, _, _, h, distinct => by
    obtain ⟨ps, hps, -⟩ := map_eq_ok_iff.1 h
    obtain ⟨gs, hg, each⟩ :=
      fieldsOf_membersOf hps fun fs hm => distinct fs (List.mem_cons_of_mem _ hm)
    have keys := each.pairwise (distinct fs List.mem_cons_self)
    refine ⟨.map gs, ?_, .map each⟩
    rw [treeOf, nodeOf, hg, Except.map, Fields.ofEntries_of_pairwise keys]
  | .shared _ n, _, _, h, distinct => by
    obtain ⟨m, hm, returns⟩ := nodeOf_treeOf (n := n) h distinct
    exact ⟨m, hm, .shared returns⟩
  | .bytes _, _, _, h, _ => nomatch h
  | .set _, _, _, h, _ => nomatch h
termination_by structural n => n

theorem nodesOf_treesOf : ∀ {xs : List Node} {level : Nat} {ps : List (List Char)},
    itemTexts level xs = .ok ps →
    (∀ fs, .map fs ∈ Node.writtenItems xs → (fs.map fun f => name f.1).Nodup) →
      ∃ ys, nodesOf (treesOf xs) = .ok ys ∧ ReturnsAll xs ys
  | [], _, _, _, _ => ⟨_, rfl, .nil⟩
  | x :: xs, _, _, h, distinct => by
    obtain ⟨p, qs, -, hp, hq⟩ := itemTexts_cons h
    obtain ⟨y, hy, returns⟩ := nodeOf_treeOf hp fun fs hm => distinct fs (List.mem_append_left _ hm)
    obtain ⟨ys, hys, all⟩ :=
      nodesOf_treesOf hq fun fs hm => distinct fs (List.mem_append_right _ hm)
    exact ⟨y :: ys, by simp only [treesOf, nodesOf, hy, hys]; rfl, .cons returns all⟩
termination_by structural n => n

theorem fieldsOf_membersOf : ∀ {fs : List (Node × Node)} {level : Nat} {ps : List (List Char)},
    memberTexts level fs = .ok ps →
    (∀ gs, .map gs ∈ Node.writtenFields fs → (gs.map fun f => name f.1).Nodup) →
      ∃ gs, fieldsOf (membersOf fs) = .ok gs ∧ ReturnsEach fs gs
  | [], _, _, _, _ => ⟨_, rfl, .nil⟩
  | (k, v) :: fs, _, _, h, distinct => by
    obtain ⟨n, p, qs, -, hn, hp, hq⟩ := memberTexts_cons h
    obtain ⟨w, hw, returns⟩ := nodeOf_treeOf hp fun fs hm => distinct fs (List.mem_append_left _ hm)
    obtain ⟨gs, hg, each⟩ :=
      fieldsOf_membersOf hq fun fs hm => distinct fs (List.mem_append_right _ hm)
    have named : textOf false (decoded (nameUnits k)) = .ok (String.ofList n) := by
      rw [nameUnits, hn]
      exact textOf_decoded_flatMap false n
    refine ⟨(.str (String.ofList n), w) :: gs, ?_, .cons hn returns each⟩
    simp only [membersOf, fieldsOf, hw, hg, named]
    rfl
termination_by structural n => n
end

/-- A text that was written is read again, and if no name comes twice, all entries come back. -/
theorem read_of_write {n : Node} {text : List Char} (h : write n = .ok text)
    (distinct : n.DistinctNames) : ∃ m, read text = .ok m ∧ Returns n m := by
  obtain ⟨cs, hc, -⟩ := map_eq_ok_iff.1 h
  obtain ⟨m, hm, returns⟩ := nodeOf_treeOf hc distinct
  exact ⟨m, read_of_denotes (denotes_of_write h) hm, returns⟩

end Json

/-! ### Documents of the values that JSON has -/

namespace Node

mutual
/-- Whether a document has no other values than those of JSON, days and moments, no numbers but
integers that are not too long, and only texts as keys, none of them twice. -/
def Portable : Node → Prop
  | null | bool _ | str _ | date _ | datetime _ => True
  | int i => (toString i.natAbs).length ≤ Text.digitLimit
  | list xs => PortableItems xs
  | map fs => PortableFields fs ∧ (fs.map Prod.fst).Nodup
  | shared _ n => n.Portable
  | float _ | bytes _ | tuple _ | set _ => False

/-- Whether the items have no other values. -/
def PortableItems : List Node → Prop
  | [] => True
  | x :: xs => x.Portable ∧ PortableItems xs

/-- Whether the entries have texts as keys and no other values. -/
def PortableFields : List (Node × Node) → Prop
  | [] => True
  | (k, v) :: fs => (∃ s, k = str s) ∧ v.Portable ∧ PortableFields fs
end

mutual
/-- The document with its days and moments as ISO texts, and without labels. -/
def withIsoTexts : Node → Node
  | date d => str d.isoText
  | datetime t => str (t.isoText "T")
  | list xs => list (withIsoItems xs)
  | map fs => map (withIsoFields fs)
  | shared _ n => n.withIsoTexts
  | n => n

/-- The items with their days and moments as ISO texts. -/
def withIsoItems : List Node → List Node
  | [] => []
  | x :: xs => x.withIsoTexts :: withIsoItems xs

/-- The entries with the days and moments in their values as ISO texts. -/
def withIsoFields : List (Node × Node) → List (Node × Node)
  | [] => []
  | (k, v) :: fs => (k, v.withIsoTexts) :: withIsoFields fs
end

end Node

namespace Json

mutual
theorem valueText_of_portable (level : Nat) : ∀ {n : Node}, n.Portable →
    ∃ cs, valueText level n = .ok cs
  | .null, _ | .bool _, _ | .str _, _ | .date _, _ | .datetime _, _ => ⟨_, rfl⟩
  | .int i, h => ⟨_, if_neg (Nat.not_lt.2 h)⟩
  | .list xs, h => by
    obtain ⟨ps, hp⟩ := itemTexts_of_portable (level + 1) (show Node.PortableItems xs from h)
    exact ⟨_, map_eq_ok_iff.2 ⟨ps, hp, rfl⟩⟩
  | .map fs, h => by
    obtain ⟨ps, hp⟩ := memberTexts_of_portable (level + 1) (show Node.PortableFields fs from h.1)
    exact ⟨_, map_eq_ok_iff.2 ⟨ps, hp, rfl⟩⟩
  | .shared _ n, h => valueText_of_portable level (n := n) h
termination_by structural n => n

theorem itemTexts_of_portable (level : Nat) : ∀ {xs : List Node}, Node.PortableItems xs →
    ∃ ps, itemTexts level xs = .ok ps
  | [], _ => ⟨_, rfl⟩
  | x :: xs, h => by
    obtain ⟨p, hp⟩ := valueText_of_portable level h.1
    obtain ⟨ps, hps⟩ := itemTexts_of_portable level h.2
    exact ⟨p :: ps, by rw [itemTexts, hp, hps]; rfl⟩
termination_by structural n => n

theorem memberTexts_of_portable (level : Nat) : ∀ {fs : List (Node × Node)},
    Node.PortableFields fs → ∃ ps, memberTexts level fs = .ok ps
  | [], _ => ⟨_, rfl⟩
  | (k, v) :: fs, h => by
    obtain ⟨⟨s, rfl⟩, hv, hfs⟩ := h
    obtain ⟨p, hp⟩ := valueText_of_portable level hv
    obtain ⟨ps, hps⟩ := memberTexts_of_portable level hfs
    exact ⟨_, by rw [memberTexts, name, hp, hps]; rfl⟩
termination_by structural n => n
end

end Json

namespace Node

theorem name_of_portable {fs : Fields} (h : PortableFields fs) :
    ∀ f ∈ fs, ∃ s, f.1 = str s := by
  induction fs with
  | nil => simp
  | cons f fs ih => exact List.forall_mem_cons.2 ⟨h.1, ih h.2.2⟩

/-- Texts that differ are names that differ. -/
theorem nodup_names {fs : Fields} (h : PortableFields fs) (distinct : (fs.map Prod.fst).Nodup) :
    (fs.map fun f => Json.name f.1).Nodup := by
  rw [List.Nodup, List.pairwise_map] at distinct ⊢
  refine distinct.imp_of_mem fun hf hg different same => different ?_
  obtain ⟨s, hs⟩ := name_of_portable h _ hf
  obtain ⟨t, ht⟩ := name_of_portable h _ hg
  rw [hs, ht] at same ⊢
  exact congrArg str (String.toList_injective (Except.ok.inj same))

mutual
theorem Portable.distinctNames : ∀ {n : Node}, n.Portable → n.DistinctNames
  | .list xs, h, _, hm => by
    obtain e | hm := List.mem_cons.1 hm
    · cases e
    · exact PortableItems.distinctNames (show PortableItems xs from h) _ hm
  | .map gs, h, _, hm => by
    obtain e | hm := List.mem_cons.1 hm
    · cases e
      exact nodup_names h.1 h.2
    · exact PortableFields.distinctNames h.1 _ hm
  | .shared _ n, h, fs, hm => Portable.distinctNames (n := n) h fs hm
  | .null, _, _, hm | .bool _, _, _, hm | .int _, _, _, hm | .str _, _, _, hm
  | .date _, _, _, hm | .datetime _, _, _, hm => by cases List.mem_singleton.1 hm
termination_by structural n => n

theorem PortableItems.distinctNames : ∀ {xs : List Node}, PortableItems xs →
    ∀ fs, .map fs ∈ writtenItems xs → (fs.map fun f => Json.name f.1).Nodup
  | _ :: _, h, fs, hm => (List.mem_append.1 hm).elim (Portable.distinctNames h.1 fs)
    (PortableItems.distinctNames h.2 fs)
termination_by structural n => n

theorem PortableFields.distinctNames : ∀ {gs : List (Node × Node)}, PortableFields gs →
    ∀ fs, .map fs ∈ writtenFields gs → (fs.map fun f => Json.name f.1).Nodup
  | (_, _) :: _, h, fs, hm => (List.mem_append.1 hm).elim (Portable.distinctNames h.2.1 fs)
    (PortableFields.distinctNames h.2.2 fs)
termination_by structural n => n
end

mutual
/-- What comes back of such a document is the same but for days and moments. -/
theorem Portable.eq_of_returns : ∀ {n m : Node}, n.Portable → Returns n m → m = n.withIsoTexts
  | .null, _, _, .null | .bool _, _, _, .bool _ | .int _, _, _, .int _ | .str _, _, _, .str _
  | .date _, _, _, .date _ | .datetime _, _, _, .datetime _ => rfl
  | .list xs, _, h, .list all =>
    congrArg list (PortableItems.eq_of_returns (show PortableItems xs from h) all)
  | .map _, _, h, .map each => congrArg map (PortableFields.eq_of_returns h.1 each)
  | .shared _ n, _, h, .shared returns => Portable.eq_of_returns (n := n) h returns
termination_by structural n => n

theorem PortableItems.eq_of_returns : ∀ {xs ys : List Node}, PortableItems xs →
    ReturnsAll xs ys → ys = withIsoItems xs
  | [], _, _, .nil => rfl
  | x :: xs, _, h, .cons returns all => by
    rw [withIsoItems, Portable.eq_of_returns h.1 returns, PortableItems.eq_of_returns h.2 all]
termination_by structural n => n

theorem PortableFields.eq_of_returns : ∀ {fs gs : List (Node × Node)}, PortableFields fs →
    ReturnsEach fs gs → gs = withIsoFields fs
  | [], _, _, .nil => rfl
  | (k, v) :: fs, _, h, .cons named returns each => by
    obtain ⟨⟨s, rfl⟩, hv, hfs⟩ := h
    obtain rfl := Except.ok.inj named
    rw [withIsoFields, Portable.eq_of_returns hv returns, PortableFields.eq_of_returns hfs each,
      String.ofList_toList]
termination_by structural n => n
end

end Node

namespace Document

/-- A document is refused, or it has a text; the text is JSON without names that come twice exactly
if all numbers of the document are ones and no two keys of a mapping have one name; and in that
case of the keys all entries come back when the text is read. -/
theorem render_json_wellFormed_iff [SetOrder] (n : Node) :
    (∃ fault, render .json n = .error (.document (.noJson fault))) ∨
    ∃ text, render .json n = .ok text ∧
      ((∃ j, Json.Denotes [] text j ∧ j.DistinctNames) ↔ n.OnlyFinite ∧ n.DistinctNames) ∧
      (n.DistinctNames → ∃ m, parse .json text = .ok m ∧ Returns n m) := by
  rcases h : Json.write n with fault | text
  · exact .inl ⟨fault, by rw [render, h]; rfl⟩
  · refine .inr ⟨text, by rw [render, h]; rfl, Json.write_standard_iff h, fun distinct => ?_⟩
    obtain ⟨m, hm, returns⟩ := Json.read_of_write h distinct
    exact ⟨m, by rw [parse, hm], returns⟩

section

attribute [local instance] SetOrder.written

/-- A mapping with a number and a truth value as keys has a text of the standard, and all its
entries come back. -/
theorem render_json_wellFormed_keys : ∃ text,
    render .json (.map [(.int 1, .list [.str "a"]), (.bool true, .null)]) = .ok text ∧
      (∃ j, Json.Denotes [] text j ∧ j.DistinctNames) ∧
      ∃ m, parse .json text = .ok m ∧
        Returns (.map [(.int 1, .list [.str "a"]), (.bool true, .null)]) m := by
  have finite : (Node.map [(.int 1, .list [.str "a"]), (.bool true, .null)]).OnlyFinite := by
    intro x hx
    simp [Node.written, Node.writtenFields, Node.writtenItems] at hx
  have distinct : (Node.map [(.int 1, .list [.str "a"]), (.bool true, .null)]).DistinctNames := by
    intro fs hm
    simp only [Node.written, Node.writtenFields, Node.writtenItems, List.mem_cons, List.mem_append,
      List.not_mem_nil, or_false, reduceCtorEq, Node.map.injEq] at hm
    subst hm
    decide
  obtain ⟨fault, refused⟩ | ⟨text, written, standard, back⟩ :=
    render_json_wellFormed_iff (.map [(.int 1, .list [.str "a"]), (.bool true, .null)])
  · cases refused
  · exact ⟨text, written, standard.2 ⟨finite, distinct⟩, back distinct⟩

/-- The text `NaN` is read and written again, and it is no JSON; nor is a text without names that
come twice written for a mapping with the keys `1` and `"1"`. -/
theorem render_json_malformed :
    (∃ n text, parse .json "NaN".toList = .ok n ∧ render .json n = .ok text ∧
      ¬ ∃ j, Json.Denotes [] text j) ∧
    ∃ text, render .json (.map [(.int 1, .str "a"), (.str "1", .str "b")]) = .ok text ∧
      ¬ ∃ j, Json.Denotes [] text j ∧ j.DistinctNames := by
  constructor
  · have written : Json.write (.float .nan) = .ok "NaN\n".toList := rfl
    refine ⟨.float .nan, "NaN\n".toList, rfl, rfl, fun ⟨j, hj⟩ => ?_⟩
    obtain rfl := hj.of_standard.unique Json.proper_nonNumbers (Json.denotes_of_write written)
    exact hj.standard_iff.1 hj _ (List.mem_singleton_self _)
  · refine ⟨"\x7b\n  \"1\": \"a\",\n  \"1\": \"b\"\n\x7d\n".toList, rfl, fun h => ?_⟩
    have written : Json.write (.map [(.int 1, .str "a"), (.str "1", .str "b")]) =
      .ok "\x7b\n  \"1\": \"a\",\n  \"1\": \"b\"\n\x7d\n".toList := rfl
    have distinct := ((Json.write_standard_iff written).1 h).2 _ List.mem_cons_self
    exact absurd distinct (by decide)

end

/-- A document of the values that JSON has, with days and moments, has a text, and that is read as
the document with their ISO texts in their place. -/
theorem parse_render_json [SetOrder] {n : Node} (h : n.Portable) :
    ∃ text, render .json n = .ok text ∧ parse .json text = .ok n.withIsoTexts := by
  obtain ⟨cs, hc⟩ := Json.valueText_of_portable 0 h
  have written : Json.write n = .ok (cs ++ ['\n']) := map_eq_ok_iff.2 ⟨cs, hc, rfl⟩
  obtain ⟨m, hm, returns⟩ := Json.read_of_write written h.distinctNames
  obtain rfl := h.eq_of_returns returns
  exact ⟨cs ++ ['\n'], by rw [render, written]; rfl, by rw [parse, hm]⟩

section

attribute [local instance] SetOrder.written

theorem parse_render_json_day : ∃ text,
    render .json (.map [(.str "day", .date ⟨2024, 2, 29⟩), (.str "of", .list [.int (-7), .null])])
      = .ok text ∧
    parse .json text =
      .ok (.map [(.str "day", .str "2024-02-29"), (.str "of", .list [.int (-7), .null])]) :=
  have short : (toString (-7 : Int).natAbs).length ≤ Text.digitLimit := by decide
  parse_render_json (n := .map
    [(.str "day", .date ⟨2024, 2, 29⟩), (.str "of", .list [.int (-7), .null])])
    ⟨⟨⟨_, rfl⟩, trivial, ⟨_, rfl⟩, ⟨short, trivial, trivial⟩, trivial⟩, by simp⟩

end

end Document

end PlainSchema
