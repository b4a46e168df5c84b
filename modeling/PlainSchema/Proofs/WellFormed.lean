/-
PlainSchema/Proofs/WellFormed.lean

When the JSON text of a document is JSON.

What the writer makes is always a text of its own dialect, which has words for the
numbers that are none, and it stands for the tree that `treeOf` has for the document
(`value_of_text`).  A text stands for one tree only, so whatever is to be said of the
text can be read off that tree, and from there off the document: the text is one of
the standard exactly if no such number is written in it, and no name comes twice
exactly if no mapping has two keys with one name.  Different keys can have one name:
the number `1` and the text `1` are two keys, and so are `null` and the text `null`.
-/
import PlainSchema.Proofs.Spelling
import PlainSchema.Proofs.Unambiguity

namespace PlainSchema

/-! ### What a document has written -/

/-- Whether the number is one. -/
def Binary64.isFinite : Binary64 → Bool
  | finite .. => true
  | infinite _ | nan => false

namespace Node

mutual
/-- The values that are written one by one if the value is: itself, and those in it.  A label is
passed over, and keys are not among them. -/
def written : Node → List Node
  | list xs => list xs :: writtenItems xs
  | tuple xs => tuple xs :: writtenItems xs
  | map fs => map fs :: writtenFields fs
  | shared _ n => n.written
  | n => [n]

/-- The values that are written of a list. -/
def writtenItems : List Node → List Node
  | [] => []
  | x :: xs => x.written ++ writtenItems xs

/-- The values that are written of a mapping. -/
def writtenFields : List (Node × Node) → List Node
  | [] => []
  | (_, v) :: fs => v.written ++ writtenFields fs
end

/-- Whether all numbers that are written are ones. -/
def OnlyFinite (n : Node) : Prop := ∀ x, float x ∈ n.written → x.isFinite = true

/-- Whether no two keys of a mapping that is written have one name. -/
def DistinctNames (n : Node) : Prop :=
  ∀ fs, map fs ∈ n.written → (fs.map fun f => Json.name f.1).Nodup

end Node

namespace Json

/-- The words of the dialect. -/
def nonNumbers : List (List Char) :=
  [Binary64.nan, .infinite false, .infinite true].map fun x => (x.format floatStyle).toList

/-- The code units of the name of a key, which is empty for a key without one. -/
def nameUnits (k : Node) : List Nat := ((name k).toOption.getD []).flatMap codeUnits

mutual
/-- The tree that the text of a value stands for; `null` for a value without a text. -/
def treeOf : Node → Tree
  | .null => .null
  | .bool b => .bool b
  | .int i => .number ((integer i).toOption.getD [])
  | .float x =>
    if x.isFinite then .number (x.format floatStyle).toList
    else .word (x.format floatStyle).toList
  | .str s => .text (s.toList.flatMap codeUnits)
  | .date d => .text (d.isoText.toList.flatMap codeUnits)
  | .datetime t => .text ((t.isoText "T").toList.flatMap codeUnits)
  | .list xs => .array (treesOf xs)
  | .tuple xs => .array (treesOf xs)
  | .map fs => .object (membersOf fs)
  | .shared _ n => treeOf n
  | .bytes _ => .null
  | .set _ => .null

/-- The trees of the items of a list. -/
def treesOf : List Node → List Tree
  | [] => []
  | x :: xs => treeOf x :: treesOf xs

/-- The members that the entries of a mapping become. -/
def membersOf : List (Node × Node) → List (List Nat × Tree)
  | [] => []
  | (k, v) :: fs => (nameUnits k, treeOf v) :: membersOf fs
end

/-! ### The text stands for the tree -/

theorem nonNumbers_eq : nonNumbers =
    [['N', 'a', 'N'], ['I', 'n', 'f', 'i', 'n', 'i', 't', 'y'],
      ['-', 'I', 'n', 'f', 'i', 'n', 'i', 't', 'y']] := rfl

theorem proper_nonNumbers : Proper nonNumbers where
  token := by
    rw [nonNumbers_eq]
    simp [isToken]
  noNumber := by
    rw [nonNumbers_eq]
    simp [isNumeric]
  new := by decide

theorem scalar_of_float (x : Binary64) :
    Scalar nonNumbers (x.format floatStyle).toList (treeOf (.float x)) := by
  rw [treeOf]
  cases x with
  | finite negative m q => exact .number (Binary64.isNumber_format negative m q)
  | infinite negative => exact .word (by cases negative <;> decide)
  | nan => exact .word (by decide)

theorem value_of_quote (s : String) (t : List Char) :
    Value nonNumbers (quote s ++ t) (.text (s.toList.flatMap codeUnits)) t := by
  rw [quote, List.cons_append, List.append_assoc]
  exact .text (.quoted s.toList t)

/-- A name in quotes with a colon and a value behind it is a member. -/
theorem member_of_text {k v : Node} {n s p t : List Char} (hn : name k = .ok n)
    (hb : Blanks s ((quote (String.ofList n) ++ ':' :: ' ' :: p) ++ t))
    (hv : Value nonNumbers (p ++ t) (treeOf v) t) :
    Member nonNumbers s (nameUnits k, treeOf v) t := by
  rw [nameUnits, hn]
  simp only [quote, String.toList_ofList, List.cons_append, List.append_assoc] at hb
  exact .named hb (.quoted _ _) (Blanks.refl _) (.value ⟨[' '], rfl, List.all_eq_true.1 rfl⟩ hv)

mutual
/-- What is written of a value stands for its tree. -/
theorem value_of_text : ∀ {n : Node} {level : Nat} {cs : List Char},
    valueText level n = .ok cs → ∀ t, Value nonNumbers (cs ++ t) (treeOf n) t
  | .null, _, _, h, _ => Except.ok.inj h ▸ .scalar .nullWord
  | .bool true, _, _, h, _ => Except.ok.inj h ▸ .scalar .trueWord
  | .bool false, _, _, h, _ => Except.ok.inj h ▸ .scalar .falseWord
  | .int i, _, cs, h, _ => by
    have hi : integer i = .ok cs := h
    rw [treeOf, hi]
    exact .scalar (.number (isNumber_of_integer hi))
  | .float x, _, _, h, _ => Except.ok.inj h ▸ .scalar (scalar_of_float x)
  | .str s, _, _, h, t => Except.ok.inj h ▸ value_of_quote s t
  | .date d, _, _, h, t => Except.ok.inj h ▸ value_of_quote _ t
  | .datetime m, _, _, h, t => Except.ok.inj h ▸ value_of_quote _ t
  | .list xs, _, _, h, t => array_of_texts xs h t
  | .tuple xs, _, _, h, t => array_of_texts xs h t
  | .map fs, _, _, h, t => object_of_texts fs h t
  | .shared _ n, _, _, h, t => value_of_text (n := n) h t
  | .bytes _, _, _, h, _ => nomatch h
  | .set _, _, _, h, _ => nomatch h
termination_by structural n => n

theorem array_of_texts : ∀ (xs : List Node) {level : Nat} {cs : List Char},
    (itemTexts (level + 1) xs).map (bracketed '[' ']' level) = .ok cs →
      ∀ t, Value nonNumbers (cs ++ t) (.array (treesOf xs)) t
  | [], _, _, h, t => Except.ok.inj h ▸ .emptyArray (Blanks.refl _)
  | x :: xs, _, _, h, t => by
    obtain ⟨ps, hps, rfl⟩ := map_eq_ok_iff.1 h
    obtain ⟨p, qs, rfl, hp, hq⟩ := itemTexts_cons hps
    rw [bracketed_cons, List.cons_append, List.append_assoc, List.append_assoc]
    exact .array (items_behind hq (.value (blanks_newline _ _) (value_of_text hp _)))
termination_by structural n => n

theorem object_of_texts : ∀ (fs : List (Node × Node)) {level : Nat} {cs : List Char},
    (memberTexts (level + 1) fs).map (bracketed '\x7b' '\x7d' level) = .ok cs →
      ∀ t, Value nonNumbers (cs ++ t) (.object (membersOf fs)) t
  | [], _, _, h, t => Except.ok.inj h ▸ .emptyObject (Blanks.refl _)
  | (k, v) :: fs, _, _, h, t => by
    obtain ⟨ps, hps, rfl⟩ := map_eq_ok_iff.1 h
    obtain ⟨n, p, qs, rfl, hn, hp, hq⟩ := memberTexts_cons hps
    rw [bracketed_cons, List.cons_append, List.append_assoc, List.append_assoc]
    exact .object (members_behind hq (member_of_text hn (blanks_newline _ _) (value_of_text hp _)))
termination_by structural n => n

/-- Behind an item come those of which the texts are laid out there. -/
theorem items_behind : ∀ {xs : List Node} {level : Nat} {ps : List (List Char)},
    itemTexts (level + 1) xs = .ok ps → ∀ {s j t},
      Item nonNumbers s j (behind ']' level ps ++ t) → Items nonNumbers s (j :: treesOf xs) t
  | [], level, _, h, s, j, t, item => by
    obtain rfl := Except.ok.inj h
    rw [behind, List.append_assoc] at item
    exact .last item (blanks_newline _ _)
  | x :: xs, level, ps, h, s, j, t, item => by
    obtain ⟨p, qs, rfl, hp, hq⟩ := itemTexts_cons h
    rw [behind, List.cons_append, List.append_assoc, List.append_assoc] at item
    exact .more item (Blanks.refl _)
      (items_behind hq (.value (blanks_newline _ _) (value_of_text hp _)))
termination_by structural n => n

/-- Behind a member come those of which the texts are laid out there. -/
theorem members_behind : ∀ {fs : List (Node × Node)} {level : Nat} {ps : List (List Char)},
    memberTexts (level + 1) fs = .ok ps → ∀ {s m t},
      Member nonNumbers s m (behind '\x7d' level ps ++ t) →
        Members nonNumbers s (m :: membersOf fs) t
  | [], level, _, h, s, j, t, member => by
    obtain rfl := Except.ok.inj h
    rw [behind, List.append_assoc] at member
    exact .last member (blanks_newline _ _)
  | (k, v) :: fs, level, ps, h, s, j, t, member => by
    obtain ⟨n, p, qs, rfl, hn, hp, hq⟩ := memberTexts_cons h
    rw [behind, List.cons_append, List.append_assoc, List.append_assoc] at member
    exact .more member (Blanks.refl _)
      (members_behind hq (member_of_text hn (blanks_newline _ _) (value_of_text hp _)))
termination_by structural n => n
end

/-! ### What the tree tells of the document -/

mutual
/-- The parts of the tree are the trees of the values that are written. -/
theorem parts_treeOf : ∀ n : Node, (treeOf n).parts = n.written.map treeOf
  | .list xs | .tuple xs => congrArg (_ :: ·) (itemParts_treesOf xs)
  | .map fs => congrArg (_ :: ·) (memberParts_membersOf fs)
  | .shared _ n => parts_treeOf n
  | .float (.finite ..) | .float (.infinite _) | .float .nan => rfl
  | .null | .bool _ | .int _ | .str _ | .bytes _ | .date _ | .datetime _ | .set _ => rfl
termination_by structural n => n

theorem itemParts_treesOf : ∀ xs : List Node,
    Tree.itemParts (treesOf xs) = (Node.writtenItems xs).map treeOf
  | [] => rfl
  | x :: xs => by
    rw [treesOf, Tree.itemParts, Node.writtenItems, List.map_append, parts_treeOf x,
      itemParts_treesOf xs]
termination_by structural n => n

theorem memberParts_membersOf : ∀ fs : List (Node × Node),
    Tree.memberParts (membersOf fs) = (Node.writtenFields fs).map treeOf
  | [] => rfl
  | (_, v) :: fs => by
    rw [membersOf, Tree.memberParts, Node.writtenFields, List.map_append, parts_treeOf v,
      memberParts_membersOf fs]
termination_by structural n => n
end

mutual
/-- A value that is written one by one has a text, and it is none under a label. -/
theorem written_ok : ∀ {n m : Node} {level : Nat} {cs : List Char}, valueText level n = .ok cs →
    m ∈ n.written → (∃ l ds, valueText l m = .ok ds) ∧ ∀ label v, m ≠ .shared label v
  | .list xs, _, level, cs, h, hm | .tuple xs, _, level, cs, h, hm => by
    obtain rfl | hm := List.mem_cons.1 hm
    · exact ⟨⟨level, cs, h⟩, nofun⟩
    · obtain ⟨ps, hps, -⟩ := map_eq_ok_iff.1 h
      exact writtenItems_ok hps hm
  | .map fs, _, level, cs, h, hm => by
    obtain rfl | hm := List.mem_cons.1 hm
    · exact ⟨⟨level, cs, h⟩, nofun⟩
    · obtain ⟨ps, hps, -⟩ := map_eq_ok_iff.1 h
      exact writtenFields_ok hps hm
  | .shared _ n, _, _, _, h, hm => written_ok (n := n) h hm
  | .null, _, level, cs, h, hm | .bool _, _, level, cs, h, hm | .int _, _, level, cs, h, hm
  | .float _, _, level, cs, h, hm | .str _, _, level, cs, h, hm | .bytes _, _, level, cs, h, hm
  | .date _, _, level, cs, h, hm | .datetime _, _, level, cs, h, hm
  | .set _, _, level, cs, h, hm => by
    obtain rfl := List.mem_singleton.1 hm
    exact ⟨⟨level, cs, h⟩, nofun⟩
termination_by structural n => n

theorem writtenItems_ok : ∀ {xs : List Node} {m : Node} {level : Nat} {ps : List (List Char)},
    itemTexts level xs = .ok ps → m ∈ Node.writtenItems xs →
      (∃ l ds, valueText l m = .ok ds) ∧ ∀ label v, m ≠ .shared label v
  | _ :: _, _, _, _, h, hm => by
    obtain ⟨_, _, -, hp, hq⟩ := itemTexts_cons h
    exact (List.mem_append.1 hm).elim (written_ok hp) (writtenItems_ok hq)
termination_by structural n => n

theorem writtenFields_ok : ∀ {fs : List (Node × Node)} {m : Node} {level : Nat}
    {ps : List (List Char)}, memberTexts level fs = .ok ps → m ∈ Node.writtenFields fs →
      (∃ l ds, valueText l m = .ok ds) ∧ ∀ label v, m ≠ .shared label v
  | (_, _) :: _, _, _, _, h, hm => by
    obtain ⟨_, _, _, -, -, hp, hq⟩ := memberTexts_cons h
    exact (List.mem_append.1 hm).elim (written_ok hp) (writtenFields_ok hq)
termination_by structural n => n
end

theorem exists_name {level : Nat} {fs : Fields} {ps : List (List Char)}
    (h : memberTexts level fs = .ok ps) : ∀ f ∈ fs, ∃ n, name f.1 = .ok n := by
  induction fs generalizing ps with
  | nil => simp
  | cons f fs ih =>
    obtain ⟨n, _, _, -, hn, -, hq⟩ := memberTexts_cons h
    exact List.forall_mem_cons.2 ⟨⟨n, hn⟩, ih hq⟩

theorem nameUnits_inj {k k' : Node} {n n' : List Char} (h : name k = .ok n)
    (h' : name k' = .ok n') : nameUnits k = nameUnits k' ↔ name k = name k' := by
  rw [nameUnits, nameUnits, h, h']
  constructor
  · exact fun e => congrArg Except.ok (codeUnits_injective e)
  · exact fun e => congrArg (fun r => (Except.toOption r).getD [] |>.flatMap codeUnits) e

theorem map_fst_membersOf (fs : Fields) :
    (membersOf fs).map Prod.fst = fs.map fun f => nameUnits f.1 := by
  induction fs with
  | nil => rfl
  | cons f fs ih => rw [membersOf, List.map_cons, List.map_cons, ih]

/-- Names that are there are told apart by their code units. -/
theorem nodup_membersOf {fs : Fields} (h : ∀ f ∈ fs, ∃ n, name f.1 = .ok n) :
    ((membersOf fs).map Prod.fst).Nodup ↔ (fs.map fun f => name f.1).Nodup := by
  rw [map_fst_membersOf, List.Nodup, List.Nodup, List.pairwise_map, List.pairwise_map]
  refine List.Pairwise.iff_of_mem fun hf hg => not_congr ?_
  obtain ⟨n, hn⟩ := h _ hf
  obtain ⟨n', hn'⟩ := h _ hg
  exact nameUnits_inj hn hn'

section

variable {n : Node} {level : Nat} {cs : List Char}

/-- Words that the standard does not have come from numbers that are none. -/
theorem word_mem_parts_iff (h : valueText level n = .ok cs) :
    (∀ w, .word w ∉ (treeOf n).parts) ↔ n.OnlyFinite := by
  rw [parts_treeOf]
  constructor
  · intro none x hx
    by_contra infinite
    exact none _ (List.mem_map.2 ⟨.float x, hx, by rw [treeOf, if_neg infinite]⟩)
  · intro finite w hw
    obtain ⟨m, hm, e⟩ := List.mem_map.1 hw
    -- Only a float can have a word for its tree; a label would, but is not written itself.
    cases m with
    | float x => rw [treeOf, if_pos (finite x hm)] at e; cases e
    | shared l v => exact (written_ok h hm).2 l v rfl
    | _ => cases e

/-- A name comes twice in an object if two keys of a mapping have that name. -/
theorem distinctNames_iff (h : valueText level n = .ok cs) :
    (treeOf n).DistinctNames ↔ n.DistinctNames := by
  have named : ∀ fs, .map fs ∈ n.written → ∀ f ∈ fs, ∃ k, name f.1 = .ok k := by
    intro fs hm
    obtain ⟨⟨l, ds, ht⟩, -⟩ := written_ok h hm
    obtain ⟨ps, hps, -⟩ := map_eq_ok_iff.1 ht
    exact exists_name hps
  rw [Tree.DistinctNames, parts_treeOf]
  constructor
  · intro distinct fs hm
    exact (nodup_membersOf (named fs hm)).1 (distinct _ (List.mem_map.2 ⟨_, hm, rfl⟩))
  · intro distinct ms hms
    obtain ⟨m, hm, e⟩ := List.mem_map.1 hms
    cases m with
    | map fs =>
      obtain rfl := Tree.object.inj e
      exact (nodup_membersOf (named fs hm)).2 (distinct fs hm)
    | float x => rw [treeOf] at e; split at e <;> cases e
    | shared l v => exact absurd rfl ((written_ok h hm).2 l v)
    | _ => cases e

end

/-! ### The text of a document -/

/-- The text of a document is one of the dialect, and stands for its tree. -/
theorem denotes_of_write {n : Node} {text : List Char} (h : write n = .ok text) :
    Denotes nonNumbers text (treeOf n) := by
  obtain ⟨cs, hc, rfl⟩ := map_eq_ok_iff.1 h
  exact ⟨['\n'], .value (Blanks.refl _) (value_of_text hc _), ⟨['\n'], rfl, List.all_eq_true.1 rfl⟩⟩

/-- It is a text of the standard without a name that comes twice exactly if the document has only
numbers that are ones, and in each mapping no two keys with one name. -/
theorem write_standard_iff {n : Node} {text : List Char} (h : write n = .ok text) :
    (∃ j, Denotes [] text j ∧ j.DistinctNames) ↔ n.OnlyFinite ∧ n.DistinctNames := by
  have whole := denotes_of_write h
  obtain ⟨cs, hc, -⟩ := map_eq_ok_iff.1 h
  rw [← word_mem_parts_iff hc, ← distinctNames_iff hc, ← whole.standard_iff]
  constructor
  · rintro ⟨j, hj, distinct⟩
    obtain rfl := hj.of_standard.unique proper_nonNumbers whole
    exact ⟨hj, distinct⟩
  · exact fun ⟨standard, distinct⟩ => ⟨_, standard, distinct⟩

end Json

end PlainSchema
