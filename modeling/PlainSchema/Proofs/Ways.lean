/-
PlainSchema/Proofs/Ways.lean

Where patterns of any kind lead, those that lead back included.

A pattern goes from directory to directory, one part at a time, so that every spot
that it comes to can be reached by following its way (`Reached`).  Nothing but a name
that is too long can keep a path from leading there.  A directory that two stars find
is among the entries of the tree, and so is all that is above it; that it is what lies
at its place takes a tree with one entry at each place (`IsTree`).
-/
import PlainSchema.Proofs.Cleaning
import PlainSchema.Proofs.Discovery

namespace PlainSchema

namespace FileTree

variable {t t' : FileTree} {root place here : Place} {s spot : Spot} {pattern left : Pattern}
  {part text : String} {parts rest : List String} {directory : Path}
  {texts : List String} {ways : List Path} {way : Path} {spots : List Spot} {entry : Entry}
  {area : Place} {touched : Place → Prop}

/-! ### One entry at each place -/

/-- A list of entries that is a tree, with one entry at each place. -/
structure IsTree (t : FileTree) : Prop extends t.Sound where
  distinct : (t.entries.map Prod.fst).Nodup

/-- An entry of the list is what lies at its place. -/
theorem IsTree.at?_of_mem (ht : t.IsTree) (hp : place ≠ []) (h : (place, entry) ∈ t.entries) :
    t.at? place = some entry := by
  have found : ∀ es : List (Place × Entry), (es.map Prod.fst).Nodup → (place, entry) ∈ es →
      es.find? (fun e => e.1 = place) = some (place, entry) := by
    intro es distinct hm
    induction es with
    | nil => cases hm
    | cons e es ih =>
      rw [List.map_cons, List.nodup_cons] at distinct
      rcases List.mem_cons.1 hm with rfl | hm
      · exact List.find?_cons_of_pos (by simp)
      · have other : e.1 ≠ place := by
          intro he
          apply distinct.1
          rw [he]
          exact List.mem_map_of_mem hm
        rw [List.find?_cons_of_neg (by simpa using other)]
        exact ih distinct.2 hm
  rw [at?, if_neg hp, found t.entries ht.distinct h]
  rfl

/-! ### What is listed -/

/-- What lies at a place is an entry, unless it is the root. -/
theorem mem_of_at? (h : t.at? place = some entry) (hp : place ≠ []) :
    (place, entry) ∈ t.entries := by
  rw [at?, if_neg hp, Option.map_eq_some_iff] at h
  obtain ⟨e, he, rfl⟩ := h
  have hq := List.find?_some he
  rw [← of_decide_eq_true hq]
  exact List.mem_of_find?_eq_some he

theorem mem_namesIn (h : (t.at? (place ++ [part])).isSome = true) : part ∈ t.namesIn place := by
  obtain ⟨entry, h⟩ := Option.isSome_iff_exists.1 h
  exact List.mem_filterMap.2 ⟨_, mem_of_at? h (by simp), by simp⟩

theorem mem_directoriesFrom_iff (ht : t.IsTree) (hd : t.isDirectoryAt s.place = true) :
    spot ∈ t.directoriesFrom s ↔ ∃ between, ".." ∉ between ∧
      spot = ⟨s.place ++ between, s.way ++ between⟩ ∧
      t.isDirectoryAt (s.place ++ between) = true := by
  constructor
  · intro hm
    rcases List.mem_cons.1 hm with rfl | hm
    · refine ⟨[], List.not_mem_nil, ?_, ?_⟩ <;> simp only [List.append_nil]
      exact hd
    obtain ⟨place, hp, rfl⟩ := List.mem_map.1 hm
    obtain ⟨⟨place', entry⟩, he, hp⟩ := List.mem_filterMap.1 hp
    split at hp
    · next hc =>
      obtain rfl : place' = place := Option.some.inj hp
      simp only [Bool.and_eq_true, decide_eq_true_eq, List.isPrefixOf_iff_prefix, ne_eq] at hc
      obtain ⟨⟨rfl, between, rfl⟩, hne⟩ := hc
      have there : t.at? (s.place ++ between) = some .directory := by
        apply ht.at?_of_mem _ he
        intro hn
        rw [(List.append_eq_nil_iff.1 hn).1, (List.append_eq_nil_iff.1 hn).2] at hne
        exact hne rfl
      refine ⟨between, fun hm => ht.names _ he (List.mem_append_right _ hm), ?_,
        isDirectoryAt_iff.2 there⟩
      rw [List.drop_left]
    · cases hp
  · rintro ⟨between, -, rfl, hb⟩
    by_cases hne : between = []
    · rw [hne, List.append_nil, List.append_nil]
      exact List.mem_cons_self
    refine List.mem_cons_of_mem _ (List.mem_map.2 ⟨s.place ++ between, ?_, by rw [List.drop_left]⟩)
    exact List.mem_filterMap.2 ⟨_, mem_of_at? (isDirectoryAt_iff.1 hb) (by simp [hne]),
      by simp [hne, List.isPrefixOf_iff_prefix]⟩

/-! ### Where patterns lead -/

/-- The spots that can be reached from a directory, by going from directory to directory. -/
inductive Reached (t : FileTree) (root : Place) : Spot → Prop
  | start : Reached t root ⟨root, []⟩
  | enter {s : Spot} {part : String} : Reached t root s → t.isDirectoryAt s.place = true →
      Reached t root (s.enter part)

namespace Reached

theorem place_eq (h : t.Reached root s) : s.place = Path.walk root s.way := by
  induction h with
  | start => rfl
  | enter _ _ ih =>
    show (if _ then _ else _) = Path.walk root (_ ++ _)
    rw [Path.walk_append, ← ih, Path.walk_cons, Path.walk_nil]

/-- The way to a spot can be followed, unless a name on it is too long. -/
theorem follow (h : t.Reached root s) :
    t.follow root s.way = .ok s.place ∨ t.follow root s.way = .error .nameTooLong := by
  induction h with
  | start => exact .inl rfl
  | @enter s part _ hd ih =>
    show t.follow root (s.way ++ [part]) = .ok (if part = ".." then _ else _) ∨
      t.follow root (s.way ++ [part]) = .error .nameTooLong
    rw [follow_append]
    rcases ih with ih | ih
    · rw [ih]
      show t.follow s.place [part] = _ ∨ t.follow s.place [part] = _
      rw [FileTree.follow, isDirectoryAt_iff.1 hd]
      dsimp only
      split
      · exact .inl rfl
      · split
        · exact .inr rfl
        · exact .inl rfl
    · rw [ih]
      exact .inr rfl

/-- The way to a file ends in its name. -/
theorem eq_concat (h : t.Reached root s) (hs : t.Sound) (hd : t.isDirectoryAt root = true)
    (hf : t.isFileAt s.place = true) : ∃ init part, s.way = init ++ [part] ∧ part ≠ ".." := by
  obtain ⟨octets, hf⟩ := isFileAt_iff.1 hf
  cases h with
  | start => exact absurd hf (directory_ne_file hd)
  | @enter s part _ above =>
    refine ⟨s.way, part, rfl, ?_⟩
    -- What two dots lead to is above a directory, and so it is a directory.
    rintro rfl
    have back : t.isDirectoryAt s.place.dropLast = true :=
      hs.parent (by rw [isDirectoryAt_iff.1 above]; rfl)
    exact directory_ne_file back hf

/-- From a directory all directories below it can be reached. -/
theorem append (h : t.Reached root s) (hs : t.Sound)
    (hd : t.isDirectoryAt (s.place ++ rest) = true) (plain : ".." ∉ rest) :
    t.Reached root ⟨s.place ++ rest, s.way ++ rest⟩ := by
  induction rest using List.reverseRecOn with
  | nil =>
    rw [List.append_nil, List.append_nil]
    exact h
  | append_singleton rest part ih =>
    rw [List.mem_append, not_or, List.mem_singleton] at plain
    rw [← List.append_assoc] at hd
    have above : t.isDirectoryAt (s.place ++ rest) = true := by
      have := hs.parent (by rw [isDirectoryAt_iff.1 hd]; rfl)
      rwa [List.dropLast_concat] at this
    have next : t.Reached root (Spot.enter ⟨s.place ++ rest, s.way ++ rest⟩ part) :=
      (ih above plain.1).enter above
    rw [Spot.enter, if_neg (Ne.symm plain.2), List.append_assoc, List.append_assoc] at next
    exact next

end Reached

/-- The directories from a spot on can be reached, and they are directories. -/
theorem reached_of_mem_directoriesFrom (ht : t.IsTree) (h : t.Reached root s)
    (hd : t.isDirectoryAt s.place = true) (hm : spot ∈ t.directoriesFrom s) :
    t.Reached root spot ∧ t.isDirectoryAt spot.place = true := by
  obtain ⟨between, plain, rfl, hb⟩ := (mem_directoriesFrom_iff ht hd).1 hm
  exact ⟨h.append ht.toSound hb plain, hb⟩

/-- What a pattern selects can be reached. -/
theorem reached_of_mem_select (ht : t.IsTree) (h : t.Reached root s)
    (hd : pattern ≠ [] → t.isDirectoryAt s.place = true) (hm : spot ∈ t.select pattern s) :
    t.Reached root spot := by
  -- Whatever is left of the pattern is looked for in a directory.
  have further : ∀ {left : Pattern} {s' : Spot}, t.admits left s' = true → left ≠ [] →
      t.isDirectoryAt s'.place = true := by
    intro left s' ha hl
    rwa [admits, if_neg (by simpa using hl)] at ha
  induction pattern generalizing s with
  | nil =>
    rw [select, List.mem_singleton] at hm
    exact hm ▸ h
  | cons segment left ih =>
    have above : t.isDirectoryAt s.place = true := hd (List.cons_ne_nil _ _)
    cases segment with
    | slash =>
      rw [select, List.mem_singleton] at hm
      exact hm ▸ h
    | name part =>
      rw [select] at hm
      split at hm
      · next ha => exact ih (h.enter above) (further ha) hm
      · cases hm
    | names wildcard =>
      rw [select] at hm
      obtain ⟨part, -, hm⟩ := List.mem_flatMap.1 hm
      split at hm
      · next ha => exact ih (h.enter above) (further (Bool.and_eq_true_iff.1 ha).2) hm
      · cases hm
    | anyDepth =>
      rw [select] at hm
      obtain ⟨spot', hm', hm⟩ := List.mem_flatMap.1 hm
      obtain ⟨h', hd'⟩ := reached_of_mem_directoriesFrom ht h above hm'
      exact ih h' (fun _ => hd') hm

theorem glob_eq_ok (hd : t.find? directory = .ok (some .directory))
    (hp : t.place directory = .ok root) (hg : t.glob directory text = .ok spots) :
    ∃ pattern, Pattern.ofText text = .ok pattern ∧ spots = t.select pattern ⟨root, []⟩ := by
  unfold glob at hg
  split at hg
  · cases hg
  · next pattern hr =>
    rw [hd, hp] at hg
    dsimp only at hg
    split at hg
    · cases hg
    · exact ⟨pattern, hr, (Except.ok.inj hg).symm⟩

/-- What several patterns select is what one of them selects. -/
theorem mem_globAll_iff (hd : t.find? directory = .ok (some .directory))
    (hp : t.place directory = .ok root) (hg : t.globAll directory texts = .ok spots) :
    spot ∈ spots ↔ ∃ text ∈ texts, ∃ pattern, Pattern.ofText text = .ok pattern ∧
      spot ∈ t.select pattern ⟨root, []⟩ := by
  induction texts generalizing spots with
  | nil =>
    obtain rfl := Except.ok.inj hg
    simp
  | cons text texts ih =>
    rw [globAll] at hg
    split at hg
    · cases hg
    · next first hf =>
      obtain ⟨rest, hr, rfl⟩ := map_eq_ok_iff.1 hg
      obtain ⟨pattern, ht, rfl⟩ := glob_eq_ok hd hp hf
      rw [List.mem_append, ih hr, List.exists_mem_cons_iff]
      refine or_congr_left ?_
      constructor
      · exact fun h => ⟨pattern, ht, h⟩
      · rintro ⟨pattern', ht', h⟩
        obtain rfl := Except.ok.inj (ht.symm.trans ht')
        exact h

/-! ### The files that are found -/

/-- A way from a directory to a file: it can be reached, and its last part is the name of the
file. -/
structure LeadsToFile (t : FileTree) (root : Place) (way : Path) : Prop where
  anchor : way.anchor = .here
  name : ∃ init part, way.parts = init ++ [part] ∧ part ≠ ".."
  file : t.isFileAt (Path.walk root way.parts) = true
  follow : t.follow root way.parts = .ok (Path.walk root way.parts) ∨
    t.follow root way.parts = .error .nameTooLong

/-- **What patterns find**, whatever they are: ways to files, each once. -/
theorem leadsToFile_of_mem_discover (ht : t.IsTree) (hp : t.place directory = .ok root)
    (hd : t.isDirectoryAt root = true) (hw : t.discover directory texts = .ok ways) :
    (∀ way ∈ ways, t.LeadsToFile root way) ∧ ways.Nodup := by
  have found : t.find? directory = .ok (some .directory) :=
    find?_eq_some_iff.2 ⟨root, hp, isDirectoryAt_iff.1 hd⟩
  rcases hg : t.globAll directory texts with e | spots <;> rw [discover, hg] at hw
  · cases hw
  obtain rfl := Except.ok.inj hw
  constructor
  · intro way hm
    simp only [List.mem_map, List.mem_mergeSort, List.mem_eraseDups, List.mem_filter] at hm
    obtain ⟨_, ⟨spot, ⟨hm, hf⟩, rfl⟩, rfl⟩ := hm
    obtain ⟨text, -, pattern, -, hm⟩ := (mem_globAll_iff found hp hg).1 hm
    have reached := reached_of_mem_select ht .start (fun _ => hd) hm
    have place := reached.place_eq
    refine ⟨rfl, reached.eq_concat ht.toSound hd hf, ?_, ?_⟩
    · rwa [place] at hf
    · have := reached.follow
      rwa [place] at this
  · apply List.Nodup.map (fun v w h => (Path.mk.inj h).2)
    exact (List.mergeSort_perm _ _).nodup_iff.2 (nodup_eraseDups _)

/-! ### The same file in another tree -/

/-- A name that is too long is so still, where the directories before it stay. -/
theorem Keeps.follow_nameTooLong (hk : Keeps area touched t t')
    (h : t.follow here parts = .error .nameTooLong) :
    t'.follow here parts = .error .nameTooLong := by
  induction parts generalizing here with
  | nil => cases h
  | cons part parts ih =>
    rw [FileTree.follow] at h
    rcases hq : t.at? here with - | - | octets <;> rw [hq] at h
    · cases h
    · dsimp only at h
      rw [FileTree.follow, isDirectoryAt_iff.1 (hk.directories here (isDirectoryAt_iff.2 hq))]
      dsimp only
      split at h
      · next hp =>
        rw [if_pos hp]
        exact ih h
      · next hp =>
        rw [if_neg hp]
        split at h
        · next hl => rw [if_pos hl]
        · next hl =>
          rw [if_neg hl]
          exact ih h
    · cases h

/-- The path of a file that is found leads where it led, as far as it leads anywhere. -/
theorem LeadsToFile.place_eq (h : t.LeadsToFile root way) (hk : Keeps area touched t t')
    (hp : t.place directory = .ok root) :
    t'.place (directory.join way) = t.place (directory.join way) := by
  have join : directory.join way = ⟨directory.anchor, directory.parts ++ way.parts⟩ := by
    rw [Path.join, if_pos h.anchor]
  have split : ∀ {u : FileTree}, u.follow (u.start directory) directory.parts = .ok root →
      u.follow (u.start (directory.join way)) (directory.join way).parts
        = u.follow root way.parts := by
    intro u hu
    rw [join]
    show u.follow (u.start directory) (directory.parts ++ way.parts) = _
    rw [follow_append, hu]
    rfl
  apply place_congr
  rw [split (place_eq_ok_iff.1 hp).2, split (place_eq_ok_iff.1 (hk.place_eq_ok hp)).2]
  rcases h.follow with hf | hf
  · rw [hf]
    exact follow_mono hk.directories hf
  · rw [hf]
    exact hk.follow_nameTooLong hf

end FileTree

end PlainSchema
