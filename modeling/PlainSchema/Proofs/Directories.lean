/-
PlainSchema/Proofs/Directories.lean

Making the directories on the way to a place.

A path is split in two: `front` leads to a place that can be followed in the tree as
it is, and what is left, `rest`, has no dots that lead back.  So the directories that
are made lie where the parts of `rest` say.  They are made one below the other, from
the first one that is missing on, and `ensureParts` recurses from the end of the path;
the proofs follow it and take the last part off.  What is kept whenever one directory
is made is kept by the whole (`Stands.ensureParts_induction`).

A run that is refused can leave some of the directories behind (`ensureParts_keeps`),
but only for a name that is too long: otherwise it is refused before it has made any
(`ensureParts_of_error`).
-/
import PlainSchema.Proofs.Places

namespace PlainSchema

namespace FileTree

variable {t t' : FileTree} {p : Path} {anchor : Anchor} {front rest : List String}
  {here place area : Place} {touched : Place → Prop} {e : FileFault}

/-! ### One directory -/

theorem ensureDirectory_of_place_error (h : t.place p = .error e) :
    t.ensureDirectory p = .error e := by
  simp [ensureDirectory, makeDirectory, leadsToDirectory, h]

theorem ensureDirectory_of_none (h : t.place p = .ok place) (hn : t.at? place = none) :
    t.ensureDirectory p = .ok (t.put place .directory) := by
  simp [ensureDirectory, makeDirectory, h, hn]

theorem ensureDirectory_of_directory (h : t.place p = .ok place)
    (hd : t.at? place = some .directory) : t.ensureDirectory p = .ok t := by
  simp [ensureDirectory, makeDirectory, leadsToDirectory, isDirectoryAt, h, hd]

theorem ensureDirectory_of_file {octets : List UInt8} (h : t.place p = .ok place)
    (hf : t.at? place = some (.file octets)) :
    t.ensureDirectory p = .error (.refused .taken p) := by
  simp [ensureDirectory, makeDirectory, leadsToDirectory, isDirectoryAt, h, hf]

/-- What it takes for a directory to be there in the end. -/
theorem ensureDirectory_eq_ok_iff : t.ensureDirectory p = .ok t' ↔
    ∃ place, t.place p = .ok place ∧
      (t.at? place = none ∧ t' = t.put place .directory ∨
        t.at? place = some .directory ∧ t' = t) := by
  rcases hp : t.place p with e | place
  · rw [ensureDirectory_of_place_error hp]
    simp
  rcases hf : t.at? place with - | - | octets
  · rw [ensureDirectory_of_none hp hf]
    simp [hf, eq_comm]
  · rw [ensureDirectory_of_directory hp hf]
    simp [hf, eq_comm]
  · rw [ensureDirectory_of_file hp hf]
    simp [hf]

/-- A directory is refused as missing only if one on the way to it is missing. -/
theorem place_of_ensureDirectory_missing {q : Path}
    (h : t.ensureDirectory p = .error (.refused .missing q)) :
    t.place p = .error (.refused .missing p) := by
  rcases hp : t.place p with e | place
  · rw [ensureDirectory_of_place_error hp] at h
    rw [Except.error.inj h] at hp ⊢
    rw [eq_of_place_eq_refused hp]
  · rcases hf : t.at? place with - | - | octets
    · rw [ensureDirectory_of_none hp hf] at h
      cases h
    · rw [ensureDirectory_of_directory hp hf] at h
      cases h
    · rw [ensureDirectory_of_file hp hf] at h
      cases h

theorem Sound.plain_of_place (hs : t.Sound) (hp : t.place p = .ok place) : ".." ∉ place := by
  rw [eq_walk_of_follow (place_eq_ok_iff.1 hp).2]
  exact Path.not_mem_walk (hs.not_mem_start p)

/-- The directory above the place that a path leads to is there. -/
theorem Sound.parent_of_place (hs : t.Sound) (hp : t.place p = .ok place) :
    t.isDirectoryAt place.dropLast = true := by
  refine hs.parent_of_follow (hs.parent ?_) (place_eq_ok_iff.1 hp).2
  rw [isDirectoryAt_iff.1 (hs.startDirectory p)]
  rfl

theorem leadsToDirectory_iff :
    t.leadsToDirectory p = true ↔
      ∃ place, t.place p = .ok place ∧ t.isDirectoryAt place = true := by
  unfold leadsToDirectory
  rcases t.place p with e | place <;> simp

theorem Keeps.leadsToDirectory (h : Keeps area touched t t') (hp : t.leadsToDirectory p = true) :
    t'.leadsToDirectory p = true := by
  obtain ⟨place, hp, hd⟩ := leadsToDirectory_iff.1 hp
  exact leadsToDirectory_iff.2 ⟨place, h.place_eq_ok hp, h.directories place hd⟩

/-- A directory that is there is left as it is. -/
theorem ensureParts_of_leadsToDirectory {parts : List String}
    (h : t.leadsToDirectory ⟨anchor, parts⟩ = true) : t.ensureParts anchor parts = (t, .ok ()) := by
  obtain ⟨place, hp, hd⟩ := leadsToDirectory_iff.1 h
  rw [ensureParts, ensureDirectory_of_directory hp (isDirectoryAt_iff.1 hd)]

/-- A directory is refused at once, unless one on the way to it is missing. -/
theorem ensureParts_of_ensureDirectory_error {parts : List String}
    (h : t.ensureDirectory ⟨anchor, parts⟩ = .error e)
    (hm : t.place ⟨anchor, parts⟩ ≠ .error (.refused .missing ⟨anchor, parts⟩)) :
    t.ensureParts anchor parts = (t, .error e) := by
  rw [ensureParts, h]
  split
  · next ht => cases ht
  · next hq => exact absurd (place_of_ensureDirectory_missing (h.trans hq)) hm
  · next he => rw [Except.error.inj he]

/-- Where a directory on the way is missing, those above are made first. -/
theorem ensureParts_of_missing {parts : List String} {part : String} {q : Path}
    (h : t.ensureDirectory ⟨anchor, parts ++ [part]⟩ = .error (.refused .missing q)) :
    t.ensureParts anchor (parts ++ [part]) =
      match t.ensureParts anchor parts with
      | (t, .error e) => (t, .error e)
      | (t, .ok ()) =>
        match t.ensureDirectory ⟨anchor, parts ++ [part]⟩ with
        | .ok t => (t, .ok ())
        | .error e => (t, .error e) := by
  have named : parts ++ [part] ≠ [] := List.concat_ne_nil _ _
  rw [ensureParts, h]
  dsimp only
  rw [dif_neg named]
  generalize hp : (parts ++ [part]).dropLast = above
  obtain rfl : parts = above := List.dropLast_concat.symm.trans hp
  rfl

/-! ### A directory and those on the way to it -/

/-- A place from which paths are followed: the tree is sound, and what the paths start with leads
there. -/
structure Stands (t : FileTree) (anchor : Anchor) (front : List String) (here : Place) : Prop where
  sound : t.Sound
  reaches : t.follow (t.start ⟨anchor, front⟩) front = .ok here

namespace Stands

theorem keeps (h : Stands t anchor front here) (hk : Keeps area touched t t') :
    Stands t' anchor front here where
  sound := hk.sound
  reaches := by
    rw [hk.start_eq]
    exact follow_mono hk.directories h.reaches

theorem not_mem (h : Stands t anchor front here) (plain : ".." ∉ rest) : ".." ∉ here ++ rest := by
  rw [List.mem_append, not_or, eq_walk_of_follow h.reaches]
  exact ⟨Path.not_mem_walk (h.sound.not_mem_start _), plain⟩

theorem follow_append (h : Stands t anchor front here) (rest : List String) :
    t.follow (t.start ⟨anchor, front ++ rest⟩) (front ++ rest) = t.follow here rest := by
  show t.follow (t.start ⟨anchor, front⟩) (front ++ rest) = _
  rw [FileTree.follow_append, h.reaches]
  rfl

theorem place_missing_iff (h : Stands t anchor front here) {q : Path} :
    t.place ⟨anchor, front ++ rest⟩ = .error (.refused .missing q) ↔ q = ⟨anchor, front ++ rest⟩ ∧
      (Path.mk anchor (front ++ rest)).IsFollowed ∧ t.follow here rest = .error .missing := by
  rw [place_eq_missing_iff, show (Path.mk anchor (front ++ rest)).parts = front ++ rest from rfl,
    h.follow_append]

theorem place_ok_iff (h : Stands t anchor front here) :
    t.place ⟨anchor, front ++ rest⟩ = .ok place ↔
      (Path.mk anchor (front ++ rest)).IsFollowed ∧ t.follow here rest = .ok place := by
  rw [place_eq_ok_iff, show (Path.mk anchor (front ++ rest)).parts = front ++ rest from rfl,
    h.follow_append]

/-- The place that a path leads to. -/
theorem eq_of_place (h : Stands t anchor front here) (plain : ".." ∉ rest)
    (hp : t.place ⟨anchor, front ++ rest⟩ = .ok place) : place = here ++ rest := by
  rw [eq_walk_of_follow (h.place_ok_iff.1 hp).2, Path.walk_of_plain plain]

/-- A path that is refused leads to nothing, unless it is refused for a name that is too long. -/
theorem at?_of_place_error (h : Stands t anchor front here) (plain : ".." ∉ rest)
    (followed : (Path.mk anchor (front ++ rest)).IsFollowed)
    (hp : t.place ⟨anchor, front ++ rest⟩ = .error e)
    (hl : e ≠ .refused .nameTooLong ⟨anchor, front ++ rest⟩) : t.at? (here ++ rest) = none := by
  rw [place_of_isFollowed followed] at hp
  have hp : (t.follow (t.start ⟨anchor, front ++ rest⟩) (front ++ rest)).mapError _ = _ := hp
  rw [h.follow_append] at hp
  rcases hf : t.follow here rest with why | place <;> rw [hf] at hp
  · refine h.sound.at?_of_follow_error hf plain ?_
    rintro rfl
    exact hl (Except.error.inj hp).symm
  · cases hp

theorem ensureDirectory_keeps (h : Stands t anchor front here) (plain : ".." ∉ rest)
    (near : here ++ rest <+: area ∨ area <+: here ++ rest)
    (he : t.ensureDirectory ⟨anchor, front ++ rest⟩ = .ok t') :
    Keeps area (fun _ => False) t t' ∧ t'.leadsToDirectory ⟨anchor, front ++ rest⟩ = true := by
  obtain ⟨place, hp, ⟨hf, rfl⟩ | ⟨hf, rfl⟩⟩ := ensureDirectory_eq_ok_iff.1 he
  · obtain rfl := h.eq_of_place plain hp
    have kept := h.sound.keeps_put_directory hf (h.sound.parent_of_place hp) (h.not_mem plain) near
    refine ⟨kept, leadsToDirectory_iff.2 ⟨_, kept.place_eq_ok hp, ?_⟩⟩
    rw [isDirectoryAt_iff, at?_put t (by intro hr; rw [hr] at hf; cases hf), if_pos rfl]
  · exact ⟨.refl h.sound, leadsToDirectory_iff.2 ⟨_, hp, isDirectoryAt_iff.2 hf⟩⟩

/-- Where something is missing on the way, the path goes on behind its front. -/
theorem rest_ne_nil_of_missing {q : Path} (h : Stands t anchor front here)
    (hp : t.place ⟨anchor, front ++ rest⟩ = .error (.refused .missing q)) : rest ≠ [] := by
  rintro rfl
  cases (h.place_missing_iff.1 hp).2.2

/-- What each directory that is made keeps is kept by all of them, whether they are refused in the
end or not; if they are not, the last one is that of the path. -/
theorem ensureParts_induction {motive : FileTree → Prop} (h : Stands t anchor front here)
    (start : motive t) (step : ∀ xs, xs <+: rest → ∀ u u', motive u →
      u.ensureDirectory ⟨anchor, front ++ xs⟩ = .ok u' → motive u') :
    motive (t.ensureParts anchor (front ++ rest)).1 ∧
      ((t.ensureParts anchor (front ++ rest)).2 = .ok () → ∃ u, motive u ∧
        u.ensureDirectory ⟨anchor, front ++ rest⟩
          = .ok (t.ensureParts anchor (front ++ rest)).1) := by
  induction rest using List.reverseRecOn with
  | nil =>
    rw [ensureParts]
    split
    · next t' he => exact ⟨step [] (List.prefix_refl _) t t' start he, fun _ => ⟨t, start, he⟩⟩
    · next q hq =>
      exact absurd rfl (h.rest_ne_nil_of_missing (place_of_ensureDirectory_missing hq))
    · exact ⟨start, fun made => by cases made⟩
  | append_singleton rest part ih =>
    have last := step _ (List.prefix_refl _)
    rcases hd : t.ensureDirectory ⟨anchor, front ++ (rest ++ [part])⟩ with e | t'
    · by_cases hm : ∃ q, e = .refused .missing q
      · obtain ⟨q, rfl⟩ := hm
        -- The directories above are made first, which the hypothesis is about.
        have above := (ih fun xs hx => step xs (hx.trans (List.prefix_append _ _))).1
        have parts : front ++ (rest ++ [part]) = front ++ rest ++ [part] :=
          (List.append_assoc ..).symm
        rw [parts] at hd last ⊢
        rw [ensureParts_of_missing hd]
        split
        · next t' e he =>
          rw [he] at above
          exact ⟨above, fun made => by cases made⟩
        · next t' he =>
          rw [he] at above
          split
          · next t'' he' => exact ⟨last t' t'' above he', fun _ => ⟨t', above, he'⟩⟩
          · exact ⟨above, fun made => by cases made⟩
      · rw [ensureParts_of_ensureDirectory_error hd]
        · exact ⟨start, fun made => by cases made⟩
        · intro hp
          exact hm ⟨_, Except.error.inj (hd.symm.trans (ensureDirectory_of_place_error hp))⟩
    · rw [ensureParts, hd]
      exact ⟨last t t' start hd, fun _ => ⟨t, start, hd⟩⟩

/-- Only directories are made, on the way to a place, and if all goes well they are there. -/
theorem ensureParts_keeps (h : Stands t anchor front here) (plain : ".." ∉ rest)
    (near : ∀ v, v <+: rest → here ++ v <+: area ∨ area <+: here ++ v) :
    Keeps area (fun _ => False) t (t.ensureParts anchor (front ++ rest)).1 ∧
      ((t.ensureParts anchor (front ++ rest)).2 = .ok () →
        (t.ensureParts anchor (front ++ rest)).1.leadsToDirectory ⟨anchor, front ++ rest⟩
          = true) := by
  have step : ∀ xs, xs <+: rest → ∀ u u', Keeps area (fun _ => False) t u →
      u.ensureDirectory ⟨anchor, front ++ xs⟩ = .ok u' →
      Keeps area (fun _ => False) t u' ∧ u'.leadsToDirectory ⟨anchor, front ++ xs⟩ = true := by
    intro xs hx u u' hk he
    have plain' : ".." ∉ xs := fun hm => plain (hx.subset hm)
    obtain ⟨kept, leads⟩ := (h.keeps hk).ensureDirectory_keeps plain' (near xs hx) he
    exact ⟨hk.trans kept, leads⟩
  obtain ⟨kept, last⟩ := h.ensureParts_induction (.refl h.sound)
    fun xs hx u u' hk he => (step xs hx u u' hk he).1
  refine ⟨kept, fun made => ?_⟩
  obtain ⟨u, hk, he⟩ := last made
  exact (step rest (List.prefix_refl _) u _ hk he).2

/-- From a directory that is there a path leads one part further, if that is not too long. -/
theorem follow_concat (h : Stands t anchor front here) (plain : ".." ∉ rest) {part : String}
    (hd : t.leadsToDirectory ⟨anchor, front ++ rest⟩ = true) (dots : part ≠ "..")
    (short : isTooLong part = false) :
    t.follow here (rest ++ [part]) = .ok (here ++ (rest ++ [part])) := by
  obtain ⟨place, hp, hd⟩ := leadsToDirectory_iff.1 hd
  obtain rfl := h.eq_of_place plain hp
  rw [FileTree.follow_append, (h.place_ok_iff.1 hp).2]
  refine follow_cons_eq_ok_iff.2 ⟨hd, .inr short, ?_⟩
  rw [if_neg dots, List.append_assoc]
  rfl

/-- Without names that are too long, the way to a place is made where it is missing. -/
theorem ensureParts_of_place_missing (h : Stands t anchor front here) (plain : ".." ∉ rest)
    (short : ∀ part ∈ rest, isTooLong part = false) {q : Path}
    (hp : t.place ⟨anchor, front ++ rest⟩ = .error (.refused .missing q)) :
    (t.ensureParts anchor (front ++ rest)).2 = .ok () := by
  induction rest using List.reverseRecOn generalizing q with
  | nil => exact absurd rfl (h.rest_ne_nil_of_missing hp)
  | append_singleton rest part ih =>
    obtain ⟨-, followed, hf⟩ := h.place_missing_iff.1 hp
    have plain' : ".." ∉ rest := fun hm => plain (List.mem_append_left _ hm)
    have followed' := Path.IsFollowed.of_concat (by rwa [← List.append_assoc] at followed)
    rw [FileTree.follow_append] at hf
    -- The directories above are there in the end, whether they were missing or not.
    have above : (t.ensureParts anchor (front ++ rest)).2 = .ok () := by
      rcases hr : t.follow here rest with why | place
      · rw [hr] at hf
        obtain rfl : why = .missing := Except.error.inj hf
        exact ih plain' (fun part hm => short part (List.mem_append_left _ hm))
          (h.place_missing_iff.2 ⟨rfl, followed', hr⟩)
      · rw [hr] at hf
        have none : t.at? place = none := by
          have hf : t.follow place [part] = .error .missing := hf
          rw [follow] at hf
          split at hf
          · assumption
          · cases hf
          · rw [if_neg (fun hd => plain (by simp [hd])), short part (by simp)] at hf
            cases hf
        have hp' := h.place_ok_iff.2 ⟨followed', hr⟩
        rw [ensureParts, ensureDirectory_of_none hp' none]
    obtain ⟨kept, leads⟩ := h.ensureParts_keeps plain'
      fun v hv => .inl ((List.prefix_append_right_inj here).2 hv)
    have file : ∀ octets, t.at? (here ++ (rest ++ [part])) ≠ some (.file octets) := by
      intro octets hf'
      rw [h.sound.at?_of_follow_error (h.place_missing_iff.1 hp).2.2 plain (by decide)] at hf'
      cases hf'
    rw [← List.append_assoc, ensureParts_of_missing
      (ensureDirectory_of_place_error (by rw [List.append_assoc]; exact hp))]
    rcases ht : t.ensureParts anchor (front ++ rest) with ⟨t', r⟩
    rw [ht] at above kept leads
    obtain rfl : r = .ok () := above
    -- The directory above is there now, so that this one can be made in it.
    have hp' := (h.keeps kept).place_ok_iff.2 ⟨followed, (h.keeps kept).follow_concat plain'
      (leads rfl) (fun hd => plain (by simp [hd])) (short part (by simp))⟩
    dsimp only
    rw [List.append_assoc]
    rcases hq : t'.at? (here ++ (rest ++ [part])) with - | - | octets
    · rw [ensureDirectory_of_none hp' hq]
    · rw [ensureDirectory_of_directory hp' hq]
    · exact absurd ((kept.files _ octets not_false).1 hq) (file octets)

/-- Without names that are too long, what is refused is refused before anything is made. -/
theorem ensureParts_of_error (h : Stands t anchor front here) (plain : ".." ∉ rest)
    (short : ∀ part ∈ rest, isTooLong part = false)
    (he : (t.ensureParts anchor (front ++ rest)).2 = .error e) :
    t.ensureDirectory ⟨anchor, front ++ rest⟩ = .error e ∧
      t.place ⟨anchor, front ++ rest⟩ ≠ .error (.refused .missing ⟨anchor, front ++ rest⟩) := by
  by_cases hm : t.place ⟨anchor, front ++ rest⟩ = .error (.refused .missing ⟨anchor, front ++ rest⟩)
  · cases (h.ensureParts_of_place_missing plain short hm).symm.trans he
  · refine ⟨?_, hm⟩
    rcases hd : t.ensureDirectory ⟨anchor, front ++ rest⟩ with e' | t'
    · rw [ensureParts_of_ensureDirectory_error hd hm] at he
      exact congrArg _ (Except.error.inj he)
    · rw [ensureParts, hd] at he
      cases he

/-- Directories that are refused stay refused, as long as no file on the way to them is touched. -/
theorem ensureParts_stays (h : Stands t anchor front here) (hk : Keeps area touched t t')
    (plain : ".." ∉ rest) (out : ∀ xs, xs <+: rest → ¬ touched (here ++ xs))
    (he : t.ensureDirectory ⟨anchor, front ++ rest⟩ = .error e)
    (hm : t.place ⟨anchor, front ++ rest⟩ ≠ .error (.refused .missing ⟨anchor, front ++ rest⟩)) :
    t'.ensureDirectory ⟨anchor, front ++ rest⟩ = .error e ∧
      t'.place ⟨anchor, front ++ rest⟩ ≠ .error (.refused .missing ⟨anchor, front ++ rest⟩) := by
  have hp : t'.place ⟨anchor, front ++ rest⟩ = t.place ⟨anchor, front ++ rest⟩ := by
    by_cases followed : (Path.mk anchor (front ++ rest)).IsFollowed
    · refine place_congr ?_
      show t'.follow (t'.start ⟨anchor, front ++ rest⟩) (front ++ rest) = t.follow _ (front ++ rest)
      rw [h.follow_append, (h.keeps hk).follow_append]
      exact hk.follow_eq plain out fun hf => hm (h.place_missing_iff.2 ⟨rfl, followed, hf⟩)
    · obtain ⟨e', he', -⟩ := place_of_not_isFollowed followed
      rw [he', he']
  refine ⟨?_, by rwa [hp]⟩
  rcases hq : t.place ⟨anchor, front ++ rest⟩ with e' | place
  · rw [ensureDirectory_of_place_error hq] at he
    rw [ensureDirectory_of_place_error (hp.trans hq), he]
  · obtain rfl := h.eq_of_place plain hq
    -- The only thing that can be in the way is a file, and it is there still.
    rcases hf : t.at? (here ++ rest) with - | - | octets
    · rw [ensureDirectory_of_none hq hf] at he
      cases he
    · rw [ensureDirectory_of_directory hq hf] at he
      cases he
    · rw [ensureDirectory_of_file hq hf] at he
      rw [ensureDirectory_of_file (hp.trans hq)
        ((hk.files _ octets (out rest (List.prefix_refl _))).2 hf), he]

end Stands

/-- In a directory that is in two trees a path leads to the same place. -/
theorem place_eq_of_parent (hc : t'.current = t.current) (hp : p.parts ≠ [])
    (hd : t.place p.parent = .ok place) (hd' : t'.place p.parent = .ok place)
    (directory : t.isDirectoryAt place = true) (directory' : t'.isDirectoryAt place = true) :
    t'.place p = t.place p := by
  have start : t'.start p = t.start p := by rw [FileTree.start, FileTree.start, hc]
  have hf : t.follow (t.start p) p.parts.dropLast = .ok place := (place_eq_ok_iff.1 hd).2
  have hf' : t'.follow (t'.start p) p.parts.dropLast = .ok place := (place_eq_ok_iff.1 hd').2
  apply place_congr
  rw [← List.dropLast_concat_getLast hp, follow_append, follow_append, hf, hf']
  show t'.follow place [_] = t.follow place [_]
  simp only [follow, isDirectoryAt_iff.1 directory, isDirectoryAt_iff.1 directory']

/-- In a directory that is there, a path leads to where it led before. -/
theorem Keeps.place_of_parent (hk : Keeps area touched t t') (hp : p.parts ≠ [])
    (hd : t.leadsToDirectory p.parent = true) : t'.place p = t.place p := by
  obtain ⟨place, hq, hd⟩ := leadsToDirectory_iff.1 hd
  exact place_eq_of_parent hk.current hp hq (hk.place_eq_ok hq) hd (hk.directories place hd)

/-- In a directory that is there, a file that cannot be written can never be. -/
theorem Keeps.write_eq_error (hk : Keeps area touched t t') (hp : p.parts ≠ [])
    (hd : t.leadsToDirectory p.parent = true) {octets : List UInt8}
    (he : t.write p octets = .error e) : t'.write p octets = .error e := by
  rw [write] at he ⊢
  rw [hk.place_of_parent hp hd]
  split at he
  · exact congrArg _ (Except.error.inj he)
  · next place hq =>
    split at he
    · next hf =>
      rw [isDirectoryAt_iff.1 (hk.directories place (isDirectoryAt_iff.2 hf))]
      exact congrArg _ (Except.error.inj he)
    · cases he

end FileTree

end PlainSchema
