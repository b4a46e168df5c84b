/-
PlainSchema/Proofs/Pointers.lean

What the text of a place tells about the place.

To escape a segment is to replace its tildes first and its slashes after them
(`escape_eq_replaced`).  The order is what makes the text readable.  Once each tilde
has its zero behind it there is no `~1` in the segment, so those that are there in the
end stand for slashes, and they are taken back before the tildes are
(`unescape_escape`), whatever the segment looked like.  And an escaped segment has no
slash, so the text falls at its slashes into the segments that it was made of
(`exists_text_eq`).

Two places have the same text, then, exactly if their steps have the same texts, with
one exception: the lone slash of the root is also what is written for a single step
with no text at all (`text_unambiguous`).  A key and an index of the same text are not
told apart.
-/
import PlainSchema.Schema.Pointer

namespace PlainSchema

/-! ### Replacing a part of a text -/

namespace Text

variable {part new cs : List Char} {a b c : Char}

/-- A text with another one for each occurrence of a part.  The part is not empty; its occurrences
are found from the front, each behind the one before it. -/
def replaced (part new text : List Char) : List Char :=
  match text with
  | [] => []
  | c :: cs =>
    if part <+: c :: cs then new ++ replaced part new (cs.drop (part.length - 1))
    else c :: replaced part new cs
termination_by text.length
decreasing_by
  · simp only [List.length_drop, List.length_cons]
    omega
  · exact Nat.lt_succ_self _

@[simp] theorem replaced_nil : replaced part new [] = [] := by
  rw [replaced]

theorem replaced_append (cs : List Char) :
    replaced (a :: part) new (a :: part ++ cs) = new ++ replaced (a :: part) new cs := by
  have front : a :: part <+: a :: (part ++ cs) := List.prefix_append (a :: part) cs
  rw [List.cons_append, replaced, if_pos front]
  simp

/-- Two characters for one. -/
theorem replaced_char (a b c : Char) (cs : List Char) :
    replaced [c] [a, b] (c :: cs) = a :: b :: replaced [c] [a, b] cs :=
  replaced_append cs

/-- One character for two. -/
theorem replaced_pair (a b c : Char) (cs : List Char) :
    replaced [a, b] [c] (a :: b :: cs) = c :: replaced [a, b] [c] cs :=
  replaced_append cs

theorem replaced_cons (h : ¬ part <+: c :: cs) :
    replaced part new (c :: cs) = c :: replaced part new cs := by
  rw [replaced, if_neg h]

theorem replaced_cons_of_ne (h : c ≠ a) :
    replaced (a :: part) new (c :: cs) = c :: replaced (a :: part) new cs :=
  replaced_cons fun hp => h (List.cons_prefix_cons.1 hp).1.symm

/-- A character that was replaced by itself and another one is taken back. -/
theorem replaced_replaced_self (a b : Char) (cs : List Char) :
    replaced [a, b] [a] (replaced [a] [a, b] cs) = cs := by
  induction cs with
  | nil => simp
  | cons c cs ih =>
    by_cases h : c = a
    · subst h
      rw [replaced_char, replaced_pair, ih]
    · rw [replaced_cons_of_ne h, replaced_cons_of_ne h, ih]

/-- What is put into a text starts with another character, so a text that does not start with a
character still does not. -/
theorem not_prefix_replaced (hab : a ≠ b) (h : ¬ [b] <+: cs) :
    ¬ [b] <+: replaced [c] [a, b] cs := by
  cases cs with
  | nil => simp
  | cons d cs =>
    by_cases hd : d = c
    · subst hd
      rw [replaced_char, List.cons_prefix_cons]
      exact fun hp => hab hp.1.symm
    · rw [replaced_cons_of_ne hd, List.cons_prefix_cons]
      exact fun hp => h (List.cons_prefix_cons.2 ⟨hp.1, List.nil_prefix⟩)

/-- A character that was replaced by two others is taken back, if the text did not have these two
already. -/
theorem replaced_replaced (hab : a ≠ b) (h : ¬ [a, b] <:+: cs) :
    replaced [a, b] [c] (replaced [c] [a, b] cs) = cs := by
  induction cs with
  | nil => simp
  | cons d cs ih =>
    obtain ⟨front, rest⟩ := not_or.1 (mt List.infix_cons_iff.2 h)
    by_cases hd : d = c
    · subst hd
      rw [replaced_char, replaced_pair, ih rest]
    · -- The two do not come about at the seam either.
      have apart : ¬ [a, b] <+: d :: replaced [c] [a, b] cs := by
        rw [List.cons_prefix_cons] at front ⊢
        exact fun hp => not_prefix_replaced hab (not_and.1 front hp.1) hp.2
      rw [replaced_cons_of_ne hd, replaced_cons apart, ih rest]

end Text

/-! ### Segments -/

namespace Pointer

open Text

variable {p q : Pointer}

/-- **To escape a segment is to replace its tildes first, and its slashes after them.** -/
theorem escape_eq_replaced (cs : List Char) :
    escape cs = replaced ['/'] ['~', '1'] (replaced ['~'] ['~', '0'] cs) := by
  fun_induction escape cs with
  | case1 => simp
  | case2 cs ih =>
    rw [replaced_char, replaced_cons_of_ne (by decide), replaced_cons_of_ne (by decide), ih]
  | case3 cs ih =>
    rw [replaced_cons_of_ne (by decide), replaced_char, ih]
  | case4 c cs tilde slash ih =>
    rw [replaced_cons_of_ne tilde, replaced_cons_of_ne slash, ih]

/-- The text that an escaped segment stands for: slashes are taken back first, and tildes after
them. -/
def unescape (cs : List Char) : List Char :=
  replaced ['~', '0'] ['~'] (replaced ['~', '1'] ['/'] cs)

/-- Where each tilde has a zero behind it, none has a one. -/
theorem not_infix_replaced (cs : List Char) :
    ¬ ['~', '1'] <:+: replaced ['~'] ['~', '0'] cs := by
  induction cs with
  | nil => simp
  | cons c cs ih =>
    by_cases h : c = '~'
    · simp [h, replaced_char, List.infix_cons_iff, List.cons_prefix_cons, ih]
    · simp [replaced_cons_of_ne h, List.infix_cons_iff, List.cons_prefix_cons, ih, Ne.symm h]

theorem unescape_escape (cs : List Char) : unescape (escape cs) = cs := by
  calc unescape (escape cs)
      = replaced ['~', '0'] ['~'] (replaced ['~', '1'] ['/'] (replaced ['/'] ['~', '1']
          (replaced ['~'] ['~', '0'] cs))) := by rw [unescape, escape_eq_replaced]
    _ = replaced ['~', '0'] ['~'] (replaced ['~'] ['~', '0'] cs) := by
        rw [replaced_replaced (by decide) (not_infix_replaced cs)]
    _ = cs := replaced_replaced_self '~' '0' cs

theorem slash_notMem_escape (cs : List Char) : '/' ∉ escape cs := by
  fun_induction escape cs with
  | case1 => simp
  | case2 cs ih => simpa using ih
  | case3 cs ih => simpa using ih
  | case4 c cs _ slash ih => simpa [eq_comm (a := '/')] using ⟨slash, ih⟩

/-! ### Texts -/

/-- The segments of a text, without the slash in front of the first. -/
def segments (text : String) : List String :=
  (text.toList.splitOn '/').map fun piece => String.ofList (unescape piece)

/-- There is a slash in front of each segment. -/
theorem ofSegments_eq_cons {segments : List (List Char)} (h : segments ≠ []) :
    ofSegments segments = '/' :: ['/'].intercalate (segments.map escape) := by
  induction segments with
  | nil => exact absurd rfl h
  | cons s ss ih =>
    cases ss with
    | nil => simp [ofSegments]
    | cons t ts => rw [ofSegments, ih (List.cons_ne_nil t ts)]; simp

theorem text_eq (h : p ≠ []) :
    p.text = String.ofList (ofSegments ((p.map Step.text).map String.toList)) := by
  rw [text, List.map_map]
  · rfl
  · exact h

/-- The text of a place other than the root is a slash, and what follows has its segments. -/
theorem exists_text_eq (h : p ≠ []) :
    ∃ rest, p.text = "/" ++ rest ∧ segments rest = p.map Step.text := by
  have some : (p.map Step.text).map String.toList ≠ [] := by simpa using h
  generalize e : (p.map Step.text).map String.toList = ss at some
  refine ⟨String.ofList (['/'].intercalate (ss.map escape)), ?_, ?_⟩
  · rw [text_eq h, e, ofSegments_eq_cons some, ← String.toList_inj]
    simp
  · have apart : ∀ piece ∈ ss.map escape, '/' ∉ piece := by
      simp [slash_notMem_escape]
    rw [segments, String.toList_ofList, List.splitOn_intercalate '/' apart (by simpa using some)]
    simp [← e, unescape_escape, Function.comp_def]

/-- The text of the root is also that of a single step without any text, and of nothing else. -/
theorem text_eq_slash_iff (h : p ≠ []) : p.text = "/" ↔ ∃ s : Step, s.text = "" ∧ p = [s] := by
  constructor
  · intro hp
    obtain ⟨rest, slash, segs⟩ := exists_text_eq h
    have empty : rest = "" := (String.append_right_inj "/").1 (slash.symm.trans hp)
    have one : p.map Step.text = [""] := by
      rw [← segs, empty]
      simp [segments, unescape]
    obtain ⟨s, rfl, hs⟩ := List.map_eq_singleton_iff.1 one
    exact ⟨s, hs, rfl⟩
  · rintro ⟨s, hs, rfl⟩
    rw [text_eq h]
    simp [hs, ofSegments, escape]

/-- Away from the root the texts of the steps are all that there is to the text of a place. -/
theorem text_eq_iff (hp : p ≠ []) (hq : q ≠ []) :
    p.text = q.text ↔ p.map Step.text = q.map Step.text := by
  constructor
  · intro h
    obtain ⟨rest, slash, segs⟩ := exists_text_eq hp
    obtain ⟨rest', slash', segs'⟩ := exists_text_eq hq
    have same : rest = rest' :=
      (String.append_right_inj "/").1 (slash.symm.trans (h.trans slash'))
    rw [← segs, ← segs', same]
  · intro h
    rw [text_eq hp, text_eq hq, h]

/-- **Two places have the same text if and only if their steps have the same texts, or one is the
root and the other a single step without any text.**  Of any other place than the root the text
gives the texts of the steps back. -/
theorem text_unambiguous (p q : Pointer) :
    (p.text = q.text ↔ p.map Step.text = q.map Step.text ∨
      ∃ s : Step, s.text = "" ∧ (p = [] ∧ q = [s] ∨ q = [] ∧ p = [s])) ∧
    (p ≠ [] → ∃ rest, p.text = "/" ++ rest ∧ segments rest = p.map Step.text) := by
  refine ⟨?_, exists_text_eq⟩
  rcases p with - | ⟨s, p⟩ <;> rcases q with - | ⟨t, q⟩
  · simp
  · have root : text [] = text (t :: q) ↔ text (t :: q) = "/" := eq_comm
    rw [root, text_eq_slash_iff (List.cons_ne_nil t q)]
    simp
  · have root : text (s :: p) = text [] ↔ text (s :: p) = "/" := Iff.rfl
    rw [root, text_eq_slash_iff (List.cons_ne_nil s p)]
    simp
  · rw [text_eq_iff (List.cons_ne_nil s p) (List.cons_ne_nil t q)]
    simp

/-- A way through a key with marks that look like escaped ones, an index, and a key without any
text. -/
def markedPointer : Pointer := [.key (.str "~1/~01"), .index 3, .key (.str "")]

/-- The marks are read back as they were. -/
theorem text_unambiguous_marked :
    markedPointer ≠ [] ∧ markedPointer.text = "/" ++ "~01~1~001/3/" ∧
      segments "~01~1~001/3/" = ["~1/~01", "3", ""] := by
  have some : markedPointer ≠ [] := by decide
  have written : markedPointer.text = "/" ++ "~01~1~001/3/" := by decide
  obtain ⟨rest, slash, segs⟩ := (text_unambiguous markedPointer []).2 some
  obtain rfl : "~01~1~001/3/" = rest := (String.append_right_inj "/").1 (written.symm.trans slash)
  exact ⟨some, written, segs⟩

end Pointer

end PlainSchema
