/-
PlainSchema/Proofs/Unambiguity.lean

A JSON text stands for one tree.

The grammar says of a value only which texts it can have, not where it ends.  A string
or a collection ends at its closing mark; anything else ends where a character comes
that cannot go on with it (`Stops`), and in a list or behind the last value there is
always one.  So two derivations from one text that both stop take the same part of it
(`Value.unique`), by recursion on the first of them.

Words of a dialect do no harm as long as they are told from the words of the standard
and from numbers (`Proper`).
-/
import PlainSchema.Json.Grammar

namespace PlainSchema

namespace Json

section

variable {words : List (List Char)} {s t t' u : List Char} {j j' : Tree} {c : Char}

/-! ### Where a run of characters ends -/

/-- Whether the next character is none of a class. -/
def NotAhead (p : Char → Bool) (t : List Char) : Prop := ∀ c ∈ t.head?, p c = false

@[simp] theorem notAhead_cons {p : Char → Bool} : NotAhead p (c :: t) ↔ p c = false := by
  simp [NotAhead]

@[simp] theorem notAhead_nil {p : Char → Bool} : NotAhead p [] := by
  simp [NotAhead]

/-- A run of characters of a class ends before the first that is none. -/
theorem eq_of_runs {p : Char → Bool} {xs ys : List Char} (e : xs ++ t = ys ++ t')
    (hx : ∀ c ∈ xs, p c = true) (hy : ∀ c ∈ ys, p c = true) (ht : NotAhead p t)
    (ht' : NotAhead p t') : xs = ys ∧ t = t' := by
  induction xs generalizing ys with
  | nil =>
    cases ys with
    | nil => exact ⟨rfl, e⟩
    | cons y ys =>
      -- The other run would go on where this one has ended.
      rw [List.nil_append] at e
      rw [e, List.cons_append, notAhead_cons, hy y List.mem_cons_self] at ht
      cases ht
  | cons x xs ih =>
    cases ys with
    | nil =>
      rw [List.nil_append] at e
      rw [← e, List.cons_append, notAhead_cons, hx x List.mem_cons_self] at ht'
      cases ht'
    | cons y ys =>
      rw [List.cons_append, List.cons_append] at e
      obtain ⟨rfl, tails⟩ := List.cons.inj e
      obtain ⟨rfl, rfl⟩ := ih tails (fun c hc => hx c (List.mem_cons_of_mem _ hc))
        (fun c hc => hy c (List.mem_cons_of_mem _ hc))
      exact ⟨rfl, rfl⟩

/-- Blanks end before the first character that is none. -/
theorem Blanks.unique (h : Blanks s t) (h' : Blanks s t') (ht : NotAhead isBlank t)
    (ht' : NotAhead isBlank t') : t = t' := by
  obtain ⟨w, rfl, hw⟩ := h
  obtain ⟨w', e, hw'⟩ := h'
  exact (eq_of_runs e hw hw' ht ht').2

/-! ### Values without quotes or brackets -/

/-- Whether a character can be in a number. -/
def isNumeric (c : Char) : Bool := c.isDigit || c ∈ ['+', '-', '.', 'e', 'E']

/-- Whether a character can be in a number or a word. -/
def isToken (c : Char) : Bool := c.isAlphanum || c ∈ ['+', '-', '.']

/-- Whether what is left does not go on with a number or a word. -/
abbrev Stops (t : List Char) : Prop := NotAhead isToken t

theorem IsDigits.numeric {cs : List Char} (h : IsDigits cs) : ∀ c ∈ cs, isNumeric c = true :=
  fun c hc => by rw [isNumeric, h.2 c hc, Bool.true_or]

theorem isToken_of_isNumeric (h : isNumeric c = true) : isToken c = true := by
  simp only [isNumeric, isToken, Char.isAlphanum, Bool.or_eq_true, decide_eq_true_eq,
    List.mem_cons, List.not_mem_nil, or_false] at h ⊢
  rcases h with h | rfl | rfl | rfl | rfl | rfl
  · exact .inl (.inr h)
  all_goals decide

theorem IsNumber.ne_nil {cs : List Char} (h : IsNumber cs) : cs ≠ [] := by
  obtain ⟨-, whole, -, -⟩ := h
  cases whole <;> simp

theorem IsFraction.numeric {cs : List Char} (h : IsFraction cs) :
    ∀ c ∈ cs, isNumeric c = true := by
  cases h with
  | absent => simp
  | present hd => exact List.forall_mem_cons.2 ⟨by decide, hd.numeric⟩

theorem IsExponent.numeric {cs : List Char} (h : IsExponent cs) :
    ∀ c ∈ cs, isNumeric c = true := by
  have marks : ∀ e ∈ ['e', 'E'], isNumeric e = true := List.all_eq_true.1 rfl
  have signs : ∀ sign ∈ [[], ['+'], ['-']], ∀ c ∈ sign, isNumeric c = true := by
    simp [isNumeric]
  cases h with
  | absent => simp
  | present he hs hd =>
    exact List.forall_mem_cons.2
      ⟨marks _ he, List.forall_mem_append.2 ⟨signs _ hs, hd.numeric⟩⟩

theorem IsNumber.numeric {cs : List Char} (h : IsNumber cs) : ∀ c ∈ cs, isNumeric c = true := by
  have signs : ∀ sign ∈ [[], ['-']], ∀ c ∈ sign, isNumeric c = true := by
    simp [isNumeric]
  obtain ⟨hs, whole, fraction, exponent⟩ := h
  exact List.forall_mem_append.2 ⟨signs _ hs, List.forall_mem_append.2
    ⟨whole.isDigits.numeric, List.forall_mem_append.2 ⟨fraction.numeric, exponent.numeric⟩⟩⟩

/-- The words of the standard. -/
def standardWords : List (List Char) :=
  [['n', 'u', 'l', 'l'], ['t', 'r', 'u', 'e'], ['f', 'a', 'l', 's', 'e']]

/-- Whether words can be told from blanks and marks, and from what the standard has. -/
structure Proper (words : List (List Char)) : Prop where
  token : ∀ w ∈ words, w ≠ [] ∧ ∀ c ∈ w, isToken c = true
  noNumber : ∀ w ∈ words, ∃ c ∈ w, isNumeric c = false
  new : ∀ w ∈ words, w ∉ standardWords

namespace Scalar

variable {cs : List Char}

theorem token (proper : Proper words) (h : Scalar words cs j) :
    cs ≠ [] ∧ ∀ c ∈ cs, isToken c = true := by
  cases h with
  | nullWord | trueWord | falseWord => exact ⟨by simp, List.all_eq_true.1 rfl⟩
  | number hn => exact ⟨hn.ne_nil, fun c hc => isToken_of_isNumeric (hn.numeric c hc)⟩
  | word hw => exact proper.token cs hw

theorem not_isNumber_of_letter (h : ∃ c ∈ cs, isNumeric c = false) : ¬ IsNumber cs := by
  obtain ⟨c, hc, hn⟩ := h
  exact fun number => Bool.noConfusion (hn.symm.trans (number.numeric c hc))

/-- A word of the standard is no number. -/
theorem not_isNumber_of_standard (h : cs ∈ standardWords) : ¬ IsNumber cs := by
  have letter : ∀ w ∈ standardWords, ∃ c ∈ w, isNumeric c = false := by
    simp [standardWords, isNumeric]
  exact not_isNumber_of_letter (letter cs h)

/-- What such a value is spelt like tells what it is. -/
theorem unique (proper : Proper words) (h : Scalar words cs j) (h' : Scalar words cs j') :
    j = j' := by
  have standard : ∀ {w}, w ∈ standardWords → w ∉ words := fun hs hw => proper.new _ hw hs
  cases h with
  | nullWord | trueWord | falseWord =>
    cases h' with
    | number hn => exact absurd hn (not_isNumber_of_standard (by decide))
    | word hw => exact absurd hw (standard (by decide))
    | _ => rfl
  | number hn =>
    cases h' with
    | nullWord | trueWord | falseWord => exact absurd hn (not_isNumber_of_standard (by decide))
    | number => rfl
    | word hw => exact absurd hn (not_isNumber_of_letter (proper.noNumber _ hw))
  | word hw =>
    cases h' with
    | nullWord | trueWord | falseWord => exact absurd hw (standard (by decide))
    | number hn => exact absurd hn (not_isNumber_of_letter (proper.noNumber _ hw))
    | word => rfl

end Scalar

/-! ### Strings -/

/-- A string ends at the first quote that is not escaped. -/
theorem Chars.unique {us us' : List Nat} (h : Chars s us t) (h' : Chars s us' t') :
    us = us' ∧ t = t' := by
  induction h generalizing us' with
  | close =>
    cases h' with
    | close => exact ⟨rfl, rfl⟩
    | plain hp => cases hp
  | plain hp _ ih =>
    cases h' with
    | close => cases hp
    | plain _ h' =>
      obtain ⟨rfl, rfl⟩ := ih h'
      exact ⟨rfl, rfl⟩
    | short | code => cases hp
  | short he _ ih =>
    cases h' with
    | plain hp => cases hp
    | short he' h' =>
      obtain rfl := Option.some.inj (he.symm.trans he')
      obtain ⟨rfl, rfl⟩ := ih h'
      exact ⟨rfl, rfl⟩
    | code => cases he
  | code hn _ ih =>
    cases h' with
    | plain hp => cases hp
    | short he => cases he
    | code hn' h' =>
      obtain rfl := Option.some.inj (hn.symm.trans hn')
      obtain ⟨rfl, rfl⟩ := ih h'
      exact ⟨rfl, rfl⟩

/-! ### Where a value starts and ends -/

/-- Whether a value can start with a character. -/
def isStart (c : Char) : Bool := isToken c || c ∈ ['"', '[', '\x7b']

/-- Whether a text has the start of a value at its front. -/
def Starts (s : List Char) : Prop := ∃ c r, s = c :: r ∧ isStart c = true

theorem isBlank_eq_false_of_isStart (h : isStart c = true) : isBlank c = false := by
  refine Bool.eq_false_iff.2 fun blank => ?_
  simp only [isBlank, Bool.or_eq_true, decide_eq_true_eq] at blank
  rcases blank with ((rfl | rfl) | rfl) | rfl <;> cases h

theorem Starts.notBlank (h : Starts s) : NotAhead isBlank s := by
  obtain ⟨c, r, rfl, hc⟩ := h
  exact notAhead_cons.2 (isBlank_eq_false_of_isStart hc)

/-- No value starts with a mark that closes a collection. -/
theorem Starts.ne_close (h : Starts s) : s ≠ ']' :: t ∧ s ≠ '\x7d' :: t := by
  obtain ⟨c, r, rfl, hc⟩ := h
  constructor <;> intro e <;> rw [(List.cons.inj e).1] at hc <;> cases hc

theorem Value.starts (proper : Proper words) (h : Value words s j t) : Starts s := by
  cases h with
  | scalar hs =>
    obtain ⟨named, token⟩ := hs.token proper
    obtain ⟨c, r, rfl⟩ := List.exists_cons_of_ne_nil named
    exact ⟨c, _, rfl, by rw [isStart, token c List.mem_cons_self, Bool.true_or]⟩
  | text | emptyArray | array | emptyObject | object => exact ⟨_, _, rfl, by decide⟩

theorem isToken_eq_false_of_isBlank (h : isBlank c = true) : isToken c = false := by
  simp only [isBlank, Bool.or_eq_true, decide_eq_true_eq] at h
  rcases h with ((rfl | rfl) | rfl) | rfl <;> rfl

/-- What starts with blanks goes on with no value that stands before it. -/
theorem Blanks.stops (h : Blanks t u) (hu : Stops u) : Stops t := by
  obtain ⟨w, rfl, hw⟩ := h
  cases w with
  | nil => exact hu
  | cons c w => exact notAhead_cons.2 (isToken_eq_false_of_isBlank (hw c List.mem_cons_self))

theorem Blanks.stops_mark (h : Blanks t (c :: u)) (hc : isToken c = false) : Stops t :=
  h.stops (notAhead_cons.2 hc)

/-! ### One value -/

theorem Items.starts {js : List Tree} (proper : Proper words) (h : Items words s js t) :
    ∃ u, Blanks s u ∧ Starts u := by
  cases h with
  | last hi _ | more hi _ _ =>
    cases hi with
    | value hb hv => exact ⟨_, hb, hv.starts proper⟩

theorem Members.starts {ms : List (List Nat × Tree)} (h : Members words s ms t) :
    ∃ u, Blanks s u ∧ Starts u := by
  cases h with
  | last hm _ | more hm _ _ =>
    cases hm with
    | named hb _ _ _ => exact ⟨_, hb, _, _, rfl, by decide⟩

/-- A mark with blanks in front of it has no value in front of it. -/
theorem Blanks.not_starts (h : Blanks s (c :: t)) (hc : isBlank c = false)
    (hs : isStart c = false) : ¬ ∃ u, Blanks s u ∧ Starts u := by
  rintro ⟨u, hb, start⟩
  obtain rfl := h.unique hb (notAhead_cons.2 hc) start.notBlank
  obtain ⟨c', r, e, hc'⟩ := start
  rw [← (List.cons.inj e).1, hs] at hc'
  cases hc'

/-- Where one mark stands behind blanks, no other does. -/
theorem Blanks.cons_unique {c' : Char} (h : Blanks s (c :: t)) (h' : Blanks s (c' :: t'))
    (hc : isBlank c = false) (hc' : isBlank c' = false) : c = c' ∧ t = t' :=
  List.cons.inj (h.unique h' (notAhead_cons.2 hc) (notAhead_cons.2 hc'))

theorem Scalar.ne_mark (proper : Proper words) {cs r : List Char} (h : Scalar words cs j)
    (hc : isToken c = false) : cs ++ t ≠ c :: r := by
  obtain ⟨named, token⟩ := h.token proper
  obtain ⟨c', r', rfl⟩ := List.exists_cons_of_ne_nil named
  intro e
  rw [(List.cons.inj e).1] at token
  rw [token c List.mem_cons_self] at hc
  cases hc

/-- What starts with a quote is a string. -/
theorem Value.of_quote (proper : Proper words) (h : Value words ('"' :: s) j t) :
    ∃ us, j = .text us ∧ Chars s us t := by
  generalize e : '"' :: s = s' at h
  cases h with
  | scalar hs => exact absurd e.symm (hs.ne_mark proper rfl)
  | text hc => exact ⟨_, rfl, (List.cons.inj e).2 ▸ hc⟩
  | _ => cases e

/-- What starts with a bracket is an array. -/
theorem Value.of_bracket (proper : Proper words) (h : Value words ('[' :: s) j t) :
    j = .array [] ∧ Blanks s (']' :: t) ∨ ∃ js, j = .array js ∧ Items words s js t := by
  generalize e : '[' :: s = s' at h
  cases h with
  | scalar hs => exact absurd e.symm (hs.ne_mark proper rfl)
  | emptyArray hb => exact .inl ⟨rfl, (List.cons.inj e).2 ▸ hb⟩
  | array hi => exact .inr ⟨_, rfl, (List.cons.inj e).2 ▸ hi⟩
  | _ => cases e

/-- What starts with a brace is an object. -/
theorem Value.of_brace (proper : Proper words) (h : Value words ('\x7b' :: s) j t) :
    j = .object [] ∧ Blanks s ('\x7d' :: t) ∨ ∃ ms, j = .object ms ∧ Members words s ms t := by
  generalize e : '\x7b' :: s = s' at h
  cases h with
  | scalar hs => exact absurd e.symm (hs.ne_mark proper rfl)
  | emptyObject hb => exact .inl ⟨rfl, (List.cons.inj e).2 ▸ hb⟩
  | object hm => exact .inr ⟨_, rfl, (List.cons.inj e).2 ▸ hm⟩
  | _ => cases e

/-- What starts like a scalar is one. -/
theorem Value.of_scalar (proper : Proper words) {cs : List Char} (hs : Scalar words cs j)
    (h : Value words (cs ++ t) j' t') :
    ∃ cs', Scalar words cs' j' ∧ cs ++ t = cs' ++ t' := by
  generalize e : cs ++ t = s' at h
  cases h with
  | scalar hs' => exact ⟨_, hs', rfl⟩
  | _ => exact absurd e (hs.ne_mark proper rfl)

end

mutual
theorem Value.unique {words} (proper : Proper words) {s j t} : Value words s j t →
    ∀ {j' t'}, Value words s j' t' → Stops t → Stops t' → j = j' ∧ t = t'
  | .scalar hs, _, _, h', ht, ht' => by
    obtain ⟨cs', hs', e⟩ := h'.of_scalar proper hs
    obtain ⟨rfl, rfl⟩ := eq_of_runs e (hs.token proper).2 (hs'.token proper).2 ht ht'
    exact ⟨hs.unique proper hs', rfl⟩
  | .text hc, _, _, h', _, _ => by
    obtain ⟨us', rfl, hc'⟩ := h'.of_quote proper
    obtain ⟨rfl, rfl⟩ := hc.unique hc'
    exact ⟨rfl, rfl⟩
  | .emptyArray hb, _, _, h', _, _ => by
    -- An item does not start with the closing bracket, so an empty array is told from any other.
    obtain ⟨rfl, hb'⟩ | ⟨js, -, hi'⟩ := h'.of_bracket proper
    · exact ⟨rfl, (hb.cons_unique hb' rfl rfl).2⟩
    · exact absurd (hi'.starts proper) (hb.not_starts rfl rfl)
  | .array hi, _, _, h', _, _ => by
    obtain ⟨-, hb'⟩ | ⟨js, rfl, hi'⟩ := h'.of_bracket proper
    · exact absurd (hi.starts proper) (hb'.not_starts rfl rfl)
    · obtain ⟨rfl, rfl⟩ := Items.unique proper hi hi'
      exact ⟨rfl, rfl⟩
  | .emptyObject hb, _, _, h', _, _ => by
    obtain ⟨rfl, hb'⟩ | ⟨ms, -, hm'⟩ := h'.of_brace proper
    · exact ⟨rfl, (hb.cons_unique hb' rfl rfl).2⟩
    · exact absurd hm'.starts (hb.not_starts rfl rfl)
  | .object hm, _, _, h', _, _ => by
    obtain ⟨-, hb'⟩ | ⟨ms, rfl, hm'⟩ := h'.of_brace proper
    · exact absurd hm.starts (hb'.not_starts rfl rfl)
    · obtain ⟨rfl, rfl⟩ := Members.unique proper hm hm'
      exact ⟨rfl, rfl⟩
termination_by structural h => h

theorem Item.unique {words} (proper : Proper words) {s j t} : Item words s j t →
    ∀ {j' t'}, Item words s j' t' → Stops t → Stops t' → j = j' ∧ t = t'
  | .value hb hv, _, _, .value hb' hv', ht, ht' => by
    obtain rfl := hb.unique hb' (hv.starts proper).notBlank (hv'.starts proper).notBlank
    exact Value.unique proper hv hv' ht ht'
termination_by structural h => h

theorem Items.unique {words} (proper : Proper words) {s js t} : Items words s js t →
    ∀ {js' t'}, Items words s js' t' → js = js' ∧ t = t'
  | .last hi hb, _, _, .last hi' hb' => by
    obtain ⟨rfl, rfl⟩ := Item.unique proper hi hi' (hb.stops_mark rfl) (hb'.stops_mark rfl)
    exact ⟨rfl, (hb.cons_unique hb' rfl rfl).2⟩
  | .last hi hb, _, _, .more hi' hb' _ => by
    -- The item is the same, and behind it stands a bracket for one and a comma for the other.
    obtain ⟨rfl, rfl⟩ := Item.unique proper hi hi' (hb.stops_mark rfl) (hb'.stops_mark rfl)
    cases (hb.cons_unique hb' rfl rfl).1
  | .more hi hb _, _, _, .last hi' hb' => by
    obtain ⟨rfl, rfl⟩ := Item.unique proper hi hi' (hb.stops_mark rfl) (hb'.stops_mark rfl)
    cases (hb.cons_unique hb' rfl rfl).1
  | .more hi hb his, _, _, .more hi' hb' his' => by
    obtain ⟨rfl, rfl⟩ := Item.unique proper hi hi' (hb.stops_mark rfl) (hb'.stops_mark rfl)
    obtain ⟨-, rfl⟩ := hb.cons_unique hb' rfl rfl
    obtain ⟨rfl, rfl⟩ := Items.unique proper his his'
    exact ⟨rfl, rfl⟩
termination_by structural h => h

theorem Member.unique {words} (proper : Proper words) {s m t} : Member words s m t →
    ∀ {m' t'}, Member words s m' t' → Stops t → Stops t' → m = m' ∧ t = t'
  | .named hb hc hm hi, _, _, .named hb' hc' hm' hi', ht, ht' => by
    obtain ⟨-, rfl⟩ := hb.cons_unique hb' rfl rfl
    obtain ⟨rfl, rfl⟩ := hc.unique hc'
    obtain ⟨-, rfl⟩ := hm.cons_unique hm' rfl rfl
    obtain ⟨rfl, rfl⟩ := Item.unique proper hi hi' ht ht'
    exact ⟨rfl, rfl⟩
termination_by structural h => h

theorem Members.unique {words} (proper : Proper words) {s ms t} : Members words s ms t →
    ∀ {ms' t'}, Members words s ms' t' → ms = ms' ∧ t = t'
  | .last hm hb, _, _, .last hm' hb' => by
    obtain ⟨rfl, rfl⟩ := Member.unique proper hm hm' (hb.stops_mark rfl) (hb'.stops_mark rfl)
    exact ⟨rfl, (hb.cons_unique hb' rfl rfl).2⟩
  | .last hm hb, _, _, .more hm' hb' _ => by
    obtain ⟨rfl, rfl⟩ := Member.unique proper hm hm' (hb.stops_mark rfl) (hb'.stops_mark rfl)
    cases (hb.cons_unique hb' rfl rfl).1
  | .more hm hb _, _, _, .last hm' hb' => by
    obtain ⟨rfl, rfl⟩ := Member.unique proper hm hm' (hb.stops_mark rfl) (hb'.stops_mark rfl)
    cases (hb.cons_unique hb' rfl rfl).1
  | .more hm hb hms, _, _, .more hm' hb' hms' => by
    obtain ⟨rfl, rfl⟩ := Member.unique proper hm hm' (hb.stops_mark rfl) (hb'.stops_mark rfl)
    obtain ⟨-, rfl⟩ := hb.cons_unique hb' rfl rfl
    obtain ⟨rfl, rfl⟩ := Members.unique proper hms hms'
    exact ⟨rfl, rfl⟩
termination_by structural h => h
end

/-- A text stands for one tree at most. -/
theorem Denotes.unique {words s j j'} (proper : Proper words) (h : Denotes words s j)
    (h' : Denotes words s j') : j = j' := by
  obtain ⟨t, hi, hb⟩ := h
  obtain ⟨t', hi', hb'⟩ := h'
  exact (hi.unique proper hi' (hb.stops notAhead_nil) (hb'.stops notAhead_nil)).1

/-! ### The words of a text -/

theorem Tree.word_mem_array {w js} : word w ∈ (array js).parts ↔ word w ∈ itemParts js := by
  simp [parts]

theorem Tree.word_mem_object {w ms} : word w ∈ (object ms).parts ↔ word w ∈ memberParts ms := by
  simp [parts]

theorem Scalar.mem_words {words cs j} (h : Scalar words cs j) :
    ∀ w, .word w ∈ j.parts → w ∈ words := by
  cases h with
  | word hw =>
    intro w hm
    cases List.mem_singleton.1 hm
    exact hw
  | _ => intro w hm; cases List.mem_singleton.1 hm

theorem Scalar.relax {words words' cs j} (h : Scalar words cs j)
    (hw : ∀ w, .word w ∈ j.parts → w ∈ words') : Scalar words' cs j := by
  cases h with
  | nullWord => exact .nullWord
  | trueWord => exact .trueWord
  | falseWord => exact .falseWord
  | number hn => exact .number hn
  | word => exact .word (hw _ (List.mem_singleton_self _))

mutual
/-- The words in what a text stands for are words of the dialect. -/
theorem Value.mem_words {words s j t} : Value words s j t → ∀ w, .word w ∈ j.parts → w ∈ words
  | .scalar hs => hs.mem_words
  | .text _ | .emptyArray _ | .emptyObject _ => fun w hm => by cases List.mem_singleton.1 hm
  | .array hi => fun w hm => Items.mem_words hi w (Tree.word_mem_array.1 hm)
  | .object ho => fun w hm => Members.mem_words ho w (Tree.word_mem_object.1 hm)
termination_by structural h => h

theorem Item.mem_words {words s j t} : Item words s j t → ∀ w, .word w ∈ j.parts → w ∈ words
  | .value _ hv => Value.mem_words hv
termination_by structural h => h

theorem Items.mem_words {words s js t} :
    Items words s js t → ∀ w, .word w ∈ Tree.itemParts js → w ∈ words
  | .last hi _ => fun w hm => (List.mem_append.1 hm).elim (Item.mem_words hi w) nofun
  | .more hi _ his => fun w hm =>
    (List.mem_append.1 hm).elim (Item.mem_words hi w) (Items.mem_words his w)
termination_by structural h => h

theorem Member.mem_words {words s m t} :
    Member words s m t → ∀ w, .word w ∈ m.2.parts → w ∈ words
  | .named _ _ _ hi => Item.mem_words hi
termination_by structural h => h

theorem Members.mem_words {words s ms t} :
    Members words s ms t → ∀ w, .word w ∈ Tree.memberParts ms → w ∈ words
  | .last hm _ => fun w hw => (List.mem_append.1 hw).elim (Member.mem_words hm w) nofun
  | .more hm _ hms => fun w hw =>
    (List.mem_append.1 hw).elim (Member.mem_words hm w) (Members.mem_words hms w)
termination_by structural h => h
end

mutual
/-- A text of one dialect is one of any dialect that has the words in it. -/
theorem Value.relax {words words' s j t} : Value words s j t →
    (∀ w, .word w ∈ j.parts → w ∈ words') → Value words' s j t
  | .scalar hs, hw => .scalar (hs.relax hw)
  | .text hc, _ => .text hc
  | .emptyArray hb, _ => .emptyArray hb
  | .emptyObject hb, _ => .emptyObject hb
  | .array hi, hw => .array (Items.relax hi fun w hm => hw w (Tree.word_mem_array.2 hm))
  | .object ho, hw => .object (Members.relax ho fun w hm => hw w (Tree.word_mem_object.2 hm))
termination_by structural h => h

theorem Item.relax {words words' s j t} : Item words s j t →
    (∀ w, .word w ∈ j.parts → w ∈ words') → Item words' s j t
  | .value hb hv, hw => .value hb (Value.relax hv hw)
termination_by structural h => h

theorem Items.relax {words words' s js t} : Items words s js t →
    (∀ w, .word w ∈ Tree.itemParts js → w ∈ words') → Items words' s js t
  | .last hi hb, hw => .last (Item.relax hi fun w hm => hw w (List.mem_append_left _ hm)) hb
  | .more hi hb his, hw => .more (Item.relax hi fun w hm => hw w (List.mem_append_left _ hm)) hb
    (Items.relax his fun w hm => hw w (List.mem_append_right _ hm))
termination_by structural h => h

theorem Member.relax {words words' s m t} : Member words s m t →
    (∀ w, .word w ∈ m.2.parts → w ∈ words') → Member words' s m t
  | .named hb hc hm hi, hw => .named hb hc hm (Item.relax hi hw)
termination_by structural h => h

theorem Members.relax {words words' s ms t} : Members words s ms t →
    (∀ w, .word w ∈ Tree.memberParts ms → w ∈ words') → Members words' s ms t
  | .last hm hb, hw => .last (Member.relax hm fun w hi => hw w (List.mem_append_left _ hi)) hb
  | .more hm hb hms, hw => .more (Member.relax hm fun w hi => hw w (List.mem_append_left _ hi)) hb
    (Members.relax hms fun w hi => hw w (List.mem_append_right _ hi))
termination_by structural h => h
end

/-- A text of a dialect is one of the standard if no word of the dialect is in it. -/
theorem Denotes.standard_iff {words s j} (h : Denotes words s j) :
    Denotes [] s j ↔ ∀ w, .word w ∉ j.parts := by
  constructor
  · rintro ⟨t, hi, -⟩ w hm
    cases hi.mem_words w hm
  · intro none
    obtain ⟨t, hi, hb⟩ := h
    exact ⟨t, hi.relax fun w hm => absurd hm (none w), hb⟩

/-- What a text stands for in the standard, it stands for in every dialect. -/
theorem Denotes.of_standard {words s j} (h : Denotes [] s j) : Denotes words s j := by
  obtain ⟨t, hi, hb⟩ := h
  exact ⟨t, hi.relax fun w hm => absurd (hi.mem_words w hm) List.not_mem_nil, hb⟩

end Json

end PlainSchema
