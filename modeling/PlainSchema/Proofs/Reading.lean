/-
PlainSchema/Proofs/Reading.lean

The reader reads what the grammar has.

What a text stands for, by the grammar with the words of the dialect, is what the reader
makes of it (`read_of_denotes`).  The tree says what that is (`nodeOf`): pairs of
surrogate halves are joined to one character, halves that stand alone are left to
whoever can hold them, numbers are rounded or refused for their length, and of members
with one name the last value counts.

The reader goes as far as it can, and the grammar says only which texts a value can
have.  The two agree where the text stops (`Stops`), as in the proof that a text stands
for one tree.  The bound that the reader recurses on is enough as long as it is twice
the length of what is left: each step into a collection and from part to part uses up a
character.
-/
import PlainSchema.Proofs.WellFormed

namespace PlainSchema

namespace Json

variable {s t : List Char} {us : List Nat} {c : Char} {n : Nat}

/-! ### Strings -/

/-- Whether a code unit is the first half of a surrogate pair. -/
def isHigh (u : Nat) : Bool := 0xd800 ≤ u && u < 0xdc00

/-- Whether a code unit is the second half of a surrogate pair. -/
def isLow (u : Nat) : Bool := 0xdc00 ≤ u && u < 0xe000

/-- The codes that code units stand for. -/
def decoded : List Nat → List Text.Code
  | [] => []
  | [u] => [.ofNat u]
  | u :: v :: us =>
    if isHigh u && isLow v then .char (joined u v) :: decoded us else .ofNat u :: decoded (v :: us)

/-- Two halves of a surrogate pair stand for one character. -/
theorem decoded_pair {u v : Nat} (hu : isHigh u = true) (hv : isLow v = true) :
    decoded (u :: v :: us) = .char (joined u v) :: decoded us := by
  rw [decoded, hu, hv, Bool.and_self, if_pos rfl]

/-- A code unit that is no half of a pair stands for a code on its own. -/
theorem decoded_alone {u : Nat} (h : isHigh u = true → ∀ v ∈ us.head?, isLow v = false) :
    decoded (u :: us) = .ofNat u :: decoded us := by
  cases us with
  | nil => rfl
  | cons v us =>
    rw [decoded, if_neg]
    intro pair
    obtain ⟨hu, hv⟩ := Bool.and_eq_true_iff.1 pair
    rw [h hu v rfl] at hv
    cases hv

theorem decoded_codeUnits (c : Char) (us : List Nat) :
    decoded (codeUnits c ++ us) = .char c :: decoded us := by
  have valid := isValidChar_toNat c
  rw [codeUnits]
  split
  next small =>
    have alone : isHigh c.toNat = false := by simp [isHigh]; omega
    rw [List.singleton_append, decoded_alone (by simp [alone]), Text.Code.ofNat, dif_neg (by omega),
      Char.ofNat_toNat]
  next large =>
    have point : 0x10000 + (0xd800 + (c.toNat - 0x10000) / 0x400 - 0xd800) * 0x400
        + (0xdc00 + (c.toNat - 0x10000) % 0x400 - 0xdc00) = c.toNat := by omega
    rw [List.cons_append, List.cons_append, List.nil_append, decoded_pair, joined, point,
      Char.ofNat_toNat]
    · simp [isHigh]; omega
    · simp [isLow]; omega

/-- The characters of a text are those that their code units stand for. -/
theorem decoded_flatMap (cs : List Char) : decoded (cs.flatMap codeUnits) = cs.map .char := by
  induction cs with
  | nil => rfl
  | cons c cs ih => rw [List.flatMap_cons, decoded_codeUnits, ih, List.map_cons]

theorem textOf_decoded_flatMap (lossy : Bool) (cs : List Char) :
    textOf lossy (decoded (cs.flatMap codeUnits)) = .ok (String.ofList cs) := by
  rw [textOf, decoded_flatMap, Text.whole?_map_char]

section

variable {opened : List Char}

theorem string_plain (h : isPlain c = true) :
    string opened (c :: s) = push (.char c) (string opened s) := by
  simp only [isPlain, Bool.and_eq_true, decide_eq_true_eq] at h
  obtain ⟨⟨large, quote⟩, backslash⟩ := h
  rw [string.eq_7, if_neg (by omega)]
  · exact quote
  all_goals intros; contradiction

theorem string_short {e : Char} (h : escaped? e = some c) :
    string opened ('\\' :: e :: s) = push (.char c) (string opened s) := by
  have letter : e ≠ 'u' := by
    rintro rfl
    cases h
  rw [string.eq_6 _ _ _ (fun _ _ _ _ _ _ e _ => letter e) letter, h]

theorem Chars.exists_cons (h : Chars s us t) : ∃ c r, s = c :: r := by
  cases h <;> exact ⟨_, _, rfl⟩

/-- A backslash with a `u` behind it comes with a code. -/
theorem Chars.code_of_u {a b c d : Char} (h : Chars ('\\' :: 'u' :: a :: b :: c :: d :: s) us t) :
    ∃ n us', hexCode? a b c d = some n ∧ us = n :: us' := by
  cases h with
  | plain hp => cases hp
  | short he => cases he
  | code hn => exact ⟨_, _, hn, rfl⟩

/-- The code of a character, or of a half of a pair that stands alone. -/
theorem string_code {a b c d : Char} (hn : hexCode? a b c d = some n) (h : Chars s us t)
    (alone : isHigh n = true → ∀ v ∈ us.head?, isLow v = false)
    (read : string opened s = .ok (decoded us, t)) :
    string opened ('\\' :: 'u' :: a :: b :: c :: d :: s) = .ok (decoded (n :: us), t) := by
  have pushed : push (.ofNat n) (string opened s) = .ok (decoded (n :: us), t) := by
    rw [read, push, decoded_alone alone]
  obtain ⟨e, rest, rfl⟩ := h.exists_cons
  rw [← pushed, string.eq_3, hn]
  dsimp only
  split
  next high =>
    -- The reader looks for a second half, and finds a code that is none.
    split
    · obtain ⟨m, us', hm, rfl⟩ := h.code_of_u
      have notLow := alone (by simpa [isHigh] using high) m rfl
      rw [hm]
      dsimp only
      rw [if_neg]
      simpa [isLow] using notLow
    · rfl
  next => rfl

/-- The codes of the two halves of a pair. -/
theorem string_pair {a b c d a' b' c' d' : Char} {m : Nat} (hn : hexCode? a b c d = some n)
    (hm : hexCode? a' b' c' d' = some m) (high : isHigh n = true) (low : isLow m = true)
    (h : Chars s us t) (read : string opened s = .ok (decoded us, t)) :
    string opened ('\\' :: 'u' :: a :: b :: c :: d :: '\\' :: 'u' :: a' :: b' :: c' :: d' :: s) =
      .ok (decoded (n :: m :: us), t) := by
  obtain ⟨e, rest, rfl⟩ := h.exists_cons
  rw [string.eq_3, hn]
  dsimp only
  rw [if_pos (by simpa [isHigh] using high)]
  simp only [hm]
  rw [if_pos (by simpa [isLow] using low), read, push, decoded_pair high low]

theorem isLow_toNat (c : Char) : isLow c.toNat = false := by
  have valid := isValidChar_toNat c
  simp [isLow]
  omega

theorem isLow_head_codeUnits (c : Char) : ∀ v ∈ (codeUnits c ++ us).head?, isLow v = false := by
  have valid := isValidChar_toNat c
  intro v hv
  rw [codeUnits] at hv
  split at hv
  · obtain rfl := Option.some.inj hv
    exact isLow_toNat c
  · obtain rfl := Option.some.inj hv
    simp [isLow]
    omega

/-- The reader takes the characters of a string for what they stand for, and goes on to do so when a
code stands in front of them. -/
theorem string_of_chars (h : Chars s us t) : string opened s = .ok (decoded us, t) ∧
    ∀ {a b c d n}, hexCode? a b c d = some n →
      string opened ('\\' :: 'u' :: a :: b :: c :: d :: s) = .ok (decoded (n :: us), t) := by
  -- Both at once: the code of a first half is read with what comes behind it.
  induction h with
  | @close t =>
    have read : string opened ('"' :: t) = .ok (decoded [], t) := string.eq_2 _ _
    have alone {v : Nat} (hv : v ∈ ([] : List Nat).head?) : isLow v = false :=
      absurd hv (Option.not_mem_none v)
    exact ⟨read, fun hn => string_code hn .close (fun _ _ => alone) read⟩
  | @plain c s t us hp h ih =>
    have read : string opened (c :: s) = .ok (decoded (codeUnits c ++ us), t) := by
      rw [string_plain hp, ih.1, push, decoded_codeUnits]
    exact ⟨read, fun hn => string_code hn (.plain hp h) (fun _ => isLow_head_codeUnits c) read⟩
  | @short e c s t us he h ih =>
    have units := codeUnits_of_lt (toNat_lt_of_escaped? he)
    have read : string opened ('\\' :: e :: s) = .ok (decoded (c.toNat :: us), t) := by
      rw [string_short he, ih.1, push, ← decoded_codeUnits c us, units]
      rfl
    exact ⟨read, fun hn => string_code hn (.short he h)
      (fun _ v hv => Option.some.inj hv ▸ isLow_toNat c) read⟩
  | @code _ _ _ _ m _ _ us hm h ih =>
    refine ⟨ih.2 hm, fun {a b c d n} hn => ?_⟩
    by_cases pair : isHigh n = true ∧ isLow m = true
    · exact string_pair hn hm pair.1 pair.2 h ih.1
    · exact string_code hn (.code hm h) (fun high v hv => by
        obtain rfl := Option.some.inj hv
        exact Bool.eq_false_iff.2 fun low => pair ⟨high, low⟩) (ih.2 hm)

end

/-! ### Numbers -/

theorem NotAhead.mono {p q : Char → Bool} (h : NotAhead p t) (hq : ∀ c, q c = true → p c = true) :
    NotAhead q t :=
  fun c hc => Bool.eq_false_iff.2 fun ahead => Bool.eq_false_iff.1 (h c hc) (hq c ahead)

theorem takeWhile_append_of_notAhead {p : Char → Bool} {ds : List Char}
    (hd : ∀ c ∈ ds, p c = true) (ht : NotAhead p t) : (ds ++ t).takeWhile p = ds := by
  rw [List.takeWhile_append_of_pos hd]
  cases t with
  | nil => simp
  | cons c t => rw [List.takeWhile_cons, notAhead_cons.1 ht]; simp

theorem dropWhile_append_of_notAhead {p : Char → Bool} {ds : List Char}
    (hd : ∀ c ∈ ds, p c = true) (ht : NotAhead p t) : (ds ++ t).dropWhile p = t := by
  rw [List.dropWhile_append_of_pos hd]
  cases t with
  | nil => simp
  | cons c t => rw [List.dropWhile_cons, notAhead_cons.1 ht]; simp

theorem digits_append {ds : List Char} (h : ∀ c ∈ ds, c.isDigit = true)
    (ht : NotAhead Char.isDigit t) : digits (ds ++ t) = (ds, t) := by
  rw [digits, takeWhile_append_of_notAhead h ht, dropWhile_append_of_notAhead h ht]

theorem whole?_append {w : List Char} (h : IsWhole w) (ht : NotAhead Char.isDigit t) :
    whole? (w ++ t) = some (w, t) := by
  cases h with
  | zero => rfl
  | @digits d ds hd hds =>
    have read := digits_append hds.2 ht
    rw [List.cons_append] at read ⊢
    unfold whole?
    split
    next e => exact absurd (List.cons.inj e).1 hd
    next e =>
      obtain ⟨rfl, rfl⟩ := List.cons.inj e
      rw [if_pos (hds.2 _ List.mem_cons_self), read]
    next e => cases e

theorem fraction_append {f : List Char} (h : IsFraction f) (ht : NotAhead Char.isDigit t)
    (point : NotAhead (· == '.') t) : fraction (f ++ t) = (f.tail, t) := by
  cases h with
  | absent =>
    unfold fraction
    split
    next e => rw [List.nil_append] at e; subst e; simp at point
    next => rfl
  | @present ds hds =>
    obtain ⟨d, rest, rfl⟩ := List.exists_cons_of_ne_nil hds.1
    have read : digits (d :: (rest ++ t)) = (d :: rest, t) := digits_append hds.2 ht
    simp only [fraction, List.cons_append, read, List.tail_cons]

theorem ne_of_isDigit {d : Char} (h : d.isDigit = true) (c : Char) (hc : c.isDigit = false) :
    d ≠ c := by
  rintro rfl
  cases h.symm.trans hc

/-- The power of ten that a sign and digits stand for. -/
theorem exponent_present {e : Char} {sign ds : List Char} (he : e ∈ ['e', 'E'])
    (hs : sign ∈ [[], ['+'], ['-']]) (hds : IsDigits ds) (ht : NotAhead Char.isDigit t) :
    exponent (e :: (sign ++ (ds ++ t))) =
      (some (if sign = ['-'] then -(natural ds : Int) else natural ds), t) := by
  obtain ⟨d, rest, rfl⟩ := List.exists_cons_of_ne_nil hds.1
  have read : digits (d :: (rest ++ t)) = (d :: rest, t) := digits_append hds.2 ht
  have mark : (e = 'e' || e = 'E') = true := by simpa using he
  have minus := ne_of_isDigit (hds.2 d List.mem_cons_self) '-' rfl
  have plus := ne_of_isDigit (hds.2 d List.mem_cons_self) '+' rfl
  simp only [exponent, mark, if_true]
  simp only [List.mem_cons, List.not_mem_nil, or_false] at hs
  rcases hs with rfl | rfl | rfl
  · simp [read, minus, plus]
  · simp [read]
  · simp [read]

theorem exponent_append {e : List Char} (h : IsExponent e) (ht : NotAhead Char.isDigit t)
    (mark : NotAhead (fun c => c = 'e' || c = 'E') t) :
    exponent (e ++ t) = ((exponent e).1, t) := by
  cases h with
  | absent =>
    cases t with
    | nil => rfl
    | cons c t =>
      have other := notAhead_cons.1 mark
      simp only [List.nil_append, exponent, other]
      rfl
  | @present e sign ds he hs hds =>
    have alone := exponent_present he hs hds notAhead_nil
    rw [List.append_nil] at alone
    rw [List.cons_append, List.append_assoc, exponent_present he hs hds ht, alone]

theorem IsExponent.notAhead {e : List Char} {p : Char → Bool} (h : IsExponent e)
    (hp : ∀ c ∈ ['e', 'E'], p c = false) (ht : NotAhead p t) : NotAhead p (e ++ t) := by
  cases h with
  | absent => exact ht
  | present he => exact notAhead_cons.2 (hp _ he)

theorem IsFraction.notAhead {f : List Char} {p : Char → Bool} (h : IsFraction f)
    (hp : p '.' = false) (ht : NotAhead p t) : NotAhead p (f ++ t) := by
  cases h with
  | absent => exact ht
  | present => exact notAhead_cons.2 hp

/-- The value of a number by its parts. -/
def numeral (negative : Bool) (whole part : List Char) (power : Option Int) :
    Except ReadFault Node :=
  if part.isEmpty && power.isNone then
    if Text.digitLimit < whole.length then .error (.longInteger whole.length)
    else
      let n : Int := natural whole
      .ok (.int (if negative then -n else n))
  else
    .ok (.float (Binary64.ofDecimal negative (natural (whole ++ part))
      (power.getD 0 - part.length)))

theorem map_numeral (negative : Bool) (whole part : List Char) (power : Option Int)
    (rest : List Char) : (numeral negative whole part power).map (·, rest) =
      if part.isEmpty && power.isNone then
        if Text.digitLimit < whole.length then .error (.longInteger whole.length)
        else
          let n : Int := natural whole
          .ok (.int (if negative then -n else n), rest)
      else
        .ok (.float (Binary64.ofDecimal negative (natural (whole ++ part))
          (power.getD 0 - part.length)), rest) := by
  unfold numeral
  split
  · split <;> rfl
  · rfl

/-- The number behind a sign. -/
def afterSign (negative : Bool) (cs : List Char) : Option (Rest Node) :=
  (whole? cs).map fun (ds, rest) =>
    let (part, rest) := fraction rest
    let (power, rest) := exponent rest
    (numeral negative ds part power).map (·, rest)

theorem number?_minus (cs : List Char) : number? ('-' :: cs) = afterSign true cs := by
  unfold number? afterSign
  simp only [map_numeral]

theorem number?_of_isDigit {d : Char} (h : d.isDigit = true) (cs : List Char) :
    number? (d :: cs) = afterSign false (d :: cs) := by
  unfold number? afterSign
  simp only [map_numeral]
  split
  next rest e => exact absurd (List.cons.inj e).1 (ne_of_isDigit h '-' rfl)
  next => rfl

theorem IsWhole.exists_digit {w : List Char} (h : IsWhole w) :
    ∃ d ds, w = d :: ds ∧ d.isDigit = true := by
  cases h with
  | zero => exact ⟨_, _, rfl, rfl⟩
  | digits _ hds => exact ⟨_, _, rfl, hds.2 _ List.mem_cons_self⟩

/-- The reader takes a number by its parts, as far as it goes. -/
theorem number?_append {sign w f e : List Char} (hs : sign ∈ [[], ['-']]) (hw : IsWhole w)
    (hf : IsFraction f) (he : IsExponent e) (ht : NotAhead isNumeric t) :
    number? (sign ++ (w ++ (f ++ (e ++ t)))) =
      some ((numeral (sign = ['-']) w f.tail (exponent e).1).map (·, t)) := by
  have digit : NotAhead Char.isDigit t := ht.mono fun c hc => by rw [isNumeric, hc, Bool.true_or]
  have exponent := exponent_append he digit (ht.mono fun c hc => by
    simp only [Bool.or_eq_true, decide_eq_true_eq] at hc
    rcases hc with rfl | rfl <;> rfl)
  have fraction := fraction_append hf (he.notAhead (by simp) digit)
    (he.notAhead (by simp) (ht.mono fun c hc => by rw [eq_of_beq hc]; rfl))
  have whole := whole?_append hw (hf.notAhead rfl (he.notAhead (by simp) digit))
  have read (negative : Bool) : afterSign negative (w ++ (f ++ (e ++ t))) =
      some ((numeral negative w f.tail (Json.exponent e).1).map (·, t)) := by
    simp only [afterSign, whole, Option.map_some, fraction, exponent]
  simp only [List.mem_cons, List.not_mem_nil, or_false] at hs
  rcases hs with rfl | rfl
  · obtain ⟨d, ds, rfl, hd⟩ := hw.exists_digit
    exact (number?_of_isDigit hd _).trans (read false)
  · exact (number?_minus _).trans (read true)

/-! ### What is read of a tree -/

mutual
/-- What the reader makes of a tree: the document, or the fault of an integer that is too long or of
a half of a surrogate pair. -/
def nodeOf : Tree → Except ReadFault Node
  | .null => .ok .null
  | .bool b => .ok (.bool b)
  | .number cs => (scalar cs).map Prod.fst
  | .word cs => (scalar cs).map Prod.fst
  | .text us => (textOf false (decoded us)).map .str
  | .array js => (nodesOf js).map .list
  | .object ms => (fieldsOf ms).map fun fs => .map (Fields.ofEntries Node.sameKey fs)

/-- What the reader makes of the items of an array, the first fault first. -/
def nodesOf : List Tree → Except ReadFault (List Node)
  | [] => .ok []
  | j :: js =>
    match nodeOf j with
    | .error e => .error e
    | .ok x => (nodesOf js).map (x :: ·)

/-- What the reader makes of the members of an object. -/
def fieldsOf : List (List Nat × Tree) → Except ReadFault (List (Node × Node))
  | [] => .ok []
  | (units, j) :: ms =>
    match textOf false (decoded units) with
    | .error e => .error e
    | .ok name =>
      match nodeOf j with
      | .error e => .error e
      | .ok x => (fieldsOf ms).map ((.str name, x) :: ·)
end

/-! ### Scalars -/

theorem exists_digitChar {d : Char} (h : d.isDigit = true) : ∃ n < 10, d = Nat.digitChar n := by
  simp only [Char.isDigit, Bool.and_eq_true, decide_eq_true_eq] at h
  have low : 48 ≤ d.toNat := h.1
  have high : d.toNat ≤ 57 := h.2
  refine ⟨d.toNat - 48, by omega, Char.toNat_inj.1 ?_⟩
  rw [Nat.toNat_digitChar_of_lt_ten (by omega)]
  omega

/-- No word starts with a digit, or with a sign and a digit. -/
theorem word?_of_isDigit {d : Char} (h : d.isDigit = true) :
    word? (d :: s) = none ∧ word? ('-' :: d :: s) = none := by
  -- Digit by digit, since the words have too many cases to be told apart one by one.
  obtain ⟨n, hn, rfl⟩ := exists_digitChar h
  match n, hn with
  | 0, _ | 1, _ | 2, _ | 3, _ | 4, _ | 5, _ | 6, _ | 7, _ | 8, _ | 9, _ => exact ⟨rfl, rfl⟩

/-- A number is told from strings and words by its first characters. -/
theorem scalar_of_isNumber {cs : List Char} (h : IsNumber cs) :
    scalar (cs ++ t) = (number? (cs ++ t)).getD (.error (.malformed .value (cs ++ t).length)) := by
  obtain ⟨hs, whole, fraction, exponent⟩ := h
  obtain ⟨d, ds, rfl, hd⟩ := whole.exists_digit
  simp only [List.mem_cons, List.not_mem_nil, or_false] at hs
  rcases hs with rfl | rfl
  · simp [scalar, (word?_of_isDigit hd).1]
  · simp [scalar, (word?_of_isDigit hd).2]

/-- A number is read as far as it goes, and its parts tell what it is. -/
theorem scalar_of_parts {sign w f e : List Char} (hs : sign ∈ [[], ['-']]) (hw : IsWhole w)
    (hf : IsFraction f) (he : IsExponent e) (ht : NotAhead isNumeric t) :
    scalar ((sign ++ (w ++ (f ++ e))) ++ t) =
      (numeral (sign = ['-']) w f.tail (exponent e).1).map (·, t) := by
  rw [scalar_of_isNumber (.parts hs hw hf he)]
  simp only [List.append_assoc]
  rw [number?_append hs hw hf he ht, Option.getD_some]

/-- What stands behind a number is of no account for it. -/
theorem scalar_number {cs : List Char} (h : IsNumber cs) (ht : NotAhead isNumeric t) :
    scalar (cs ++ t) = ((scalar cs).map Prod.fst).map (·, t) := by
  obtain ⟨hs, hw, hf, he⟩ := h
  have alone := scalar_of_parts hs hw hf he notAhead_nil
  rw [List.append_nil] at alone
  rw [alone, scalar_of_parts hs hw hf he ht]
  rcases numeral _ _ _ _ with e | n <;> rfl

theorem Stops.notNumeric (h : Stops t) : NotAhead isNumeric t :=
  NotAhead.mono h fun _ => isToken_of_isNumeric

/-- The reader takes a value without quotes or brackets for what it stands for. -/
theorem scalar_append {cs : List Char} {j : Tree} (h : Scalar nonNumbers cs j) (ht : Stops t) :
    scalar (cs ++ t) = (nodeOf j).map (·, t) := by
  cases h with
  | nullWord | trueWord | falseWord => rfl
  | number hn => exact scalar_number hn ht.notNumeric
  | word hw =>
    simp only [nonNumbers, List.map_cons, List.map_nil, List.mem_cons, List.not_mem_nil,
      or_false] at hw
    rcases hw with rfl | rfl | rfl <;> rfl

/-! ### Lengths -/

theorem Chars.length_lt (h : Chars s us t) : t.length < s.length := by
  induction h with
  | close => exact Nat.lt_succ_self _
  | plain _ _ ih | short _ _ ih | code _ _ ih => simp only [List.length_cons]; omega

theorem Blanks.length_le (h : Blanks s t) : t.length ≤ s.length := by
  obtain ⟨w, rfl, -⟩ := h
  rw [List.length_append]
  omega

theorem Blanks.length_lt (h : Blanks s (c :: t)) : t.length < s.length := h.length_le

theorem Scalar.length_lt {cs : List Char} {j : Tree} (h : Scalar nonNumbers cs j) :
    t.length < (cs ++ t).length := by
  have := List.length_pos_of_ne_nil (h.token proper_nonNumbers).1
  rw [List.length_append]
  omega

mutual
/-- A value uses up a character. -/
theorem Value.length_lt {s j t} : Value nonNumbers s j t → t.length < s.length
  | .scalar hs => hs.length_lt
  | .text hc => Nat.lt_succ_of_lt hc.length_lt
  | .emptyArray hb | .emptyObject hb => Nat.lt_succ_of_lt hb.length_lt
  | .array hi => Nat.lt_succ_of_lt (Items.length_lt hi)
  | .object hm => Nat.lt_succ_of_lt (Members.length_lt hm)
termination_by structural h => h

theorem Item.length_lt {s j t} : Item nonNumbers s j t → t.length < s.length
  | .value hb hv => Nat.lt_of_lt_of_le (Value.length_lt hv) hb.length_le
termination_by structural h => h

theorem Items.length_lt {s js t} : Items nonNumbers s js t → t.length < s.length
  | .last hi hb => Nat.lt_trans hb.length_lt (Item.length_lt hi)
  | .more hi hb his =>
    Nat.lt_trans (Items.length_lt his) (Nat.lt_trans hb.length_lt (Item.length_lt hi))
termination_by structural h => h

theorem Member.length_lt {s m t} : Member nonNumbers s m t → t.length < s.length
  | .named hb hc hm hi => Nat.lt_trans (Item.length_lt hi)
    (Nat.lt_trans hm.length_lt (Nat.lt_trans hc.length_lt hb.length_lt))
termination_by structural h => h

theorem Members.length_lt {s ms t} : Members nonNumbers s ms t → t.length < s.length
  | .last hm hb => Nat.lt_trans hb.length_lt (Member.length_lt hm)
  | .more hm hb hms =>
    Nat.lt_trans (Members.length_lt hms) (Nat.lt_trans hb.length_lt (Member.length_lt hm))
termination_by structural h => h
end

/-! ### Values -/

/-- The reader skips all blanks. -/
theorem Blanks.skip (h : Blanks s t) (ht : NotAhead isBlank t) : skipBlanks s = t := by
  obtain ⟨w, rfl, hw⟩ := h
  exact dropWhile_append_of_notAhead hw ht

theorem Blanks.skip_mark (h : Blanks s (c :: t)) (hc : isBlank c = false) :
    skipBlanks s = c :: t :=
  h.skip (notAhead_cons.2 hc)

theorem value_of_token (h : isToken c = true) (bound : Nat) :
    value false (bound + 1) (c :: s) = scalar (c :: s) := by
  have quote : c ≠ '"' := by rintro rfl; cases h
  have list : c ≠ '[' := by rintro rfl; cases h
  have map : c ≠ '\x7b' := by rintro rfl; cases h
  simp [value, quote, list, map]

theorem value_of_quote_mark (h : Chars s us t) (bound : Nat) :
    value false (bound + 1) ('"' :: s) = (nodeOf (.text us)).map (·, t) := by
  simp only [value, string_of_chars h, nodeOf]
  cases textOf false (decoded us) <;> rfl

section

variable {u v w x : List Char} {j : Tree} {js : List Tree} {ms : List (List Nat × Tree)}
  {name : List Nat} {bound : Nat}

theorem value_of_items (start : Starts (skipBlanks s))
    (h : items false bound (skipBlanks s) = (nodesOf js).map (·, t)) :
    value false (bound + 1) ('[' :: s) = (nodeOf (.array js)).map (·, t) := by
  simp only [value]
  split
  next e => exact absurd e start.ne_close.1
  next =>
    rw [h, nodeOf]
    cases nodesOf js <;> rfl

theorem value_of_members (start : Starts (skipBlanks s))
    (h : members false bound (skipBlanks s) = (fieldsOf ms).map (·, t)) :
    value false (bound + 1) ('\x7b' :: s) = (nodeOf (.object ms)).map (·, t) := by
  simp only [value]
  split
  next e => exact absurd e start.ne_close.2
  next =>
    rw [h, nodeOf]
    cases fieldsOf ms <;> rfl

theorem items_last (hv : value false bound s = (nodeOf j).map (·, u))
    (hu : skipBlanks u = ']' :: t) : items false (bound + 1) s = (nodesOf [j]).map (·, t) := by
  simp only [items, hv, nodesOf]
  cases nodeOf j with
  | error e => rfl
  | ok x => simp only [Except.map, hu]

theorem items_more (hv : value false bound s = (nodeOf j).map (·, u))
    (hu : skipBlanks u = ',' :: w) (hw : items false bound (skipBlanks w) = (nodesOf js).map (·, t)) :
    items false (bound + 1) s = (nodesOf (j :: js)).map (·, t) := by
  simp only [items, hv, nodesOf]
  cases nodeOf j with
  | error e => rfl
  | ok x =>
    simp only [Except.map, hu, hw]
    cases nodesOf js <;> rfl

theorem members_last (hc : Chars s name v) (hm : skipBlanks v = ':' :: w)
    (hv : value false bound (skipBlanks w) = (nodeOf j).map (·, u)) (hu : skipBlanks u = '\x7d' :: t) :
    members false (bound + 1) ('"' :: s) = (fieldsOf [(name, j)]).map (·, t) := by
  simp only [members, string_of_chars hc, fieldsOf]
  cases textOf false (decoded name) with
  | error e => rfl
  | ok name =>
    simp only [hm, hv]
    cases nodeOf j with
    | error e => rfl
    | ok x => simp only [Except.map, hu]

theorem members_more (hc : Chars s name v) (hm : skipBlanks v = ':' :: w)
    (hv : value false bound (skipBlanks w) = (nodeOf j).map (·, u)) (hu : skipBlanks u = ',' :: x)
    (hx : members false bound (skipBlanks x) = (fieldsOf ms).map (·, t)) :
    members false (bound + 1) ('"' :: s) = (fieldsOf ((name, j) :: ms)).map (·, t) := by
  simp only [members, string_of_chars hc, fieldsOf]
  cases textOf false (decoded name) with
  | error e => rfl
  | ok name =>
    simp only [hm, hv]
    cases nodeOf j with
    | error e => rfl
    | ok x =>
      simp only [Except.map, hu, hx]
      cases fieldsOf ms <;> rfl

end

variable {u : List Char} {j : Tree}

theorem starts_skipBlanks (h : ∃ u, Blanks s u ∧ Starts u) : Starts (skipBlanks s) := by
  obtain ⟨u, hb, start⟩ := h
  exact (hb.skip start.notBlank).symm ▸ start

theorem value_of_scalar {cs : List Char} (h : Scalar nonNumbers cs j) (ht : Stops t)
    (bound : Nat) : value false (bound + 1) (cs ++ t) = (nodeOf j).map (·, t) := by
  obtain ⟨named, token⟩ := h.token proper_nonNumbers
  rw [← scalar_append h ht]
  obtain ⟨c, r, rfl⟩ := List.exists_cons_of_ne_nil named
  exact value_of_token (token c List.mem_cons_self) bound

mutual
/-- The reader takes a value for what it stands for, if the bound is enough for its text. -/
theorem Value.read {s j t} : ∀ {bound : Nat}, Value nonNumbers s j t → Stops t →
    2 * s.length ≤ bound → value false (bound + 1) s = (nodeOf j).map (·, t)
  | _, .scalar hs, ht, _ => value_of_scalar hs ht _
  | _, .text hc, _, _ => value_of_quote_mark hc _
  | _, .emptyArray mark, _, _ => by
    -- The closing mark is seen before any item is read.
    simp only [value, mark.skip_mark rfl]
    rfl
  | _, .emptyObject mark, _, _ => by
    simp only [value, mark.skip_mark rfl]
    rfl
  | _, .array hi, _, hb =>
    value_of_items (starts_skipBlanks (hi.starts proper_nonNumbers)) (Items.read hi hb)
  | _, .object hm, _, hb => value_of_members (starts_skipBlanks hm.starts) (Members.read hm hb)
termination_by structural _ h => h

theorem Item.read {s j t} : ∀ {bound : Nat}, Item nonNumbers s j t → Stops t →
    2 * s.length ≤ bound → value false (bound + 1) (skipBlanks s) = (nodeOf j).map (·, t)
  | _, .value hs hv, ht, hb => by
    rw [hs.skip (hv.starts proper_nonNumbers).notBlank]
    exact Value.read hv ht (Nat.le_trans (Nat.mul_le_mul_left 2 hs.length_le) hb)
termination_by structural _ h => h

theorem Items.read {s js t} : ∀ {bound : Nat}, Items nonNumbers s js t →
    2 * s.length + 2 ≤ bound → items false bound (skipBlanks s) = (nodesOf js).map (·, t)
  | _ + 2, .last hi mark, hb =>
    items_last (Item.read hi (mark.stops_mark rfl) (by omega)) (mark.skip_mark rfl)
  | _ + 2, .more hi mark his, hb =>
    items_more (Item.read hi (mark.stops_mark rfl) (by omega)) (mark.skip_mark rfl)
      (Items.read his (by have := hi.length_lt; have := mark.length_lt; omega))
termination_by structural _ h => h

theorem Members.read {s ms t} : ∀ {bound : Nat}, Members nonNumbers s ms t →
    2 * s.length + 2 ≤ bound → members false bound (skipBlanks s) = (fieldsOf ms).map (·, t)
  | _ + 2, .last (.named quote hc colon hi) mark, hb => by
    rw [quote.skip_mark rfl]
    exact members_last hc (colon.skip_mark rfl) (Item.read hi (mark.stops_mark rfl)
      (by have := quote.length_lt; have := hc.length_lt; have := colon.length_lt; omega))
      (mark.skip_mark rfl)
  | _ + 2, .more (.named quote hc colon hi) mark hms, hb => by
    have behind := Nat.lt_trans colon.length_lt (Nat.lt_trans hc.length_lt quote.length_lt)
    rw [quote.skip_mark rfl]
    exact members_more hc (colon.skip_mark rfl)
      (Item.read hi (mark.stops_mark rfl) (by omega)) (mark.skip_mark rfl)
      (Members.read hms (by have := hi.length_lt; have := mark.length_lt; omega))
termination_by structural _ h => h
end

/-- No text with a value has the mark of the order of octets in front. -/
theorem Item.ne_mark (h : Item nonNumbers s j t) : s ≠ '\ufeff' :: u := by
  rintro rfl
  cases h with
  | value hb hv =>
    obtain ⟨c, r, rfl, start⟩ := hv.starts proper_nonNumbers
    obtain ⟨w, e, hw⟩ := hb
    cases w with
    | nil =>
      rw [← (List.cons.inj e).1] at start
      cases start
    | cons d w =>
      have blank := hw d List.mem_cons_self
      rw [← (List.cons.inj e).1] at blank
      cases blank

/-- A text that the grammar has is taken for what it stands for. -/
theorem document_of_denotes {text : List Char} (h : Denotes nonNumbers text j) :
    document false text = nodeOf j := by
  obtain ⟨t, hi, hb⟩ := h
  unfold document
  split
  next => exact absurd rfl hi.ne_mark
  next =>
    rw [Item.read hi (hb.stops notAhead_nil) (by omega)]
    cases nodeOf j with
    | error e => rfl
    | ok n => simp only [Except.map, hb.skip notAhead_nil]

/-- A text that stands for a document is read as that document. -/
theorem read_of_denotes {text : List Char} {n : Node} (h : Denotes nonNumbers text j)
    (hj : nodeOf j = .ok n) : read text = .ok n := by
  rw [read, document_of_denotes h, hj]

end Json

end PlainSchema
