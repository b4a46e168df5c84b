/-
PlainSchema/Proofs/Spelling.lean

How numbers and strings are spelt, and how collections are laid out.

The text of an integer, and that of a finite number in the style of JSON, is a number
of the grammar: what stands before the point is a single zero or starts with another
digit.  For a finite number this rests on the search for its digits, which finds no
zero (`search_pos`): if it finds none at all, the text is `0.0`.

A string in quotes stands for the code units of its characters, and of two strings
that do so for the same units the characters are the same (`codeUnits_injective`).

In a collection each part stands behind a break, and behind it stands the rest up to
the closing mark (`behind`), so what is said of a collection goes from part to part.
-/
import PlainSchema.Json.Grammar
import PlainSchema.Json.Writer
import PlainSchema.Proofs.Cleaning

namespace PlainSchema

/-! ### Decimal digits -/

theorem toList_toString (n : Nat) : (toString n).toList = Nat.toDigits 10 n := by
  rw [Nat.toString_eq_ofList_toDigits, String.toList_ofList]

namespace Json

theorem isDigit_of_mem_toDigits {n : Nat} {c : Char} (h : c ∈ Nat.toDigits 10 n) :
    c.isDigit = true :=
  Nat.isDigit_of_mem_toDigits (by decide) (by decide) h

theorem isDigit_of_mem_zeros {n : Nat} {c : Char} (h : c ∈ List.replicate n '0') :
    c.isDigit = true :=
  (List.mem_replicate.1 h).2 ▸ rfl

theorem isDigits_toDigits (n : Nat) : IsDigits (Nat.toDigits 10 n) :=
  ⟨Nat.toDigits_ne_nil, fun _ => isDigit_of_mem_toDigits⟩

/-- A number above zero does not start with a zero. -/
theorem toDigits_head {n : Nat} (h : 0 < n) : ∃ d ds, Nat.toDigits 10 n = d :: ds ∧ d ≠ '0' := by
  induction n using Nat.strongRecOn with
  | ind n ih =>
    obtain small | large := Nat.lt_or_ge n 10
    · have first : ∀ n < 10, 0 < n → Nat.digitChar n ≠ '0' := by decide
      exact ⟨n.digitChar, [], Nat.toDigits_of_lt_base small, first n small h⟩
    · obtain ⟨d, ds, e, hd⟩ := ih (n / 10) (by omega) (by omega)
      exact ⟨d, ds ++ [(n % 10).digitChar],
        by rw [Nat.toDigits_of_base_le (by decide) large, e, List.cons_append], hd⟩

/-- The digits of a number above zero, with more digits behind them, stand before a point. -/
theorem isWhole_append {n : Nat} {ds : List Char} (h : 0 < n)
    (hd : ∀ c ∈ ds, c.isDigit = true) : IsWhole (Nat.toDigits 10 n ++ ds) := by
  obtain ⟨c, cs, e, hc⟩ := toDigits_head h
  have all : ∀ c ∈ Nat.toDigits 10 n ++ ds, c.isDigit = true :=
    List.forall_mem_append.2 ⟨fun _ => isDigit_of_mem_toDigits, hd⟩
  -- Only the first digit counts for the form, and the number has it.
  rw [e, List.cons_append] at all ⊢
  exact .digits hc ⟨List.cons_ne_nil _ _, all⟩

/-- So do the first of them, one at least. -/
theorem isWhole_take {n k : Nat} (h : 0 < n) (hk : 0 < k) :
    IsWhole ((Nat.toDigits 10 n).take k) := by
  obtain ⟨c, cs, e, hc⟩ := toDigits_head h
  obtain ⟨k, rfl⟩ := Nat.exists_eq_add_of_lt hk
  have all : ∀ c ∈ (Nat.toDigits 10 n).take (k + 1), c.isDigit = true :=
    fun _ hc => isDigit_of_mem_toDigits (List.mem_of_mem_take hc)
  rw [Nat.zero_add, e, List.take_succ_cons] at *
  exact .digits hc ⟨List.cons_ne_nil _ _, all⟩

theorem isWhole_toDigits (n : Nat) : IsWhole (Nat.toDigits 10 n) := by
  obtain rfl | h := Nat.eq_zero_or_pos n
  · exact .zero
  · have whole : IsWhole (Nat.toDigits 10 n ++ []) := isWhole_append h nofun
    rwa [List.append_nil] at whole

theorem isWhole_digit {c : Char} (h : c.isDigit = true) : IsWhole [c] := by
  by_cases zero : c = '0'
  · exact zero ▸ .zero
  · exact .digits zero ⟨List.cons_ne_nil _ _, by simpa using h⟩

/-- An integer that is not too long is written with its sign and its digits. -/
theorem integer_eq_ok_iff {i : Int} {cs : List Char} : integer i = .ok cs ↔
    (Nat.toDigits 10 i.natAbs).length ≤ Text.digitLimit ∧
      cs = (if i < 0 then ['-'] else []) ++ Nat.toDigits 10 i.natAbs := by
  rw [integer, toList_toString]
  split
  next long => exact ⟨nofun, fun h => absurd long (Nat.not_lt.2 h.1)⟩
  next short =>
    rw [Except.ok.injEq, eq_comm, and_iff_right (Nat.not_lt.1 short)]
    split <;> rfl

theorem sign_mem (i : Int) : (if i < 0 then ['-'] else []) ∈ [[], ['-']] := by
  split <;> simp

theorem isNumber_of_integer {i : Int} {cs : List Char} (h : integer i = .ok cs) :
    IsNumber cs := by
  obtain ⟨-, rfl⟩ := integer_eq_ok_iff.1 h
  simpa using IsNumber.parts (sign_mem i) (isWhole_toDigits i.natAbs) .absent .absent

end Json

/-! ### Numbers with a point -/

namespace Binary64

theorem onGrid?_pos {i : Interval} {places : Int} {n : Nat} (h : i.onGrid? places = some n) :
    0 < n := by
  rw [Interval.onGrid?] at h
  split at h
  next below _ =>
    have positive := of_decide_eq_true (Bool.and_eq_true_iff.1 below).2
    split at h
    · exact Option.some.inj h ▸ positive
    · split at h
      · exact Option.some.inj h ▸ Nat.succ_pos _
      · exact Option.some.inj h ▸ Nat.add_pos_left positive _
  next below _ => exact Option.some.inj h ▸ of_decide_eq_true (Bool.and_eq_true_iff.1 below).2
  next => exact Option.some.inj h ▸ Nat.succ_pos _
  next => cases h

/-- The search finds digits that are not all zero, or none. -/
theorem search_pos (i : Interval) (point : Int) (tries count : Nat) :
    0 < (i.search point tries count).digits ∨ i.search point tries count = ⟨0, 0⟩ := by
  induction tries generalizing count with
  | zero => exact .inr rfl
  | succ tries ih =>
    rw [Interval.search]
    split
    · exact .inl (onGrid?_pos ‹_›)
    · exact ih (count + 1)

theorem dropZeros_pos {fuel n : Nat} (h : 0 < n) : 0 < dropZeros fuel n := by
  induction fuel generalizing n with
  | zero => exact h
  | succ fuel ih =>
    rw [dropZeros]
    split
    · exact ih (by omega)
    · exact h

theorem shortest_pos (m : Nat) (q : Int) :
    0 < (shortest m q).digits ∨ shortest m q = ⟨0, 0⟩ := by
  rw [shortest]
  dsimp only
  obtain h | h :=
    search_pos (intervalOf m q) (pointOf (intervalOf m q).num (intervalOf m q).den) 17 1
  · exact .inl (dropZeros_pos h)
  · rw [h]
    exact .inr rfl

open Json

/-- Positional notation has a digit on both sides of the point. -/
theorem isNumber_positional {sign : List Char} (hs : sign ∈ [[], ['-']]) {d : Decimal}
    (h : 0 < d.digits ∨ d = ⟨0, 0⟩) : IsNumber (sign ++ (positional d).toList) := by
  rw [positional, String.length_toList.symm, toList_toString]
  split
  · -- Nothing but zeros before the digits.
    have part : IsDigits (List.replicate (-d.point).toNat '0' ++ Nat.toDigits 10 d.digits) :=
      ⟨by simp, List.forall_mem_append.2
        ⟨fun _ => isDigit_of_mem_zeros, fun _ => isDigit_of_mem_toDigits⟩⟩
    simpa [zeros, toList_toString] using IsNumber.parts hs .zero (.present part) .absent
  next after =>
    have positive : 0 < d.digits := h.resolve_right (by rintro rfl; exact after (Int.le_refl 0))
    split
    · -- Zeros up to the point, and one behind it.
      simpa [zeros, toList_toString] using IsNumber.parts hs
        (isWhole_append positive fun _ => isDigit_of_mem_zeros) (.present IsWhole.zero.isDigits)
        .absent
    next inside =>
      have part : IsDigits ((Nat.toDigits 10 d.digits).drop d.point.toNat) :=
        ⟨by simp only [ne_eq, List.drop_eq_nil_iff]; omega,
          fun _ hc => isDigit_of_mem_toDigits (List.mem_of_mem_drop hc)⟩
      simpa [toList_toString] using IsNumber.parts hs (isWhole_take positive (by omega))
        (.present part) .absent

/-- An exponent has a sign, and two digits at least. -/
theorem isExponent_digits {sign : List Char} (hs : sign ∈ [['+'], ['-']]) (n : Nat) :
    let size := toString n
    IsExponent ('e' :: (sign ++ (if size.length < 2 then "0" ++ size else size).toList)) := by
  refine .present (by decide) (List.mem_cons_of_mem _ hs) ?_
  split
  · rw [String.toList_append, toList_toString]
    exact ⟨by simp, List.forall_mem_append.2
      ⟨IsWhole.zero.isDigits.2, fun _ => isDigit_of_mem_toDigits⟩⟩
  · rw [toList_toString]
    exact isDigits_toDigits n

/-- Exponent notation has one digit before the point. -/
theorem isNumber_exponential {sign : List Char} (hs : sign ∈ [[], ['-']]) (d : Decimal) :
    IsNumber (sign ++ (exponential floatStyle d).toList) := by
  have mark : (if d.point - 1 < 0 then "-" else "+").toList ∈ [['+'], ['-']] := by
    split <;> decide
  have exponent := isExponent_digits mark (d.point - 1).natAbs
  have digits := isDigits_toDigits d.digits
  rw [exponential, toList_toString]
  -- A single digit has no point behind it.
  rcases e : Nat.toDigits 10 d.digits with - | ⟨c, - | ⟨c', cs⟩⟩
  · exact absurd e digits.1
  · have whole := isWhole_digit (digits.2 c (by rw [e]; exact List.mem_cons_self))
    simpa [floatStyle, numberStyle] using IsNumber.parts hs whole .absent exponent
  · have whole := isWhole_digit (digits.2 c (by rw [e]; exact List.mem_cons_self))
    have part : IsDigits (c' :: cs) := ⟨List.cons_ne_nil _ _,
      fun _ hc => digits.2 _ (by rw [e]; exact List.mem_cons_of_mem _ hc)⟩
    simpa using IsNumber.parts hs whole (.present part) exponent

/-- The text of a finite number is a number. -/
theorem isNumber_format (negative : Bool) (m : Nat) (q : Int) :
    IsNumber ((finite negative m q).format floatStyle).toList := by
  have hs : (if negative then "-" else "").toList ∈ [[], ['-']] := by cases negative <;> decide
  rw [format]
  generalize (if negative then "-" else "") = sign at hs ⊢
  split
  · rw [String.toList_append]
    exact .parts hs .zero (.present IsWhole.zero.isDigits) .absent
  · rw [String.toList_append]
    split
    · exact isNumber_positional hs (shortest_pos m q)
    · exact isNumber_exponential hs _

/-- The text of a finite number tells it from an integer. -/
theorem exists_mark_format (negative : Bool) (m : Nat) (q : Int) :
    ∃ c ∈ ['.', 'e'], c ∈ ((finite negative m q).format floatStyle).toList := by
  have point (d : Decimal) : '.' ∈ (positional d).toList := by
    rw [positional]
    split
    · simp
    · split <;> simp
  have power (d : Decimal) : 'e' ∈ (exponential floatStyle d).toList := by
    rw [exponential, toList_toString]
    rcases e : Nat.toDigits 10 d.digits with - | ⟨c, - | ⟨c', cs⟩⟩
    · exact absurd e Nat.toDigits_ne_nil
    · simp
    · simp
  rw [format]
  generalize (if negative then "-" else "") = sign
  split
  · exact ⟨'.', by decide, by simp⟩
  · rw [String.toList_append]
    split
    · exact ⟨'.', by decide, List.mem_append_right _ (point _)⟩
    · exact ⟨'e', by decide, List.mem_append_right _ (power _)⟩

end Binary64

/-! ### Strings -/

namespace Json

variable {s t : List Char} {us us' : List Nat} {c c' : Char}

/-- The code of a control character has four digits. -/
theorem hexCode?_hex : ∀ n < 0x20, ∃ a b c d, (Text.hex 4 n).toList = [a, b, c, d] ∧
    hexCode? a b c d = some n := by
  have codes : ∀ n < 0x20, (Text.hex 4 n).toList.length = 4 ∧
      hexCode? (Text.hex 4 n).toList[0]! (Text.hex 4 n).toList[1]! (Text.hex 4 n).toList[2]!
        (Text.hex 4 n).toList[3]! = some n := by decide
  intro n hn
  obtain ⟨four, code⟩ := codes n hn
  match e : (Text.hex 4 n).toList, four with
  | [a, b, c, d], _ => exact ⟨a, b, c, d, rfl, by simpa [e] using code⟩

/-- How a character is written in a string: with a letter behind a backslash, by its code, or as it
is. -/
theorem escape_cases (c : Char) :
    (∃ e, escape c = ['\\', e] ∧ escaped? e = some c) ∨
    (c.toNat < 0x20 ∧ ∃ h i j k, escape c = ['\\', 'u', h, i, j, k] ∧
      hexCode? h i j k = some c.toNat) ∨
    (escape c = [c] ∧ isPlain c = true) := by
  by_cases special : c ∈ ['"', '\\', '\n', '\r', '\t', '\x08', '\x0c']
  · simp only [List.mem_cons, List.not_mem_nil, or_false] at special
    rcases special with rfl | rfl | rfl | rfl | rfl | rfl | rfl <;> exact .inl ⟨_, rfl, rfl⟩
  · simp only [List.mem_cons, List.not_mem_nil, or_false, not_or] at special
    obtain ⟨quote, backslash, n, r, t, b, f⟩ := special
    rw [escape, if_neg quote, if_neg backslash, if_neg n, if_neg r, if_neg t, if_neg b, if_neg f]
    split
    next small =>
      obtain ⟨h, i, j, k, e, code⟩ := hexCode?_hex c.toNat small
      exact .inr (.inl ⟨small, h, i, j, k, by rw [e], code⟩)
    next large =>
      exact .inr (.inr ⟨rfl, by simp [isPlain, quote, backslash]; omega⟩)

theorem codeUnits_of_lt (h : c.toNat < 0x10000) : codeUnits c = [c.toNat] := if_pos h

/-- A letter behind a backslash stands for a character of one code unit. -/
theorem toNat_lt_of_escaped? {e : Char} (h : escaped? e = some c) : c.toNat < 0x10000 := by
  unfold escaped? at h
  split at h <;> cases h <;> decide

/-- A character as it is written in a string stands for its code units. -/
theorem Chars.escape (c : Char) (h : Chars s us t) :
    Chars (escape c ++ s) (codeUnits c ++ us) t := by
  obtain ⟨e, written, read⟩ | ⟨small, _, _, _, _, written, code⟩ | ⟨written, plain⟩ :=
    escape_cases c
  · rw [written, codeUnits_of_lt (toNat_lt_of_escaped? read)]
    exact .short read h
  · rw [written, codeUnits_of_lt (by omega)]
    exact .code code h
  · rw [written]
    exact .plain plain h

/-- A text in quotes stands for the code units of its characters. -/
theorem Chars.quoted (cs t : List Char) :
    Chars (cs.flatMap Json.escape ++ '"' :: t) (cs.flatMap codeUnits) t := by
  induction cs with
  | nil => exact .close
  | cons c cs ih =>
    rw [List.flatMap_cons, List.flatMap_cons, List.append_assoc]
    exact ih.escape c

/-- No character is half of a surrogate pair. -/
theorem isValidChar_toNat (c : Char) : c.toNat < 0xd800 ∨ 0xdfff < c.toNat ∧ c.toNat < 0x110000 :=
  c.valid

/-- The code units of a character are those of no other, whatever comes behind them. -/
theorem codeUnits_append_inj (h : codeUnits c ++ us = codeUnits c' ++ us') :
    c = c' ∧ us = us' := by
  have valid := isValidChar_toNat c
  have valid' := isValidChar_toNat c'
  -- One unit or two: the first of two is a half, and no character is one alone.
  rw [codeUnits, codeUnits] at h
  split at h <;> split at h <;>
    simp only [List.cons_append, List.nil_append, List.cons.injEq] at h
  · exact ⟨Char.toNat_inj.1 h.1, h.2⟩
  · omega
  · omega
  · exact ⟨Char.toNat_inj.1 (by omega), h.2.2⟩

theorem codeUnits_injective {cs cs' : List Char}
    (h : cs.flatMap codeUnits = cs'.flatMap codeUnits) : cs = cs' := by
  have some : ∀ c : Char, codeUnits c ≠ [] := fun c => by
    rw [codeUnits]
    split <;> exact List.cons_ne_nil _ _
  induction cs generalizing cs' with
  | nil =>
    cases cs' with
    | nil => rfl
    | cons c' cs' => simp [some] at h
  | cons c cs ih =>
    cases cs' with
    | nil => simp [some] at h
    | cons c' cs' =>
      rw [List.flatMap_cons, List.flatMap_cons] at h
      obtain ⟨rfl, rest⟩ := codeUnits_append_inj h
      rw [ih rest]

/-! ### Collections -/

theorem Blanks.refl (t : List Char) : Blanks t t := ⟨[], rfl, nofun⟩

theorem blanks_newline (level : Nat) (t : List Char) : Blanks (newline level ++ t) t := by
  refine ⟨newline level, rfl, fun c hc => ?_⟩
  obtain rfl | hc := List.mem_cons.1 hc
  · rfl
  · rw [(List.mem_replicate.1 hc).2]
    rfl

/-- What stands behind the first part of a collection, or behind any other: the parts after it, and
the closing mark. -/
def behind (last : Char) (level : Nat) : List (List Char) → List Char
  | [] => newline level ++ [last]
  | p :: ps => ',' :: (newline (level + 1) ++ (p ++ behind last level ps))

theorem bracketed_cons (first last : Char) (level : Nat) (p : List Char)
    (ps : List (List Char)) : bracketed first last level (p :: ps) =
      first :: (newline (level + 1) ++ (p ++ behind last level ps)) := by
  have joined : (',' :: newline (level + 1)).intercalate (p :: ps) ++ (newline level ++ [last]) =
      p ++ behind last level ps := by
    induction ps generalizing p with
    | nil => rw [List.intercalate_singleton, behind]
    | cons q ps ih =>
      rw [List.intercalate_cons_cons, behind, List.append_assoc, List.append_assoc, ih]
      simp
  rw [bracketed, ← joined]
  · simp
  · exact nofun

theorem itemTexts_cons {level : Nat} {x : Node} {xs : List Node} {ps : List (List Char)}
    (h : itemTexts level (x :: xs) = .ok ps) : ∃ p qs, ps = p :: qs ∧
      valueText level x = .ok p ∧ itemTexts level xs = .ok qs := by
  rw [itemTexts] at h
  split at h
  · cases h
  next p hp =>
    obtain ⟨qs, hq, rfl⟩ := map_eq_ok_iff.1 h
    exact ⟨p, qs, rfl, hp, hq⟩

theorem memberTexts_cons {level : Nat} {k v : Node} {fs : Fields} {ps : List (List Char)}
    (h : memberTexts level ((k, v) :: fs) = .ok ps) : ∃ n p qs,
      ps = (quote (String.ofList n) ++ ':' :: ' ' :: p) :: qs ∧
      name k = .ok n ∧ valueText level v = .ok p ∧ memberTexts level fs = .ok qs := by
  rw [memberTexts] at h
  split at h
  · cases h
  next n hn =>
    split at h
    · cases h
    next p hp =>
      obtain ⟨qs, hq, rfl⟩ := map_eq_ok_iff.1 h
      exact ⟨n, p, qs, rfl, hn, hp, hq⟩

end Json

end PlainSchema
