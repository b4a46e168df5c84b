/-
PlainSchema/Json/Grammar.lean

What a text says in JSON, as the standard has it.  The grammar is a relation between a
text, the tree that its front stands for, and what is left of it behind that.  Of the
reader it has no more than the tables of characters.

A tree keeps a number as it is spelt and a string as the code units of UTF-16 that it
stands for: escapes may spell halves of surrogate pairs, and names are compared unit
by unit.  A mapping keeps its members in order, those of one name too.

The standard has no words but `null`, `true` and `false`.  A dialect with more words
has them as a parameter; the empty list is the standard.
-/
import PlainSchema.Json.Reader

namespace PlainSchema

namespace Json

/-- What a JSON text stands for. -/
inductive Tree where
  | null
  | bool (value : Bool)
  | number (spelling : List Char)
  /-- A word that the standard does not have. -/
  | word (spelling : List Char)
  | text (units : List Nat)
  | array (items : List Tree)
  | object (members : List (List Nat × Tree))
  deriving Inhabited

namespace Tree

mutual
/-- The tree and all trees in it, each before those in it. -/
def parts : Tree → List Tree
  | array js => array js :: itemParts js
  | object ms => object ms :: memberParts ms
  | j => [j]

/-- The parts of the items of an array. -/
def itemParts : List Tree → List Tree
  | [] => []
  | j :: js => j.parts ++ itemParts js

/-- The parts of the members of an object. -/
def memberParts : List (List Nat × Tree) → List Tree
  | [] => []
  | (_, j) :: ms => j.parts ++ memberParts ms
end

/-- No object in the tree has a name twice. -/
def DistinctNames (j : Tree) : Prop := ∀ ms, object ms ∈ j.parts → (ms.map Prod.fst).Nodup

end Tree

/-! ### Numbers -/

/-- One decimal digit or more. -/
def IsDigits (cs : List Char) : Prop := cs ≠ [] ∧ ∀ c ∈ cs, c.isDigit = true

/-- The digits before the point: a zero alone, or digits that do not start with zero. -/
inductive IsWhole : List Char → Prop
  | zero : IsWhole ['0']
  | digits {d : Char} {ds : List Char} : d ≠ '0' → IsDigits (d :: ds) → IsWhole (d :: ds)

theorem IsWhole.isDigits {cs : List Char} (h : IsWhole cs) : IsDigits cs := by
  cases h with
  | zero => exact ⟨List.cons_ne_nil _ _, List.forall_mem_singleton.2 rfl⟩
  | digits _ hd => exact hd

/-- A point with digits after it, or nothing. -/
inductive IsFraction : List Char → Prop
  | absent : IsFraction []
  | present {ds : List Char} : IsDigits ds → IsFraction ('.' :: ds)

/-- A power of ten, or nothing. -/
inductive IsExponent : List Char → Prop
  | absent : IsExponent []
  | present {e : Char} {sign ds : List Char} : e ∈ ['e', 'E'] → sign ∈ [[], ['+'], ['-']] →
      IsDigits ds → IsExponent (e :: (sign ++ ds))

/-- A number as it is spelt. -/
inductive IsNumber : List Char → Prop
  | parts {sign whole fraction exponent : List Char} : sign ∈ [[], ['-']] → IsWhole whole →
      IsFraction fraction → IsExponent exponent →
      IsNumber (sign ++ (whole ++ (fraction ++ exponent)))

/-! ### Strings -/

/-- The code units of a character in UTF-16. -/
def codeUnits (c : Char) : List Nat :=
  if c.toNat < 0x10000 then [c.toNat]
  else [0xd800 + (c.toNat - 0x10000) / 0x400, 0xdc00 + (c.toNat - 0x10000) % 0x400]

/-- Whether a character may stand for itself in a string. -/
def isPlain (c : Char) : Bool := 0x20 ≤ c.toNat && c ≠ '"' && c ≠ '\\'

/-- The characters of a string up to its closing quote. -/
inductive Chars : List Char → List Nat → List Char → Prop
  | close {t : List Char} : Chars ('"' :: t) [] t
  | plain {c : Char} {s t : List Char} {us : List Nat} : isPlain c = true → Chars s us t →
      Chars (c :: s) (codeUnits c ++ us) t
  | short {e c : Char} {s t : List Char} {us : List Nat} : escaped? e = some c → Chars s us t →
      Chars ('\\' :: e :: s) (c.toNat :: us) t
  | code {a b c d : Char} {n : Nat} {s t : List Char} {us : List Nat} :
      hexCode? a b c d = some n → Chars s us t →
      Chars ('\\' :: 'u' :: a :: b :: c :: d :: s) (n :: us) t

/-! ### Values -/

/-- Whether a text is another one with blanks in front. -/
def Blanks (s t : List Char) : Prop := ∃ w, s = w ++ t ∧ ∀ c ∈ w, isBlank c = true

/-- A value without quotes or brackets. -/
inductive Scalar (words : List (List Char)) : List Char → Tree → Prop
  | nullWord : Scalar words ['n', 'u', 'l', 'l'] .null
  | trueWord : Scalar words ['t', 'r', 'u', 'e'] (.bool true)
  | falseWord : Scalar words ['f', 'a', 'l', 's', 'e'] (.bool false)
  | number {cs : List Char} : IsNumber cs → Scalar words cs (.number cs)
  | word {cs : List Char} : cs ∈ words → Scalar words cs (.word cs)

mutual
/-- The value at the front. -/
inductive Value (words : List (List Char)) : List Char → Tree → List Char → Prop
  | scalar {cs t : List Char} {j : Tree} : Scalar words cs j → Value words (cs ++ t) j t
  | text {s t : List Char} {us : List Nat} : Chars s us t → Value words ('"' :: s) (.text us) t
  | emptyArray {s t : List Char} : Blanks s (']' :: t) → Value words ('[' :: s) (.array []) t
  | array {s t : List Char} {js : List Tree} : Items words s js t →
      Value words ('[' :: s) (.array js) t
  | emptyObject {s t : List Char} : Blanks s ('\x7d' :: t) →
      Value words ('\x7b' :: s) (.object []) t
  | object {s t : List Char} {ms : List (List Nat × Tree)} : Members words s ms t →
      Value words ('\x7b' :: s) (.object ms) t

/-- A value with blanks in front. -/
inductive Item (words : List (List Char)) : List Char → Tree → List Char → Prop
  | value {s u t : List Char} {j : Tree} : Blanks s u → Value words u j t → Item words s j t

/-- The items of an array up to its closing bracket. -/
inductive Items (words : List (List Char)) : List Char → List Tree → List Char → Prop
  | last {s u t : List Char} {j : Tree} : Item words s j u → Blanks u (']' :: t) →
      Items words s [j] t
  | more {s u v t : List Char} {j : Tree} {js : List Tree} : Item words s j u →
      Blanks u (',' :: v) → Items words v js t → Items words s (j :: js) t

/-- A name and a value, with blanks in front. -/
inductive Member (words : List (List Char)) : List Char → List Nat × Tree → List Char → Prop
  | named {s u v w t : List Char} {name : List Nat} {j : Tree} : Blanks s ('"' :: u) →
      Chars u name v → Blanks v (':' :: w) → Item words w j t → Member words s (name, j) t

/-- The members of an object up to its closing bracket. -/
inductive Members (words : List (List Char)) :
    List Char → List (List Nat × Tree) → List Char → Prop
  | last {s u t : List Char} {m : List Nat × Tree} : Member words s m u →
      Blanks u ('\x7d' :: t) → Members words s [m] t
  | more {s u v t : List Char} {m : List Nat × Tree} {ms : List (List Nat × Tree)} :
      Member words s m u → Blanks u (',' :: v) → Members words v ms t →
      Members words s (m :: ms) t
end

/-- Whether a text stands for a tree: one value with blanks around it. -/
def Denotes (words : List (List Char)) (text : List Char) (j : Tree) : Prop :=
  ∃ t, Item words text j t ∧ Blanks t []

end Json

end PlainSchema
