/-
PlainSchema/Node/Display.lean

How messages show a value.  `shown` is the value inside another one: texts in
quotes, dates by their parts.  `plainText` is the value alone: a text as it is, a
date by its ISO text.

Both write every integer in full.  One of too many digits has no text for the program
(`hasLongInteger`), and who shows a value that may hold one has to ask first.
-/
import PlainSchema.Binary64.Text
import PlainSchema.Node
import PlainSchema.Text.Integer

namespace PlainSchema

/-- Numbers in messages and documents: positional up to 16 digits before the point and from the
fourth place after it. -/
def numberStyle : Binary64.NumberStyle where
  least := -4
  most := 16
  bareFraction := ""
  infinity := "inf"
  minusInfinity := "-inf"
  notANumber := "nan"

/-- A name with arguments in brackets. -/
def called (name : String) (arguments : List String) : String :=
  name ++ "(" ++ ", ".intercalate arguments ++ ")"

/-- An offset by its parts. -/
def offsetShown (seconds : Int) : String :=
  if seconds = 0 then "datetime.timezone.utc" else "datetime.timezone(" ++ spanText seconds ++ ")"

/-- A day by its parts. -/
def Date.shown (d : Date) : String :=
  called "datetime.date" [toString d.year, toString d.month, toString d.day]

/-- A moment by its parts; the seconds are left out if they and the microseconds are zero. -/
def DateTime.shown (t : DateTime) : String :=
  called "datetime.datetime" <|
    [toString t.date.year, toString t.date.month, toString t.date.day, toString t.hour,
      toString t.minute]
    ++ (if t.second = 0 ∧ t.microsecond = 0 then [] else [toString t.second])
    ++ (if t.microsecond = 0 then [] else [toString t.microsecond])
    ++ (match t.offset with | some s => ["tzinfo=" ++ offsetShown s] | none => [])

namespace Node

mutual
/-- A value as it is shown inside another one. -/
def shown : Node → String
  | null => "None"
  | bool b => if b then "True" else "False"
  | int i => toString i
  | float x => x.format numberStyle
  | str s => Text.quoted s
  | bytes b => Text.quotedOctets b
  | date d => d.shown
  | datetime t => t.shown
  | list xs => "[" ++ ", ".intercalate (shownItems xs) ++ "]"
  | map fs => "\x7b" ++ ", ".intercalate (shownFields fs) ++ "\x7d"
  | tuple xs => match shownItems xs with
    | [x] => "(" ++ x ++ ",)"
    | ys => "(" ++ ", ".intercalate ys ++ ")"
  | set xs => match shownItems xs with
    | [] => "set()"
    | ys => "\x7b" ++ ", ".intercalate ys ++ "\x7d"
  | shared _ n => n.shown

/-- The items as they are shown. -/
def shownItems : List Node → List String
  | [] => []
  | x :: xs => x.shown :: shownItems xs

/-- The entries as they are shown. -/
def shownFields : List (Node × Node) → List String
  | [] => []
  | (k, v) :: fs => (k.shown ++ ": " ++ v.shown) :: shownFields fs
end

/-- A value on its own. -/
def plainText : Node → String
  | str s => s
  | date d => d.isoText
  | datetime t => t.isoText " "
  | shared _ n => n.plainText
  | n => n.shown

/-! ### Integers of too many digits -/

mutual
/-- Whether there is an integer of too many digits in the value, keys and members included. -/
def hasLongInteger : Node → Bool
  | int i => Text.digitLimit < (toString i.natAbs).length
  | list xs => itemsHaveLongInteger xs
  | tuple xs => itemsHaveLongInteger xs
  | set xs => itemsHaveLongInteger xs
  | map fs => fieldsHaveLongInteger fs
  | shared _ n => n.hasLongInteger
  | _ => false

/-- Whether there is an integer of too many digits in an item. -/
def itemsHaveLongInteger : List Node → Bool
  | [] => false
  | x :: xs => x.hasLongInteger || itemsHaveLongInteger xs

/-- Whether there is an integer of too many digits in a key or a value. -/
def fieldsHaveLongInteger : List (Node × Node) → Bool
  | [] => false
  | (k, v) :: fs => k.hasLongInteger || v.hasLongInteger || fieldsHaveLongInteger fs
end

end Node

end PlainSchema
