/-
PlainSchema/Yaml/Pen.lean

Writing YAML line by line.  The pen knows its column, whether a blank stands in
front of it, and whether nothing but indentation and indicators stand on its line.
Scalars are written plain, in single or double quotes, or as literal blocks; a line
that has grown beyond its width is broken at the next single space.
-/
import PlainSchema.Text.Quoted
import PlainSchema.Yaml.Cursor

namespace PlainSchema

namespace Yaml

/-- The width beyond which lines are broken. -/
def lineWidth : Nat := 80

/-- The pen, and what it has written. -/
structure Pen where
  written : String
  column : Nat
  /-- Whether a blank or a line break stands in front of the pen. -/
  blank : Bool
  /-- Whether only indentation and indicators stand in front of the pen on its line. -/
  leading : Bool
  /-- Whether what is written last could go on, so that the document needs an end mark. -/
  openEnded : Bool
  deriving Inhabited

namespace Pen

/-- A pen at the start of a text. -/
def start : Pen := ⟨"", 0, true, true, false⟩

/-- Writes characters of one line. -/
def put (p : Pen) (s : String) : Pen :=
  { p with written := p.written ++ s, column := p.column + s.length }

/-- Breaks the line. -/
def lineBreak (p : Pen) (c : Char) : Pen :=
  { p with written := p.written.push c, column := 0, blank := true, leading := true }

/-- Moves to a column, on a new line unless the line is still free up to there. -/
def toIndent (p : Pen) (indent : Nat) : Pen :=
  let p :=
    if !p.leading || indent < p.column || (p.column = indent && !p.blank) then p.lineBreak '\n'
    else p
  if p.column < indent then
    { p.put (String.ofList (List.replicate (indent - p.column) ' ')) with blank := true }
  else p

/-- Writes an indicator, with a blank in front of it if it needs one.  `blank` tells whether the
next one needs none, `leading` whether the line still counts as free behind it. -/
def indicator (p : Pen) (s : String) (needsBlank blank leading : Bool) : Pen :=
  let p' := p.put (if p.blank || !needsBlank then s else " " ++ s)
  { p' with blank := blank, leading := p.leading && leading, openEnded := false }

/-- A blank that does not end the scalar it stands in. -/
def inScalar (p : Pen) : Pen := { p with blank := false, leading := false }

end Pen

/-! ### Runs of characters -/

/-- Whether the character is written as a line break. -/
def isWrittenBreak (c : Char) : Bool :=
  c = '\n' || c = '\x85' || c = '\u2028' || c = '\u2029'

/-- Spaces, breaks, and all else. -/
inductive RunKind where
  | spaces
  | breaks
  | text
  deriving DecidableEq

/-- The kind of run that a character belongs to. -/
def runKind (c : Char) : RunKind :=
  if c = ' ' then .spaces else if isWrittenBreak c then .breaks else .text

/-- The longest runs of one kind that a text consists of. -/
def runs (cs : List Char) : List (RunKind × List Char) :=
  cs.foldr (fun c rs => match rs with
    | (k, run) :: rest =>
      if runKind c = k then (k, c :: run) :: rest else (runKind c, [c]) :: (k, run) :: rest
    | [] => [(runKind c, [c])]) []

/-- Writes line breaks inside a scalar: one more than they are if the first is a line feed, since a
single one would be read as a space. -/
def Pen.putBreaks (p : Pen) (indent : Nat) (cs : List Char) : Pen :=
  let p := if cs.head? = some '\n' then p.lineBreak '\n' else p
  (cs.foldl Pen.lineBreak p).toIndent indent

/-! ### Plain and single-quoted scalars -/

/-- Writes the runs of a plain scalar. -/
def Pen.putPlainRuns (p : Pen) (indent : Nat) (split : Bool) :
    List (RunKind × List Char) → Pen
  | [] => p
  | (.spaces, cs) :: rs =>
    let p :=
      if cs.length = 1 && lineWidth < p.column && split then (p.toIndent indent).inScalar
      else p.put (String.ofList cs)
    putPlainRuns p indent split rs
  | (.breaks, cs) :: rs => putPlainRuns (p.putBreaks indent cs).inScalar indent split rs
  | (.text, cs) :: rs => putPlainRuns (p.put (String.ofList cs)) indent split rs

/-- Writes a plain scalar. -/
def Pen.putPlain (p : Pen) (indent : Nat) (split root : Bool) (cs : List Char) : Pen :=
  let p := if root then { p with openEnded := true } else p
  if cs.isEmpty then p
  else
    let p := if p.blank then p else p.put " "
    p.inScalar.putPlainRuns indent split (runs cs)

/-- Writes the runs of a single-quoted scalar; `first` tells whether the next run is the first. -/
def Pen.putSingleRuns (p : Pen) (indent : Nat) (split first : Bool) :
    List (RunKind × List Char) → Pen
  | [] => p
  | (.spaces, cs) :: rs =>
    let p :=
      if cs.length = 1 && lineWidth < p.column && split && !first && !rs.isEmpty then
        p.toIndent indent
      else p.put (String.ofList cs)
    putSingleRuns p indent split false rs
  | (.breaks, cs) :: rs => putSingleRuns (p.putBreaks indent cs) indent split false rs
  | (.text, cs) :: rs =>
    let doubled := cs.flatMap fun c => if c = '\'' then ['\'', '\''] else [c]
    putSingleRuns (p.put (String.ofList doubled)) indent split false rs

/-- Writes a single-quoted scalar. -/
def Pen.putSingle (p : Pen) (indent : Nat) (split : Bool) (cs : List Char) : Pen :=
  ((p.indicator "'" true false false).putSingleRuns indent split true (runs cs)).indicator "'"
    false false false

/-! ### Double-quoted scalars -/

/-- The letter for a character behind a backslash. -/
def escapeLetter? (c : Char) : Option Char :=
  if c = '\x00' then some '0'
  else if c = '\x07' then some 'a'
  else if c = '\x08' then some 'b'
  else if c = '\t' then some 't'
  else if c = '\n' then some 'n'
  else if c = '\x0b' then some 'v'
  else if c = '\x0c' then some 'f'
  else if c = '\r' then some 'r'
  else if c = '\x1b' then some 'e'
  else if c = '"' then some '"'
  else if c = '\\' then some '\\'
  else if c = '\x85' then some 'N'
  else if c = '\u2028' then some 'L'
  else if c = '\u2029' then some 'P'
  else none

/-- Whether the character stands for itself between double quotes. -/
def isDirect (c : Char) : Bool :=
  let n := c.toNat
  !(c = '"' || c = '\\' || c = '\x85' || c = '\u2028' || c = '\u2029' || c = '\ufeff')
    && ((0x20 ≤ n && n ≤ 0x7e) || (0xa0 ≤ n && n ≤ 0xd7ff) || (0xe000 ≤ n && n ≤ 0xfffd))

/-- The escape for a character. -/
def escapeText (c : Char) : String :=
  match escapeLetter? c with
  | some letter => String.ofList ['\\', letter]
  | none =>
    let n := c.toNat
    let digits := fun width => (Text.hex width n).toUpper
    if n < 0x100 then "\\x" ++ digits 2
    else if n < 0x10000 then "\\u" ++ digits 4
    else "\\U" ++ digits 8

/-- Breaks the line inside double quotes; a backslash keeps a space behind the break. -/
def Pen.breakDouble (p : Pen) (indent : Nat) (next : Option Char) : Pen :=
  let p := ((p.put "\\").toIndent indent).inScalar
  if next = some ' ' then p.put "\\" else p

/-- Writes the characters of a double-quoted scalar.  `pending` holds those that stand for
themselves and are not written yet, the last one first, and `first` tells whether the next
character is the first of all. -/
def Pen.putDoubleChars (p : Pen) (indent : Nat) (split : Bool) (pending : List Char)
    (first : Bool) : List Char → Pen
  | [] => p.put (String.ofList pending.reverse)
  | c :: cs =>
    let inner := !first && !cs.isEmpty && split
    if isDirect c then
      if inner && (c = ' ' || pending.isEmpty) && lineWidth < p.column + pending.length then
        let p := (p.put (String.ofList pending.reverse)).breakDouble indent (some c)
        putDoubleChars p indent split [c] false cs
      else putDoubleChars p indent split (c :: pending) false cs
    else
      let p := (p.put (String.ofList pending.reverse)).put (escapeText c)
      let p := if inner && lineWidth + 1 < p.column then p.breakDouble indent cs.head? else p
      putDoubleChars p indent split [] false cs

/-- Writes a double-quoted scalar. -/
def Pen.putDouble (p : Pen) (indent : Nat) (split : Bool) (cs : List Char) : Pen :=
  ((p.indicator "\"" true false false).putDoubleChars indent split [] true cs).indicator "\""
    false false false

/-! ### Literal blocks -/

/-- The hints behind the sign of a block: an indentation if the text starts with a space or a
break, and what becomes of the breaks at its end. -/
def blockHints (cs : List Char) : String :=
  let start := if cs.head?.any fun c => c = ' ' || isWrittenBreak c then "2" else ""
  let ending := match cs.reverse with
    | [] => ""
    | [c] => if isWrittenBreak c then "+" else "-"
    | c :: d :: _ => if !isWrittenBreak c then "-" else if isWrittenBreak d then "+" else ""
  start ++ ending

/-- Writes the runs of a block; `fresh` tells whether a line has just been broken. -/
def Pen.putBlockRuns (p : Pen) (indent : Nat) : List (Bool × List Char) → Pen
  | [] => p
  | (true, cs) :: rs =>
    let p := cs.foldl Pen.lineBreak p
    putBlockRuns p indent rs
  | (false, cs) :: rs =>
    let p := p.toIndent indent
    let p := { p with written := p.written ++ String.ofList cs }
    putBlockRuns (if rs.isEmpty then p.lineBreak '\n' else p) indent rs

/-- Lines and breaks between them. -/
def lineRuns (cs : List Char) : List (Bool × List Char) :=
  cs.foldr (fun c rs => match rs with
    | (k, run) :: rest =>
      if isWrittenBreak c = k then (k, c :: run) :: rest
      else (isWrittenBreak c, [c]) :: (k, run) :: rest
    | [] => [(isWrittenBreak c, [c])]) []

/-- Writes a literal block. -/
def Pen.putBlock (p : Pen) (indent : Nat) (cs : List Char) : Pen :=
  let hints := blockHints cs
  let p := p.indicator ("|" ++ hints) true false false
  let p := if hints.toList.getLast? = some '+' then { p with openEnded := true } else p
  (p.lineBreak '\n').putBlockRuns indent (lineRuns cs)

end Yaml

end PlainSchema
