/-
PlainSchema/Yaml/Token/Scalar.lean

The texts of scalars: in quotes, in blocks, and plain.  In all of them a line break
between two lines of text is a space, and of several breaks in a row the first is
left out; a literal block keeps its breaks.

Only an escape in quotes can name a half of a surrogate pair, so that only quoted
scalars are lists of codes.
-/
import PlainSchema.Text.Code
import PlainSchema.Yaml.Cursor
import PlainSchema.Yaml.Fault

namespace PlainSchema

namespace Yaml

/-- The text of breaks between two lines: a first plain break is a space, or nothing if more
breaks follow. -/
def folded (first : Char) (more : List Char) : List Char :=
  (if first ≠ '\n' then [first] else if more.isEmpty then [' '] else []) ++ more

/-! ### Quoted scalars -/

/-- The character that a letter stands for after a backslash. -/
def escaped? : Char → Option Char
  | '0' => some '\x00'
  | 'a' => some '\x07'
  | 'b' => some '\x08'
  | 't' => some '\t'
  | '\t' => some '\t'
  | 'n' => some '\n'
  | 'v' => some '\x0b'
  | 'f' => some '\x0c'
  | 'r' => some '\r'
  | 'e' => some '\x1b'
  | ' ' => some ' '
  | '"' => some '"'
  | '\\' => some '\\'
  | '/' => some '/'
  | 'N' => some '\x85'
  | '_' => some '\xa0'
  | 'L' => some '\u2028'
  | 'P' => some '\u2029'
  | _ => none

/-- The number of digits of a code after a letter. -/
def codeLength? : Char → Option Nat
  | 'x' => some 2
  | 'u' => some 4
  | 'U' => some 8
  | _ => none

/-- The code that a number names. -/
def codeOf (number : Nat) : Except Fault Text.Code :=
  if 0x110000 ≤ number then .error (.character number) else .ok (.ofNat number)

/-- The breaks of a quoted scalar: blanks and line breaks up to the next text. -/
def quotedBreaks : Nat → Cursor → Except Fault (List Char × Cursor)
  | 0, _ => .error .malformed
  | bound + 1, c =>
    if c.atMarker then .error .malformed
    else
      let c := c.skip fun ch => ch = ' ' || ch = '\t'
      match c.lineBreak? with
      | none => .ok ([], c)
      | some (b, c) => do
        let (more, c) ← quotedBreaks bound c
        return (b :: more, c)

/-- What stands between two runs of text in a quoted scalar. -/
def quotedSpaces (c : Cursor) : Except Fault (List Char × Cursor) := do
  let (blanks, c) := c.run fun ch => ch = ' ' || ch = '\t'
  match c.lineBreak? with
  | some (first, c) =>
    let (more, c) ← quotedBreaks (c.left + 1) c
    return (folded first more, c)
  | none => if c.rest.isEmpty then throw .malformed else return (blanks, c)

/-- The text from a backslash on, which is behind the place. -/
def quotedEscape (c : Cursor) : Except Fault (List Text.Code × Cursor) := do
  let ch := c.peek
  match escaped? ch, codeLength? ch with
  | some e, _ => return ([.char e], c.next)
  | none, some n =>
    let number := c.next.rest.take n
    if number.length = n && number.all isHexDigit then
      let e ← codeOf (hexNumber number)
      return ([e], c.next.forward n)
    else throw .malformed
  | none, none =>
    match c.lineBreak? with
    | some (_, c) =>
      let (breaks, c) ← quotedBreaks (c.left + 1) c
      return (breaks.map .char, c)
    | none => throw .malformed

/-- A run of text without blanks in a quoted scalar. -/
def quotedText (double : Bool) : Nat → Cursor → Except Fault (List Text.Code × Cursor)
  | 0, _ => .error .malformed
  | bound + 1, c => do
    let (cs, c) := c.run fun ch => !(ch = '\'' || ch = '"' || ch = '\\' || isGap ch)
    let codes := cs.map Text.Code.char
    let ch := c.peek
    if !double && ch = '\'' && c.peekAt 1 = '\'' then
      let (more, c) ← quotedText double bound (c.forward 2)
      return (codes ++ .char '\'' :: more, c)
    else if (double && ch = '\'') || (!double && (ch = '"' || ch = '\\')) then
      let (more, c) ← quotedText double bound c.next
      return (codes ++ .char ch :: more, c)
    else if double && ch = '\\' then
      let (e, c) ← quotedEscape c.next
      let (more, c) ← quotedText double bound c
      return (codes ++ e ++ more, c)
    else return (codes, c)

/-- Runs of text and blanks up to the closing quote. -/
def quotedRuns (double : Bool) (quote : Char) :
    Nat → Cursor → Except Fault (List Text.Code × Cursor)
  | 0, _ => .error .malformed
  | bound + 1, c => do
    let (codes, c) ← quotedText double (c.left + 1) c
    if c.peek = quote then return (codes, c.next)
    else
      let (blanks, c) ← quotedSpaces c
      let (more, c) ← quotedRuns double quote bound c
      return (codes ++ blanks.map .char ++ more, c)

/-- The scalar whose opening quote is at the place. -/
def quotedScalar (double : Bool) (c : Cursor) : Except Fault (List Text.Code × Cursor) :=
  quotedRuns double c.peek (c.left + 1) c.next

/-! ### Block scalars -/

/-- What becomes of the breaks at the end of a block. -/
inductive Chomping where
  | strip
  | clip
  | keep
  deriving DecidableEq

/-- The chomping that a sign asks for. -/
def chomping? : Char → Option Chomping
  | '+' => some .keep
  | '-' => some .strip
  | _ => none

/-- The indentation that a digit asks for. -/
def increment? (c : Char) : Except Fault (Option Nat) :=
  if c.isDigit then if c = '0' then .error .malformed else .ok (some (c.toNat - '0'.toNat))
  else .ok none

/-- The indicators behind the start of a block, in either order. -/
def blockIndicators (c : Cursor) : Except Fault (Chomping × Option Nat × Cursor) := do
  match chomping? c.peek with
  | some chomping =>
    let c := c.next
    match ← increment? c.peek with
    | some n => return (chomping, some n, c.next)
    | none => return (chomping, none, c)
  | none =>
    match ← increment? c.peek with
    | some n =>
      let c := c.next
      match chomping? c.peek with
      | some chomping => return (chomping, some n, c.next)
      | none => return (.clip, some n, c)
    | none => return (.clip, none, c)

/-- The place after the rest of a line that may hold a comment only. -/
def ignoredLine (c : Cursor) : Except Fault Cursor :=
  let c := c.skip (· = ' ')
  let c := if c.peek = '#' then c.skipLine else c
  if isBreakOrEnd c.peek then .ok ((c.lineBreak?.map Prod.snd).getD c) else .error .malformed

/-- The empty lines in front of a block and the greatest indentation among them and the first
line of text. -/
def blockIndentation : Nat → Nat → Cursor → List Char × Nat × Cursor
  | 0, widest, c => ([], widest, c)
  | bound + 1, widest, c =>
    if c.peek = ' ' then
      let c := c.next
      blockIndentation bound (max widest c.column) c
    else
      match c.lineBreak? with
      | none => ([], widest, c)
      | some (b, c) =>
        let (more, widest, c) := blockIndentation bound widest c
        (b :: more, widest, c)

/-- The place after spaces up to a column. -/
def skipIndent (indent : Nat) : Nat → Cursor → Cursor
  | 0, c => c
  | bound + 1, c =>
    if c.column < indent && c.peek = ' ' then skipIndent indent bound c.next else c

/-- The empty lines in front of a line of a block. -/
def blockBreaks (indent : Nat) : Nat → Cursor → List Char × Cursor
  | 0, c => ([], c)
  | bound + 1, c =>
    let c := skipIndent indent indent c
    match c.lineBreak? with
    | none => ([], c)
    | some (b, c) =>
      let (more, c) := blockBreaks indent bound c
      (b :: more, c)

/-- The lines of a block: their text, the last break, and the empty lines after it. -/
def blockLines (fold : Bool) (indent : Nat) : Nat → List Char → Cursor →
    List Char × List Char × List Char × Cursor
  | 0, breaks, c => ([], [], breaks, c)
  | bound + 1, breaks, c =>
    if c.column = indent && !c.rest.isEmpty then
      let leading := c.peek ≠ ' ' && c.peek ≠ '\t'
      let (cs, c) := c.run fun ch => !isBreakOrEnd ch
      let (last, c) := match c.lineBreak? with
        | some (b, c) => ([b], c)
        | none => ([], c)
      let (after, c) := blockBreaks indent (c.left + 1) c
      if c.column = indent && !c.rest.isEmpty then
        let joint :=
          if fold && last = ['\n'] && leading && c.peek ≠ ' ' && c.peek ≠ '\t' then
            if after.isEmpty then [' '] else []
          else last
        let (more, last, after, c) := blockLines fold indent bound after c
        (breaks ++ cs ++ joint ++ more, last, after, c)
      else (breaks ++ cs, last, after, c)
    else ([], [], breaks, c)

/-- The scalar whose block starts at the place, below a given indentation. -/
def blockScalar (fold : Bool) (outer : Int) (c : Cursor) : Except Fault (List Char × Cursor) := do
  let (chomping, increment, c) ← blockIndicators c.next
  if !isSpaceOrBreak c.peek then throw .malformed
  let c ← ignoredLine c
  let least := max (outer + 1).toNat 1
  let (indent, breaks, c) := match increment with
    | some n =>
      let indent := least + n - 1
      let (breaks, c) := blockBreaks indent (c.left + 1) c
      (indent, breaks, c)
    | none =>
      let (breaks, widest, c) := blockIndentation (c.left + 1) 0 c
      (max least widest, breaks, c)
  let (cs, last, after, c) := blockLines fold indent (c.left + 1) breaks c
  let tail := match chomping with
    | .strip => []
    | .clip => last
    | .keep => last ++ after
  return (cs ++ tail, c)

/-! ### Plain scalars -/

/-- The text at the front that a plain scalar can hold without a gap. -/
def plainRun (flow : Bool) : List Char → List Char
  | [] => []
  | c :: cs =>
    let next := cs.headD endMark
    let stops := isGap c
      || (c = ':' && (isGap next || (flow && [',', '[', ']', '\x7b', '\x7d'].contains next)))
      || (flow && [',', '?', '[', ']', '\x7b', '\x7d'].contains c)
    if stops then [] else c :: plainRun flow cs

/-- Spaces and line breaks in a plain scalar; `none` in front of a document marker. -/
def plainBreaks : Nat → Cursor → Option (List Char) × Cursor
  | 0, c => (none, c)
  | bound + 1, c =>
    if c.atMarker && c.column = 0 then (none, c)
    else
      let c := c.skip (· = ' ')
      match c.lineBreak? with
      | none => (some [], c)
      | some (b, c) =>
        let (more, c) := plainBreaks bound c
        (more.map (b :: ·), c)

/-- What stands between two runs of a plain scalar, and whether it breaks the line. -/
def plainSpaces (c : Cursor) : List Char × Cursor × Bool :=
  let (blanks, c) := c.run (· = ' ')
  match c.lineBreak? with
  | none => (blanks, c, false)
  | some (first, c) =>
    match plainBreaks (c.left + 1) c with
    | (none, c) => ([], c, true)
    | (some more, c) => (folded first more, c, true)

/-- The runs of a plain scalar, and whether it ends after a line break. -/
def plainRuns (flow : Bool) (indent : Int) : Nat → List Char → Bool → Cursor →
    List Char × Cursor × Bool
  | 0, _, broke, c => ([], c, broke)
  | bound + 1, spaces, broke, c =>
    if c.peek = '#' then ([], c, broke)
    else
      match plainRun flow c.rest with
      | [] => ([], c, broke)
      | cs =>
        let (after, c, broke) := plainSpaces (c.forward cs.length)
        if after.isEmpty || c.peek = '#' || (!flow && (c.column : Int) < indent) then
          (spaces ++ cs, c, broke)
        else
          let (more, c, broke) := plainRuns flow indent bound after broke c
          (spaces ++ cs ++ more, c, broke)

/-- The plain scalar at the place, and whether it ends after a line break. -/
def plainScalar (flow : Bool) (outer : Int) (c : Cursor) : List Char × Cursor × Bool :=
  plainRuns flow (outer + 1) (c.left + 1) [] false c

end Yaml

end PlainSchema
