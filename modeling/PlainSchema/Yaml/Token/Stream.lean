/-
PlainSchema/Yaml/Token/Stream.lean

The tokens of a whole text.  A key is known to be one only at its colon, which may
follow up to 1024 characters later on the same line; until then its place among the
tokens is remembered, one for each level of flow brackets.  Outside of brackets the
columns of the lines open and close block collections.

A token is certain once no key can start in front of it any more.  Where the text has
a fault, the tokens that are certain by then still count: what they say wrong comes
before the fault.
-/
import PlainSchema.Yaml.Token.Property
import PlainSchema.Yaml.Token.Scalar

namespace PlainSchema

namespace Yaml

/-- A place where a key may have started. -/
structure PossibleKey where
  /-- How many tokens stand in front of it. -/
  token : Nat
  /-- Whether what starts here must be a key. -/
  required : Bool
  index : Nat
  line : Nat
  column : Nat

/-- What is known between two tokens. -/
structure Lexer where
  cursor : Cursor
  /-- The tokens so far, the last one first. -/
  tokens : List Token
  /-- How many tokens there are. -/
  count : Nat
  /-- The column of the innermost block collection, and those of the outer ones. -/
  indent : Int
  outer : List Int
  flowLevel : Nat
  /-- Whether a key may start at the place. -/
  keyAllowed : Bool
  /-- The possible keys by level, the innermost first. -/
  keys : List (Nat × PossibleKey)

namespace Lexer

/-- The start of a text. -/
def start (text : List Char) : Lexer := ⟨.start text, [], 0, -1, [], 0, true, []⟩

/-- The lexer with another token. -/
def emit (l : Lexer) (t : Token) : Lexer := { l with tokens := t :: l.tokens, count := l.count + 1 }

/-- The lexer with another token behind the first `place` tokens. -/
def insertToken (l : Lexer) (place : Nat) (t : Token) : Lexer :=
  let behind := l.count - place
  { l with tokens := l.tokens.take behind ++ t :: l.tokens.drop behind, count := l.count + 1 }

/-- The lexer some characters on. -/
def forward (l : Lexer) (n : Nat) : Lexer := { l with cursor := l.cursor.forward n }

/-! ### Possible keys -/

/-- Whether the colon of a key can no longer come. -/
def isStale (l : Lexer) (key : PossibleKey) : Bool :=
  key.line ≠ l.cursor.line || 1024 < l.cursor.index - key.index

/-- Forgets the keys whose colon can no longer come. -/
def dropStale (l : Lexer) : Except Fault Lexer :=
  if l.keys.any fun k => l.isStale k.2 && k.2.required then .error .malformed
  else .ok { l with keys := l.keys.filter fun k => !l.isStale k.2 }

/-- How many tokens are certain: those in front of every place where a key may still start. -/
def certain (l : Lexer) : Nat :=
  l.keys.foldl (fun n k => if l.isStale k.2 then n else min n k.2.token) l.count

/-- The tokens that are certain, in order. -/
def certainTokens (l : Lexer) : List Token := (l.tokens.drop (l.count - l.certain)).reverse

/-- Forgets the possible key of this level. -/
def dropKey (l : Lexer) : Except Fault Lexer :=
  if l.keys.any fun k => k.1 = l.flowLevel && k.2.required then .error .malformed
  else .ok { l with keys := l.keys.filter fun k => k.1 ≠ l.flowLevel }

/-- Remembers that a key may start here. -/
def saveKey (l : Lexer) : Except Fault Lexer :=
  if l.keyAllowed then do
    let required := l.flowLevel = 0 && l.indent = (l.cursor.column : Int)
    let l ← l.dropKey
    let key := ⟨l.count, required, l.cursor.index, l.cursor.line, l.cursor.column⟩
    return { l with keys := (l.flowLevel, key) :: l.keys }
  else .ok l

/-! ### Indentation -/

/-- Closes the block collections that are further in than a column. -/
def unwind (l : Lexer) (column : Int) : Lexer :=
  if l.flowLevel ≠ 0 then l else go l.outer l
where
  /-- Closes one collection after the other. -/
  go : List Int → Lexer → Lexer
    | [], l => l
    | i :: outer, l =>
      if column < l.indent then go outer { l.emit .blockEnd with indent := i, outer := outer }
      else l

/-- Opens a block collection at a column that is further in, by inserting its token at a place. -/
def open? (l : Lexer) (column : Nat) (place : Nat) (t : Token) : Lexer :=
  if l.indent < (column : Int) then
    { l.insertToken place t with outer := l.indent :: l.outer, indent := column }
  else l

/-! ### Tokens -/

/-- The place of the next token: behind blanks, comments and line breaks. -/
def toToken : Nat → Lexer → Lexer
  | 0, l => l
  | bound + 1, l =>
    let c := l.cursor.skip (· = ' ')
    let c := if c.peek = '#' then c.skipLine else c
    match c.lineBreak? with
    | none => { l with cursor := c }
    | some (_, c) => toToken bound { l with cursor := c, keyAllowed := l.keyAllowed || l.flowLevel = 0 }

/-- Ends all block collections, in front of a directive or a document marker. -/
def leaveBlocks (l : Lexer) : Except Fault Lexer := do
  let l ← (l.unwind (-1)).dropKey
  return { l with keyAllowed := false }

/-- The lexer after the start of a flow collection. -/
def openFlow (l : Lexer) (t : Token) : Except Fault Lexer := do
  let l ← l.saveKey
  return { (l.forward 1).emit t with flowLevel := l.flowLevel + 1, keyAllowed := true }

/-- The lexer after the end of a flow collection. -/
def closeFlow (l : Lexer) (t : Token) : Except Fault Lexer := do
  let l ← l.dropKey
  if l.flowLevel = 0 then throw .malformed
  return { (l.forward 1).emit t with flowLevel := l.flowLevel - 1, keyAllowed := false }

/-- The lexer after an indicator that may open a block collection. -/
def indicator (l : Lexer) (opening : Token) (t : Token) (keyAfter : Bool) : Except Fault Lexer := do
  let l ←
    if l.flowLevel = 0 then
      if l.keyAllowed then pure (l.open? l.cursor.column l.count opening)
      else throw .malformed
    else pure l
  let l ← { l with keyAllowed := keyAfter }.dropKey
  return (l.forward 1).emit t

/-- The lexer after a colon. -/
def colon (l : Lexer) : Except Fault Lexer := do
  match l.keys.find? fun k => k.1 = l.flowLevel with
  | some (_, key) =>
    let l := { l.insertToken key.token .key with
      keys := l.keys.filter fun k => k.1 ≠ l.flowLevel
      keyAllowed := false }
    let l := if l.flowLevel = 0 then l.open? key.column key.token .blockMappingStart else l
    return (l.forward 1).emit .value
  | none => l.indicator .blockMappingStart .value (l.flowLevel = 0)

/-- The lexer after a token that may be the start of a key. -/
def property (l : Lexer) (scan : Cursor → Except Fault (Token × Cursor)) : Except Fault Lexer := do
  let l ← l.saveKey
  let (t, c) ← scan l.cursor
  return { l.emit t with cursor := c, keyAllowed := false }

/-- The lexer after the next token, of which the cursor is in front. -/
def step (l : Lexer) : Except Fault Lexer := do
  let l ← l.dropStale
  let l := l.unwind l.cursor.column
  let c := l.cursor
  let ch := c.peek
  let gapAfter := isGap (c.peekAt 1)
  let flow := l.flowLevel ≠ 0
  if ch = '%' && c.column = 0 then
    let l ← l.leaveBlocks
    let (d, c) ← directive c
    return { l.emit (.directive d) with cursor := c }
  if c.column = 0 && c.atMarker then
    let l ← l.leaveBlocks
    return (l.forward 3).emit (if ch = '-' then .documentStart else .documentEnd)
  match ch with
  | '[' => l.openFlow .flowSequenceStart
  | '\x7b' => l.openFlow .flowMappingStart
  | ']' => l.closeFlow .flowSequenceEnd
  | '\x7d' => l.closeFlow .flowMappingEnd
  | ',' =>
    let l ← { l with keyAllowed := true }.dropKey
    return (l.forward 1).emit .flowEntry
  | '*' => l.property fun c => (anchorName c).map fun (n, c) => (.alias n, c)
  | '&' => l.property fun c => (anchorName c).map fun (n, c) => (.anchor n, c)
  | '!' => l.property tag
  | '\'' => l.property fun c => (quotedScalar false c).map fun (codes, c) => (quoted codes, c)
  | '"' => l.property fun c => (quotedScalar true c).map fun (codes, c) => (quoted codes, c)
  | _ =>
    if ch = '-' && gapAfter then l.indicator .blockSequenceStart .blockEntry true
    else if ch = '?' && (flow || gapAfter) then l.indicator .blockMappingStart .key (!flow)
    else if ch = ':' && (flow || gapAfter) then l.colon
    else if (ch = '|' || ch = '>') && !flow then
      let l ← { l with keyAllowed := true }.dropKey
      let (s, c) ← blockScalar (ch = '>') l.indent c
      return { l.emit (.scalar (String.ofList s) false) with cursor := c }
    else if isPlainStart flow ch gapAfter then
      let l ← l.saveKey
      let (s, c, broke) := plainScalar flow l.indent c
      return { l.emit (.scalar (String.ofList s) true) with cursor := c, keyAllowed := broke }
    else throw .malformed
where
  /-- The token for the codes of a scalar in quotes. -/
  quoted (codes : List Text.Code) : Token :=
    match Text.whole? codes with
    | some cs => .scalar (String.ofList cs) false
    | none => .torn codes
  /-- Whether a plain scalar may start with the character. -/
  isPlainStart (flow : Bool) (ch : Char) (gapAfter : Bool) : Bool :=
    if isGap ch then false
    else if ch = '-' then !gapAfter
    else if ch = '?' || ch = ':' then !gapAfter && !flow
    else !("\x2c[]\x7b\x7d#&*!|>'\"%@\x60".toList.contains ch)

/-- The tokens up to the end of the text, or those that are certain where the first fault is met. -/
def finish : Nat → Lexer → Tokens
  | 0, l => ⟨l.certainTokens, some .malformed⟩
  | bound + 1, l =>
    let next := l.toToken (l.cursor.left + 1)
    if next.cursor.rest.isEmpty then
      match next.dropStale >>= leaveBlocks with
      | .ok l => ⟨l.tokens.reverse, none⟩
      | .error e => ⟨l.certainTokens, some e⟩
    else
      match next.step with
      | .ok l => finish bound l
      | .error e => ⟨l.certainTokens, some e⟩

end Lexer

/-- The tokens of a text. -/
def Tokens.ofText (text : List Char) : Tokens :=
  if text.all isAllowed then
    let start := Lexer.start text
    -- A byte order mark in front is no part of the document.
    let start := if start.cursor.peek = '\ufeff' then start.forward 1 else start
    start.finish (text.length + 1)
  else ⟨[], some .malformed⟩

end Yaml

end PlainSchema
