/-
PlainSchema/Yaml/Token/Property.lean

Anchors, aliases, tags and directives.
-/
import PlainSchema.Text.Utf8
import PlainSchema.Yaml.Cursor
import PlainSchema.Yaml.Token

namespace PlainSchema

namespace Yaml

/-- The name of an anchor or alias, whose sign is at the place. -/
def anchorName (c : Cursor) : Except Fault (String × Cursor) :=
  let (name, c) := c.next.run isNameChar
  let ends := isGap c.peek || ['?', ':', ',', ']', '\x7d', '%', '@', '\x60'].contains c.peek
  if name.isEmpty || !ends then .error .malformed else .ok (String.ofList name, c)

/-! ### Tags -/

/-- Whether the character may stand in a tag. -/
def isTagChar (c : Char) : Bool :=
  c.isAlphanum || "-;/?:@&=+$,_.!~*'()[]%".toList.contains c

/-- The octets that a run of percent signs names, and the place after it. -/
def escapedOctets : Nat → Cursor → Except Fault (List UInt8 × Cursor)
  | 0, _ => .error .malformed
  | bound + 1, c =>
    if c.peek = '%' then do
      let code := c.next.rest.take 2
      if code.length = 2 && code.all isHexDigit then
        let (more, c) ← escapedOctets bound (c.forward 3)
        return (UInt8.ofNat (hexNumber code) :: more, c)
      else throw .malformed
    else .ok ([], c)

/-- The characters of a tag at the place, which may be none. -/
def tagChars : Nat → Cursor → Except Fault (List Char × Cursor)
  | 0, _ => .error .malformed
  | bound + 1, c => do
    let (cs, c) := c.run fun ch => isTagChar ch && ch ≠ '%'
    if c.peek = '%' then
      let (octets, c) ← escapedOctets (c.left + 1) c
      match Text.decodeUtf8 octets with
      | .error _ => throw .malformed
      | .ok decoded =>
        let (more, c) ← tagChars bound c
        return (cs ++ decoded ++ more, c)
    else return (cs, c)

/-- The characters of a tag at the place. -/
def tagText (c : Cursor) : Except Fault (String × Cursor) := do
  let start := c.peek
  let (cs, c) ← tagChars (c.left + 1) c
  if isTagChar start then return (String.ofList cs, c) else throw .malformed

/-- The handle of a tag, whose first sign is at the place: one exclamation mark, or a name between
two of them. -/
def tagHandle (c : Cursor) : Except Fault (String × Cursor) :=
  if c.peek ≠ '!' then .error .malformed
  else if c.peekAt 1 = ' ' then .ok ("!", c.next)
  else
    let (name, after) := c.next.run isNameChar
    if after.peek = '!' then .ok (String.ofList ('!' :: name ++ ['!']), after.next)
    else .error .malformed

/-- The tag whose sign is at the place. -/
def tag (c : Cursor) : Except Fault (Token × Cursor) := do
  let ch := c.peekAt 1
  let (token, c) ←
    if ch = '<' then do
      let (suffix, c) ← tagText (c.forward 2)
      if c.peek ≠ '>' then throw .malformed
      pure (Token.tag none suffix, c.next)
    else if isGap ch then pure (Token.tag none "!", c.next)
    else do
      let word := c.next.rest.takeWhile fun ch => !isSpaceOrBreak ch
      let (handle, c) ← if word.contains '!' then tagHandle c else pure ("!", c.next)
      let (suffix, c) ← tagText c
      pure (Token.tag (some handle) suffix, c)
  if isSpaceOrBreak c.peek then return (token, c) else throw .malformed

/-! ### Directives -/

/-- The digits of a version number. -/
def versionNumber (c : Cursor) : Except Fault (Nat × Cursor) :=
  let (ds, c) := c.run Char.isDigit
  if ds.isEmpty then .error .malformed
  else if Text.digitLimit < ds.length then .error (.integer (.tooLong ds.length))
  else .ok (ds.foldl (fun n d => n * 10 + (d.toNat - '0'.toNat)) 0, c)

/-- The version behind its name. -/
def versionDirective (c : Cursor) : Except Fault (Directive × Cursor) := do
  let (major, c) ← versionNumber (c.skip (· = ' '))
  if c.peek ≠ '.' then throw .malformed
  let (_, c) ← versionNumber c.next
  if isSpaceOrBreak c.peek then return (.version major, c) else throw .malformed

/-- The handle and the start of a tag behind the name. -/
def tagDirective (c : Cursor) : Except Fault (Directive × Cursor) := do
  let (handle, c) ← tagHandle (c.skip (· = ' '))
  if c.peek ≠ ' ' then throw .malformed
  let (start, c) ← tagText (c.skip (· = ' '))
  if isSpaceOrBreak c.peek then return (.tag handle start, c) else throw .malformed

/-- The directive whose sign is at the place, with the rest of its line. -/
def directive (c : Cursor) : Except Fault (Directive × Cursor) := do
  let (name, c) := c.next.run isNameChar
  if name.isEmpty || !isSpaceOrBreak c.peek then throw .malformed
  let (d, c) ←
    if name = "YAML".toList then versionDirective c
    else if name = "TAG".toList then tagDirective c
    else pure (.other, c.skipLine)
  let c := c.skip (· = ' ')
  let c := if c.peek = '#' then c.skipLine else c
  if isBreakOrEnd c.peek then return (d, (c.lineBreak?.map Prod.snd).getD c)
  else throw .malformed

end Yaml

end PlainSchema
