/-
PlainSchema/Files/Pattern.lean

Patterns for the paths below a directory.  A pattern is written like a path: each of
its segments is the name of a file or directory, a wildcard for names, or two stars
for any number of directories.  A slash at its end asks for a directory.
-/
import PlainSchema.Files.Path
import PlainSchema.Files.Wildcard
import PlainSchema.Text.Quoted

namespace PlainSchema

/-- A segment of a pattern. -/
inductive Segment where
  | name (text : String)
  | names (wildcard : Wildcard)
  | anyDepth
  /-- The end of a pattern that asks for a directory. -/
  | slash
  deriving DecidableEq, Repr

/-- A pattern for the paths below a directory. -/
abbrev Pattern := List Segment

/-- Why a text is no pattern for paths. -/
inductive PatternFault where
  | empty
  | absolute
  /-- The text stands for the directory itself. -/
  | here
  /-- The text stands for the directory itself and ends in a slash. -/
  | hereSlash
  /-- Two stars are a part of a name. -/
  | starsInName
  deriving DecidableEq, Repr

/-- The text of the fault. -/
def PatternFault.message : PatternFault → String
  | empty => "Unacceptable pattern: " ++ Text.quoted ""
  | absolute => "Non-relative patterns are unsupported"
  | here => "tuple index out of range"
  | hereSlash => "'_TerminatingSelector' object has no attribute 'select_from'"
  | starsInName => "Invalid pattern: '**' can only be an entire path component"

namespace Pattern

/-- Whether a text has two stars in a row. -/
def hasTwoStars : List Char → Bool
  | '*' :: '*' :: _ => true
  | _ :: cs => hasTwoStars cs
  | [] => false

/-- Whether a character makes a name a wildcard. -/
def isWild (c : Char) : Bool := c = '*' || c = '?' || c = '['

/-- The segment that a part of a path stands for. -/
def segment (part : String) : Except PatternFault Segment :=
  if part = "**" then .ok .anyDepth
  else if hasTwoStars part.toList then .error .starsInName
  else if part.toList.any isWild then .ok (.names (.ofText part))
  else .ok (.name part)

/-- The segments that the parts of a path stand for. -/
def segments : List String → Except PatternFault (List Segment)
  | [] => .ok []
  | part :: parts =>
    match segment part with
    | .error e => .error e
    | .ok s => (segments parts).map (s :: ·)

/-- The pattern that a text stands for. -/
def ofText (text : String) : Except PatternFault Pattern :=
  let p := Path.ofText text
  let slash := text.toList.getLast? = some '/'
  if text = "" then .error .empty
  else if p.isAbsolute then .error .absolute
  else if p.parts = [] then .error (if slash then .hereSlash else .here)
  else (segments p.parts).map (· ++ if slash then [.slash] else [])

end Pattern

end PlainSchema
