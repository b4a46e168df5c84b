/-
PlainSchema/Files/Path.lean

File paths as they are written.  Empty segments and single dots are left out; two
dots stay, since what they lead to is not known from the path alone.  A path that
starts with exactly two slashes keeps both.

`resolve` makes a path absolute and follows its two dots, for a tree of files in
which no directory has a second name.
-/
import PlainSchema.Text.Letter

namespace PlainSchema

/-- Where a path starts. -/
inductive Anchor where
  | here
  | root
  | doubleRoot
  deriving DecidableEq, Repr, Inhabited

/-- A file path. -/
structure Path where
  anchor : Anchor
  parts : List String
  deriving DecidableEq, Repr, Inhabited

namespace Path

/-- The parts of a text between slashes. -/
def betweenSlashes (cs : List Char) : List (List Char) :=
  cs.foldr (fun c parts => match parts with
    | part :: parts => if c = '/' then [] :: part :: parts else (c :: part) :: parts
    | [] => []) [[]]

/-- The path that a text stands for. -/
def ofText (text : String) : Path :=
  let cs := text.toList
  let anchor := match cs with
    | '/' :: '/' :: '/' :: _ => .root
    | '/' :: '/' :: _ => .doubleRoot
    | '/' :: _ => .root
    | _ => .here
  ⟨anchor, ((betweenSlashes cs).filter fun p => p ≠ [] && p ≠ ['.']).map String.ofList⟩

/-- The text of a path. -/
def text (p : Path) : String :=
  let body := "/".intercalate p.parts
  match p.anchor with
  | .here => if p.parts.isEmpty then "." else body
  | .root => "/" ++ body
  | .doubleRoot => "//" ++ body

/-- A path as seen from another one. -/
def join (p q : Path) : Path :=
  if q.anchor = .here then ⟨p.anchor, p.parts ++ q.parts⟩ else q

/-- The path without its last part, if it has one. -/
def parent (p : Path) : Path := ⟨p.anchor, p.parts.dropLast⟩

/-- The last part. -/
def name (p : Path) : String := p.parts.getLast?.getD ""

/-- Whether the path does not depend on the current directory. -/
def isAbsolute (p : Path) : Bool := p.anchor ≠ .here

/-- Whether the text of the path has a NUL character. -/
def hasNul (p : Path) : Bool := p.parts.any fun s => s.toList.contains '\x00'

/-- The end of the name from its last dot on, unless the dot is its first or last character. -/
def suffix (p : Path) : String :=
  let cs := p.name.toList
  let ending := cs.reverse.takeWhile (· ≠ '.')
  if ending.isEmpty || cs.length ≤ ending.length + 1 then ""
  else String.ofList ('.' :: ending.reverse)

/-- Follows two dots from the front on; above the root is the root. -/
def followDots (parts : List String) : List String :=
  parts.foldl (fun seen part => if part = ".." then seen.dropLast else seen ++ [part]) []

/-- The parts of the path from the root on, for a current directory given by its own. -/
def resolve (current : List String) (p : Path) : List String :=
  followDots (if p.isAbsolute then p.parts else current ++ p.parts)

/-- The absolute path with the given parts. -/
def absolute (parts : List String) : Path := ⟨.root, parts⟩

end Path

end PlainSchema
