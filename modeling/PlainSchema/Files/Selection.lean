/-
PlainSchema/Files/Selection.lean

The files below a directory that patterns select, in the order of their paths: by
the first part that differs, so that all of `a/` stands before `a-b`.

A pattern selects step by step.  A `Spot` is a place in the tree together with the
way to it from the directory; the way keeps two dots as they are written in the
pattern.
-/
import PlainSchema.Failure
import PlainSchema.Files.Tree

namespace PlainSchema

/-- A place below a directory, and the parts of the way to it from there. -/
structure Spot where
  place : Place
  way : List String
  deriving DecidableEq, Repr

/-- The spot one part further. -/
def Spot.enter (s : Spot) (part : String) : Spot :=
  ⟨if part = ".." then s.place.dropLast else s.place ++ [part], s.way ++ [part]⟩

namespace FileTree

/-- The spots of a directory and of all directories below it. -/
def directoriesFrom (t : FileTree) (s : Spot) : List Spot :=
  s :: (t.directoriesBelow s.place).map fun place =>
    ⟨place, s.way ++ place.drop s.place.length⟩

/-- Whether a spot can be the end of a pattern, or the start of what is left of it. -/
def admits (t : FileTree) (left : Pattern) (s : Spot) : Bool :=
  if left.isEmpty then (t.at? s.place).isSome else t.isDirectoryAt s.place

/-- What a pattern selects from the directory at a spot. -/
def select (t : FileTree) : Pattern → Spot → List Spot
  | [], s => [s]
  | .slash :: _, s => [s]
  | .name part :: left, s =>
    if t.admits left (s.enter part) then t.select left (s.enter part) else []
  | .names wildcard :: left, s =>
    (t.namesIn s.place).flatMap fun part =>
      if wildcard.accepts part.toList && t.admits left (s.enter part)
      then t.select left (s.enter part) else []
  | .anyDepth :: left, s => (t.directoriesFrom s).flatMap (t.select left)

/-- The first spot at which a pattern asks for a name that is too long, if it comes so far. -/
def overlong? (t : FileTree) (s : Spot) : Pattern → Pattern → Option Spot
  | _, [] => none
  | before, .name part :: left =>
    if isTooLong part then ((t.select (before ++ [.slash]) s).map (·.enter part)).head?
    else t.overlong? s (before ++ [.name part]) left
  | before, segment :: left => t.overlong? s (before ++ [segment]) left

/-- What the text of a pattern selects from the directory at a path; nothing if none is there.
A name in a pattern can be too long.  The limit on the octets of a whole path is left out here:
what a pattern comes to is taken to lie within it. -/
def glob (t : FileTree) (directory : Path) (text : String) : Except StrayFault (List Spot) :=
  match Pattern.ofText text with
  | .error e => .error (.pattern e)
  | .ok pattern =>
    match t.find? directory with
    | .error e => .error (.file e)
    | .ok (some .directory) =>
      match t.place directory with
      | .error e => .error (.file e)
      | .ok place =>
        match t.overlong? ⟨place, []⟩ [] pattern with
        | some s => .error (.file (.refused .nameTooLong (directory.join ⟨.here, s.way⟩)))
        | none => .ok (t.select pattern ⟨place, []⟩)
    | .ok _ => .ok []

/-- What the texts of several patterns select. -/
def globAll (t : FileTree) (directory : Path) : List String → Except StrayFault (List Spot)
  | [] => .ok []
  | text :: texts =>
    match t.glob directory text with
    | .error e => .error e
    | .ok spots => (t.globAll directory texts).map (spots ++ ·)

/-- The ways to the files that patterns select from the directory at a path, each once, in order. -/
def discover (t : FileTree) (directory : Path) (patterns : List String) :
    Except StrayFault (List Path) :=
  (t.globAll directory patterns).map fun spots =>
    let ways := ((spots.filter fun s => t.isFileAt s.place).map Spot.way).eraseDups
    (ways.mergeSort fun v w => !decide (w < v)).map fun way => ⟨.here, way⟩

end FileTree

end PlainSchema
