/-
PlainSchema/Files/Tree.lean

A tree of files and the directory from which relative paths are followed.  The tree
is the list of what lies below its root, each under its place: the names of the
directories on the way to it and its own name.  There are no links, so no file and no
directory has a second name, and a place names one thing.

`place` follows a path.  Every step but the last must lead to a directory, and two
dots lead to the directory above.  What changes the tree does so at one place
(`put`, `drop`); only `makeDirectories` can fail after it has changed something, and
answers with the tree as it left it.  A file that is opened to be written is written to
its end, since there is always room for it.
-/
import PlainSchema.Files.Fault
import PlainSchema.Text.Utf8

namespace PlainSchema

/-- What lies at a place. -/
inductive Entry where
  | directory
  | file (octets : List UInt8)
  deriving DecidableEq, Repr, Inhabited

/-- A place: the names that lead to it from the root. -/
abbrev Place := List String

/-- A tree of files without links, with room for more. -/
structure FileTree where
  entries : List (Place × Entry)
  /-- The place of the current directory. -/
  current : Place
  deriving Inhabited, Repr

namespace FileTree

/-! ### Places -/

/-- What lies at a place; the root is a directory. -/
def at? (t : FileTree) (place : Place) : Option Entry :=
  if place = [] then some .directory else (t.entries.find? fun e => e.1 = place).map Prod.snd

/-- Whether a directory lies at a place. -/
def isDirectoryAt (t : FileTree) (place : Place) : Bool := t.at? place = some .directory

/-- Whether a file lies at a place. -/
def isFileAt (t : FileTree) (place : Place) : Bool :=
  match t.at? place with
  | some (.file _) => true
  | _ => false

/-- Entries with one at a place, in the stead of the first one that is there. -/
def putEntry (place : Place) (entry : Entry) : List (Place × Entry) → List (Place × Entry)
  | [] => [(place, entry)]
  | e :: es => if e.1 = place then (place, entry) :: es else e :: putEntry place entry es

/-- The tree with an entry at a place, in the stead of the one that is there. -/
def put (t : FileTree) (place : Place) (entry : Entry) : FileTree :=
  { t with entries := putEntry place entry t.entries }

/-- The tree without the entry at a place. -/
def drop (t : FileTree) (place : Place) : FileTree :=
  { t with entries := t.entries.filter fun e => e.1 ≠ place }

theorem find?_putEntry (place place' : Place) (entry : Entry) (es : List (Place × Entry)) :
    (putEntry place entry es).find? (fun e => e.1 = place') =
      if place = place' then some (place, entry) else es.find? (fun e => e.1 = place') := by
  induction es with
  | nil => by_cases h : place = place' <;> simp [putEntry, h]
  | cons e es ih =>
    by_cases he : e.1 = place
    · by_cases h : place = place' <;> simp [putEntry, he, h]
    · by_cases h : place = place'
      · subst h
        simp [putEntry, he, ih]
      · simp only [putEntry, he, if_false, List.find?_cons, ih, h]

/-- Only the entry at the place is another one after `put`. -/
theorem at?_put (t : FileTree) {place : Place} (h : place ≠ []) (entry : Entry) (place' : Place) :
    (t.put place entry).at? place' = if place = place' then some entry else t.at? place' := by
  by_cases hp : place = place'
  · subst hp
    simp [at?, put, h, find?_putEntry]
  · by_cases hr : place' = []
    · simp [at?, hr, h]
    · simp [at?, put, hr, hp, find?_putEntry]

/-- Only the entry at the place is gone after `drop`. -/
theorem at?_drop (t : FileTree) {place : Place} (h : place ≠ []) (place' : Place) :
    (t.drop place).at? place' = if place = place' then none else t.at? place' := by
  by_cases hr : place' = []
  · simp [at?, hr, h]
  · by_cases hp : place = place'
    · subst hp
      simp [at?, drop, h]
    · simp only [at?, drop, hr, hp, if_false, List.find?_filter]
      congr 1
      refine congrArg (List.find? · t.entries) (funext fun e => ?_)
      by_cases he : e.1 = place' <;> simp [he, Ne.symm hp]

/-- The names of what lies directly in the directory at a place. -/
def namesIn (t : FileTree) (place : Place) : List String :=
  t.entries.filterMap fun e =>
    if e.1 ≠ [] && e.1.dropLast = place then e.1.getLast? else none

/-- The places of the directories below a place. -/
def directoriesBelow (t : FileTree) (place : Place) : List Place :=
  t.entries.filterMap fun e =>
    if e.2 = .directory && place.isPrefixOf e.1 && e.1 ≠ place then some e.1 else none

/-! ### Following a path -/

/-- The most octets of a name. -/
def nameLimit : Nat := 255

/-- Whether a name has too many octets. -/
def isTooLong (name : String) : Bool := nameLimit < name.utf8ByteSize

/-- The most octets of the text of a path. -/
def pathLimit : Nat := 4095

/-- The place that parts of a path lead to from a place. -/
def follow (t : FileTree) : Place → List String → Except Refusal Place
  | here, [] => .ok here
  | here, part :: parts =>
    match t.at? here with
    | none => .error .missing
    | some (.file _) => .error .notDirectory
    | some .directory =>
      if part = ".." then t.follow here.dropLast parts
      else if isTooLong part then .error .nameTooLong
      else t.follow (here ++ [part]) parts

/-- The place that a path leads to. -/
def place (t : FileTree) (p : Path) : Except FileFault Place :=
  if p.hasNul then .error .nul
  else if pathLimit < p.text.utf8ByteSize then .error (.refused .nameTooLong p)
  else match t.follow (if p.isAbsolute then [] else t.current) p.parts with
    | .error why => .error (.refused why p)
    | .ok place => .ok place

/-- What a path leads to, or `none` if it leads nowhere.  A name that is too long is a fault. -/
def find? (t : FileTree) (p : Path) : Except FileFault (Option Entry) :=
  match t.place p with
  | .ok place => .ok (t.at? place)
  | .error (.refused .nameTooLong q) => .error (.refused .nameTooLong q)
  | .error _ => .ok none

/-! ### Files -/

/-- The octets of a file. -/
def read (t : FileTree) (p : Path) : Except FileFault (List UInt8) :=
  match t.place p with
  | .error e => .error e
  | .ok place =>
    match t.at? place with
    | none => .error (.refused .missing p)
    | some .directory => .error (.refused .isDirectory p)
    | some (.file octets) => .ok octets

/-- Writes a file, a new one or in the stead of the one at the path. -/
def write (t : FileTree) (p : Path) (octets : List UInt8) : Except FileFault FileTree :=
  match t.place p with
  | .error e => .error e
  | .ok place =>
    match t.at? place with
    | some .directory => .error (.refused .isDirectory p)
    | _ => .ok (t.put place (.file octets))

/-- Removes a file. -/
def remove (t : FileTree) (p : Path) : Except FileFault FileTree :=
  match t.place p with
  | .error e => .error e
  | .ok place =>
    match t.at? place with
    | none => .error (.refused .missing p)
    | some .directory => .error (.refused .isDirectory p)
    | some (.file _) => .ok (t.drop place)

/-! ### Directories -/

/-- Makes a directory in a directory. -/
def makeDirectory (t : FileTree) (p : Path) : Except FileFault FileTree :=
  match t.place p with
  | .error e => .error e
  | .ok place =>
    match t.at? place with
    | some _ => .error (.refused .taken p)
    | none => .ok (t.put place .directory)

/-- Whether a path leads to a directory, as far as the tree can tell. -/
def leadsToDirectory (t : FileTree) (p : Path) : Bool :=
  match t.place p with
  | .ok place => t.isDirectoryAt place
  | .error _ => false

/-- Makes a directory unless it is there. -/
def ensureDirectory (t : FileTree) (p : Path) : Except FileFault FileTree :=
  match t.makeDirectory p with
  | .ok t => .ok t
  | .error e => if e ≠ .nul && t.leadsToDirectory p then .ok t else .error e

/-- Makes a directory and those on the way to it, unless they are there; the path is given by its
anchor and its parts. -/
def ensureParts (t : FileTree) (anchor : Anchor) (parts : List String) :
    FileTree × Except FileFault Unit :=
  match t.ensureDirectory ⟨anchor, parts⟩ with
  | .ok t => (t, .ok ())
  | .error (.refused .missing p) =>
    if h : parts = [] then (t, .error (.refused .missing p))
    else
      have : parts.dropLast.length < parts.length := by
        have := List.length_pos_iff.2 h
        simp only [List.length_dropLast]
        omega
      match t.ensureParts anchor parts.dropLast with
      | (t, .error e) => (t, .error e)
      | (t, .ok ()) =>
        match t.ensureDirectory ⟨anchor, parts⟩ with
        | .ok t => (t, .ok ())
        | .error e => (t, .error e)
  | .error e => (t, .error e)
termination_by parts.length

/-- Makes a directory and those on the way to it, unless they are there. -/
def makeDirectories (t : FileTree) (p : Path) : FileTree × Except FileFault Unit :=
  t.ensureParts p.anchor p.parts

end FileTree

end PlainSchema
