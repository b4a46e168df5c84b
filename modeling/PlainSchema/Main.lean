/-
PlainSchema/Main.lean

The program on the files of the system.  It takes a picture of the files that a call
reaches, runs the call on the picture, and makes the changes that come out of it.
-/
import PlainSchema.CommandLine.Reach
import PlainSchema.Files.Change

open PlainSchema

/-- The text of a place. -/
def placeText (place : Place) : String := (Path.absolute place).text

/-- The entry of the system at a place, without what a directory holds. -/
def entryAt (place : Place) : IO (Option Entry) := do
  let path := (← IO.currentDir) / placeText place
  try
    match (← path.metadata).type with
    | .dir => return some .directory
    | .file => return some (.file (← IO.FS.readBinFile path).toList)
    | _ => return none
  catch _ => return none

/-- A tree with the entry of the system at a place. -/
def withEntry (t : FileTree) (place : Place) : IO FileTree := do
  if place.isEmpty then return t
  match ← entryAt place with
  | none => return t
  | some e => return t.put place e

/-- A tree with everything of the system at and below a place. -/
partial def withAll (t : FileTree) (place : Place) : IO FileTree := do
  let mut t ← withEntry t place
  if t.isDirectoryAt place then
    for e in ← ((← IO.currentDir) / placeText place).readDir do
      t ← withAll t (place ++ [e.fileName])
  return t

/-- A tree with everything on the way along a path. -/
def withPath (t : FileTree) (p : Path) : IO FileTree := do
  let mut t := t
  for n in List.range (p.parts.length + 1) do
    let place := Path.resolve t.current ⟨p.anchor, p.parts.take n⟩
    for k in List.range (place.length + 1) do
      t ← withEntry t (place.take k)
  return t

/-- A picture of the current directory, of paths, and of directories with all that is below. -/
def picture (paths directories : List Path) : IO FileTree := do
  let current := (Path.ofText (← IO.currentDir).toString).parts
  let mut t ← withPath ⟨[], current⟩ (.absolute current)
  for p in paths ++ directories do
    t ← withPath t p
  for p in directories do
    t ← withAll t (p.resolve current)
  return t

/-- The picture that a call needs. -/
def pictureFor (args : List String) : IO FileTree := do
  match CommandLine.readCall args with
  | .error _ => picture [] []
  | .ok call =>
    let named := CommandLine.namedPaths call.request
    let settings ← picture named []
    picture named (CommandLine.directoriesOf settings call.request)

/-- Makes a change. -/
def makeChange (c : Change) : IO Unit := do
  let path := (← IO.currentDir) / placeText c.place
  match c.entry with
  | some .directory => IO.FS.createDir path
  | some (.file octets) => IO.FS.writeBinFile path octets.toByteArray
  | none => IO.FS.removeFile path

/-- Runs the program. -/
def main (args : List String) : IO UInt32 := do
  let old ← pictureFor args
  let report := @CommandLine.run .written old args
  for c in old.changes report.tree do
    makeChange c
  (← IO.getStdout).putStr report.output
  (← IO.getStderr).putStr report.errors
  match report.status with
  | .ok n => return UInt32.ofNat n
  | .error fault =>
    (← IO.getStderr).putStr (fault.message ++ "\n")
    return 1
