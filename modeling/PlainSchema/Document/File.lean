/-
PlainSchema/Document/File.lean

Documents in files.  The name of a file tells its format; its octets are UTF-8.  A
fault of reading names the file, a fault of writing names it too.
-/
import PlainSchema.Document.Text
import PlainSchema.Files.Tree

namespace PlainSchema

/-- A text in which every line ends in a line feed alone. -/
def unifiedBreaks : List Char → List Char
  | '\r' :: '\n' :: cs => '\n' :: unifiedBreaks cs
  | '\r' :: cs => '\n' :: unifiedBreaks cs
  | c :: cs => c :: unifiedBreaks cs
  | [] => []

/-- The characters of octets. -/
def textOf (octets : List UInt8) : Except StrayFault (List Char) :=
  match Text.decodeUtf8 octets with
  | .error e => .error (.encoding e)
  | .ok cs => .ok (unifiedBreaks cs)

namespace Document

/-- A fault of the file at a path, as a failure to read a document. -/
def unreadable (p : Path) : FileFault → Failure
  | .nul => .stray (.file .nul)
  | e => .document (.unreadable p e)

/-- A fault of the file at a path, as a failure to write a document. -/
def unwritable (p : Path) : FileFault → Failure
  | .nul => .stray (.file .nul)
  | e => .document (.unwritable p e)

/-- A failure to parse what is in the file at a path. -/
def inFile (p : Path) : Failure → Failure
  | .cleaning (.document e) => .document (.inFile p e)
  | e => e

/-- The document that the octets of the file at a path hold. -/
def ofOctets (p : Path) (octets : List UInt8) : Except Failure Node :=
  match textOf octets with
  | .error e => .error (.stray e)
  | .ok cs => (parse (.ofPath p) cs).mapError (inFile p)

/-- The document in the file at a path. -/
def read (t : FileTree) (p : Path) : Except Failure Node :=
  match t.read p with
  | .error e => .error (unreadable p e)
  | .ok octets => ofOctets p octets

/-- Puts a text into the file at a path and makes the directories on the way to it. -/
def store (t : FileTree) (p : Path) (text : List Char) : FileTree × Except Failure Unit :=
  match t.makeDirectories p.parent with
  | (t, .error e) => (t, .error (unwritable p e))
  | (t, .ok ()) =>
    match t.write p (Text.encodeUtf8 text) with
    | .error e => (t, .error (unwritable p e))
    | .ok t => (t, .ok ())

/-- Writes a document to the file at a path and makes the directories on the way to it. -/
def write [SetOrder] (t : FileTree) (p : Path) (n : Node) : FileTree × Except Failure Unit :=
  match render (.ofPath p) n with
  | .error e => (t, .error e)
  | .ok text => store t p text

end Document

end PlainSchema
