/-
PlainSchema/Batch.lean

Cleaning the documents in files: one of them (`cleanFile`), or all that patterns
select from a directory, each into the same place of another directory
(`cleanDirectory`).

A run answers with the tree as it leaves it, what it noted on the way, and its result
or the failure that ended it; a failure does not take back what was done before it.
Of the failures only those that are about one document can be skipped.
-/
import PlainSchema.Batch.Note
import PlainSchema.Document.File
import PlainSchema.Files.Selection
import PlainSchema.Settings

namespace PlainSchema

/-- What became of a document. -/
inductive Fate where
  /-- It was cleaned; its text, if it was not written to a file. -/
  | cleaned (text : Option (List Char))
  /-- Nothing of it is left. -/
  | pruned
  | failed (fault : CleaningFault)
  deriving Repr

/-- What became of the document in a file. -/
structure Outcome where
  input : Path
  output : Option Path
  fate : Fate
  deriving Repr

/-- The end of a run. -/
structure Run (α : Type) where
  tree : FileTree
  notes : List Note
  result : Except Failure α

namespace Batch

variable [SetOrder]

/-! ### One file -/

/-- Cleans the document in a file, and writes it to another file if one is given. -/
def cleanFile (t : FileTree) (input : Path) (output : Option Path) : Run Outcome :=
  match Document.read t input with
  | .error e => ⟨t, [], .error e⟩
  | .ok n =>
    let notes := (Schema.notedSplits n).map Note.split
    match Schema.cleanNoting n with
    | .error e => ⟨t, notes, .error (.ofObstacle e)⟩
    | .ok none => ⟨t, notes, .ok ⟨input, output, .pruned⟩⟩
    | .ok (some n) =>
      match output with
      | none =>
        ⟨t, notes, (Document.render (.ofPath input) n).map fun text =>
          ⟨input, none, .cleaned (some text)⟩⟩
      | some p =>
        let (t, written) := Document.write t p n
        ⟨t, notes, written.map fun () => ⟨input, some p, .cleaned none⟩⟩

/-! ### A directory -/

/-- What the cleaning of one document comes to in a batch.  A fault of the document ends the batch
or is skipped. -/
def settle (policy : Policy) (input output : Path) :
    Except Failure Outcome → List Note × Except Failure Outcome
  | .error (.cleaning fault) =>
    match policy with
    | .abort => ([], .error (.batch (.stopped input fault)))
    | .skip => ([.skipping input fault], .ok ⟨input, some output, .failed fault⟩)
  | result => ([], result)

/-- Removes the file that an earlier run left at a path. -/
def removeStale (t : FileTree) (output : Path) : Run Unit :=
  match t.find? output with
  | .error e => ⟨t, [], .error (.stray (.file e))⟩
  | .ok (some (.file _)) =>
    match t.remove output with
    | .error .nul => ⟨t, [], .error (.stray (.file .nul))⟩
    | .error e => ⟨t, [], .error (.batch (.notRemoved output e))⟩
    | .ok t => ⟨t, [.staleRemoved output], .ok ()⟩
  | .ok _ => ⟨t, [], .ok ()⟩

/-- What is left to do after a document: if nothing of it is left, no file may stand for it. -/
def afterwards (t : FileTree) (output : Path) (outcome : Outcome) : Run Outcome :=
  match outcome.fate with
  | .pruned =>
    let stale := removeStale t output
    ⟨stale.tree, .nothingLeft outcome.input :: stale.notes, stale.result.map fun () => outcome⟩
  | _ => ⟨t, [], .ok outcome⟩

/-- Cleans one document of a batch. -/
def cleanOne (s : Settings) (t : FileTree) (way : Path) : Run Outcome :=
  let input := s.rawDir.join way
  let output := s.cleanedDir.join way
  let run := cleanFile t input (some output)
  let (more, settled) := settle s.policy input output run.result
  let notes := Note.cleaning input output :: run.notes ++ more
  match settled with
  | .error e => ⟨run.tree, notes, .error e⟩
  | .ok outcome =>
    let rest := afterwards run.tree output outcome
    ⟨rest.tree, notes ++ rest.notes, rest.result⟩

/-- Cleans documents one after the other. -/
def cleanEach (s : Settings) : FileTree → List Path → Run (List Outcome)
  | t, [] => ⟨t, [], .ok []⟩
  | t, way :: ways =>
    let run := cleanOne s t way
    match run.result with
    | .error e => ⟨run.tree, run.notes, .error e⟩
    | .ok outcome =>
      let rest := cleanEach s run.tree ways
      ⟨rest.tree, run.notes ++ rest.notes, rest.result.map (outcome :: ·)⟩

/-- Cleans every document that the settings select. -/
def cleanDirectory (s : Settings) (t : FileTree) : Run (List Outcome) :=
  match t.find? s.rawDir with
  | .error e => ⟨t, [], .error (.stray (.file e))⟩
  | .ok (some .directory) =>
    match t.discover s.rawDir s.patterns with
    | .error e => ⟨t, [], .error (.stray e)⟩
    | .ok ways =>
      let run := cleanEach s t ways
      let notes := if ways.isEmpty then [.noDocuments s.patterns s.rawDir] else []
      ⟨run.tree, notes ++ run.notes, run.result⟩
  | .ok _ => ⟨t, [], .error (.batch (.noDirectory s.rawDir))⟩

end Batch

/-! ### Counting -/

/-- Whether the document was cleaned. -/
def Outcome.isCleaned (o : Outcome) : Bool :=
  match o.fate with
  | .cleaned _ => true
  | _ => false

/-- Whether nothing of the document is left. -/
def Outcome.isPruned (o : Outcome) : Bool :=
  match o.fate with
  | .pruned => true
  | _ => false

/-- Whether the document could not be cleaned. -/
def Outcome.isFailed (o : Outcome) : Bool :=
  match o.fate with
  | .failed _ => true
  | _ => false

end PlainSchema
