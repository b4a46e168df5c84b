/-
PlainSchema/CommandLine.lean

The program as its user sees it: from the words of a call and a tree of files to the
tree that it leaves, what it prints, and how it ends.  It ends with 0 if it does what
it is asked, with 1 if it cannot, and with 2 if it is not called rightly; a stray
fault ends it without a number.
-/
import PlainSchema.Batch
import PlainSchema.CommandLine.Request
import PlainSchema.Settings.Reader
import PlainSchema.Text.Terminal

namespace PlainSchema

namespace CommandLine

variable [SetOrder]

/-- The end of a call. -/
structure Report where
  tree : FileTree
  output : String
  errors : String
  status : Except StrayFault Nat

/-- A text as it is printed. -/
def printed (s : String) : String := String.ofList (Text.withoutColours s.toList)

/-- A line as it is printed. -/
def line (s : String) : String := printed s ++ "\n"

/-- The lines of notes; those that matter least only if they are asked for. -/
def noteLines (verbose : Bool) (notes : List Note) : String :=
  String.join ((notes.filter fun n => verbose || n.level ≠ .debug).map Note.line)

/-- A report that ends with 0. -/
def done (t : FileTree) (output errors : String) : Report := ⟨t, output, errors, .ok 0⟩

/-- The report about a failure, after what is printed already. -/
def failing (t : FileTree) (output errors : String) : Failure → Report
  | .stray e => ⟨t, output, errors, .error e⟩
  | e => ⟨t, output, errors ++ line e.message, .ok 1⟩

/-! ### Misuse -/

/-- What is printed about a call that is wrong. -/
def usageText (c : Option Command) (fault : UsageFault) : String :=
  (if fault.showsUsage then usage c ++ "Try '" ++ callOf c ++ " -h' for help.\n\n" else "")
    ++ "Error: " ++ fault.message

/-- The report about a call that asks for nothing. -/
def misused (t : FileTree) : Misuse → Report
  | .wordless => ⟨t, "", helpText none, .ok 2⟩
  | .usage c fault => ⟨t, "", line (usageText c fault), .ok 2⟩
  | .nul => ⟨t, "", "", .error (.file .nul)⟩

/-! ### Commands -/

/-- Cleans one document. -/
def runClean (t : FileTree) (verbose : Bool) (input : String) (output : Option String) : Report :=
  let run := Batch.cleanFile t (Path.ofText input) (output.map Path.ofText)
  let notes := noteLines verbose run.notes
  match run.result with
  | .error e => failing run.tree "" notes e
  | .ok outcome =>
    match outcome.fate with
    | .cleaned (some text) => done run.tree (printed (String.ofList text)) notes
    | .cleaned none =>
      done run.tree (match outcome.output with
        | some p => line (Path.absolute (p.resolve t.current)).text
        | none => "") notes
    | _ =>
      done run.tree "" (notes ++ line (input ++ " cleaned to an empty document; nothing written"))

/-- The settings for a call: those of a file or the default ones, as far as the call does not say
otherwise. -/
def settingsFor (t : FileTree) (raw cleaned config : Option String) (keepGoing : Bool) :
    Except Failure Settings :=
  let resolved (s : String) : Path := .absolute ((Path.ofText s).resolve t.current)
  let settings : Except Failure Settings := match config with
    | some s => Settings.load t (Path.ofText s)
    | none => .ok (.under (.absolute t.current))
  settings.map fun s =>
    { s with
      rawDir := (raw.map resolved).getD s.rawDir
      cleanedDir := (cleaned.map resolved).getD s.cleanedDir
      policy := if keepGoing then .skip else s.policy }

/-- How many outcomes there are of each kind, in words. -/
def summary (s : Settings) (outcomes : List Outcome) : String :=
  "cleaned " ++ toString (outcomes.countP Outcome.isCleaned)
    ++ ", pruned " ++ toString (outcomes.countP Outcome.isPruned)
    ++ ", failed " ++ toString (outcomes.countP Outcome.isFailed) ++ ": " ++ s.cleanedDir.text

/-- Cleans the documents of a directory. -/
def runCleanAll (t : FileTree) (verbose : Bool) (settings : Except Failure Settings) : Report :=
  match settings with
  | .error e => failing t "" "" e
  | .ok s =>
    let run := Batch.cleanDirectory s t
    let notes := noteLines verbose run.notes
    match run.result with
    | .error e => failing run.tree "" notes e
    | .ok outcomes =>
      let failed := outcomes.countP Outcome.isFailed
      let output := line (summary s outcomes)
      if failed = 0 then done run.tree output notes
      else
        ⟨run.tree, output,
          notes ++ line (toString failed ++ " schema document(s) failed to clean."), .ok 1⟩

/-- Writes a file of settings. -/
def runGenerateConfig (t : FileTree) (output : String) : Report :=
  let p := Path.ofText output
  match Settings.writeTemplate t p with
  | .ok t => done t (line (Path.absolute (p.resolve t.current)).text) ""
  | .error (.file .nul) => failing t "" "" (.stray (.file .nul))
  | .error e => ⟨t, "", line e.message, .ok 1⟩

/-! ### Calls -/

/-- Does what a call asks for. -/
def perform (t : FileTree) (call : Call) : Report :=
  match call.request with
  | .help c => done t (helpText c) ""
  | .version => done t versionText ""
  | .clean input output => runClean t call.verbose input output
  | .cleanAll raw cleaned config keepGoing =>
    runCleanAll t call.verbose (settingsFor t raw cleaned config keepGoing)
  | .generateConfig output => runGenerateConfig t output

/-- Runs the program with the words of a call. -/
def run (t : FileTree) (args : List String) : Report :=
  match readCall args with
  | .error e => misused t e
  | .ok call => perform t call

end CommandLine

end PlainSchema
