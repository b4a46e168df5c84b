/-
PlainSchema/CommandLine/Request.lean

What a call of the program asks for.  Options before the name of a command are the
program's, those after it are the command's.  A call for help or for the version asks
for nothing else, whatever else is in it, if all its options are known.
-/
import PlainSchema.CommandLine.Words
import PlainSchema.Settings.Template

namespace PlainSchema

namespace CommandLine

/-- What a call asks for. -/
inductive Request where
  | help (command : Option Command)
  | version
  | clean (input : String) (output : Option String)
  | cleanAll (raw cleaned config : Option String) (keepGoing : Bool)
  | generateConfig (output : String)
  deriving DecidableEq, Repr

/-- A call of the program. -/
structure Call where
  verbose : Bool
  request : Request
  deriving DecidableEq, Repr

/-- Why a call asks for nothing. -/
inductive Misuse where
  /-- The call has no words. -/
  | wordless
  | usage (command : Option Command) (fault : UsageFault)
  /-- A path has a NUL character. -/
  | nul
  deriving DecidableEq, Repr

/-- A text that is to be a path. -/
def pathWord (s : String) : Except Misuse String :=
  if s.toList.contains '\x00' then .error .nul else .ok s

/-- The text of a path, if there is one; a blank one counts as none. -/
def pathWord? : Option String → Except Misuse (Option String)
  | none => .ok none
  | some s => (pathWord s).map fun s => if s = "" then none else some s

/-- The request, if no words are left over. -/
def closed (c : Command) (left : List String) (r : Request) : Except Misuse Request :=
  if left.isEmpty then .ok r else .error (.usage (some c) (.tooMany left))

/-- What the words after the name of a command ask for. -/
def commandRequest (c : Command) (args : List String) : Except Misuse Request :=
  match readWords (switches (some c)) true args with
  | .error e => .error (.usage (some c) e)
  | .ok r =>
    if r.has .help then .ok (.help (some c))
    else match c with
      | .clean => do
        let output ← pathWord? (r.value? .cleanOutput)
        match r.words with
        | [] => .error (.usage (some c) .inputMissing)
        | input :: left => closed c left (.clean (← pathWord input) output)
      | .cleanAll => do
        let config ← pathWord? (r.value? .config)
        let raw ← pathWord? r.words[0]?
        let cleaned ← pathWord? r.words[1]?
        closed c (r.words.drop 2) (.cleanAll raw cleaned config (r.has .keepGoing))
      | .generateConfig => do
        let output ← pathWord ((r.value? .configOutput).getD Settings.fileName)
        closed c r.words (.generateConfig output)

/-- The request that options of the program make: the first of them that asks for help or for the
version. -/
def early? (r : Reading) : Option Request :=
  (r.given.find? fun g => g.switch = .help || g.switch = .version).map fun g =>
    if g.switch = .help then .help none else .version

/-- Reads the options of the program and the words after them. -/
def readProgram (args : List String) : Except Misuse (Request ⊕ Reading) :=
  match readWords (switches none) false args with
  | .error e => .error (.usage none e)
  | .ok r => .ok (match early? r with
    | some request => .inl request
    | none => .inr r)

/-- What comes of a word that names no command.  The words from there on are read as options of the
program once more, which lets them ask for help after two hyphens. -/
def unknownCommand (word : String) (rest : List String) : Except Misuse Request :=
  match readProgram (word :: rest) with
  | .error e => .error e
  | .ok (.inl request) => .ok request
  | .ok (.inr _) => .error (.usage none (.noSuchCommand word))

/-- What a call asks for. -/
def readCall (args : List String) : Except Misuse Call :=
  if args.isEmpty then .error .wordless
  else match readProgram args with
    | .error e => .error e
    | .ok (.inl request) => .ok ⟨false, request⟩
    | .ok (.inr r) =>
      match r.words with
      | [] => .error (.usage none .commandMissing)
      | word :: rest =>
        (match Command.ofName? word with
        | some c => commandRequest c rest
        | none => unknownCommand word rest).map fun request => ⟨r.has .verbose, request⟩

end CommandLine

end PlainSchema
