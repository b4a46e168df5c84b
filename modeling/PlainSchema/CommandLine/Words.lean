/-
PlainSchema/CommandLine/Words.lean

The words of a call: options, with their values, and other words.  An option is a
long name, with its value after an equals sign or in the next word, or a hyphen and
the letters of options, of which the first that takes a value has the rest of the
word, or the next word, for it.  Two hyphens alone end the options.
-/
import PlainSchema.CommandLine.Command
import PlainSchema.Text.Likeness
import PlainSchema.Text.Quoted

namespace PlainSchema

namespace CommandLine

/-- What is wrong with a call. -/
inductive UsageFault where
  /-- There is no option of this name; the names that are like it. -/
  | noSuchOption (name : String) (alike : List String)
  | valueMissing (name : String)
  | valueUnwanted (name : String)
  | commandMissing
  | noSuchCommand (name : String)
  | inputMissing
  | tooMany (words : List String)
  deriving DecidableEq, Repr

/-- The text of the fault. -/
def UsageFault.message : UsageFault → String
  | noSuchOption name [] => "No such option: " ++ name
  | noSuchOption name [one] => "No such option: " ++ name ++ " Did you mean " ++ one ++ "?"
  | noSuchOption name several =>
    "No such option: " ++ name ++ " (Possible options: " ++ ", ".intercalate several ++ ")"
  | valueMissing name => "Option " ++ Text.quoted name ++ " requires an argument."
  | valueUnwanted name => "Option " ++ Text.quoted name ++ " does not take a value."
  | commandMissing => "Missing command."
  | noSuchCommand name => "No such command " ++ Text.quoted name ++ "."
  | inputMissing => "Missing argument 'INPUT_PATH'."
  | tooMany [one] => "Got unexpected extra argument (" ++ one ++ ")"
  | tooMany words => "Got unexpected extra arguments (" ++ " ".intercalate words ++ ")"

/-- Whether the message comes with the line that shows a call. -/
def UsageFault.showsUsage : UsageFault → Bool
  | valueMissing _ | valueUnwanted _ => false
  | _ => true

/-- An option of a call, and its value if it takes one. -/
structure Given where
  switch : Switch
  value : String
  deriving DecidableEq, Repr

/-- The options of a word, and the last of them, with its name, if its value is the next word. -/
structure Opening where
  given : List Given
  awaiting : Option (Switch × String)
  deriving DecidableEq, Repr

/-! ### One word -/

/-- The options whose names are like a long name. -/
def alikeTo (known : List Switch) (name : String) : List String :=
  ((known.map Switch.long).filter fun long => Text.alike long name).mergeSort
    fun a b => decide (a ≤ b)

/-- Reads a word as a long name; `none` if there is no such option. -/
def longOption? (known : List Switch) (name : String) (value : Option String) :
    Option (Except UsageFault Opening) :=
  (known.find? fun s => s.long = name).map fun s =>
    match s.takesValue, value with
    | true, some v => .ok ⟨[⟨s, v⟩], none⟩
    | true, none => .ok ⟨[], some (s, name)⟩
    | false, some _ => .error (.valueUnwanted name)
    | false, none => .ok ⟨[⟨s, ""⟩], none⟩

/-- Reads the letters of options. -/
def letters (known : List Switch) : List Char → Except UsageFault Opening
  | [] => .ok ⟨[], none⟩
  | c :: cs =>
    let name := String.ofList ['-', c]
    match known.find? fun s => s.short = some c with
    | none => .error (.noSuchOption name [])
    | some s =>
      if s.takesValue then
        .ok (if cs.isEmpty then ⟨[], some (s, name)⟩ else ⟨[⟨s, String.ofList cs⟩], none⟩)
      else (letters known cs).map fun more => { more with given := ⟨s, ""⟩ :: more.given }

/-- Reads a word that starts with a hyphen. -/
def opening (known : List Switch) (word : String) : Except UsageFault Opening :=
  let cs := word.toList
  let name := String.ofList (cs.takeWhile (· ≠ '='))
  let value := match cs.dropWhile (· ≠ '=') with
    | _ :: v => some (String.ofList v)
    | [] => none
  match longOption? known name value with
  | some o => o
  | none =>
    match cs with
    | '-' :: '-' :: _ => .error (.noSuchOption name (alikeTo known name))
    | _ => letters known cs.tail

/-! ### All words -/

/-- The options and the other words of a call. -/
structure Reading where
  given : List Given
  words : List String
  deriving DecidableEq, Repr

/-- Whether a word is an option: it starts with a hyphen and is more than that. -/
def isOption (word : String) : Bool :=
  match word.toList with
  | '-' :: _ :: _ => true
  | _ => false

/-- Reads the words of a call; `mixed` tells whether options may come after other words. -/
def readWords (known : List Switch) (mixed : Bool) : List String → Except UsageFault Reading
  | [] => .ok ⟨[], []⟩
  | word :: rest =>
    if word = "--" then .ok ⟨[], rest⟩
    else if isOption word then
      match opening known word with
      | .error e => .error e
      | .ok ⟨given, none⟩ =>
        (readWords known mixed rest).map fun r => { r with given := given ++ r.given }
      | .ok ⟨given, some (switch, name)⟩ =>
        match rest with
        | [] => .error (.valueMissing name)
        | value :: rest =>
          (readWords known mixed rest).map fun r =>
            { r with given := given ++ ⟨switch, value⟩ :: r.given }
    else if mixed then
      (readWords known mixed rest).map fun r => { r with words := word :: r.words }
    else .ok ⟨[], word :: rest⟩

namespace Reading

/-- Whether an option is given. -/
def has (r : Reading) (s : Switch) : Bool := r.given.any fun g => g.switch = s

/-- The value of an option; the last one if it is given more than once. -/
def value? (r : Reading) (s : Switch) : Option String :=
  (r.given.reverse.find? fun g => g.switch = s).map Given.value

end Reading

end CommandLine

end PlainSchema
