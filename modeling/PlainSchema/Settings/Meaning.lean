/-
PlainSchema/Settings/Meaning.lean

What a settings file may hold, and what it stands for.

The reader goes through a file and stops at the first fault.  Here every entry is
looked at on its own: `WellFormed` tells which documents are accepted, and `StandsFor`
which settings they stand for.  Both know four entries, two of them in the section for
directories, and no others.

The document of a file is what its text `Shows`.
-/
import PlainSchema.Settings.Reader

namespace PlainSchema

namespace Settings

/-! ### Entries -/

/-- The value of an entry of a document; an entry that is left out or null has none. -/
def value? : Node → String → Option Node
  | .map fs, name => given fs name
  | _, _ => none

/-- The value of an entry in the section for directories. -/
def directory? (document : Node) (name : String) : Option Node :=
  (value? document "directories").bind fun n => value? n name

/-- The names of the entries in the section for directories. -/
def directoryNames : List String := ["original", "clean"]

/-- Whether a value is a text that says something. -/
def IsWording (n : Node) : Prop := ∃ s, n = .str s ∧ Text.strip s ≠ ""

/-! ### The document of a file -/

/-- A string of a value for patterns: the value itself, or an item of a list. -/
inductive HasString : Node → String → Prop
  | self {s : String} : HasString (.str s) s
  | item {xs : List Node} {s : String} : .str s ∈ xs → HasString (.list xs) s

/-- The document that a text holds, as far as settings are concerned: its outer levels if it holds
itself, and its strings spelled if there are halves of surrogate pairs in it, but none in what it
says of directories and patterns. -/
inductive Shows (text : List Char) (n : Node) : Prop
  | whole : Yaml.readOuter text = .ok n → Shows text n
  | spelled : Yaml.readOuter text = .error (.beyond .half) → Yaml.readSpelled text = .ok n →
      (∀ name ∈ directoryNames, ∀ s, directory? n.unlabelled name = some (.str s) →
        Text.mark ∉ s.toList) →
      (∀ v s, value? n.unlabelled "patterns" = some v → HasString v s → Text.mark ∉ s.toList) →
      Shows text n

/-! ### Accepted documents -/

/-- A document that is accepted as settings. -/
structure WellFormed (document : Node) : Prop where
  root : document = .null ∨ ∃ fs, document = .map fs
  directories : ∀ n, value? document "directories" = some n → ∃ fs, n = .map fs
  paths : ∀ name ∈ directoryNames, ∀ n, directory? document name = some n → ∃ s, n = .str s
  patterns : ∀ n, value? document "patterns" = some n →
    IsWording n ∨ ∃ xs, n = .list xs ∧ xs ≠ [] ∧ ∀ x ∈ xs, IsWording x
  policy : ∀ n, value? document "on_error" = some n →
    ∃ s, n = .str s ∧ Text.lower (Text.strip s) ∈ ["abort", "skip"]

/-! ### What they stand for -/

variable (home : Place) (byDefault : Path)

/-- The path that an entry for a directory stands for, in a file of the directory at a place. -/
inductive StandsForPath : Option Node → Path → Prop
  | missing : StandsForPath none (.join (.absolute home) byDefault)
  | blank {s : String} : Text.strip s = "" →
      StandsForPath (some (.str s)) (.join (.absolute home) byDefault)
  | absolute {s : String} : Text.strip s ≠ "" → (Path.ofText (Text.strip s)).isAbsolute = true →
      StandsForPath (some (.str s)) (.ofText (Text.strip s))
  | relative {s : String} : Text.strip s ≠ "" → (Path.ofText (Text.strip s)).isAbsolute = false →
      StandsForPath (some (.str s)) (.absolute ((Path.ofText (Text.strip s)).resolve home))

/-- The patterns that an entry stands for, in the order of the file. -/
inductive StandsForPatterns : Option Node → List String → Prop
  | missing : StandsForPatterns none defaultPatterns
  | one {s : String} : Text.strip s ≠ "" → StandsForPatterns (some (.str s)) [Text.strip s]
  | several {ss : List String} : ss ≠ [] → (∀ s ∈ ss, Text.strip s ≠ "") →
      StandsForPatterns (some (.list (ss.map .str))) (ss.map Text.strip)

/-- The policy that an entry stands for. -/
inductive StandsForPolicy : Option Node → Policy → Prop
  | missing : StandsForPolicy none .abort
  | abort {s : String} : Text.lower (Text.strip s) = "abort" →
      StandsForPolicy (some (.str s)) .abort
  | skip {s : String} : Text.lower (Text.strip s) = "skip" →
      StandsForPolicy (some (.str s)) .skip

/-- The settings that a document stands for, in a file of the directory at a place. -/
structure StandsFor (document : Node) (s : Settings) : Prop where
  root : document = .null ∨ ∃ fs, document = .map fs
  directories : ∀ n, value? document "directories" = some n → ∃ fs, n = .map fs
  rawDir : StandsForPath home defaultRaw (directory? document "original") s.rawDir
  cleanedDir : StandsForPath home defaultCleaned (directory? document "clean") s.cleanedDir
  patterns : StandsForPatterns (value? document "patterns") s.patterns
  policy : StandsForPolicy (value? document "on_error") s.policy

end Settings

end PlainSchema
