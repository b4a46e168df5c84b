/-
PlainSchema/Settings/Reader.lean

Settings from a file.  The file is a YAML mapping, or empty; every entry may be left
out or null, and entries of other names are not looked at.

* `directories` is a mapping of two texts.  A relative path starts at the directory of
  the file; a blank one stands for the default.
* `patterns` is a text or a list of texts, none of them blank and at least one.
* `on_error` is the word for a policy, in capitals or small letters.

Blanks at the ends of a text do not count.

A file may hold itself; its outer levels have all that is looked at.  The strings of a
file may have halves of surrogate pairs that stand alone.  Such a file is read with its
strings spelled in characters, which makes no difference to what is asked of them here.
A relative path with such a half cannot be resolved, except if the half stands for an
octet.
-/
import PlainSchema.Document.File
import PlainSchema.Settings

namespace PlainSchema

namespace Settings

/-- The value under a name, unless it is null. -/
def given (fs : Fields) (name : String) : Option Node :=
  match fs.get? name with
  | some .null => none
  | v => v

/-- A text that may be blank. -/
def text (name : String) : Node → Except SettingsFault String
  | .str s => .ok (Text.strip s)
  | _ => .error (.notText name)

/-- A text that says something. -/
def wording (name : String) (n : Node) : Except SettingsFault String :=
  match text name n with
  | .error e => .error e
  | .ok s => if s = "" then .error (.blank name) else .ok s

/-- The text under a name, if there is one and it is not blank. -/
def wordingUnder? (fs : Fields) (name shown : String) : Except SettingsFault (Option String) :=
  match given fs name with
  | none => .ok none
  | some n => (text shown n).map fun s => if s = "" then none else some s

/-- The texts for the two directories. -/
def directories (root : Fields) : Except SettingsFault (Option String × Option String) :=
  match given root "directories" with
  | none => .ok (none, none)
  | some (.map fs) =>
    match wordingUnder? fs "original" "directories.original" with
    | .error e => .error e
    | .ok raw =>
      (wordingUnder? fs "clean" "directories.clean").map fun clean => (raw, clean)
  | some _ => .error .directories

/-- The patterns that a list holds. -/
def patternList : List Node → Except SettingsFault (List String)
  | [] => .ok []
  | x :: xs =>
    match wording "patterns entries" x with
    | .error e => .error e
    | .ok s => (patternList xs).map (s :: ·)

/-- The patterns; octets are a list of numbers. -/
def patternsOf (root : Fields) : Except SettingsFault (List String) :=
  match given root "patterns" with
  | none => .ok defaultPatterns
  | some (.str s) => (wording "patterns" (.str s)).map fun s => [s]
  | some (.list []) | some (.tuple []) | some (.bytes []) => .error .noPatterns
  | some (.list xs) | some (.tuple xs) => patternList xs
  | some (.bytes _) => .error (.notText "patterns entries")
  | some _ => .error .patterns

/-- The policy. -/
def policyOf (root : Fields) : Except SettingsFault Policy :=
  match given root "on_error" with
  | none => .ok .abort
  | some n =>
    match wording "on_error" n with
    | .error e => .error e
    | .ok s =>
      match Policy.ofWord? (Text.lower s) with
      | none => .error .policy
      | some p => .ok p

/-- The directory that a text stands for: one below the base if the text is a relative path, the
default one if there is no text. -/
def directoryOf (base : Place) (byDefault : Path) : Option String → Except StrayFault Path
  | none => .ok ((Path.absolute base).join byDefault)
  | some s =>
    let p := Path.ofText s
    if p.isAbsolute then .ok p
    else if p.hasNul then .error (.file .nul)
    else .ok (.absolute (p.resolve base))

/-- The entries of a document; an empty document has none. -/
def root? : Node → Option Fields
  | .null => some []
  | .map fs => some fs
  | _ => none

/-- What the entries of a document say, with what `δ` is for a directory. -/
structure Entries (δ : Type) where
  rawDir : δ
  cleanedDir : δ
  patterns : List String
  policy : Policy

/-- What the entries of a document say, for a way to find the directory that a text stands for. -/
def entries {δ : Type} (directoryOf : Path → Option String → Except StrayFault δ) (n : Node) :
    Except Failure (Entries δ) :=
  match root? n with
  | none => .error (.settings .root)
  | some root =>
    match directories root with
    | .error e => .error (.settings e)
    | .ok (raw, clean) =>
      match directoryOf defaultRaw raw, directoryOf defaultCleaned clean with
      | .error e, _ | _, .error e => .error (.stray e)
      | .ok rawDir, .ok cleanedDir =>
        match patternsOf root, policyOf root with
        | .error e, _ | .ok _, .error e => .error (.settings e)
        | .ok patterns, .ok policy => .ok { rawDir, cleanedDir, patterns, policy }

/-- The settings that a document holds, for a file in the directory at a place. -/
def ofNode (base : Place) (n : Node) : Except Failure Settings :=
  (entries (directoryOf base) n).map fun found =>
    { rawDir := found.rawDir, cleanedDir := found.cleanedDir,
      patterns := found.patterns, policy := found.policy }

/-! ### Halves of surrogate pairs -/

/-- How many codes stand in front of a part of an absolute path, for the spellings of the parts
before it. -/
def codesBefore (parts : List String) : Nat :=
  parts.foldl (fun count part => count + (Text.unspelled part.toList).length + 1) 1

/-- What keeps the parts of a path from being followed, from the directory with the given parts on.
Every part but two dots is looked at where it is, by its absolute path; all parts are spelled. -/
def followFault? : List String → List String → Option StrayFault
  | _, [] => none
  | here, part :: parts =>
    if part = ".." then followFault? here.dropLast parts
    else match Text.halfFault? (codesBefore here) (Text.unspelled part.toList) with
      | some e => some (.unencodable e)
      | none =>
        if part.toList.contains '\x00' then some (.file .nul)
        else followFault? (here ++ [part]) parts

/-- The directory that a spelled text stands for; `none` if there are halves in its path. -/
def spelledDirectoryOf (base : Place) (byDefault : Path) :
    Option String → Except StrayFault (Option Path)
  | none => .ok (some ((Path.absolute base).join byDefault))
  | some s =>
    let p := Path.ofText s
    if p.isAbsolute then
      .ok ((p.parts.mapM Text.ofSpelling?).map fun parts => ⟨p.anchor, parts⟩)
    else
      let home := base.map Text.spelling
      match followFault? home p.parts with
      | some e => .error e
      | none => .ok (((p.resolve home).mapM Text.ofSpelling?).map Path.absolute)

/-- The settings that a document with spelled strings holds.  Settings with halves are no
`Settings`. -/
def ofSpelled (base : Place) (n : Node) : Except Failure Settings :=
  match entries (spelledDirectoryOf base) n with
  | .error e => .error e
  | .ok found =>
    match found.rawDir, found.cleanedDir, found.patterns.mapM Text.ofSpelling? with
    | some rawDir, some cleanedDir, some patterns =>
      .ok { rawDir, cleanedDir, patterns, policy := found.policy }
    | _, _, _ => .error (.stray (.beyond .half))

/-! ### Files -/

/-- The settings in the text of a file in the directory at a place. -/
def ofText (base : Place) (cs : List Char) : Except Failure Settings :=
  match Yaml.readOuter cs with
  | .error .malformed => .error (.settings .malformed)
  | .error (.beyond .half) =>
    match Yaml.readSpelled cs with
    | .error _ => .error (.stray (.beyond .half))
    | .ok n => ofSpelled base n.unlabelled
  | .error (.beyond .loop) => .error (.stray (.beyond .loop))
  | .error e => .error (.stray (.scalar e))
  | .ok n => ofNode base n.unlabelled

/-- The settings in the file at a path. -/
def load (t : FileTree) (p : Path) : Except Failure Settings :=
  match t.find? p with
  | .error e => .error (.stray (.file e))
  | .ok none => .error (.settings (.noFile p))
  | .ok (some _) =>
    match t.read p with
    | .error e => .error (.stray (.file e))
    | .ok octets =>
      match textOf octets with
      | .error e => .error (.stray e)
      | .ok cs => ofText (p.resolve t.current).dropLast cs

end Settings

end PlainSchema
