/-
PlainSchema/CommandLine/Command.lean

The commands of the program, their options, and what is said about them to a user
who asks for help.
-/
namespace PlainSchema

namespace CommandLine

/-- A command. -/
inductive Command where
  | clean
  | cleanAll
  | generateConfig
  deriving DecidableEq, Repr

/-- The name of a command. -/
def Command.name : Command → String
  | clean => "clean"
  | cleanAll => "clean-all"
  | generateConfig => "generate-config"

/-- The command with a name. -/
def Command.ofName? (name : String) : Option Command :=
  [clean, cleanAll, generateConfig].find? fun c => c.name = name

/-! ### Options -/

/-- An option: its long name, the letter that stands for it, and whether a value follows. -/
structure Switch where
  long : String
  short : Option Char := none
  takesValue : Bool := false
  deriving DecidableEq, Repr

/-- Asks for help. -/
def Switch.help : Switch := { long := "--help", short := some 'h' }

/-- Asks for the version. -/
def Switch.version : Switch := { long := "--version" }

/-- Asks for the notes that matter least. -/
def Switch.verbose : Switch := { long := "--verbose", short := some 'v' }

/-- Where a clean document goes. -/
def Switch.cleanOutput : Switch := { long := "--output", short := some 'o', takesValue := true }

/-- The file of settings. -/
def Switch.config : Switch := { long := "--config", takesValue := true }

/-- Goes on after a document that cannot be cleaned. -/
def Switch.keepGoing : Switch := { long := "--keep-going" }

/-- Where a file of settings goes. -/
def Switch.configOutput : Switch := { long := "--output", takesValue := true }

/-- The options before a command, or those of a command. -/
def switches : Option Command → List Switch
  | none => [.version, .verbose, .help]
  | some .clean => [.cleanOutput, .help]
  | some .cleanAll => [.config, .keepGoing, .help]
  | some .generateConfig => [.configOutput, .help]

/-! ### Help -/

/-- The name of the program. -/
def programName : String := "openapi-schema-cleaner"

/-- The version of the program. -/
def versionText : String := programName ++ ", version 0.1.0\n"

/-- The words that start a call of the program or of a command. -/
def callOf : Option Command → String
  | none => programName
  | some c => programName ++ " " ++ c.name

/-- What follows these words. -/
def operands : Option Command → String
  | none => "[OPTIONS] COMMAND [ARGS]..."
  | some .clean => "[OPTIONS] INPUT_PATH"
  | some .cleanAll => "[OPTIONS] [ORIGINAL_DIR] [CLEANED_DIR]"
  | some .generateConfig => "[OPTIONS]"

/-- The line that shows a call. -/
def usage (c : Option Command) : String := "Usage: " ++ callOf c ++ " " ++ operands c ++ "\n"

/-- The lines after it. -/
def helpLines : Option Command → List String
  | none => [
    "",
    "  Normalize JSON-Schema documents into an OpenAPI-friendly dialect.",
    "",
    "Options:",
    "  --version      Show the version and exit.",
    "  -v, --verbose  Enable debug logging.",
    "  -h, --help     Show this message and exit.",
    "",
    "Commands:",
    "  clean            Clean one YAML/JSON schema document.",
    "  clean-all        Clean every schema document below ORIGINAL_DIR into...",
    "  generate-config  Generate a YAML batch configuration with guidance..."]
  | some .clean => [
    "",
    "  Clean one YAML/JSON schema document.",
    "",
    "Options:",
    "  -o, --output PATH  Path to write the cleaned document to (default is stdout)",
    "  -h, --help         Show this message and exit."]
  | some .cleanAll => [
    "",
    "  Clean every schema document below ORIGINAL_DIR into CLEANED_DIR.",
    "",
    "Options:",
    "  --config PATH  Path to YAML/JSON batch configuration file",
    "  --keep-going   Skip documents that fail to clean instead of stopping the",
    "                 run.",
    "  -h, --help     Show this message and exit."]
  | some .generateConfig => [
    "",
    "  Generate a YAML batch configuration with guidance comments.",
    "",
    "Options:",
    "  --output PATH  Path to the YAML batch configuration template to write",
    "                 [default: schema-cleaner.yaml]",
    "  -h, --help     Show this message and exit."]

/-- The help for the program or a command. -/
def helpText (c : Option Command) : String :=
  usage c ++ String.join ((helpLines c).map (· ++ "\n"))

end CommandLine

end PlainSchema
