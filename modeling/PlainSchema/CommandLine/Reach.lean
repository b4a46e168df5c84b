/-
PlainSchema/CommandLine/Reach.lean

The paths at which a call looks or writes.  What a batch does depends on its
settings, which may have to be read first.
-/
import PlainSchema.CommandLine

namespace PlainSchema

namespace CommandLine

/-- The paths that the words of a call name, the directories of a batch apart. -/
def namedPaths : Request → List Path
  | .clean input output => Path.ofText input :: (output.map Path.ofText).toList
  | .cleanAll _ _ config _ => (config.map Path.ofText).toList
  | .generateConfig output => [Path.ofText output]
  | .help _ | .version => []

/-- The directories of a batch: its two, and those above the first one to which patterns lead. -/
def batchDirectories (s : Settings) : List Path :=
  let upward := s.patterns.map fun text =>
    s.rawDir.join ⟨.here, (Path.ofText text).parts.filter (· = "..")⟩
  s.rawDir :: s.cleanedDir :: upward

/-- The directories in which a call looks for documents and puts them, as far as they can be known
from a tree that holds its settings. -/
def directoriesOf (t : FileTree) : Request → List Path
  | .cleanAll raw cleaned config keepGoing =>
    match settingsFor t raw cleaned config keepGoing with
    | .error _ => []
    | .ok s => batchDirectories s
  | _ => []

end CommandLine

end PlainSchema
