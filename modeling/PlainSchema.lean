import PlainSchema.Batch
import PlainSchema.Batch.Note
import PlainSchema.Binary64
import PlainSchema.Binary64.Read
import PlainSchema.Binary64.Text
import PlainSchema.Calendar
import PlainSchema.CommandLine
import PlainSchema.CommandLine.Command
import PlainSchema.CommandLine.Reach
import PlainSchema.CommandLine.Request
import PlainSchema.CommandLine.Words
import PlainSchema.Document.File
import PlainSchema.Document.Format
import PlainSchema.Document.Text
import PlainSchema.Failure
import PlainSchema.Files.Change
import PlainSchema.Files.Fault
import PlainSchema.Files.Matching
import PlainSchema.Files.Path
import PlainSchema.Files.Pattern
import PlainSchema.Files.Selection
import PlainSchema.Files.Tree
import PlainSchema.Files.Wildcard
import PlainSchema.Json.Fault
import PlainSchema.Json.Grammar
import PlainSchema.Json.Reader
import PlainSchema.Json.Writer
import PlainSchema.Main
import PlainSchema.Node
import PlainSchema.Node.Display
import PlainSchema.Proofs.Accepted
import PlainSchema.Proofs.Alike
import PlainSchema.Proofs.Bookkeeping
import PlainSchema.Proofs.Calls
import PlainSchema.Proofs.Cleaning
import PlainSchema.Proofs.Confinement
import PlainSchema.Proofs.Construction
import PlainSchema.Proofs.Depth
import PlainSchema.Proofs.Dialect
import PlainSchema.Proofs.Directories
import PlainSchema.Proofs.Discovery
import PlainSchema.Proofs.Documents
import PlainSchema.Proofs.Effects
import PlainSchema.Proofs.Endings
import PlainSchema.Proofs.Entries
import PlainSchema.Proofs.Files
import PlainSchema.Proofs.Finding
import PlainSchema.Proofs.FixedPoint
import PlainSchema.Proofs.Halves
import PlainSchema.Proofs.Lasting
import PlainSchema.Proofs.Layout
import PlainSchema.Proofs.Loading
import PlainSchema.Proofs.Location
import PlainSchema.Proofs.Mappings
import PlainSchema.Proofs.Matching
import PlainSchema.Proofs.Merging
import PlainSchema.Proofs.Mirroring
import PlainSchema.Proofs.Noting
import PlainSchema.Proofs.Origins
import PlainSchema.Proofs.PassThrough
import PlainSchema.Proofs.Places
import PlainSchema.Proofs.Pointers
import PlainSchema.Proofs.Policies
import PlainSchema.Proofs.Reading
import PlainSchema.Proofs.Reordering
import PlainSchema.Proofs.RoundTrip
import PlainSchema.Proofs.Rules
import PlainSchema.Proofs.Settling
import PlainSchema.Proofs.Siblings
import PlainSchema.Proofs.Skipping
import PlainSchema.Proofs.Spelling
import PlainSchema.Proofs.Splitting
import PlainSchema.Proofs.Turns
import PlainSchema.Proofs.Unambiguity
import PlainSchema.Proofs.Untouched
import PlainSchema.Proofs.Vacuity
import PlainSchema.Proofs.Ways
import PlainSchema.Proofs.WellFormed
import PlainSchema.Schema.Acceptance
import PlainSchema.Schema.Clean
import PlainSchema.Schema.Height
import PlainSchema.Schema.Kind
import PlainSchema.Schema.Noting
import PlainSchema.Schema.Pointer
import PlainSchema.Schema.Rule
import PlainSchema.Schema.Splits
import PlainSchema.Settings
import PlainSchema.Settings.Meaning
import PlainSchema.Settings.Reader
import PlainSchema.Settings.Template
import PlainSchema.Text.Base64
import PlainSchema.Text.Case
import PlainSchema.Text.Code
import PlainSchema.Text.Integer
import PlainSchema.Text.Letter
import PlainSchema.Text.Likeness
import PlainSchema.Text.Printable
import PlainSchema.Text.Quoted
import PlainSchema.Text.Terminal
import PlainSchema.Text.Utf8
import PlainSchema.Yaml.Cursor
import PlainSchema.Yaml.Fault
import PlainSchema.Yaml.Merge
import PlainSchema.Yaml.Outline
import PlainSchema.Yaml.Pen
import PlainSchema.Yaml.Scalar
import PlainSchema.Yaml.Tag
import PlainSchema.Yaml.Timestamp
import PlainSchema.Yaml.Token
import PlainSchema.Yaml.Token.Property
import PlainSchema.Yaml.Token.Scalar
import PlainSchema.Yaml.Token.Stream
import PlainSchema.Yaml.Tree
import PlainSchema.Yaml.Value
import PlainSchema.Yaml.Writer
