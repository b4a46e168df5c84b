/-
PlainSchema/Document/Text.lean

Documents as texts of a format.
-/
import PlainSchema.Document.Format
import PlainSchema.Failure
import PlainSchema.Json.Reader
import PlainSchema.Json.Writer
import PlainSchema.Yaml.Value
import PlainSchema.Yaml.Writer

namespace PlainSchema

namespace Document

/-- The document that a text holds. -/
def parse : Format → List Char → Except Failure Node
  | .json, text =>
    match Json.read text with
    | .ok n => .ok n
    | .error (.malformed cause left) =>
      .error (.document (.malformedJson cause (.whenLeft text left)))
    | .error (.longInteger digits) => .error (.stray (.integer (.tooLong digits)))
    | .error .half => .error (.stray (.beyond .half))
  | .yaml, text =>
    match Yaml.read text with
    | .ok n => .ok n
    | .error .malformed => .error (.document .malformedYaml)
    | .error (.beyond limit) => .error (.stray (.beyond limit))
    | .error fault => .error (.stray (.scalar fault))

/-- The text of a document. -/
def render [SetOrder] : Format → Node → Except Failure (List Char)
  | .json, n => (Json.write n).mapError fun fault => .document (.noJson fault)
  | .yaml, n => ((Yaml.write n).map String.toList).mapError fun fault => .stray (.longInteger fault)

end Document

end PlainSchema
