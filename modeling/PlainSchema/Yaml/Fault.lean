/-
PlainSchema/Yaml/Fault.lean

Why a text is no YAML document.  Most texts that are refused are malformed: their
characters, their layout or their tags are wrong.  The other faults are those of a
scalar that has the tag of some kind of value and does not say one.

What is wrong with a malformed text is not said.  The library that reads YAML has words
for it, with places and pieces of the text; they are left out here, and `<yaml error>`
stands where they would.
-/
import PlainSchema.Calendar
import PlainSchema.Node.Display
import PlainSchema.Text.Integer

namespace PlainSchema

namespace Yaml

/-- Why a text is no YAML document. -/
inductive Fault where
  /-- The text does not have the form of a document. -/
  | malformed
  /-- An escape names a code beyond the last character. -/
  | character (code : Nat)
  /-- A number without digits. -/
  | noNumber
  | integer (fault : Text.IntegerFault)
  | number (text : String)
  /-- A number in base 60 with too many places. -/
  | tooManyPlaces
  /-- A word that is no truth value. -/
  | truth (word : String)
  /-- A text that is no timestamp. -/
  | timestamp
  /-- A timestamp whose text is in a mapping. -/
  | mappedTimestamp
  | calendar (fault : CalendarFault)
  /-- The text is a document, and there is no `Node` for it. -/
  | beyond (limit : Node.Limit)
  deriving DecidableEq, Repr

/-- The text of a fault, without the library's own words for a malformed text. -/
def Fault.message : Fault → String
  | malformed => "<yaml error>"
  | character code =>
    if code < Nat.pow 2 31 then "chr() arg not in range(0x110000)"
    else "Python int too large to convert to C int"
  | noNumber => "string index out of range"
  | integer fault => fault.message
  | number text => "could not convert string to float: " ++ Text.quoted text
  | tooManyPlaces => "int too large to convert to float"
  | truth word => Text.quoted word
  | timestamp => "'NoneType' object has no attribute 'groupdict'"
  | mappedTimestamp => "expected string or bytes-like object, got 'list'"
  | calendar fault => fault.message
  | beyond limit => limit.message

end Yaml

end PlainSchema
