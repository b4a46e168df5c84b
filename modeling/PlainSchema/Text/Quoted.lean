/-
PlainSchema/Text/Quoted.lean

Texts and octets in quotes, on one line, as messages show them.  The quote is a
single one unless the text holds single quotes and no double ones; the backslash
and the chosen quote are escaped, and so is what `isPrintable` does not show.
-/
import PlainSchema.Text.Printable

namespace PlainSchema

namespace Text

/-- A number in base 16, in small digits, with zeros in front up to the given width. -/
def hex (width n : Nat) : String :=
  let ds := Nat.toDigits 16 n
  String.ofList (List.replicate (width - ds.length) '0' ++ ds)

/-- The quote around a text. -/
def quoteFor (cs : List Char) : Char :=
  if cs.contains '\'' && !cs.contains '"' then '"' else '\''

/-- A character inside the quotes. -/
def quotedChar (quote c : Char) : String :=
  if c = quote || c = '\\' then String.ofList ['\\', c]
  else if c = '\t' then "\\t"
  else if c = '\n' then "\\n"
  else if c = '\r' then "\\r"
  else if isPrintable c then c.toString
  else if c.toNat < 0x100 then "\\x" ++ hex 2 c.toNat
  else if c.toNat < 0x10000 then "\\u" ++ hex 4 c.toNat
  else "\\U" ++ hex 8 c.toNat

/-- A text in quotes. -/
def quoted (text : String) : String :=
  let quote := quoteFor text.toList
  quote.toString ++ String.join (text.toList.map (quotedChar quote)) ++ quote.toString

/-- An octet inside the quotes: an ASCII character, or its number. -/
def quotedOctet (quote : Char) (b : UInt8) : String :=
  if b.toNat < 0x80 then quotedChar quote (Char.ofNat b.toNat) else "\\x" ++ hex 2 b.toNat

/-- Octets in quotes, with a mark in front. -/
def quotedOctets (octets : List UInt8) : String :=
  let quote := quoteFor (octets.map fun b => Char.ofNat b.toNat)
  "b" ++ quote.toString ++ String.join (octets.map (quotedOctet quote)) ++ quote.toString

end Text

end PlainSchema
