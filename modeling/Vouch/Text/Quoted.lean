import Vouch.Text.Unprintable

namespace Vouch.Text

/-- A number in lower case hexadecimal with zeros in front up to the given width. -/
def hex (width n : Nat) : String :=
  let digits := Nat.toDigits 16 n
  String.ofList (List.replicate (width - digits.length) '0' ++ digits)

/-- One character between quotes: the quote in use and the backslash are escaped, line feed,
carriage return and tab have letters, and what cannot be printed is written by its number, in the
shortest of three widths. -/
def quotedChar (quote c : Char) : String :=
  if c = quote || c = '\\' then String.ofList ['\\', c]
  else if c = '\n' then "\\n"
  else if c = '\r' then "\\r"
  else if c = '\t' then "\\t"
  else if !isUnprintable c then c.toString
  else if c.toNat < 0x100 then "\\x" ++ hex 2 c.toNat
  else if c.toNat < 0x10000 then "\\u" ++ hex 4 c.toNat
  else "\\U" ++ hex 8 c.toNat

/-- A text as it is shown in messages: between apostrophes, or between double quotes if it holds an
apostrophe and no double quote. -/
def quoted (text : String) : String :=
  let cs := text.toList
  let quote := if '\'' ∈ cs && '"' ∉ cs then '"' else '\''
  quote.toString ++ String.join (cs.map (quotedChar quote)) ++ quote.toString

end Vouch.Text
