import Interlock.Text.Printable

/-!
# Quoted text in messages

Messages quote a text between apostrophes, or between quotation marks when it holds an
apostrophe and no quotation mark.  A backslash, the chosen quote and every character that is
not printable are written as escapes, so a message stays on one line.
-/

namespace Interlock.Text

/-- A lower-case hexadecimal numeral with at least `width` digits. -/
def hex (width n : Nat) : String :=
  let digits := Nat.toDigits 16 n
  String.ofList (List.replicate (width - digits.length) '0' ++ digits)

/-- The escape of a character that is not printable. -/
def codeEscape (c : Char) : String :=
  if c.toNat < 0x100 then "\\x" ++ hex 2 c.toNat
  else if c.toNat < 0x10000 then "\\u" ++ hex 4 c.toNat
  else "\\U" ++ hex 8 c.toNat

/-- One character of a text between two `quote` characters. -/
def quotedChar (quote c : Char) : String :=
  if c = quote || c = '\\' then String.ofList ['\\', c]
  else if c = '\n' then "\\n"
  else if c = '\r' then "\\r"
  else if c = '\t' then "\\t"
  else if isPrintable c then c.toString
  else codeEscape c

/-- The quote that a text is written with. -/
def quoteFor (text : String) : Char :=
  if text.contains '\'' && !text.contains '"' then '"' else '\''

/-- A text as messages quote it. -/
def quoted (text : String) : String :=
  let quote := quoteFor text
  quote.toString ++ String.join (text.toList.map (quotedChar quote)) ++ quote.toString

/-- A list of texts as messages write it, in brackets. -/
def quotedList (texts : List String) : String :=
  "[" ++ ", ".intercalate (texts.map quoted) ++ "]"

end Interlock.Text
