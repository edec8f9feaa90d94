import Interlock.Text.Number
import Interlock.Yaml.Character
import Interlock.Yaml.Fault

/-!
# Scalars in quotes

Between apostrophes only an apostrophe is written twice; between quotation marks there are escapes.
Line breaks are folded in both, and a mark that separates documents may not stand inside.
-/

namespace Interlock.Yaml.Quoted

/-- The text of a part of a quoted scalar and how many characters it takes. -/
abbrev Piece := List Char × Nat

/-- The line breaks and indentation inside a quoted scalar: the breaks, `seen` last first, and how
many characters they take with those counted so far. -/
def breaks : Nat → List Char → Nat → List Char → Except Fault Piece
  | 0, _, _, _ => .error .malformed
  | fuel + 1, seen, count, text =>
      if atSeparator text then .error .malformed
      else
        let blanks := (text.takeWhile isBlank).length
        match text.drop blanks with
        | c :: rest =>
            if isBreak c then breaks fuel (keptBreak c :: seen) (count + blanks + 1) rest
            else .ok (seen.reverse, count + blanks)
        | [] => .ok (seen.reverse, count + blanks)

/-- The character that a short escape stands for. -/
def shortEscape? : Char → Option Char
  | '0' => some '\x00'
  | 'a' => some '\x07'
  | 'b' => some '\x08'
  | 't' => some '\t'
  | '\t' => some '\t'
  | 'n' => some '\n'
  | 'v' => some '\x0b'
  | 'f' => some '\x0c'
  | 'r' => some '\r'
  | 'e' => some '\x1b'
  | ' ' => some ' '
  | '"' => some '"'
  | '\\' => some '\\'
  | '/' => some '/'
  | 'N' => some '\x85'
  | '_' => some '\xa0'
  | 'L' => some '\u2028'
  | 'P' => some '\u2029'
  | _ => none

/-- How many digits a numeric escape has. -/
def escapeWidth? : Char → Option Nat
  | 'x' => some 2
  | 'u' => some 4
  | 'U' => some 8
  | _ => none

/-- Whether a character is a hexadecimal digit. -/
def isHexDigit (c : Char) : Bool := c.toNat < 0x80 && Text.isDigitOf 16 c

/-- The character of a code.  A code that is set aside for pairs is no character of its own and is
replaced. -/
def charOf (code : Nat) : Except Fault Char :=
  if 0x80000000 ≤ code then .error .codeTooLarge
  else if 0x110000 ≤ code then .error .noCharacter
  else if code.isValidChar then .ok (Char.ofNat code)
  else .ok '\ufffd'

/-- The character of a numeric escape with a given number of digits. -/
def numericEscape (width : Nat) (text : List Char) : Except Fault Char :=
  let digits := text.take width
  if digits.length < width || !digits.all isHexDigit then .error .malformed
  else charOf (Text.digitsValue 16 digits)

/-- The text of a quoted scalar behind its first quote, `seen` last first, and how many characters
it takes up to its last quote with those counted so far. -/
def readFrom (quote : Char) : Nat → List Char → Nat → List Char → Except Fault Piece
  | 0, _, _, _ => .error .malformed
  | _ + 1, _, _, [] => .error .malformed
  | fuel + 1, seen, count, c :: rest => do
      if c = quote then
        match quote, rest with
        | '\'', '\'' :: more => readFrom quote fuel ('\'' :: seen) (count + 2) more
        | _, _ => return (seen.reverse, count + 1)
      else if quote = '"' && c = '\\' then
        match rest with
        | [] => throw .malformed
        | escape :: more =>
            if let some short := shortEscape? escape then
              readFrom quote fuel (short :: seen) (count + 2) more
            else if let some width := escapeWidth? escape then
              let long ← numericEscape width more
              readFrom quote fuel (long :: seen) (count + 2 + width) (more.drop width)
            else if isBreak escape then
              let (kept, taken) ← breaks fuel [] 0 more
              readFrom quote fuel (kept.reverse ++ seen) (count + 2 + taken) (more.drop taken)
            else throw .malformed
      else if isGap c then
        let blanks := (c :: rest).takeWhile isBlank
        match (c :: rest).drop blanks.length with
        | [] => throw .malformed
        | next :: more =>
            if isBreak next then
              let (kept, taken) ← breaks fuel [] 0 more
              readFrom quote fuel ((folded next kept).reverse ++ seen)
                (count + blanks.length + 1 + taken) (more.drop taken)
            else
              readFrom quote fuel (blanks.reverse ++ seen) (count + blanks.length) (next :: more)
      else readFrom quote fuel (c :: seen) (count + 1) rest

/-- The text of a quoted scalar behind its first quote, and how many characters it takes up to its
last quote.  `fuel` is more than the characters of the text. -/
def read (quote : Char) (fuel : Nat) (text : List Char) : Except Fault Piece :=
  readFrom quote fuel [] 0 text

end Interlock.Yaml.Quoted
