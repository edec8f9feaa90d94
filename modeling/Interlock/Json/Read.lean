import Interlock.Json

/-!
# Reading JSON text

A text is read as one value, with white space between its parts and around it.  Numbers are
integers.  A string must not hold a control character, and where it escapes UTF-16 units, these must
spell a character.  A literal brace is written by its code in this module.
-/

namespace Interlock.Json

/-- White space between the parts of a text. -/
def isSpace (c : Char) : Bool := c = ' ' || c = '\t' || c = '\n' || c = '\r'

/-- A text without the white space in front. -/
def pastSpace (text : List Char) : List Char := text.dropWhile isSpace

/-- The value of a hexadecimal digit. -/
def hexDigit? (c : Char) : Option Nat :=
  if '0' ≤ c && c ≤ '9' then some (c.toNat - '0'.toNat)
  else if 'a' ≤ c && c ≤ 'f' then some (c.toNat - 'a'.toNat + 10)
  else if 'A' ≤ c && c ≤ 'F' then some (c.toNat - 'A'.toNat + 10)
  else none

/-- The code unit that four hexadecimal digits spell. -/
def unit? (first second third fourth : Char) : Option Nat := do
  let first ← hexDigit? first
  let second ← hexDigit? second
  let third ← hexDigit? third
  let fourth ← hexDigit? fourth
  return ((first * 16 + second) * 16 + third) * 16 + fourth

/-- Whether a code unit is the first one of a pair. -/
def isHigh (unit : Nat) : Bool := 0xd800 ≤ unit && unit < 0xdc00

/-- Whether a code unit is the second one of a pair. -/
def isLow (unit : Nat) : Bool := 0xdc00 ≤ unit && unit < 0xe000

/-- The character that a letter stands for behind a backslash. -/
def escaped? : Char → Option Char
  | '"' => some '"'
  | '\\' => some '\\'
  | '/' => some '/'
  | 'b' => some '\x08'
  | 'f' => some '\x0c'
  | 'n' => some '\n'
  | 'r' => some '\r'
  | 't' => some '\t'
  | _ => none

/-- Characters and what follows them, with one more character in front. -/
def prepend (c : Char) (found : List Char × List Char) : List Char × List Char :=
  (c :: found.1, found.2)

/-- The character that a pair of code units spells. -/
def pairChar (high low : Nat) : Char :=
  Char.ofNat (0x10000 + (high - 0xd800) * 0x400 + (low - 0xdc00))

/-- The characters of a string up to its closing quotation mark, and what follows; `high` is the
first unit of a pair whose second unit has to come next. -/
def readChars (high : Option Nat) : List Char → Option (List Char × List Char)
  | [] => none
  | '"' :: rest => if high.isSome then none else some ([], rest)
  | '\\' :: 'u' :: a :: b :: c :: d :: rest =>
      match unit? a b c d, high with
      | none, _ => none
      | some unit, none =>
          if isHigh unit then readChars (some unit) rest
          else if isLow unit then none
          else (readChars none rest).map (prepend (Char.ofNat unit))
      | some unit, some high =>
          if isLow unit then (readChars none rest).map (prepend (pairChar high unit)) else none
  | '\\' :: c :: rest =>
      match escaped? c, high with
      | some char, none => (readChars none rest).map (prepend char)
      | _, _ => none
  | c :: rest =>
      if high.isSome || c = '\\' || c.toNat < 0x20 then none
      else (readChars none rest).map (prepend c)

/-- The number at the front, and what follows it.  No digit stands behind a leading zero. -/
def readNatural (text : List Char) : Option (Nat × List Char) :=
  match text.takeWhile Char.isDigit with
  | [] => none
  | '0' :: _ :: _ => none
  | digits => some (Nat.ofDigitChars 10 digits 0, text.dropWhile Char.isDigit)

mutual

/-- The value at the front, and what follows it; `fuel` bounds how deep the text is read. -/
def readValue (fuel : Nat) (text : List Char) : Option (Json × List Char) :=
  match fuel with
  | 0 => none
  | fuel + 1 =>
      match pastSpace text with
      | 'n' :: 'u' :: 'l' :: 'l' :: rest => some (null, rest)
      | 't' :: 'r' :: 'u' :: 'e' :: rest => some (bool true, rest)
      | 'f' :: 'a' :: 'l' :: 's' :: 'e' :: rest => some (bool false, rest)
      | '"' :: rest =>
          (readChars none rest).map fun found => (string (String.ofList found.1), found.2)
      | '[' :: rest =>
          match pastSpace rest with
          | ']' :: rest => some (array [], rest)
          | rest => (readItems fuel rest).map fun found => (array found.1, found.2)
      | '\x7b' :: rest =>
          match pastSpace rest with
          | '\x7d' :: rest => some (object [], rest)
          | rest => (readFields fuel rest).map fun found => (object found.1, found.2)
      | '-' :: rest => (readNatural rest).map fun found => (int (-found.1), found.2)
      | rest => (readNatural rest).map fun found => (int found.1, found.2)

/-- The items of a list up to its closing bracket, and what follows. -/
def readItems (fuel : Nat) (text : List Char) : Option (List Json × List Char) :=
  match fuel with
  | 0 => none
  | fuel + 1 => do
      let (item, rest) ← readValue fuel text
      match pastSpace rest with
      | ']' :: rest => return ([item], rest)
      | ',' :: rest => (readItems fuel rest).map fun found => (item :: found.1, found.2)
      | _ => none

/-- The fields of an object up to its closing brace, and what follows. -/
def readFields (fuel : Nat) (text : List Char) : Option (List (String × Json) × List Char) :=
  match fuel with
  | 0 => none
  | fuel + 1 =>
      match pastSpace text with
      | '"' :: rest => do
          let (name, rest) ← readChars none rest
          match pastSpace rest with
          | ':' :: rest =>
              let (value, rest) ← readValue fuel rest
              let field := (String.ofList name, value)
              match pastSpace rest with
              | '\x7d' :: rest => return ([field], rest)
              | ',' :: rest => (readFields fuel rest).map fun found => (field :: found.1, found.2)
              | _ => none
          | _ => none
      | _ => none

end

/-- The value that a text is. -/
def read? (text : String) : Option Json :=
  match readValue (text.length + 1) text.toList with
  | some (value, rest) => if pastSpace rest = [] then some value else none
  | none => none

end Interlock.Json
