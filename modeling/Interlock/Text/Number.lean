import Interlock.Text.Blank
import Interlock.Text.Numeral

/-!
# Reading numbers

A text is read as an integer in a base, or as a floating-point number.  White space at the ends of
a text does not count, a sign may stand in front, and the decimal digits of every script are
digits.
-/

namespace Interlock.Text

/-- The value of a decimal digit or of a Latin letter as a digit. -/
def digitValue? (c : Char) : Option Nat :=
  if c.isDigit then some (c.toNat - '0'.toNat)
  else if 'a' ≤ c.toLower && c.toLower ≤ 'z' then some (c.toLower.toNat - 'a'.toNat + 10)
  else if isDecimal c then
    (digitRanges.find? fun range => range.1 ≤ c.toNat && c.toNat ≤ range.2).map fun range =>
      (c.toNat - range.1) % 10
  else none

/-- Whether a character is a digit of a base. -/
def isDigitOf (base : Nat) (c : Char) : Bool := (digitValue? c).any (· < base)

/-- The value of digits. -/
def digitsValue (base : Nat) (digits : List Char) : Nat :=
  digits.foldl (fun total c => base * total + (digitValue? c).getD 0) 0

/-- A text without the white space at its ends. -/
def trimmed (text : List Char) : List Char :=
  ((text.dropWhile isBlank).reverse.dropWhile isBlank).reverse

/-- Whether a text has a minus in front, and what follows its sign, if it has one. -/
def splitSign : List Char → Bool × List Char
  | '-' :: rest => (true, rest)
  | '+' :: rest => (false, rest)
  | text => (false, text)

/-- The digits behind the mark of a base, if the text has that mark. -/
def pastBaseMark (base : Nat) : List Char → List Char
  | '0' :: mark :: rest =>
      let marked : Bool :=
        (base = 16 && mark.toLower = 'x') || (base = 8 && mark.toLower = 'o') ||
          (base = 2 && mark.toLower = 'b')
      if marked then rest else '0' :: mark :: rest
  | text => text

/-- The integer that a text spells in a base. -/
def integer? (base : Nat) (text : List Char) : Option Int :=
  let (negative, rest) := splitSign (trimmed text)
  let digits := pastBaseMark base rest
  if digits ≠ [] && digits.all (isDigitOf base) then
    let value := digitsValue base digits
    some (if negative then -(value : Int) else value)
  else none

/-- Infinity. -/
def infinity : Float := 1.0 / 0.0

/-- The floating-point number nearest to digits times a power of ten.  A number beyond the range is
infinite, and one below it is zero; neither is computed digit by digit. -/
def nearest (digits : Nat) (exponent : Int) : Float :=
  let size : Int := (toString digits).length + exponent
  if digits = 0 || size < -400 then 0.0
  else if 400 < size then infinity
  else Float.ofScientific digits (exponent < 0) exponent.natAbs

/-- An exponent behind its mark: digits, perhaps with a sign. -/
def exponent? (text : List Char) : Option Int :=
  let (negative, digits) := splitSign text
  if digits ≠ [] && digits.all (isDigitOf 10) then
    let value := digitsValue 10 digits
    some (if negative then -(value : Int) else value)
  else none

/-- The number that digits with a point and an exponent spell; letters are small. -/
def unsigned? (text : List Char) : Option Float := do
  if text = "inf".toList || text = "infinity".toList then return infinity
  if text = "nan".toList then return 0.0 / 0.0
  let whole := text.takeWhile (isDigitOf 10)
  let rest := text.dropWhile (isDigitOf 10)
  let (fraction, rest) := match rest with
    | '.' :: more => (more.takeWhile (isDigitOf 10), more.dropWhile (isDigitOf 10))
    | _ => ([], rest)
  if whole = [] && fraction = [] then failure
  let exponent ← match rest with
    | [] => some 0
    | 'e' :: power => exponent? power
    | _ => none
  return nearest (digitsValue 10 (whole ++ fraction)) (exponent - fraction.length)

/-- The floating-point number that a text in small letters spells. -/
def float? (text : List Char) : Option Float :=
  let (negative, rest) := splitSign (trimmed text)
  (unsigned? rest).map fun value => if negative then -value else value

end Interlock.Text
