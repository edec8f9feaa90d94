import Interlock.Text.Fields
import Interlock.Text.Number

/-!
# Tags

The tag of a node says what its value is.  A document may write a tag; where it does not, a list is
a sequence, a mapping a mapping, a scalar in quotes a string, and a plain scalar what it is spelled
like by the rules of YAML 1.1.
-/

namespace Interlock.Yaml

/-- What a node stands for.  Tags that no rule of this library knows are all `other`. -/
inductive Tag where
  | null
  | bool
  | int
  | float
  | timestamp
  | binary
  | string
  | sequence
  | mapping
  | set
  | orderedMap
  | pairs
  /-- The key of entries that come from another mapping. -/
  | merge
  /-- The key of the value that a mapping stands for. -/
  | value
  | other
  deriving DecidableEq, Repr, Inhabited

namespace Tag

/-- What the names of the common tags begin with. -/
def commonStart : String := "tag:yaml.org,2002:"

/-- The common tags with their names. -/
def common : List (String × Tag) :=
  [("null", null), ("bool", bool), ("int", int), ("float", float), ("timestamp", timestamp),
   ("binary", binary), ("str", string), ("seq", sequence), ("map", mapping), ("set", set),
   ("omap", orderedMap), ("pairs", pairs), ("merge", merge), ("value", value)]

/-- The tag of a given full name. -/
def ofName (name : String) : Tag :=
  ((common.find? fun entry => commonStart ++ entry.1 = name).map (·.2)).getD other

end Tag

/-- Words that stand for a truth value. -/
def truth? : String → Option Bool
  | "yes" | "Yes" | "YES" | "true" | "True" | "TRUE" | "on" | "On" | "ON" => some true
  | "no" | "No" | "NO" | "false" | "False" | "FALSE" | "off" | "Off" | "OFF" => some false
  | _ => none

/-- Words that stand for nothing. -/
def isNull (text : String) : Bool := ["", "~", "null", "Null", "NULL"].contains text

/-- A digit or an underscore. -/
def isDigitOrLine (c : Char) : Bool := c.isDigit || c = '_'

/-- A part of a number in base sixty: one or two digits below sixty. -/
def isSixtieth : List Char → Bool
  | [c] => c.isDigit
  | [c, d] => '0' ≤ c && c ≤ '5' && d.isDigit
  | _ => false

/-- A hexadecimal digit or an underscore. -/
def isHexOrLine (c : Char) : Bool := c = '_' || (c.toNat < 0x80 && Text.isDigitOf 16 c)

/-- Whether a text without a sign is an integer: in base two, eight, sixteen, ten or sixty. -/
def isNatural : List Char → Bool
  | '0' :: 'b' :: rest => rest ≠ [] && rest.all fun c => c = '0' || c = '1' || c = '_'
  | '0' :: 'x' :: rest => rest ≠ [] && rest.all isHexOrLine
  | '0' :: rest => rest.all fun c => c = '_' || ('0' ≤ c && c ≤ '7')
  | first :: rest =>
      first.isDigit &&
        match Text.fieldsOf ':' (first :: rest) with
        | whole :: parts => whole.all isDigitOrLine && parts.all isSixtieth
        | [] => false
  | [] => false

/-- Whether a text is an integer. -/
def isInteger (text : List Char) : Bool := isNatural (Text.splitSign text).2

/-- An exponent, or nothing. -/
def isExponent : List Char → Bool
  | [] => true
  | mark :: sign :: digits =>
      (mark = 'e' || mark = 'E') && (sign = '-' || sign = '+') &&
        digits ≠ [] && digits.all Char.isDigit
  | _ => false

/-- Whether a text is a number that is no integer. -/
def isFloat (text : List Char) : Bool :=
  let number := (Text.splitSign text).2
  let whole := number.takeWhile (· ≠ '.')
  match number.dropWhile (· ≠ '.') with
  | [] => false
  | _ :: fraction =>
      let exponent := fraction.dropWhile isDigitOrLine
      match whole with
      | [] =>
          [".inf", ".Inf", ".INF"].contains (String.ofList number) ||
            [".nan", ".NaN", ".NAN"].contains (String.ofList text) ||
            (number = text && fraction.head?.any Char.isDigit && isExponent exponent)
      | first :: _ =>
          first.isDigit &&
            match Text.fieldsOf ':' whole with
            | [_] => whole.all isDigitOrLine && isExponent exponent
            | units :: parts =>
                units.all isDigitOrLine && parts.all isSixtieth && exponent = []
            | [] => false

/-- The characters of a written date and time, as they stand in the text. -/
structure SpelledTime where
  year : List Char
  month : List Char
  day : List Char
  /-- Hour, minute, second and the digits of a fraction. -/
  time : Option (List Char × List Char × List Char × List Char) := none
  /-- Whether the distance from universal time is negative, and its hours and minutes. -/
  zone : Option (Bool × List Char × List Char) := none
  deriving DecidableEq, Repr

namespace SpelledTime

/-- Between `least` and `most` digits, and what follows. -/
def digits (least most : Nat) (text : List Char) : Option (List Char × List Char) :=
  let run := text.takeWhile Char.isDigit
  if least ≤ run.length && run.length ≤ most then some (run, text.drop run.length) else none

/-- What follows a character. -/
def past (c : Char) : List Char → Option (List Char)
  | head :: rest => if head = c then some rest else none
  | [] => none

/-- What follows the mark between a date and a time: a letter or blanks. -/
def pastTimeMark : List Char → Option (List Char)
  | 'T' :: rest | 't' :: rest => some rest
  | ' ' :: rest | '\t' :: rest => some (rest.dropWhile fun c => c = ' ' || c = '\t')
  | _ => none

/-- The distance from universal time at the end of a text, if there is one. -/
def readZone (text : List Char) : Option (Option (Bool × List Char × List Char)) :=
  match text.dropWhile (fun c => c = ' ' || c = '\t') with
  | [] => if text = [] then some none else none
  | ['Z'] => some (some (false, ['0'], ['0']))
  | sign :: offset => do
      if sign ≠ '-' && sign ≠ '+' then failure
      let (hours, rest) ← digits 1 2 offset
      match rest with
      | [] => return some (sign = '-', hours, ['0'])
      | _ =>
          let (minutes, rest) ← digits 2 2 (← past ':' rest)
          if rest = [] then return some (sign = '-', hours, minutes) else failure

/-- A date, perhaps with a time; a month and a day may have one digit. -/
def read? (text : List Char) : Option SpelledTime := do
  let (year, rest) ← digits 4 4 text
  let (month, rest) ← digits 1 2 (← past '-' rest)
  let (day, rest) ← digits 1 2 (← past '-' rest)
  if rest = [] then return { year := year, month := month, day := day }
  let (hour, rest) ← digits 1 2 (← pastTimeMark rest)
  let (minute, rest) ← digits 2 2 (← past ':' rest)
  let (second, rest) ← digits 2 2 (← past ':' rest)
  let (fraction, rest) := match rest with
    | '.' :: more => (more.takeWhile Char.isDigit, more.dropWhile Char.isDigit)
    | _ => ([], rest)
  let zone ← readZone rest
  return {
    year := year
    month := month
    day := day
    time := some (hour, minute, second, fraction)
    zone := zone }

end SpelledTime

/-- Whether a plain text is a date or a time.  A date alone has two digits for month and day. -/
def isTimestamp (text : List Char) : Bool :=
  match SpelledTime.read? text with
  | some spelled => spelled.time.isSome || (spelled.month.length = 2 && spelled.day.length = 2)
  | none => false

/-- The tag of a plain scalar. -/
def Tag.ofPlain (text : String) : Tag :=
  if isNull text then .null
  else if (truth? text).isSome then .bool
  else if isFloat text.toList then .float
  else if isInteger text.toList then .int
  else if text = "<<" then .merge
  else if isTimestamp text.toList then .timestamp
  else if text = "=" then .value
  else .string

end Interlock.Yaml
