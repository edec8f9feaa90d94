import Interlock.Data
import Interlock.Yaml.Fault
import Interlock.Yaml.Tag

/-!
# Scalar values

The value of a scalar under its tag.  A tag that is written out may ask for a value that the text
does not spell; each tag then has its own fault.
-/

namespace Interlock.Yaml

/-- An integer in a base, which in base ten has a bounded number of digits. -/
def integerIn (base : Nat) (text : List Char) : Except Fault Int :=
  let digits := (Text.splitSign (Text.trimmed text)).2.takeWhile (Text.isDigitOf 10)
  if base = 10 && Fault.digitLimit < digits.length then .error (.tooManyDigits digits.length)
  else
    match Text.integer? base text with
    | some value => .ok value
    | none => .error (.notInteger base (String.ofList text))

/-- The absolute value of an integer whose sign is cut off. -/
def natural (text : List Char) : Except Fault Int :=
  match text with
  | [] => .error .emptyNumber
  | ['0'] => .ok 0
  | '0' :: 'b' :: rest => integerIn 2 rest
  | '0' :: 'x' :: rest => integerIn 16 rest
  | '0' :: rest => integerIn 8 ('0' :: rest)
  | _ =>
      if text.contains ':' then do
        let parts ← (Text.fieldsOf ':' text).mapM (integerIn 10)
        return parts.foldl (fun total part => 60 * total + part) 0
      else integerIn 10 text

/-- A text without its underscores, which only group digits. -/
def ungrouped (text : String) : List Char := text.toList.filter (· ≠ '_')

/-- The value of an integer. -/
def integerValue (text : String) : Except Fault Int :=
  match ungrouped text with
  | [] => .error .emptyNumber
  | number => do
      let (negative, rest) := Text.splitSign number
      let value ← natural rest
      return if negative then -value else value

/-- A floating-point number. -/
def floatIn (text : List Char) : Except Fault Float :=
  match Text.float? text with
  | some value => .ok value
  | none => .error (.notFloat (String.ofList text))

/-- A number in base sixty, its last part first; `place` is the place of that part. -/
def sixtieths (place : Nat) (total : Float) : List Float → Except Fault Float
  | [] => .ok total
  | part :: rest =>
      if 173 < place then .error .tooManyPlaces
      else sixtieths (place + 1) (total + part * Text.nearest (60 ^ place) 0) rest

/-- The value of a floating-point number. -/
def floatValue (text : String) : Except Fault Float :=
  match (ungrouped text).map Char.toLower with
  | [] => .error .emptyNumber
  | number => do
      let (negative, rest) := Text.splitSign number
      let signed (value : Float) : Float := if negative then -value else value
      if rest = ".inf".toList then return signed Text.infinity
      else if rest = ".nan".toList then return 0.0 / 0.0
      else if rest.contains ':' then
        let parts ← (Text.fieldsOf ':' rest).mapM floatIn
        return signed (← sixtieths 0 0.0 parts.reverse)
      else return signed (← floatIn rest)

/-- The value of a truth value, in letters of any size. -/
def truthValue (text : String) : Except Fault Bool :=
  let small := String.ofList (text.toList.map Char.toLower)
  match truth? small with
  | some value => .ok value
  | none => .error (.notTruth small)

/-- A part of a date or time. -/
def part (digits : List Char) : Nat := Text.digitsValue 10 digits

/-- The microseconds of a fraction of a second. -/
def microseconds (fraction : List Char) : Nat :=
  part ((fraction ++ List.replicate 6 '0').take 6)

/-- The value of a date or a time. -/
def timeValue (text : String) : Except Fault Data :=
  match SpelledTime.read? text.toList with
  | none => .error .notTimestamp
  | some spelled =>
      let year := part spelled.year
      let month := part spelled.month
      let day := part spelled.day
      let value : Except CalendarFault Data :=
        match spelled.time with
        | none => (Date.of year month day).map .date
        | some (hour, minute, second, fraction) =>
            let offset := spelled.zone.map fun (negative, hours, minutes) =>
              let seconds : Int := 3600 * part hours + 60 * part minutes
              if negative then -seconds else seconds
            (Timestamp.of year month day (part hour) (part minute) (part second)
              (microseconds fraction) offset).map .timestamp
      value.mapError .calendar

/-- The six bits that a character of base sixty-four stands for. -/
def sixBits? (c : Char) : Option Nat :=
  if 'A' ≤ c && c ≤ 'Z' then some (c.toNat - 'A'.toNat)
  else if 'a' ≤ c && c ≤ 'z' then some (c.toNat - 'a'.toNat + 26)
  else if c.isDigit then some (c.toNat - '0'.toNat + 52)
  else if c = '+' then some 62
  else if c = '/' then some 63
  else none

/-- The bytes of a text in base sixty-four: `held` are the values of the group at hand, last first,
and `padding` counts the marks that fill it up.  Characters outside the alphabet do not count, and
nothing counts behind a group that is filled up. -/
def bytesFrom (held : List Nat) (padding : Nat) : List Char → Option (List Nat)
  | [] => if held = [] then some [] else none
  | c :: rest =>
      if c = '=' then
        match held with
        | [second, first] =>
            if 4 ≤ 3 + padding then some [first * 4 + second / 16]
            else bytesFrom held (padding + 1) rest
        | [third, second, first] =>
            some [first * 4 + second / 16, second % 16 * 16 + third / 4]
        | _ => bytesFrom held padding rest
      else
        match sixBits? c, held with
        | none, _ => bytesFrom held padding rest
        | some fourth, [third, second, first] =>
            (bytesFrom [] 0 rest).map fun others =>
              [first * 4 + second / 16, second % 16 * 16 + third / 4, third % 4 * 64 + fourth] ++
                others
        | some value, _ => bytesFrom (value :: held) 0 rest

/-- The value of bytes in base sixty-four, which is ASCII. -/
def bytesValue (text : String) : Except Fault (List Nat) :=
  let chars := text.toList
  if chars.any fun c => 0x80 ≤ c.toNat then .error .malformed
  else
    match bytesFrom [] 0 chars with
    | some bytes => .ok bytes
    | none => .error .malformed

/-- The value of a scalar under a tag. -/
def scalarValue (tag : Tag) (text : String) : Except Fault Data :=
  match tag with
  | .null => .ok .null
  | .bool => (truthValue text).map .bool
  | .int => (integerValue text).map .int
  | .float => (floatValue text).map .float
  | .timestamp => timeValue text
  | .binary => (bytesValue text).map .bytes
  | .string => .ok (.string text)
  | _ => .error .malformed

end Interlock.Yaml
