import Interlock.Date
import Interlock.Text.Quoted

/-!
# Faults of a document

Most faults mean that a text is no YAML, whatever they are.  The others are values that a document
spells and that do not exist: characters, numbers, truth values and times.  Each of them is reported
in its own words.
-/

namespace Interlock.Yaml

/-- Why a text has no value. -/
inductive Fault where
  | malformed
  /-- An escape for a code behind the last character. -/
  | noCharacter
  /-- An escape for a code of more than thirty-one bits. -/
  | codeTooLarge
  /-- A number without any characters. -/
  | emptyNumber
  | notInteger (base : Nat) (text : String)
  | tooManyDigits (count : Nat)
  | notFloat (text : String)
  /-- A number in base sixty with a place value beyond the range of floating-point numbers. -/
  | tooManyPlaces
  | notTruth (text : String)
  | notTimestamp
  | calendar (fault : CalendarFault)
  deriving DecidableEq, Repr

namespace Fault

/-- The most decimal digits that an integer may have. -/
def digitLimit : Nat := 4300

/-- A distance in seconds as days and the seconds of a day. -/
def duration (seconds : Int) : String :=
  let days := seconds.fdiv 86400
  let parts :=
    (if days = 0 then [] else ["days=" ++ toString days]) ++
      (if seconds.fmod 86400 = 0 then [] else ["seconds=" ++ toString (seconds.fmod 86400)])
  "datetime.timedelta(" ++ ", ".intercalate parts ++ ")"

/-- The wording of a fault of the calendar. -/
def calendarMessage : CalendarFault → String
  | .year year => "year " ++ toString year ++ " is out of range"
  | .month => "month must be in 1..12"
  | .day => "day is out of range for month"
  | .hour => "hour must be in 0..23"
  | .minute => "minute must be in 0..59"
  | .second => "second must be in 0..59"
  | .offset seconds =>
      "offset must be a timedelta strictly between -timedelta(hours=24) and " ++
        "timedelta(hours=24), not " ++ duration seconds ++ "."

/-- The name that a fault is reported under. -/
def label : Fault → String
  | malformed => "YAMLError"
  | noCharacter | notInteger _ _ | tooManyDigits _ | notFloat _ | calendar _ => "ValueError"
  | codeTooLarge | tooManyPlaces => "OverflowError"
  | emptyNumber => "IndexError"
  | notTruth _ => "KeyError"
  | notTimestamp => "AttributeError"

/-- The wording of a fault. -/
def message : Fault → String
  | malformed => "malformed document"
  | noCharacter => "chr() arg not in range(0x110000)"
  | codeTooLarge => "Python int too large to convert to C int"
  | emptyNumber => "string index out of range"
  | notInteger base text =>
      "invalid literal for int() with base " ++ toString base ++ ": " ++
        String.ofList ((Text.quoted text).toList.take 200)
  | tooManyDigits count =>
      "Exceeds the limit (" ++ toString digitLimit ++ " digits) for integer string conversion: " ++
        "value has " ++ toString count ++
        " digits; use sys.set_int_max_str_digits() to increase the limit"
  | notFloat text => "could not convert string to float: " ++ Text.quoted text
  | tooManyPlaces => "int too large to convert to float"
  | notTruth text => Text.quoted text
  | notTimestamp => "'NoneType' object has no attribute 'groupdict'"
  | calendar fault => calendarMessage fault

end Fault

end Interlock.Yaml
