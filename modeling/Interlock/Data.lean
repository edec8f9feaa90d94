import Interlock.Amount
import Interlock.Date

/-!
# Plain data

The values that a policy document may hold: what JSON has, and what YAML adds.  Integers, truth
values and floating-point numbers are one kind of key: they are the same key when their amounts are
equal.
-/

namespace Interlock

/-- A value of a document.  Keys of a mapping may be any values. -/
inductive Data where
  | null
  | bool (value : Bool)
  | int (value : Int)
  | float (value : Float)
  | date (value : Date)
  | timestamp (value : Timestamp)
  | bytes (value : List Nat)
  | string (value : String)
  | list (items : List Data)
  | set (items : List Data)
  | mapping (entries : List (Data × Data))
  deriving Repr, Inhabited

namespace Data

/-- The name of a value's type in messages. -/
def typeName : Data → String
  | null => "NoneType"
  | bool _ => "bool"
  | int _ => "int"
  | float _ => "float"
  | date _ => "date"
  | timestamp _ => "datetime"
  | bytes _ => "bytes"
  | string _ => "str"
  | list _ => "list"
  | set _ => "set"
  | mapping _ => "dict"

/-- The name of a value's type, with the family of types it belongs to, if it has one. -/
def fullTypeName : Data → String
  | date _ => "datetime.date"
  | timestamp _ => "datetime.datetime"
  | value => value.typeName

/-- The text of a string value. -/
def string? : Data → Option String
  | string value => some value
  | _ => none

/-- The amount of a number, or of a truth value. -/
def amount? : Data → Option Amount
  | int value => some (.ofInt value)
  | bool value => some (.ofInt (if value then 1 else 0))
  | float value => some (.ofFloat value)
  | _ => none

/-- Whether two keys count as one.  Truth values count as the numbers zero and one, and what is no
number counts as itself. -/
def sameKey : Data → Data → Bool
  | null, null => true
  | string left, string right => left = right
  | bytes left, bytes right => left = right
  | date left, date right => left = right
  | timestamp left, timestamp right => left.comparable right && left.instant = right.instant
  | left, right =>
      match left.amount?, right.amount? with
      | some .undefined, some .undefined => true
      | some left, some right => left.compare? right = some .eq
      | _, _ => false

/-- Sets the value of a key: a key that is there keeps its place. -/
def setEntry (key value : Data) : List (Data × Data) → List (Data × Data)
  | [] => [(key, value)]
  | (other, old) :: rest =>
      if sameKey other key then (other, value) :: rest
      else (other, old) :: setEntry key value rest

/-- The value of a string key. -/
def entry? (key : String) (entries : List (Data × Data)) : Option Data :=
  (entries.find? fun entry => entry.1.string? = some key).map (·.2)

end Data

end Interlock
