/-!
# Dates and times

A day of the calendar, and a time on a day, perhaps with its distance from universal time.  Numbers
may name a day or a time that does not exist, so both are checked when they are made.  Two times
with a distance are compared as instants; a time with one and a time without cannot be compared.
-/

namespace Interlock

/-- What keeps numbers from being a date or a time. -/
inductive CalendarFault where
  | year (year : Nat)
  | month
  | day
  | hour
  | minute
  | second
  /-- A distance from universal time, in seconds, of a day or more. -/
  | offset (seconds : Int)
  deriving DecidableEq, Repr

/-- A day of the calendar. -/
structure Date where
  year : Nat
  month : Nat
  day : Nat
  deriving DecidableEq, Repr

namespace Date

/-- Whether a year has a leap day. -/
def isLeap (year : Nat) : Bool :=
  year % 4 = 0 && (year % 100 ≠ 0 || year % 400 = 0)

/-- The days of a month. -/
def daysIn (year month : Nat) : Nat :=
  if month = 2 then (if isLeap year then 29 else 28)
  else if [4, 6, 9, 11].contains month then 30
  else 31

/-- A day, if the calendar has it. -/
def of (year month day : Nat) : Except CalendarFault Date :=
  if year = 0 || 9999 < year then .error (.year year)
  else if month = 0 || 12 < month then .error .month
  else if day = 0 || daysIn year month < day then .error .day
  else .ok ⟨year, month, day⟩

/-- The days from the beginning of the calendar to a day. -/
def number (date : Date) : Nat :=
  let past := date.year - 1
  let months := (List.range (date.month - 1)).map fun index => daysIn date.year (index + 1)
  365 * past + past / 4 - past / 100 + past / 400 + months.foldl (· + ·) date.day

end Date

/-- A time on a day.  `offset` is the distance from universal time in seconds, if it is known. -/
structure Timestamp where
  date : Date
  hour : Nat
  minute : Nat
  second : Nat
  microsecond : Nat
  offset : Option Int
  deriving DecidableEq, Repr

namespace Timestamp

/-- A distance from universal time, which is less than a day. -/
def checkOffset (offset : Option Int) : Except CalendarFault Unit :=
  match offset with
  | some seconds => if seconds.natAbs < 86400 then .ok () else .error (.offset seconds)
  | none => .ok ()

/-- A time, if there is such a time.  The distance is checked first, then the day. -/
def of (year month day hour minute second microsecond : Nat) (offset : Option Int) :
    Except CalendarFault Timestamp := do
  checkOffset offset
  let date ← Date.of year month day
  if 23 < hour then throw .hour
  if 59 < minute then throw .minute
  if 59 < second then throw .second
  return ⟨date, hour, minute, second, microsecond, offset⟩

/-- The microseconds from the beginning of the calendar, in universal time if the distance from it
is known. -/
def instant (time : Timestamp) : Int :=
  let seconds : Int :=
    time.date.number * 86400 + time.hour * 3600 + time.minute * 60 + time.second
  (seconds - time.offset.getD 0) * 1000000 + time.microsecond

/-- Whether two times can be compared. -/
def comparable (left right : Timestamp) : Bool := left.offset.isSome = right.offset.isSome

end Timestamp

end Interlock
