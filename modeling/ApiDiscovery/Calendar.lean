/-!
# Calendar

Dates of the proleptic Gregorian calendar and times of day, with or without an offset from
universal time. `Date.make?` and `Timestamp.make?` name the first field that is out of range.
-/

namespace ApiDiscovery

/-- A day. -/
structure Date where
  year : Nat
  month : Nat
  day : Nat
deriving DecidableEq, Repr

/-- A moment of a day; `offset` counts seconds east of universal time where it is known. -/
structure Timestamp where
  date : Date
  hour : Nat
  minute : Nat
  second : Nat
  microsecond : Nat
  offset : Option Int
deriving DecidableEq, Repr

/-- What can be out of range in a date or a time. -/
inductive CalendarFault where
  | year (n : Nat)
  | month
  | day
  | hour
  | minute
  | second
  /-- The offset in seconds. -/
  | offset (seconds : Int)
deriving DecidableEq, Repr

namespace Date

def isLeap (year : Nat) : Bool :=
  year % 4 == 0 && (year % 100 != 0 || year % 400 == 0)

def monthLength (year month : Nat) : Nat :=
  match month with
  | 2 => if isLeap year then 29 else 28
  | 4 | 6 | 9 | 11 => 30
  | _ => 31

/-- The day, if there is one; years run from 1. -/
def make? (year month day : Nat) : Except CalendarFault Date :=
  if year = 0 then .error (.year year)
  else if month = 0 || 12 < month then .error .month
  else if day = 0 || monthLength year month < day then .error .day
  else .ok ⟨year, month, day⟩

end Date

/-- A number in decimal on at least `width` places. -/
def padded (width n : Nat) : String :=
  let ds := Nat.toDigits 10 n
  String.ofList (List.replicate (width - ds.length) '0' ++ ds)

def Date.render (d : Date) : String :=
  padded 4 d.year ++ "-" ++ padded 2 d.month ++ "-" ++ padded 2 d.day

namespace Timestamp

/-- The moment, if its fields are in range: the offset is checked first, then the day, then the
time of day. -/
def make? (year month day hour minute second microsecond : Nat) (offset : Option Int) :
    Except CalendarFault Timestamp := do
  match offset with
  | some s => if 86400 ≤ s.natAbs then .error (.offset s) else .ok ()
  | none => .ok ()
  let date ← Date.make? year month day
  if 23 < hour then .error .hour
  else if 59 < minute then .error .minute
  else if 59 < second then .error .second
  else .ok ⟨date, hour, minute, second, microsecond, offset⟩

/-- A signed offset in hours and minutes, with seconds if there are any. -/
def renderOffset (s : Int) : String :=
  let n := s.natAbs
  (if s < 0 then "-" else "+") ++ padded 2 (n / 3600) ++ ":" ++ padded 2 (n / 60 % 60) ++
    (if n % 60 = 0 then "" else ":" ++ padded 2 (n % 60))

/-- Date and time with `separator` between them; microseconds only when they are not zero. -/
def render (separator : String) (t : Timestamp) : String :=
  t.date.render ++ separator ++ padded 2 t.hour ++ ":" ++ padded 2 t.minute ++ ":" ++
    padded 2 t.second ++
    (if t.microsecond = 0 then "" else "." ++ padded 6 t.microsecond) ++
    (t.offset.map renderOffset).getD ""

end Timestamp

/-- A span of whole seconds as days and the seconds of the last day, both named. -/
def renderSpan (s : Int) : String :=
  let days := Int.fdiv s 86400
  let secs := Int.fmod s 86400
  let parts := (if days = 0 then [] else ["days=" ++ toString days]) ++
    (if secs = 0 then [] else ["seconds=" ++ toString secs])
  "datetime.timedelta(" ++ (if parts.isEmpty then "0" else ", ".intercalate parts) ++ ")"

def CalendarFault.message : CalendarFault → String
  | .year n => "year " ++ toString n ++ " is out of range"
  | .month => "month must be in 1..12"
  | .day => "day is out of range for month"
  | .hour => "hour must be in 0..23"
  | .minute => "minute must be in 0..59"
  | .second => "second must be in 0..59"
  | .offset s =>
      "offset must be a timedelta strictly between -timedelta(hours=24) and " ++
        "timedelta(hours=24), not " ++ renderSpan s ++ "."

end ApiDiscovery
