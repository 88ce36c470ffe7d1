/-!
# Dates and moments

A date is a day of the calendar, and a moment is a time on it, with its distance
from universal time if that is known.  Both are built from numbers that may be
out of range, and the fault then names the first number that is.
-/

namespace JavaUml.Calendar

/-- What keeps numbers from being a date or a moment. -/
inductive Fault where
  | year (number : Nat)
  | month
  | day
  | hour
  | minute
  | second
  /-- A distance of that many minutes from universal time. -/
  | offset (minutes : Int)
  deriving DecidableEq, Repr

/-- A day. -/
structure Date where
  year : Nat
  month : Nat
  day : Nat
  deriving DecidableEq, Repr

/-- A time on a day. -/
structure Moment where
  date : Date
  hour : Nat
  minute : Nat
  second : Nat
  microsecond : Nat
  /-- Minutes ahead of universal time. -/
  offset : Option Int
  deriving DecidableEq, Repr

/-! ## Ranges -/

def isLeapYear (year : Nat) : Bool :=
  year % 4 = 0 && (year % 100 ≠ 0 || year % 400 = 0)

/-- The number of days of a month. -/
def daysIn (year month : Nat) : Nat :=
  if month = 2 then if isLeapYear year then 29 else 28
  else if [4, 6, 9, 11].contains month then 30
  else 31

/-- The date with the given numbers. -/
def Date.ofNumbers (year month day : Nat) : Except Fault Date :=
  if year < 1 ∨ 9999 < year then .error (.year year)
  else if month < 1 ∨ 12 < month then .error .month
  else if day < 1 ∨ daysIn year month < day then .error .day
  else .ok ⟨year, month, day⟩

/-- A distance from universal time.  It is less than a day. -/
def checkedOffset (minutes : Int) : Except Fault Int :=
  if -1440 < minutes ∧ minutes < 1440 then .ok minutes else .error (.offset minutes)

/-- The moment with the given numbers. -/
def Moment.ofNumbers (year month day hour minute second microsecond : Nat)
    (offset : Option Int) : Except Fault Moment := do
  let offset ← offset.mapM checkedOffset
  let date ← Date.ofNumbers year month day
  if 23 < hour then .error .hour
  else if 59 < minute then .error .minute
  else if 59 < second then .error .second
  else .ok ⟨date, hour, minute, second, microsecond, offset⟩

/-! ## Universal time -/

/-- The day before.  Before the first day of the first year comes one of the year zero. -/
def Date.dayBefore (date : Date) : Date :=
  if 1 < date.day then { date with day := date.day - 1 }
  else if 1 < date.month then
    ⟨date.year, date.month - 1, daysIn date.year (date.month - 1)⟩
  else ⟨date.year - 1, 12, 31⟩

/-- The day after. -/
def Date.dayAfter (date : Date) : Date :=
  if date.day < daysIn date.year date.month then { date with day := date.day + 1 }
  else if date.month < 12 then ⟨date.year, date.month + 1, 1⟩
  else ⟨date.year + 1, 1, 1⟩

/-- The same moment told in universal time, if its distance from it is known. -/
def Moment.universal (moment : Moment) : Moment :=
  match moment.offset with
  | none => moment
  | some ahead =>
      let minutes : Int := moment.hour * 60 + moment.minute - ahead
      let date :=
        if minutes < 0 then moment.date.dayBefore
        else if 1440 ≤ minutes then moment.date.dayAfter
        else moment.date
      let ofDay := (minutes % 1440).toNat
      { moment with date := date, hour := ofDay / 60, minute := ofDay % 60, offset := some 0 }

/-! ## Texts -/

/-- A number with zeros in front, to fill a width. -/
def padded (width n : Nat) : String :=
  let digits := toString n
  String.ofList (List.replicate (width - digits.length) '0') ++ digits

/-- The text of a date. -/
def Date.text (date : Date) : String :=
  padded 4 date.year ++ "-" ++ padded 2 date.month ++ "-" ++ padded 2 date.day

/-- The text of a distance from universal time. -/
def offsetText (minutes : Int) : String :=
  let size := minutes.natAbs
  (if minutes < 0 then "-" else "+") ++ padded 2 (size / 60) ++ ":" ++ padded 2 (size % 60)

/-- The text of a moment. -/
def Moment.text (moment : Moment) : String :=
  moment.date.text ++ " " ++ padded 2 moment.hour ++ ":" ++ padded 2 moment.minute ++ ":" ++
    padded 2 moment.second ++
    (if moment.microsecond = 0 then "" else "." ++ padded 6 moment.microsecond) ++
    ((moment.offset.map offsetText).getD "")

/-- A span of minutes by its whole days and the seconds beyond them. -/
def spanInner (minutes : Int) : String :=
  let days := minutes.fdiv 1440
  let seconds := minutes.fmod 1440 * 60
  let parts :=
    (if days = 0 then [] else ["days=" ++ toString days]) ++
    (if seconds = 0 then [] else ["seconds=" ++ toString seconds])
  "datetime.timedelta(" ++ (if parts.isEmpty then "0" else ", ".intercalate parts) ++ ")"

/-- A date as it shows inside another value. -/
def Date.inner (date : Date) : String :=
  "datetime.date(" ++
    ", ".intercalate ([date.year, date.month, date.day].map fun n => toString n) ++ ")"

/-- A distance from universal time as it shows inside another value. -/
def offsetInner (minutes : Int) : String :=
  if minutes = 0 then "datetime.timezone.utc"
  else "datetime.timezone(" ++ spanInner minutes ++ ")"

/-- A moment as it shows inside another value.  Seconds that are zero are left
out if nothing smaller follows them. -/
def Moment.inner (moment : Moment) : String :=
  let date := moment.date
  let small :=
    if moment.microsecond ≠ 0 then [moment.second, moment.microsecond]
    else if moment.second ≠ 0 then [moment.second]
    else []
  let numbers := [date.year, date.month, date.day, moment.hour, moment.minute] ++ small
  let zone := (moment.offset.map fun minutes => "tzinfo=" ++ offsetInner minutes).toList
  "datetime.datetime(" ++ ", ".intercalate ((numbers.map fun n => toString n) ++ zone) ++ ")"

/-- What is reported about a fault. -/
def Fault.message : Fault → String
  | year number => "year " ++ toString number ++ " is out of range"
  | month => "month must be in 1..12"
  | day => "day is out of range for month"
  | hour => "hour must be in 0..23"
  | minute => "minute must be in 0..59"
  | second => "second must be in 0..59"
  | offset minutes =>
      "offset must be a timedelta strictly between -timedelta(hours=24) and " ++
        "timedelta(hours=24), not " ++ spanInner minutes ++ "."

end JavaUml.Calendar
