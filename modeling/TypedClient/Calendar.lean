/-!
# `TypedClient.Calendar`: dates and timestamps

Dates of the Gregorian calendar and times of day, to the microsecond, with or without an
offset from universal time. A timestamp with an offset denotes an instant, and two of
them are the same when their instants are.
-/

set_option autoImplicit false

namespace TypedClient

/-- A day of the Gregorian calendar. -/
structure Date where
  year : Nat
  month : Nat
  day : Nat
deriving DecidableEq, Inhabited

/-- A day and a time of day. The offset from universal time is in minutes. -/
structure Timestamp where
  date : Date
  hour : Nat
  minute : Nat
  second : Nat
  microsecond : Nat
  offset : Option Int
deriving DecidableEq, Inhabited

/-- The number in decimal digits, zeros in front up to a width. -/
def zeroPadded (width n : Nat) : String :=
  let digits := Nat.toDigits 10 n
  String.ofList (List.replicate (width - digits.length) '0' ++ digits)

namespace Date

def isLeapYear (year : Nat) : Bool :=
  year % 4 = 0 && (year % 100 ≠ 0 || year % 400 = 0)

/-- The number of days of a month. -/
def daysIn (year month : Nat) : Nat :=
  if month = 2 then if isLeapYear year then 29 else 28
  else if month = 4 || month = 6 || month = 9 || month = 11 then 30 else 31

/-- The date, if the calendar has it. Years have four digits and begin with one. -/
def of? (year month day : Nat) : Option Date :=
  if 1 ≤ year && year ≤ 9999 && 1 ≤ month && month ≤ 12 && 1 ≤ day && day ≤ daysIn year month
  then some ⟨year, month, day⟩ else none

/-- The days between the start of the calendar and the date. -/
def dayNumber (d : Date) : Nat :=
  let past := d.year - 1
  365 * past + past / 4 - past / 100 + past / 400 +
    (List.range (d.month - 1)).foldl (fun days m => days + daysIn d.year (m + 1)) 0 + d.day

/-- The date as `2024-01-31`. -/
def text (d : Date) : String :=
  zeroPadded 4 d.year ++ "-" ++ zeroPadded 2 d.month ++ "-" ++ zeroPadded 2 d.day

/-- The date as it is shown inside a list or a mapping. -/
def shown (d : Date) : String :=
  s!"datetime.date({d.year}, {d.month}, {d.day})"

end Date

namespace Timestamp

/-- The timestamp, if date, time and offset are possible: offsets stay within a day. -/
def of? (date : Date) (hour minute second microsecond : Nat) (offset : Option Int) :
    Option Timestamp :=
  if hour < 24 && minute < 60 && second < 60 && microsecond < 1000000 &&
      offset.all fun o => o.natAbs < 24 * 60
  then some ⟨date, hour, minute, second, microsecond, offset⟩ else none

/-- The microseconds from the start of the calendar to the time on the clock. -/
def clock (t : Timestamp) : Nat :=
  (((t.date.dayNumber * 24 + t.hour) * 60 + t.minute) * 60 + t.second) * 1000000 + t.microsecond

/-- The two timestamps denote one point in time, or one time on a clock without offset. -/
def same (t u : Timestamp) : Bool :=
  match t.offset, u.offset with
  | some o, some p => (t.clock : Int) - o * 60000000 = u.clock - p * 60000000
  | none, none => t.clock = u.clock
  | _, _ => false

/-- An offset as `+02:00`. -/
def offsetText (o : Int) : String :=
  (if o < 0 then "-" else "+") ++ zeroPadded 2 (o.natAbs / 60) ++ ":" ++
    zeroPadded 2 (o.natAbs % 60)

/-- The timestamp as `2024-01-31 10:00:00.500000+02:00`; whole seconds show no fraction. -/
def text (t : Timestamp) : String :=
  t.date.text ++ " " ++ zeroPadded 2 t.hour ++ ":" ++ zeroPadded 2 t.minute ++ ":" ++
    zeroPadded 2 t.second ++
    (if t.microsecond = 0 then "" else "." ++ zeroPadded 6 t.microsecond) ++
    (t.offset.map offsetText).getD ""

/-- An offset as it is shown inside a list or a mapping: whole days, then seconds that
are not negative. -/
def shownOffset (o : Int) : String :=
  if o = 0 then "datetime.timezone.utc"
  else
    let seconds := o * 60
    let days := if seconds < 0 then "days=-1, " else ""
    let rest := if seconds < 0 then seconds + 86400 else seconds
    s!"datetime.timezone(datetime.timedelta({days}seconds={rest}))"

/-- The timestamp as it is shown inside a list or a mapping. Seconds are left out when
they and the fraction are zero, the fraction when it is zero. -/
def shown (t : Timestamp) : String :=
  let fields := [t.date.year, t.date.month, t.date.day, t.hour, t.minute] ++
    (if t.microsecond ≠ 0 then [t.second, t.microsecond]
     else if t.second ≠ 0 then [t.second] else [])
  let zone := (t.offset.map fun o => ["tzinfo=" ++ shownOffset o]).getD []
  "datetime.datetime(" ++ ", ".intercalate (fields.map toString ++ zone) ++ ")"

end Timestamp

end TypedClient
