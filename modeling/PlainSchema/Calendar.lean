/-
PlainSchema/Calendar.lean

Days and moments of the Gregorian calendar, from year 1 to year 9999, and their
ISO 8601 texts.  A moment may carry an offset from universal time; two moments with
offsets are the same instant when they agree in universal time, and a moment with an
offset is never the same as one without.
-/
namespace PlainSchema

/-- A calendar day. -/
structure Date where
  year : Nat
  month : Nat
  day : Nat
  deriving DecidableEq, Repr, Inhabited

/-- A moment: a day, a time of day, and the offset from universal time in seconds, if known. -/
structure DateTime where
  date : Date
  hour : Nat
  minute : Nat
  second : Nat
  microsecond : Nat
  offset : Option Int
  deriving DecidableEq, Repr, Inhabited

/-- A number in decimal, with zeros in front up to the given width. -/
def padded (width n : Nat) : String :=
  let text := toString n
  String.ofList (List.replicate (width - text.length) '0') ++ text

/-! ### Days -/

namespace Date

/-- Every fourth year is a leap year, of the full centuries every fourth. -/
def isLeap (year : Nat) : Bool := year % 4 = 0 && (year % 100 ≠ 0 || year % 400 = 0)

/-- The days of a month. -/
def daysIn (year month : Nat) : Nat :=
  match month with
  | 2 => if isLeap year then 29 else 28
  | 4 | 6 | 9 | 11 => 30
  | _ => 31

/-- The days before a month of a year. -/
def daysBefore (year month : Nat) : Nat :=
  ((List.range month).drop 1).foldl (fun sum m => sum + daysIn year m) 0

/-- The days since the day before the first of January of year 1. -/
def ordinal (d : Date) : Nat :=
  let y := d.year - 1
  y * 365 + y / 4 - y / 100 + y / 400 + daysBefore d.year d.month + d.day

/-- Year, month and day. -/
def isoText (d : Date) : String :=
  padded 4 d.year ++ "-" ++ padded 2 d.month ++ "-" ++ padded 2 d.day

end Date

/-! ### Faults -/

/-- Why numbers name no day or moment. -/
inductive CalendarFault where
  | year (year : Nat)
  | month
  | day
  | hour
  | minute
  | second
  /-- An offset of a day or more, in seconds. -/
  | offset (seconds : Int)
  deriving DecidableEq, Repr

/-- The parts of a span of time other than zero: days, and the seconds of a started day. -/
def spanText (seconds : Int) : String :=
  let days := Int.fdiv seconds 86400
  let rest := Int.fmod seconds 86400
  let parts := (if days = 0 then [] else ["days=" ++ toString days])
    ++ (if rest = 0 then [] else ["seconds=" ++ toString rest])
  "datetime.timedelta(" ++ (if parts.isEmpty then "0" else ", ".intercalate parts) ++ ")"

/-- The text of a fault. -/
def CalendarFault.message : CalendarFault → String
  | year y => "year " ++ toString y ++ " is out of range"
  | month => "month must be in 1..12"
  | day => "day is out of range for month"
  | hour => "hour must be in 0..23"
  | minute => "minute must be in 0..59"
  | second => "second must be in 0..59"
  | offset s =>
    "offset must be a timedelta strictly between -timedelta(hours=24) and timedelta(hours=24), not "
      ++ spanText s ++ "."

/-- The day that the numbers name. -/
def Date.of (year month day : Nat) : Except CalendarFault Date :=
  if year = 0 ∨ 9999 < year then .error (.year year)
  else if month = 0 ∨ 12 < month then .error .month
  else if day = 0 ∨ Date.daysIn year month < day then .error .day
  else .ok ⟨year, month, day⟩

/-! ### Moments -/

namespace DateTime

/-- The moment that the numbers name.  An offset is looked at first, then the day. -/
def of (year month day hour minute second microsecond : Nat) (offset : Option Int) :
    Except CalendarFault DateTime := do
  if let some s := offset then
    if 86400 ≤ s.natAbs then throw (.offset s)
  let date ← Date.of year month day
  if 23 < hour then throw .hour
  if 59 < minute then throw .minute
  if 59 < second then throw .second
  return ⟨date, hour, minute, second, microsecond, offset⟩

/-- The microseconds since the start of the calendar, read as universal time if an offset is
known. -/
def instant (t : DateTime) : Int :=
  (((t.date.ordinal : Int) * 86400 + t.hour * 3600 + t.minute * 60 + t.second)
    - t.offset.getD 0) * 1000000 + t.microsecond

/-- Whether two moments are one instant. -/
def same (s t : DateTime) : Bool :=
  s.offset.isSome = t.offset.isSome && s.instant = t.instant

/-- The sign, hours and minutes of an offset, and its seconds where it has any. -/
def offsetText (seconds : Int) : String :=
  let n := seconds.natAbs
  (if seconds < 0 then "-" else "+") ++ padded 2 (n / 3600) ++ ":" ++ padded 2 (n / 60 % 60)
    ++ (if n % 60 = 0 then "" else ":" ++ padded 2 (n % 60))

/-- Date and time of day with a separator between them; a fraction of a second is written with
six digits, and only if there is one. -/
def isoText (separator : String) (t : DateTime) : String :=
  t.date.isoText ++ separator ++ padded 2 t.hour ++ ":" ++ padded 2 t.minute ++ ":"
    ++ padded 2 t.second
    ++ (if t.microsecond = 0 then "" else "." ++ padded 6 t.microsecond)
    ++ (match t.offset with | some s => offsetText s | none => "")

end DateTime

end PlainSchema
