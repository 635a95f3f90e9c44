/-
  Dates and moments of the Gregorian calendar.

  A moment may carry an offset from universal time; then it stands for an
  instant, and two such moments are the same when their instants are.

  * `Date.make`, `Moment.make`: the checks on the fields, year first;
  * `Moment.same`: equality of moments;
  * `Date.text`, `Moment.text` and the forms shown inside collections.
-/
namespace AnnotationOrder.Document

/-- Why fields do not make a date or a moment. -/
inductive CalendarError
  | year (n : Nat)
  | month
  | day
  | hour
  | minute
  | second
  /-- An offset of a day or more, in seconds. -/
  | offset (seconds : Int)
  deriving DecidableEq, Repr

/-- A day of the calendar. -/
structure Date where
  year : Nat
  month : Nat
  day : Nat
  deriving DecidableEq, Repr, Inhabited

/-- A time on a day, to the microsecond, with an optional offset from universal time in seconds. -/
structure Moment where
  date : Date
  hour : Nat
  minute : Nat
  second : Nat
  microsecond : Nat
  offset : Option Int
  deriving DecidableEq, Repr, Inhabited

/-- A length of time as whole days and the seconds left over. -/
def daysAndSeconds (seconds : Int) : Int × Int := (seconds.fdiv 86400, seconds.fmod 86400)

/-- A length of time as it is shown. -/
def durationShown (seconds : Int) : String :=
  let (d, s) := daysAndSeconds seconds
  let parts := (if d = 0 then [] else ["days=" ++ toString d])
    ++ (if s = 0 then [] else ["seconds=" ++ toString s])
  "datetime.timedelta(" ++ (if parts.isEmpty then "0" else ", ".intercalate parts) ++ ")"

/-- The text of a calendar error. -/
def CalendarError.message : CalendarError → String
  | year n => "year " ++ toString n ++ " is out of range"
  | month => "month must be in 1..12"
  | day => "day is out of range for month"
  | hour => "hour must be in 0..23"
  | minute => "minute must be in 0..59"
  | second => "second must be in 0..59"
  | offset seconds =>
    "offset must be a timedelta strictly between -timedelta(hours=24) and timedelta(hours=24), not "
      ++ durationShown seconds ++ "."

/-- A year with a day more. -/
def isLeap (y : Nat) : Bool := y % 4 = 0 && (y % 100 != 0 || y % 400 = 0)

/-- The number of days of a month. -/
def daysInMonth (y m : Nat) : Nat :=
  if m = 2 then (if isLeap y then 29 else 28)
  else if m = 4 || m = 6 || m = 9 || m = 11 then 30
  else 31

/-- Digits of a number, zeros in front up to the width. -/
def padded (width n : Nat) : String :=
  let ds := Nat.toDigits 10 n
  String.ofList (List.replicate (width - ds.length) '0' ++ ds)

namespace Date

/-- The date with these fields. -/
def make (y m d : Nat) : Except CalendarError Date :=
  if y = 0 || 9999 < y then .error (.year y)
  else if m = 0 || 12 < m then .error .month
  else if d = 0 || daysInMonth y m < d then .error .day
  else .ok ⟨y, m, d⟩

/-- The days before a date, counted from the start of the calendar. -/
def ordinal (x : Date) : Nat :=
  let y := x.year - 1
  let before := ((List.range x.month).drop 1).foldl (fun n m => n + daysInMonth x.year m) 0
  y * 365 + y / 4 - y / 100 + y / 400 + before + x.day

def text (x : Date) : String := padded 4 x.year ++ "-" ++ padded 2 x.month ++ "-" ++ padded 2 x.day

def shown (x : Date) : String :=
  "datetime.date(" ++ toString x.year ++ ", " ++ toString x.month ++ ", " ++ toString x.day ++ ")"

end Date

namespace Moment

/-- The moment with these fields. -/
def make (date : Date) (h mi s us : Nat) (offset : Option Int) : Except CalendarError Moment :=
  if 23 < h then .error .hour
  else if 59 < mi then .error .minute
  else if 59 < s then .error .second
  else .ok ⟨date, h, mi, s, us, offset⟩

/-- Microseconds since the start of the calendar, by the moment's own clock. -/
def clock (x : Moment) : Int :=
  ((x.date.ordinal * 86400 + x.hour * 3600 + x.minute * 60 + x.second : Nat) : Int) * 1000000
    + x.microsecond

/-- Microseconds since the start of the calendar in universal time. -/
def instant (x : Moment) : Int := x.clock - x.offset.getD 0 * 1000000

/-- Two moments are the same when both have an offset or neither has, and the times agree. -/
def same (x y : Moment) : Bool := x.offset.isSome == y.offset.isSome && x.instant == y.instant

def offsetText (seconds : Int) : String :=
  let n := seconds.natAbs
  (if seconds < 0 then "-" else "+") ++ padded 2 (n / 3600) ++ ":" ++ padded 2 (n / 60 % 60)

def text (x : Moment) : String :=
  x.date.text ++ " " ++ padded 2 x.hour ++ ":" ++ padded 2 x.minute ++ ":" ++ padded 2 x.second
    ++ (if x.microsecond = 0 then "" else "." ++ padded 6 x.microsecond)
    ++ (x.offset.map offsetText).getD ""

def shown (x : Moment) : String :=
  let fields := [x.date.year, x.date.month, x.date.day, x.hour, x.minute].map toString
    ++ (if x.second = 0 && x.microsecond = 0 then [] else [toString x.second])
    ++ (if x.microsecond = 0 then [] else [toString x.microsecond])
    ++ match x.offset with
      | none => []
      | some 0 => ["tzinfo=datetime.timezone.utc"]
      | some s => ["tzinfo=datetime.timezone(" ++ durationShown s ++ ")"]
  "datetime.datetime(" ++ ", ".intercalate fields ++ ")"

end Moment

end AnnotationOrder.Document
