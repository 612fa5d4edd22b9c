import LintDirectives.Text

/-!
# Dates and moments

Days of the Gregorian calendar and moments of such days. A moment may be tied to an offset
from universal time, in minutes. Two moments with offsets are the same if they are the same
point in time. Every part of a date is checked, and the first part that is out of its range
is named.
-/

namespace LintDirectives

inductive CalendarError where
  | year (n : Nat)
  | month
  | day
  | hour
  | minute
  | second
  /-- An offset of a whole day or more, in minutes. -/
  | offset (minutes : Int)
deriving DecidableEq

structure CalendarDate where
  year : Nat
  month : Nat
  day : Nat
deriving DecidableEq

structure CalendarMoment where
  date : CalendarDate
  hour : Nat
  minute : Nat
  second : Nat
  microsecond : Nat
  /-- The offset from universal time in minutes, if it is known. -/
  offset : Option Int
deriving DecidableEq

/-- A number of days, seconds and no parts of seconds, with seconds that are not negative. -/
def Text.ofDuration (minutes : Int) : Text :=
  let days := minutes.fdiv 1440
  let seconds := minutes.fmod 1440 * 60
  let parts : List Text :=
    (if days = 0 then [] else ["days=".toList ++ Text.ofInt days]) ++
      (if seconds = 0 then [] else ["seconds=".toList ++ Text.ofInt seconds])
  "datetime.timedelta(" ++ (if parts.isEmpty then "0".toList else Text.join ", " parts) ++ ")"

namespace CalendarError

def message : CalendarError → Text
  | year n => "year " ++ Text.ofNat n ++ " is out of range"
  | month => "month must be in 1..12"
  | day => "day is out of range for month"
  | hour => "hour must be in 0..23"
  | minute => "minute must be in 0..59"
  | second => "second must be in 0..59"
  | offset minutes =>
    "offset must be a timedelta strictly between -timedelta(hours=24) and " ++
      "timedelta(hours=24), not " ++ Text.ofDuration minutes ++ "."

end CalendarError

/-- A number in decimal digits, filled with zeros up to a width. -/
def Text.padded (width n : Nat) : Text :=
  let digits := ofNat n
  List.replicate (width - digits.length) '0' ++ digits

namespace CalendarDate

def isLeap (year : Nat) : Bool :=
  year % 4 == 0 && (year % 100 != 0 || year % 400 == 0)

def monthLength (year month : Nat) : Nat :=
  if month == 2 then (if isLeap year then 29 else 28)
  else if month == 4 || month == 6 || month == 9 || month == 11 then 30
  else 31

def ofParts (year month day : Nat) : Except CalendarError CalendarDate :=
  if year < 1 || 9999 < year then .error (.year year)
  else if month < 1 || 12 < month then .error .month
  else if day < 1 || monthLength year month < day then .error .day
  else .ok ⟨year, month, day⟩

def dayNumber (d : CalendarDate) : Nat :=
  let y := d.year - 1
  let before := (List.range (d.month - 1)).foldl (fun n m => n + monthLength d.year (m + 1)) 0
  y * 365 + y / 4 - y / 100 + y / 400 + before + d.day

def text (d : CalendarDate) : Text :=
  Text.padded 4 d.year ++ "-" ++ Text.padded 2 d.month ++ "-" ++ Text.padded 2 d.day

def quoted (d : CalendarDate) : Text :=
  "datetime.date(" ++ Text.join ", " ([d.year, d.month, d.day].map Text.ofNat) ++ ")"

end CalendarDate

namespace CalendarMoment

/-- The moment with given parts. The offset is checked first. -/
def ofParts (year month day hour minute second microsecond : Nat) (offset : Option Int) :
    Except CalendarError CalendarMoment := do
  match offset with
  | some minutes => if 1440 ≤ minutes.natAbs then throw (.offset minutes)
  | none => pure ()
  let date ← CalendarDate.ofParts year month day
  if 23 < hour then throw .hour
  else if 59 < minute then throw .minute
  else if 59 < second then throw .second
  else return { date, hour, minute, second, microsecond, offset }

/-- The point in time in microseconds, without the offset. -/
def clock (m : CalendarMoment) : Int :=
  let minutes := (m.date.dayNumber * 24 + m.hour) * 60 + m.minute
  Int.ofNat ((minutes * 60 + m.second) * 1000000 + m.microsecond)

/-- Whether two moments are the same. Without an offset a moment is no point in time, and
differs from every one that is. -/
def same (a b : CalendarMoment) : Bool :=
  match a.offset, b.offset with
  | none, none => a.clock == b.clock
  | some x, some y => a.clock - x * 60000000 == b.clock - y * 60000000
  | _, _ => false

def offsetText (minutes : Int) : Text :=
  (if minutes < 0 then "-".toList else "+") ++ Text.padded 2 (minutes.natAbs / 60) ++ ":" ++
    Text.padded 2 (minutes.natAbs % 60)

def text (m : CalendarMoment) : Text :=
  m.date.text ++ " " ++ Text.padded 2 m.hour ++ ":" ++ Text.padded 2 m.minute ++ ":" ++
    Text.padded 2 m.second ++
    (if m.microsecond = 0 then [] else '.' :: Text.padded 6 m.microsecond) ++
    (m.offset.map offsetText).getD []

/-- A moment as it is shown inside another value. Parts of a minute are left out if there are
none. -/
def quoted (m : CalendarMoment) : Text :=
  let parts := [m.date.year, m.date.month, m.date.day, m.hour, m.minute] ++
    (if m.microsecond = 0 then (if m.second = 0 then [] else [m.second])
      else [m.second, m.microsecond])
  let zone : List Text := match m.offset with
    | none => []
    | some 0 => ["tzinfo=datetime.timezone.utc"]
    | some minutes => ["tzinfo=datetime.timezone(".toList ++ Text.ofDuration minutes ++ ")"]
  "datetime.datetime(" ++ Text.join ", " (parts.map Text.ofNat ++ zone) ++ ")"

end CalendarMoment

end LintDirectives
