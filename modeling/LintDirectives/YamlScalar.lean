import LintDirectives.Base64
import LintDirectives.ConfigValue
import LintDirectives.TitleCase
import LintDirectives.YamlTag

/-!
# Scalars of YAML documents

The value of a scalar, given what it is read as. The text of a number that has its tag by its
looks can always be read, but a tag may also be written before any other text.
-/

namespace LintDirectives.Yaml

inductive LoadError where
  | document
  | scalar (e : ReadingError)
deriving DecidableEq

namespace Scalar

def withoutLowLines (t : Text) : Text :=
  t.filter (· != '_')

/-- The number with given sexagesimal places, the lowest one first. -/
def sexagesimal (places : List Int) : Int :=
  places.foldr (fun place n => n * 60 + place) 0

/-- Read an integer without its first sign. A zero at the start announces a base. -/
def magnitude (t : Text) : Except ReadingError Int :=
  match t with
  | [] => .error .missingNumber
  | ['0'] => .ok 0
  | '0' :: 'b' :: rest => WrittenNumber.integer 2 rest
  | '0' :: 'x' :: rest => WrittenNumber.integer 16 rest
  | '0' :: _ => WrittenNumber.integer 8 t
  | _ =>
    if t.contains ':' then
      ((t.splitOn ':').mapM (WrittenNumber.integer 10)).map fun places =>
        sexagesimal places.reverse
    else WrittenNumber.integer 10 t

def integer (t : Text) : Except ReadingError Int :=
  match withoutLowLines t with
  | [] => .error .missingNumber
  | digits =>
    let (negative, unsigned) := WrittenNumber.splitSign digits
    (magnitude unsigned).map fun n => if negative then -n else n

/-- The sum of sexagesimal places, the lowest one first, added up from the lowest one. -/
def sexagesimalSum (places : List Float) : Float :=
  let weighted := places.zipIdx.map fun (place, k) => place * Float.ofNat (Nat.pow 60 k)
  weighted.foldl (· + ·) 0.0

/-- Read a floating point number without its first sign. -/
def floatMagnitude (t : Text) : Except ReadingError Float :=
  if t == (".inf" : Text) then .ok WrittenNumber.infinity
  else if t == (".nan" : Text) then .ok WrittenNumber.undefined
  else if t.contains ':' then
    ((t.splitOn ':').mapM WrittenNumber.float).map fun places => sexagesimalSum places.reverse
  else WrittenNumber.float t

def float (t : Text) : Except ReadingError Float :=
  match Text.lower (withoutLowLines t) with
  | [] => .error .missingNumber
  | digits =>
    let (negative, unsigned) := WrittenNumber.splitSign digits
    (floatMagnitude unsigned).map fun x => if negative then -x else x

def boolean (t : Text) : Except ReadingError Bool :=
  match booleanWords.lookup (Text.lower t) with
  | some b => .ok b
  | none => .error .truthWord

/-- A fraction of a second in microseconds, from its first six digits. -/
def microseconds (fraction : Text) : Nat :=
  let digits := fraction.take 6
  WrittenNumber.natural 10 digits * Nat.pow 10 (6 - digits.length)

def offsetMinutes (behind : Bool) (hours minutes : Text) : Int :=
  let n := Int.ofNat (WrittenNumber.natural 10 hours * 60 + WrittenNumber.natural 10 minutes)
  if behind then -n else n

/-- The date or moment with given parts. -/
def timestampOf (parts : TimestampParts) : Except CalendarError ConfigValue :=
  let number := WrittenNumber.natural 10
  match parts.time with
  | none =>
    (CalendarDate.ofParts (number parts.year) (number parts.month) (number parts.day)).map .date
  | some (hour, minute, second) =>
    let offset := parts.offset.map fun (behind, hours, minutes) =>
      offsetMinutes behind hours minutes
    (CalendarMoment.ofParts (number parts.year) (number parts.month) (number parts.day)
      (number hour) (number minute) (number second) (microseconds parts.fraction) offset).map
      .moment

def timestamp (t : Text) : Except ReadingError ConfigValue :=
  match TimestampParts.ofText? (withoutLastBreak t) with
  | none => .error .timestamp
  | some parts => (timestampOf parts).mapError .calendar

def binary (t : Text) : Except LoadError ConfigValue :=
  if t.all fun c => c.toNat < 128 then
    match Base64.decode? t with
    | some bytes => .ok (.bytes bytes)
    | none => .error .document
  else .error .document

def read (tag : Tag) (t : Text) : Except LoadError ConfigValue :=
  match tag with
  | .null => .ok .null
  | .bool => ((boolean t).map .bool).mapError .scalar
  | .int => ((integer t).map .int).mapError .scalar
  | .float => ((float t).map .float).mapError .scalar
  | .binary => binary t
  | .timestamp => (timestamp t).mapError .scalar
  | .text => .ok (.text t)
  | _ => .error .document

end Scalar

end LintDirectives.Yaml
