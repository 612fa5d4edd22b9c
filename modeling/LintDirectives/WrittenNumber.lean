import LintDirectives.Blank
import LintDirectives.DecimalDigits
import LintDirectives.ReadingError

/-!
# Numbers as they are written

Reading integers and floating point numbers from texts. Blanks around a number do not count,
and the decimal digits of all scripts do.
-/

namespace LintDirectives

namespace WrittenNumber

/-- A character as it counts in a number: digits as ASCII digits and blanks as spaces. Other
characters beyond ASCII count as question marks, which stand in no number. -/
def plainChar (c : Char) : Char :=
  if c.toNat < 127 then c
  else if isBlank c then ' '
  else match decimalDigit? c with
    | some d => Char.ofNat (48 + d)
    | none => '?'

def isSpace (c : Char) : Bool :=
  c == ' ' || (9 ≤ c.toNat && c.toNat ≤ 13)

/-- A text as it counts as a number, without the blanks around it. -/
def plainForm (t : Text) : Text :=
  Text.dropEndWhile isSpace ((t.map plainChar).dropWhile isSpace)

/-- The sign of a number, true for minus, and its text without the sign. -/
def splitSign (t : Text) : Bool × Text :=
  match t with
  | '-' :: rest => (true, rest)
  | '+' :: rest => (false, rest)
  | _ => (false, t)

def digitValue (c : Char) : Nat :=
  if c.isDigit then c.toNat - 48
  else if c.isAlpha then c.toLower.toNat - 97 + 10
  else 36

def natural (base : Nat) (digits : Text) : Nat :=
  digits.foldl (fun n c => n * base + digitValue c) 0

def baseLetter? (base : Nat) : Option Char :=
  match base with
  | 2 => some 'b'
  | 8 => some 'o'
  | 16 => some 'x'
  | _ => none

/-- The text without a zero and a letter that announce its base. -/
def dropBaseMark (base : Nat) (t : Text) : Text :=
  match t with
  | '0' :: c :: rest => if baseLetter? base == some c.toLower then rest else t
  | _ => t

/-- Read an integer. Decimal integers have a limited number of digits. -/
def integer (base : Nat) (t : Text) : Except ReadingError Int :=
  let (negative, unsigned) := splitSign (plainForm t)
  let body := dropBaseMark base unsigned
  let digits := body.takeWhile fun c => digitValue c < base
  if base == 10 && ReadingError.maxDigits < digits.length then
    .error (.longInteger digits.length)
  else if digits.isEmpty || digits.length < body.length then .error (.integer base t)
  else
    let n := Int.ofNat (natural base digits)
    .ok (if negative then -n else n)

def decimal (whole fraction : Text) (exponent : Int) : Float :=
  let e := exponent - Int.ofNat fraction.length
  Float.ofScientific (natural 10 (whole ++ fraction)) (decide (e < 0)) e.natAbs

def exponent? (t : Text) : Option Int :=
  match t with
  | [] => some 0
  | e :: rest =>
    let (negative, digits) := splitSign rest
    if (e == 'e' || e == 'E') && !digits.isEmpty && digits.all Char.isDigit then
      let n := Int.ofNat (natural 10 digits)
      some (if negative then -n else n)
    else none

/-- Read an unsigned decimal, with or without a point and an exponent. -/
def decimal? (t : Text) : Option Float :=
  let whole := t.takeWhile Char.isDigit
  let rest := t.drop whole.length
  let (fraction, after) := match rest with
    | '.' :: r => (r.takeWhile Char.isDigit, r.dropWhile Char.isDigit)
    | _ => ([], rest)
  if whole.isEmpty && fraction.isEmpty then none
  else (exponent? after).map fun e => decimal whole fraction e

def infinity : Float := 1.0 / 0.0

def undefined : Float := 0.0 / 0.0

/-- Read a floating point number: a decimal, or a word for infinity or for what is no number. -/
def float (t : Text) : Except ReadingError Float :=
  let (negative, body) := splitSign (plainForm t)
  let word := body.map Char.toLower
  let magnitude? : Option Float :=
    if word == ("inf" : Text) || word == ("infinity" : Text) then some infinity
    else if word == ("nan" : Text) then some undefined
    else decimal? body
  match magnitude? with
  | some x => .ok (if negative then -x else x)
  | none => .error (.float t)

end WrittenNumber

end LintDirectives
