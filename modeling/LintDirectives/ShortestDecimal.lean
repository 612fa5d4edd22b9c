import LintDirectives.Text

/-!
# Shortest decimals

The decimal with the fewest digits that reads back as a given binary floating point number,
and of those the nearest. A positive number is taken as `m * 2 ^ q`. The reals that round to
it form an interval around it whose ends belong to it when `m` is even. For each number of
digits the two neighbours of the number on the decimal grid are tried.
-/

namespace LintDirectives

namespace ShortestDecimal

structure Decimal where
  digits : Nat
  exponent : Int
deriving DecidableEq

/-- A finite positive binary number and the interval of reals that round to it, in quarters
of its last place: the number is `4 * m` quarters of `2 ^ q`. -/
structure Binary where
  mantissa : Nat
  exponent : Int
  /-- Whether the gap below is half the gap above. -/
  narrowBelow : Bool

namespace Binary

def centre (b : Binary) : Nat := 4 * b.mantissa

def low (b : Binary) : Nat := b.centre - (if b.narrowBelow then 1 else 2)

def high (b : Binary) : Nat := b.centre + 2

/-- Numerator and denominator of the factor that turns quarters into units of `10 ^ p`. -/
def scale (b : Binary) (p : Int) : Nat × Nat :=
  let q := b.exponent - 2
  (Nat.pow 2 q.toNat * Nat.pow 10 (-p).toNat, Nat.pow 2 (-q).toNat * Nat.pow 10 p.toNat)

def magnitude (b : Binary) : Int :=
  let (num, den) := b.scale (-400)
  Int.ofNat (Nat.toDigits 10 (b.centre * num / den)).length - 401

/-- Whether `k * 10 ^ p` rounds to the number. -/
def reads (b : Binary) (p : Int) (k : Nat) : Bool :=
  let (num, den) := b.scale p
  let x := k * den
  if b.mantissa % 2 == 0 then decide (b.low * num ≤ x) && decide (x ≤ b.high * num)
  else decide (b.low * num < x) && decide (x < b.high * num)

/-- The grid point next to the number that rounds to it, if one does. -/
def onGrid? (b : Binary) (p : Int) : Option Decimal :=
  let (num, den) := b.scale p
  let below := b.centre * num / den
  let twice := 2 * (b.centre * num - below * den)
  match b.reads p below, b.reads p (below + 1) with
  | false, false => none
  | true, false => some ⟨below, p⟩
  | false, true => some ⟨below + 1, p⟩
  | true, true =>
    if twice < den || (twice == den && below % 2 == 0) then some ⟨below, p⟩
    else some ⟨below + 1, p⟩

def shortest (b : Binary) : Decimal :=
  let top := b.magnitude
  match (List.range 17).findSome? fun n => b.onGrid? (top - Int.ofNat n) with
  | some d => d
  | none => ⟨0, 0⟩

end Binary

/-- Drop the zeros at the end of a decimal, moving them into the exponent. -/
def normalize (d : Decimal) : Decimal :=
  let digits := (Nat.toDigits 10 d.digits).reverse
  let zeros := digits.takeWhile (· == '0')
  ⟨d.digits / Nat.pow 10 zeros.length, d.exponent + Int.ofNat zeros.length⟩

/-- Digits with the point after the leading `whole` of them, and with zeros where digits
are missing. -/
def positional (digits : Text) (whole : Int) : Text :=
  if whole ≤ 0 then
    "0." ++ List.replicate (-whole).toNat '0' ++ digits
  else
    let n := whole.toNat
    let front := digits.take n ++ List.replicate (n - digits.length) '0'
    let back := digits.drop n
    front ++ "." ++ (if back.isEmpty then ['0'] else back)

/-- Digits with one of them before the point, and an exponent of at least two digits. -/
def scientific (digits : Text) (power : Int) : Text :=
  let fraction := match digits.drop 1 with
    | [] => []
    | rest => '.' :: rest
  let magnitude := Text.ofNat power.natAbs
  let padded := List.replicate (2 - magnitude.length) '0' ++ magnitude
  digits.take 1 ++ fraction ++ (if power < 0 then "e-".toList else "e+".toList) ++ padded

/-- A decimal in text: positional from `10 ^ -4` up to `10 ^ 16`, with at least one digit
after the point. -/
def render (d : Decimal) : Text :=
  let d := normalize d
  let digits := Text.ofNat d.digits
  let power := d.exponent + Int.ofNat digits.length - 1
  if -4 ≤ power ∧ power < 16 then positional digits (power + 1) else scientific digits power

/-- The weight of the sign in the binary form of a floating point number. -/
def signWeight : Nat := 0x8000000000000000

/-- The weight of the last place of the exponent in the binary form, one more than the largest
fraction. -/
def exponentWeight : Nat := 0x10000000000000

/-- The integer that a floating point number is equal to, if there is one. -/
def exactInt? (x : Float) : Option Int :=
  let bits := x.toBits.toNat
  let biased := bits / exponentWeight % 2048
  let fraction := bits % exponentWeight
  let mantissa := if biased = 0 then fraction else fraction + exponentWeight
  let exponent := Int.ofNat (max biased 1) - 1075
  let scaled := mantissa * Nat.pow 2 exponent.toNat
  let divisor := Nat.pow 2 (-exponent).toNat
  if biased = 2047 || scaled % divisor != 0 then none
  else
    let n := Int.ofNat (scaled / divisor)
    some (if signWeight ≤ bits then -n else n)

end ShortestDecimal

open ShortestDecimal in
/-- The shortest text that reads back as a floating point number. -/
def Text.ofFloat (x : Float) : Text :=
  let bits := x.toBits.toNat
  let negative := decide (signWeight ≤ bits)
  let biased := bits / exponentWeight % 2048
  let fraction := bits % exponentWeight
  let magnitude : Text :=
    if biased = 2047 then (if fraction = 0 then "inf" else "nan")
    else if biased = 0 ∧ fraction = 0 then "0.0"
    else
      let b : Binary :=
        if biased = 0 then ⟨fraction, -1074, false⟩
        else ⟨fraction + exponentWeight, Int.ofNat biased - 1075,
          fraction == 0 && decide (1 < biased)⟩
      render b.shortest
  if negative && !(biased = 2047 && fraction ≠ 0) then '-' :: magnitude else magnitude

end LintDirectives
