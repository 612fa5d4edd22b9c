import LintDirectives.CalendarDate
import LintDirectives.QuotedText

/-!
# Values that cannot be read

Why a written scalar is not a value of the kind that its tag or its looks announce.
-/

namespace LintDirectives

inductive ReadingError where
  | integer (base : Nat) (t : Text)
  /-- The text of an integer has too many digits. -/
  | longInteger (digits : Nat)
  | float (t : Text)
  /-- A date or a moment has a part that is out of its range. -/
  | calendar (e : CalendarError)
  /-- An escape stands for a number beyond all characters. -/
  | character
  /-- An escape stands for a number beyond the small integers. -/
  | hugeCharacter
  | missingNumber
  /-- The word is none of those for true and false. -/
  | truthWord
  | timestamp
  | timestampMapping
  /-- The value is nested too deeply, or within itself. -/
  | depth
deriving DecidableEq

namespace ReadingError

/-- The largest number of decimal digits of an integer. -/
def maxDigits : Nat := 4300

/-- The message about a number that has too many digits; `counted` says how many there are, if
they have been counted. -/
def longMessage (counted : Option Nat) : Text :=
  "Exceeds the limit (" ++ Text.ofNat maxDigits ++ " digits) for integer string conversion" ++
    (match counted with
      | some n => ": value has " ++ Text.ofNat n ++ " digits"
      | none => []) ++
    "; use sys.set_int_max_str_digits() to increase the limit"

def message? : ReadingError → Option Text
  | integer base t =>
    some ("invalid literal for int() with base " ++ Text.ofNat base ++ ": " ++ t.quoted.take 200)
  | longInteger digits => some (longMessage (some digits))
  | float t => some ("could not convert string to float: " ++ t.quoted)
  | calendar e => some e.message
  | character => some "chr() arg not in range(0x110000)"
  | _ => none

end ReadingError

end LintDirectives
