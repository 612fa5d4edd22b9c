import LintDirectives.PrintableCharacters
import LintDirectives.Text

/-!
# Quoted text

A text between quotation marks on one line. Single marks are used unless the text has a
single mark and no double one. The backslash, the mark in use, tab, line feed and carriage
return are escaped by name, other unprintable characters by their code point in two, four
or eight hexadecimal digits.
-/

namespace LintDirectives

namespace QuotedText

/-- A number in hexadecimal digits, filled with zeros up to `width`. -/
def hex (width n : Nat) : Text :=
  let digits := Nat.toDigits 16 n
  List.replicate (width - digits.length) '0' ++ digits

def mark (t : Text) : Char :=
  if t.contains '\'' && !t.contains '"' then '"' else '\''

def escaped (quote c : Char) : Text :=
  if c == '\\' || c == quote then ['\\', c]
  else if c == '\t' then ['\\', 't']
  else if c == '\n' then ['\\', 'n']
  else if c == '\r' then ['\\', 'r']
  else if isPrintable c then [c]
  else if c.toNat ≤ 0xFF then '\\' :: 'x' :: hex 2 c.toNat
  else if c.toNat ≤ 0xFFFF then '\\' :: 'u' :: hex 4 c.toNat
  else '\\' :: 'U' :: hex 8 c.toNat

end QuotedText

/-- A text between quotation marks, on one line. -/
def Text.quoted (t : Text) : Text :=
  let quote := QuotedText.mark t
  quote :: t.flatMap (QuotedText.escaped quote) ++ [quote]

end LintDirectives
