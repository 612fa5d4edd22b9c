import LintDirectives.Text

/-!
# Blank characters

The characters that count as white space in directives: the ASCII controls tab to
carriage return, the four separators, the space, and the space characters of Unicode.
The zero-width space, the byte order mark and the Mongolian vowel separator are no blanks.
-/

namespace LintDirectives

/-- Whether a character counts as white space. Its ranges are not to be unfolded in proofs. -/
@[irreducible] def isBlank (c : Char) : Bool :=
  let n := c.toNat
  (9 ≤ n && n ≤ 13) || (28 ≤ n && n ≤ 32) || n == 0x85 || n == 0xA0 || n == 0x1680 ||
    (0x2000 ≤ n && n ≤ 0x200A) || n == 0x2028 || n == 0x2029 || n == 0x202F ||
    n == 0x205F || n == 0x3000

@[simp] theorem isBlank_space : isBlank ' ' = true := by decide +kernel

@[simp] theorem isBlank_tab : isBlank '\t' = true := by decide +kernel

@[simp] theorem isBlank_lineFeed : isBlank '\n' = true := by decide +kernel

@[simp] theorem isBlank_hyphen : isBlank '-' = false := by decide +kernel

@[simp] theorem isBlank_comma : isBlank ',' = false := by decide +kernel

@[simp] theorem isBlank_slash : isBlank '/' = false := by decide +kernel

@[simp] theorem isBlank_star : isBlank '*' = false := by decide +kernel

@[simp] theorem isBlank_hash : isBlank '#' = false := by decide +kernel

@[simp] theorem isBlank_at : isBlank '@' = false := by decide +kernel

@[simp] theorem isBlank_letterL : isBlank 'l' = false := by decide +kernel

namespace Text

def trimStart (t : Text) : Text :=
  t.dropWhile isBlank

def trimEnd (t : Text) : Text :=
  dropEndWhile isBlank t

def trim (t : Text) : Text :=
  trimEnd (trimStart t)

/-- The items of a comma-separated list: trimmed, and empty ones left out. -/
def commaItems (t : Text) : List Text :=
  ((t.splitOn ',').map trim).filter (!·.isEmpty)

end Text

end LintDirectives
