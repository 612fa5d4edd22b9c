/-!
# Membership of a character in a table of ranges

Character properties are given as tables of closed code point ranges in increasing order.
-/

namespace LintDirectives

/-- Whether a code point lies in one of the closed ranges of an increasing table. -/
def inRanges (n : Nat) : List (Nat × Nat) → Bool
  | [] => false
  | (first, last) :: rest => if n ≤ last then decide (first ≤ n) else inRanges n rest

end LintDirectives
