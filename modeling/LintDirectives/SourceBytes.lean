import LintDirectives.ByteText

/-!
# Places in a source

A source is a list of bytes; its lines end at line feeds. Places are byte offsets, lines and
columns, all of them counted in bytes.
-/

namespace LintDirectives

/-- A range of bytes, from `start` up to, and not including, `stop`. -/
structure Span where
  start : Nat
  stop : Nat
deriving DecidableEq

namespace Source

def lineFeed : UInt8 := 10

/-- The number of lines. A last line without a line feed counts. -/
def lineCount (source : Bytes) : Nat :=
  source.count lineFeed +
    (match source.getLast? with
      | none => 0
      | some last => if last = lineFeed then 0 else 1)

/-- The offset that a number stands for: one below zero counts from the end of the source, and
none goes before its start. -/
def offset (source : Bytes) (n : Int) : Nat :=
  (if n < 0 then source.length + n else n).toNat

/-- The range between two offsets that may count from the end. -/
def span (source : Bytes) (start stop : Int) : Span :=
  ⟨offset source start, offset source stop⟩

def slice (source : Bytes) (span : Span) : Bytes :=
  (source.drop span.start).take (span.stop - span.start)

def beforeOnLine (source : Bytes) (offset : Nat) : Bytes :=
  ((source.take offset).reverse.takeWhile (· != lineFeed)).reverse

def lineAt (source : Bytes) (offset : Nat) : Nat :=
  (source.take offset).count lineFeed + 1

def columnAt (source : Bytes) (offset : Nat) : Nat :=
  (beforeOnLine source offset).length + 1

/-- The space and the controls from tab to carriage return. -/
def isBlankByte (b : UInt8) : Bool :=
  b == 32 || (9 ≤ b && b ≤ 13)

/-- Whether something other than blanks stands before an offset on its line. -/
def isTrailing (source : Bytes) (offset : Nat) : Bool :=
  (beforeOnLine source offset).any (!isBlankByte ·)

end Source

end LintDirectives
