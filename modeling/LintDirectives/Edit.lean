import LintDirectives.ByteText

/-!
# Edits of a source

An edit replaces a range of bytes by a text. A set of edits is applied in one pass or not at
all: two edits that touch the same bytes, and an edit that reaches beyond the source, are
refused.
-/

namespace LintDirectives

/-- Replacement of the bytes from `start` up to, and not including, `stop`. -/
structure Edit where
  start : Nat
  stop : Nat
  text : Text
  start_le_stop : start ≤ stop := by omega
deriving DecidableEq

/-- A byte range that starts below zero or ends before it starts. -/
structure BadRange where
  start : Int
  stop : Int
deriving DecidableEq

namespace BadRange

def message (r : BadRange) : Text :=
  "Invalid fix range: " ++ Text.ofInt r.start ++ ".." ++ Text.ofInt r.stop

end BadRange

/-- Why a set of edits cannot be applied. -/
inductive EditConflict where
  | overlap (first second : Edit)
  | beyondEnd (edit : Edit) (length : Nat)
deriving DecidableEq

namespace Edit

def ofBounds (start stop : Int) (text : Text) : Except BadRange Edit :=
  if h : 0 ≤ start ∧ start ≤ stop then
    .ok ⟨start.toNat, stop.toNat, text, by omega⟩
  else .error ⟨start, stop⟩

/-- Whether two edits touch the same bytes. -/
def overlaps (a b : Edit) : Bool :=
  decide (a.start < b.stop) && decide (b.start < a.stop)

/-- The order of ranges: by start, then by end. -/
def rangeLe (a b : Edit) : Bool :=
  if a.start = b.start then decide (a.stop ≤ b.stop) else decide (a.start ≤ b.start)

def ordered (edits : List Edit) : List Edit :=
  edits.eraseDups.mergeSort rangeLe

def firstOverlap? : List Edit → Option (Edit × Edit)
  | a :: b :: rest => if a.overlaps b then some (a, b) else firstOverlap? (b :: rest)
  | _ => none

/-- Replace the ranges of increasing edits in the rest of a source that starts at `cursor`. -/
def splice (cursor : Nat) (source : Bytes) : List Edit → Bytes
  | [] => source
  | e :: rest =>
    source.take (e.start - cursor) ++ Text.utf8 e.text ++
      splice e.stop (source.drop (e.stop - cursor)) rest

def applyAll (source : Bytes) (edits : List Edit) : Except EditConflict Bytes :=
  let sorted := ordered edits
  match firstOverlap? sorted with
  | some (a, b) => .error (.overlap a b)
  | none =>
    match sorted.getLast? with
    | some last =>
      if source.length < last.stop then .error (.beyondEnd last source.length)
      else .ok (splice 0 source sorted)
    | none => .ok source

def range (e : Edit) : Text :=
  Text.ofNat e.start ++ ".." ++ Text.ofNat e.stop

end Edit

namespace EditConflict

def message : EditConflict → Text
  | overlap a b => "Overlapping fixes at bytes " ++ a.range ++ " and " ++ b.range
  | beyondEnd e length =>
    "Fix range " ++ e.range ++ " exceeds source length " ++ Text.ofNat length

end EditConflict

end LintDirectives
