import LintDirectives.Edit
import LintDirectives.KeyedList

/-!
# Diagnostics

A diagnostic is one finding of a check at a place in a file, possibly with an edit that
removes it. A run collects the diagnostics of many files, and its summary counts them.
-/

namespace LintDirectives

inductive Severity where
  | error
  | warning
deriving DecidableEq

namespace Severity

def name : Severity → Text
  | error => "error"
  | warning => "warning"

def label : Severity → Text
  | error => "ERROR"
  | warning => "WARNING"

def all : List Severity := [error, warning]

def ofName? (t : Text) : Option Severity :=
  all.find? (·.name == t)

def rank : Severity → Nat
  | warning => 0
  | error => 1

def le (a b : Severity) : Bool :=
  decide (a.rank ≤ b.rank)

def lt (a b : Severity) : Bool :=
  decide (a.rank < b.rank)

end Severity

structure Location where
  file : Text
  line : Int
  column : Option Int := none
deriving DecidableEq

namespace Location

/-- The place as `file:line`, followed by the column if it is known. -/
def text (l : Location) : Text :=
  let place := l.file ++ ":" ++ Text.ofInt l.line
  match l.column with
  | some column => place ++ ":" ++ Text.ofInt column
  | none => place

end Location

/-- One finding of a check. The rule is a dotted name. -/
structure Diagnostic where
  check : Text
  rule : Text
  location : Location
  severity : Severity
  message : Text
  fix : Option Edit := none
deriving DecidableEq

/-- The last component of a dotted rule name. -/
def shortCode (rule : Text) : Text :=
  (rule.reverse.takeWhile (· != '.')).reverse

namespace Diagnostic

def code (d : Diagnostic) : Text :=
  shortCode d.rule

def isFixable (d : Diagnostic) : Bool :=
  d.fix.isSome

end Diagnostic

structure RunResult where
  target : Text
  diagnostics : List Diagnostic := []
  errors : List Text := []
  filesChecked : Int := 0
  fixesApplied : Int := 0

/-- Counts over the diagnostics of a run. The keys stand in the order in which they are
first met. -/
structure Summary where
  total : Nat
  fixable : Nat
  files : Int
  fixesApplied : Int
  bySeverity : KeyedList Severity Nat
  byCode : KeyedList Text Nat

namespace RunResult

def fixable (r : RunResult) : List Diagnostic :=
  r.diagnostics.filter (·.isFixable)

def summary (r : RunResult) : Summary where
  total := r.diagnostics.length
  fixable := r.fixable.length
  files := r.filesChecked
  fixesApplied := r.fixesApplied
  bySeverity := KeyedList.tally (r.diagnostics.map (·.severity))
  byCode := KeyedList.tally (r.diagnostics.map (·.code))

end RunResult

end LintDirectives
