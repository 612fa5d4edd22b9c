import LintDirectives.Diagnostic
import LintDirectives.RulePattern

/-!
# Recording diagnostics past suppressions

A sink collects the diagnostics of one file and drops those whose rule is suppressed on
their line. A scope lifts the suppressions of one line while it is open: it takes the entry
of the line away and puts it back when it closes. Scopes close in the reverse order in which
they opened, also when the work inside them fails.
-/

namespace LintDirectives

/-- The patterns suppressed on each line. An entry without patterns suppresses nothing. -/
abbrev LineSuppressions := KeyedList Int (List Text)

namespace LineSuppressions

def add (line : Int) (pattern : Text) (s : LineSuppressions) : LineSuppressions :=
  KeyedList.update line
    (fun patterns =>
      let present := patterns.getD []
      if pattern ∈ present then present else present ++ [pattern]) s

def ofMarks (marks : List (Int × Text)) : LineSuppressions :=
  marks.foldl (fun s (line, pattern) => add line pattern s) []

/-- The suppressions given by entries; the last entry of a line counts. -/
def ofEntries (entries : List (Int × List Text)) : LineSuppressions :=
  entries.foldl (fun s (line, patterns) => KeyedList.put line patterns s) []

def covers (s : LineSuppressions) (line : Int) (rule : Text) : Bool :=
  ((KeyedList.get? line s).getD []).any (ruleMatches rule)

/-- The entries by increasing line, each with its distinct patterns by code point. -/
def sorted (s : LineSuppressions) : List (Int × List Text) :=
  (s.map fun (line, patterns) => (line, patterns.eraseDups.mergeSort Text.le)).mergeSort
    fun a b => decide (a.1 ≤ b.1)

end LineSuppressions

structure Sink where
  path : Text
  suppressions : LineSuppressions := []
  /-- The open scopes, innermost first, with the entries they took away. -/
  scopes : List (Int × Option (List Text)) := []
  diagnostics : List Diagnostic := []
  suppressedCount : Nat := 0

namespace Sink

def isSuppressed (s : Sink) (line : Int) (rule : Text) : Bool :=
  s.suppressions.covers line rule

/-- A diagnostic before it is known which file it belongs to. -/
structure Entry where
  line : Int
  column : Option Int := none
  check : Text
  rule : Text
  severity : Severity
  message : Text
  fix : Option Edit := none
deriving DecidableEq

def Entry.diagnostic (e : Entry) (path : Text) : Diagnostic where
  check := e.check
  rule := e.rule
  location := { file := path, line := e.line, column := e.column }
  severity := e.severity
  message := e.message
  fix := e.fix

/-- Record an entry unless its line suppresses its rule. -/
def record (s : Sink) (e : Entry) : Sink :=
  if s.isSuppressed e.line e.rule then { s with suppressedCount := s.suppressedCount + 1 }
  else { s with diagnostics := s.diagnostics ++ [e.diagnostic s.path] }

def enter (s : Sink) (line : Int) : Sink :=
  { s with
    scopes := (line, KeyedList.get? line s.suppressions) :: s.scopes
    suppressions := KeyedList.erase line s.suppressions }

def exit (s : Sink) : Sink :=
  match s.scopes with
  | [] => s
  | (line, some patterns) :: rest =>
    { s with scopes := rest, suppressions := KeyedList.put line patterns s.suppressions }
  | (_, none) :: rest => { s with scopes := rest }

/-- Record an entry with the suppressions of its line lifted. -/
def report (s : Sink) (e : Entry) : Sink :=
  ((s.enter e.line).record e).exit

/-- One operation on a sink. A failing one opens a scope, asks whether a rule is suppressed,
and is thrown out of the scope. -/
inductive Step where
  | record (e : Entry)
  | query (line : Int) (rule : Text)
  | report (e : Entry)
  | enter (line : Int)
  | exit
  | fail (line : Int) (rule : Text)

inductive Answer where
  | recorded (accepted : Bool)
  | suppressed (answer : Bool)
  | done
  | failed (suppressed : Bool)
deriving DecidableEq

def step (s : Sink) : Step → Sink × Answer
  | .record e => (s.record e, .recorded (!s.isSuppressed e.line e.rule))
  | .query line rule => (s, .suppressed (s.isSuppressed line rule))
  | .report e => (s.report e, .done)
  | .enter line => (s.enter line, .done)
  | .exit => (s.exit, .done)
  | .fail line rule =>
    let inside := s.enter line
    (inside.exit, .failed (inside.isSuppressed line rule))

end Sink

end LintDirectives
