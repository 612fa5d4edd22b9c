import LintDirectives.DirectiveComment
import LintDirectives.DiagnosticSink

/-!
# What directives suppress

The suppressions that a linter reads from the directives of a file. Every directive line
suppresses all rules. An `ignore` covers its own line after code, and else the next line. A
`disable` opens a region for each of its patterns, an `enable` closes regions, and a region
covers the lines between the two, or up to the last line. An `ignore-file` covers all lines.
-/

namespace LintDirectives

/-- The integers from `first` up to, and not including, `stop`. -/
def lineRange (first stop : Int) : List Int :=
  (List.range (stop - first).toNat).map fun k => first + Int.ofNat k

namespace Directive

/-- The patterns a directive stands for: its targets, or all rules if it has none. -/
def patterns (d : Directive) : List Text :=
  if d.targets.isEmpty then [wildcard] else d.targets

end Directive

/-- The regions of a file while its directives are read in order. -/
structure SuppressionRegions where
  opened : KeyedList Text Int := []
  marks : List (Int × Text) := []
  wholeFile : Bool := false

namespace SuppressionRegions

def region (pattern : Text) (first stop : Int) : List (Int × Text) :=
  (lineRange first stop).map fun line => (line, pattern)

def close (line : Int) (s : SuppressionRegions) (pattern : Text) : SuppressionRegions :=
  match KeyedList.get? pattern s.opened with
  | some start =>
    { s with
      opened := KeyedList.erase pattern s.opened
      marks := s.marks ++ region pattern (start + 1) line }
  | none => s

def step (s : SuppressionRegions) (d : Directive) : SuppressionRegions :=
  if d.kind = .legacy then s
  else
    let s := { s with marks := s.marks ++ [(d.line, wildcard)] }
    match d.kind with
    | .ignore =>
      let line := if d.comment.trailing then d.line else d.line + 1
      { s with marks := s.marks ++ d.patterns.map fun p => (line, p) }
    | .disable =>
      { s with opened := d.patterns.foldl (fun o p => KeyedList.putNew p d.line o) s.opened }
    | .enable =>
      let closing := if d.isBare then KeyedList.keys s.opened else d.patterns
      closing.foldl (close d.line) s
    | .ignoreFile => { s with wholeFile := true }
    | .legacy => s

def ofDirectives (directives : List Directive) : SuppressionRegions :=
  directives.foldl step {}

/-- All marks of a file with a number of lines: open regions reach to the last line. -/
def allMarks (s : SuppressionRegions) (lineCount : Int) : List (Int × Text) :=
  s.marks ++
    s.opened.flatMap (fun (pattern, start) => region pattern (start + 1) (lineCount + 1)) ++
    (if s.wholeFile then region wildcard 1 (lineCount + 1) else [])

end SuppressionRegions

namespace LineSuppressions

def ofDirectives (directives : List Directive) (lineCount : Int) : LineSuppressions :=
  ofMarks ((SuppressionRegions.ofDirectives directives).allMarks lineCount)

end LineSuppressions

end LintDirectives
