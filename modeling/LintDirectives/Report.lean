import LintDirectives.JsonReport
import LintDirectives.SarifReport
import LintDirectives.TextReport

/-!
# Report formats

The formats a report can be written in, by name.
-/

namespace LintDirectives

inductive ReportFormat where
  | text
  | json
  | sarif
deriving DecidableEq

namespace ReportFormat

def name : ReportFormat → Text
  | text => "text"
  | json => "json"
  | sarif => "sarif"

def all : List ReportFormat := [text, json, sarif]

def ofName? (t : Text) : Option ReportFormat :=
  all.find? (·.name == t)

def unknownMessage (t : Text) : Text :=
  "Unknown formatter: " ++ t

/-- The report of a run, without a line feed at its end. -/
def render (format : ReportFormat) (withFixes : Bool) (r : RunResult) : Text :=
  match format with
  | text => TextReport.render withFixes r
  | json => JsonReport.render withFixes r
  | sarif => Sarif.render withFixes r

end ReportFormat

end LintDirectives
