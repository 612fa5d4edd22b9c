import LintDirectives.Diagnostic
import LintDirectives.JsonDocument
import LintDirectives.TextReport

/-!
# The report for scripts

One JSON document with the tool, the target, the counts, the diagnostics in their order and
the errors.
-/

namespace LintDirectives.JsonReport

def location (l : Location) : Json :=
  Json.objectOf [("file", some (.text l.file)), ("line", some (.int l.line)),
    ("column", some ((l.column.map Json.int).getD .null))]

def edit (e : Edit) : Json :=
  Json.objectOf [("start_byte", some (.nat e.start)), ("end_byte", some (.nat e.stop)),
    ("replacement", some (.text e.text))]

/-- One diagnostic. Without fixes there is no field for the edit at all. -/
def entry (withFixes : Bool) (d : Diagnostic) : Json :=
  Json.objectOf [
    ("check", some (.text d.check)),
    ("rule", some (.text d.rule)),
    ("code", some (.text d.code)),
    ("location", some (location d.location)),
    ("severity", some (.text d.severity.name)),
    ("message", some (.text d.message)),
    ("fix", if withFixes then some ((d.fix.map edit).getD .null) else none),
    ("fixable", some (.bool d.isFixable))]

def summary (s : Summary) : Json :=
  Json.objectOf [
    ("total", some (.nat s.total)),
    ("fixable", some (.nat s.fixable)),
    ("files", some (.int s.files)),
    ("fixes_applied", some (.int s.fixesApplied)),
    ("by_severity", some (.object (s.bySeverity.map fun (k, n) => (k.name, .nat n)))),
    ("by_code", some (.object (s.byCode.map fun (k, n) => (k, .nat n))))]

def document (withFixes : Bool) (r : RunResult) : Json :=
  Json.objectOf [
    ("tool", some (Json.objectOf [("name", some "scalpel"),
      ("version", some (.text TextReport.toolVersion))])),
    ("target", some (.text r.target)),
    ("summary", some (summary r.summary)),
    ("diagnostics", some (.array (r.diagnostics.map (entry withFixes)))),
    ("errors", some (.array (r.errors.map .text)))]

def render (withFixes : Bool) (r : RunResult) : Text :=
  (document withFixes r).render 0

end LintDirectives.JsonReport
