import LintDirectives.Blank
import LintDirectives.Diagnostic
import LintDirectives.QuotedText

/-!
# The report for terminals

A heading, counts by severity, then the diagnostics grouped by file in the order of paths, in
their own order within a file, and last the errors of files that could not be checked.
-/

namespace LintDirectives.TextReport

def toolVersion : Text := "0.1.0"

def bold : Text := "\x1b[1m"

def reset : Text := "\x1b[0m"

def colour : Severity → Text
  | .error => "\x1b[91m"
  | .warning => "\x1b[93m"

def block (withFixes : Bool) (d : Diagnostic) : List Text :=
  let place := Text.ofInt d.location.line ++
    (match d.location.column with
      | some column => ':' :: Text.ofInt column
      | none => [])
  let heading := "  " ++ place ++ " " ++ colour d.severity ++ "[" ++ d.severity.label ++ "]" ++
    reset ++ " " ++ d.rule
  let fix := match d.fix with
    | some e => if withFixes then ["    " ++ bold ++ "Fix:" ++ reset ++ " " ++ Text.quoted e.text]
      else []
    | none => []
  heading :: ("    " ++ d.message) :: fix

/-- The diagnostics of each file, by increasing path. -/
def groups (ds : List Diagnostic) : List (Text × List Diagnostic) :=
  (KeyedList.group (ds.map fun d => (d.location.file, d))).mergeSort
    fun a b => Text.le a.1 b.1

def severityCounts (s : Summary) : List (Severity × Nat) :=
  (Severity.all.map fun sev => (sev, (KeyedList.get? sev s.bySeverity).getD 0)).filter
    fun entry => 0 < entry.2

def heading (s : Summary) : List Text :=
  let counts := (severityCounts s).map fun (sev, n) =>
    colour sev ++ Text.ofNat n ++ " " ++ sev.name ++ reset
  let fixable := if s.fixable = 0 then []
    else ["  " ++ Text.ofNat s.fixable ++ " fixable with \x60scalpel fix\x60"]
  [ "Found " ++ Text.ofNat s.total ++ " problem(s) in " ++ Text.ofInt s.files ++ " file(s):",
    "  " ++ Text.join ", " counts ] ++ fixable ++ [[]]

/-- The lines about a file, from those about its diagnostics. -/
def fileLines (file : Text) (blocks : List (List Text)) : List Text :=
  (bold ++ file ++ reset) :: blocks.flatten ++ [[]]

def body (withFixes : Bool) (r : RunResult) : List Text :=
  heading r.summary ++ (groups r.diagnostics).flatMap fun (file, ds) =>
    fileLines file (ds.map (block withFixes))

def opening (r : RunResult) : List Text :=
  [bold ++ "Scalpel" ++ reset, "Target: " ++ r.target, []] ++
    if r.fixesApplied = 0 then [] else ["Applied " ++ Text.ofInt r.fixesApplied ++ " fix(es).", []]

def errorLines (r : RunResult) : List Text :=
  if r.errors.isEmpty then []
  else (colour .error ++ "Errors:" ++ reset) :: r.errors.map ("  - ".toList ++ ·)

def lines (withFixes : Bool) (r : RunResult) : List Text :=
  opening r ++
    (if r.diagnostics.isEmpty then
      ["No problems found in " ++ Text.ofInt r.filesChecked ++ " file(s)."]
      else body withFixes r) ++
    errorLines r

/-- The report, without line feeds at its end. -/
def render (withFixes : Bool) (r : RunResult) : Text :=
  Text.dropEndWhile (· == '\n') (Text.lines (lines withFixes r))

end LintDirectives.TextReport
