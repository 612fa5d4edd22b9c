import LintDirectives.Diagnostic
import LintDirectives.JsonDocument
import LintDirectives.TextReport

/-!
# The report for code scanners

A SARIF log: the distinct rules in the order of their first diagnostics, one result for each
diagnostic, and the errors of files that could not be checked. An edit is written as the
offset and the length of the bytes it deletes and the text it inserts.
-/

namespace LintDirectives.Sarif

structure Rule where
  id : Text
  name : Text
  level : Severity
deriving DecidableEq

/-- The bytes that a fix deletes and the text it inserts. -/
structure Replacement where
  byteOffset : Nat
  byteLength : Nat
  inserted : Text
deriving DecidableEq

structure Result where
  ruleId : Text
  level : Severity
  message : Text
  uri : Text
  startLine : Int
  startColumn : Option Int
  fix : Option Replacement
deriving DecidableEq

structure Log where
  rules : List Rule
  results : List Result
  errors : List Text
deriving DecidableEq

/-- The distinct rules of diagnostics; the first diagnostic of a rule settles its level. -/
def distinctRules (ds : List Diagnostic) : List Rule :=
  (ds.foldl (fun seen d => KeyedList.putNew d.rule ⟨d.rule, d.code, d.severity⟩ seen)
    ([] : KeyedList Text Rule)).map Prod.snd

def Replacement.ofEdit (e : Edit) : Replacement :=
  ⟨e.start, e.stop - e.start, e.text⟩

def Result.ofDiagnostic (withFixes : Bool) (d : Diagnostic) : Result where
  ruleId := d.rule
  level := d.severity
  message := d.message
  uri := d.location.file
  startLine := d.location.line
  startColumn := d.location.column
  fix := if withFixes then d.fix.map Replacement.ofEdit else none

def Log.ofResult (withFixes : Bool) (r : RunResult) : Log where
  rules := distinctRules r.diagnostics
  results := r.diagnostics.map (Result.ofDiagnostic withFixes)
  errors := r.errors

def fields (l : List (String × Json)) : Json :=
  .object (l.map fun (k, v) => (k.toList, v))

def messageJson (t : Text) : Json :=
  fields [("text", .text t)]

def Rule.json (r : Rule) : Json :=
  fields [("id", .text r.id), ("name", .text r.name),
    ("defaultConfiguration", fields [("level", .text r.level.name)])]

def Replacement.json (uri : Text) (p : Replacement) : Json :=
  fields [
    ("description", messageJson ("Rewrite as " ++ Text.quoted p.inserted)),
    ("artifactChanges", .array [fields [
      ("artifactLocation", fields [("uri", .text uri)]),
      ("replacements", .array [fields [
        ("deletedRegion", fields [("byteOffset", .nat p.byteOffset),
          ("byteLength", .nat p.byteLength)]),
        ("insertedContent", messageJson p.inserted)]])]])]

def Result.json (r : Result) : Json :=
  Json.objectOf [
    ("ruleId", some (.text r.ruleId)),
    ("level", some (.text r.level.name)),
    ("message", some (messageJson r.message)),
    ("locations", some (.array [fields [("physicalLocation", fields [
      ("artifactLocation", fields [("uri", .text r.uri)]),
      ("region", Json.objectOf [("startLine", some (.int r.startLine)),
        ("startColumn", r.startColumn.map Json.int)])])]])),
    ("fixes", r.fix.map fun p => .array [p.json r.uri])]

/-- The notifications about files that could not be checked. -/
def invocations (errors : List Text) : Json :=
  .array [fields [("executionSuccessful", .bool false),
    ("toolExecutionNotifications", .array (errors.map fun e =>
      fields [("level", "error"), ("message", messageJson e)]))]]

def Log.json (l : Log) : Json :=
  fields [
    ("$schema", "https://raw.githubusercontent.com/oasis-tcs/sarif-spec/master/Schemata/sarif-schema-2.1.0.json"),
    ("version", "2.1.0"),
    ("runs", .array [Json.objectOf [
      ("tool", some (fields [("driver", fields [
        ("name", "Scalpel"),
        ("version", .text TextReport.toolVersion),
        ("rules", .array (l.rules.map Rule.json))])])),
      ("results", some (.array (l.results.map Result.json))),
      ("invocations", if l.errors.isEmpty then none else some (invocations l.errors))]])]

def render (withFixes : Bool) (r : RunResult) : Text :=
  (Log.ofResult withFixes r).json.render 0

end LintDirectives.Sarif
