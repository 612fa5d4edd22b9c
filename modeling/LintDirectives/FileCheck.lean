import LintDirectives.Check
import LintDirectives.SourceComments

/-!
# Checking and fixing one file

A file is checked by all enabled checks, and its diagnostics are filtered by severity and by
the ignored rules. Fixing applies all proposed edits and checks again, until no edit is
proposed or the limit of passes is reached.
-/

namespace LintDirectives

structure Linter where
  settings : Settings := {}
  registry : CheckRegistry := CheckRegistry.builtIn
  findComments : CommentFinder := commentSpans

inductive FileError where
  | unsupported (path : Text)
  | undecodableComment (e : UndecodableComment)
  | check (e : CheckFailure)
  | settings (e : SettingsError)
  | conflict (e : EditConflict)
  | notConverged (limit : PassLimit)
  | undecodableText

namespace FileError

/-- The message about a file. Failures that come from the shape of settings have none. -/
def message? : FileError → Option Text
  | unsupported path => some ("Unsupported file type: " ++ path)
  | undecodableComment e => some e.message
  | check e => some e.message
  | settings e => e.message?
  | conflict e => some e.message
  | notConverged limit =>
    some ("Fixes did not converge after " ++ limit.value.shown ++ " pass(es)")
  | undecodableText => none

end FileError

namespace Linter

def enabledChecks (l : Linter) : List Check :=
  l.registry.checks.filter fun c => l.settings.isEnabled c.name

def runChecks (settings : Settings) (checks : List Check) (file : CheckedFile) (sink : Sink) :
    Except CheckFailure Sink :=
  checks.foldlM (fun s c => c.run (settings.check c.name) file s) sink

def reachesThreshold (l : Linter) (d : Diagnostic) : Bool :=
  (l.settings.check d.check).threshold.le d.severity

/-- The order of diagnostics in a file: by line, then by column, where a missing column counts
as zero. -/
def placeLe (a b : Diagnostic) : Bool :=
  if a.location.line = b.location.line then
    decide (a.location.column.getD 0 ≤ b.location.column.getD 0)
  else decide (a.location.line ≤ b.location.line)

/-- The diagnostics of a file whose directives are known. -/
def checkFile (l : Linter) (file : CheckedFile) : Except FileError (List Diagnostic) := do
  let lineCount := Int.ofNat (Source.lineCount file.source)
  let sink : Sink :=
    { path := file.path
      suppressions := LineSuppressions.ofDirectives file.directives lineCount }
  let sink ← (runChecks l.settings l.enabledChecks file sink).mapError FileError.check
  let diagnostics := sink.diagnostics.filter l.reachesThreshold
  let diagnostics ← (l.settings.withoutIgnored diagnostics).mapError FileError.settings
  return diagnostics.mergeSort placeLe

def checkBytes (l : Linter) (language : Language) (path : Text) (source : Bytes) :
    Except FileError (List Diagnostic) := do
  let comments ← (directiveComments l.findComments language path source).mapError
    FileError.undecodableComment
  l.checkFile (.ofComments language path source comments)

def proposedEdits (ds : List Diagnostic) : List Edit :=
  (ds.filterMap (·.fix)).eraseDups

structure Fixed where
  source : Bytes
  applied : Nat
  remaining : List Diagnostic

/-- Apply edits and check again, for a number of passes. -/
def fixPasses (check : Bytes → Except FileError (List Diagnostic)) (limit : PassLimit) :
    Nat → Bytes → Nat → Except FileError Fixed
  | 0, source, applied => do
    let remaining ← check source
    if remaining.any (·.isFixable) then .error (.notConverged limit)
    else return { source, applied, remaining }
  | n + 1, source, applied => do
    let diagnostics ← check source
    let edits := proposedEdits diagnostics
    if edits.isEmpty then return { source, applied, remaining := diagnostics }
    else
      let source ← (Edit.applyAll source edits).mapError FileError.conflict
      fixPasses check limit n source (applied + edits.length)

def fixBytes (l : Linter) (language : Language) (path : Text) (source : Bytes) :
    Except FileError Fixed :=
  fixPasses (l.checkBytes language path) l.settings.passes l.settings.passes.count source 0

def languageOf (path : Text) : Except FileError Language :=
  match Language.ofPath? path with
  | some language => .ok language
  | none => .error (.unsupported path)

def checkText (l : Linter) (path source : Text) : Except FileError (List Diagnostic) := do
  l.checkBytes (← languageOf path) path (Text.utf8 source)

def readBack (source : Bytes) : Except FileError Text :=
  match Text.ofUtf8? source with
  | some t => .ok t
  | none => .error .undecodableText

/-- Fix a text as if it were the file at a path; also the number of applied edits. -/
def fixText (l : Linter) (path source : Text) : Except FileError (Text × Nat) := do
  let fixed ← l.fixBytes (← languageOf path) path (Text.utf8 source)
  return (← readBack fixed.source, fixed.applied)

/-- Apply the edits proposed for a text once. -/
def fixOnce (l : Linter) (path source : Text) : Except FileError Text := do
  let diagnostics ← l.checkText path source
  let edited ← (Edit.applyAll (Text.utf8 source) (diagnostics.filterMap (·.fix))).mapError
    FileError.conflict
  readBack edited

end Linter

end LintDirectives
