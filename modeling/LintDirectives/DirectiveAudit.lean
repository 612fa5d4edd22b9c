import LintDirectives.DiagnosticSink
import LintDirectives.LegacyMarker
import LintDirectives.NoteSeparator

/-!
# Auditing the directives of a file

The directives are read in order. Bare directives, whole-file suppressions, deprecated
markers and glued notes are reported where they stand. A `disable` opens the suppression of
each of its codes, an `enable` closes it, and what lacks a partner is reported: an `enable`
at once, a `disable` at the end of the file. Findings are recorded past the suppressions of
their own line.
-/

namespace LintDirectives

/-- A finding about a directive, with a new text for its comment if the finding can be
fixed. -/
structure Finding where
  code : FindingCode
  about : Directive
  message : Text
  newText : Option Text := none
deriving DecidableEq

namespace Directive

/-- The edit that replaces the whole comment of a directive, if the comment has a range. -/
def replacement (d : Directive) (text : Text) : Except BadRange Edit :=
  Edit.ofBounds d.comment.start d.comment.stop text

def finding (d : Directive) (code : FindingCode) (message : Text)
    (newText : Option Text := none) : Finding where
  code := code
  about := d
  message := message
  newText := newText

/-- Findings about notes glued to codes. A single glued code is repaired; with several of
them a comma may belong to the note, and no repair is proposed. -/
def glueFindings (d : Directive) : List Finding :=
  match d.gluedCodes with
  | [] => []
  | [g] =>
    let newText := some (g.repairIn d.comment.raw)
    match g.kind with
    | .malformed =>
      [d.finding .malformedNoteSeparator (FindingMessage.malformedSeparator g.code) newText]
    | .missing =>
      [d.finding .missingNoteSeparator (FindingMessage.missingSeparator g.code g.note) newText]
  | g :: _ => [d.finding .missingNoteSeparator (FindingMessage.ambiguousSeparator g.code)]

def legacyFindings (d : Directive) : List Finding :=
  match Migration.ofComment? d.comment.form d.comment.raw with
  | some migration =>
    [d.finding migration.marker.finding
      (FindingMessage.deprecated migration.marker.text migration.marker.modern)
      (some migration.text)]
  | none => []

/-- Findings about a directive by itself, whatever stands around it. -/
def ownFindings (d : Directive) : List Finding :=
  match d.kind with
  | .legacy => d.legacyFindings
  | .ignore =>
    if d.isBare then [d.finding .bareIgnore FindingMessage.bareIgnore] else d.glueFindings
  | .disable =>
    if d.isBare then [d.finding .bareDisable FindingMessage.bareDisable] else d.glueFindings
  | .enable => if d.isBare then [] else d.glueFindings
  | .ignoreFile => [d.finding .ignoreFile FindingMessage.ignoreFile]

end Directive

abbrev OpenSuppressions := KeyedList Text Directive

namespace OpenSuppressions

/-- Close the codes of an `enable`, one after the other; a code that is not open is a
finding. -/
def closeAll (d : Directive) : List Text → OpenSuppressions → OpenSuppressions × List Finding
  | [], opened => (opened, [])
  | code :: rest, opened =>
    match KeyedList.get? code opened with
    | some _ => closeAll d rest (KeyedList.erase code opened)
    | none =>
      let (remaining, findings) := closeAll d rest opened
      (remaining, d.finding .unmatchedEnable (FindingMessage.unmatchedEnable code) :: findings)

/-- Read one directive: the suppressions that are open after it, and the findings about its
partners. -/
def step (opened : OpenSuppressions) (d : Directive) : OpenSuppressions × List Finding :=
  match d.kind, d.isBare with
  | .disable, false => (d.targets.foldl (fun o code => KeyedList.put code d o) opened, [])
  | .enable, true => ([], [])
  | .enable, false => closeAll d d.targets opened
  | _, _ => (opened, [])

/-- Findings about the suppressions that are still open at the end. -/
def unclosed (opened : OpenSuppressions) : List Finding :=
  opened.map fun (code, d) =>
    d.finding .unmatchedDisable (FindingMessage.unmatchedDisable code)

end OpenSuppressions

namespace DirectiveAudit

/-- The findings of each directive in turn, and last those of the end of the file. -/
def rounds (opened : OpenSuppressions) : List Directive → List (List Finding)
  | [] => [opened.unclosed]
  | d :: rest =>
    let (after, findings) := OpenSuppressions.step opened d
    (d.ownFindings ++ findings) :: rounds after rest

def findings (directives : List Directive) : List Finding :=
  (rounds [] directives).flatten

end DirectiveAudit

namespace Finding

def fix (f : Finding) : Except BadRange (Option Edit) :=
  match f.newText with
  | some text => (f.about.replacement text).map some
  | none => .ok none

/-- The sink entry of a finding, for a check and the namespace of its rules. -/
def entry (check rules : Text) (f : Finding) : Except BadRange Sink.Entry :=
  f.fix.map fun fix =>
    { line := f.about.line
      column := some f.about.comment.column
      check
      rule := rules ++ "." ++ f.code.name
      severity := f.code.severity
      message := f.message
      fix }

end Finding

namespace Sink

/-- Report findings past the suppressions of their lines. -/
def reportAll (check rules : Text) (s : Sink) (findings : List Finding) : Except BadRange Sink :=
  findings.foldlM (fun s f => (f.entry check rules).map s.report) s

end Sink

end LintDirectives
