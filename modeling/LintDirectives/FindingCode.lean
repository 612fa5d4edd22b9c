import LintDirectives.Diagnostic

/-!
# What can be wrong with a directive

The closed list of findings about directives, with their names, severities and messages.
-/

namespace LintDirectives

inductive FindingCode where
  | bareIgnore
  | bareDisable
  | ignoreFile
  | unmatchedDisable
  | unmatchedEnable
  | deprecatedIgnoreLine
  | deprecatedIgnoreStart
  | deprecatedIgnoreEnd
  | missingNoteSeparator
  | malformedNoteSeparator
deriving DecidableEq

namespace FindingCode

def name : FindingCode → Text
  | bareIgnore => "BareIgnore"
  | bareDisable => "BareDisable"
  | ignoreFile => "IgnoreFile"
  | unmatchedDisable => "UnmatchedDisable"
  | unmatchedEnable => "UnmatchedEnable"
  | deprecatedIgnoreLine => "DeprecatedIgnoreLine"
  | deprecatedIgnoreStart => "DeprecatedIgnoreStart"
  | deprecatedIgnoreEnd => "DeprecatedIgnoreEnd"
  | missingNoteSeparator => "MissingNoteSeparator"
  | malformedNoteSeparator => "MalformedNoteSeparator"

def all : List FindingCode :=
  [bareIgnore, bareDisable, ignoreFile, unmatchedDisable, unmatchedEnable,
    deprecatedIgnoreLine, deprecatedIgnoreStart, deprecatedIgnoreEnd,
    missingNoteSeparator, malformedNoteSeparator]

def ofName? (t : Text) : Option FindingCode :=
  all.find? (·.name == t)

/-- Directives that lack a partner are warnings, all else is an error. -/
def severity : FindingCode → Severity
  | unmatchedDisable => .warning
  | unmatchedEnable => .warning
  | _ => .error

end FindingCode

namespace FindingMessage

def bareIgnore : Text :=
  "lint:ignore directive must specify rule code(s). Use lint:ignore Rule.Code.Here instead."

def bareDisable : Text :=
  "lint:disable directive must specify rule code(s). Use lint:disable Rule.Code.Here instead."

def ignoreFile : Text :=
  "lint:ignore-file is not allowed. Suppress specific rules on specific lines instead."

def unmatchedDisable (code : Text) : Text :=
  "lint:disable for '" ++ code ++ "' has no matching lint:enable before end of file. " ++
    "Consider adding a lint:enable before EOF, or moving the exclusion to " ++
    "project-level configuration scoped to this file."

def unmatchedEnable (code : Text) : Text :=
  "lint:enable for '" ++ code ++ "' has no matching lint:disable. " ++
    "This enable may be stale or misplaced."

def deprecated (marker modern : Text) : Text :=
  "Deprecated '" ++ marker ++ "' directive. Use '" ++ modern ++ "' instead."

def malformedSeparator (code : Text) : Text :=
  "Directive note separator for '" ++ code ++ "' is malformed. " ++
    "The '--' requires a space before it to be recognized."

def missingSeparator (code note : Text) : Text :=
  "Directive note for '" ++ code ++ "' is missing the '--' separator. " ++
    "Use '-- " ++ note ++ "' to separate the note from rule codes."

def ambiguousSeparator (code : Text) : Text :=
  "Directive note for '" ++ code ++ "' is missing the '--' separator. " ++
    "Add '--' between rule codes and note text."

end FindingMessage

end LintDirectives
