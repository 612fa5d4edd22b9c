import LintDirectives.DirectiveAudit
import LintDirectives.Settings
import LintDirectives.SourceLanguage
import LintDirectives.SuppressionRegions
import LintDirectives.TitleCase

/-!
# Checks

A check looks at one file at a time and gives the diagnostics to be recorded. It sees the source
and the directives of the file, its own settings, and what the sink drops. The check of
directives records past the suppressions of each line, so that a directive cannot silence what
is said about it; other checks are subject to suppressions.
-/

namespace LintDirectives

/-- A file to be checked. Its syntax tree is a function of its language, path and source. -/
structure CheckedFile where
  path : Text
  language : Language
  source : Bytes
  directives : List Directive

def CheckedFile.ofComments (language : Language) (path : Text) (source : Bytes)
    (comments : List DirectiveComment) : CheckedFile where
  path
  language
  source
  directives := comments.map Directive.classify

/-- What a check works with. Recording lifts no suppression, so the answer to each record of a check
is known beforehand: the sink drops what is suppressed when the check begins. -/
structure CheckContext extends CheckedFile where
  settings : CheckSettings
  isSuppressed : Int → Text → Bool

structure CheckFailure where
  message : Text
deriving DecidableEq

structure Check where
  name : Text
  description : Text
  /-- Whether its entries are recorded past the suppressions of their lines. -/
  pastSuppressions : Bool := false
  entries : CheckContext → Except CheckFailure (List Sink.Entry)

namespace Check

def rules (name : Text) : Text :=
  "Scalpel." ++ Text.title name

def directives : Check where
  name := "directives"
  description :=
    "Requires suppression directives to name rule codes, balances " ++
      "disable/enable pairs, migrates legacy markers and repairs note separators"
  pastSuppressions := true
  entries := fun context =>
    ((DirectiveAudit.findings context.directives).mapM
      (Finding.entry "directives" (rules "directives"))).mapError fun r => ⟨r.message⟩

def run (c : Check) (settings : CheckSettings) (file : CheckedFile) (sink : Sink) :
    Except CheckFailure Sink :=
  (c.entries { file with settings, isSuppressed := sink.isSuppressed }).map fun entries =>
    entries.foldl (if c.pastSuppressions then Sink.report else Sink.record) sink

end Check

abbrev CheckRegistry := KeyedList Text Check

namespace CheckRegistry

/-- Register a check; a check of the same name is replaced in its place. -/
def register (c : Check) (r : CheckRegistry) : CheckRegistry :=
  KeyedList.put c.name c r

def builtIn : CheckRegistry :=
  register Check.directives []

def checks (r : CheckRegistry) : List Check :=
  r.map Prod.snd

end CheckRegistry

end LintDirectives
