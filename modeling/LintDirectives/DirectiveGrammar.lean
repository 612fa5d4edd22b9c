import LintDirectives.Blank
import LintDirectives.RulePattern

/-!
# The grammar of directives

A directive is a comment body that starts with a keyword such as `lint:ignore`, followed by a
comma-separated list of rule codes and, after a blank and two hyphens, a note. Only the first
line counts. An `ignore` that names no code means all rules.
-/

namespace LintDirectives

/-- The kinds of directive comment. A legacy one is a comment with a
deprecated marker; it has no grammar of its own. -/
inductive DirectiveKind where
  | ignore
  | disable
  | enable
  | ignoreFile
  | legacy
deriving DecidableEq

namespace DirectiveKind

def name : DirectiveKind → Text
  | ignore => "ignore"
  | disable => "disable"
  | enable => "enable"
  | ignoreFile => "ignore-file"
  | legacy => "legacy"

def all : List DirectiveKind := [ignore, disable, enable, ignoreFile, legacy]

def ofName? (t : Text) : Option DirectiveKind :=
  all.find? (·.name == t)

def keyword (k : DirectiveKind) : Text :=
  "lint:" ++ k.name

end DirectiveKind

structure WrittenDirective where
  kind : DirectiveKind
  codes : List Text
  note : Option Text
deriving DecidableEq

namespace DirectiveGrammar

/-- The kinds that have a keyword, a longer keyword before its initial part. -/
def keywordKinds : List DirectiveKind := [.ignoreFile, .ignore, .disable, .enable]

def noteMark : Text := ['-', '-']

/-- Whether a keyword may end here: at the end or before a blank. -/
def endsKeyword : Text → Bool
  | [] => true
  | c :: _ => isBlank c

def splitKeyword? (body : Text) : Option (DirectiveKind × Text) :=
  keywordKinds.findSome? fun kind =>
    match kind.keyword.isPrefixOf? body with
    | some rest => if endsKeyword rest then some (kind, rest) else none
    | none => none

/-- Split at the first run of blanks with a note mark behind it. -/
def splitBlankNote : Text → Text × Option Text
  | [] => ([], none)
  | c :: rest =>
    match if isBlank c then noteMark.isPrefixOf? (rest.dropWhile isBlank) else none with
    | some note => ([], some note)
    | none =>
      let (before, note) := splitBlankNote rest
      (c :: before, note)

/-- Split codes from the note. The note mark stands at the start or after a blank. -/
def splitNote (t : Text) : Text × Option Text :=
  match noteMark.isPrefixOf? t with
  | some note => ([], some note)
  | none => splitBlankNote t

def read? (body : Text) : Option WrittenDirective :=
  (splitKeyword? body).map fun (kind, rest) =>
    let (codePart, note) := splitNote (Text.trim (Text.firstLine rest))
    let codes := Text.commaItems codePart
    { kind
      codes := if codes.isEmpty && kind = .ignore then [wildcard] else codes
      note := note.map Text.trim }

def write (d : WrittenDirective) : Text :=
  d.kind.keyword ++
    (if d.codes.isEmpty then [] else ' ' :: Text.join ", " d.codes) ++
    (match d.note with
      | some note => " -- " ++ note
      | none => [])

end DirectiveGrammar

end LintDirectives
