import LintDirectives.DirectiveComment
import LintDirectives.FindingCode

/-!
# Deprecated markers

Three markers of old comments have a modern keyword each. In a line or block comment the
marker is replaced where it stands. A documentation comment is never read as a directive, so
it is replaced as a whole by a block comment made of its tag line.
-/

namespace LintDirectives

inductive LegacyMarker where
  | ignoreLine
  | ignoreStart
  | ignoreEnd
deriving DecidableEq

namespace LegacyMarker

def text : LegacyMarker → Text
  | ignoreLine => "@legacy-ignore-line"
  | ignoreStart => "@legacy-ignore-start"
  | ignoreEnd => "@legacy-ignore-end"

/-- The kind of directive that takes its place. -/
def kind : LegacyMarker → DirectiveKind
  | ignoreLine => .ignore
  | ignoreStart => .disable
  | ignoreEnd => .enable

def modern (m : LegacyMarker) : Text :=
  m.kind.keyword

def finding : LegacyMarker → FindingCode
  | ignoreLine => .deprecatedIgnoreLine
  | ignoreStart => .deprecatedIgnoreStart
  | ignoreEnd => .deprecatedIgnoreEnd

def all : List LegacyMarker := [ignoreLine, ignoreStart, ignoreEnd]

/-- The first marker, in the order of all markers, that occurs in a text. -/
def find? (t : Text) : Option LegacyMarker :=
  all.find? fun m => Text.occursIn m.text t

end LegacyMarker

namespace DocComment

/-- Drop the slash and two or more stars that open a documentation comment. -/
def dropOpen : Text → Text
  | '/' :: '*' :: '*' :: rest => rest.dropWhile (· == '*')
  | t => t

/-- Drop the blanks at the start and one star after them. -/
def dropGutter (t : Text) : Text :=
  match Text.trimStart t with
  | '*' :: rest => rest
  | rest => rest

def lineContent (first : Bool) (line : Text) : Text :=
  let trimmed := Text.trim line
  let opened := if first then dropOpen trimmed else trimmed
  Text.trim (dropGutter (CommentText.dropBlockClose opened))

/-- The contents of the lines without delimiters and gutter. -/
def contents (raw : Text) : List Text :=
  match raw.splitOn '\n' with
  | [] => []
  | first :: rest => lineContent true first :: rest.map (lineContent false)

structure TagLine where
  offset : Nat
  content : Text
  marker : LegacyMarker
deriving DecidableEq

/-- Look for the first tag line among contents that start at a line offset. -/
def tagLineFrom? (offset : Nat) : List Text → Option TagLine
  | [] => none
  | content :: rest =>
    match if content.head? = some '@' then LegacyMarker.find? content else none with
    | some marker => some ⟨offset, content, marker⟩
    | none => tagLineFrom? (offset + 1) rest

def tagLine? (raw : Text) : Option TagLine :=
  tagLineFrom? 0 (contents raw)

end DocComment

/-- A comment text that takes the place of one with a deprecated marker. -/
structure Migration where
  marker : LegacyMarker
  text : Text
deriving DecidableEq

namespace Migration

/-- The directive written by a tag line: the modern keyword and what follows the marker. -/
def ofTagLine (tag : DocComment.TagLine) : Text :=
  let rest := match Text.cut? tag.marker.text tag.content with
    | some (_, after) => after
    | none => []
  Text.trim (tag.marker.modern ++ rest)

def ofComment? (form : CommentForm) (raw : Text) : Option Migration :=
  match form with
  | .doc =>
    (DocComment.tagLine? raw).map fun tag =>
      ⟨tag.marker, "/* " ++ ofTagLine tag ++ " */"⟩
  | _ =>
    (LegacyMarker.find? raw).map fun marker =>
      ⟨marker, Text.replaceAll marker.text marker.modern raw⟩

end Migration

end LintDirectives
