import LintDirectives.DirectiveComment
import LintDirectives.LegacyMarker
import LintDirectives.SourceBytes

/-!
# Recognizing directive comments

Every comment of a source is read. A comment whose body is a directive becomes a directive
comment of its kind, another one with a deprecated marker a legacy comment. Documentation
comments are never directives, and are legacy only through a tag line.
-/

namespace LintDirectives

/-- What a comment text says, wherever it stands. -/
structure CommentReading where
  kind : DirectiveKind
  form : CommentForm
  codes : Option (List Text) := none
  note : Option Text := none
  /-- How many lines below the start of the comment its directive is placed. -/
  lineOffset : Nat := 0
deriving DecidableEq

namespace CommentReading

def ofText? (docComments : Bool) (text : Text) : Option CommentReading :=
  match CommentForm.ofText docComments text with
  | .doc =>
    (DocComment.tagLine? text).map fun tag =>
      { kind := .legacy, form := .doc, lineOffset := tag.offset }
  | form =>
    match DirectiveGrammar.read? (CommentText.body form text) with
    | some d => some { kind := d.kind, form, codes := some d.codes, note := d.note }
    | none => (LegacyMarker.find? text).map fun _ => { kind := .legacy, form }

end CommentReading

structure PlacedComment where
  text : Text
  start : Nat
  line : Nat
  column : Nat
  trailing : Bool
deriving DecidableEq

/-- A comment that is not valid UTF-8, on a line of a file. -/
structure UndecodableComment where
  path : Text
  line : Nat
deriving DecidableEq

namespace UndecodableComment

def message (e : UndecodableComment) : Text :=
  e.path ++ ":" ++ Text.ofNat e.line ++ ": undecodable comment"

end UndecodableComment

namespace PlacedComment

def ofSpan (path : Text) (source : Bytes) (span : Span) :
    Except UndecodableComment PlacedComment :=
  match Text.ofUtf8? (Source.slice source span) with
  | some text =>
    .ok { text
          start := span.start
          line := Source.lineAt source span.start
          column := Source.columnAt source span.start
          trailing := Source.isTrailing source span.start }
  | none => .error ⟨path, Source.lineAt source span.start⟩

/-- The directive comment that a comment is, as the next one after `index` others. -/
def recognize? (docComments : Bool) (index : Nat) (c : PlacedComment) : Option DirectiveComment :=
  (CommentReading.ofText? docComments c.text).map fun r =>
    { kind := r.kind
      line := Int.ofNat (c.line + r.lineOffset)
      column := Int.ofNat c.column
      index
      raw := c.text
      codes := r.codes
      note := r.note
      form := r.form
      trailing := c.trailing
      start := Int.ofNat c.start }

end PlacedComment

namespace DirectiveComment

/-- The directive comments among comments in order, numbered from `index` on. -/
def ofComments (docComments : Bool) (index : Nat) : List PlacedComment → List DirectiveComment
  | [] => []
  | c :: rest =>
    match c.recognize? docComments index with
    | some a => a :: ofComments docComments (index + 1) rest
    | none => ofComments docComments index rest

def ofSpans (docComments : Bool) (path : Text) (source : Bytes) (spans : List Span) :
    Except UndecodableComment (List DirectiveComment) :=
  (spans.mapM (PlacedComment.ofSpan path source)).map (ofComments docComments 0)

end DirectiveComment

end LintDirectives
