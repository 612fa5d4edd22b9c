import LintDirectives.DirectiveComment

/-!
# Notes glued to codes

A note is split off only where the note mark follows a blank. Without that, the note ends up
inside a code, which then suppresses nothing. Such a code is recognized by a note mark or a
space inside it, and is repaired by a note mark with one space on each side.
-/

namespace LintDirectives

/-- How a note came to be part of a code: with a note mark that no blank precedes, or without
any note mark. -/
inductive GlueKind where
  | malformed
  | missing
deriving DecidableEq

namespace GlueKind

def name : GlueKind → Text
  | malformed => "malformed"
  | missing => "missing"

def all : List GlueKind := [malformed, missing]

def ofName? (t : Text) : Option GlueKind :=
  all.find? (·.name == t)

end GlueKind

structure GluedCode where
  text : Text
  kind : GlueKind
deriving DecidableEq

namespace GluedCode

/-- Split a text at its first run of blanks. -/
def cutBlank? (t : Text) : Option (Text × Text) :=
  match t.dropWhile (!isBlank ·) with
  | [] => none
  | rest => some (t.takeWhile (!isBlank ·), Text.trimStart rest)

/-- The code and its note, each without the blanks between them. -/
def split? (g : GluedCode) : Option (Text × Text) :=
  match g.kind with
  | .malformed =>
    (Text.cut? DirectiveGrammar.noteMark g.text).map fun (before, after) =>
      (Text.trimEnd before, Text.trimStart after)
  | .missing => cutBlank? g.text

def code (g : GluedCode) : Text :=
  match g.split? with
  | some (code, _) => code
  | none => g.text

def note (g : GluedCode) : Text :=
  match g.split? with
  | some (_, note) => note
  | none => []

/-- What follows a note mark and the blanks on both sides of it, if the text starts with that. -/
def afterSpacedMark? (t : Text) : Option Text :=
  (DirectiveGrammar.noteMark.isPrefixOf? (Text.trimStart t)).map Text.trimStart

/-- Put one space on each side of the first note mark, in place of the blanks around it. -/
def spaceFirstMark : Text → Text
  | [] => []
  | c :: rest =>
    match afterSpacedMark? (c :: rest) with
    | some after => " -- " ++ after
    | none => c :: spaceFirstMark rest

/-- Code and note with a proper note mark between them. A malformed code without any mark
stays as it is. -/
def repaired (g : GluedCode) : Text :=
  match g.kind with
  | .malformed => spaceFirstMark g.text
  | .missing => g.code ++ " -- " ++ g.note

/-- Repair the first occurrence of the code in the text of a comment. -/
def repairIn (g : GluedCode) (raw : Text) : Text :=
  Text.replaceFirst g.text g.repaired raw

/-- Recognize a code that holds a note. A note mark counts before a space does. -/
def ofCode? (code : Text) : Option GluedCode :=
  if code == wildcard then none
  else if Text.occursIn DirectiveGrammar.noteMark code then some ⟨code, .malformed⟩
  else if code.any fun c => c == ' ' || c == '\t' then some ⟨code, .missing⟩
  else none

end GluedCode

namespace Directive

def gluedCodes (d : Directive) : List GluedCode :=
  d.codes.filterMap GluedCode.ofCode?

end Directive

end LintDirectives
