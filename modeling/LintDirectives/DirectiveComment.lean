import LintDirectives.ByteText
import LintDirectives.CommentText
import LintDirectives.DirectiveGrammar
import LintDirectives.WordCharacters

/-!
# Directive comments

A directive comment is a comment recognized as a directive or as carrying a deprecated
marker. Classifying it settles once which codes it has and whether it is bare, that is,
names no rule of its own.
-/

namespace LintDirectives

/-- One recognized comment. The codes are missing when the producer of the comment did
not read them, which differs from an empty list. -/
structure DirectiveComment where
  kind : DirectiveKind
  line : Int
  column : Int
  index : Nat
  raw : Text
  codes : Option (List Text) := none
  note : Option Text := none
  form : CommentForm := .line
  trailing : Bool := false
  start : Int := 0
deriving DecidableEq

namespace DirectiveComment

/-- The offset of the first byte after the comment. -/
def stop (a : DirectiveComment) : Int :=
  a.start + Int.ofNat (Text.utf8 a.raw).length

end DirectiveComment

/-- A directive comment whose codes and bareness are settled. -/
structure Directive where
  comment : DirectiveComment
  isBare : Bool
  codes : List Text
deriving DecidableEq

namespace RawCodes

/-- Drop a comment mark at the start and the blanks after it. -/
def dropOpen : Text → Text
  | '/' :: '/' :: rest => Text.trimStart rest
  | '#' :: rest => Text.trimStart rest
  | '/' :: '*' :: rest => Text.trimStart (rest.dropWhile (· == '*'))
  | t => t

/-- Drop the end of a block comment and the blanks before it. -/
def dropClose (t : Text) : Text :=
  match t.reverse with
  | '/' :: '*' :: rest => (rest.dropWhile isBlank).reverse
  | _ => t

def isKeywordChar (c : Char) : Bool :=
  isWord c || c == '-'

/-- Drop a keyword at the start, and the spaces and tabs after it. -/
def dropKeyword (t : Text) : Text :=
  match "lint:".toList.isPrefixOf? t with
  | some rest =>
    if (rest.takeWhile isKeywordChar).isEmpty then t
    else (rest.dropWhile isKeywordChar).dropWhile fun c => c == ' ' || c == '\t'
  | none => t

def beforeNote (t : Text) : Text :=
  match Text.cut? DirectiveGrammar.noteMark t with
  | some (before, _) => before
  | none => t

def ofComment (raw : Text) : List Text :=
  let text := dropKeyword (dropClose (dropOpen (Text.trim raw)))
  Text.commaItems (beforeNote (Text.trim (Text.firstLine text)))

end RawCodes

namespace Directive

def kind (d : Directive) : DirectiveKind := d.comment.kind

def line (d : Directive) : Int := d.comment.line

def targets (d : Directive) : List Text :=
  d.codes.filter (· != wildcard)

/-- A list of codes is bare when it is empty or holds just the code for all rules. -/
def bareCodes (codes : List Text) : Bool :=
  codes == [] || codes == [wildcard]

/-- Settle the codes of a directive comment. An `enable` without read codes is taken at its raw
text; a legacy comment has no codes and is not bare. -/
def classify (a : DirectiveComment) : Directive :=
  match a.kind, a.codes with
  | .legacy, _ => { comment := a, isBare := false, codes := [] }
  | .enable, none =>
    let codes := RawCodes.ofComment a.raw
    { comment := a, isBare := bareCodes codes, codes }
  | _, codes =>
    { comment := a, isBare := bareCodes (codes.getD []), codes := codes.getD [] }

@[simp] theorem classify_comment (a : DirectiveComment) : (classify a).comment = a := by
  unfold classify
  split <;> rfl

theorem classify_of_codes {a : DirectiveComment} {codes : List Text} (hkind : a.kind ≠ .legacy)
    (hcodes : a.codes = some codes) : (classify a).codes = codes := by
  unfold classify
  split <;> simp_all

theorem isBare_classify_of_codes {a : DirectiveComment} {codes : List Text}
    (hkind : a.kind ≠ .legacy) (hcodes : a.codes = some codes) :
    (classify a).isBare = bareCodes codes := by
  unfold classify
  split <;> simp_all

end Directive

end LintDirectives
