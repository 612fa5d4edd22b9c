import LintDirectives.SourceBytes

/-!
# Finding comments

A source is read from left to right as a sequence of lexemes, of which only the comments are
kept. A language gives the next lexeme in every state. Sources are taken to be valid, so a
lexeme that is not closed may simply reach to the end.
-/

namespace LintDirectives

/-- The next piece of a source: how many bytes it has, whether it is a comment, and the state
after it. -/
structure Lexeme (σ : Type) where
  length : Nat
  isComment : Bool := false
  state : σ

namespace CommentScanner

/-- Keep the ranges of comments. The counter says how many bytes of the current lexeme are
still to be passed. -/
def scan {σ : Type} (next : σ → Bytes → Lexeme σ) : σ → Nat → Nat → Bytes → List Span
  | _, _, _, [] => []
  | s, offset, k + 1, _ :: rest => scan next s (offset + 1) k rest
  | s, offset, 0, b :: rest =>
    let lexeme := next s (b :: rest)
    let others := scan next lexeme.state (offset + 1) (lexeme.length - 1) rest
    if lexeme.isComment then ⟨offset, offset + lexeme.length⟩ :: others else others

def byte (c : Char) : UInt8 :=
  UInt8.ofNat c.toNat

/-- Whether a source goes on with an ASCII text. -/
def startsWith (t : Text) (source : Bytes) : Bool :=
  (t.map byte).isPrefixOf source

def restOfLine (source : Bytes) : Nat :=
  (source.takeWhile (· != Source.lineFeed)).length

/-- The number of bytes up to and including the first occurrence of an ASCII text. -/
def through (mark : Text) : Bytes → Nat
  | [] => 0
  | b :: rest => if startsWith mark (b :: rest) then mark.length else 1 + through mark rest

/-- The number of bytes up to and including the first `mark` that no backslash protects. A
backslash protects one byte. -/
def throughUnescaped (mark : Text) : Bytes → Nat
  | [] => 0
  | b :: rest =>
    if startsWith mark (b :: rest) then mark.length
    else if b == byte '\\' then
      match rest with
      | [] => 1
      | _ :: after => 2 + throughUnescaped mark after
    else 1 + throughUnescaped mark rest

def blockComment (source : Bytes) : Nat :=
  2 + through "*/" (source.drop 2)

end CommentScanner

end LintDirectives
