import LintDirectives.CommentScanner

/-!
# Reading script sources lexeme by lexeme

A cursor stands in a JavaScript or TypeScript source, between two lexemes, and remembers the
comments it has passed. Which lexeme comes next depends on what is expected: a slash divides or
starts a regular expression, a less sign compares or starts an element. So the cursor only
offers the single lexemes, and the grammar asks for the one it expects. All movements go
forward, and blanks and comments after a lexeme are passed with it.
-/

namespace LintDirectives.Script

open CommentScanner

structure Dialect where
  /-- Whether elements may stand in expressions. -/
  elements : Bool
  types : Bool
deriving DecidableEq

/-- The number of bytes of a blank at the start, or zero. -/
def blank : Bytes → Nat
  | 0xC2 :: 0x85 :: _ => 2
  | 0xC2 :: 0xA0 :: _ => 2
  | 0xE1 :: 0x9A :: 0x80 :: _ => 3
  | 0xE2 :: 0x80 :: 0xA8 :: _ => 3
  | 0xE2 :: 0x80 :: 0xA9 :: _ => 3
  | 0xE2 :: 0x80 :: 0xAF :: _ => 3
  | 0xE2 :: 0x81 :: 0x9F :: _ => 3
  | 0xE2 :: 0x81 :: 0xA0 :: _ => 3
  | 0xE3 :: 0x80 :: 0x80 :: _ => 3
  | 0xEF :: 0xBB :: 0xBF :: _ => 3
  | 0xE2 :: 0x80 :: b :: _ => if 0x80 ≤ b && b ≤ 0x8B then 3 else 0
  | b :: _ => if Source.isBlankByte b then 1 else 0
  | [] => 0

def startsWithSeparator : Bytes → Bool
  | 0xE2 :: 0x80 :: 0xA8 :: _ => true
  | 0xE2 :: 0x80 :: 0xA9 :: _ => true
  | _ => false

/-- Whether a line ends in some bytes. -/
def spansLines : Bytes → Bool
  | [] => false
  | b :: rest => b == Source.lineFeed || startsWithSeparator (b :: rest) || spansLines rest

/-- The number of bytes of a line comment: up to a carriage return, a line feed or a
separator. -/
def lineComment : Bytes → Nat
  | [] => 0
  | b :: rest =>
    if b == 10 || b == 13 || startsWithSeparator (b :: rest) then 0 else 1 + lineComment rest

/-- The number of bytes of an HTML comment: up to a line feed or a separator. -/
def htmlComment : Bytes → Nat
  | [] => 0
  | b :: rest =>
    if b == 10 || startsWithSeparator (b :: rest) then 0 else 1 + htmlComment rest

def startsHtmlComment (source : Bytes) : Bool :=
  startsWith "<!--" source || startsWith "-->" source

def isDigit (b : UInt8) : Bool :=
  byte '0' ≤ b && b ≤ byte '9'

def isWordByte (b : UInt8) : Bool :=
  (byte 'a' ≤ b && b ≤ byte 'z') || (byte 'A' ≤ b && b ≤ byte 'Z') || isDigit b ||
    b == byte '_' || b == byte '$' || b == byte '\\' || 0x7F ≤ b

/-- The number of bytes of a word. An escape may hold a number in braces. -/
def wordLength (inBraces : Bool) : Bytes → Nat
  | [] => 0
  | b :: rest =>
    if inBraces then 1 + wordLength (b != byte '\x7d') rest
    else if startsWith "\\u\x7b" (b :: rest) then 1 + wordLength true rest
    else if isWordByte b && blank (b :: rest) == 0 then 1 + wordLength false rest
    else 0

/-- The number of bytes of a number: its digits, letters and points. -/
def numberLength : Bytes → Nat
  | [] => 0
  | b :: rest =>
    if (isWordByte b && blank (b :: rest) == 0) || b == byte '.' then 1 + numberLength rest
    else 0

/-- The number of bytes of a regular expression after its opening slash, the closing one
included. It ends on its line, and a slash in a class does not close it. -/
def pattern? (inClass : Bool) : Bytes → Option Nat
  | [] => none
  | b :: rest =>
    if b == 10 then none
    else if b == byte '\\' then
      match rest with
      | [] => none
      | c :: after => if c == 10 then none else (pattern? inClass after).map (· + 2)
    else if inClass then (pattern? (b != byte ']') rest).map (· + 1)
    else if b == byte '/' then some 1
    else (pattern? (b == byte '[') rest).map (· + 1)

/-- The number of bytes of a template's text, up to its end or its next substitution. -/
def templateText : Bytes → Nat
  | [] => 0
  | b :: rest =>
    if b == byte '\x60' || startsWith "$\x7b" (b :: rest) then 0
    else if b == byte '\\' then
      match rest with
      | [] => 1
      | _ :: after => 2 + templateText after
    else 1 + templateText rest

/-- The number of bytes of the text between tags. -/
def elementText (source : Bytes) : Nat :=
  (source.takeWhile fun b =>
    b != byte '<' && b != byte '>' && b != byte '\x7b' && b != byte '\x7d').length

structure Cursor where
  dialect : Dialect
  rest : Bytes
  offset : Nat := 0
  /-- The comments passed so far, the last one first. -/
  comments : List Span := []
  /-- Whether a line has ended since the last lexeme, outside of comments. -/
  onNewLine : Bool := false
  /-- Whether a comment since the last lexeme goes over several lines. -/
  behindLongComment : Bool := false

namespace Cursor

/-- Whether the end of a line that may end a statement stands here. -/
def atLineEnd (c : Cursor) : Bool :=
  c.rest.head? == some Source.lineFeed || (!c.dialect.types && startsWithSeparator c.rest)

def next (c : Cursor) : Cursor :=
  { c with rest := c.rest.tail, offset := c.offset + 1 }

/-- Pass blanks and comments, and HTML comments if `html` says so. The counter says how many
bytes of a blank or comment are still to be passed. -/
def passFrom (html : Bool) : Bytes → Nat → Cursor → Cursor
  | [], _, c => c
  | _ :: rest, k + 1, c => passFrom html rest k c.next
  | b :: rest, 0, c =>
    let source := b :: rest
    let comment (length : Nat) : Cursor :=
      let passed : Span := ⟨c.offset, c.offset + length⟩
      let behindLongComment := c.behindLongComment || spansLines (source.take length)
      passFrom html rest (length - 1)
        { c.next with comments := passed :: c.comments, behindLongComment }
    if startsWith "//" source then comment (lineComment source)
    else if startsWith "/*" source then comment (blockComment source)
    else if html && startsHtmlComment source then
      passFrom html rest (htmlComment source - 1) c.next
    else if blank source == 0 then c
    else
      let onNewLine := c.onNewLine || c.atLineEnd
      passFrom html rest (blank source - 1) { c.next with onNewLine }

def pass (c : Cursor) : Cursor :=
  passFrom false c.rest 0 c

/-- Pass blanks and comments where no expression has ended, so that HTML comments are passed
as well. -/
def passAll (c : Cursor) : Cursor :=
  passFrom true c.rest 0 c

def forward (length : Nat) (c : Cursor) : Cursor :=
  { c with
    rest := c.rest.drop length
    offset := c.offset + length
    onNewLine := false
    behindLongComment := false }

/-- Move behind a lexeme and what separates it from the next one. -/
def behind (length : Nat) (c : Cursor) : Cursor :=
  (c.forward length).pass

/-- Whether an ASCII text comes next. -/
def sees (mark : Text) (c : Cursor) : Bool :=
  startsWith mark c.rest

/-- Whether one of some ASCII texts comes next. -/
def seesAny (marks : List Text) (c : Cursor) : Bool :=
  marks.any c.sees

def mark? (mark : Text) (c : Cursor) : Option Cursor :=
  if c.sees mark then some (c.behind mark.length) else none

/-- Read a mark if it comes next. -/
def skip (mark : Text) (c : Cursor) : Cursor :=
  (c.mark? mark).getD c

/-- Read a mark behind which text goes on that is no code. -/
def markBeforeText? (mark : Text) (c : Cursor) : Option Cursor :=
  if c.sees mark then some (c.forward mark.length) else none

def seesDigit (c : Cursor) : Bool :=
  c.rest.head?.any isDigit

def seesNumber (c : Cursor) : Bool :=
  c.seesDigit || (c.sees "." && (c.rest.drop 1).head?.any isDigit)

/-- The word that comes next, which is empty if there is none. -/
def word (c : Cursor) : Text :=
  if c.seesDigit then []
  else (c.rest.take (wordLength false c.rest)).map fun b => Char.ofNat b.toNat

def seesWord (c : Cursor) : Bool :=
  !c.seesDigit && wordLength false c.rest != 0

def word? (c : Cursor) : Option Cursor :=
  if c.seesWord then some (c.behind (wordLength false c.rest)) else none

def keyword? (w : Text) (c : Cursor) : Option Cursor :=
  if c.word == w then c.word? else none

def name? (c : Cursor) : Option Cursor :=
  if c.sees "#" then (c.behind 1).word? else c.word?

def number? (c : Cursor) : Option Cursor :=
  if c.seesNumber then some (c.behind (numberLength c.rest)) else none

/-- Read a string, in which a backslash protects the next byte. -/
def string? (c : Cursor) : Option Cursor :=
  if c.sees "\"" then some (c.behind (1 + throughUnescaped "\"" (c.rest.drop 1)))
  else if c.sees "'" then some (c.behind (1 + throughUnescaped "'" (c.rest.drop 1)))
  else none

def attributeString? (c : Cursor) : Option Cursor :=
  if c.sees "\"" then some (c.behind (1 + through "\"" (c.rest.drop 1)))
  else if c.sees "'" then some (c.behind (1 + through "'" (c.rest.drop 1)))
  else none

def regularExpression? (c : Cursor) : Option Cursor := do
  let c ← c.markBeforeText? "/"
  let length ← pattern? false c.rest
  let c := c.forward length
  return c.behind (c.rest.takeWhile fun b => byte 'a' ≤ b && b ≤ byte 'z').length

def skipLexeme (c : Cursor) : Cursor :=
  (c.string? <|> c.word? <|> c.number?).getD (c.behind 1)

/-- The start of a source. A first line may name the program that runs the source. -/
def start (dialect : Dialect) (source : Bytes) : Cursor :=
  let c : Cursor := pass { dialect, rest := source }
  if c.sees "#!" then c.behind (restOfLine c.rest) else c

end Cursor

end LintDirectives.Script
