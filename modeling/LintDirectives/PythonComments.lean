import LintDirectives.CommentScanner

/-!
# Comments of Python sources

A comment runs from a number sign to the end of its line, outside of the texts of strings. A
string ends at its quotation mark, or at three of them if it starts with three; a backslash
keeps the next byte inside, also in raw strings. A formatted string holds code in braces, in
which there may be comments, other strings and brackets. A colon outside of inner brackets
ends that code, and what follows it, up to the closing brace, is text that may hold code in
braces again. Two equal braces are text, and so is a character's name in braces.
-/

namespace LintDirectives.PythonComments

open CommentScanner

inductive Enclosure where
  /-- The text of a string, up to its closing quotation mark. -/
  | text (quote : Text) (formatted raw : Bool)
  /-- Code in the braces of a formatted string; some colons in it belong to functions. -/
  | replacement (functionColons : Nat)
  /-- The text behind the code in the braces of a formatted string. -/
  | format
  | brackets
deriving DecidableEq

/-- The enclosures of a place, the inner ones first. -/
abbrev State := List Enclosure

/-- Letters that may stand before a string. -/
def prefixLetters : Bytes :=
  ("fFrRbBuUtT" : Text).map byte

def hasLetter (lower upper : Char) (bytes : Bytes) : Bool :=
  bytes.contains (byte lower) || bytes.contains (byte upper)

def isWordByte (b : UInt8) : Bool :=
  (byte 'a' ≤ b && b ≤ byte 'z') || (byte 'A' ≤ b && b ≤ byte 'Z') ||
    (byte '0' ≤ b && b ≤ byte '9') || b == byte '_' || 0x80 ≤ b

/-- The quotation mark at the start, one or three of them. -/
def quote? (source : Bytes) : Option Text :=
  (["\"\"\"", "'''", "\"", "'"] : List Text).find? (startsWith · source)

/-- The number of bytes of a character's name in braces, behind a backslash, or zero. -/
def characterName (source : Bytes) : Nat :=
  if startsWith "\\N\x7b" source then
    let name := (source.drop 3).takeWhile (· != byte '\x7d')
    if name.isEmpty || (source.drop 3).length == name.length then 0 else name.length + 4
  else 0

def textNext (quote : Text) (formatted raw : Bool) (outer : State) (source : Bytes) :
    Lexeme State :=
  let inside : State := .text quote formatted raw :: outer
  if startsWith quote source then { length := quote.length, state := outer }
  else if startsWith "\\" source then
    if formatted && !raw && characterName source != 0 then
      { length := characterName source, state := inside }
    else if formatted && (startsWith "\\\x7b" source || startsWith "\\\x7d" source) then
      { length := 1, state := inside }
    else { length := 2, state := inside }
  else if formatted && (startsWith "\x7b\x7b" source || startsWith "\x7d\x7d" source) then
    { length := 2, state := inside }
  else if formatted && startsWith "\x7b" source then
    { length := 1, state := .replacement 0 :: inside }
  else { length := 1, state := inside }

/-- The next lexeme in the text behind the code in braces. -/
def formatNext (outer : State) (source : Bytes) : Lexeme State :=
  if startsWith "\x7b" source then { length := 1, state := .replacement 0 :: .format :: outer }
  else if startsWith "\x7d" source then { length := 1, state := outer }
  else { length := 1, state := .format :: outer }

/-- The state behind a word: a function has a colon behind its parameters. -/
def afterWord (word : Bytes) : State → State
  | .replacement colons :: outer =>
    if word == ("lambda" : Text).map byte then .replacement (colons + 1) :: outer
    else .replacement colons :: outer
  | s => s

def afterColon : State → State
  | .replacement 0 :: outer => .format :: outer
  | .replacement (colons + 1) :: outer => .replacement colons :: outer
  | s => s

/-- The state behind a closing bracket. Braces also close the code in a string. -/
def afterClosing (isBrace : Bool) : State → State
  | .brackets :: outer => outer
  | .replacement colons :: outer => if isBrace then outer else .replacement colons :: outer
  | s => s

def codeNext (s : State) (source : Bytes) : Lexeme State :=
  let word := source.takeWhile isWordByte
  let signs := if word.all prefixLetters.contains then word else []
  if startsWith "#" source then { length := restOfLine source, isComment := true, state := s }
  else match quote? (source.drop signs.length) with
    | some quote =>
      let text : Enclosure := .text quote
        (hasLetter 'f' 'F' signs || hasLetter 't' 'T' signs) (hasLetter 'r' 'R' signs)
      { length := signs.length + quote.length, state := text :: s }
    | none =>
      if !word.isEmpty then { length := word.length, state := afterWord word s }
      else if startsWith "(" source || startsWith "[" source || startsWith "\x7b" source then
        { length := 1, state := .brackets :: s }
      else if startsWith ")" source || startsWith "]" source then
        { length := 1, state := afterClosing false s }
      else if startsWith "\x7d" source then { length := 1, state := afterClosing true s }
      else if startsWith ":=" source then { length := 2, state := s }
      else if startsWith ":" source then { length := 1, state := afterColon s }
      else { length := 1, state := s }

def next (s : State) (source : Bytes) : Lexeme State :=
  match s with
  | .text quote formatted raw :: outer => textNext quote formatted raw outer source
  | .format :: outer => formatNext outer source
  | _ => codeNext s source

def spans (source : Bytes) : List Span :=
  scan next [] 0 0 source

end LintDirectives.PythonComments
