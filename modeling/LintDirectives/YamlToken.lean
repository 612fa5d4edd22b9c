import LintDirectives.ByteText
import LintDirectives.KeyedList
import LintDirectives.WrittenNumber

/-!
# Tokens of YAML documents

The tokens of a YAML 1.1 stream. Indentation is made explicit: a block collection starts where
the column grows and ends where it shrinks. A key without an indicator is known as such only
when its colon is met, so the place where it would have to be announced is remembered. A text
that has no tokens is refused without saying why. An escape for a number that is no character
ends the tokens.

Loops over the text carry a bound on their number of steps, which is the length of the text:
every step passes at least one character.
-/

namespace LintDirectives.Yaml

structure Cell where
  char : Char
  line : Nat
  column : Nat
  index : Nat

/-- The rest of a text, closed by a cell for its end. -/
abbrev Cells := List Cell

/-- The character that stands for the end of a text. -/
def endChar : Char := '\x00'

def isBreak (c : Char) : Bool :=
  c == '\n' || c.toNat == 0x85 || c.toNat == 0x2028 || c.toNat == 0x2029

def isBreakOrEnd (c : Char) : Bool :=
  c == endChar || isBreak c

def isSpaceOrEnd (c : Char) : Bool :=
  c == ' ' || isBreakOrEnd c

/-- The end, a space, a tab or a line break. -/
def isGapOrEnd (c : Char) : Bool :=
  c == '\t' || isSpaceOrEnd c

/-- Whether a character may stand in a text at all. -/
def isAllowed (c : Char) : Bool :=
  let n := c.toNat
  n == 9 || n == 10 || n == 13 || (0x20 ≤ n && n ≤ 0x7E) || n == 0x85 ||
    (0xA0 ≤ n && n ≤ 0xFFFD) || 0x10000 ≤ n

/-- The cells of a text that starts at a place. A byte order mark takes no column. -/
def cellsFrom (line column index : Nat) : Text → Cells
  | [] => [⟨endChar, line, column, index⟩]
  | c :: rest =>
    ⟨c, line, column, index⟩ ::
      (if isBreak c then cellsFrom (line + 1) 0 (index + 1) rest
        else if c.toNat == 0xFEFF then cellsFrom line column (index + 1) rest
        else cellsFrom line (column + 1) (index + 1) rest)

def charAt (k : Nat) (cs : Cells) : Char :=
  match cs[k]? with
  | some cell => cell.char
  | none => endChar

def char (cs : Cells) : Char :=
  charAt 0 cs

def here (cs : Cells) : Cell :=
  cs.headD ⟨endChar, 0, 0, 0⟩

def column (cs : Cells) : Int :=
  Int.ofNat (here cs).column

/-- The next characters that satisfy `p`. -/
def takeText (p : Char → Bool) (cs : Cells) : Text :=
  (cs.takeWhile (p ·.char)).map (·.char)

/-- The cells after the next characters that satisfy `p`. -/
def dropText (p : Char → Bool) (cs : Cells) : Cells :=
  cs.dropWhile (p ·.char)

def dropSpaces (cs : Cells) : Cells :=
  dropText (· == ' ') cs

def lineBreak? (cs : Cells) : Option (Char × Cells) :=
  let c := char cs
  if isBreak c then
    some (if c == '\n' || c.toNat == 0x85 then '\n' else c, cs.drop 1)
  else none

/-- Whether a document mark of three characters stands here. -/
def atMark (mark : Char) (cs : Cells) : Bool :=
  char cs == mark && charAt 1 cs == mark && charAt 2 cs == mark && isGapOrEnd (charAt 3 cs)

/-- Whether the mark between documents or at the end of one stands here. -/
def atDocumentMark (cs : Cells) : Bool :=
  atMark '-' cs || atMark '.' cs

inductive Token where
  | versionDirective (major : Nat)
  | tagDirective (handle stands : Text)
  | otherDirective
  | documentStart
  | documentEnd
  | blockSequenceStart
  | blockMappingStart
  | blockEnd
  | flowSequenceStart
  | flowSequenceEnd
  | flowMappingStart
  | flowMappingEnd
  | key
  | value
  | blockEntry
  | flowEntry
  | alias (name : Text)
  | anchor (name : Text)
  | tag (handle : Option Text) (rest : Text)
  | scalar (text : Text) (plain : Bool)
  /-- A scalar that cannot be read, behind which there are no more tokens. -/
  | unreadable (e : ReadingError)
deriving DecidableEq

/-- A place where a key may turn out to start. -/
structure PossibleKey where
  position : Nat
  /-- Whether the indentation leaves no other choice than a key. -/
  required : Bool
  place : Cell

structure ScanState where
  cells : Cells
  tokens : List Token := []
  indent : Int := -1
  /-- The enclosing indentations, innermost first. -/
  indents : List Int := []
  /-- How many flow collections are open. -/
  flow : Nat := 0
  allowKey : Bool := true
  /-- At most one possible key for each level of flow collections. -/
  possibleKeys : KeyedList Nat PossibleKey := []

namespace ScanState

def push (s : ScanState) (token : Token) : ScanState :=
  { s with tokens := s.tokens ++ [token] }

def insertAt (s : ScanState) (position : Nat) (token : Token) : ScanState :=
  { s with tokens := s.tokens.take position ++ token :: s.tokens.drop position }

def isBroken (s : ScanState) : Bool :=
  match s.tokens.getLast? with
  | some (.unreadable _) => true
  | _ => false

/-- Give up the possible key of the current level. -/
def removeKey? (s : ScanState) : Option ScanState :=
  match KeyedList.get? s.flow s.possibleKeys with
  | some k =>
    if k.required then none
    else some { s with possibleKeys := KeyedList.erase s.flow s.possibleKeys }
  | none => some s

/-- Remember that a key may start here. -/
def saveKey? (s : ScanState) : Option ScanState :=
  if s.allowKey then
    s.removeKey?.map fun s =>
      let k : PossibleKey :=
        { position := s.tokens.length
          required := s.flow == 0 && s.indent == column s.cells
          place := here s.cells }
      { s with possibleKeys := KeyedList.put s.flow k s.possibleKeys }
  else some s

/-- Drop the possible keys that the current place is too far away from: a key stands on one
line and has at most 1024 characters. -/
def dropStaleKeys? (s : ScanState) : Option ScanState :=
  let now := here s.cells
  let isStale (k : PossibleKey) : Bool :=
    k.place.line != now.line || decide (1024 < now.index - k.place.index)
  if s.possibleKeys.any fun (_, k) => isStale k && k.required then none
  else some { s with possibleKeys := s.possibleKeys.filter fun (_, k) => !isStale k }

/-- End the block collections that are indented more than a column. -/
def unwindTo (column : Int) (s : ScanState) : ScanState :=
  if s.flow != 0 then s
  else
    let levels := s.indent :: s.indents
    let ended := levels.takeWhile fun i => decide (column < i)
    match levels.drop ended.length with
    | indent :: indents =>
      { s with
        indent, indents
        tokens := s.tokens ++ ended.map fun _ => Token.blockEnd }
    | [] => s

def indentTo? (column : Int) (s : ScanState) : Option ScanState :=
  if s.indent < column then
    some { s with indent := column, indents := s.indent :: s.indents }
  else none

/-- Start a block collection if the column is deeper than the indentation. -/
def startBlock (token : Token) (s : ScanState) : ScanState :=
  match s.indentTo? (column s.cells) with
  | some s => s.push token
  | none => s

end ScanState

/-- Skip spaces, comments and line breaks. After a line break a key may start, unless a flow
collection is open. -/
def skipGaps (inFlow : Bool) : Bool → Bool → Cells → Cells × Bool
  | _, allowKey, [] => ([], allowKey)
  | inComment, allowKey, cell :: rest =>
    if isBreak cell.char then skipGaps inFlow false (allowKey || !inFlow) rest
    else if cell.char == endChar then (cell :: rest, allowKey)
    else if inComment then skipGaps inFlow true allowKey rest
    else if cell.char == ' ' then skipGaps inFlow false allowKey rest
    else if cell.char == '#' then skipGaps inFlow true allowKey rest
    else (cell :: rest, allowKey)

def isNameChar (c : Char) : Bool :=
  c.isAlphanum || c == '-' || c == '_'

def isHexDigit (c : Char) : Bool :=
  c.isDigit || ('a' ≤ c && c ≤ 'f') || ('A' ≤ c && c ≤ 'F')

/-- Skip the rest of a line that may hold a comment and nothing else. -/
def ignoredLine? (cs : Cells) : Option Cells :=
  let cs := dropSpaces cs
  let cs := if char cs == '#' then dropText (!isBreakOrEnd ·) cs else cs
  match lineBreak? cs with
  | some (_, rest) => some rest
  | none => if char cs == endChar then some cs else none

def tagHandle? (cs : Cells) : Option (Text × Cells) :=
  if char cs != '!' then none
  else if charAt 1 cs == ' ' then some (['!'], cs.drop 1)
  else
    let name := takeText isNameChar (cs.drop 1)
    let rest := cs.drop (1 + name.length)
    if char rest == '!' then some ('!' :: name ++ ['!'], rest.drop 1)
    else none

def isUriChar (c : Char) : Bool :=
  c.isAlphanum || "-;/?:@&=+$,_.!~*'()[]%".toList.contains c

/-- The bytes of the text of a tag. A percent sign and two digits stand for a byte. -/
def uriBytes? : Text → Option Bytes
  | [] => some []
  | '%' :: a :: b :: rest =>
    if isHexDigit a && isHexDigit b then
      (uriBytes? rest).map (UInt8.ofNat (WrittenNumber.natural 16 [a, b]) :: ·)
    else none
  | '%' :: _ => none
  | c :: rest => (uriBytes? rest).map (UInt8.ofNat c.toNat :: ·)

def tagUri? (cs : Cells) : Option (Text × Cells) :=
  let uri := takeText isUriChar cs
  if uri.isEmpty then none
  else ((uriBytes? uri).bind Text.ofUtf8?).map fun t => (t, cs.drop uri.length)

/-- Read a directive line after its percent sign. -/
def directive? (cs : Cells) : Option (Token × Cells) := do
  let name := takeText isNameChar cs
  let rest := cs.drop name.length
  if name.isEmpty || !isSpaceOrEnd (char rest) then none
  else if name == "YAML".toList then
    let rest := dropSpaces rest
    let major := takeText Char.isDigit rest
    let rest := rest.drop major.length
    let minor := takeText Char.isDigit (rest.drop 1)
    let after := rest.drop (1 + minor.length)
    if major.isEmpty || char rest != '.' || minor.isEmpty || !isSpaceOrEnd (char after) then none
    else return (.versionDirective (WrittenNumber.natural 10 major), ← ignoredLine? after)
  else if name == "TAG".toList then
    let (handle, rest) ← tagHandle? (dropSpaces rest)
    if char rest != ' ' then none
    else
      let (stands, rest) ← tagUri? (dropSpaces rest)
      if !isSpaceOrEnd (char rest) then none
      else return (.tagDirective handle stands, ← ignoredLine? rest)
  else return (.otherDirective, ← ignoredLine? (dropText (!isBreakOrEnd ·) rest))

/-- Read the name of an anchor or an alias after its sign. -/
def anchorName? (cs : Cells) : Option (Text × Cells) :=
  let name := takeText isNameChar cs
  let rest := cs.drop name.length
  if name.isEmpty then none
  else if isGapOrEnd (char rest) || "?:,]\x7d%@\x60".toList.contains (char rest) then
    some (name, rest)
  else none

def tag? (cs : Cells) : Option (Token × Cells) := do
  let next := charAt 1 cs
  let (token, rest) ←
    if next == '<' then
      match tagUri? (cs.drop 2) with
      | some (uri, rest) =>
        if char rest == '>' then some (Token.tag none uri, rest.drop 1) else none
      | none => none
    else if isGapOrEnd next then some (Token.tag none ['!'], cs.drop 1)
    else if (takeText (!isSpaceOrEnd ·) (cs.drop 1)).contains '!' then
      match tagHandle? cs with
      | some (handle, rest) =>
        (tagUri? rest).map fun (uri, rest) => (Token.tag (some handle) uri, rest)
      | none => none
    else (tagUri? (cs.drop 1)).map fun (uri, rest) => (Token.tag (some ['!']) uri, rest)
  if isSpaceOrEnd (char rest) then some (token, rest) else none

/-- The line breaks of a block scalar, and the cells after them and after the indentation of
the next line, as far as it is wanted. -/
def blockBreaks (indent : Int) : Nat → Cells → Text × Cells
  | 0, cs => ([], cs)
  | n + 1, cs =>
    let spaces := cs.takeWhile fun cell =>
      cell.char == ' ' && decide (Int.ofNat cell.column < indent)
    let cs := cs.drop spaces.length
    match lineBreak? cs with
    | some (b, rest) =>
      let (breaks, after) := blockBreaks indent n rest
      (b :: breaks, after)
    | none => ([], cs)

/-- The line breaks before the first line of a block scalar, and the deepest column that the
spaces in front of it reach. -/
def blockIndentation (deepest : Int) : Nat → Cells → Text × Int × Cells
  | 0, cs => ([], deepest, cs)
  | n + 1, cs =>
    if char cs == ' ' then
      let rest := cs.drop 1
      blockIndentation (max deepest (column rest)) n rest
    else
      match lineBreak? cs with
      | some (b, rest) =>
        let (breaks, found) := blockIndentation deepest n rest
        (b :: breaks, found)
      | none => ([], deepest, cs)

/-- The lines of a block scalar: the text up to the last line break, that break, and the breaks
after it. -/
def blockLines (folded : Bool) (indent : Int) : Nat → Text → Cells → Text × Text × Text × Cells
  | 0, breaks, cs => ([], [], breaks, cs)
  | n + 1, breaks, cs =>
    if column cs != indent || char cs == endChar then ([], [], breaks, cs)
    else
      let leading := !(char cs == ' ' || char cs == '\t')
      let line := takeText (!isBreakOrEnd ·) cs
      let rest := cs.drop line.length
      let (lineEnd, rest) := match lineBreak? rest with
        | some (b, rest) => ([b], rest)
        | none => ([], rest)
      let (next, rest) := blockBreaks indent (rest.length) rest
      if column rest == indent && char rest != endChar then
        let glue : Text :=
          if folded && lineEnd == ['\n'] && leading && !(char rest == ' ' || char rest == '\t') then
            if next.isEmpty then [' '] else []
          else lineEnd
        let (text, last, after) := blockLines folded indent n next rest
        (breaks ++ line ++ glue ++ text, last, after)
      else (breaks ++ line, lineEnd, next, rest)

/-- The signs after the mark of a block scalar: what happens to line breaks at the end, and the
indentation if it is given. -/
def blockSigns? (cs : Cells) : Option (Option Bool × Option Nat × Cells) := do
  let chomp (c : Char) : Option Bool :=
    if c == '+' then some true else if c == '-' then some false else none
  let digit (c : Char) : Option Nat := if c.isDigit then some (c.toNat - 48) else none
  let (keep, width, rest) :=
    match chomp (char cs), digit (char cs) with
    | some keep, _ =>
      match digit (charAt 1 cs) with
      | some d => (some keep, some d, cs.drop 2)
      | none => (some keep, none, cs.drop 1)
    | none, some d =>
      match chomp (charAt 1 cs) with
      | some keep => (some keep, some d, cs.drop 2)
      | none => (none, some d, cs.drop 1)
    | none, none => (none, none, cs)
  if width == some 0 || !isSpaceOrEnd (char rest) then none else some (keep, width, rest)

def blockScalar? (folded : Bool) (indent : Int) (cs : Cells) : Option (Text × Cells) := do
  let (keep, width, rest) ← blockSigns? cs
  let rest ← ignoredLine? rest
  let least := max (indent + 1) 1
  let (breaks, wanted, rest) :=
    match width with
    | some w =>
      let wanted := least + Int.ofNat w - 1
      let (breaks, rest) := blockBreaks wanted rest.length rest
      (breaks, wanted, rest)
    | none =>
      let (breaks, deepest, rest) := blockIndentation 0 rest.length rest
      (breaks, max least deepest, rest)
  let (text, last, after, rest) := blockLines folded wanted rest.length breaks rest
  return (text ++ (if keep == some false then [] else last) ++
    (if keep == some true then after else []), rest)

/-- The line breaks inside a quoted scalar after the first one. -/
def quotedBreaks? : Nat → Cells → Option (Text × Cells)
  | 0, _ => none
  | n + 1, cs =>
    if atDocumentMark cs then none
    else
      let cs := dropText (fun c => c == ' ' || c == '\t') cs
      match lineBreak? cs with
      | some (b, rest) => (quotedBreaks? n rest).map fun (breaks, after) => (b :: breaks, after)
      | none => some ([], cs)

/-- What an escape sign in a double-quoted scalar stands for. -/
def escapeChar? (c : Char) : Option Char :=
  match c with
  | '0' => some '\x00'
  | 'a' => some '\x07'
  | 'b' => some '\x08'
  | 't' => some '\t'
  | '\t' => some '\t'
  | 'n' => some '\n'
  | 'v' => some '\x0b'
  | 'f' => some '\x0c'
  | 'r' => some '\r'
  | 'e' => some '\x1b'
  | ' ' => some ' '
  | '"' => some '"'
  | '\\' => some '\\'
  | '/' => some '/'
  | 'N' => some (Char.ofNat 0x85)
  | '_' => some (Char.ofNat 0xA0)
  | 'L' => some (Char.ofNat 0x2028)
  | 'P' => some (Char.ofNat 0x2029)
  | _ => none

/-- How many hexadecimal digits follow an escape sign. -/
def escapeWidth? (c : Char) : Option Nat :=
  match c with
  | 'x' => some 2
  | 'u' => some 4
  | 'U' => some 8
  | _ => none

/-- The number that an escape gives in hexadecimal digits after its sign. -/
def escapeNumber? (cs : Cells) : Option (Nat × Cells) :=
  match escapeWidth? (char cs) with
  | none => none
  | some width =>
    let digits := takeText isHexDigit ((cs.drop 1).take width)
    if digits.length == width then
      some (WrittenNumber.natural 16 digits, cs.drop (1 + width))
    else none

/-- The second half of a character that is given in two halves, after the first one. -/
def secondHalf? (cs : Cells) : Option (Nat × Cells) :=
  if char cs == '\\' then
    match escapeNumber? (cs.drop 1) with
    | some (n, rest) => if 0xDC00 ≤ n && n ≤ 0xDFFF then some (n, rest) else none
    | none => none
  else none

/-- The character of a number. Two halves make a character, and a single one makes none. -/
def escapedChar (n : Nat) (rest : Cells) : Except ReadingError Text × Cells :=
  if 0x7FFFFFFF < n then (.error .hugeCharacter, rest)
  else if 0x10FFFF < n then (.error .character, rest)
  else if 0xD800 ≤ n && n ≤ 0xDBFF then
    match secondHalf? rest with
    | some (m, rest) =>
      (.ok [Char.ofNat (0x10000 + (n - 0xD800) * 0x400 + (m - 0xDC00))], rest)
    | none => (.ok [Char.ofNat 0xFFFD], rest)
  else if 0xDC00 ≤ n && n ≤ 0xDFFF then (.ok [Char.ofNat 0xFFFD], rest)
  else (.ok [Char.ofNat n], rest)

/-- Read an escape after its backslash, which may hide a line break. -/
def escape? (cs : Cells) : Option (Except ReadingError Text × Cells) :=
  match escapeChar? (char cs), escapeWidth? (char cs) with
  | some c, _ => some (.ok [c], cs.drop 1)
  | none, some _ => (escapeNumber? cs).map fun (n, rest) => escapedChar n rest
  | none, none =>
    match lineBreak? cs with
    | some (_, rest) =>
      (quotedBreaks? rest.length rest).map fun (breaks, after) => (.ok breaks, after)
    | none => none

/-- Read a quoted scalar after its opening mark. A single line break is a space, and further
ones stand for themselves. -/
def quotedScalar? (double : Bool) : Nat → Cells → Option (Except ReadingError Text × Cells)
  | 0, _ => none
  | n + 1, cs =>
    let c := char cs
    let following (t : Text) (rest : Cells) : Option (Except ReadingError Text × Cells) :=
      (quotedScalar? double n rest).map fun (text, after) => (text.map (t ++ ·), after)
    if c == endChar then none
    else if c == (if double then '"' else '\'') then
      if !double && charAt 1 cs == '\'' then following ['\''] (cs.drop 2)
      else some (.ok [], cs.drop 1)
    else if double && c == '\\' then
      match escape? (cs.drop 1) with
      | some (.ok t, rest) => following t rest
      | other => other
    else if c == ' ' || c == '\t' || isBreak c then
      let spaces := takeText (fun c => c == ' ' || c == '\t') cs
      let rest := cs.drop spaces.length
      match lineBreak? rest with
      | some (b, rest) =>
        match quotedBreaks? rest.length rest with
        | some (breaks, rest) =>
          let first := if b != '\n' then [b] else if breaks.isEmpty then [' '] else []
          following (first ++ breaks) rest
        | none => none
      | none => if char rest == endChar then none else following spaces rest
    else following [c] (cs.drop 1)

def quotedToken? (double : Bool) (cs : Cells) : Option (Token × Cells) :=
  (quotedScalar? double cs.length (cs.drop 1)).map fun (read, rest) =>
    match read with
    | .ok text => (.scalar text false, rest)
    | .error e => (.unreadable e, rest)

/-- The spaces and line breaks after a word of a plain scalar, as they count inside it; nothing
if the scalar ends. The flag says whether a line break was passed. -/
def plainBreaks : Nat → Cells → Option Text × Cells
  | 0, cs => (none, cs)
  | n + 1, cs =>
    if char cs == ' ' then plainBreaks n (cs.drop 1)
    else
      match lineBreak? cs with
      | some (b, rest) =>
        if atDocumentMark rest then (none, rest)
        else
          let (breaks, after) := plainBreaks n rest
          (breaks.map (b :: ·), after)
      | none => (some [], cs)

/-- The gap after a word of a plain scalar: its text, or nothing when the scalar ends; whether a
line break was passed; and the cells after it. -/
def plainGap (cs : Cells) : Option Text × Bool × Cells :=
  let spaces := takeText (· == ' ') cs
  let rest := cs.drop spaces.length
  match lineBreak? rest with
  | some (b, rest) =>
    if atDocumentMark rest then (none, true, rest)
    else
      let (breaks, after) := plainBreaks (rest.length + 1) rest
      (breaks.map fun breaks =>
        (if b != '\n' then [b] else if breaks.isEmpty then [' '] else []) ++ breaks, true, after)
  | none => (if spaces.isEmpty then none else some spaces, false, rest)

/-- The next word of a plain scalar: the characters up to a gap, to a colon before one, or, in
a flow collection, to a flow sign. -/
def plainWord (inFlow : Bool) : Cells → Text
  | [] => []
  | cell :: rest =>
    let c := cell.char
    let next := char rest
    let stops := isGapOrEnd c ||
      (c == ':' && (isGapOrEnd next || (inFlow && ",[]\x7b\x7d".toList.contains next))) ||
      (inFlow && ",?[]\x7b\x7d".toList.contains c)
    if stops then [] else c :: plainWord inFlow rest

/-- Read a plain scalar: its text, whether a key may start after it, and the cells after it. -/
def plainScalar (inFlow : Bool) (indent : Int) : Nat → Bool → Cells → Text × Bool × Cells
  | 0, allowKey, cs => ([], allowKey, cs)
  | n + 1, allowKey, cs =>
    let word := plainWord inFlow cs
    if char cs == '#' || word.isEmpty then ([], allowKey, cs)
    else
      let (gap, broke, rest) := plainGap (cs.drop word.length)
      match gap with
      | some gap =>
        let ends := gap.isEmpty || char rest == '#' || (!inFlow && decide (column rest < indent))
        if ends then (word, broke, rest)
        else
          let (text, allowKey, after) := plainScalar inFlow indent n broke rest
          if text.isEmpty then (word, allowKey, after) else (word ++ gap ++ text, allowKey, after)
      | none => (word, broke, rest)

def startsPlain (inFlow : Bool) (cs : Cells) : Bool :=
  let c := char cs
  !(isGapOrEnd c || "-?:,[]\x7b\x7d#&*!|>'\"%@\x60".toList.contains c) ||
    (!isGapOrEnd (charAt 1 cs) && (c == '-' || (!inFlow && (c == '?' || c == ':'))))

def ScanState.sign (s : ScanState) (token : Token) : ScanState :=
  { s.push token with cells := s.cells.drop 1 }

def documentMark? (token : Token) (s : ScanState) : Option ScanState :=
  (s.unwindTo (-1)).removeKey?.map fun s =>
    { s.push token with allowKey := false, cells := s.cells.drop 3 }

/-- Read the opening mark of a flow collection. -/
def flowStart? (token : Token) (s : ScanState) : Option ScanState :=
  s.saveKey?.map fun s => { s.sign token with flow := s.flow + 1, allowKey := true }

/-- Read the closing mark of a flow collection. -/
def flowEnd? (token : Token) (s : ScanState) : Option ScanState :=
  if s.flow == 0 then none
  else s.removeKey?.map fun s => { s.sign token with flow := s.flow - 1, allowKey := false }

/-- Read an indicator of a block collection: an entry or an explicit key. -/
def blockSign? (start token : Token) (keyAfter : Bool) (s : ScanState) : Option ScanState :=
  if s.flow == 0 && !s.allowKey then none
  else
    let s := if s.flow == 0 then s.startBlock start else s
    s.removeKey?.map fun s => { s.sign token with allowKey := keyAfter }

/-- Read the colon after a key. -/
def value? (s : ScanState) : Option ScanState :=
  match KeyedList.get? s.flow s.possibleKeys with
  | some k =>
    let s := { s with possibleKeys := KeyedList.erase s.flow s.possibleKeys }
    let s := s.insertAt k.position .key
    let s :=
      if s.flow != 0 then s
      else
        match s.indentTo? (Int.ofNat k.place.column) with
        | some s => s.insertAt k.position .blockMappingStart
        | none => s
    some { s.sign .value with allowKey := false }
  | none => blockSign? .blockMappingStart .value (s.flow == 0) s

/-- Read a token that may start a key, given how it is read from its first character on. -/
def keyToken? (read : Cells → Option (Token × Cells)) (s : ScanState) : Option ScanState :=
  match s.saveKey? with
  | some s =>
    (read s.cells).map fun (token, rest) =>
      { s.push token with allowKey := false, cells := rest }
  | none => none

def blockToken? (folded : Bool) (s : ScanState) : Option ScanState :=
  match s.removeKey? with
  | some s =>
    (blockScalar? folded s.indent (s.cells.drop 1)).map fun (text, rest) =>
      { s.push (.scalar text false) with allowKey := true, cells := rest }
  | none => none

def plainToken? (s : ScanState) : Option ScanState :=
  s.saveKey?.map fun s =>
    let (text, allowKey, rest) :=
      plainScalar (s.flow != 0) (s.indent + 1) (s.cells.length + 1) false s.cells
    { s.push (.scalar text true) with allowKey, cells := rest }

def next? (s : ScanState) : Option ScanState :=
  let cs := s.cells
  let c := char cs
  let gapAfter := isGapOrEnd (charAt 1 cs)
  let inFlow := s.flow != 0
  let atLineStart := column cs == 0
  if c == '%' && atLineStart then
    match (s.unwindTo (-1)).removeKey? with
    | some s =>
      (directive? (cs.drop 1)).map fun (token, rest) =>
        { s.push token with allowKey := false, cells := rest }
    | none => none
  else if atLineStart && atMark '-' cs then documentMark? .documentStart s
  else if atLineStart && atMark '.' cs then documentMark? .documentEnd s
  else if c == '[' then flowStart? .flowSequenceStart s
  else if c == '\x7b' then flowStart? .flowMappingStart s
  else if c == ']' then flowEnd? .flowSequenceEnd s
  else if c == '\x7d' then flowEnd? .flowMappingEnd s
  else if c == ',' then
    s.removeKey?.map fun s => { s.sign .flowEntry with allowKey := true }
  else if c == '-' && gapAfter then blockSign? .blockSequenceStart .blockEntry true s
  else if c == '?' && (inFlow || gapAfter) then blockSign? .blockMappingStart .key (!inFlow) s
  else if c == ':' && (inFlow || gapAfter) then value? s
  else if c == '*' then
    keyToken? (fun cs => (anchorName? (cs.drop 1)).map fun (n, r) => (.alias n, r)) s
  else if c == '&' then
    keyToken? (fun cs => (anchorName? (cs.drop 1)).map fun (n, r) => (.anchor n, r)) s
  else if c == '!' then keyToken? tag? s
  else if c == '|' && !inFlow then blockToken? false s
  else if c == '>' && !inFlow then blockToken? true s
  else if c == '\'' || c == '"' then keyToken? (quotedToken? (c == '"')) s
  else if startsPlain inFlow cs then plainToken? s
  else none

/-- Read tokens up to the end, in at most a number of steps. -/
def scan? : Nat → ScanState → Option (List Token)
  | 0, _ => none
  | n + 1, s =>
    let (cells, allowKey) := skipGaps (s.flow != 0) false s.allowKey s.cells
    match { s with cells, allowKey : ScanState }.dropStaleKeys? with
    | some s =>
      let s := s.unwindTo (column s.cells)
      if char s.cells == endChar then ((s.unwindTo (-1)).removeKey?).map (·.tokens)
      else
        match next? s with
        | some s => if s.isBroken then some s.tokens else scan? n s
        | none => none
    | none => none

def unifyLineEnds : Text → Text
  | '\r' :: '\n' :: rest => '\n' :: unifyLineEnds rest
  | '\r' :: rest => '\n' :: unifyLineEnds rest
  | c :: rest => c :: unifyLineEnds rest
  | [] => []

/-- The tokens of a text. A byte order mark at its start is skipped. -/
def tokens? (t : Text) : Option (List Token) :=
  let t := unifyLineEnds t
  if t.all isAllowed then
    let cells := cellsFrom 0 0 0 t
    let cells := if (char cells).toNat == 0xFEFF then cells.drop 1 else cells
    scan? (cells.length + 1) { cells }
  else none

end LintDirectives.Yaml
