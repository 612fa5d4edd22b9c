import LintDirectives.ScriptTypes
import LintDirectives.ScriptElements

/-!
# Expressions in scripts

The rules for expressions. Operators have no ranks here: an expression is an operand, followed
by as many operators and operands as there are. Parentheses are read in one way, whether they
hold an expression or the parameters of a function; an arrow behind them tells.
-/

namespace LintDirectives.Script.Rules

/-- Signs that may stand before an operand. -/
def prefixSigns : List Text := ["...", "++", "--", "!", "~", "+", "-"]

def operatorWords : List Text := ["typeof", "void", "delete", "await", "new"]

/-- Operators of three or four signs between two operands. -/
def longSigns : List Text :=
  [">>>=", "===", "!==", "**=", "<<=", ">>=", ">>>", "&&=", "||=", "??="]

/-- Operators of two signs between two operands. -/
def middleSigns : List Text :=
  ["==", "!=", "<=", ">=", "&&", "||", "??", "+=", "-=", "*=", "/=", "%=", "&=", "|=", "^=",
    "**", "<<", ">>"]

/-- Operators of one sign between two operands. -/
def shortSigns : List Text :=
  ["+", "-", "*", "/", "%", "<", ">", "&", "|", "^", "="]

/-- Operators between two operands, the longer ones first. -/
def binarySigns : List Text :=
  longSigns ++ middleSigns ++ shortSigns

/-- The mark out of a list that comes next. -/
def sign? (marks : List Text) : Reader := fun c =>
  marks.findSome? c.mark?

def expression (rules : Rules) (s : Surroundings) : Reader := fun c => do
  let c ← rules (.assignment s) c
  match c.mark? "," with
  | some c => rules (.expression s) c
  | none => some c

def assignment (rules : Rules) (s : Surroundings) : Reader := fun c => do
  rules (.afterOperand s) (← rules (.operand s) c)

def arrowHead (rules : Rules) : Reader := fun c => do
  let c ← rules.signature {} c
  if c.sees "=>" then some c else none

/-- An operand that starts with a less sign: a function, an element, or an asserted type. -/
def angleOperand (rules : Rules) (s : Surroundings) : Reader := fun c =>
  let other : Reader := fun c =>
    if c.dialect.elements then (rules .element c).map Cursor.pass
    else do rules (.operand s) (← rules.typeParameters c)
  if c.dialect.types then rules.arrowHead c <|> other c else other c

/-- An operand in parentheses. The type of a function's result may follow. -/
def parenthesesOperand (rules : Rules) (s : Surroundings) : Reader := fun c => do
  let c ← rules.parentheses c
  if c.dialect.types && s.resultTypes && c.sees ":" then
    match rules.annotation {} c with
    | some after => some (if after.sees "=>" then after else c)
    | none => some c
  else some c

/-- What may follow the word `async`: a function, the parameter of one, or nothing. -/
def afterAsync (rules : Rules) : Reader := fun c =>
  let parameter : Reader := fun c => do
    let c ← c.word?
    if c.sees "=>" then some c else none
  if c.onNewLine then some c
  else match c.keyword? "function" with
    | some c => rules.function c
    | none => some ((parameter c <|> rules.arrowHead c).getD c)

/-- An operand that starts with a word. A word that needs an operand behind it is a name if
there is none. A new line can end a yield, but not before what can only start an operand. -/
def wordOperand (rules : Rules) (s : Surroundings) : Reader := fun c => do
  let word := c.word
  let c ← c.word?
  if word == ("function" : Text) then rules.function c
  else if word == ("class" : Text) then rules.class c
  else if word == ("async" : Text) then rules.afterAsync c
  else if operatorWords.contains word then some ((rules (.operand s) c).getD c)
  else if word == ("yield" : Text) then
    if s.mayEnd && c.onNewLine && !c.seesAny ["/", "<"] then some c
    else some ((rules (.operand s) (c.skip "*")).getD c)
  else some c

def operand (rules : Rules) (s : Surroundings) : Reader := fun c =>
  let c := c.passAll
  match sign? prefixSigns c with
  | some c => rules (.operand s) c
  | none =>
    if c.seesNumber then c.number?
    else if c.sees "/" then c.regularExpression?
    else if c.sees "<" then rules.angleOperand s c
    else if c.sees "(" then rules.parenthesesOperand s c
    else if c.sees "[" then rules (.items "]") (c.behind 1)
    else if c.sees "\x7b" then rules (.members .object) (c.behind 1)
    else if c.sees "\x60" then rules (.template false) (c.forward 1)
    else if c.sees "#" then c.name?
    else if c.sees "@" then do rules (.operand s) (← rules.decorator c)
    else c.string? <|> rules.wordOperand s c

/-- Whether an operand may start here that has no other reading behind type arguments. -/
def startsOperand (s : Surroundings) (c : Cursor) : Bool :=
  let operatorWord := (["in", "instanceof", "as", "satisfies"] : List Text).contains c.word ||
    (s.beforeBody && c.word == ("implements" : Text))
  (c.seesWord && !operatorWord) || c.seesNumber ||
    c.seesAny ["\"", "'", "[", "+", "-", "~", "<", "#", "@"] ||
    (c.sees "!" && !c.sees "!=") || (c.sees "\x7b" && !s.beforeBody)

def typeArguments (rules : Rules) (s : Surroundings) : Reader := fun c => do
  let c ← rules (.typeItems ">") (← c.mark? "<")
  if c.seesAny [">", "="] && !c.onNewLine then none
  else if c.seesAny ["(", "\x60"] || c.onNewLine || !startsOperand s c then some c
  else none

/-- The two branches behind a question mark. If the first reading of the first branch leaves
no colon, then a colon in it was taken for a result type. -/
def branches (rules : Rules) (s : Surroundings) : Reader := fun c => do
  let first (resultTypes : Bool) : Option Cursor := do
    (← rules (.assignment { resultTypes }) c).mark? ":"
  let c ← if c.dialect.types then first true <|> first false else first true
  rules (.assignment s) c

def arrowBody (rules : Rules) (s : Surroundings) : Reader := fun c =>
  if c.sees "\x7b" then do rules (.afterOperand s) (← rules .block c)
  else rules (.assignment s) c

/-- Whether a question mark starts the branches of a condition, and does not mark an optional
parameter or member. -/
def seesCondition (c : Cursor) : Bool :=
  let after := c.behind 1
  c.sees "?" && !(c.dialect.types && after.seesAny [":", ")", ","])

def seesOptionalMember (c : Cursor) : Bool :=
  c.sees "?." && !(c.rest.drop 2).head?.any isDigit

/-- A binary operator with its right operand, or nothing. -/
def binary (rules : Rules) (s : Surroundings) : Reader := fun c =>
  match sign? binarySigns c with
  | some next => do rules (.afterOperand s) (← rules (.operand s) next)
  | none => some c

def wordAfterOperand (rules : Rules) (s : Surroundings) : Reader := fun c =>
  let word := c.word
  if word == ("in" : Text) || word == ("instanceof" : Text) then do
    rules (.afterOperand s) (← rules (.operand s) (← c.word?))
  else if c.dialect.types && !(s.mayEnd && c.onNewLine) &&
      (word == ("as" : Text) || word == ("satisfies" : Text)) then do
    rules (.afterOperand s) (← rules (.type s) (← c.word?))
  else some c

def afterOperand (rules : Rules) (s : Surroundings) : Reader := fun c =>
  let again := rules (.afterOperand s)
  let endsHere := s.mayEnd && c.onNewLine
  if c.seesWord then rules.wordAfterOperand s c
  else if seesOptionalMember c then
    let next := c.behind 2
    again (next.name?.getD next)
  else if c.sees "." && !c.seesNumber then do again (← (c.behind 1).name?)
  else if c.sees "(" then do again (← rules.parentheses c)
  else if c.sees "[" then do again (← rules (.items "]") (c.behind 1))
  else if c.sees "\x60" then do again (← rules (.template false) (c.forward 1))
  else if c.seesAny ["++", "--"] then
    if endsHere then some c else again (c.behind 2)
  else if c.sees "!" && !c.sees "!=" then
    if endsHere || !c.dialect.types then some c else again (c.behind 1)
  else if c.sees "=>" then rules.arrowBody s (c.behind 2)
  else if c.sees "??" then rules.binary s c
  else if seesCondition c then rules.branches s (c.behind 1)
  else if c.sees "<" && c.dialect.types then
    match rules.typeArguments s c with
    | some after => again after
    | none => rules.binary s c
  else rules.binary s c

/-- One item of a list. It may be the parameter of a function, with a type and a default. -/
def item (rules : Rules) : Reader := fun c =>
  if c.sees "@" then rules.decorator c
  else do
    let c ← rules (.assignment {}) c
    if !c.dialect.types then some c
    else do
      let c ← rules.annotation {} (c.skip "?")
      rules.initialValue {} c

def items (rules : Rules) (close : Text) : Reader := fun c =>
  let c := c.passAll
  match c.mark? close with
  | some c => some c
  | none =>
    if c.sees "," then rules (.items close) (c.behind 1)
    else do rules (.items close) (← rules.item c)

def template (rules : Rules) (ofTypes : Bool) : Reader := fun c =>
  let c := c.forward (templateText c.rest)
  if c.sees "\x60" then some (c.behind 1)
  else do
    let c ← c.mark? "$\x7b"
    let c ← rules (if ofTypes then .type {} else .expression {}) c
    rules (.template ofTypes) (← c.markBeforeText? "\x7d")

/-- The names before a member's value, type or parameters: words that qualify the member,
and its own name. -/
def memberNames (rules : Rules) (kind : MemberKind) : Reader := fun c =>
  let again := rules (.memberNames kind)
  if c.sees "*" then again (c.behind 1)
  else if kind == .objectType && c.seesAny ["+", "-"] && !c.seesAny ["+?", "-?"] then
    again (c.behind 1)
  else if c.sees "[" then
    match if kind == .objectType then rules.mappedName c else none with
    | some c => again c
    | none => do again (← rules (.items "]") (c.behind 1))
  else match c.string? <|> c.number? <|> c.name? with
    | some c => again c
    | none => some c

/-- What may follow the names of a member: parameters and a body, or a type and a value. -/
def afterNames (rules : Rules) (kind : MemberKind) : Reader := fun c => do
  let s : Surroundings := { mayEnd := kind != .object }
  let c := (sign? ["-?", "+?", "?", "!"] c).getD c
  if c.sees "(" || (c.dialect.types && c.sees "<") then
    rules.optionalBlock (← rules.signature s c)
  else if kind == .classBody && c.sees "\x7b" then rules .block c
  else if kind == .object then
    match c.mark? ":" with
    | some c => rules (.assignment {}) c
    | none => rules.initialValue {} c
  else do
    let c ← if c.dialect.types then rules.annotation s c else some c
    rules.initialValue s c

def member (rules : Rules) (kind : MemberKind) : Reader := fun c =>
  if c.sees "@" then rules.decorator c
  else match c.mark? "..." with
    | some c => rules (.assignment {}) c
    | none => do rules.afterNames kind (← rules (.memberNames kind) c)

def members (rules : Rules) (kind : MemberKind) : Reader := fun c =>
  let c := c.passAll
  match c.mark? "\x7d" with
  | some c => some c
  | none =>
    if c.seesAny [",", ";"] then rules (.members kind) (c.behind 1)
    else do
      let after ← rules.member kind c
      if c.offset < after.offset then rules (.members kind) after else none

def afterDecorator (rules : Rules) : Reader := fun c =>
  if c.sees "." then do rules .afterDecorator (← (c.behind 1).name?)
  else if c.sees "(" then do rules .afterDecorator (← rules.parentheses c)
  else if c.sees "<" && c.dialect.types then do
    rules .afterDecorator (← rules.typeParameters c)
  else some c

end LintDirectives.Script.Rules
