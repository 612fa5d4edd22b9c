import LintDirectives.ScriptExpressions

/-!
# Statements in scripts

The rules for statements. The head of a statement, such as a condition in parentheses, and
the keyword between two of its parts count as statements of their own, since the next
statement starts behind them in the same way. What is no statement is passed lexeme by lexeme.
-/

namespace LintDirectives.Script.Rules

def leadingWords : List Text := ["else", "do", "try", "finally"]

/-- Words with a list in parentheses before a statement or a block. -/
def headWords : List Text := ["if", "while", "with", "switch"]

def expressionStatement (rules : Rules) : Reader := fun c => do
  let c ← rules (.expression .statement) c
  some (c.skip ";")

def declarations (rules : Rules) (s : Surroundings) : Reader := fun c => do
  let c ← rules (.operand s) c
  let c ← if c.dialect.types then rules.annotation s (c.skip "!") else some c
  let c ← rules.initialValue s c
  match c.mark? "," with
  | some c => rules (.declarations s) c
  | none => some c

def declarationStatement (rules : Rules) : Reader := fun c => do
  let c ← rules (.declarations .statement) c
  some (c.skip ";")

/-- The head of a loop. Its first clause declares names, or is an expression, or is missing. -/
def loopHead (rules : Rules) : Reader := fun c => do
  let c := (c.keyword? "await").getD c
  let c ← c.mark? "("
  let keyword := (c.keyword? "await").getD c
  let declared : Option Cursor :=
    if (["var", "let", "const", "using"] : List Text).contains keyword.word then do
      rules (.declarations {}) (← keyword.word?)
    else none
  rules .loopClauses ((declared <|> rules (.expression {}) c).getD c)

def loopClauses (rules : Rules) : Reader := fun c =>
  match c.mark? ")" with
  | some c => some c
  | none =>
    if c.sees ";" then rules .loopClauses (c.behind 1)
    else do
      let clause : Option Cursor := do
        rules (.expression {}) (← c.keyword? "of" <|> c.keyword? "in")
      rules .loopClauses (← clause <|> rules (.expression {}) c)

/-- The names of an import, the string that says where they come from, and attributes. -/
def importedNames (rules : Rules) : Reader := fun c =>
  match c.string? with
  | some c =>
    match c.keyword? "with" <|> c.keyword? "assert" with
    | some attributes => some ((do rules (.members .object) (← attributes.mark? "\x7b")).getD c)
    | none => some c
  | none =>
    if c.sees "=" then do rules.expressionStatement (← c.mark? "=")
    else if c.sees "\x7b" then do rules .importedNames (← rules (.members .object) (c.behind 1))
    else if c.seesAny ["*", ","] then rules .importedNames (c.behind 1)
    else do rules .importedNames (← c.word?)

def exportedNames (rules : Rules) : Reader := fun c => do
  let c ← rules (.members .object) (← c.mark? "\x7b")
  if c.word == ("from" : Text) then rules .importedNames c else some c

/-- An export behind its keyword. A declaration is left to the next statement. -/
def «export» (rules : Rules) : Reader := fun c =>
  let list := (c.keyword? "type").getD c
  if list.sees "\x7b" then rules.exportedNames list
  else if list.sees "*" then rules .importedNames list
  else if c.sees "=" then do rules.expressionStatement (← c.mark? "=")
  else match c.keyword? "default" with
    | none => some c
    | some c =>
      let declaring : List Text := ["function", "async", "class", "abstract", "interface"]
      if c.sees "@" || declaring.contains c.word then some c else rules.expressionStatement c

def seesFunctionName (c : Cursor) : Bool :=
  (c.skip "*").seesWord

def seesClassName (c : Cursor) : Bool :=
  c.seesWord && c.word != ("extends" : Text)

def seesWordOnLine (c : Cursor) : Bool :=
  c.seesWord && !c.onNewLine

/-- A statement that starts with a word of the typed dialects, which may also be a plain name;
the cursor stands behind the word. -/
def typedStatement (rules : Rules) (word : Text) : Reader := fun c =>
  if word == ("type" : Text) && seesWordOnLine c then do
    let c ← rules.typeParameters (← c.word?)
    let c ← rules (.type .statement) (← c.mark? "=")
    some (c.skip ";")
  else if word == ("interface" : Text) && seesWordOnLine c then do
    let c ← rules.typeParameters (← c.word?)
    let c ← match c.keyword? "extends" with
      | some c => rules (.typeItems "\x7b") c
      | none => c.mark? "\x7b"
    rules (.members .objectType) c
  else if word == ("enum" : Text) then do
    rules (.members .object) (← (← c.word?).mark? "\x7b")
  else if word == ("namespace" : Text) || word == ("module" : Text) then
    if c.onNewLine then none
    else c.string? <|> (do rules .afterDecorator (← c.word?))
  else if (word == ("declare" : Text) || word == ("abstract" : Text)) && seesWordOnLine c then
    some c
  else if word == ("global" : Text) && c.sees "\x7b" then some c
  else none

/-- What follows a word that leaves a function. A comment over several lines ends the statement
like a new line, where there are no types. -/
def departure (rules : Rules) : Reader := fun c =>
  let onNewLine := c.onNewLine || (c.behindLongComment && !c.dialect.types)
  if onNewLine || c.rest.isEmpty || c.seesAny [";", "\x7d"] then some c
  else rules.expressionStatement c

/-- A statement that starts with a keyword; the cursor stands behind the word. A word that is
no keyword here is left to the rule of expressions. -/
def keywordStatement (rules : Rules) (word : Text) : Reader := fun c =>
  if leadingWords.contains word then some c
  else if headWords.contains word then rules.parentheses c
  else if word == ("for" : Text) then rules.loopHead c
  else if word == ("catch" : Text) then
    if c.sees "(" then rules.parentheses c else some c
  else if word == ("return" : Text) || word == ("throw" : Text) then rules.departure c
  else if word == ("break" : Text) || word == ("continue" : Text) then
    if seesWordOnLine c then c.word? else some c
  else if word == ("case" : Text) then do
    (← rules (.expression { resultTypes := false }) c).mark? ":"
  else if word == ("function" : Text) && seesFunctionName c then rules.function c
  else if word == ("async" : Text) && !c.onNewLine then do
    let c ← c.keyword? "function"
    if seesFunctionName c then rules.function c else none
  else if word == ("class" : Text) && seesClassName c then rules.class c
  else if word == ("const" : Text) && c.word == ("enum" : Text) then some c
  else if word == ("var" : Text) || word == ("const" : Text) then rules.declarationStatement c
  else if word == ("let" : Text) then
    if c.seesWord || c.seesAny ["[", "\x7b"] then rules.declarationStatement c else none
  else if word == ("using" : Text) && seesWordOnLine c then rules.declarationStatement c
  else if word == ("import" : Text) && !c.seesAny ["(", "."] then rules .importedNames c
  else if word == ("export" : Text) then rules.export c
  else if c.dialect.types then rules.typedStatement word c
  else none

def statement (rules : Rules) : Reader := fun c =>
  if c.sees "\x7b" then rules .block c
  else if c.sees ";" then some (c.behind 1)
  else if c.sees "@" then rules.decorator c
  else match c.word? with
    | none => rules.expressionStatement c
    | some after =>
      if after.sees ":" then some (after.behind 1)
      else rules.keywordStatement c.word after <|> rules.expressionStatement c

/-- Statements up to a closing brace or the end of the source. -/
def statements (rules : Rules) : Reader := fun c =>
  let c := c.passAll
  if c.rest.isEmpty || c.sees "\x7d" then some c
  else
    let next := (rules .statement c).getD c
    rules .statements (if c.offset < next.offset then next else c.skipLexeme)

def block (rules : Rules) : Reader := fun c => do
  (← rules .statements (← c.mark? "\x7b")).mark? "\x7d"

end LintDirectives.Script.Rules
