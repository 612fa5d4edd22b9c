import LintDirectives.ScriptGrammar

/-!
# Types in scripts

The rules for types: names with arguments, objects, tuples, functions, conditions, and the
operators on them. A list in parentheses is read in one way, whether it holds the parameters
of a function or a type; an arrow behind it tells.
-/

namespace LintDirectives.Script.Rules

def typeOperatorWords : List Text :=
  ["keyof", "typeof", "readonly", "unique", "infer", "asserts", "abstract", "new"]

/-- Words that may stand before a type parameter. -/
def parameterWords : List Text := ["const", "in", "out"]

def type (rules : Rules) (s : Surroundings) : Reader := fun c => do
  let c := if c.sees "|" then c.skip "|" else c.skip "&"
  rules (.afterType s) (← rules (.typeOperand s) c)

/-- What may follow the operand of a type: a condition, an operator or an index. -/
def afterType (rules : Rules) (s : Surroundings) : Reader := fun c => do
  let endsHere := s.mayEnd && c.onNewLine
  if c.word == ("extends" : Text) then
    let c ← rules (.type s) (← c.word?)
    match c.mark? "?" with
    | none => some c
    | some c =>
      let c ← rules (.type { s with mayEnd := false }) c
      rules (.type s) (← c.mark? ":")
  else if c.seesAny ["|", "&"] && !c.seesAny ["||", "&&", "|=", "&="] then
    rules (.afterType s) (← rules (.typeOperand s) (c.behind 1))
  else if c.sees "[" && !endsHere then
    rules (.afterType s) (← rules (.typeItems "]") (c.behind 1))
  else if c.word == ("is" : Text) && !c.onNewLine then
    rules (.type s) (← c.word?)
  else some c

def arrowType (rules : Rules) (s : Surroundings) : Reader := fun c =>
  match c.mark? "=>" with
  | some c => rules (.type s) c
  | none => some c

def typeWord (rules : Rules) (s : Surroundings) : Reader := fun c => do
  let word := c.word
  let c ← c.word?
  let named := rules (.afterTypeName s)
  if word == ("import" : Text) && c.sees "(" then named (← rules.parentheses c)
  else if typeOperatorWords.contains word && !(s.mayEnd && c.onNewLine) then
    rules (.typeOperand s) c <|> named c
  else named c

def typeOperand (rules : Rules) (s : Surroundings) : Reader := fun c =>
  if c.sees "(" then do
    rules.arrowType s (← rules (.typeItems ")") (c.behind 1))
  else if c.sees "<" then do
    let c ← rules.typeParameters c
    rules.arrowType s (← rules (.typeItems ")") (← c.mark? "("))
  else if c.sees "\x7b" then rules (.members .objectType) (c.behind 1)
  else if c.sees "[" then rules (.typeItems "]") (c.behind 1)
  else if c.sees "\x60" then rules (.template true) (c.forward 1)
  else if c.sees "..." then rules (.typeOperand s) (c.behind 3)
  else if c.sees "*" then some (c.behind 1)
  else if c.sees "-" then (c.behind 1).number?
  else c.string? <|> c.number? <|> rules.typeWord s c

/-- The parts of a qualified name, and the arguments behind it. A less sign that starts no
arguments is not part of the type. -/
def afterTypeName (rules : Rules) (s : Surroundings) : Reader := fun c =>
  if c.sees "." then do rules (.afterTypeName s) (← (c.behind 1).name?)
  else if c.sees "<" && !c.seesAny ["<<", "<="] then
    some ((rules (.typeItems ">") (c.behind 1)).getD c)
  else some c

/-- Pass a word that qualifies the type parameter behind it. -/
def skipParameterWord (c : Cursor) : Cursor :=
  let next := c.word?.getD c
  if parameterWords.contains c.word && next.seesWord then next else c

/-- One item of a list of types: it may be qualified by some words, be named, be optional and
have a default. -/
def typeItem (rules : Rules) : Reader := fun c => do
  let c := parameterWords.foldl (fun c _ => skipParameterWord c) c
  let c ← rules (.type {}) (c.skip "...")
  let c ← rules.annotation {} (c.skip "?")
  match c.mark? "=" with
  | some c => rules (.type {}) c
  | none => some c

def typeItems (rules : Rules) (close : Text) : Reader := fun c =>
  match c.mark? close with
  | some c => some c
  | none => do
    let c ← rules.typeItem c
    match c.mark? "," with
    | some c => rules (.typeItems close) c
    | none => c.mark? close

/-- The head of a mapped type's member. -/
def mappedName (rules : Rules) : Reader := fun c => do
  let c ← (← c.mark? "[").word?
  let c ← rules (.type {}) (← c.keyword? "in")
  let c ← match c.keyword? "as" with
    | some c => rules (.type {}) c
    | none => some c
  c.mark? "]"

end LintDirectives.Script.Rules
