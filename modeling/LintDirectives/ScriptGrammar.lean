import LintDirectives.ScriptCursor

/-!
# The grammar of scripts, as far as comments depend on it

To find the comments of a script one has to know where an expression, a type, a tag or a
statement is expected, and nothing else. A goal names what is expected. The rules of the
grammar say for every goal how a cursor moves behind it, and refer to other goals through the
argument `rules`, so that each rule is a plain function. The rules are generous: they accept
everything that is well formed, and much more.
-/

namespace LintDirectives.Script

structure Surroundings where
  /-- Whether the statement may end here, so that a new line can end it. -/
  mayEnd : Bool := false
  /-- Whether parentheses may be followed by the type of a function's result. -/
  resultTypes : Bool := true
  /-- Whether the body of a class may follow. -/
  beforeBody : Bool := false
deriving DecidableEq

def Surroundings.statement : Surroundings := { mayEnd := true }

inductive MemberKind where
  | object
  | classBody
  | objectType
deriving DecidableEq

/-- What may be expected at a place of a source. A goal that names a closing mark is met
behind that mark. -/
inductive Goal where
  /-- Statements up to a closing brace or the end of the source. -/
  | statements
  | statement
  | block
  | declarations (s : Surroundings)
  | loopClauses
  | importedNames
  | expression (s : Surroundings)
  | assignment (s : Surroundings)
  | operand (s : Surroundings)
  | afterOperand (s : Surroundings)
  /-- The items of a list: arguments, parameters or elements. -/
  | items (close : Text)
  /-- The names before a member's value, type or parameters. -/
  | memberNames (kind : MemberKind)
  | members (kind : MemberKind)
  | afterDecorator
  /-- The text of a template, which may hold types instead of expressions. -/
  | template (ofTypes : Bool)
  | element
  /-- The inside of an opening tag, its closing mark and what it opens. -/
  | tag
  | closingTag
  /-- The texts and elements between two tags. -/
  | children
  | type (s : Surroundings)
  | typeOperand (s : Surroundings)
  | afterType (s : Surroundings)
  /-- The parts of a qualified name, and the arguments behind it. -/
  | afterTypeName (s : Surroundings)
  /-- The items of a list of types: arguments or parameters. -/
  | typeItems (close : Text)
deriving DecidableEq

/-- A way to move behind something that is expected, or to see that it is not there. -/
abbrev Reader := Cursor → Option Cursor

/-- How every goal is met. -/
abbrev Rules := Goal → Reader

namespace Rules

def parentheses (rules : Rules) : Reader := fun c => do
  rules (.items ")") (← c.mark? "(")

def annotation (rules : Rules) (s : Surroundings) : Reader := fun c =>
  match c.mark? ":" with
  | some c => rules (.type s) c
  | none => some c

def typeParameters (rules : Rules) : Reader := fun c =>
  match c.mark? "<" with
  | some c => rules (.typeItems ">") c
  | none => some c

/-- The parameters of a function, with the types before and behind them. -/
def signature (rules : Rules) (s : Surroundings) : Reader := fun c => do
  let c ← rules.typeParameters c
  let c ← rules.parentheses c
  if c.dialect.types then rules.annotation s c else some c

def optionalBlock (rules : Rules) : Reader := fun c =>
  if c.sees "\x7b" then rules .block c else some c

def initialValue (rules : Rules) (s : Surroundings) : Reader := fun c =>
  if c.sees "=" && !c.sees "=>" then do rules (.assignment s) (← c.mark? "=") else some c

def function (rules : Rules) : Reader := fun c => do
  let c := c.skip "*"
  let c := c.word?.getD c
  let c ← rules.signature .statement c
  rules.optionalBlock c

def implementedTypes (rules : Rules) : Reader := fun c =>
  match c.keyword? "implements" with
  | some c => rules (.typeItems "\x7b") c
  | none => c.mark? "\x7b"

def «class» (rules : Rules) : Reader := fun c => do
  let named := c.seesWord && c.word != ("extends" : Text) &&
    !(c.dialect.types && c.word == ("implements" : Text))
  let c := if named then c.word?.getD c else c
  let c ← rules.typeParameters c
  let c ← match c.keyword? "extends" with
    | some c => rules (.expression { beforeBody := true }) c
    | none => some c
  rules (.members .classBody) (← rules.implementedTypes c)

def decorator (rules : Rules) : Reader := fun c => do
  let c ← c.mark? "@"
  if c.sees "(" then rules.parentheses c else rules .afterDecorator (← c.word?)

end Rules

end LintDirectives.Script
