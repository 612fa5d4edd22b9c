import LintDirectives.ScriptStatements

/-!
# Comments of JavaScript and TypeScript sources

The comments of a script are those that a cursor passes while it reads the statements of the
script. Comments are looked for outside of strings, template texts, regular expressions and
the texts and attribute strings of elements, but inside the substitutions of templates and
the braces of elements. A first line that starts with a number sign and an exclamation mark,
and the lines of HTML comments, are no comments.
-/

namespace LintDirectives.Script

/-- How a goal is met, given how the goals in it are met. -/
def rule (rules : Rules) : Rules
  | .statements => rules.statements
  | .statement => rules.statement
  | .block => rules.block
  | .declarations s => rules.declarations s
  | .loopClauses => rules.loopClauses
  | .importedNames => rules.importedNames
  | .expression s => rules.expression s
  | .assignment s => rules.assignment s
  | .operand s => rules.operand s
  | .afterOperand s => rules.afterOperand s
  | .items close => rules.items close
  | .memberNames kind => rules.memberNames kind
  | .members kind => rules.members kind
  | .afterDecorator => rules.afterDecorator
  | .template ofTypes => rules.template ofTypes
  | .element => rules.element
  | .tag => rules.tag
  | .closingTag => rules.closingTag
  | .children => rules.children
  | .type s => rules.type s
  | .typeOperand s => rules.typeOperand s
  | .afterType s => rules.afterType s
  | .afterTypeName s => rules.afterTypeName s
  | .typeItems close => rules.typeItems close

def rulesTo : Nat → Rules
  | 0, _, _ => none
  | depth + 1, goal, c => rule (rulesTo depth) goal c

/-- A depth that no source of some length exceeds: each byte is passed within a few goals. -/
def sufficientDepth (length : Nat) : Nat :=
  16 * (length + 1)

/-- Read statements to the end of the source, passing closing braces that close nothing. The
first argument bounds the number of these. -/
def program (rules : Rules) : Nat → Cursor → Cursor
  | 0, c => c
  | n + 1, c =>
    let c := (rules .statements c).getD c
    if c.rest.isEmpty then c else program rules n c.skipLexeme

def commentSpans (dialect : Dialect) (source : Bytes) : List Span :=
  let rules := rulesTo (sufficientDepth source.length)
  (program rules (source.length + 1) (Cursor.start dialect source)).comments.reverse

end LintDirectives.Script
