import LintDirectives.ScriptGrammar

/-!
# Elements in scripts

The rules for elements: tags with attributes, and what stands between tags. Texts between
tags are no code, and comments are only found in tags and in braces. The reader of an element
stops right behind its last tag, since text may go on there.
-/

namespace LintDirectives.Script.Rules

/-- An expression in braces, which may be missing, in front of text or of code. -/
def inBraces (rules : Rules) (textFollows : Bool) : Reader := fun c => do
  let c ← c.mark? "\x7b"
  let c ← if c.sees "\x7d" then some c else rules (.expression {}) c
  if textFollows then c.markBeforeText? "\x7d" else c.mark? "\x7d"

def element (rules : Rules) : Reader := fun c => do
  rules .tag (← c.mark? "<")

def attributeValue (rules : Rules) : Reader := fun c =>
  if c.sees "\x7b" then rules.inBraces false c
  else if c.sees "<" then (rules .element c).map Cursor.pass
  else c.attributeString?

/-- The inside of an opening tag: names, attributes, expressions and type arguments. -/
def tag (rules : Rules) : Reader := fun c =>
  if c.sees "/>" then some (c.forward 2)
  else if c.sees ">" then rules .children (c.forward 1)
  else if c.sees "\x7b" then do rules .tag (← rules.inBraces false c)
  else if c.sees "=" then do rules .tag (← rules.attributeValue (c.behind 1))
  else if c.sees "<" && c.dialect.types then do
    rules .tag (← rules (.typeItems ">") (c.behind 1))
  else if c.seesAny ["-", ".", ":"] then rules .tag (c.behind 1)
  else do rules .tag (← c.word? <|> c.number?)

def closingTag (rules : Rules) : Reader := fun c =>
  if c.sees ">" then some (c.forward 1)
  else if c.seesAny ["-", ".", ":"] then rules .closingTag (c.behind 1)
  else do rules .closingTag (← c.word? <|> c.number?)

/-- What stands between two tags, and the closing one. -/
def children (rules : Rules) : Reader := fun c =>
  let c := c.forward (elementText c.rest)
  if c.sees "</" then rules .closingTag (c.behind 2)
  else if c.sees "<!--" then rules .children (c.forward (htmlComment c.rest))
  else if c.sees "<" then do rules .children (← rules .element c)
  else do rules .children (← rules.inBraces true c)

end LintDirectives.Script.Rules
