import LintDirectives.CommentScanner

/-!
# Comments of Go sources

Line comments run to the end of their line and block comments to the first closing mark,
outside of strings, raw strings and rune literals.
-/

namespace LintDirectives.GoComments

open CommentScanner

def next (_ : Unit) (source : Bytes) : Lexeme Unit :=
  if startsWith "//" source then { length := restOfLine source, isComment := true, state := () }
  else if startsWith "/*" source then
    { length := blockComment source, isComment := true, state := () }
  else if startsWith "\"" source then
    { length := 1 + throughUnescaped "\"" (source.drop 1), state := () }
  else if startsWith "'" source then
    { length := 1 + throughUnescaped "'" (source.drop 1), state := () }
  else if startsWith "\x60" source then
    { length := 1 + through "\x60" (source.drop 1), state := () }
  else { length := 1, state := () }

def spans (source : Bytes) : List Span :=
  scan next () 0 0 source

end LintDirectives.GoComments
