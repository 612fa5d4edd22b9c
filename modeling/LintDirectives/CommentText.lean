import LintDirectives.Blank

/-!
# Comment texts

A comment is a line comment, a block comment, or a documentation comment, which is a block
comment with two opening stars in a language that has such comments. The body of a comment
is what stands between its delimiters, without blanks at its ends.
-/

namespace LintDirectives

inductive CommentForm where
  | line
  | block
  | doc
deriving DecidableEq

namespace CommentForm

def name : CommentForm → Text
  | line => "line"
  | block => "block"
  | doc => "doc"

def all : List CommentForm := [line, block, doc]

def ofName? (t : Text) : Option CommentForm :=
  all.find? (·.name == t)

def ofText (docComments : Bool) : Text → CommentForm
  | '/' :: '*' :: '*' :: rest =>
    if docComments && rest.head? != some '/' then doc else block
  | '/' :: '*' :: _ => block
  | _ => line

end CommentForm

namespace CommentText

def dropLineOpen : Text → Text
  | '/' :: '/' :: rest => rest
  | '#' :: rest => rest
  | t => t

def dropBlockOpen : Text → Text
  | '/' :: '*' :: rest => rest.dropWhile (· == '*')
  | t => t

/-- Drop the stars and the slash that close a block comment. One line feed may follow
them. -/
def dropBlockClose (t : Text) : Text :=
  match t.reverse with
  | '/' :: '*' :: rest => (rest.dropWhile (· == '*')).reverse
  | '\n' :: '/' :: '*' :: rest => (rest.dropWhile (· == '*')).reverse ++ ['\n']
  | _ => t

def body (form : CommentForm) (t : Text) : Text :=
  match form with
  | .line => Text.trim (dropLineOpen t)
  | _ => Text.trim (dropBlockClose (dropBlockOpen t))

end CommentText

end LintDirectives
