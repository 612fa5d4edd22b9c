import LintDirectives.Text

/-!
# Source languages

The languages whose comments are read, told apart by the extension of the file name.
-/

namespace LintDirectives

inductive Language where
  | python
  | javascript
  | typescript
  | go
deriving DecidableEq

def fileName (path : Text) : Text :=
  (path.reverse.takeWhile (· != '/')).reverse

/-- The extension of a path, with its dot. Dots at the start of the file name do not begin
an extension. -/
def fileExtension (path : Text) : Text :=
  let reversed := (fileName path).reverse
  let ending := reversed.takeWhile (· != '.')
  match reversed.dropWhile (· != '.') with
  | _ :: stem => if stem.all (· == '.') then [] else '.' :: ending.reverse
  | [] => []

namespace Language

def name : Language → Text
  | python => "python"
  | javascript => "javascript"
  | typescript => "typescript"
  | go => "go"

def extensions : Language → List Text
  | python => [".py", ".pyi"]
  | javascript => [".cjs", ".js", ".jsx", ".mjs"]
  | typescript => [".cts", ".mts", ".ts", ".tsx"]
  | go => [".go"]

/-- Whether a block comment with two opening stars is a documentation comment. -/
def hasDocComments : Language → Bool
  | javascript => true
  | typescript => true
  | _ => false

def all : List Language := [python, javascript, typescript, go]

def ofName? (t : Text) : Option Language :=
  all.find? (·.name == t)

def ofPath? (path : Text) : Option Language :=
  all.find? fun language => language.extensions.contains (fileExtension path)

end Language

end LintDirectives
