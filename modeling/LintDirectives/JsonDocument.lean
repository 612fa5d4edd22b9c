import LintDirectives.QuotedText

/-!
# JSON documents

JSON values whose objects keep the order of their keys, and their text in ASCII: two spaces
of indentation for each level, empty arrays and objects closed at once, and the delete
character and all characters beyond ASCII written as UTF-16 units.
-/

namespace LintDirectives

inductive Json where
  | null
  | bool (b : Bool)
  | int (n : Int)
  | text (t : Text)
  | array (items : List Json)
  | object (fields : List (Text × Json))

namespace Json

instance : Coe String Json := ⟨fun s => text s.toList⟩

def unitEscape (n : Nat) : Text :=
  '\\' :: 'u' :: QuotedText.hex 4 n

/-- One character of a text, inside the quotation marks. -/
def escaped (c : Char) : Text :=
  let n := c.toNat
  if c == '"' then ['\\', '"']
  else if c == '\\' then ['\\', '\\']
  else if c == '\n' then ['\\', 'n']
  else if c == '\r' then ['\\', 'r']
  else if c == '\t' then ['\\', 't']
  else if n == 12 then ['\\', 'f']
  else if n == 8 then ['\\', 'b']
  else if 32 ≤ n && n < 127 then [c]
  else if n < 0x10000 then unitEscape n
  else
    unitEscape (0xD800 + (n - 0x10000) / 1024) ++ unitEscape (0xDC00 + (n - 0x10000) % 1024)

def quotedText (t : Text) : Text :=
  '"' :: t.flatMap escaped ++ ['"']

/-- The start of a line at a level of nesting. -/
def newline (level : Nat) : Text :=
  '\n' :: List.replicate (2 * level) ' '

def bracketed (level : Nat) (opening closing : Char) (items : List Text) : Text :=
  if items.isEmpty then [opening, closing]
  else
    opening :: newline (level + 1) ++ Text.join (',' :: newline (level + 1)) items ++
      newline level ++ [closing]

mutual

/-- The text of a value at a level of nesting. -/
def render (level : Nat) : Json → Text
  | null => "null"
  | bool true => "true"
  | bool false => "false"
  | int n => Text.ofInt n
  | text t => quotedText t
  | array items => bracketed level '[' ']' (renderItems (level + 1) items)
  | object fields => bracketed level '\x7b' '\x7d' (renderFields (level + 1) fields)

def renderItems (level : Nat) : List Json → List Text
  | [] => []
  | v :: rest => render level v :: renderItems level rest

def renderFields (level : Nat) : List (Text × Json) → List Text
  | [] => []
  | (k, v) :: rest => (quotedText k ++ ": " ++ render level v) :: renderFields level rest

end

/-- An object with fields that are present and fields that may be absent. -/
def objectOf (fields : List (String × Option Json)) : Json :=
  object (fields.filterMap fun (k, v) => v.map fun v => (k.toList, v))

def nat (n : Nat) : Json := int n

end Json

end LintDirectives
