import LintDirectives.WrittenNumber

/-!
# Kinds of YAML values

A tag says what a node is read as. A plain scalar without a tag gets one by what it looks like:
booleans such as `yes` and `off`, integers in four bases and in sexagesimal notation, decimal
fractions, dates and moments, and the empty value; all else is text. A line break at the very
end of a scalar does not change what it looks like.
-/

namespace LintDirectives.Yaml

inductive Tag where
  | null
  | bool
  | int
  | float
  | binary
  | timestamp
  | text
  | list
  | map
  | set
  /-- A list of mappings with one entry each. -/
  | pairs
  /-- The key that merges mappings. -/
  | merge
  /-- The key for the value of a mapping that stands for a scalar. -/
  | default
  | unknown
deriving DecidableEq

def standardTags : List (Text × Tag) :=
  [("null", .null), ("bool", .bool), ("int", .int), ("float", .float), ("binary", .binary),
    ("timestamp", .timestamp), ("str", .text), ("seq", .list), ("map", .map), ("set", .set),
    ("omap", .pairs), ("pairs", .pairs), ("merge", .merge), ("value", .default)]

def standardSpace : Text := "tag:yaml.org,2002:"

def Tag.ofName (t : Text) : Tag :=
  match standardSpace.isPrefixOf? t with
  | some name => (standardTags.lookup name).getD .unknown
  | none => .unknown

/-- Whether a text is a digit followed by digits and low lines. -/
def isDigits (t : Text) : Bool :=
  match t with
  | c :: rest => c.isDigit && rest.all fun c => c.isDigit || c == '_'
  | [] => false

/-- Whether a text is not empty and has only characters of some kind and low lines. -/
def isMadeOf (p : Char → Bool) (t : Text) : Bool :=
  !t.isEmpty && t.all fun c => p c || c == '_'

/-- Whether a text is one of the places after the first of a sexagesimal number. -/
def isSixty (t : Text) : Bool :=
  match t with
  | [a] => a.isDigit
  | [a, b] => '0' ≤ a && a ≤ '5' && b.isDigit
  | _ => false

def isHexadecimal (c : Char) : Bool :=
  c.isDigit || ('a' ≤ c && c ≤ 'f') || ('A' ≤ c && c ≤ 'F')

/-- Whether a text without a sign looks like an integer. -/
def looksNatural (t : Text) : Bool :=
  match t with
  | ['0'] => true
  | '0' :: 'b' :: rest => isMadeOf (fun c => c == '0' || c == '1') rest
  | '0' :: 'x' :: rest => isMadeOf isHexadecimal rest
  | '0' :: rest => isMadeOf (fun c => '0' ≤ c && c ≤ '7') rest
  | _ =>
    match t.splitOn ':' with
    | first :: places => isDigits first && places.all isSixty
    | [] => false

def looksInteger (t : Text) : Bool :=
  looksNatural (WrittenNumber.splitSign t).2

/-- Whether a text looks like an exponent, which has to have a sign, or is empty. -/
def looksExponent (t : Text) : Bool :=
  match t with
  | [] => true
  | e :: sign :: digits =>
    (e == 'e' || e == 'E') && (sign == '+' || sign == '-') && !digits.isEmpty &&
      digits.all Char.isDigit
  | _ => false

/-- Whether a text without a sign looks like a decimal fraction, which has to have a point. -/
def looksFraction (signed : Bool) (t : Text) : Bool :=
  match Text.cut? "." t with
  | none => false
  | some (whole, rest) =>
    let places := rest.takeWhile fun c => c.isDigit || c == '_'
    let after := rest.drop places.length
    match whole.splitOn ':' with
    | [digits] =>
      (isDigits digits || (digits.isEmpty && !signed && isDigits places)) && looksExponent after
    | first :: parts => isDigits first && parts.all isSixty && after.isEmpty
    | [] => false

def isOneOf (words : List Text) (t : Text) : Bool :=
  words.contains t

/-- Whether a text looks like a floating point number. -/
def looksFloat (t : Text) : Bool :=
  let unsigned := (WrittenNumber.splitSign t).2
  isOneOf [".inf", ".Inf", ".INF"] unsigned || isOneOf [".nan", ".NaN", ".NAN"] t ||
    looksFraction (unsigned.length != t.length) unsigned

/-- The words for true and false, in lower case. -/
def booleanWords : List (Text × Bool) :=
  [("yes", true), ("no", false), ("true", true), ("false", false), ("on", true), ("off", false)]

/-- Whether a text is a word for true or false: in lower case, with a capital, or in
capitals. -/
def looksBoolean (t : Text) : Bool :=
  booleanWords.any fun (word, _) =>
    t == word || t == word.map Char.toUpper ||
      t == (word.take 1).map Char.toUpper ++ word.drop 1

/-- Whether a text spells the empty value. -/
def looksNull (t : Text) : Bool :=
  isOneOf ["~", "null", "Null", "NULL"] t

structure TimestampParts where
  year : Text
  month : Text
  day : Text
  time : Option (Text × Text × Text) := none
  fraction : Text := []
  /-- The offset: whether it is behind universal time, and its hours and minutes. -/
  offset : Option (Bool × Text × Text) := none

namespace TimestampParts

/-- Between `least` and `most` digits at the start, as many as there are, and the rest. -/
def digits? (least most : Nat) (t : Text) : Option (Text × Text) :=
  let digits := (t.takeWhile Char.isDigit).take most
  if digits.length < least then none else some (digits, t.drop digits.length)

def sign? (c : Char) (t : Text) : Option Text :=
  [c].isPrefixOf? t

/-- Whether a character is a blank between the parts of a moment. -/
def isGap (c : Char) : Bool :=
  c == ' ' || c == '\t'

/-- The text behind what divides a date from a time. -/
def divided? (t : Text) : Option Text :=
  match t with
  | 'T' :: rest => some rest
  | 't' :: rest => some rest
  | c :: rest => if isGap c then some (rest.dropWhile isGap) else none
  | [] => none

def readOffset? (parts : TimestampParts) (t : Text) : Option TimestampParts :=
  if t.isEmpty then some parts
  else
    match t.dropWhile isGap with
    | ['Z'] => some { parts with offset := some (false, ['0'], ['0']) }
    | c :: rest => do
      if c != '+' && c != '-' then none
      let (hours, rest) ← digits? 1 2 rest
      if rest.isEmpty then return { parts with offset := some (c == '-', hours, ['0']) }
      let (minutes, rest) ← digits? 2 2 (← sign? ':' rest)
      if rest.isEmpty then some { parts with offset := some (c == '-', hours, minutes) } else none
    | [] => none

def readTime? (parts : TimestampParts) (t : Text) : Option TimestampParts := do
  let (hour, rest) ← digits? 1 2 (← divided? t)
  let (minute, rest) ← digits? 2 2 (← sign? ':' rest)
  let (second, rest) ← digits? 2 2 (← sign? ':' rest)
  let parts := { parts with time := some (hour, minute, second) }
  match sign? '.' rest with
  | some rest =>
    let fraction := rest.takeWhile Char.isDigit
    readOffset? { parts with fraction } (rest.drop fraction.length)
  | none => readOffset? parts rest

def ofText? (t : Text) : Option TimestampParts := do
  let (year, rest) ← digits? 4 4 t
  let (month, rest) ← digits? 1 2 (← sign? '-' rest)
  let (day, rest) ← digits? 1 2 (← sign? '-' rest)
  let parts : TimestampParts := { year, month, day }
  if rest.isEmpty then some parts else readTime? parts rest

end TimestampParts

/-- Whether a text looks like a date or a moment. A date alone is written in full. -/
def looksTimestamp (t : Text) : Bool :=
  match TimestampParts.ofText? t with
  | some parts => parts.time.isSome || (parts.month.length == 2 && parts.day.length == 2)
  | none => false

def withoutLastBreak (t : Text) : Text :=
  if t.getLast? == some '\n' then t.dropLast else t

def impliedTag (t : Text) : Tag :=
  let body := withoutLastBreak t
  if t.isEmpty then .null
  else if looksBoolean body then .bool
  else if looksFloat body then .float
  else if looksInteger body then .int
  else if body == ['<', '<'] then .merge
  else if looksNull body then .null
  else if looksTimestamp body then .timestamp
  else if body == ['='] then .default
  else if isOneOf ["!", "&", "*"] body then .unknown
  else .text

end LintDirectives.Yaml
