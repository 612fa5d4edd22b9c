import LintDirectives.ByteText
import LintDirectives.ReadingError
import LintDirectives.ShortestDecimal

/-!
# Values of configuration files

Configuration files hold values of any shape. Where a message shows a value, a text stands
bare at the top and between quotation marks inside a list or a mapping. A list or a mapping
may contain itself; it is shown with dots where it would have to be shown again.
-/

namespace LintDirectives

/-- A value of a configuration file. A mapping keeps the order of its keys. -/
inductive ConfigValue where
  | null
  | bool (b : Bool)
  | int (n : Int)
  | float (x : Float)
  | text (t : Text)
  | date (d : CalendarDate)
  | moment (m : CalendarMoment)
  | bytes (b : Bytes)
  | list (items : List ConfigValue)
  | pair (first second : ConfigValue)
  | set (elements : List ConfigValue)
  | map (entries : List (ConfigValue × ConfigValue))
  /-- A list or a mapping that contains itself, by the way it is shown, and with a limited
  number of its repetitions laid out. -/
  | ring (shown : Text) (laidOut : ConfigValue)

namespace ConfigValue

instance : Inhabited ConfigValue := ⟨null⟩

instance : Coe String ConfigValue := ⟨fun s => text s.toList⟩

/-- A value without the wrapping of one that contains itself. -/
def unwrapped : ConfigValue → ConfigValue
  | ring _ v => v
  | v => v

def quotedByte (quote : Char) (b : UInt8) : Text :=
  let c := Char.ofNat b.toNat
  if 0x7F ≤ b.toNat then '\\' :: 'x' :: QuotedText.hex 2 b.toNat else QuotedText.escaped quote c

/-- Bytes as they are shown: as ASCII characters, the others by their numbers. -/
def quotedBytes (bytes : Bytes) : Text :=
  let quote := QuotedText.mark (bytes.map fun b => Char.ofNat b.toNat)
  'b' :: quote :: bytes.flatMap (quotedByte quote) ++ [quote]

mutual

def quoted : ConfigValue → Text
  | null => "None"
  | bool true => "True"
  | bool false => "False"
  | int n => Text.ofInt n
  | float x => Text.ofFloat x
  | text t => Text.quoted t
  | date d => d.quoted
  | moment m => m.quoted
  | bytes b => quotedBytes b
  | list items => "[" ++ Text.join ", " (quotedItems items) ++ "]"
  | pair first second => "(" ++ quoted first ++ ", " ++ quoted second ++ ")"
  | set [] => "set()"
  | set (v :: rest) => "\x7b" ++ Text.join ", " (quoted v :: quotedItems rest) ++ "\x7d"
  | map entries => "\x7b" ++ Text.join ", " (quotedEntries entries) ++ "\x7d"
  | ring shown _ => shown

def quotedItems : List ConfigValue → List Text
  | [] => []
  | v :: rest => quoted v :: quotedItems rest

def quotedEntries : List (ConfigValue × ConfigValue) → List Text
  | [] => []
  | (k, v) :: rest => (quoted k ++ ": " ++ quoted v) :: quotedEntries rest

end

def shown : ConfigValue → Text
  | text t => t
  | date d => d.text
  | moment m => m.text
  | v => quoted v

/-- Whether a number has few enough digits to be shown. -/
def isShortNumber (n : Int) : Bool :=
  n.natAbs < Nat.pow 10 ReadingError.maxDigits

inductive Obstacle where
  /-- An integer in it has too many digits. -/
  | longNumber
  | depth
deriving DecidableEq

/-- How many levels of values inside a value can be shown where a command reads its configuration. Each
of them takes a nested call, of which there are a thousand less those that lead there. -/
def shownLevels : Nat := 984

mutual

/-- What stops a value from being shown when so many levels of values inside it can be. A set takes one
level more, since it is shown through the list of its elements. -/
def obstacle? (levels : Nat) : ConfigValue → Option Obstacle
  | int n => if isShortNumber n then none else some .longNumber
  | list items => itemsObstacle? levels items
  | pair first second =>
    match levels with
    | 0 => some .depth
    | inner + 1 => (obstacle? inner first).or (obstacle? inner second)
  | set elements =>
    match levels with
    | 0 => if elements.isEmpty then none else some .depth
    | inner + 1 => itemsObstacle? inner elements
  | map entries => entriesObstacle? levels entries
  | _ => none

def itemsObstacle? (levels : Nat) : List ConfigValue → Option Obstacle
  | [] => none
  | v :: rest =>
    match levels with
    | 0 => some .depth
    | inner + 1 => (obstacle? inner v).or (itemsObstacle? (inner + 1) rest)

def entriesObstacle? (levels : Nat) : List (ConfigValue × ConfigValue) → Option Obstacle
  | [] => none
  | (k, v) :: rest =>
    match levels with
    | 0 => some .depth
    | inner + 1 =>
      ((obstacle? inner k).or (obstacle? inner v)).or (entriesObstacle? (inner + 1) rest)

end

/-- Null, false, zero and whatever is empty do not count as true. -/
def isTruthy : ConfigValue → Bool
  | null => false
  | bool b => b
  | int n => n != 0
  | float x => x != 0
  | text t => !t.isEmpty
  | bytes b => !b.isEmpty
  | list items => !items.isEmpty
  | set elements => !elements.isEmpty
  | map entries => !entries.isEmpty
  | _ => true

def number? : ConfigValue → Option (Int ⊕ Float)
  | bool b => some (.inl (if b then 1 else 0))
  | int n => some (.inl n)
  | float x => some (.inr x)
  | _ => none

/-- Whether two numbers are equal. What is no number equals itself here. -/
def sameNumber : Int ⊕ Float → Int ⊕ Float → Bool
  | .inl a, .inl b => a == b
  | .inl a, .inr y => ShortestDecimal.exactInt? y == some a
  | .inr x, .inl b => ShortestDecimal.exactInt? x == some b
  | .inr x, .inr y => x == y || (x.isNaN && y.isNaN)

/-- Whether two values are the same key of a mapping. Numbers are compared by value. Lists,
sets and mappings are no keys. -/
def sameKey (a b : ConfigValue) : Bool :=
  match a, b with
  | null, null => true
  | text s, text t => s == t
  | date d, date e => d == e
  | moment m, moment n => m.same n
  | bytes s, bytes t => s == t
  | pair a b, pair c d => sameKey a c && sameKey b d
  | _, _ =>
    match a.number?, b.number? with
    | some x, some y => sameNumber x y
    | _, _ => false

def isKey : ConfigValue → Bool
  | list _ => false
  | set _ => false
  | map _ => false
  | ring _ _ => false
  | pair a b => isKey a && isKey b
  | _ => true

def lookup? (key : Text) (entries : List (ConfigValue × ConfigValue)) : Option ConfigValue :=
  (entries.find? fun entry => entry.1.sameKey (text key)).map Prod.snd

/-- Give a key a value. A key that is present keeps its place and its spelling. -/
def insert {α : Type} (key : ConfigValue) (value : α) :
    List (ConfigValue × α) → List (ConfigValue × α)
  | [] => [(key, value)]
  | (k, v) :: rest =>
    if k.sameKey key then (k, value) :: rest else (k, v) :: insert key value rest

/-- The entries with each key once: the last value counts, in the place of the first. -/
def distinctEntries {α : Type} (entries : List (ConfigValue × α)) : List (ConfigValue × α) :=
  entries.foldl (fun l (k, v) => insert k v l) []

end ConfigValue

end LintDirectives
