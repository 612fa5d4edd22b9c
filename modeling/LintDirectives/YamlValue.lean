import LintDirectives.YamlShape

/-!
# Values of YAML documents

The value of a document is put together from what its nodes are read as, in the order in which
the nodes end, so that all inner values are there. Only a node that is inside itself, or holds
such a node, has no value by then; of such nodes a few repetitions are laid out.
-/

namespace LintDirectives.Yaml

namespace Shape

/-- The value of a shape, given the values of the inner nodes, unless one of them is missing. -/
def value? (inner : Nat → Option ConfigValue) : Shape → Option ConfigValue
  | .plain v => some v
  | .list items => (items.mapM inner).map .list
  | .pairs entries =>
    (entries.mapM fun (k, v) => do return ConfigValue.pair (← inner k) (← inner v)).map .list
  | .set elements => some (.set elements)
  | .map entries =>
    let valued (entry : ConfigValue × Nat) : Option (ConfigValue × ConfigValue) :=
      (inner entry.2).map fun v => (entry.1, v)
    (entries.mapM valued).map .map

end Shape

abbrev Shapes := Array (Option Shape)

namespace Shapes

/-- What a node is read as, if it has been read. -/
def get? (shapes : Shapes) (i : Nat) : Option Shape :=
  shapes[i]?.join

def inner (shapes : Shapes) (i : Nat) : List Nat :=
  ((shapes.get? i).map Shape.inner).getD []

/-- The values of the nodes that do not lead into themselves, given the order in which the
nodes end. -/
def values (shapes : Shapes) (ended : List Nat) : Array (Option ConfigValue) :=
  ended.foldl
    (fun values i =>
      values.setIfInBounds i ((shapes.get? i).bind (Shape.value? fun k => values[k]?.join)))
    (Array.replicate shapes.size none)

/-- The nodes that can be reached from some nodes, besides those that have been reached. The
first argument bounds the number of steps. -/
def reached (shapes : Shapes) : Nat → List Nat → List Nat → List Nat
  | 0, _, seen => seen
  | _, [], seen => seen
  | n + 1, i :: rest, seen =>
    if seen.contains i then reached shapes n rest seen
    else reached shapes n (shapes.inner i ++ rest) (i :: seen)

def isRing (shapes : Shapes) (i : Nat) : Bool :=
  let steps := (List.range shapes.size).foldl (fun n k => n + (shapes.inner k).length + 1) 0
  (reached shapes steps (shapes.inner i) []).contains i

/-- A node as it is shown inside another one. An open collection is shown by dots. The first
argument bounds the number of open collections. -/
def shown (shapes : Shapes) : Nat → List Nat → Nat → Text
  | 0, _, _ => []
  | n + 1, opened, i =>
    let inner := shown shapes n (i :: opened)
    let content (parts : List Text) : Text :=
      if opened.contains i then "..." else Text.join ", " parts
    match shapes.get? i with
    | none => []
    | some (.plain v) => v.quoted
    | some (.set elements) => (ConfigValue.set elements).quoted
    | some (.list items) => "[" ++ content (items.map inner) ++ "]"
    | some (.pairs entries) =>
      "[" ++ content (entries.map fun (k, v) => "(" ++ inner k ++ ", " ++ inner v ++ ")") ++ "]"
    | some (.map entries) =>
      "\x7b" ++ content (entries.map fun (k, v) => k.quoted ++ ": " ++ inner v) ++ "\x7d"

/-- Lay out a node, given the values of the nodes that do not lead into themselves. The
numbers bound the depth, and how often nodes that are inside themselves are entered. -/
def layOut (shapes : Shapes) (known : Array (Option ConfigValue)) :
    Nat → Nat → Nat → ConfigValue
  | 0, _, _ => .null
  | depth + 1, rings, i =>
    match known[i]?.join, shapes.get? i with
    | some v, _ => v
    | none, none => .null
    | none, some shape =>
      let layOutInner (rings : Nat) : ConfigValue :=
        (shape.value? fun k => some (layOut shapes known depth rings k)).getD .null
      if shapes.isRing i then
        let text := shapes.shown (shapes.size + 1) [] i
        match rings with
        | 0 => .ring text .null
        | rings + 1 => .ring text (layOutInner rings)
      else layOutInner rings

/-- How often nodes that are inside themselves are entered: no setting is nested deeper. -/
def repetitions : Nat := 5

end Shapes

def Document.value (d : Document) : Except LoadError ConfigValue := do
  let shapes ← d.shapes
  let known := Shapes.values shapes d.ended
  return Shapes.layOut shapes known (7 * (d.nodes.size + 1)) Shapes.repetitions d.root

/-- The value of a text, which is the empty value if it holds no document. -/
def load (t : Text) : Except LoadError ConfigValue := do
  match tokens? t with
  | none => throw .document
  | some tokens =>
    match ← Document.ofTokens tokens with
    | none => return .null
    | some document => document.value

end LintDirectives.Yaml
