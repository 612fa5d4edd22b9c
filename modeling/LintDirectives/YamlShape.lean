import LintDirectives.YamlNode

/-!
# Reading the nodes of YAML documents

What the nodes of a document are read as, one by one, with inner nodes given by their numbers.
In a mapping the last value of a key counts, and the key `<<` merges the entries of other
mappings in front of the own ones. The collections of a document are read level by level: what
is inside a collection is read after all collections that were met before it. So the first
thing that cannot be read is the one that is met first in this order.
-/

namespace LintDirectives.Yaml

/-- What a node has been read as. Inner nodes are given by their numbers. -/
inductive Shape where
  | plain (v : ConfigValue)
  | list (items : List Nat)
  | pairs (entries : List (Nat × Nat))
  | set (elements : List ConfigValue)
  | map (entries : List (ConfigValue × Nat))

namespace Shape

def inner : Shape → List Nat
  | plain _ => []
  | list items => items
  | pairs entries => entries.flatMap fun (k, v) => [k, v]
  | set _ => []
  | map entries => entries.map Prod.snd

end Shape

/-- The nodes of a document while they are being read. -/
structure Assembly where
  nodes : Array Node
  /-- What the nodes have been read as so far; a collection has no content at first. -/
  shapes : Array (Option Shape)
  /-- The collections whose content is still to be read, the first one first. -/
  waiting : List Nat := []

def Assembly.hasTag (a : Assembly) (tag : Tag) (i : Nat) : Bool :=
  a.nodes[i]?.any fun node => node.tag == tag

/-- A step in reading the nodes of a document. -/
abbrev Assembler := StateT Assembly (Except LoadError)

namespace Assembler

def refuse {α : Type} : Assembler α :=
  throw .document

def node (i : Nat) : Assembler Node := do
  match (← get).nodes[i]? with
  | some node => return node
  | none => refuse

/-- Put another node under a number. -/
def replace (i : Nat) (node : Node) : Assembler Unit :=
  modify fun a => { a with nodes := a.nodes.setIfInBounds i node }

def note (i : Nat) (shape : Shape) : Assembler Unit :=
  modify fun a => { a with shapes := a.shapes.setIfInBounds i (some shape) }

def entries (i : Nat) : Assembler (List (Nat × Nat)) := do
  match (← node i).content with
  | .mapping entries => return entries
  | _ => refuse

/-- The text of a scalar. A mapping stands for the scalar under its key for the value. The first
argument bounds the number of such mappings inside each other. -/
def scalarText : Nat → Nat → Assembler Text
  | 0, _ => throw (.scalar .depth)
  | n + 1, i => do
    match (← node i).content with
    | .scalar text => return text
    | .sequence _ => refuse
    | .mapping entries =>
      let state ← get
      match entries.find? fun (k, _) => state.hasTag .default k with
      | some (_, v) => scalarText n v
      | none => refuse

def readScalar (i : Nat) (tag : Tag) : Assembler Unit := do
  let text ← scalarText ((← get).nodes.size + 1) i
  match tag, (← node i).content with
  | .timestamp, .mapping _ => throw (.scalar .timestampMapping)
  | _, _ =>
    match Scalar.read tag text with
    | .ok v => note i (.plain v)
    | .error e => throw e

/-- Meet a collection: its content is read later. -/
def await (i : Nat) (shape : Shape) : Assembler Unit := do
  note i shape
  modify fun a => { a with waiting := a.waiting ++ [i] }

/-- Meet a node: a scalar is read at once, and a node that has been met is left alone. -/
def meet (i : Nat) : Assembler Unit := do
  if ((← get).shapes[i]?.join).isSome then return ()
  let tag := (← node i).tag
  match tag with
  | .list => await i (.list [])
  | .pairs => await i (.pairs [])
  | .set => await i (.set [])
  | .map => await i (.map [])
  | .merge => refuse
  | .default => refuse
  | .unknown => refuse
  | _ => readScalar i tag

/-- Let a key for the value of a mapping be a text. -/
def nameKey (i : Nat) : Assembler Unit := do
  let key ← node i
  if key.tag == .default then replace i { key with tag := .text }

def mergedMappings (i : Nat) : Assembler (List Nat) := do
  match (← node i).content with
  | .mapping _ => return [i]
  | .sequence items => return items
  | .scalar _ => refuse

/-- Merge the mappings that a mapping asks for, from one of its entries on, and put their
entries, with those merged before, in front. Of several mappings the last one goes first. Each of
them is merged before, and every request is given up when it is met, so the first argument,
which bounds the number of steps, may be the number of all entries and items of a document. -/
def merge : Nat → Nat → Nat → List (Nat × Nat) → Assembler Unit
  | 0, _, _, _ => throw (.scalar .depth)
  | n + 1, i, start, merged => do
    let tag := (← node i).tag
    let own ← entries i
    let state ← get
    let passed := (own.drop start).takeWhile fun (k, _) => !state.hasTag .merge k
    passed.forM fun (k, _) => nameKey k
    let place := start + passed.length
    match own[place]? with
    | none => replace i { tag, content := .mapping (merged ++ own) }
    | some (_, target) =>
      replace i { tag, content := .mapping (own.eraseIdx place) }
      let mappings ← mergedMappings target
      mappings.forM fun m => do
        let _ ← entries m
        merge n m 0 []
      let given ← mappings.reverse.mapM entries
      merge n i place (merged ++ given.flatten)

/-- The number of all entries and items of a document. -/
def weight (nodes : Array Node) : Nat :=
  nodes.foldl (fun n node => match node.content with
    | .scalar _ => n + 1
    | .sequence items => n + items.length + 1
    | .mapping entries => n + entries.length + 1) 1

def readKey (i : Nat) : Assembler ConfigValue := do
  meet i
  match (← get).shapes[i]?.join with
  | some (.plain v) => if v.isKey then return v else refuse
  | _ => refuse

def readEntries (i : Nat) : Assembler (List (ConfigValue × Nat)) := do
  let _ ← entries i
  merge (weight (← get).nodes) i 0 []
  (← entries i).mapM fun (k, v) => do
    let key ← readKey k
    meet v
    return (key, v)

def readPair (i : Nat) : Assembler (Nat × Nat) := do
  match ← entries i with
  | [(k, v)] =>
    meet k
    meet v
    return (k, v)
  | _ => refuse

def items (i : Nat) : Assembler (List Nat) := do
  match (← node i).content with
  | .sequence items => return items
  | _ => refuse

def readContent (i : Nat) : Assembler Unit := do
  match (← node i).tag with
  | .list =>
    let items ← items i
    items.forM meet
    note i (.list items)
  | .pairs => note i (.pairs (← (← items i).mapM readPair))
  | .set => note i (.set ((ConfigValue.distinctEntries (← readEntries i)).map Prod.fst))
  | _ => note i (.map (ConfigValue.distinctEntries (← readEntries i)))

/-- Read the contents of all collections that are met. The first argument bounds their
number. -/
def readAll : Nat → Assembler Unit
  | 0 => return ()
  | n + 1 => do
    match (← get).waiting with
    | [] => return ()
    | i :: rest =>
      modify fun a => { a with waiting := rest }
      readContent i
      readAll n

def readDocument (d : Document) : Assembler Unit := do
  meet d.root
  readAll d.nodes.size

end Assembler

def Document.shapes (d : Document) : Except LoadError (Array (Option Shape)) :=
  let initial : Assembly := { nodes := d.nodes, shapes := Array.replicate d.nodes.size none }
  ((Assembler.readDocument d).run initial).map fun (_, a) => a.shapes

end LintDirectives.Yaml
