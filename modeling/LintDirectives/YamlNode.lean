import LintDirectives.YamlScalar
import LintDirectives.YamlToken

/-!
# Nodes of YAML documents

The nodes of a YAML document: scalars, sequences and mappings, before they are read as values.
Nodes are known by their numbers, in the order in which they start, and an alias stands for the
number of the node that has its anchor. That node may still be open, so that a node can be
inside itself. A stream holds at most one document.

Every call of a reader passes a token or is followed by one that does, so a bound on the depth of
calls that is a multiple of the number of tokens is never met.
-/

namespace LintDirectives.Yaml

/-- What a node holds. Nodes inside it are given by their numbers. -/
inductive Content where
  | scalar (text : Text)
  | sequence (items : List Nat)
  | mapping (entries : List (Nat × Nat))

structure Node where
  tag : Tag
  content : Content

structure Document where
  nodes : Array Node
  root : Nat
  /-- The numbers of the nodes in the order in which they end. -/
  ended : List Nat

/-- The tokens that are left, the nodes read so far, and what is known by name. -/
structure ReadState where
  tokens : List Token
  nodes : Array Node := #[]
  /-- The numbers of the nodes that have ended, the last one first. -/
  ended : List Nat := []
  /-- How many collections are open. -/
  depth : Nat := 0
  anchors : KeyedList Text Nat := []
  handles : KeyedList Text Text := [(['!'], ['!']), (['!', '!'], standardSpace)]

abbrev Reader := StateT ReadState (Except LoadError)

namespace Reader

def refuse {α : Type} : Reader α :=
  throw .document

def peek : Reader (Option Token) := do
  match (← get).tokens.head? with
  | some (.unreadable e) => throw (.scalar e)
  | token => return token

def pass : Reader Unit :=
  modify fun s => { s with tokens := s.tokens.drop 1 }

/-- Pass the next token if it is the given one. -/
def accept (token : Token) : Reader Bool := do
  if (← peek) == some token then
    pass
    return true
  else return false

/-- Pass the given token or fail. -/
def expect (token : Token) : Reader Unit := do
  unless ← accept token do
    refuse

/-- Whether the next token is one of the given ones. -/
def sees (tokens : List Token) : Reader Bool := do
  match ← peek with
  | some token => return tokens.contains token
  | none => return false

def anchor? : Reader (Option Text) := do
  match ← peek with
  | some (.anchor name) =>
    pass
    return some name
  | _ => return none

def tag? : Reader (Option Text) := do
  match ← peek with
  | some (.tag none rest) =>
    pass
    return some rest
  | some (.tag (some handle) rest) =>
    pass
    match KeyedList.get? handle (← get).handles with
    | some stands => return some (stands ++ rest)
    | none => refuse
  | _ => return none

/-- Read an anchor and a tag in any order. -/
def properties : Reader (Option Text × Option Text) := do
  match ← anchor? with
  | some name => return (some name, ← tag?)
  | none =>
    let tag ← tag?
    return (← anchor?, tag)

/-- Start a node, whose anchor must be a new one, and give its number. -/
def start (anchor : Option Text) : Reader Nat := do
  let s ← get
  let number := s.nodes.size
  let nodes := s.nodes.push { tag := .null, content := .scalar [] }
  match anchor with
  | none => set { s with nodes }
  | some name =>
    if (KeyedList.get? name s.anchors).isSome then refuse
    else set { s with nodes, anchors := KeyedList.put name number s.anchors }
  return number

def finish (number : Nat) (tag : Tag) (content : Content) : Reader Nat := do
  modify fun s =>
    { s with nodes := s.nodes.setIfInBounds number { tag, content }, ended := number :: s.ended }
  return number

def aliased (name : Text) : Reader Nat := do
  match KeyedList.get? name (← get).anchors with
  | some number => return number
  | none => refuse

/-- What a scalar is read as. The tag `!` leaves it to its looks, as if it were plain. -/
def scalarTag (tag : Option Text) (plain : Bool) (text : Text) : Tag :=
  match tag with
  | none => if plain then impliedTag text else .text
  | some ['!'] => impliedTag text
  | some t => Tag.ofName t

def collectionTag (tag : Option Text) (otherwise : Tag) : Tag :=
  match tag with
  | none => otherwise
  | some ['!'] => otherwise
  | some t => Tag.ofName t

def scalar (anchor tag : Option Text) (plain : Bool) (text : Text) : Reader Nat := do
  finish (← start anchor) (scalarTag tag plain text) (.scalar text)

def emptyNode : Reader Nat :=
  scalar none none true []

/-- How many collections may be open at a time. -/
def maxDepth : Nat := 488

def inside {α : Type} (read : Reader α) : Reader α := do
  if maxDepth ≤ (← get).depth then throw (.scalar .depth)
  modify fun s => { s with depth := s.depth + 1 }
  let a ← read
  modify fun s => { s with depth := s.depth - 1 }
  return a

/-- Read a sequence, given how its items are read. -/
def sequence (anchor tag : Option Text) (items : Reader (List Nat)) : Reader Nat := do
  let number ← start anchor
  finish number (collectionTag tag .list) (.sequence (← inside items))

/-- Read a mapping, given how its entries are read. -/
def mapping (anchor tag : Option Text) (entries : Reader (List (Nat × Nat))) : Reader Nat := do
  let number ← start anchor
  finish number (collectionTag tag .map) (.mapping (← inside entries))

def bareNode (anchor tag : Option Text) : Reader Nat :=
  if anchor.isNone && tag.isNone then refuse else scalar anchor tag true []

mutual

/-- Read a node. Block collections may be excluded, and a sequence without indentation
admitted. -/
def node (block indentless : Bool) : Nat → Reader Nat
  | 0 => refuse
  | n + 1 => do
    match ← peek with
    | some (.alias name) =>
      pass
      aliased name
    | _ =>
      let (anchor, tag) ← properties
      match ← peek with
      | some (.scalar text plain) =>
        pass
        scalar anchor tag plain text
      | some .flowSequenceStart =>
        pass
        sequence anchor tag (flowItems true n)
      | some .flowMappingStart =>
        pass
        mapping anchor tag (flowEntries true n)
      | some .blockSequenceStart =>
        if block then
          pass
          sequence anchor tag (blockItems n)
        else bareNode anchor tag
      | some .blockMappingStart =>
        if block then
          pass
          mapping anchor tag (blockEntries n)
        else bareNode anchor tag
      | some .blockEntry =>
        if indentless then sequence anchor tag (indentlessItems n) else bareNode anchor tag
      | _ => bareNode anchor tag

/-- Read a node, or nothing before one of the given tokens. -/
def nodeUnless (stops : List Token) (block indentless : Bool) : Nat → Reader Nat
  | 0 => refuse
  | n + 1 => do
    if ← sees stops then emptyNode else node block indentless n

def blockItems : Nat → Reader (List Nat)
  | 0 => refuse
  | n + 1 => do
    if ← accept .blockEntry then
      let item ← nodeUnless [.blockEntry, .blockEnd] true false n
      return item :: (← blockItems n)
    else
      expect .blockEnd
      return []

def indentlessItems : Nat → Reader (List Nat)
  | 0 => refuse
  | n + 1 => do
    if ← accept .blockEntry then
      let item ← nodeUnless [.blockEntry, .key, .value, .blockEnd] true false n
      return item :: (← indentlessItems n)
    else return []

def blockEntries : Nat → Reader (List (Nat × Nat))
  | 0 => refuse
  | n + 1 => do
    if ← accept .key then
      let key ← nodeUnless [.key, .value, .blockEnd] true true n
      let value ←
        if ← accept .value then nodeUnless [.key, .value, .blockEnd] true true n
        else emptyNode
      return (key, value) :: (← blockEntries n)
    else
      expect .blockEnd
      return []

/-- Read the items of a flow sequence. An item may be a mapping of one entry. -/
def flowItems (first : Bool) : Nat → Reader (List Nat)
  | 0 => refuse
  | n + 1 => do
    if ← accept .flowSequenceEnd then return []
    else
      unless first do
        expect .flowEntry
      if ← accept .key then
        let number ← start none
        let (key, value) ← inside do
          let key ← nodeUnless [.value, .flowEntry, .flowSequenceEnd] false false n
          let value ←
            if ← accept .value then nodeUnless [.flowEntry, .flowSequenceEnd] false false n
            else emptyNode
          return (key, value)
        let item ← finish number .map (.mapping [(key, value)])
        return item :: (← flowItems false n)
      else if ← accept .flowSequenceEnd then return []
      else
        let item ← node false false n
        return item :: (← flowItems false n)

def flowEntries (first : Bool) : Nat → Reader (List (Nat × Nat))
  | 0 => refuse
  | n + 1 => do
    if ← accept .flowMappingEnd then return []
    else
      unless first do
        expect .flowEntry
      if ← accept .key then
        let key ← nodeUnless [.value, .flowEntry, .flowMappingEnd] false false n
        let value ←
          if ← accept .value then nodeUnless [.flowEntry, .flowMappingEnd] false false n
          else emptyNode
        return (key, value) :: (← flowEntries false n)
      else if ← accept .flowMappingEnd then return []
      else
        let key ← node false false n
        return (key, ← emptyNode) :: (← flowEntries false n)

end

/-- Read the directives of a document: at most one version, which must be a version 1, and each
handle at most once. -/
def directives (version : Bool) (handles : List Text) : Nat → Reader Unit
  | 0 => refuse
  | n + 1 => do
    match ← peek with
    | some (.versionDirective major) =>
      if version || major != 1 then refuse
      else
        pass
        directives true handles n
    | some (.tagDirective handle stands) =>
      if handles.contains handle then refuse
      else
        pass
        modify fun s => { s with handles := KeyedList.put handle stands s.handles }
        directives version (handle :: handles) n
    | some .otherDirective =>
      pass
      directives version handles n
    | _ => return ()

/-- Whether the next token cannot start the content of a document. -/
def atContentEnd : Reader Bool := do
  match ← peek with
  | none => return true
  | some (.versionDirective _) => return true
  | some (.tagDirective _ _) => return true
  | some .otherDirective => return true
  | some .documentStart => return true
  | some .documentEnd => return true
  | some _ => return false

def startsBare : Reader Bool := do
  if ← atContentEnd then return (← peek) == some .documentEnd
  else return true

def document (bound : Nat) : Reader Nat := do
  if ← startsBare then node true false bound
  else
    directives false [] bound
    expect .documentStart
    if ← atContentEnd then emptyNode else node true false bound

end Reader

/-- The document of a stream of tokens, or nothing for an empty stream. Only marks of the end
of the document may follow it. -/
def Document.ofTokens (tokens : List Token) : Except LoadError (Option Document) :=
  if tokens.isEmpty then .ok none
  else
    match (Reader.document (8 * tokens.length + 16)).run { tokens } with
    | .ok (root, s) =>
      match s.tokens.find? (· != .documentEnd) with
      | none => .ok (some { nodes := s.nodes, root, ended := s.ended.reverse })
      | some (.unreadable e) => .error (.scalar e)
      | some _ => .error .document
    | .error e => .error e

end LintDirectives.Yaml
