import LintDirectives.CommandLine

/-!
# The program

Takes the part of the file system that a command can reach into a file tree, runs the command
on it and writes the files that changed. All decisions are made by the command on the tree.
-/

namespace LintDirectives.Program

def systemPath (place : Place) : String :=
  String.ofList (FilePath.text ⟨.single, place⟩)

def fault? (action : IO Unit) : IO (Option Text) := do
  try
    action
    return none
  catch e => return some e.toString.toList

/-- The content of a file. One that cannot be read counts as empty here; the faults tell of it. -/
def content (place : Place) : IO Bytes := do
  try return (← IO.FS.readBinFile (systemPath place)).toList
  catch _ => return []

/-- What stands at a place in the file system. -/
def look (place : Place) : IO (Option FileNode) := do
  try
    let found ← IO.FS.realPath (systemPath place)
    match (← found.metadata).type with
    | .dir => return some .directory
    | .file => return some (.file (← content place))
    | _ => return some .device
  catch _ => return none

/-- Everything below a directory, apart from what is in skipped directories. -/
partial def scanBelow (place : Place) : IO FileTree := do
  let found ← IO.FS.realPath (systemPath place)
  let mut tree := []
  for entry in ← found.readDir do
    let inner := place ++ [entry.fileName.toList]
    match ← look inner with
    | some .directory =>
      let rest ← if skippedDirectories.contains entry.fileName.toList then pure []
        else scanBelow inner
      tree := tree ++ (inner, .directory) :: rest
    | some node => tree := tree ++ [(inner, node)]
    | none => pure ()
  return tree

/-- A list of names cut after each name, from the empty list on. -/
def beginnings (parts : List Text) : List (List Text) :=
  (List.range (parts.length + 1)).map parts.take

def placesAlong (working : Place) (p : FilePath) : List Place :=
  (beginnings p.parts).map fun parts => FileTree.resolve working { p with parts }

/-- The paths that an argument may stand for: itself, or the value of a long or a short
option. -/
def mentionedPaths (argument : Text) : List FilePath :=
  [argument, (argument.dropWhile (· != '=')).drop 1, argument.drop 2].map FilePath.ofText

/-- The places outside the targets that a command may look at: the working directory and those
above it with their configuration files, and the places along the paths in the arguments. -/
def mentionedPlaces (working : Place) (arguments : List Text) : List Place :=
  let above := beginnings working
  let names := ConfigFile.repositoryName :: ConfigFile.names
  above ++ above.flatMap (fun place => names.map fun name => place ++ [name]) ++
    (arguments.flatMap mentionedPaths).flatMap (placesAlong working)

/-- The tree of the given places, in addition to what is known. -/
def addPlaces (places : List Place) (tree : FileTree) : IO FileTree :=
  places.foldlM (fun tree place => do
    if (FileTree.node? tree place).isSome then return tree
    match ← look place with
    | some node => return tree ++ [(place, node)]
    | none => return tree) tree

def searchedPlaces (tree : FileTree) (working : Place) (arguments : List Text) : List Place :=
  let targets := match Command.parse tree working arguments with
    | .ok (.check o) => CommandLine.targets o
    | .ok (.fix o) => CommandLine.targets o
    | _ => []
  let places := targets.filterMap fun t => (tree.locate working (FilePath.ofText t)).toOption
  places.filter fun place => tree.node? place == some .directory

def reaches (outer inner : Place) : Bool :=
  match outer.isPrefixOf? inner with
  | some parts => !parts.any skippedDirectories.contains
  | none => false

/-- The directories to search so that each file is found once. -/
def outermost (places : List Place) : List Place :=
  places.eraseDups.filter fun place =>
    !places.any fun other => other != place && reaches other place

/-- Which supported files of a tree cannot be opened, to be read or at their ends. -/
def faults (tree : FileTree) : IO FileSystem := do
  let mut reading : KeyedList Place Text := []
  let mut writing : KeyedList Place Text := []
  for (place, node) in tree do
    if (Language.ofPath? (systemPath place).toList).isSome && node != .directory then
      if let some message ← fault? (discard (IO.FS.Handle.mk (systemPath place) .read)) then
        reading := reading ++ [(place, message)]
      if let some message ← fault? (discard (IO.FS.Handle.mk (systemPath place) .append)) then
        writing := writing ++ [(place, message)]
  return { readFault? := fun place => KeyedList.get? place reading
           writeFault? := fun place _ => (KeyedList.get? place writing).map fun message => { message } }

/-- The part of the file system that a command can reach. -/
def workspace (arguments : List Text) : IO Workspace := do
  let working := (FilePath.ofText (← IO.currentDir).toString.toList).parts
  let mentioned := mentionedPlaces working arguments
  let near ← addPlaces mentioned []
  let found ← (outermost (searchedPlaces near working arguments)).mapM scanBelow
  let tree ← addPlaces mentioned found.flatten
  return { tree, directory := working, system := ← faults tree }

def writeChanges (before after : FileTree) : IO Unit := do
  for (place, node) in after do
    if let .file content := node then
      unless KeyedList.get? place before == some node do
        IO.FS.writeBinFile (systemPath place) ⟨content.toArray⟩

end LintDirectives.Program

open LintDirectives in
def main (arguments : List String) : IO UInt32 := do
  let arguments := arguments.map String.toList
  let w ← Program.workspace arguments
  let outcome := CommandLine.run w arguments
  Program.writeChanges w.tree outcome.tree
  (← IO.getStdout).putStr (String.ofList outcome.stdout)
  (← IO.getStderr).putStr (String.ofList outcome.stderr)
  if outcome.failure.isSome then
    (← IO.getStderr).putStrLn "The command failed."
  return UInt32.ofNat outcome.exitCode
