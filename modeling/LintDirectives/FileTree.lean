import LintDirectives.ByteText
import LintDirectives.KeyedList
import LintDirectives.QuotedText

/-!
# File trees

A file tree maps places to files and directories. A place is the list of names from the root.
A path is a text that leads to a place from a working directory: two dots go up from a
directory, and every name but the last has to lead to a directory.
-/

namespace LintDirectives

abbrev Place := List Text

/-- What stands at a place. A device can be read as empty and swallows what is written. -/
inductive FileNode where
  | directory
  | file (content : Bytes)
  | device
deriving DecidableEq

abbrev FileTree := KeyedList Place FileNode

/-- What a path starts from: the working directory, or the root, with one slash or with two. The
two lead to the same place, but they are written as they are. -/
inductive PathRoot where
  | working
  | single
  | double
deriving DecidableEq

/-- A path in its plain form: without empty names and single dots. -/
structure FilePath where
  root : PathRoot
  parts : List Text
deriving DecidableEq

/-- Why a path leads nowhere, or why no file can be written at its end. -/
inductive PathError where
  | missing
  | notADirectory
  | isADirectory
  /-- A name or the whole path is longer than a path may be. -/
  | tooLong
  /-- The path holds the zero character, which ends a name. -/
  | zeroCharacter
deriving DecidableEq

namespace PathError

/-- The message about a path that cannot be handed over at all. -/
def message? : PathError → Option Text
  | zeroCharacter => some "embedded null byte"
  | _ => none

def systemMessage (path : Text) : PathError → Text
  | missing => "[Errno 2] No such file or directory: " ++ path.quoted
  | notADirectory => "[Errno 20] Not a directory: " ++ path.quoted
  | isADirectory => "[Errno 21] Is a directory: " ++ path.quoted
  | tooLong => "[Errno 36] File name too long: " ++ path.quoted
  | zeroCharacter => "embedded null byte"

end PathError

namespace PathRoot

def text : PathRoot → Text
  | working => []
  | single => ['/']
  | double => ['/', '/']

/-- Two slashes count as such, and more of them like one. -/
def ofText : Text → PathRoot
  | '/' :: '/' :: '/' :: _ => single
  | '/' :: '/' :: _ => double
  | '/' :: _ => single
  | _ => working

end PathRoot

namespace FilePath

def ofText (t : Text) : FilePath where
  root := PathRoot.ofText t
  parts := (t.splitOn '/').filter fun part => part != [] && part != ['.']

def text (p : FilePath) : Text :=
  if p.root = .working && p.parts.isEmpty then ['.']
  else p.root.text ++ Text.join ['/'] p.parts

def below (p : FilePath) (parts : List Text) : FilePath :=
  { p with parts := p.parts ++ parts }

end FilePath

namespace FileTree

def node? (tree : FileTree) (place : Place) : Option FileNode :=
  if place.isEmpty then some .directory else KeyedList.get? place tree

def nameLimit : Nat := 255

def pathLimit : Nat := 4095

/-- Go from a place along names; an error is the first thing in the way. A single dot stays, and
needs a directory too. -/
def walk (tree : FileTree) : Place → List Text → Except PathError Place
  | place, [] => .ok place
  | place, part :: rest =>
    match tree.node? place with
    | some .directory =>
      if part == ['.'] then walk tree place rest
      else if part == ['.', '.'] then walk tree place.dropLast rest
      else if nameLimit < (Text.utf8 part).length then .error .tooLong
      else walk tree (place ++ [part]) rest
    | some _ => .error .notADirectory
    | none => .error .missing

/-- Go along the names of a path that is written as a text. What is wrong with the text itself
goes before what the tree holds. -/
def follow (tree : FileTree) (start : Place) (written : Text) (parts : List Text) :
    Except PathError Place :=
  if written.contains '\x00' then .error .zeroCharacter
  else if pathLimit < (Text.utf8 written).length then .error .tooLong
  else tree.walk (if written.head? == some '/' then [] else start) parts

/-- What stands at a place that a path leads to. -/
def nodeAt (tree : FileTree) (place : Except PathError Place) : Except PathError FileNode :=
  match place with
  | .error e => .error e
  | .ok place =>
    match tree.node? place with
    | some node => .ok node
    | none => .error .missing

def locate (tree : FileTree) (start : Place) (p : FilePath) : Except PathError Place :=
  tree.follow start p.text p.parts

def look (tree : FileTree) (start : Place) (p : FilePath) : Except PathError FileNode :=
  tree.nodeAt (tree.locate start p)

/-- The names of a path as it is written. A slash at its end asks for a directory. -/
def writtenParts (t : Text) : List Text :=
  let parts := t.splitOn '/'
  let last := match parts.getLast? with
    | some [] => [['.']]
    | _ => []
  (parts.filter fun part => part != []) ++ last

/-- What stands at a path as it is written; the empty path leads nowhere. -/
def lookWritten (tree : FileTree) (start : Place) (t : Text) : Except PathError FileNode :=
  if t.isEmpty then .error .missing else tree.nodeAt (tree.follow start t (writtenParts t))

def partsLe : List Text → List Text → Bool
  | [], _ => true
  | _ :: _, [] => false
  | a :: as, b :: bs => if a == b then partsLe as bs else Text.le a b

/-- What lies below a directory, by the names that lead to it, in order. -/
def namesBelow (tree : FileTree) (place : Place) : List (List Text) :=
  (tree.filterMap fun (q, _) =>
    match place.isPrefixOf? q with
    | some (name :: rest) => some (name :: rest)
    | _ => none).mergeSort partsLe

def isFile (tree : FileTree) (start : Place) (p : FilePath) : Bool :=
  match tree.look start p with
  | .ok (.file _) => true
  | _ => false

def write (tree : FileTree) (start : Place) (p : FilePath) (content : Bytes) :
    Except PathError FileTree :=
  match tree.locate start p with
  | .error e => .error e
  | .ok place =>
    match tree.node? place with
    | some .directory => .error .isADirectory
    | some .device => .ok tree
    | _ => .ok (KeyedList.put place (.file content) tree)

/-- Go from a place along names whether or not they exist. -/
def resolve (start : Place) (p : FilePath) : Place :=
  p.parts.foldl (fun place part => if part == ['.', '.'] then place.dropLast else place ++ [part])
    (if p.root = .working then start else [])

end FileTree

end LintDirectives
