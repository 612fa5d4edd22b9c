import LintDirectives.FileTree
import LintDirectives.Settings
import LintDirectives.YamlValue

/-!
# Configuration files

The configuration of a run is the nearest configuration file at or above the working directory.
The search ends at the first directory that holds a repository.
-/

namespace LintDirectives.ConfigFile

def firstName : Text := ".scalpel.yaml"

/-- The names of configuration files; the first one goes before the second. -/
def names : List Text := [firstName, ".scalpel.yml"]

def repositoryName : Text := ".git"

def inDirectory? (tree : FileTree) (directory : Place) : Option Place :=
  (names.map fun name => directory ++ [name]).find? fun place => (tree.node? place).isSome

/-- How the search ends in a directory, if it does: with its configuration file, or with none at
the top of a repository. -/
def endsIn? (tree : FileTree) (directory : Place) : Option (Option Place) :=
  match inDirectory? tree directory with
  | some place => some (some place)
  | none => if (tree.node? (directory ++ [repositoryName])).isSome then some none else none

/-- Search a directory and those above it, given by its names from the last to the first. -/
def searchUp? (tree : FileTree) : List Text → Option Place
  | [] => (endsIn? tree []).getD none
  | name :: parent =>
    match endsIn? tree (name :: parent).reverse with
    | some found => found
    | none => searchUp? tree parent

def find? (tree : FileTree) (directory : Place) : Option Place :=
  searchUp? tree directory.reverse

/-- Find the configuration file for a directory given by a path; the empty path is the working
directory. The directory need not exist, but the names in it have to be names that can. -/
def findFrom (tree : FileTree) (working : Place) (start : Text) :
    Except PathError (Option Place) :=
  let directory := FileTree.resolve working (FilePath.ofText start)
  if start.contains '\x00' then .error .zeroCharacter
  else
    match tree.locate [] ⟨.single, directory ++ [firstName]⟩ with
    | .error .tooLong => .error .tooLong
    | _ => .ok (find? tree directory)

def settings (content : Bytes) : Except SettingsError Settings :=
  match Text.ofUtf8? content with
  | none => .error .undecodable
  | some text =>
    match Yaml.load text with
    | .error .document => .error .yaml
    | .error (.scalar e) => .error (.scalar e)
    | .ok value =>
      match value.unwrapped with
      | .null => .ok {}
      | .map entries =>
        (Settings.ofEntries entries).mapError (SettingsError.orUnshowable ConfigValue.shownLevels)
      | _ => .error .topLevel

/-- Read settings from what stands at the end of a path. -/
def settingsOf (found : Except PathError FileNode) : Except SettingsError Settings :=
  match found with
  | .ok (.file content) => settings content
  | .ok .device => settings []
  | .error .zeroCharacter => .error .zeroCharacter
  | _ => .error .unreadable

/-- Load the settings of a file, or of the nearest configuration file. Without one the default
settings hold. -/
def load (tree : FileTree) (working : Place) (path : Option Text) :
    Except SettingsError Settings :=
  match path with
  | some t => settingsOf (tree.lookWritten working t)
  | none =>
    match find? tree working with
    | some place => settingsOf (tree.nodeAt (.ok place))
    | none => .ok {}

end LintDirectives.ConfigFile
