import LintDirectives.FileCheck
import LintDirectives.FileTree

/-!
# Runs over a project

A run goes over the supported files of its targets in order and collects their diagnostics. A
file that cannot be read, checked or written adds an error and does not stop the others; only
failures of checks and of the use of settings stop a run. A fixing run writes each file that
changes as soon as it is fixed.
-/

namespace LintDirectives

/-- How the files of a run are checked: the settings that the run itself uses, and the diagnostics
of a file of a language, by its path and its content. -/
structure FileChecker where
  settings : Settings := {}
  check : Language → Text → Bytes → Except FileError (List Diagnostic)

def FileChecker.fixBytes (c : FileChecker) (language : Language) (path : Text) (source : Bytes) :
    Except FileError Linter.Fixed :=
  Linter.fixPasses (c.check language path) c.settings.passes c.settings.passes.count source 0

def Linter.checker (l : Linter) : FileChecker where
  settings := l.settings
  check := l.checkBytes

/-- How much a run tells about its progress. -/
structure Verbosity where
  verbose : Bool := false
  quiet : Bool := false

/-- A write that fails. What it leaves in the file is nothing new if the file could not be opened, and
else what got through. -/
structure WriteFault where
  message : Text
  left : Option Bytes := none

/-- Which files the system fails to read or to write, and what it says then. -/
structure FileSystem where
  readFault? : Place → Option Text := fun _ => none
  writeFault? : Place → Bytes → Option WriteFault := fun _ _ => none

structure Workspace where
  tree : FileTree
  directory : Place
  system : FileSystem := {}

inductive RunFailure where
  | targetNotFound (target : Text)
  /-- A target, or a path below it, that is longer than a path may be. -/
  | targetTooLong
  | file (e : FileError)

namespace RunFailure

def message? : RunFailure → Option Text
  | targetNotFound target => some ("Target not found: " ++ target)
  | targetTooLong => none
  | file e => e.message?

end RunFailure

def skippedDirectories : List Text :=
  [".git", ".hg", ".svn", ".venv", "venv", "node_modules", "vendor", "__pycache__", "build",
    "dist"]

structure Run where
  tree : FileTree
  log : List Text := []
  result : RunResult
  failure : Option RunFailure := none

structure Collection where
  files : List FilePath := []
  log : List Text := []
  failure : Option RunFailure := none

/-- Whether something below a place has a path that is longer than a path may be, when the place
itself is reached by a path. -/
def FileTree.hasLongPathBelow (tree : FileTree) (place : Place) (path : FilePath) : Bool :=
  tree.any fun (q, _) =>
    match place.isPrefixOf? q with
    | some (name :: rest) => pathLimit < (Text.utf8 (path.below (name :: rest)).text).length
    | _ => false

/-- The files of a target, whether or not they are supported: a file target itself, or the files
below a directory that are in no skipped directory. -/
def targetFiles (w : Workspace) (target : Text) : Except RunFailure (List FilePath) :=
  let path := FilePath.ofText target
  match w.tree.locate w.directory path with
  | .error .tooLong => .error .targetTooLong
  | .error _ => .error (.targetNotFound target)
  | .ok place =>
    match w.tree.node? place with
    | some (.file _) => .ok [path]
    | some .directory =>
      if w.tree.hasLongPathBelow place path then .error .targetTooLong
      else
        let looked := (w.tree.namesBelow place).filter fun parts =>
          !parts.dropLast.any skippedDirectories.contains
        .ok ((looked.map path.below).filter (w.tree.isFile w.directory))
    | _ => .error (.targetNotFound target)

namespace Workspace

/-- Read a file of a tree, or say why the system cannot. -/
def read (w : Workspace) (tree : FileTree) (file : FilePath) : Except Text Bytes :=
  match tree.locate w.directory file with
  | .error e => .error (e.systemMessage file.text)
  | .ok place =>
    match w.system.readFault? place with
    | some message => .error message
    | none =>
      match tree.node? place with
      | some (.file content) => .ok content
      | some .device => .ok []
      | some .directory => .error (PathError.isADirectory.systemMessage file.text)
      | none => .error (PathError.missing.systemMessage file.text)

/-- Write a file of a tree: the tree afterwards, and why the system failed, if it did. -/
def write (w : Workspace) (tree : FileTree) (file : FilePath) (content : Bytes) :
    FileTree × Option Text :=
  match tree.locate w.directory file with
  | .error e => (tree, some (e.systemMessage file.text))
  | .ok place =>
    match w.system.writeFault? place content with
    | some fault =>
      let after := fault.left.bind fun left => (tree.write w.directory file left).toOption
      (after.getD tree, some fault.message)
    | none =>
      match tree.write w.directory file content with
      | .ok after => (after, none)
      | .error e => (tree, some (e.systemMessage file.text))

end Workspace

namespace Verbosity

def line (v : Verbosity) (text : Text) : List Text :=
  if v.quiet then [] else [text]

def detail (v : Verbosity) (text : Text) : List Text :=
  if v.verbose then v.line text else []

end Verbosity

namespace Collection

def addFile (settings : Settings) (v : Verbosity) (c : Collection) (file : FilePath) :
    Collection :=
  if c.failure.isSome || (Language.ofPath? file.text).isNone then c
  else
    match settings.ignoresPath file.text with
    | .ok true => { c with log := c.log ++ v.detail ("  Skipping " ++ file.text ++ " (ignored)") }
    | .ok false => { c with files := c.files ++ [file] }
    | .error e => { c with failure := some (.file (.settings e)) }

def addTarget (settings : Settings) (v : Verbosity) (w : Workspace) (c : Collection)
    (target : Text) : Collection :=
  if c.failure.isSome then c
  else
    match targetFiles w target with
    | .ok files => files.foldl (addFile settings v) c
    | .error e => { c with failure := some e }

def ofTargets (settings : Settings) (v : Verbosity) (w : Workspace) (targets : List Text) :
    Collection :=
  targets.foldl (addTarget settings v w) {}

end Collection

namespace FileError

def isLocal : FileError → Bool
  | unsupported _ => true
  | undecodableComment _ => true
  | conflict _ => true
  | notConverged _ => true
  | undecodableText => false
  | check _ => false
  | settings _ => false

end FileError

namespace Run

def noteTrouble (v : Verbosity) (file : FilePath) (trouble : Text) (r : Run) : Run :=
  let message := file.text ++ ": " ++ trouble
  { r with
    result := { r.result with errors := r.result.errors ++ [message] }
    log := r.log ++ v.detail ("  Error: " ++ message) }

def noteError (v : Verbosity) (file : FilePath) (e : FileError) (r : Run) : Run :=
  if e.isLocal then r.noteTrouble v file (e.message?.getD [])
  else { r with failure := some (.file e) }

def noteFile (applied : Nat) (ds : List Diagnostic) (lines : List Text) (r : Run) : Run :=
  { r with
    result := { r.result with
      filesChecked := r.result.filesChecked + 1
      fixesApplied := r.result.fixesApplied + Int.ofNat applied
      diagnostics := r.result.diagnostics ++ ds }
    log := r.log ++ lines }

/-- Take a step with the content of a supported file, unless the run has stopped. -/
def visit (w : Workspace) (v : Verbosity) (file : FilePath)
    (step : Language → Bytes → Run → Run) (r : Run) : Run :=
  if r.failure.isSome then r
  else
    match Language.ofPath? file.text with
    | none => r
    | some language =>
      match w.read r.tree file with
      | .ok source => step language source r
      | .error message => r.noteTrouble v file message

def checkFile (c : FileChecker) (v : Verbosity) (w : Workspace) (r : Run) (file : FilePath) :
    Run :=
  r.visit w v file fun language source r =>
    match c.check language file.text source with
    | .ok ds =>
      r.noteFile 0 ds (if ds.isEmpty then []
        else v.detail ("  " ++ file.text ++ ": " ++ Text.ofNat ds.length ++ " diagnostic(s)"))
    | .error e => r.noteError v file e

def fixFile (c : FileChecker) (v : Verbosity) (w : Workspace) (r : Run) (file : FilePath) :
    Run :=
  r.visit w v file fun language source r =>
    match c.fixBytes language file.text source with
    | .ok fixed =>
      let (tree, trouble?) := if fixed.source = source then (r.tree, none)
        else w.write r.tree file fixed.source
      match trouble? with
      | some message => { r with tree }.noteTrouble v file message
      | none =>
        { r with tree }.noteFile fixed.applied fixed.remaining (if fixed.applied = 0 then []
          else v.line ("Fixed " ++ Text.ofNat fixed.applied ++ " issue(s) in " ++ file.text))
    | .error e => r.noteError v file e

/-- A run that has not looked at any file yet. -/
def start (w : Workspace) (targets : List Text) (c : Collection) : Run :=
  { tree := w.tree
    log := c.log
    result := { target := Text.join ", " targets }
    failure := c.failure }

end Run

namespace FileChecker

def analyze (c : FileChecker) (v : Verbosity) (w : Workspace) (targets : List Text) : Run :=
  let collected := Collection.ofTargets c.settings v w targets
  let start := Run.start w targets collected
  if start.failure.isSome then start
  else
    let found := v.detail ("Found " ++ Text.ofNat collected.files.length ++ " file(s) to check")
    collected.files.foldl (Run.checkFile c v w) { start with log := start.log ++ found }

def fix (c : FileChecker) (v : Verbosity) (w : Workspace) (targets : List Text) : Run :=
  let collected := Collection.ofTargets c.settings v w targets
  collected.files.foldl (Run.fixFile c v w) (Run.start w targets collected)

end FileChecker

namespace Linter

/-- Check the files of targets by the enabled checks. -/
def analyze (l : Linter) : Verbosity → Workspace → List Text → Run :=
  l.checker.analyze

/-- Fix the files of targets in place by the enabled checks. -/
def fix (l : Linter) : Verbosity → Workspace → List Text → Run :=
  l.checker.fix

end Linter

end LintDirectives
