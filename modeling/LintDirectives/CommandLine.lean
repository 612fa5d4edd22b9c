import LintDirectives.CommandArguments
import LintDirectives.ConfigFile
import LintDirectives.ProjectRun

/-!
# The command line

What a command writes, with which code it exits, and what it leaves in the file tree. Findings
at the failing severity give exit code 1, wrong arguments or settings 2, files that could not
be checked and missing targets 3. Failures that no message covers end the command with exit
code 1.
-/

namespace LintDirectives

/-- A failure that ends a command without a message of its own. -/
inductive CommandFailure where
  | settings (e : SettingsError)
  | run (e : RunFailure)
  | path (e : PathError)

structure Outcome where
  exitCode : Nat := 0
  stdout : Text := []
  stderr : Text := []
  tree : FileTree
  failure : Option CommandFailure := none

namespace CommandLine

/-- What follows the parameters, the intermediate characters and the final character of a
terminal control sequence, if there is a complete one after its opening. -/
def afterParameters? (t : Text) : Option Text :=
  let t := t.dropWhile fun c => 0x30 ≤ c.toNat && c.toNat ≤ 0x3F
  let t := t.dropWhile fun c => 0x20 ≤ c.toNat && c.toNat ≤ 0x2F
  match t with
  | c :: rest => if 0x40 ≤ c.toNat && c.toNat ≤ 0x7E then some rest else none
  | [] => none

/-- What follows the terminal control sequence at the start of a text, if there is one. -/
def afterControl? : Text → Option Text
  | '\x1b' :: '[' :: rest => afterParameters? rest
  | _ => none

/-- Leave out terminal control sequences. The counter says how many characters of the current
sequence are still to be dropped. -/
def plainFrom : Nat → Text → Text
  | _, [] => []
  | k + 1, _ :: rest => plainFrom k rest
  | 0, c :: rest =>
    match afterControl? (c :: rest) with
    | some after => plainFrom (rest.length - after.length) rest
    | none => c :: plainFrom 0 rest

/-- A line for the terminal: without control sequences. -/
def echo (t : Text) : Text :=
  plainFrom 0 t ++ ['\n']

def logText (log : List Text) : Text :=
  log.flatMap (· ++ ['\n'])

/-- The exit code of a finished run. Findings go before errors. -/
def exitCode (settings : Settings) (r : RunResult) : Nat :=
  let fails := match settings.failOn with
    | some severity => r.diagnostics.any fun d => severity.le d.severity
    | none => false
  if fails then 1 else if r.errors.isEmpty then 0 else 3

def refused (tree : FileTree) (e : SettingsError) : Outcome :=
  match e.message? with
  | some message => { exitCode := 2, stderr := echo ("Configuration error: " ++ message), tree }
  | none => { exitCode := 1, tree, failure := some (.settings e) }

def stopped (r : Run) (e : RunFailure) : Outcome :=
  match e with
  | .targetNotFound _ =>
    { exitCode := 3
      stderr := logText r.log ++ echo ("Analysis error: " ++ e.message?.getD [])
      tree := r.tree }
  | _ => { exitCode := 1, stderr := logText r.log, tree := r.tree, failure := some (.run e) }

/-- The targets of a run: the paths, or the working directory. -/
def targets (o : RunOptions) : List Text :=
  if o.paths.isEmpty then [['.']] else o.paths

def loadSettings (w : Workspace) (o : RunOptions) (format : Option ReportFormat) :
    Except SettingsError Settings := do
  let settings ← ConfigFile.load w.tree w.directory o.configPath
  settings.merge { format := format.map fun f => .text f.name, failOn := o.failOn }

def writeReport (w : Workspace) (o : RunOptions) (settings : Settings) (r : Run) (file : Text) :
    Outcome :=
  let report := settings.format.render o.withFixes r.result
  match r.tree.write w.directory (FilePath.ofText file) (Text.utf8 (report ++ ['\n'])) with
  | .ok tree =>
    { exitCode := exitCode settings r.result
      stderr := logText r.log ++ (if o.quiet then [] else echo ("Output written to " ++ file))
      tree }
  | .error e =>
    { exitCode := 1, stderr := logText r.log, tree := r.tree, failure := some (.path e) }

def showReport (format : ReportFormat) (withFixes : Bool) (settings : Settings) (r : Run) :
    Outcome :=
  { exitCode := exitCode settings r.result
    stdout := echo (format.render withFixes r.result)
    stderr := logText r.log
    tree := r.tree }

def check (w : Workspace) (o : RunOptions) : Outcome :=
  match loadSettings w o o.format with
  | .error e => refused w.tree e
  | .ok settings =>
    let l : Linter := { settings }
    let r := l.analyze { verbose := o.verbose, quiet := o.quiet } w (targets o)
    match r.failure with
    | some e => stopped r e
    | none =>
      match o.outputFile with
      | some (c :: file) => writeReport w o settings r (c :: file)
      | _ => showReport settings.format o.withFixes settings r

def fix (w : Workspace) (o : RunOptions) : Outcome :=
  match loadSettings w o (some .text) with
  | .error e => refused w.tree e
  | .ok settings =>
    let l : Linter := { settings }
    let r := l.fix { verbose := o.verbose, quiet := o.quiet } w (targets o)
    match r.failure with
    | some e => stopped r e
    | none => showReport .text true settings r

def listChecks (tree : FileTree) : Outcome :=
  { stdout := echo "Available checks:\n" ++ CheckRegistry.builtIn.checks.flatMap fun c =>
      echo ("  " ++ c.name) ++ echo ("    " ++ c.description ++ "\n")
    tree }

def defaultConfig : Text := Text.lines [
  "# Scalpel configuration",
  "",
  "checks:",
  "  directives:",
  "    enabled: true",
  "    # severity_threshold: error  # Hide UnmatchedDisable/UnmatchedEnable warnings",
  "",
  "settings:",
  "  output_format: text",
  "  fail_on: error  # error, warning or none",
  "  max_fix_passes: 10",
  "",
  "ignore:",
  "  paths:",
  "    - \"**/vendor/**\"",
  "  # rules:",
  "  #   - UnmatchedEnable:legacy/*",
  ""]

def init (w : Workspace) (force : Bool) : Outcome :=
  let file := FilePath.ofText ".scalpel.yaml"
  if (w.tree.look w.directory file).isOk && !force then
    { exitCode := 2
      stderr := echo "Config file already exists. Use --force to overwrite."
      tree := w.tree }
  else
    match w.tree.write w.directory file (Text.utf8 defaultConfig) with
    | .ok tree => { stdout := echo "Created .scalpel.yaml", tree }
    | .error e => { exitCode := 1, tree := w.tree, failure := some (.path e) }

def helpText : Text :=
  "Usage: scalpel [OPTIONS] COMMAND [ARGS]...\n\nCommands:\n  check\n  checks\n  fix\n  init\n"

def perform (w : Workspace) : Command → Outcome
  | .check o => check w o
  | .fix o => fix w o
  | .listChecks => listChecks w.tree
  | .init force => init w force
  | .version => { stdout := echo ("scalpel, version " ++ TextReport.toolVersion), tree := w.tree }
  | .help => { stdout := helpText, tree := w.tree }

def run (w : Workspace) (args : List Text) : Outcome :=
  match Command.parse w.tree w.directory args with
  | .ok command => perform w command
  | .error .zeroCharacter =>
    { exitCode := 1, tree := w.tree, failure := some (.path .zeroCharacter) }
  | .error e => { exitCode := 2, stderr := e.message, tree := w.tree }

end CommandLine

end LintDirectives
