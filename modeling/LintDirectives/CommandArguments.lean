import LintDirectives.FileTree
import LintDirectives.Report

/-!
# Arguments of the command line

An argument list names a command and gives options and paths in any order. A long option takes
its value after an equals sign or from the next argument; short options may be combined, the
last one taking the rest as its value. After two hyphens all arguments are paths. Of an option
given twice the last one counts.
-/

namespace LintDirectives

inductive UsageError where
  | noCommand
  | unknownCommand (name : Text)
  | unknownOption (name : Text)
  | missingValue (name : Text)
  | unexpectedValue (name : Text)
  | badChoice (name value : Text)
  | missingPath (path : Text)
  /-- A path with a zero character, which cannot even be looked for. -/
  | zeroCharacter
  | extraArgument (value : Text)
deriving DecidableEq

namespace UsageError

def reason : UsageError → Text
  | noCommand => "Missing command."
  | unknownCommand name => "No such command " ++ Text.quoted name ++ "."
  | unknownOption name => "No such option: " ++ name
  | missingValue name => "Option " ++ Text.quoted name ++ " requires an argument."
  | unexpectedValue name => "Option " ++ Text.quoted name ++ " does not take a value."
  | badChoice name value =>
    "Invalid value for " ++ Text.quoted name ++ ": " ++ Text.quoted value ++ "."
  | missingPath path => "Path " ++ Text.quoted path ++ " does not exist."
  | zeroCharacter => "A path holds a zero character."
  | extraArgument value => "Got unexpected extra argument (" ++ value ++ ")"

/-- Whether a reminder of the usage goes before the reason. Where an option lacks its value or
has one too many, the reason stands alone. -/
def remindsUsage : UsageError → Bool
  | missingValue _ => false
  | unexpectedValue _ => false
  | _ => true

/-- The text written about wrong arguments. -/
def message (e : UsageError) : Text :=
  (if e.remindsUsage then "Usage: scalpel [OPTIONS] COMMAND [ARGS]...\n\n".toList else []) ++
    "Error: " ++ e.reason ++ "\n"

end UsageError

structure OptionSpec where
  key : Text
  names : List Text
  takesValue : Bool

/-- Options with their values, and the other arguments, both in order. -/
structure ParsedArguments where
  options : List (Text × Text) := []
  rest : List Text := []

namespace ParsedArguments

def addOption (key value : Text) (p : ParsedArguments) : ParsedArguments :=
  { p with options := (key, value) :: p.options }

def addArgument (a : Text) (p : ParsedArguments) : ParsedArguments :=
  { p with rest := a :: p.rest }

def value? (key : Text) (p : ParsedArguments) : Option Text :=
  (p.options.reverse.find? fun (k, _) => k == key).map Prod.snd

def has (key : Text) (p : ParsedArguments) : Bool :=
  (p.value? key).isSome

end ParsedArguments

namespace OptionSpec

def find? (specs : List OptionSpec) (name : Text) : Option OptionSpec :=
  specs.find? fun spec => spec.names.contains name

def findShort? (specs : List OptionSpec) (letter : Char) : Option OptionSpec :=
  find? specs ['-', letter]

def findLong? (specs : List OptionSpec) (name : Text) : Option OptionSpec :=
  if name.length = 2 then none else find? specs name

end OptionSpec

/-- What combined short options give: flags with their keys, and possibly an option with its
name and the value in the same argument, if there is one. -/
structure ShortOptions where
  flags : List Text := []
  last : Option (OptionSpec × Text × Option Text) := none

def readShort (specs : List OptionSpec) : Text → Except UsageError ShortOptions
  | [] => .ok {}
  | letter :: rest =>
    match OptionSpec.findShort? specs letter with
    | none => .error (.unknownOption ['-', letter])
    | some spec =>
      if spec.takesValue then
        .ok { last := some (spec, ['-', letter], if rest.isEmpty then none else some rest) }
      else (readShort specs rest).map fun o => { o with flags := spec.key :: o.flags }

/-- Read an argument that starts with a hyphen: its options, and whether it still needs a
value. -/
def readOption (specs : List OptionSpec) (a : Text) : Except UsageError ShortOptions :=
  let (name, value) := match Text.cut? "=" a with
    | some (name, value) => (name, some value)
    | none => (a, none)
  match OptionSpec.findLong? specs name with
  | some spec =>
    if spec.takesValue then .ok { last := some (spec, name, value) }
    else if value.isSome then .error (.unexpectedValue name)
    else .ok { flags := [spec.key] }
  | none =>
    if "--".toList.isPrefixOf a then .error (.unknownOption name)
    else readShort specs (a.drop 1)

def isOption (a : Text) : Bool :=
  a.head? == some '-' && decide (1 < a.length)

def addFlags (flags : List Text) (p : ParsedArguments) : ParsedArguments :=
  flags.foldr (fun key p => p.addOption key []) p

/-- Read arguments. Unless options and other arguments may be mixed, reading ends before the
first other argument. -/
def parseArguments (specs : List OptionSpec) (mixed : Bool) :
    List Text → Except UsageError ParsedArguments
  | [] => .ok {}
  | a :: rest =>
    if a == ['-', '-'] then .ok { rest }
    else if isOption a then
      match readOption specs a with
      | .error e => .error e
      | .ok o =>
        match o.last with
        | none => (parseArguments specs mixed rest).map (addFlags o.flags)
        | some (spec, _, some value) =>
          (parseArguments specs mixed rest).map fun p =>
            addFlags o.flags (p.addOption spec.key value)
        | some (spec, name, none) =>
          match rest with
          | [] => .error (.missingValue name)
          | value :: rest =>
            (parseArguments specs mixed rest).map fun p =>
              addFlags o.flags (p.addOption spec.key value)
    else if mixed then (parseArguments specs mixed rest).map (·.addArgument a)
    else .ok { rest := a :: rest }

structure RunOptions where
  paths : List Text := []
  format : Option ReportFormat := none
  outputFile : Option Text := none
  configPath : Option Text := none
  failOn : Option Severity := none
  withFixes : Bool := true
  verbose : Bool := false
  quiet : Bool := false

inductive Command where
  | check (o : RunOptions)
  | fix (o : RunOptions)
  | listChecks
  | init (force : Bool)
  | version
  | help

namespace Command

def helpSpec : OptionSpec := ⟨"help", ["--help"], false⟩

def configSpec : OptionSpec := ⟨"config", ["-c", "--config"], true⟩

def failOnSpec : OptionSpec := ⟨"fail-on", ["--fail-on"], true⟩

def verboseSpec : OptionSpec := ⟨"verbose", ["-v", "--verbose"], false⟩

def quietSpec : OptionSpec := ⟨"quiet", ["-q", "--quiet"], false⟩

def globalSpecs : List OptionSpec := [⟨"version", ["--version"], false⟩, helpSpec]

def checkSpecs : List OptionSpec :=
  [⟨"output", ["-o", "--output"], true⟩, ⟨"output-file", ["-f", "--output-file"], true⟩,
    configSpec, failOnSpec, ⟨"no-fixes", ["--no-fixes"], false⟩, verboseSpec, quietSpec, helpSpec]

def fixSpecs : List OptionSpec := [configSpec, failOnSpec, verboseSpec, quietSpec, helpSpec]

def initSpecs : List OptionSpec := [⟨"force", ["--force"], false⟩, helpSpec]

/-- Read a value that has to be one of several names. -/
def choice {α : Type} (p : ParsedArguments) (key : Text) (ofName? : Text → Option α) :
    Except UsageError (Option α) :=
  match p.value? key with
  | none => .ok none
  | some t =>
    match ofName? t with
    | some a => .ok (some a)
    | none => .error (.badChoice key t)

def existing (tree : FileTree) (working : Place) (path : Text) : Except UsageError Text :=
  match tree.lookWritten working path with
  | .ok _ => .ok path
  | .error .zeroCharacter => .error .zeroCharacter
  | .error _ => .error (.missingPath path)

def runOptions (tree : FileTree) (working : Place) (p : ParsedArguments) :
    Except UsageError RunOptions := do
  let format ← choice p "output" ReportFormat.ofName?
  let failOn ← choice p "fail-on" Severity.ofName?
  let configPath ← (p.value? "config").mapM (existing tree working)
  let paths ← p.rest.mapM (existing tree working)
  return { paths, format, failOn
           outputFile := p.value? "output-file"
           configPath
           withFixes := !p.has "no-fixes"
           verbose := p.has "verbose"
           quiet := p.has "quiet" }

def withoutArguments (p : ParsedArguments) (command : Command) : Except UsageError Command :=
  match p.rest with
  | [] => .ok command
  | a :: _ => .error (.extraArgument a)

def ofArguments (tree : FileTree) (working : Place) (name : Text) (args : List Text) :
    Except UsageError Command := do
  let specs ← match String.ofList name with
    | "check" => .ok checkSpecs
    | "fix" => .ok fixSpecs
    | "checks" => .ok [helpSpec]
    | "init" => .ok initSpecs
    | _ => .error (.unknownCommand name)
  let p ← parseArguments specs true args
  if p.has "help" then return .help
  else
    match String.ofList name with
    | "check" => return .check (← runOptions tree working p)
    | "fix" => return .fix (← runOptions tree working p)
    | "init" => withoutArguments p (.init (p.has "force"))
    | _ => withoutArguments p .listChecks

def parse (tree : FileTree) (working : Place) (args : List Text) :
    Except UsageError Command := do
  let p ← parseArguments globalSpecs false args
  match p.options.head? with
  | some (key, _) => return if key == "version".toList then .version else .help
  | none =>
    match p.rest with
    | [] => .error .noCommand
    | name :: rest => ofArguments tree working name rest

end Command

end LintDirectives
