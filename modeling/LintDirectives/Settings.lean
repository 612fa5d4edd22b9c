import LintDirectives.ConfigValue
import LintDirectives.GlobPattern
import LintDirectives.Report

/-!
# Settings

What a configuration may set: which checks run and from which severity on, the report format,
the severity that makes a run fail, how often a file is fixed, and what is ignored. The ignore
lists are kept as they are written, and their shape matters only when they are used.
-/

namespace LintDirectives

/-- A value that cannot be used where it stands. -/
inductive ShapeError where
  | mapping
  | text
  | elements
  | key
  | pattern
  | pairs
deriving DecidableEq

inductive SettingsError where
  | severity (setting : Text) (value : ConfigValue)
  | format (value : ConfigValue)
  | passes (value : ConfigValue)
  /-- The file holds something other than a mapping. -/
  | topLevel
  | yaml
  | unreadable
  | zeroCharacter
  | undecodable
  /-- A scalar of the file cannot be read, or a value is nested too deeply. -/
  | scalar (e : ReadingError)
  /-- A number that a message would show is too long to be shown. -/
  | unshowable
  | shape (e : ShapeError)

namespace SettingsError

/-- The message about settings that are invalid. Undecodable files, unreadable scalars and
values of the wrong shape have none: they are no configuration errors, but failures. -/
def message? : SettingsError → Option Text
  | severity setting value =>
    some ("Invalid severity for " ++ setting ++ ": " ++ value.shown)
  | format value =>
    some ("output_format must be one of ['json', 'sarif', 'text'], got " ++ value.shown)
  | passes value =>
    some ("max_fix_passes must be a positive integer, got " ++ value.shown)
  | topLevel => some "Config file must contain a mapping at the top level"
  | yaml => some "Invalid YAML in config file"
  | unreadable => some "Cannot read config file"
  | zeroCharacter => none
  | undecodable => none
  | scalar _ => none
  | unshowable => none
  | shape _ => none

/-- The error that is left of one whose message would have to show a value that cannot be
shown, with so many levels of values inside it. -/
def orUnshowable (levels : Nat) (e : SettingsError) : SettingsError :=
  let keep (value : ConfigValue) : SettingsError :=
    match value.obstacle? levels with
    | none => e
    | some .longNumber => unshowable
    | some .depth => scalar .depth
  match e with
  | severity _ value => keep value
  | format value => keep value
  | passes value => keep value
  | _ => e

end SettingsError

/-- How often a file is fixed at most. The value true stands for one pass. -/
inductive PassLimit where
  | number (n : Nat) (positive : 0 < n)
  | yes
deriving DecidableEq

namespace PassLimit

def count : PassLimit → Nat
  | number n _ => n
  | yes => 1

def value : PassLimit → ConfigValue
  | number n _ => .int n
  | yes => .bool true

def ofValue? : ConfigValue → Option PassLimit
  | .int n => if h : 0 < n then some (number n.toNat (by omega)) else none
  | .bool true => some yes
  | _ => none

end PassLimit

/-- The settings of one check. Any value that counts as true enables it. -/
structure CheckSettings where
  enabled : ConfigValue := .bool true
  threshold : Severity := .warning

structure Settings where
  checks : List (ConfigValue × CheckSettings) := []
  format : ReportFormat := .text
  failOn : Option Severity := some .error
  passes : PassLimit := .number 10 (by decide)
  ignorePaths : ConfigValue := .list []
  ignoreRules : ConfigValue := .map []

namespace Settings

def check (s : Settings) (name : Text) : CheckSettings :=
  match s.checks.find? fun entry => entry.1.sameKey (.text name) with
  | some (_, check) => check
  | none => {}

def isEnabled (s : Settings) (name : Text) : Bool :=
  (s.check name).enabled.isTruthy

def readFormat (value : ConfigValue) : Except SettingsError ReportFormat :=
  match value.unwrapped with
  | .list _ => .error (.shape .key)
  | .map _ => .error (.shape .key)
  | .text t =>
    match ReportFormat.ofName? t with
    | some format => .ok format
    | none => .error (.format value)
  | _ => .error (.format value)

def readPasses (value : ConfigValue) : Except SettingsError PassLimit :=
  match PassLimit.ofValue? value with
  | some limit => .ok limit
  | none => .error (.passes value)

def readSeverity (setting : Text) (value : ConfigValue) : Except SettingsError Severity :=
  match value with
  | .text t =>
    match Severity.ofName? t with
    | some severity => .ok severity
    | none => .error (.severity setting value)
  | _ => .error (.severity setting value)

def section? (value : Option ConfigValue) :
    Except SettingsError (List (ConfigValue × ConfigValue)) :=
  match value.map ConfigValue.unwrapped with
  | none => .ok []
  | some .null => .ok []
  | some (.map entries) => .ok entries
  | some _ => .error (.shape .mapping)

def readCheck (value : ConfigValue) : Except SettingsError CheckSettings := do
  let entries ← section? (some value)
  let threshold ← match ConfigValue.lookup? "severity_threshold" entries with
    | some v => readSeverity "severity_threshold" v
    | none => .ok .warning
  return { enabled := (ConfigValue.lookup? "enabled" entries).getD (.bool true), threshold }

def readChecks (value : Option ConfigValue) :
    Except SettingsError (List (ConfigValue × CheckSettings)) :=
  match value.map ConfigValue.unwrapped with
  | some (.map entries) => entries.mapM fun (name, v) => (readCheck v).map fun c => (name, c)
  | _ => .ok []

def readFailOn (value : Option ConfigValue) : Except SettingsError (Option Severity) :=
  match value with
  | none => .ok (some .error)
  | some .null => .ok none
  | some v =>
    match v with
    | .text ['n', 'o', 'n', 'e'] => .ok none
    | _ => (readSeverity "fail_on" v).map some

/-- Split an entry such as `Rule:glob` at its first colon. Without a colon the rule is
ignored everywhere. -/
def splitRule (t : Text) : Text × Text :=
  match Text.cut? ":" t with
  | some (rule, pattern) => (rule, pattern)
  | none => (t, "*")

/-- Why a collection is no entry of a list of ignored rules: a colon in it would divide it like
a text, and without one it would have to be a key. -/
def ruleShape (elements : List ConfigValue) : SettingsError :=
  .shape (if elements.any fun v => v.sameKey (.text ":") then .text else .key)

/-- Read one entry of a list of ignored rules. -/
def readRule (value : ConfigValue) : Except SettingsError (ConfigValue × Text) :=
  match value.unwrapped with
  | .text t =>
    let (rule, pattern) := splitRule t
    .ok (.text rule, pattern)
  | .list items => .error (ruleShape items)
  | .set elements => .error (ruleShape elements)
  | .map entries => .error (ruleShape (entries.map Prod.fst))
  | .pair first second =>
    if value.isKey && [first, second].all fun v => !v.sameKey (.text ":") then .ok (value, "*")
    else .error (ruleShape [first, second])
  | _ => .error (.shape .elements)

/-- Add a pattern to those of a rule. A rule without patterns comes last. -/
def addPattern (rule : ConfigValue) (pattern : Text) :
    List (ConfigValue × List Text) → List (ConfigValue × List Text)
  | [] => [(rule, [pattern])]
  | (r, patterns) :: rest =>
    if r.sameKey rule then (r, patterns ++ [pattern]) :: rest
    else (r, patterns) :: addPattern rule pattern rest

/-- The patterns of each rule, in the order of first occurrence of the rules. -/
def groupRules (rules : List (ConfigValue × Text)) : List (ConfigValue × List Text) :=
  rules.foldl (fun groups (rule, pattern) => addPattern rule pattern groups) []

/-- Read ignored rules. A list of entries becomes a mapping from rules to their patterns. -/
def readRules (value : Option ConfigValue) : Except SettingsError ConfigValue :=
  match value with
  | none => .ok (.map [])
  | some .null => .ok (.map [])
  | some v =>
    match v.unwrapped with
    | .list items =>
      (items.mapM readRule).map fun rules =>
        .map ((groupRules rules).map fun (rule, patterns) => (rule, .list (patterns.map .text)))
    | _ => .ok v

def readPaths (value : Option ConfigValue) : ConfigValue :=
  match value with
  | none => .list []
  | some .null => .list []
  | some v => v

def ofEntries (entries : List (ConfigValue × ConfigValue)) : Except SettingsError Settings := do
  let checks ← readChecks (ConfigValue.lookup? "checks" entries)
  let settings ← section? (ConfigValue.lookup? "settings" entries)
  let failOn ← readFailOn (ConfigValue.lookup? "fail_on" settings)
  let ignore ← section? (ConfigValue.lookup? "ignore" entries)
  let ignoreRules ← readRules (ConfigValue.lookup? "rules" ignore)
  let format ← readFormat ((ConfigValue.lookup? "output_format" settings).getD "text")
  let passes ← readPasses ((ConfigValue.lookup? "max_fix_passes" settings).getD (.int 10))
  return { checks, format, failOn, passes
           ignorePaths := readPaths (ConfigValue.lookup? "paths" ignore), ignoreRules }

/-- Read settings from any value. A section can be looked for only in a mapping, and the one of
checks is looked for among the elements of any value. -/
def ofValue (value : ConfigValue) : Except SettingsError Settings :=
  match value with
  | .map entries => ofEntries entries
  | .text t => .error (.shape (if Text.occursIn "checks" t then .elements else .mapping))
  | .list items =>
    .error (.shape (if items.any fun v => v.sameKey "checks" then .elements else .mapping))
  | _ => .error (.shape .elements)

/-- Settings given for one run, which go before those of the configuration. -/
structure Overrides where
  format : Option ConfigValue := none
  failOn : Option Severity := none
  passes : Option ConfigValue := none

/-- The elements of a value: the characters of a text, the numbers of bytes, the keys of a
mapping. -/
def elements (value : ConfigValue) : Except SettingsError (List ConfigValue) :=
  match value.unwrapped with
  | .list items => .ok items
  | .text t => .ok (t.map fun c => .text [c])
  | .bytes b => .ok (b.map fun x => .int x.toNat)
  | .pair first second => .ok [first, second]
  | .set elements => .ok elements
  | .map entries => .ok (entries.map Prod.fst)
  | _ => .error (.shape .elements)

/-- A value with two elements as an entry of a mapping. -/
def pairOf (value : ConfigValue) : Except SettingsError (ConfigValue × ConfigValue) := do
  match ← elements value with
  | [key, v] => if key.isKey then .ok (key, v) else .error (.shape .key)
  | _ => .error (.shape .pairs)

/-- The entries of a value: those of a mapping, or else elements with two elements each. -/
def pairs (value : ConfigValue) : Except SettingsError (List (ConfigValue × ConfigValue)) :=
  match value.unwrapped with
  | .map entries => .ok entries
  | v => do return ConfigValue.distinctEntries (← (← elements v).mapM pairOf)

/-- Lay overrides over settings. The ignore lists become a proper list and a proper mapping. -/
def merge (s : Settings) (o : Overrides) : Except SettingsError Settings := do
  let paths ← elements s.ignorePaths
  let rules ← pairs s.ignoreRules
  let format ← match o.format with
    | some v => readFormat v
    | none => .ok s.format
  let passes ← match o.passes with
    | some v => readPasses v
    | none => .ok s.passes
  return { s with
    format, passes
    failOn := match o.failOn with
      | some severity => some severity
      | none => s.failOn
    ignorePaths := .list paths
    ignoreRules := .map rules }

/-- Whether one of a list of patterns is a glob that matches a path. The first pattern that
matches settles the question; before it, all have to be texts. -/
def anyGlob (path : Text) : List ConfigValue → Except SettingsError Bool
  | [] => .ok false
  | .text pattern :: rest =>
    if Glob.accepts pattern path then .ok true else anyGlob path rest
  | _ :: _ => .error (.shape .pattern)

def ignoresPath (s : Settings) (path : Text) : Except SettingsError Bool := do
  anyGlob path (← elements s.ignorePaths)

/-- The patterns for a rule: those under its full name, if there are any, and else those under
its short code. -/
def rulePatterns (entries : List (ConfigValue × ConfigValue)) (rule code : Text) :
    ConfigValue :=
  match ConfigValue.lookup? rule entries with
  | some v => if v.isTruthy then v else (ConfigValue.lookup? code entries).getD (.list [])
  | none => (ConfigValue.lookup? code entries).getD (.list [])

def ignoresDiagnostic (s : Settings) (d : Diagnostic) : Except SettingsError Bool :=
  if !s.ignoreRules.isTruthy then .ok false
  else
    match s.ignoreRules.unwrapped with
    | .map entries => do
      anyGlob d.location.file (← elements (rulePatterns entries d.rule d.code))
    | _ => .error (.shape .mapping)

def withoutIgnored (s : Settings) : List Diagnostic → Except SettingsError (List Diagnostic)
  | [] => .ok []
  | d :: rest => do
    let ignored ← s.ignoresDiagnostic d
    let others ← s.withoutIgnored rest
    return if ignored then others else d :: others

end Settings

end LintDirectives
