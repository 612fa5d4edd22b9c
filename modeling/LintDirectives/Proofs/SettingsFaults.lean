import LintDirectives.Settings
import LintDirectives.Proofs.FailingSteps
import LintDirectives.Proofs.ShownValues
import Mathlib.Data.List.Basic

/-!
# Faults of configurations

Everything that is wrong with a configuration is listed in the order in which it is read. Reading
succeeds if nothing is wrong, and fails with the first fault otherwise. A value that is refused for
what it is gives a configuration error. A value that is no mapping, no text or no key in a place
where only one can be used makes reading fail without such an error, as does a value that the message
cannot show, because of a number that is too long or because it is nested too deeply.
-/

namespace LintDirectives

open FailingSteps

namespace ConfigValue

/-- A value in the place of a section: a mapping, or nothing. -/
def isSection (v : ConfigValue) : Bool :=
  match v.unwrapped with
  | .null => true
  | .map _ => true
  | _ => false

/-- The entries of a mapping; other values have none. -/
def inside (v : ConfigValue) : List (ConfigValue × ConfigValue) :=
  match v.unwrapped with
  | .map entries => entries
  | _ => []

/-- What a colon is looked for among, when a collection stands in the place of a text. -/
def members : ConfigValue → Option (List ConfigValue)
  | .list items => some items
  | .set elements => some elements
  | .map entries => some (entries.map Prod.fst)
  | .pair first second => some [first, second]
  | _ => none

/-- A value that can be an entry in a list of ignored rules: a text, or a pair that can be a key and
holds no colon. -/
def isRule (v : ConfigValue) : Bool :=
  match v with
  | .pair first second => v.isKey && [first, second].all fun w => !w.sameKey ":"
  | _ =>
    match v.unwrapped with
    | .text _ => true
    | _ => false

theorem any_sameKey_text {α : Type} (all : List α) (name : α → Text) (t : Text) :
    (all.any fun a => (text t).sameKey (text (name a))) =
      (all.find? fun a => name a == t).isSome := by
  rw [List.isSome_find?]
  congr 1
  funext a
  exact Bool.beq_comm

end ConfigValue

namespace SettingsError

/-- The errors that say what a configuration must not hold, in a message that can be made when so many
levels of values can be shown. -/
def Refuses (levels : ℕ) : SettingsError → Prop
  | severity _ value => value.ShownWithin levels
  | format value => value.ShownWithin levels
  | passes value => value.ShownWithin levels
  | topLevel => True
  | yaml => True
  | unreadable => True
  | _ => False

theorem message?_orUnshowable_iff (levels : ℕ) (e : SettingsError) :
    (∃ message, (e.orUnshowable levels).message? = some message) ↔ e.Refuses levels := by
  cases e
  case severity value | format value | passes value =>
    rw [Refuses, ← ConfigValue.obstacle?_eq_none_iff]
    cases h : value.obstacle? levels with
    | none => simp [orUnshowable, h, message?]
    | some obstacle => cases obstacle <;> simp [orUnshowable, h, message?]
  all_goals simp [orUnshowable, message?, Refuses]

end SettingsError

namespace Settings

open ConfigValue

variable {entries : List (ConfigValue × ConfigValue)} {value : Option ConfigValue}
  {v : ConfigValue} {setting : Text}

/-! ## What can be wrong

Each part of a configuration has the list of its faults, beside the function that reads it. -/

/-- The entries of the section of a name; a section that is missing or no mapping has none. -/
def sectionOf (name : Text) (entries : List (ConfigValue × ConfigValue)) :
    List (ConfigValue × ConfigValue) :=
  ((lookup? name entries).map inside).getD []

def sectionFaults (value : Option ConfigValue) : List SettingsError :=
  if value.all isSection then [] else [.shape .mapping]

def severityFaults (setting : Text) (v : ConfigValue) : List SettingsError :=
  if Severity.all.any fun severity => v.sameKey (.text severity.name) then []
  else [.severity setting v]

def checkFaults (v : ConfigValue) : List SettingsError :=
  sectionFaults (some v) ++
    (lookup? "severity_threshold" v.inside).toList.flatMap (severityFaults "severity_threshold")

def failOnFaults : Option ConfigValue → List SettingsError
  | none => []
  | some .null => []
  | some v => if v.sameKey "none" then [] else severityFaults "fail_on" v

/-- What is wrong with one entry in a list of ignored rules. -/
def ruleFaults (v : ConfigValue) : List SettingsError :=
  if v.isRule then []
  else
    match v.unwrapped.members with
    | some elements => [ruleShape elements]
    | none => [.shape .elements]

/-- What is wrong with ignored rules. Only the entries of a list are looked at. -/
def rulesFaults (value : Option ConfigValue) : List SettingsError :=
  match value.map unwrapped with
  | some (.list items) => items.flatMap ruleFaults
  | _ => []

/-- What is wrong with the report format. A list or a mapping cannot even be looked for among the
formats. -/
def formatFaults : Option ConfigValue → List SettingsError
  | none => []
  | some v =>
    match v.unwrapped with
    | .list _ => [.shape .key]
    | .map _ => [.shape .key]
    | u => if ReportFormat.all.any fun format => u.sameKey (.text format.name) then [] else [.format v]

def passesFaults : Option ConfigValue → List SettingsError
  | none => []
  | some v =>
    match v with
    | .int n => if 0 < n then [] else [.passes v]
    | .bool true => []
    | _ => [.passes v]

/-- Everything that is wrong with a configuration, in the order in which it is read. -/
def faults (entries : List (ConfigValue × ConfigValue)) : List SettingsError :=
  let settings := sectionOf "settings" entries
  let ignored := sectionOf "ignore" entries
  ((sectionOf "checks" entries).flatMap fun (_, v) => checkFaults v) ++
    (sectionFaults (lookup? "settings" entries) ++
    (failOnFaults (lookup? "fail_on" settings) ++
    (sectionFaults (lookup? "ignore" entries) ++
    (rulesFaults (lookup? "rules" ignored) ++
    (formatFaults (lookup? "output_format" settings) ++
    passesFaults (lookup? "max_fix_passes" settings))))))

/-- Settings have the format and the limit that a configuration gives, or the default ones, and
these are valid. -/
structure ValidFor (entries : List (ConfigValue × ConfigValue)) (s : Settings) : Prop where
  format : ((lookup? "output_format" (sectionOf "settings" entries)).getD "text").unwrapped =
    .text s.format.name
  passes : (lookup? "max_fix_passes" (sectionOf "settings" entries)).getD (.int 10) =
    s.passes.value
  positive : 0 < s.passes.count

/-! ## What each part refuses -/

theorem failsFirst_section? (value : Option ConfigValue) :
    FailsFirst (section? value) (sectionFaults value) := by
  cases value with
  | none => rfl
  | some v =>
    rw [section?, sectionFaults, Option.map_some, Option.all_some, isSection]
    cases v.unwrapped <;> rfl

theorem section?_eq_ok (h : section? value = .ok entries) :
    entries = (value.map inside).getD [] := by
  cases value with
  | none => exact (Except.ok.inj h).symm
  | some v =>
    rw [section?, Option.map_some] at h
    rw [Option.map_some, Option.getD_some, inside]
    cases hv : v.unwrapped with
    | null =>
      rw [hv] at h
      exact (Except.ok.inj h).symm
    | map inner =>
      rw [hv] at h
      exact (Except.ok.inj h).symm
    | _ =>
      rw [hv] at h
      exact nomatch h

theorem failsFirst_readSeverity (setting : Text) (v : ConfigValue) :
    FailsFirst (readSeverity setting v) (severityFaults setting v) := by
  cases v with
  | text t =>
    have hname : (Severity.all.find? fun severity => severity.name == t) = Severity.ofName? t := rfl
    rw [severityFaults, any_sameKey_text, hname, readSeverity]
    cases Severity.ofName? t <;> rfl
  | _ => rfl

theorem failsFirst_readCheck (v : ConfigValue) : FailsFirst (readCheck v) (checkFaults v) := by
  refine (failsFirst_section? (some v)).bind fun entries hentries => ?_
  obtain rfl : entries = v.inside := section?_eq_ok hentries
  cases lookup? "severity_threshold" v.inside with
  | none => rfl
  | some w =>
    rw [Option.toList_some, List.flatMap_singleton, ← List.append_nil (severityFaults _ w)]
    exact (failsFirst_readSeverity _ w).bind fun threshold _ => rfl

theorem failsFirst_readChecks (value : Option ConfigValue) :
    FailsFirst (readChecks value)
      (((value.map inside).getD []).flatMap fun (_, v) => checkFaults v) := by
  cases value with
  | none => rfl
  | some v =>
    rw [readChecks, Option.map_some, Option.map_some, Option.getD_some, inside]
    cases v.unwrapped with
    | map entries => exact FailsFirst.mapM fun entry _ => (failsFirst_readCheck entry.2).map _
    | _ => rfl

theorem failsFirst_readFailOn (value : Option ConfigValue) :
    FailsFirst (readFailOn value) (failOnFaults value) := by
  cases value with
  | none => rfl
  | some v =>
    cases v with
    | text t =>
      -- The word for no severity is looked for before the names of severities.
      by_cases ht : t = "none".toList
      · rw [ht]
        rfl
      · have hread : readFailOn (some (.text t)) = (readSeverity "fail_on" (.text t)).map some := by
          rw [readFailOn]
          · exact nofun
          · exact fun h => ht (ConfigValue.text.inj h)
        have hother : ¬(ConfigValue.text t).sameKey (.text "none") := fun h => ht (eq_of_beq h)
        rw [hread, failOnFaults, if_neg hother]
        · exact (failsFirst_readSeverity _ _).map some
        · exact nofun
    | _ => rfl

theorem failsFirst_readRule (v : ConfigValue) : FailsFirst (readRule v) (ruleFaults v) := by
  cases v with
  | pair first second =>
    have hread : readRule (.pair first second) = if (ConfigValue.pair first second).isRule then
        .ok (.pair first second, "*") else .error (ruleShape [first, second]) := rfl
    rw [hread, ruleFaults]
    cases (ConfigValue.pair first second).isRule <;> rfl
  | ring shown laidOut => cases laidOut <;> rfl
  | _ => rfl

theorem failsFirst_readRules (value : Option ConfigValue) :
    FailsFirst (readRules value) (rulesFaults value) := by
  cases value with
  | none => rfl
  | some v =>
    cases v with
    | list items => exact (FailsFirst.mapM fun item _ => failsFirst_readRule item).map _
    | ring shown laidOut =>
      cases laidOut with
      | list items => exact (FailsFirst.mapM fun item _ => failsFirst_readRule item).map _
      | _ => rfl
    | _ => rfl

theorem failsFirst_readFormat (value : Option ConfigValue) :
    FailsFirst (readFormat (value.getD "text")) (formatFaults value) := by
  cases value with
  | none => rfl
  | some v =>
    rw [Option.getD_some, readFormat, formatFaults]
    cases v.unwrapped with
    | text t =>
      have hname : (ReportFormat.all.find? fun format => format.name == t) =
        ReportFormat.ofName? t := rfl
      dsimp only
      rw [any_sameKey_text, hname]
      cases ReportFormat.ofName? t <;> rfl
    | _ => rfl

theorem failsFirst_readPasses (value : Option ConfigValue) :
    FailsFirst (readPasses (value.getD (.int 10))) (passesFaults value) := by
  cases value with
  | none => rfl
  | some v =>
    cases v with
    | int n =>
      rw [Option.getD_some, readPasses, PassLimit.ofValue?, passesFaults]
      by_cases hn : 0 < n
      · rw [dif_pos hn, if_pos hn]
        rfl
      · rw [dif_neg hn, if_neg hn]
        rfl
    | bool b => cases b <;> rfl
    | _ => rfl

theorem failsFirst_ofEntries (entries : List (ConfigValue × ConfigValue)) :
    FailsFirst (ofEntries entries) (faults entries) := by
  -- Behind each section that can be read, its entries are those that the faults are taken from.
  refine (failsFirst_readChecks _).bind fun checks _ => ?_
  refine (failsFirst_section? _).bind fun settings hsettings => ?_
  obtain rfl : settings = sectionOf "settings" entries := section?_eq_ok hsettings
  refine (failsFirst_readFailOn _).bind fun failOn _ => ?_
  refine (failsFirst_section? _).bind fun ignored hignored => ?_
  obtain rfl : ignored = sectionOf "ignore" entries := section?_eq_ok hignored
  refine (failsFirst_readRules _).bind fun rules _ => ?_
  refine (failsFirst_readFormat _).bind fun format _ => ?_
  rw [← List.append_nil (passesFaults _)]
  exact (failsFirst_readPasses _).bind fun passes _ => rfl

/-! ## What reading gives -/

theorem readFormat_eq_ok {format : ReportFormat} (h : readFormat v = .ok format) :
    v.unwrapped = .text format.name := by
  rw [readFormat] at h
  split at h
  · exact nomatch h
  · exact nomatch h
  · next t ht =>
    split at h
    · next format' hname =>
      obtain rfl := Except.ok.inj h
      have hfound : (format'.name == t) = true :=
        List.find?_some (p := fun f : ReportFormat => f.name == t) hname
      rw [ht, eq_of_beq hfound]
    · exact nomatch h
  · exact nomatch h

theorem readPasses_eq_ok {limit : PassLimit} (h : readPasses v = .ok limit) :
    v = limit.value ∧ 0 < limit.count := by
  cases v with
  | int n =>
    by_cases hn : 0 < n
    · rw [readPasses, PassLimit.ofValue?, dif_pos hn] at h
      obtain rfl := Except.ok.inj h
      exact ⟨congrArg _ (Int.toNat_of_nonneg (Int.le_of_lt hn)).symm,
        Int.pos_iff_toNat_pos.mp hn⟩
    · rw [readPasses, PassLimit.ofValue?, dif_neg hn] at h
      exact nomatch h
  | bool b =>
    cases b with
    | true =>
      obtain rfl := Except.ok.inj h
      exact ⟨rfl, Nat.one_pos⟩
    | false => exact nomatch h
  | _ => exact nomatch h

theorem validFor_of_ofEntries {s : Settings} (h : ofEntries entries = .ok s) :
    ValidFor entries s := by
  obtain ⟨checks, -, h⟩ := bind_eq_ok.mp h
  obtain ⟨settings, hsettings, h⟩ := bind_eq_ok.mp h
  obtain rfl : settings = sectionOf "settings" entries := section?_eq_ok hsettings
  obtain ⟨failOn, -, h⟩ := bind_eq_ok.mp h
  obtain ⟨ignored, -, h⟩ := bind_eq_ok.mp h
  obtain ⟨rules, -, h⟩ := bind_eq_ok.mp h
  obtain ⟨format, hformat, h⟩ := bind_eq_ok.mp h
  obtain ⟨passes, hpasses, h⟩ := bind_eq_ok.mp h
  obtain rfl := Except.ok.inj h
  exact ⟨readFormat_eq_ok hformat, (readPasses_eq_ok hpasses).1, (readPasses_eq_ok hpasses).2⟩

/-- Reading any configuration gives settings with a valid format and a valid limit, or a
configuration error with its message, exactly if the first thing that is wrong with it, if anything is,
is refused by such an error: a name that no severity or format has or a limit that is not positive, and
no value of a wrong shape. The value has to be one that the message can show, with numbers that are
short enough and with no more levels of values inside it than there are for this message. Settings are
read exactly if nothing is wrong. -/
theorem settings_read_or_refused_iff (levels : SettingsError → ℕ)
    (entries : List (ConfigValue × ConfigValue)) :
    (((∃ s, ofEntries entries = .ok s ∧ ValidFor entries s) ∨
        ∃ e message, (ofEntries entries).mapError (fun e => e.orUnshowable (levels e)) = .error e ∧
          e.message? = some message) ↔
      ∀ fault ∈ (faults entries).head?, fault.Refuses (levels fault)) ∧
    ((∃ s, ofEntries entries = .ok s) ↔ faults entries = []) := by
  have hfaults := failsFirst_ofEntries entries
  refine ⟨?_, hfaults.ok_iff⟩
  cases hread : ofEntries entries with
  | ok s =>
    have hnone : faults entries = [] := hfaults.ok_iff.mp ⟨s, hread⟩
    rw [hnone]
    exact ⟨fun _ => nofun, fun _ => .inl ⟨s, rfl, validFor_of_ofEntries hread⟩⟩
  | error e =>
    have hfirst : (faults entries).head? = some e := hfaults.error_iff.mp hread
    rw [hfirst]
    constructor
    · rintro (⟨s, hs, -⟩ | ⟨e', message, he', hmessage⟩) fault hfault
      · exact nomatch hs
      · obtain rfl := Option.some.inj hfault
        obtain rfl := Except.error.inj he'
        exact (SettingsError.message?_orUnshowable_iff _ _).mp ⟨message, hmessage⟩
    · intro hrefuses
      obtain ⟨message, hmessage⟩ :=
        (SettingsError.message?_orUnshowable_iff _ _).mpr (hrefuses e rfl)
      exact .inr ⟨_, message, rfl, hmessage⟩

/-- A list as the report format is looked for among the formats although it is no key, and so gives
no configuration error. -/
theorem list_as_format_fails :
    let entries : List (ConfigValue × ConfigValue) :=
      [("settings", .map [("output_format", .list [])])]
    ¬((∃ s, ofEntries entries = .ok s ∧ ValidFor entries s) ∨
      ∃ e message, (ofEntries entries).mapError (SettingsError.orUnshowable shownLevels) = .error e ∧
        e.message? = some message) := by
  intro entries
  have hread : ofEntries entries = .error (.shape .key) := rfl
  rintro (⟨s, hs, -⟩ | ⟨e, message, he, hmessage⟩)
  · rw [hread] at hs
    exact nomatch hs
  · rw [hread] at he
    obtain rfl := Except.error.inj he
    exact nomatch hmessage

/-- An empty list inside so many lists. -/
def nestedList : ℕ → ConfigValue
  | 0 => .list []
  | n + 1 => .list [nestedList n]

theorem obstacle?_nestedList (levels n : ℕ) :
    (nestedList n).obstacle? levels = if n ≤ levels then none else some .depth := by
  induction n generalizing levels with
  | zero => simp [nestedList, obstacle?, itemsObstacle?]
  | succ n ih =>
    cases levels with
    | zero => simp [nestedList, obstacle?, itemsObstacle?]
    | succ levels => simp [nestedList, obstacle?, itemsObstacle?, ih]

/-- A list as the limit of passes gives a configuration error as long as it can be shown, and another
failure when it is nested too deeply for that. -/
theorem ofEntries_nestedList (levels n : ℕ) :
    (ofEntries [("settings", .map [("max_fix_passes", nestedList n)])]).mapError
        (SettingsError.orUnshowable levels) =
      .error (if n ≤ levels then .passes (nestedList n) else .scalar .depth) := by
  have hread : ofEntries [("settings", .map [("max_fix_passes", nestedList n)])] =
      .error (.passes (nestedList n)) := by
    cases n <;> rfl
  rw [hread]
  change Except.error (SettingsError.orUnshowable levels (.passes (nestedList n))) = _
  simp only [SettingsError.orUnshowable, obstacle?_nestedList]
  by_cases h : n ≤ levels
  · simp only [if_pos h]
  · simp only [if_neg h]

-- A refused limit, and the message that shows it.
example : ∃ e, (ofEntries [("settings", .map [("max_fix_passes",
      .list ["it's", .null, .int (-1), .map [(.bool true, .pair "x" (.set ["y"]))]])])]).mapError
        (SettingsError.orUnshowable shownLevels) = .error e ∧
      e.message? = some ("max_fix_passes must be a positive integer, got " ++
        "[\"it's\", None, -1, \x7bTrue: ('x', \x7b'y'\x7d)\x7d]").toList :=
  ⟨_, rfl, by decide +kernel⟩

end Settings

end LintDirectives
