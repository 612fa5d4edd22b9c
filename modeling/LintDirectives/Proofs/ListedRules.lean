import LintDirectives.Proofs.IgnoredRules
import LintDirectives.Proofs.KeyedGroups
import LintDirectives.Proofs.SettingsFaults
import LintDirectives.Proofs.TextSearch
import Mathlib.Data.List.TakeWhile

/-!
# Ignored rules given as a list

Ignored rules can be listed one glob at a time, each with the name of its rule before a colon. Reading
such a list puts the globs of each rule together. It cannot fail, and it gives what the mapping from
the rules to their globs gives in its place, so that both ignore the same diagnostics.
-/

namespace LintDirectives

open FailingSteps

namespace ConfigValue

variable {v w : ConfigValue} {key key' : Text} {entries : List (ConfigValue × ConfigValue)}

theorem sameKey_text_iff : v.sameKey (.text key) ↔ v = .text key := by
  cases v with
  | text t => simp [sameKey]
  | _ => simp [sameKey, number?]

theorem lookup?_insert_self (key : Text) (v : ConfigValue)
    (entries : List (ConfigValue × ConfigValue)) :
    lookup? key (insert (.text key) v entries) = some v := by
  induction entries with
  | nil => simp [lookup?, insert, sameKey]
  | cons entry rest ih =>
    rw [lookup?] at ih ⊢
    by_cases h : entry.1.sameKey (.text key)
    · simp [insert, h]
    · simp [insert, h, ih]

theorem lookup?_insert_of_ne (h : key' ≠ key) (v : ConfigValue)
    (entries : List (ConfigValue × ConfigValue)) :
    lookup? key' (insert (.text key) v entries) = lookup? key' entries := by
  have hother (k : ConfigValue) (hk : k.sameKey (.text key)) : ¬ k.sameKey (.text key') := by
    rw [sameKey_text_iff] at hk ⊢
    rw [hk]
    exact fun heq => h (ConfigValue.text.inj heq).symm
  induction entries with
  | nil => simp [lookup?, insert, hother (.text key) (sameKey_text_iff.mpr rfl)]
  | cons entry rest ih =>
    rw [lookup?, lookup?] at ih ⊢
    by_cases hk : entry.1.sameKey (.text key)
    · simp [insert, hk, hother entry.1 hk]
    · by_cases hk' : entry.1.sameKey (.text key')
      · simp [insert, hk, hk']
      · simp [insert, hk, hk', ih]

end ConfigValue

/-! ## Entries of a list -/

/-- The rule that an entry names: what stands before its first colon. -/
def listedRule (t : Text) : Text :=
  t.takeWhile (· ≠ ':')

/-- The glob that an entry gives for its rule, which is every file if there is no colon. -/
def listedGlob (t : Text) : Text :=
  if ':' ∈ t then (t.dropWhile (· ≠ ':')).tail else wildcard

def RuleGlobs.ofListed (ts : List Text) : RuleGlobs :=
  KeyedList.group (ts.map fun t => (listedRule t, listedGlob t))

theorem RuleGlobs.keys_ofListed (ts : List Text) :
    KeyedList.keys (ofListed ts) = (ts.map listedRule).eraseDups := by
  rw [ofListed, KeyedList.keys_group, List.map_map]
  rfl

theorem RuleGlobs.under_ofListed (ts : List Text) (name : Text) :
    (ofListed ts).under name = (ts.filter fun t => listedRule t = name).map listedGlob := by
  rw [under, ofListed, KeyedList.group_eq, KeyedList.get?_map_pair, List.filter_map, List.map_map,
    List.map_map]
  by_cases h : ∃ t ∈ ts, listedRule t = name
  · rw [if_pos (by simpa using h)]
    rfl
  · have hnone : ts.filter (fun t => listedRule t = name) = [] := by simpa using h
    rw [if_neg (by simpa using h), hnone]
    rfl

namespace Settings

open ConfigValue

variable {entries : List (ConfigValue × ConfigValue)} {v w : ConfigValue} {ts : List Text}

theorem splitRule_eq (t : Text) : splitRule t = (listedRule t, listedGlob t) := by
  have hcut : Text.cut? ":" t = Text.cut? [':'] t := rfl
  rw [splitRule, hcut, Text.cut?_singleton, listedGlob]
  by_cases h : ':' ∈ t
  · rw [if_pos h, if_pos h]
    rfl
  · have hwhole : listedRule t = t := List.takeWhile_eq_self_iff.mpr fun c hc =>
      decide_eq_true fun heq => h (heq ▸ hc)
    rw [if_neg h, if_neg h, hwhole]
    rfl

theorem mapM_readRule (ts : List Text) : (ts.map ConfigValue.text).mapM readRule =
    .ok (ts.map fun t => (.text (listedRule t), listedGlob t)) := by
  induction ts with
  | nil => rfl
  | cons t ts ih =>
    have hread : readRule (.text t) = .ok (.text (splitRule t).1, (splitRule t).2) := rfl
    rw [splitRule_eq] at hread
    rw [List.map_cons, List.mapM_cons, hread, ih]
    rfl

theorem addPattern_text (name glob : Text) (rules : RuleGlobs) :
    addPattern (.text name) glob (rules.map fun entry => (.text entry.1, entry.2)) =
      (KeyedList.update name (·.getD [] ++ [glob]) rules).map fun entry =>
        (.text entry.1, entry.2) := by
  induction rules with
  | nil => rfl
  | cons entry rest ih =>
    by_cases h : entry.1 = name <;> simp [addPattern, sameKey, KeyedList.update, h, ih]

theorem groupRules_texts (pairs : List (Text × Text)) :
    groupRules (pairs.map fun pair => (.text pair.1, pair.2)) =
      (KeyedList.group pairs).map fun entry => (.text entry.1, entry.2) := by
  have hrun (rules : RuleGlobs) :
      (pairs.map fun pair => (ConfigValue.text pair.1, pair.2)).foldl
        (fun groups rule => addPattern rule.1 rule.2 groups)
        (rules.map fun entry => (.text entry.1, entry.2)) =
      (pairs.foldl (fun groups pair => KeyedList.update pair.1 (·.getD [] ++ [pair.2]) groups)
        rules).map fun entry => (.text entry.1, entry.2) := by
    induction pairs generalizing rules with
    | nil => rfl
    | cons pair pairs ih =>
      rw [List.map_cons, List.foldl_cons, List.foldl_cons, ← ih, addPattern_text]
  exact hrun []

theorem readRules_listed (ts : List Text) : readRules (some (.list (ts.map .text))) =
    .ok (.map (RuleGlobs.ofListed ts).entries) := by
  have hgroups := groupRules_texts (ts.map fun t => (listedRule t, listedGlob t))
  rw [List.map_map] at hgroups
  have hread : readRules (some (.list (ts.map .text))) = ((ts.map ConfigValue.text).mapM readRule).map
      fun rules => .map ((groupRules rules).map fun rule => (rule.1, .list (rule.2.map .text))) := rfl
  rw [hread, mapM_readRule]
  refine congrArg (fun l => Except.ok (ConfigValue.map l)) ?_
  exact (congrArg _ hgroups).trans (List.map_map ..)

/-! ## Configurations with such a list -/

def withRules (v : ConfigValue) (entries : List (ConfigValue × ConfigValue)) :
    List (ConfigValue × ConfigValue) :=
  insert "ignore" (.map (insert "rules" v (sectionOf "ignore" entries))) entries

def readAround (entries : List (ConfigValue × ConfigValue)) (ignoreRules : ConfigValue) :
    Except SettingsError Settings := do
  let checks ← readChecks (lookup? "checks" entries)
  let settings ← section? (lookup? "settings" entries)
  let failOn ← readFailOn (lookup? "fail_on" settings)
  let format ← readFormat ((lookup? "output_format" settings).getD "text")
  let passes ← readPasses ((lookup? "max_fix_passes" settings).getD (.int 10))
  return { checks, format, failOn, passes, ignoreRules
           ignorePaths := readPaths (lookup? "paths" (sectionOf "ignore" entries)) }

theorem ofEntries_eq_readAround (h : lookup? "rules" (sectionOf "ignore" entries) = some v)
    (hread : readRules (some v) = .ok w) : ofEntries entries = readAround entries w := by
  have hsection : section? (lookup? "ignore" entries) = .ok (sectionOf "ignore" entries) := by
    rw [sectionOf] at h ⊢
    cases hignore : lookup? "ignore" entries with
    | none => rfl
    | some x =>
      rw [hignore, Option.map_some, Option.getD_some, inside] at h
      rw [section?, Option.map_some, Option.map_some, Option.getD_some, inside]
      cases hx : x.unwrapped with
      | null => rfl
      | map inner => rfl
      | _ =>
        rw [hx] at h
        cases h
  rw [ofEntries, hsection, readAround]
  refine bind_congr fun checks => bind_congr fun settings => bind_congr fun failOn => ?_
  have hrules : readRules (lookup? "rules" (sectionOf "ignore" entries)) = .ok w := h ▸ hread
  change (readRules (lookup? "rules" (sectionOf "ignore" entries)) >>= fun _ => _) = _
  rw [hrules]
  rfl

theorem sectionOf_withRules (v : ConfigValue) (entries : List (ConfigValue × ConfigValue)) :
    sectionOf "ignore" (withRules v entries) = insert "rules" v (sectionOf "ignore" entries) := by
  rw [sectionOf, withRules, lookup?_insert_self]
  rfl

/-- Other ignored rules change nothing around them. -/
theorem readAround_withRules (v w : ConfigValue) (entries : List (ConfigValue × ConfigValue)) :
    readAround (withRules v entries) w = readAround entries w := by
  have hchecks : lookup? "checks" (withRules v entries) = lookup? "checks" entries :=
    lookup?_insert_of_ne (by decide) _ _
  have hsettings : lookup? "settings" (withRules v entries) = lookup? "settings" entries :=
    lookup?_insert_of_ne (by decide) _ _
  have hpaths : lookup? "paths" (sectionOf "ignore" (withRules v entries)) =
      lookup? "paths" (sectionOf "ignore" entries) := by
    rw [sectionOf_withRules]
    exact lookup?_insert_of_ne (by decide) _ _
  rw [readAround, hchecks, hsettings, hpaths, readAround]

theorem ofEntries_withRules (entries : List (ConfigValue × ConfigValue))
    (hread : readRules (some v) = .ok w) : ofEntries (withRules v entries) = readAround entries w := by
  rw [← readAround_withRules v]
  refine ofEntries_eq_readAround ?_ hread
  rw [sectionOf_withRules]
  exact lookup?_insert_self _ _ _

theorem readAround_map (entries : List (ConfigValue × ConfigValue)) (v w : ConfigValue) :
    readAround entries v = (readAround entries w).map fun s => { s with ignoreRules := v } := by
  simp only [readAround, map_bind]
  rfl

/-- A list of entries is read as the mapping from the distinct rules that it names, in the order in
which they first come, to the globs that it gives for each of them in turn. Settings with that mapping
are read exactly if nothing else is wrong with the configuration. The configuration with the mapping in
place of the list gives the same settings, and these are the ones that it gives without ignored rules
but for that mapping. So it leaves out what the globs of the listed entries ignore. -/
theorem listed_rules_mean_mapping (ts : List Text) : ∃ rules : RuleGlobs,
    KeyedList.keys rules = (ts.map listedRule).eraseDups ∧
    (∀ name, rules.under name = (ts.filter fun t => listedRule t = name).map listedGlob) ∧
    ∀ entries, lookup? "rules" (sectionOf "ignore" entries) = some (.list (ts.map .text)) →
      ((∃ s, ofEntries entries = .ok s ∧ s.ignoreRules = .map rules.entries) ↔
        faults (withRules .null entries) = []) ∧
      ofEntries entries = ofEntries (withRules (.map rules.entries) entries) ∧
      (ofEntries entries = (ofEntries (withRules .null entries)).map fun s =>
        { s with ignoreRules := .map rules.entries }) ∧
      ∀ ds, (ofEntries entries >>= fun s => s.withoutIgnored ds) =
        (ofEntries (withRules .null entries)).map fun _ =>
          ds.filter fun d => !d.isIgnoredBy (rules.consulted d) := by
  refine ⟨.ofListed ts, RuleGlobs.keys_ofListed ts, RuleGlobs.under_ofListed ts, fun entries h => ?_⟩
  have hlisted := ofEntries_eq_readAround h (readRules_listed ts)
  have hmapped := ofEntries_withRules (v := .map (RuleGlobs.ofListed ts).entries) entries rfl
  have hnone := ofEntries_withRules (v := .null) entries rfl
  have hsame := readAround_map entries (.map (RuleGlobs.ofListed ts).entries) (.map [])
  have hfaults := (failsFirst_ofEntries (withRules .null entries)).ok_iff
  rw [hnone] at hfaults
  rw [hlisted, hmapped, hnone]
  refine ⟨?_, rfl, hsame, fun ds => ?_⟩
  · rw [← hfaults, hsame]
    constructor
    · rintro ⟨s, hs, -⟩
      obtain ⟨s', hs', -⟩ := map_eq_ok.mp hs
      exact ⟨s', hs'⟩
    · rintro ⟨s, hs⟩
      exact ⟨_, map_eq_ok.mpr ⟨s, hs, rfl⟩, rfl⟩
  rw [hsame]
  cases readAround entries (.map []) with
  | error e => rfl
  | ok s => exact withoutIgnored_entries rfl ds

/-- Entries of two rules that come in turns, one of them with a colon in its glob. Nothing is wrong with
the configuration, so that settings with the globs of these rules are read. -/
theorem listed_rules_in_turns :
    let entries : List (ConfigValue × ConfigValue) :=
      [("settings", .map [("fail_on", "none")]),
        ("ignore", .map [("rules", .list ["B:x/*", "A", "B:c:d", "A:"]), ("paths", .null)])]
    lookup? "rules" (sectionOf "ignore" entries) =
      some (.list ((["B:x/*", "A", "B:c:d", "A:"] : List Text).map .text)) ∧
    ∃ rules : RuleGlobs, KeyedList.keys rules = ["B", "A"] ∧ rules.under "B" = ["x/*", "c:d"] ∧
      rules.under "A" = ["*", ""] ∧
      (∃ s, ofEntries entries = .ok s ∧ s.ignoreRules = .map rules.entries) ∧
      ofEntries entries = ofEntries (withRules (.map rules.entries) entries) := by
  intro entries
  have hrules : lookup? "rules" (sectionOf "ignore" entries) =
      some (.list ((["B:x/*", "A", "B:c:d", "A:"] : List Text).map .text)) := rfl
  obtain ⟨rules, hkeys, hunder, hread⟩ := listed_rules_mean_mapping ["B:x/*", "A", "B:c:d", "A:"]
  obtain ⟨hread, hsame, -⟩ := hread entries hrules
  refine ⟨hrules, rules, hkeys.trans ?_, (hunder "B").trans ?_, (hunder "A").trans ?_,
    hread.mpr rfl, hsame⟩ <;> decide

end Settings

end LintDirectives
