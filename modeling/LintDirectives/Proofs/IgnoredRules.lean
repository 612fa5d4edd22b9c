import LintDirectives.FindingCode
import LintDirectives.RulePattern
import LintDirectives.Settings
import LintDirectives.Proofs.FailingSteps
import Mathlib.Data.List.Basic

/-!
# Ignored rules

Globs may be listed under the full name of a rule and under its short code. Where there are any under
the full name, they are the only ones that are asked for. So a diagnostic is ignored as if both lists
were one, unless the globs under its full name let it through and thereby hide one under its short
code that would not. In this way, and in no other, ignoring more files brings a diagnostic back.
-/

namespace LintDirectives

open FailingSteps

/-! ## Globs -/

namespace Glob

theorem headD_anyFrom (l : List Bool) : (anyFrom l).headD false = l.any id := by
  induction l with
  | nil => rfl
  | cons b rest ih => rw [anyFrom, ih, List.headD_cons, List.any_cons, id]

/-- The star alone matches every text. -/
theorem accepts_wildcard (t : Text) : accepts wildcard t = true := by
  have hpieces : pieces wildcard = [.star] := by decide +kernel
  rw [accepts, hpieces, tailMatches, headD_anyFrom]
  simp [tailMatches]

end Glob

/-- One of some globs is the star or matches the file of a diagnostic. -/
def Diagnostic.isIgnoredBy (d : Diagnostic) (globs : List Text) : Bool :=
  globs.any fun glob => glob == wildcard || Glob.accepts glob d.location.file

theorem Diagnostic.isIgnoredBy_eq (d : Diagnostic) (globs : List Text) :
    d.isIgnoredBy globs = globs.any (Glob.accepts · d.location.file) := by
  rw [isIgnoredBy]
  congr 1
  funext glob
  by_cases h : glob = wildcard
  · rw [h, Glob.accepts_wildcard, Bool.or_true]
  · simp [h]

theorem Diagnostic.isIgnoredBy_mono (d : Diagnostic) {globs more : List Text} (h : globs ⊆ more)
    (hignored : d.isIgnoredBy globs) : d.isIgnoredBy more := by
  obtain ⟨glob, hglob, hhit⟩ := List.any_eq_true.mp hignored
  exact List.any_eq_true.mpr ⟨glob, h hglob, hhit⟩

/-! ## Globs listed under rules -/

/-- Lists of globs under full names of rules or short codes. -/
abbrev RuleGlobs := KeyedList Text (List Text)

namespace RuleGlobs

variable {rules : RuleGlobs} {d : Diagnostic} {name : Text} {globs : List Text}

/-- The entries of the mapping that stands in settings. -/
def entries (rules : RuleGlobs) : List (ConfigValue × ConfigValue) :=
  rules.map fun (name, globs) => (.text name, .list (globs.map .text))

def under (rules : RuleGlobs) (name : Text) : List Text :=
  (KeyedList.get? name rules).getD []

/-- The globs that are asked for a diagnostic. -/
def consulted (rules : RuleGlobs) (d : Diagnostic) : List Text :=
  if rules.under d.rule = [] then rules.under d.code else rules.under d.rule

/-- One of the globs under either name of its rule ignores a diagnostic. -/
def ignoredByEither (rules : RuleGlobs) (d : Diagnostic) : Bool :=
  d.isIgnoredBy (rules.under d.rule) || d.isIgnoredBy (rules.under d.code)

/-- The globs under the full name of its rule let a diagnostic through, and those under its short
code would not. -/
structure Hides (rules : RuleGlobs) (d : Diagnostic) : Prop where
  listed : rules.under d.rule ≠ []
  passed : d.isIgnoredBy (rules.under d.rule) = false
  hidden : d.isIgnoredBy (rules.under d.code)

/-! ## Looking globs up -/

theorem lookup?_entries (rules : RuleGlobs) (name : Text) :
    ConfigValue.lookup? name rules.entries =
      (KeyedList.get? name rules).map fun globs => .list (globs.map .text) := by
  induction rules with
  | nil => rfl
  | cons entry rest ih =>
    rw [ConfigValue.lookup?, entries] at ih ⊢
    by_cases h : entry.1 = name
    · simp [ConfigValue.sameKey, KeyedList.get?, h]
    · simpa [ConfigValue.sameKey, KeyedList.get?, h] using ih

theorem rulePatterns_entries (rules : RuleGlobs) (d : Diagnostic) :
    Settings.rulePatterns rules.entries d.rule d.code =
      .list ((rules.consulted d).map .text) := by
  have hcode : (ConfigValue.lookup? d.code rules.entries).getD (.list []) =
      .list ((rules.under d.code).map .text) := by
    rw [lookup?_entries, under]
    cases KeyedList.get? d.code rules <;> rfl
  rw [Settings.rulePatterns, hcode, lookup?_entries]
  cases hrule : KeyedList.get? d.rule rules with
  | none => simp [consulted, under, hrule]
  | some globs => cases globs <;> simp [consulted, under, hrule, ConfigValue.isTruthy]

theorem under_put (rules : RuleGlobs) (name name' : Text) (globs : List Text) :
    under (KeyedList.put name globs rules) name' =
      if name' = name then globs else rules.under name' := by
  by_cases h : name' = name
  · rw [if_pos h, h, under, KeyedList.put, KeyedList.get?_update_self]
    rfl
  · rw [if_neg h, under, KeyedList.put, KeyedList.get?_update_of_ne h]
    rfl

/-! ## Both lists and the one that is asked for -/

/-- The list that is asked for ignores what both do, unless it hides the other one. -/
theorem isIgnoredBy_consulted_iff :
    d.isIgnoredBy (rules.consulted d) = rules.ignoredByEither d ↔ ¬ rules.Hides d := by
  by_cases hrule : rules.under d.rule = []
  · have heither : rules.ignoredByEither d = d.isIgnoredBy (rules.under d.code) := by
      rw [ignoredByEither, hrule]
      rfl
    rw [consulted, if_pos hrule, heither]
    exact ⟨fun _ hhides => hhides.listed hrule, fun _ => rfl⟩
  · rw [consulted, if_neg hrule, ignoredByEither]
    constructor
    · intro heq hhides
      rw [hhides.passed, hhides.hidden] at heq
      exact nomatch heq
    · intro hfree
      cases hpassed : d.isIgnoredBy (rules.under d.rule) with
      | true => rfl
      | false =>
        cases hhidden : d.isIgnoredBy (rules.under d.code) with
        | true => exact absurd ⟨hrule, hpassed, hhidden⟩ hfree
        | false => rfl

theorem under_subset_put (hmore : rules.under name ⊆ globs) (name' : Text) :
    rules.under name' ⊆ under (KeyedList.put name globs rules) name' := by
  rw [under_put]
  split
  · next h => exact h ▸ hmore
  · exact fun _ hglob => hglob

/-- A diagnostic comes back when more globs are listed exactly if they are the first under its full
name and hide those under its short code. -/
theorem back_iff_hides (hmore : rules.under name ⊆ globs) :
    (d.isIgnoredBy (rules.consulted d) = true ∧
      d.isIgnoredBy (consulted (KeyedList.put name globs rules) d) = false) ↔
    name = d.rule ∧ rules.under d.rule = [] ∧ Hides (KeyedList.put name globs rules) d := by
  constructor
  · rintro ⟨hbefore, hafter⟩
    -- a list that only grew would still ignore the diagnostic
    have hgrown (h : rules.consulted d ⊆ consulted (KeyedList.put name globs rules) d) : False := by
      rw [d.isIgnoredBy_mono h hbefore] at hafter
      exact nomatch hafter
    have hfirst : rules.under d.rule = [] := by
      by_contra hrule
      have hsub := under_subset_put hmore d.rule
      have hrule' : under (KeyedList.put name globs rules) d.rule ≠ [] := fun hnil =>
        hrule (List.subset_nil.mp (hnil ▸ hsub))
      exact hgrown (by rwa [consulted, consulted, if_neg hrule, if_neg hrule'])
    have hlisted : under (KeyedList.put name globs rules) d.rule ≠ [] := fun hnil => by
      have hsub := under_subset_put hmore d.code
      exact hgrown (by rwa [consulted, consulted, if_pos hfirst, if_pos hnil])
    rw [consulted, if_pos hfirst] at hbefore
    rw [consulted, if_neg hlisted] at hafter
    refine ⟨?_, hfirst, hlisted, hafter, ?_⟩
    · by_contra hname
      rw [under_put, if_neg (Ne.symm hname)] at hlisted
      exact hlisted hfirst
    · exact d.isIgnoredBy_mono (under_subset_put hmore d.code) hbefore
  · rintro ⟨rfl, hfirst, hlisted, hpassed, hhidden⟩
    rw [consulted, consulted, if_pos hfirst, if_neg hlisted]
    refine ⟨?_, hpassed⟩
    have hcode : d.code ≠ d.rule := fun hcode => by
      rw [hcode, hpassed] at hhidden
      exact nomatch hhidden
    rwa [under_put, if_neg hcode] at hhidden

end RuleGlobs

/-! ## What is left out -/

namespace Settings

theorem anyGlob_texts (path : Text) (globs : List Text) :
    anyGlob path (globs.map .text) = .ok (globs.any (Glob.accepts · path)) := by
  induction globs with
  | nil => rfl
  | cons glob rest ih =>
    rw [List.map_cons, anyGlob, List.any_cons, ih]
    cases Glob.accepts glob path <;> rfl

variable {s : Settings} {rules : RuleGlobs}

theorem ignoresDiagnostic_entries (h : s.ignoreRules = .map rules.entries) (d : Diagnostic) :
    s.ignoresDiagnostic d = .ok (d.isIgnoredBy (rules.consulted d)) := by
  rw [ignoresDiagnostic, h]
  cases rules with
  | nil => rfl
  | cons entry rest =>
    have hread : (elements (rulePatterns (RuleGlobs.entries (entry :: rest)) d.rule d.code) >>=
        anyGlob d.location.file) = .ok (d.isIgnoredBy (RuleGlobs.consulted (entry :: rest) d)) := by
      rw [RuleGlobs.rulePatterns_entries, d.isIgnoredBy_eq, ← anyGlob_texts]
      rfl
    exact hread

theorem withoutIgnored_entries (h : s.ignoreRules = .map rules.entries) (ds : List Diagnostic) :
    s.withoutIgnored ds = .ok (ds.filter fun d => !d.isIgnoredBy (rules.consulted d)) := by
  induction ds with
  | nil => rfl
  | cons d ds ih =>
    refine bind_eq_ok.mpr ⟨_, ignoresDiagnostic_entries h d, bind_eq_ok.mpr ⟨_, ih, ?_⟩⟩
    cases hignored : d.isIgnoredBy (rules.consulted d) with
    | true =>
      rw [if_pos rfl, List.filter_cons_of_neg (by simp [hignored])]
      rfl
    | false =>
      rw [if_neg Bool.false_ne_true, List.filter_cons_of_pos (by simp [hignored])]
      rfl

/-- Filtering keeps, in order, the diagnostics that no glob ignores of the one list that is asked for.
This is what both lists ignore together except where the list under the full name hides the one under
the short code. And where globs are added, under a new name or under one that has some, a diagnostic
comes back exactly if they are the first under its full name and hide those under its short code. -/
theorem withoutIgnored_asks_one_list (s : Settings) (rules : RuleGlobs) :
    (∀ ds, withoutIgnored { s with ignoreRules := .map rules.entries } ds =
      .ok (ds.filter fun d => !d.isIgnoredBy (rules.consulted d))) ∧
    (∀ d, d.isIgnoredBy (rules.consulted d) = rules.ignoredByEither d ↔ ¬ rules.Hides d) ∧
    ∀ d name globs, rules.under name ⊆ globs →
      ((d.isIgnoredBy (rules.consulted d) = true ∧
          d.isIgnoredBy (RuleGlobs.consulted (KeyedList.put name globs rules) d) = false) ↔
        name = d.rule ∧ rules.under d.rule = [] ∧
          RuleGlobs.Hides (KeyedList.put name globs rules) d) :=
  ⟨withoutIgnored_entries rfl, fun _ => RuleGlobs.isIgnoredBy_consulted_iff,
    fun _ _ _ => RuleGlobs.back_iff_hides⟩

private def bareIgnoreInSources : Diagnostic where
  check := "directives"
  rule := "Scalpel.Directives.BareIgnore"
  location := { file := "src/a.py", line := 1 }
  severity := .error
  message := FindingMessage.bareIgnore

/-- Globs for a directory under the short code of that rule. -/
private def sourcesByCode : RuleGlobs := [("BareIgnore", ["src/*".toList])]

/-- The same, and globs for another directory under its full name. -/
private def sourcesAndTests : RuleGlobs :=
  KeyedList.put "Scalpel.Directives.BareIgnore" ["tests/*".toList] sourcesByCode

/-- A diagnostic comes back when another directory is listed under its full name. -/
theorem other_directory_brings_back :
    sourcesByCode.under "Scalpel.Directives.BareIgnore" ⊆ ["tests/*".toList] ∧
    sourcesAndTests.Hides bareIgnoreInSources ∧
    bareIgnoreInSources.isIgnoredBy (sourcesByCode.consulted bareIgnoreInSources) = true ∧
    bareIgnoreInSources.isIgnoredBy (sourcesAndTests.consulted bareIgnoreInSources) = false := by
  have hmore : sourcesByCode.under "Scalpel.Directives.BareIgnore" ⊆ ["tests/*".toList] := by
    decide +kernel
  have hhides : sourcesAndTests.Hides bareIgnoreInSources := {
    listed := by decide +kernel
    passed := by decide +kernel
    hidden := by decide +kernel }
  have hback := ((withoutIgnored_asks_one_list {} sourcesByCode).2.2 bareIgnoreInSources
    "Scalpel.Directives.BareIgnore" ["tests/*".toList] hmore).mpr ⟨rfl, by decide +kernel, hhides⟩
  exact ⟨hmore, hhides, hback⟩

/-- Two entries do not act as their union: a diagnostic that the glob under its short code matches is
kept, and without the other entry it is not. -/
theorem full_name_hides_short_code :
    withoutIgnored { ignoreRules := .map sourcesAndTests.entries } [bareIgnoreInSources] =
      .ok [bareIgnoreInSources] ∧
    sourcesAndTests.ignoredByEither bareIgnoreInSources = true ∧
    withoutIgnored { ignoreRules := .map sourcesByCode.entries } [bareIgnoreInSources] =
      .ok [] := by
  refine ⟨?_, by decide +kernel, ?_⟩
  · rw [withoutIgnored_entries rfl]
    have hpassed : bareIgnoreInSources.isIgnoredBy
        (sourcesAndTests.consulted bareIgnoreInSources) = false := by
      decide +kernel
    simp [hpassed]
  · rw [withoutIgnored_entries rfl]
    have hignored : bareIgnoreInSources.isIgnoredBy
        (sourcesByCode.consulted bareIgnoreInSources) = true := by
      decide +kernel
    simp [hignored]

end Settings

end LintDirectives
