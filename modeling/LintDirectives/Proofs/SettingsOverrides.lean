import LintDirectives.Proofs.SettingsFaults

/-!
# Overrides of settings

Each time overrides are laid over settings, all settings are made and checked anew. The settings
before were checked already, so only the given values can be refused, and those that stay cannot.
Therefore each setting holds the last value that was given for it and not refused, and overrides
that follow each other act like one.
-/

namespace LintDirectives.Settings

open FailingSteps

namespace Overrides

/-- The values of one setting that some overrides give, the last of them. -/
def lastGiven {α : Type} (given : Overrides → Option α) (os : List Overrides) : Option α :=
  (os.filterMap given).getLast?

/-- Overrides laid over others, which stay where nothing is given. -/
def laidOver (o' o : Overrides) : Overrides where
  format := o'.format.or o.format
  failOn := o'.failOn.or o.failOn
  passes := o'.passes.or o.passes

/-- Overrides that give no value but such that settings can hold. -/
structure Valid (o : Overrides) : Prop where
  format : ∀ v ∈ o.format, ∃ format : ReportFormat, v.unwrapped = .text format.name
  passes : ∀ v ∈ o.passes, ∃ limit : PassLimit, v = limit.value

theorem lastGiven_append {α : Type} (given : Overrides → Option α) (os os' : List Overrides) :
    lastGiven given (os ++ os') = (lastGiven given os').or (lastGiven given os) := by
  rw [lastGiven, List.filterMap_append, List.getLast?_append]
  rfl

theorem lastGiven_singleton {α : Type} (given : Overrides → Option α) (o : Overrides) :
    lastGiven given [o] = given o := by
  rw [lastGiven, List.filterMap_cons, List.filterMap_nil]
  cases given o <;> rfl

end Overrides

open Overrides

variable {s s' s'' : Settings} {o o' : Overrides} {os os' : List Overrides}
  {v w x : ConfigValue} {items : List ConfigValue} {entries : List (ConfigValue × ConfigValue)}
  {format : ReportFormat} {limit : PassLimit}

/-! ## Values that are taken -/

theorem readFormat_eq_ok_iff : readFormat v = .ok format ↔ v.unwrapped = .text format.name := by
  refine ⟨readFormat_eq_ok, fun h => ?_⟩
  have hname : ReportFormat.ofName? format.name = some format := by cases format <;> decide
  rw [readFormat, h]
  dsimp only
  rw [hname]

theorem readPasses_eq_ok_iff : readPasses v = .ok limit ↔ v = limit.value := by
  refine ⟨fun h => (readPasses_eq_ok h).1, ?_⟩
  rintro rfl
  cases limit with
  | number n hn =>
    have hpos : (0 : Int) < n := by omega
    rw [PassLimit.value, readPasses, PassLimit.ofValue?, dif_pos hpos]
    rfl
  | yes => rfl

/-- Settings whose format and limit are accepted when they are read once more. -/
structure Accepted (s : Settings) : Prop where
  format : readFormat (.text s.format.name) = .ok s.format
  passes : readPasses s.passes.value = .ok s.passes

theorem accepted (s : Settings) : s.Accepted where
  format := readFormat_eq_ok_iff.mpr rfl
  passes := readPasses_eq_ok_iff.mpr rfl

def formatUnder (s : Settings) (o : Overrides) : Except SettingsError ReportFormat :=
  match o.format with
  | some v => readFormat v
  | none => .ok s.format

def passesUnder (s : Settings) (o : Overrides) : Except SettingsError PassLimit :=
  match o.passes with
  | some v => readPasses v
  | none => .ok s.passes

theorem formatUnder_eq_ok_iff : s.formatUnder o = .ok format ↔
    (o.format.getD (.text s.format.name)).unwrapped = .text format.name := by
  unfold formatUnder
  cases o.format with
  | some v => exact readFormat_eq_ok_iff
  | none =>
    rw [← s.accepted.format]
    exact readFormat_eq_ok_iff

theorem passesUnder_eq_ok_iff : s.passesUnder o = .ok limit ↔
    o.passes.getD s.passes.value = limit.value := by
  unfold passesUnder
  cases o.passes with
  | some v => exact readPasses_eq_ok_iff
  | none =>
    rw [← s.accepted.passes]
    exact readPasses_eq_ok_iff

/-- What stays is valid, so only what is given can be refused. -/
theorem exists_under_iff : ((∃ format, s.formatUnder o = .ok format) ∧
    ∃ limit, s.passesUnder o = .ok limit) ↔ o.Valid := by
  simp only [formatUnder_eq_ok_iff, passesUnder_eq_ok_iff]
  constructor
  · rintro ⟨⟨format, hformat⟩, limit, hlimit⟩
    refine ⟨fun v hv => ⟨format, ?_⟩, fun v hv => ⟨limit, ?_⟩⟩
    · rwa [Option.mem_def.mp hv] at hformat
    · rwa [Option.mem_def.mp hv] at hlimit
  · intro hvalid
    constructor
    · cases hgiven : o.format with
      | some v => exact hvalid.format v hgiven
      | none => exact ⟨s.format, rfl⟩
    · cases hgiven : o.passes with
      | some v => exact hvalid.passes v hgiven
      | none => exact ⟨s.passes, rfl⟩

/-! ## One step -/

/-- Ignored paths that are a list and ignored rules that are a mapping. -/
structure HasIgnoreLists (s : Settings) : Prop where
  paths : ∃ items, s.ignorePaths.unwrapped = .list items
  rules : ∃ entries, s.ignoreRules.unwrapped = .map entries

/-- A value as it was, or laid out if it contains itself. -/
def KeptAs (v w : ConfigValue) : Prop := w = v ∨ w = v.unwrapped

theorem KeptAs.trans (hv : v.unwrapped.unwrapped = v.unwrapped) (h : KeptAs v w) (h' : KeptAs w x) :
    KeptAs v x := by
  rcases h with rfl | rfl
  · exact h'
  · rcases h' with rfl | rfl
    · exact .inr rfl
    · exact .inr hv

theorem KeptAs.unwrapped_eq (hv : v.unwrapped.unwrapped = v.unwrapped) (h : KeptAs v w) :
    w.unwrapped = v.unwrapped := by
  rcases h with rfl | rfl
  · rfl
  · exact hv

theorem HasIgnoreLists.paths_unwrapped (h : s.HasIgnoreLists) :
    s.ignorePaths.unwrapped.unwrapped = s.ignorePaths.unwrapped := by
  obtain ⟨items, hitems⟩ := h.paths
  rw [hitems]
  rfl

theorem HasIgnoreLists.rules_unwrapped (h : s.HasIgnoreLists) :
    s.ignoreRules.unwrapped.unwrapped = s.ignoreRules.unwrapped := by
  obtain ⟨entries, hentries⟩ := h.rules
  rw [hentries]
  rfl

/-- Settings hold what was given last in some overrides, or else what they held, and all else is the
same. -/
structure Holds (s : Settings) (os : List Overrides) (s' : Settings) : Prop where
  format : ((lastGiven Overrides.format os).getD (.text s.format.name)).unwrapped =
    .text s'.format.name
  failOn : s'.failOn = (lastGiven Overrides.failOn os).or s.failOn
  passes : (lastGiven Overrides.passes os).getD s.passes.value = s'.passes.value
  checks : s'.checks = s.checks
  ignorePaths : KeptAs s.ignorePaths s'.ignorePaths
  ignoreRules : KeptAs s.ignoreRules s'.ignoreRules

theorem Holds.refl (s : Settings) : s.Holds [] s where
  format := rfl
  failOn := rfl
  passes := rfl
  checks := rfl
  ignorePaths := .inl rfl
  ignoreRules := .inl rfl

theorem Holds.trans (h : s.HasIgnoreLists) (hs : s.Holds os s') (hs' : s'.Holds os' s'') :
    s.Holds (os ++ os') s'' where
  format := by
    have hlast := hs'.format
    rw [lastGiven_append]
    cases hgiven : lastGiven Overrides.format os' with
    | some v =>
      rw [hgiven] at hlast
      exact hlast
    | none =>
      rw [hgiven] at hlast
      rw [Option.none_or, hs.format, ← hlast]
      rfl
  failOn := by
    rw [hs'.failOn, hs.failOn, lastGiven_append, Option.or_assoc]
  passes := by
    rw [← hs'.passes, ← hs.passes, lastGiven_append]
    cases lastGiven Overrides.passes os' <;> rfl
  checks := hs'.checks.trans hs.checks
  ignorePaths := hs.ignorePaths.trans h.paths_unwrapped hs'.ignorePaths
  ignoreRules := hs.ignoreRules.trans h.rules_unwrapped hs'.ignoreRules

theorem HasIgnoreLists.of_holds (h : s.HasIgnoreLists) (hs : s.Holds os s') : s'.HasIgnoreLists := by
  constructor
  · rw [hs.ignorePaths.unwrapped_eq h.paths_unwrapped]
    exact h.paths
  · rw [hs.ignoreRules.unwrapped_eq h.rules_unwrapped]
    exact h.rules

theorem merge_eq (s : Settings) (o : Overrides) : s.merge o = (do
    let paths ← elements s.ignorePaths
    let rules ← pairs s.ignoreRules
    let format ← s.formatUnder o
    let passes ← s.passesUnder o
    return { s with
      format, passes
      failOn := o.failOn.or s.failOn
      ignorePaths := .list paths
      ignoreRules := .map rules }) := by
  obtain ⟨_ | v, _ | severity, _ | n⟩ := o <;> rfl

/-- Everything a step can do. -/
theorem merge_eq_ok_iff (h : s.HasIgnoreLists) : s.merge o = .ok s' ↔ ∃ format passes,
    s.formatUnder o = .ok format ∧ s.passesUnder o = .ok passes ∧ s' = { s with
      format, passes
      failOn := o.failOn.or s.failOn
      ignorePaths := s.ignorePaths.unwrapped
      ignoreRules := s.ignoreRules.unwrapped } := by
  obtain ⟨items, hitems⟩ := h.paths
  obtain ⟨entries, hentries⟩ := h.rules
  have hpaths : elements s.ignorePaths = .ok items := by rw [elements, hitems]
  have hrules : pairs s.ignoreRules = .ok entries := by rw [pairs, hentries]
  rw [merge_eq, hpaths, hrules, hitems, hentries]
  constructor
  · intro hmerge
    obtain ⟨_, ⟨⟩, hmerge⟩ := bind_eq_ok.mp hmerge
    obtain ⟨_, ⟨⟩, hmerge⟩ := bind_eq_ok.mp hmerge
    obtain ⟨format, hformat, hmerge⟩ := bind_eq_ok.mp hmerge
    obtain ⟨passes, hpasses, hmerge⟩ := bind_eq_ok.mp hmerge
    exact ⟨format, passes, hformat, hpasses, (Except.ok.inj hmerge).symm⟩
  · rintro ⟨format, passes, hformat, hpasses, rfl⟩
    refine bind_eq_ok.mpr ⟨items, rfl, bind_eq_ok.mpr ⟨entries, rfl, ?_⟩⟩
    exact bind_eq_ok.mpr ⟨format, hformat, bind_eq_ok.mpr ⟨passes, hpasses, rfl⟩⟩

theorem holds_of_merge (h : s.HasIgnoreLists) (hmerge : s.merge o = .ok s') : s.Holds [o] s' := by
  obtain ⟨format, passes, hformat, hpasses, rfl⟩ := (merge_eq_ok_iff h).mp hmerge
  constructor
  · rw [lastGiven_singleton]
    exact formatUnder_eq_ok_iff.mp hformat
  · rw [lastGiven_singleton]
  · rw [lastGiven_singleton]
    exact passesUnder_eq_ok_iff.mp hpasses
  · rfl
  · exact .inr rfl
  · exact .inr rfl

theorem exists_merge_iff (h : s.HasIgnoreLists) : (∃ s', s.merge o = .ok s') ↔ o.Valid := by
  rw [← exists_under_iff (s := s)]
  constructor
  · rintro ⟨s', hmerge⟩
    obtain ⟨format, passes, hformat, hpasses, -⟩ := (merge_eq_ok_iff h).mp hmerge
    exact ⟨⟨format, hformat⟩, passes, hpasses⟩
  · rintro ⟨⟨format, hformat⟩, passes, hpasses⟩
    exact ⟨_, (merge_eq_ok_iff h).mpr ⟨format, passes, hformat, hpasses, rfl⟩⟩

/-- A second step gives, or fails with, what both steps at once do. -/
theorem merge_laidOver (hmerge : s.merge o = .ok s') (o' : Overrides) :
    s'.merge o' = s.merge (o'.laidOver o) := by
  rw [merge_eq] at hmerge
  obtain ⟨items, hitems, hmerge⟩ := bind_eq_ok.mp hmerge
  obtain ⟨entries, hentries, hmerge⟩ := bind_eq_ok.mp hmerge
  obtain ⟨format, hformat, hmerge⟩ := bind_eq_ok.mp hmerge
  obtain ⟨passes, hpasses, hmerge⟩ := bind_eq_ok.mp hmerge
  have hs' := Except.ok.inj hmerge
  have hformats : s'.formatUnder o' = s.formatUnder (o'.laidOver o) := by
    rw [formatUnder, formatUnder, laidOver, ← hs']
    cases o'.format with
    | some v => rfl
    | none => exact hformat.symm
  have hlimits : s'.passesUnder o' = s.passesUnder (o'.laidOver o) := by
    rw [passesUnder, passesUnder, laidOver, ← hs']
    cases o'.passes with
    | some v => rfl
    | none => exact hpasses.symm
  rw [merge_eq s', merge_eq s, hitems, hentries, hformats, hlimits, laidOver, Option.or_assoc, ← hs']
  rfl

/-! ## A run of steps -/

/-- Lay overrides over settings one after the other. Overrides that are refused leave the settings as
they are. -/
def mergeAll (s : Settings) : List Overrides → Settings
  | [] => s
  | o :: rest =>
    match s.merge o with
    | .ok s' => mergeAll s' rest
    | .error _ => mergeAll s rest

def taken (s : Settings) : List Overrides → List Overrides
  | [] => []
  | o :: rest =>
    match s.merge o with
    | .ok s' => o :: taken s' rest
    | .error _ => taken s rest

theorem holds_mergeAll (h : s.HasIgnoreLists) (os : List Overrides) :
    s.Holds (s.taken os) (s.mergeAll os) := by
  induction os generalizing s with
  | nil => exact .refl s
  | cons o rest ih =>
    rw [taken, mergeAll]
    cases hmerge : s.merge o with
    | ok s' =>
      have hfirst := holds_of_merge h hmerge
      exact hfirst.trans h (ih (h.of_holds hfirst))
    | error e => exact ih h

/-- After any run of overrides over settings, each of them holds the last value that was given for it
in a step that was not refused, all else is as before, and the settings stay acceptable. A step is
refused only for values of its own, and a step behind one that is taken acts like both at once. -/
theorem overrides_leave_last_given (h : s.HasIgnoreLists) (os : List Overrides) :
    s.Holds (s.taken os) (s.mergeAll os) ∧ (s.mergeAll os).Accepted ∧
    (∀ o, (∃ s', (s.mergeAll os).merge o = .ok s') ↔ o.Valid) ∧
    ∀ o o' s', s.merge o = .ok s' → s'.merge o' = s.merge (o'.laidOver o) := by
  have hholds := holds_mergeAll h os
  exact ⟨hholds, accepted _, fun o => exists_merge_iff (h.of_holds hholds),
    fun o o' s' hmerge => merge_laidOver hmerge o'⟩

private def jsonThrice : Overrides := { format := some "json", passes := some (.int 3) }

private def onWarnings : Overrides := { failOn := some .warning }

/-- Overrides that are refused for one of two values leave no trace of the other one. -/
theorem refused_format_leaves_limit :
    let s : Settings := {}
    let noPass : Overrides := { format := some "sarif", passes := some (.int 0) }
    let noFormat : Overrides := { format := some "markdown", passes := some (.int 5) }
    let os := [jsonThrice, noPass, onWarnings, noFormat]
    s.HasIgnoreLists ∧ s.taken os = [jsonThrice, onWarnings] ∧
    s.Holds [jsonThrice, onWarnings] (s.mergeAll os) ∧ (s.mergeAll os).format = .json ∧
    (¬ ∃ s', (s.mergeAll os).merge noFormat = .ok s') ∧
    ∃ s', s.merge jsonThrice = .ok s' ∧
      s'.merge onWarnings = s.merge { jsonThrice with failOn := some .warning } := by
  intro s noPass noFormat os
  have hlists : s.HasIgnoreLists := ⟨⟨[], rfl⟩, ⟨[], rfl⟩⟩
  have htaken : s.taken os = [jsonThrice, onWarnings] := rfl
  obtain ⟨hholds, -, hvalid, htwice⟩ := overrides_leave_last_given hlists os
  rw [htaken] at hholds
  refine ⟨hlists, htaken, hholds, rfl, fun hmerge => ?_, _, rfl, htwice jsonThrice onWarnings _ rfl⟩
  obtain ⟨format, hformat⟩ := ((hvalid noFormat).mp hmerge).format "markdown" rfl
  have hname := ConfigValue.text.inj hformat
  cases format <;> exact absurd hname (by decide)

end LintDirectives.Settings
