import LintDirectives.FileCheck
import LintDirectives.Proofs.CommentConvergence
import LintDirectives.Proofs.FailingSteps

/-!
# Diagnostics of the check of directives

When the check of directives is the only one, the diagnostics of a file are its findings, less
those below the threshold and those of ignored rules. Both depend on the code of the finding and
on the path alone, so they may be told before a comment is placed in a file.
-/

namespace LintDirectives

open FailingSteps

/-! ## Recording past suppressions -/

namespace Sink

@[simp] theorem exit_path (s : Sink) : s.exit.path = s.path := by
  unfold exit
  split <;> rfl

@[simp] theorem exit_diagnostics (s : Sink) : s.exit.diagnostics = s.diagnostics := by
  unfold exit
  split <;> rfl

@[simp] theorem exit_suppressedCount (s : Sink) :
    s.exit.suppressedCount = s.suppressedCount := by
  unfold exit
  split <;> rfl

/-- A reported entry is recorded whatever its line suppresses. -/
theorem record_enter (s : Sink) (e : Entry) :
    (s.enter e.line).record e =
      { s.enter e.line with diagnostics := s.diagnostics ++ [e.diagnostic s.path] } := by
  have hlifted : (s.enter e.line).isSuppressed e.line e.rule = false := by
    simp [isSuppressed, enter, LineSuppressions.covers]
  rw [record, if_neg (by simp [hlifted])]
  rfl

@[simp] theorem report_path (s : Sink) (e : Entry) : (s.report e).path = s.path := by
  rw [report, exit_path, record_enter]
  rfl

@[simp] theorem report_diagnostics (s : Sink) (e : Entry) :
    (s.report e).diagnostics = s.diagnostics ++ [e.diagnostic s.path] := by
  rw [report, exit_diagnostics, record_enter]

theorem foldl_report_diagnostics (s : Sink) (entries : List Entry) :
    (entries.foldl report s).diagnostics =
      s.diagnostics ++ entries.map (·.diagnostic s.path) := by
  induction entries generalizing s with
  | nil => simp
  | cons e entries ih => simp [ih]

end Sink

/-! ## Filtering -/

namespace Settings

theorem mem_withoutIgnored {s : Settings} {ds kept : List Diagnostic}
    (h : s.withoutIgnored ds = .ok kept) {d : Diagnostic} :
    d ∈ kept ↔ d ∈ ds ∧ s.ignoresDiagnostic d = .ok false := by
  induction ds generalizing kept with
  | nil =>
    cases h
    simp
  | cons first rest ih =>
    obtain ⟨ignored, hignored, h⟩ := bind_eq_ok.mp h
    obtain ⟨others, hothers, h⟩ := bind_eq_ok.mp h
    have hrest := ih hothers
    cases ignored with
    | true =>
      obtain rfl := Except.ok.inj h
      have hne : d = first → s.ignoresDiagnostic d ≠ .ok false := by
        rintro rfl hshown
        exact nomatch hignored.symm.trans hshown
      rw [if_pos rfl, hrest, List.mem_cons]
      constructor
      · exact fun h => ⟨.inr h.1, h.2⟩
      · rintro ⟨hd | hd, hshown⟩
        · exact absurd hshown (hne hd)
        · exact ⟨hd, hshown⟩
    | false =>
      obtain rfl := Except.ok.inj h
      simp only [Bool.false_eq_true, if_false, List.mem_cons, hrest]
      constructor
      · rintro (rfl | h)
        · exact ⟨.inl rfl, hignored⟩
        · exact ⟨.inr h.1, h.2⟩
      · rintro ⟨rfl | hd, hshown⟩
        · exact .inl rfl
        · exact .inr ⟨hd, hshown⟩

/-- Whether a diagnostic is ignored depends on its rule and its file. -/
theorem ignoresDiagnostic_congr (s : Settings) {d d' : Diagnostic} (hrule : d.rule = d'.rule)
    (hfile : d.location.file = d'.location.file) : s.ignoresDiagnostic d = s.ignoresDiagnostic d' := by
  simp only [ignoresDiagnostic, Diagnostic.code, hrule, hfile]

end Settings

/-! ## Findings with a new text -/

namespace Directive

theorem about_of_mem_ownFindings {d : Directive} {f : Finding} (hf : f ∈ d.ownFindings) :
    f.about = d := by
  have hglue (hf : f ∈ d.glueFindings) : f.about = d := by
    unfold glueFindings at hf
    split at hf
    · simp at hf
    · split at hf <;> simp_all [finding]
    · simp_all [finding]
  unfold ownFindings at hf
  split at hf
  · unfold legacyFindings at hf
    split at hf <;> simp_all [finding]
  · split at hf
    · simp_all [finding]
    · exact hglue hf
  · split at hf
    · simp_all [finding]
    · exact hglue hf
  · split at hf
    · simp at hf
    · exact hglue hf
  · simp_all [finding]

theorem mem_fixes_iff {d : Directive} {code : FindingCode} {t : Text} :
    (code, t) ∈ d.fixes ↔ ∃ f ∈ d.ownFindings, f.code = code ∧ f.newText = some t := by
  simp only [fixes, List.mem_filterMap, Option.map_eq_some_iff, Prod.mk.injEq]
  constructor
  · rintro ⟨f, hf, _, ht, hcode, rfl⟩
    exact ⟨f, hf, hcode, ht⟩
  · rintro ⟨f, hf, hcode, ht⟩
    exact ⟨f, hf, t, ht, hcode, rfl⟩

end Directive

namespace Finding

variable {check rules : Text} {f : Finding}

/-- The edit of an entry replaces the comment by the new text of the finding. -/
theorem fix_of_entry {entry : Sink.Entry} (h : f.entry check rules = .ok entry) {e : Edit} :
    entry.fix = some e ↔ ∃ t, f.newText = some t ∧ f.about.replacement t = .ok e := by
  obtain ⟨fix, hfix, rfl⟩ := map_eq_ok.mp h
  show fix = some e ↔ _
  unfold Finding.fix at hfix
  split at hfix
  · next t ht =>
    obtain ⟨e', he', rfl⟩ := map_eq_ok.mp hfix
    simp [ht, he']
  · next ht =>
    cases hfix
    simp [ht]

theorem exists_entry (check rules : Text) {t : Text} {e : Edit} (ht : f.newText = some t)
    (he : f.about.replacement t = .ok e) : ∃ entry, f.entry check rules = .ok entry := by
  have hfix : f.fix = .ok (some e) := by
    simp only [Finding.fix, ht, he]
    rfl
  exact ⟨_, map_eq_ok.mpr ⟨some e, hfix, rfl⟩⟩

end Finding

namespace DirectiveAudit

/-- The findings with a new text are those about single directives. -/
theorem mem_findings_of_newText {directives : List Directive} {f : Finding}
    (hf : f.newText ≠ none) : f ∈ findings directives ↔ ∃ d ∈ directives, f ∈ d.ownFindings := by
  have hrounds (opened : OpenSuppressions) : f ∈ (rounds opened directives).flatten ↔
      ∃ d ∈ directives, f ∈ d.ownFindings := by
    induction directives generalizing opened with
    | nil =>
      have hend : f ∉ opened.unclosed := fun h =>
        hf (OpenSuppressions.newText_of_mem_unclosed h)
      simp [rounds, hend]
    | cons d rest ih =>
      have hstep : f ∉ (OpenSuppressions.step opened d).2 := fun h =>
        hf (OpenSuppressions.newText_of_mem_step h)
      simp [rounds, hstep, ih]
  exact hrounds []

end DirectiveAudit

/-! ## From findings to diagnostics -/

/-- Running the check of directives reports the entries of its findings. -/
theorem Check.exists_of_run_directives {settings : CheckSettings} {file : CheckedFile}
    {s s' : Sink} (h : directives.run settings file s = .ok s') : ∃ entries,
      (DirectiveAudit.findings file.directives).mapM
        (Finding.entry "directives" (rules "directives")) = .ok entries ∧
      s' = entries.foldl Sink.report s := by
  obtain ⟨entries, hentries, rfl⟩ := map_eq_ok.mp h
  exact ⟨entries, mapError_eq_ok.mp hentries, rfl⟩

namespace Linter

variable {l : Linter} {path : Text} {file : CheckedFile} {ds : List Diagnostic}

/-- The diagnostics of the check of directives, before they are filtered and after it. -/
theorem mem_checkFile_iff (honly : l.enabledChecks = [Check.directives])
    (h : l.checkFile file = .ok ds) {d : Diagnostic} :
    d ∈ ds ↔ (∃ f ∈ DirectiveAudit.findings file.directives, ∃ entry,
        f.entry "directives" (Check.rules "directives") = .ok entry ∧
          d = entry.diagnostic file.path) ∧
      l.reachesThreshold d ∧ l.settings.ignoresDiagnostic d = .ok false := by
  obtain ⟨sink, hsink, h⟩ := bind_eq_ok.mp h
  obtain ⟨kept, hkept, h⟩ := bind_eq_ok.mp h
  obtain rfl := Except.ok.inj h
  rw [mapError_eq_ok, honly] at hsink
  obtain ⟨after, hrun, hsink⟩ := bind_eq_ok.mp hsink
  obtain rfl := Except.ok.inj hsink
  obtain ⟨entries, hentries, rfl⟩ := Check.exists_of_run_directives hrun
  have hmem := Settings.mem_withoutIgnored (mapError_eq_ok.mp hkept) (d := d)
  revert hentries
  generalize Check.rules "directives" = rules
  intro hentries
  rw [List.mem_mergeSort, hmem, List.mem_filter, Sink.foldl_report_diagnostics,
    List.nil_append, List.mem_map, and_assoc]
  refine and_congr_left fun _ => ?_
  constructor
  · rintro ⟨entry, hentry, rfl⟩
    obtain ⟨f, hf, hfentry⟩ := (mem_of_mapM hentries).mp hentry
    exact ⟨f, hf, entry, hfentry, rfl⟩
  · rintro ⟨f, hf, entry, hfentry, rfl⟩
    exact ⟨entry, (mem_of_mapM hentries).mpr ⟨f, hf, hfentry⟩, rfl⟩

/-- The diagnostic of a finding with a code, where nothing else matters. -/
def diagnosticOf (path : Text) (code : FindingCode) : Diagnostic where
  check := "directives"
  rule := Check.rules "directives" ++ "." ++ code.name
  location := { file := path, line := 1 }
  severity := code.severity
  message := []

/-- Whether findings with a code are among the diagnostics of a path. -/
def shows (l : Linter) (path : Text) (code : FindingCode) : Bool :=
  l.reachesThreshold (diagnosticOf path code) &&
    match l.settings.ignoresDiagnostic (diagnosticOf path code) with
    | .ok ignored => !ignored
    | .error _ => false

theorem shows_iff {code : FindingCode} : l.shows path code ↔
    l.reachesThreshold (diagnosticOf path code) ∧
      l.settings.ignoresDiagnostic (diagnosticOf path code) = .ok false := by
  rw [shows, Bool.and_eq_true]
  refine and_congr_right fun _ => ?_
  cases l.settings.ignoresDiagnostic (diagnosticOf path code) with
  | ok ignored => cases ignored <;> simp
  | error e => simp

/-- The diagnostic of a finding is kept just when its code is shown. -/
theorem shows_of_entry {f : Finding} {entry : Sink.Entry}
    (h : f.entry "directives" (Check.rules "directives") = .ok entry) :
    l.shows path f.code ↔ l.reachesThreshold (entry.diagnostic path) ∧
      l.settings.ignoresDiagnostic (entry.diagnostic path) = .ok false := by
  obtain ⟨fix, -, rfl⟩ := map_eq_ok.mp h
  rw [shows_iff]
  exact and_congr Iff.rfl (Iff.of_eq (congrArg (· = _)
    (l.settings.ignoresDiagnostic_congr rfl rfl)))

/-- The edits of a pass replace the comments of the findings that are shown. -/
theorem mem_proposedEdits_iff (honly : l.enabledChecks = [Check.directives])
    (h : l.checkFile file = .ok ds) {e : Edit} :
    e ∈ proposedEdits ds ↔ ∃ d ∈ file.directives, ∃ code t,
      (code, t) ∈ d.fixes ∧ l.shows file.path code ∧ d.replacement t = .ok e := by
  rw [proposedEdits, List.mem_eraseDups, List.mem_filterMap]
  constructor
  · rintro ⟨diagnostic, hmem, hfix⟩
    obtain ⟨⟨f, hf, entry, hentry, rfl⟩, hkept⟩ := (mem_checkFile_iff honly h).mp hmem
    obtain ⟨t, ht, he⟩ := (Finding.fix_of_entry hentry).mp hfix
    obtain ⟨d, hd, hown⟩ := (DirectiveAudit.mem_findings_of_newText (by simp [ht])).mp hf
    rw [Directive.about_of_mem_ownFindings hown] at he
    exact ⟨d, hd, f.code, t, Directive.mem_fixes_iff.mpr ⟨f, hown, rfl, ht⟩,
      (shows_of_entry hentry).mpr hkept, he⟩
  · rintro ⟨d, hd, code, t, hfixes, hshows, he⟩
    obtain ⟨f, hown, rfl, ht⟩ := Directive.mem_fixes_iff.mp hfixes
    rw [← Directive.about_of_mem_ownFindings hown] at he
    obtain ⟨entry, hentry⟩ := Finding.exists_entry "directives" (Check.rules "directives") ht he
    have hf := (DirectiveAudit.mem_findings_of_newText (by simp [ht])).mpr ⟨d, hd, hown⟩
    refine ⟨entry.diagnostic file.path, ?_, (Finding.fix_of_entry hentry).mpr ⟨t, ht, he⟩⟩
    exact (mem_checkFile_iff honly h).mpr
      ⟨⟨f, hf, entry, hentry, rfl⟩, (shows_of_entry hentry).mp hshows⟩

end Linter

end LintDirectives
