import LintDirectives.Proofs.DirectiveDiagnostics
import LintDirectives.Proofs.SuppressionTracking

/-!
# Findings are recorded past suppressions

Reporting takes the suppressions of one line away and puts them back, so it disturbs neither the
other lines nor what comes after it. All findings about the directives of a file are therefore
recorded, in their order, whatever is suppressed on their lines. Nothing fails on the way: each
finding is about one of the directives, and the range of a comment is one that can be replaced.
-/

namespace LintDirectives

open FailingSteps

/-! ## Reporting leaves a sink as it was -/

namespace Sink

/-- A later sink for the same file, with the same suppressions and no more entries dropped. -/
structure Undisturbed (s s' : Sink) : Prop where
  path : s'.path = s.path
  suppressions : ∀ line, KeyedList.get? line s'.suppressions = KeyedList.get? line s.suppressions
  scopes : s'.scopes = s.scopes
  suppressedCount : s'.suppressedCount = s.suppressedCount

theorem Undisturbed.refl (s : Sink) : s.Undisturbed s :=
  ⟨rfl, fun _ => rfl, rfl, rfl⟩

theorem Undisturbed.trans {s s' s'' : Sink} (h : s.Undisturbed s') (h' : s'.Undisturbed s'') :
    s.Undisturbed s'' where
  path := h'.path.trans h.path
  suppressions line := (h'.suppressions line).trans (h.suppressions line)
  scopes := h'.scopes.trans h.scopes
  suppressedCount := h'.suppressedCount.trans h.suppressedCount

/-- Closing a scope gives its line the entry back that it had before the scope was opened. -/
theorem get?_exit_enter (s : Sink) (line : Int) (ds : List Diagnostic) (line' : Int) :
    KeyedList.get? line' ({ s.enter line with diagnostics := ds }.exit).suppressions =
      KeyedList.get? line' s.suppressions := by
  cases hentry : KeyedList.get? line s.suppressions with
  | none =>
    have hkept : ({ s.enter line with diagnostics := ds }.exit).suppressions = s.suppressions := by
      simp only [enter, exit, hentry]
      exact KeyedList.erase_eq_self hentry
    rw [hkept]
  | some patterns =>
    have hput : ({ s.enter line with diagnostics := ds }.exit).suppressions =
        KeyedList.put line patterns (KeyedList.erase line s.suppressions) := by
      simp only [enter, exit, hentry]
    rw [hput, KeyedList.put]
    by_cases hline : line' = line
    · rw [hline, KeyedList.get?_update_self, hentry]
    · rw [KeyedList.get?_update_of_ne hline, KeyedList.get?_erase_of_ne hline]

theorem undisturbed_report (s : Sink) (e : Entry) : s.Undisturbed (s.report e) := by
  have hreport : s.report e =
      { s.enter e.line with diagnostics := s.diagnostics ++ [e.diagnostic s.path] }.exit := by
    rw [report, record_enter]
  refine ⟨report_path s e, ?_, ?_, ?_⟩
  · intro line
    rw [hreport]
    exact get?_exit_enter s e.line _ line
  · rw [hreport]
    simp only [enter, exit]
    split <;> simp_all
  · rw [hreport]
    simp only [enter, exit]
    split <;> rfl

theorem undisturbed_foldl_report (s : Sink) (entries : List Entry) :
    s.Undisturbed (entries.foldl report s) := by
  induction entries generalizing s with
  | nil => exact .refl s
  | cons e entries ih => exact (undisturbed_report s e).trans (ih (s.report e))

/-- Reporting findings records the entries that they make. -/
theorem reportAll_of_mapM {check rules : Text} {fs : List Finding} {entries : List Entry}
    (h : fs.mapM (Finding.entry check rules) = .ok entries) (s : Sink) :
    s.reportAll check rules fs = .ok (entries.foldl report s) := by
  induction fs generalizing s entries with
  | nil =>
    cases h
    rfl
  | cons f fs ih =>
    rw [List.mapM_cons] at h
    obtain ⟨e, he, h⟩ := bind_eq_ok.mp h
    obtain ⟨rest, hrest, h⟩ := bind_eq_ok.mp h
    cases h
    rw [reportAll, List.foldlM_cons, bind_eq_ok]
    exact ⟨s.report e, map_eq_ok.mpr ⟨e, he, rfl⟩, ih hrest (s.report e)⟩

end Sink

/-! ## Every finding can be recorded -/

namespace OpenSuppressions

variable {d : Directive} {o : OpenSuppressions}

theorem about_of_mem_closeAll {codes : List Text} {f : Finding}
    (hf : f ∈ (closeAll d codes o).2) : f.about = d := by
  induction codes generalizing o with
  | nil => simp [closeAll] at hf
  | cons code rest ih =>
    rw [closeAll] at hf
    split at hf
    · exact ih hf
    · rcases List.mem_cons.mp hf with rfl | hf
      · rfl
      · exact ih hf

theorem about_of_mem_step {f : Finding} (hf : f ∈ (step o d).2) : f.about = d := by
  rcases step_cases o d with ⟨-, -, hstep⟩ | ⟨-, -, hstep⟩ | ⟨-, -, hstep⟩ | ⟨-, hstep⟩
  · simp [hstep] at hf
  · simp [hstep] at hf
  · rw [hstep] at hf
    exact about_of_mem_closeAll hf
  · simp [hstep] at hf

theorem mem_put {code : Text} {pair : Text × Directive}
    (h : pair ∈ KeyedList.put code d o) : pair ∈ o ∨ pair.2 = d := by
  induction o with
  | nil =>
    rw [KeyedList.put, KeyedList.update, List.mem_singleton] at h
    exact .inr (h ▸ rfl)
  | cons first rest ih =>
    rw [KeyedList.put, KeyedList.update] at h
    split at h
    · rcases List.mem_cons.mp h with rfl | h
      · exact .inr rfl
      · exact .inl (List.mem_cons_of_mem first h)
    · rcases List.mem_cons.mp h with rfl | h
      · exact .inl List.mem_cons_self
      · exact (ih h).imp_left (List.mem_cons_of_mem first)

theorem mem_foldl_put {codes : List Text} {pair : Text × Directive}
    (h : pair ∈ codes.foldl (fun o code => KeyedList.put code d o) o) :
    pair ∈ o ∨ pair.2 = d := by
  induction codes generalizing o with
  | nil => exact .inl h
  | cons code codes ih =>
    rcases ih h with h | h
    · exact mem_put h
    · exact .inr h

/-- A code is open for a directive that opened it earlier, or for the one just read. -/
theorem mem_step {pair : Text × Directive} (h : pair ∈ (step o d).1) : pair ∈ o ∨ pair.2 = d := by
  rcases step_cases o d with ⟨-, -, hstep⟩ | ⟨-, -, hstep⟩ | ⟨-, -, hstep⟩ | ⟨-, hstep⟩
  · rw [hstep] at h
    exact mem_foldl_put h
  · simp [hstep] at h
  · rw [hstep, closeAll_fst] at h
    exact .inl (List.mem_filter.mp h).1
  · rw [hstep] at h
    exact .inl h

end OpenSuppressions

namespace DirectiveAudit

open OpenSuppressions

theorem about_mem_of_mem_rounds {o : OpenSuppressions} {ds : List Directive} {f : Finding}
    (hf : f ∈ (rounds o ds).flatten) : f.about ∈ ds ∨ ∃ pair ∈ o, pair.2 = f.about := by
  induction ds generalizing o with
  | nil =>
    have hend : f ∈ o.unclosed := by simpa [rounds] using hf
    obtain ⟨pair, hpair, rfl⟩ := List.mem_map.mp hend
    exact .inr ⟨pair, hpair, rfl⟩
  | cons d ds ih =>
    rw [rounds, List.flatten_cons, List.mem_append, List.mem_append] at hf
    rcases hf with (hown | hstep) | hlater
    · exact .inl (Directive.about_of_mem_ownFindings hown ▸ List.mem_cons_self)
    · exact .inl (about_of_mem_step hstep ▸ List.mem_cons_self)
    · rcases ih hlater with hmem | ⟨pair, hpair, habout⟩
      · exact .inl (List.mem_cons_of_mem d hmem)
      · rcases mem_step hpair with hold | hnew
        · exact .inr ⟨pair, hold, habout⟩
        · exact .inl (habout ▸ hnew ▸ List.mem_cons_self)

theorem about_mem_of_mem_findings {ds : List Directive} {f : Finding} (hf : f ∈ findings ds) :
    f.about ∈ ds := by
  rcases about_mem_of_mem_rounds hf with h | ⟨pair, hpair, -⟩
  · exact h
  · simp at hpair

end DirectiveAudit

/-- A comment that does not start before its file has a range that can be replaced. -/
theorem Directive.exists_replacement {d : Directive} (h : 0 ≤ d.comment.start) (t : Text) :
    ∃ e, d.replacement t = .ok e := by
  have hrange : 0 ≤ d.comment.start ∧ d.comment.start ≤ d.comment.stop := by
    have hlength : 0 ≤ Int.ofNat (Text.utf8 d.comment.raw).length := Int.natCast_nonneg _
    rw [DirectiveComment.stop]
    omega
  exact ⟨_, by rw [replacement, Edit.ofBounds, dif_pos hrange]⟩

theorem Finding.exists_entry_of_start {f : Finding} (h : 0 ≤ f.about.comment.start)
    (check rules : Text) : ∃ entry, f.entry check rules = .ok entry := by
  cases ht : f.newText with
  | none =>
    have hfix : f.fix = .ok none := by simp only [Finding.fix, ht]
    exact ⟨_, map_eq_ok.mpr ⟨none, hfix, rfl⟩⟩
  | some t =>
    obtain ⟨e, he⟩ := Directive.exists_replacement h t
    exact Finding.exists_entry check rules ht he

theorem DirectiveAudit.exists_entries {ds : List Directive} (h : ∀ d ∈ ds, 0 ≤ d.comment.start)
    (check rules : Text) :
    ∃ entries, (findings ds).mapM (Finding.entry check rules) = .ok entries := by
  apply exists_mapM
  intro f hf
  exact Finding.exists_entry_of_start (h _ (about_mem_of_mem_findings hf)) check rules

/-- The check of directives runs by reporting its findings. -/
theorem Check.run_directives {file : CheckedFile} {entries : List Sink.Entry}
    (h : (DirectiveAudit.findings file.directives).mapM
      (Finding.entry "directives" (rules "directives")) = .ok entries)
    (settings : CheckSettings) (s : Sink) :
    directives.run settings file s = .ok (entries.foldl Sink.report s) :=
  map_eq_ok.mpr ⟨entries, mapError_eq_ok.mpr h, rfl⟩

/-! ## All findings are recorded -/

/-- Reporting the findings about any directives never fails. It records one diagnostic for each
finding, in order, and these are the same as if nothing were suppressed at all: no finding is
counted as suppressed, and afterwards every line suppresses what it did before. The check of
directives reports in this way. -/
theorem findings_recorded_past_suppressions (check rules : Text) (ds : List Directive)
    (hstart : ∀ d ∈ ds, 0 ≤ d.comment.start) (s : Sink) :
    ∃ entries after unhindered,
      (DirectiveAudit.findings ds).mapM (Finding.entry check rules) = .ok entries ∧
      s.reportAll check rules (DirectiveAudit.findings ds) = .ok after ∧
      { s with suppressions := [] }.reportAll check rules (DirectiveAudit.findings ds) =
        .ok unhindered ∧
      after.diagnostics = s.diagnostics ++ entries.map (·.diagnostic s.path) ∧
      after.diagnostics = unhindered.diagnostics ∧
      after.suppressedCount = s.suppressedCount ∧
      (∀ line, KeyedList.get? line after.suppressions = KeyedList.get? line s.suppressions) ∧
      after.scopes = s.scopes ∧
      ∀ settings path language source, ∃ checked,
        Check.directives.run settings ⟨path, language, source, ds⟩ s = .ok checked ∧
        s.reportAll "directives" (Check.rules "directives") (DirectiveAudit.findings ds) =
          .ok checked := by
  obtain ⟨entries, hentries⟩ := DirectiveAudit.exists_entries hstart check rules
  have hsame := Sink.undisturbed_foldl_report s entries
  refine ⟨entries, _, _, hentries, Sink.reportAll_of_mapM hentries s,
    Sink.reportAll_of_mapM hentries _, Sink.foldl_report_diagnostics s entries, ?_,
    hsame.suppressedCount, hsame.suppressions, hsame.scopes, ?_⟩
  · rw [Sink.foldl_report_diagnostics, Sink.foldl_report_diagnostics]
  · intro settings path language source
    obtain ⟨entries, hentries⟩ :=
      DirectiveAudit.exists_entries hstart "directives" (Check.rules "directives")
    exact ⟨_, Check.run_directives hentries settings s, Sink.reportAll_of_mapM hentries s⟩

private def wholeFileDirective : Directive :=
  Directive.classify
    { kind := .ignoreFile, line := 1, column := 1, index := 0, raw := "# lint:ignore-file" }

/-- A directive for the whole file is reported on its line, which it covers itself. -/
theorem whole_file_directive_reported :
    (∀ d ∈ [wholeFileDirective], 0 ≤ d.comment.start) ∧
    ∃ after, Sink.reportAll "directives" "Scalpel.Directives"
        { path := "a.py", suppressions := [(1, [wildcard]), (2, [])] }
        (DirectiveAudit.findings [wholeFileDirective]) = .ok after ∧
      after.diagnostics.map (·.rule) = ["Scalpel.Directives.IgnoreFile".toList] ∧
      after.suppressedCount = 0 ∧ KeyedList.get? 1 after.suppressions = some [wildcard] ∧
      KeyedList.get? 2 after.suppressions = some [] := by
  have hstart : ∀ d ∈ [wholeFileDirective], 0 ≤ d.comment.start := by decide +kernel
  obtain ⟨entries, after, -, hentries, hafter, -, hdiagnostics, -, hcount, hsame, -⟩ :=
    findings_recorded_past_suppressions "directives" "Scalpel.Directives" _ hstart
      { path := "a.py", suppressions := [(1, [wildcard]), (2, [])] }
  refine ⟨hstart, after, hafter, ?_, hcount, hsame 1, hsame 2⟩
  have hone : ((DirectiveAudit.findings [wholeFileDirective]).mapM
      (Finding.entry "directives" "Scalpel.Directives")).toOption.map (·.map (·.rule)) =
        some ["Scalpel.Directives.IgnoreFile".toList] := by decide +kernel
  rw [hentries] at hone
  rw [hdiagnostics, List.nil_append, List.map_map]
  exact Option.some.inj hone

end LintDirectives
