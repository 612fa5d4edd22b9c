import LintDirectives.Proofs.DirectiveDiagnostics

/-!
# The file of a diagnostic

A check gives entries without a file, and the sink into which they are recorded adds the file that it
is for. So whatever the checks are, all diagnostics of a file name just that file.
-/

namespace LintDirectives

open FailingSteps

namespace Sink

/-- A sink is for the file of a path, and all its diagnostics name that path. -/
structure IsFor (s : Sink) (path : Text) : Prop where
  path_eq : s.path = path
  names : ∀ d ∈ s.diagnostics, d.location.file = path

variable {s : Sink} {path : Text}

theorem IsFor.record (h : s.IsFor path) (e : Entry) : (s.record e).IsFor path := by
  unfold Sink.record
  split
  · exact ⟨h.path_eq, h.names⟩
  · refine ⟨h.path_eq, fun d hd => ?_⟩
    rcases List.mem_append.mp hd with hd | hd
    · exact h.names d hd
    · rw [List.mem_singleton.mp hd]
      exact h.path_eq

theorem IsFor.report (h : s.IsFor path) (e : Entry) : (s.report e).IsFor path := by
  refine ⟨(report_path s e).trans h.path_eq, fun d hd => ?_⟩
  rw [report_diagnostics] at hd
  rcases List.mem_append.mp hd with hd | hd
  · exact h.names d hd
  · rw [List.mem_singleton.mp hd]
    exact h.path_eq

theorem IsFor.foldl {step : Sink → Entry → Sink}
    (hstep : ∀ s e, s.IsFor path → (step s e).IsFor path) (h : s.IsFor path)
    (entries : List Entry) : (entries.foldl step s).IsFor path := by
  induction entries generalizing s with
  | nil => exact h
  | cons e rest ih => exact ih (hstep s e h)

end Sink

theorem Check.isFor_run {c : Check} {settings : CheckSettings} {file : CheckedFile} {s s' : Sink}
    {path : Text} (hs : s.IsFor path) (h : c.run settings file s = .ok s') : s'.IsFor path := by
  obtain ⟨entries, -, rfl⟩ := map_eq_ok.mp h
  refine Sink.IsFor.foldl (fun s e hs => ?_) hs entries
  split
  · exact hs.report e
  · exact hs.record e

namespace Linter

theorem isFor_runChecks {settings : Settings} {checks : List Check} {file : CheckedFile}
    {s s' : Sink} {path : Text} (hs : s.IsFor path)
    (h : runChecks settings checks file s = .ok s') : s'.IsFor path := by
  induction checks generalizing s with
  | nil => exact Except.ok.inj h ▸ hs
  | cons c rest ih =>
    obtain ⟨next, hrun, hrest⟩ := bind_eq_ok.mp h
    exact ih (c.isFor_run hs hrun) hrest

variable {l : Linter} {language : Language} {path : Text} {source : Bytes} {ds : List Diagnostic}

theorem location_file_of_checkBytes (h : l.checkBytes language path source = .ok ds) :
    ∀ d ∈ ds, d.location.file = path := by
  intro d hd
  obtain ⟨comments, -, h⟩ := bind_eq_ok.mp h
  obtain ⟨sink, hsink, h⟩ := bind_eq_ok.mp h
  obtain ⟨kept, hkept, h⟩ := bind_eq_ok.mp h
  obtain rfl := Except.ok.inj h
  rw [List.mem_mergeSort, Settings.mem_withoutIgnored (mapError_eq_ok.mp hkept),
    List.mem_filter] at hd
  have hempty : ({
      path, suppressions := LineSuppressions.ofDirectives (comments.map Directive.classify)
        (Int.ofNat (Source.lineCount source)) } : Sink).IsFor path :=
    ⟨rfl, fun _ hd => absurd hd List.not_mem_nil⟩
  exact (isFor_runChecks hempty (mapError_eq_ok.mp hsink)).names d hd.1.1

end Linter

end LintDirectives
