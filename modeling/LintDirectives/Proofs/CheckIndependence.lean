import LintDirectives.Proofs.FixConvergence
import LintDirectives.Proofs.ReportedFindings

/-!
# Checks are independent of each other

All checks of a file record into one sink. The check of directives takes suppressions of it away for
a while, but each check meets the suppressions that the directives of the file give. So what a
check adds to the sink does not depend on the checks before it, and as neither the filters nor the
sorting of the diagnostics look at more than one of them, or two, at a time, the diagnostics of a
check in a file are the same as if no other check were enabled.
-/

namespace LintDirectives

open FailingSteps

/-! ## Stable sorting and filters -/

section StableSorting

variable {α : Type} {le : α → α → Bool}

/-- The first element of a list comes right behind those that are strictly below it. -/
theorem mergeSort_cons_eq (htrans : ∀ a b c, le a b → le b c → le a c)
    (htotal : ∀ a b, le a b || le b a) (a : α) (l : List α) :
    (a :: l).mergeSort le =
      (l.mergeSort le).filter (fun b => !le a b) ++ a :: (l.mergeSort le).filter (le a) := by
  obtain ⟨l₁, l₂, hsorted, hrest, hbelow⟩ := List.mergeSort_cons htrans htotal a l
  have hpairs := List.pairwise_mergeSort htrans htotal (a :: l)
  rw [hsorted] at hpairs
  have habove : ∀ b ∈ l₂, le a b := (List.pairwise_cons.mp (List.pairwise_append.mp hpairs).2.1).1
  have hfirst : l₁.filter (fun b => !le a b) = l₁ := List.filter_eq_self.mpr hbelow
  have hfirst' : l₁.filter (le a) = [] :=
    List.filter_eq_nil_iff.mpr fun b hb => by simpa using hbelow b hb
  have hlast : l₂.filter (fun b => !le a b) = [] :=
    List.filter_eq_nil_iff.mpr fun b hb => by simpa using habove b hb
  have hlast' : l₂.filter (le a) = l₂ := List.filter_eq_self.mpr habove
  rw [hsorted, hrest, List.filter_append, List.filter_append, hfirst, hfirst', hlast, hlast',
    List.append_nil, List.nil_append]

theorem filter_mergeSort (htrans : ∀ a b c, le a b → le b c → le a c)
    (htotal : ∀ a b, le a b || le b a) (p : α → Bool) (l : List α) :
    (l.mergeSort le).filter p = (l.filter p).mergeSort le := by
  induction l with
  | nil => simp
  | cons a l ih =>
    by_cases ha : p a
    · have hcomm (q : α → Bool) : ((l.mergeSort le).filter q).filter p =
          ((l.filter p).mergeSort le).filter q := by
        rw [← ih, List.filter_filter, List.filter_filter]
        exact List.filter_congr fun b _ => Bool.and_comm _ _
      rw [mergeSort_cons_eq htrans htotal, List.filter_append, List.filter_cons_of_pos ha,
        List.filter_cons_of_pos ha, hcomm, hcomm, ← mergeSort_cons_eq htrans htotal]
    · obtain ⟨l₁, l₂, hsorted, hrest, -⟩ := List.mergeSort_cons htrans htotal a l
      rw [hsorted, List.filter_cons_of_neg ha, ← ih, hrest, List.filter_append,
        List.filter_cons_of_neg ha, List.filter_append]

end StableSorting

namespace Linter

theorem placeLe_iff {a b : Diagnostic} : placeLe a b ↔
    a.location.line < b.location.line ∨ a.location.line = b.location.line ∧
      a.location.column.getD 0 ≤ b.location.column.getD 0 := by
  unfold placeLe
  split <;> simp <;> omega

theorem placeLe_trans (a b c : Diagnostic) (h : placeLe a b) (h' : placeLe b c) :
    placeLe a c := by
  rw [placeLe_iff] at *
  omega

theorem placeLe_total (a b : Diagnostic) : placeLe a b || placeLe b a := by
  rw [Bool.or_eq_true, placeLe_iff, placeLe_iff]
  omega

end Linter

/-! ## Ignored rules and filters -/

namespace Settings

variable {s s' : Settings} {ds kept : List Diagnostic}

theorem ignoresDiagnostic_of_ignoreRules (h : s'.ignoreRules = s.ignoreRules) (d : Diagnostic) :
    s'.ignoresDiagnostic d = s.ignoresDiagnostic d := by
  simp only [ignoresDiagnostic, h]

/-- Diagnostics are left out one by one. -/
theorem withoutIgnored_filter (h : s'.ignoreRules = s.ignoreRules)
    (hkept : s.withoutIgnored ds = .ok kept) (p : Diagnostic → Bool) :
    s'.withoutIgnored (ds.filter p) = .ok (kept.filter p) := by
  induction ds generalizing kept with
  | nil =>
    cases hkept
    rfl
  | cons d rest ih =>
    obtain ⟨ignored, hignored, hrest⟩ := bind_eq_ok.mp hkept
    obtain ⟨others, hothers, hresult⟩ := bind_eq_ok.mp hrest
    obtain rfl := Except.ok.inj hresult
    have hfiltered := ih hothers
    rw [← ignoresDiagnostic_of_ignoreRules h] at hignored
    by_cases hd : p d
    · rw [List.filter_cons_of_pos hd, withoutIgnored, hignored, hfiltered]
      cases ignored with
      | true => rfl
      | false => rw [if_neg (by decide), List.filter_cons_of_pos hd]; rfl
    · rw [List.filter_cons_of_neg hd, hfiltered]
      cases ignored with
      | true => rfl
      | false => rw [if_neg (by decide), List.filter_cons_of_neg hd]

theorem exists_withoutIgnored_iff : (∃ kept, s.withoutIgnored ds = .ok kept) ↔
    ∀ d ∈ ds, ∃ ignored, s.ignoresDiagnostic d = .ok ignored := by
  induction ds with
  | nil => exact ⟨fun _ _ hd => absurd hd List.not_mem_nil, fun _ => ⟨[], rfl⟩⟩
  | cons d rest ih =>
    rw [List.forall_mem_cons, ← ih]
    constructor
    · rintro ⟨kept, hkept⟩
      obtain ⟨ignored, hignored, hrest⟩ := bind_eq_ok.mp hkept
      obtain ⟨others, hothers, -⟩ := bind_eq_ok.mp hrest
      exact ⟨⟨ignored, hignored⟩, ⟨others, hothers⟩⟩
    · rintro ⟨⟨ignored, hignored⟩, ⟨others, hothers⟩⟩
      exact ⟨_, bind_eq_ok.mpr ⟨ignored, hignored, bind_eq_ok.mpr ⟨others, hothers, rfl⟩⟩⟩

end Settings

/-! ## What checks add to a sink -/

namespace Sink

variable {R : LineSuppressions} {path : Text} {s s' : Sink}

/-- A sink for a path, in which each line suppresses what it does by given suppressions. -/
structure Answers (R : LineSuppressions) (path : Text) (s : Sink) : Prop where
  path : s.path = path
  suppressions : ∀ line, KeyedList.get? line s.suppressions = KeyedList.get? line R

theorem Answers.isSuppressed (h : s.Answers R path) (line : Int) (rule : Text) :
    s.isSuppressed line rule = R.covers line rule := by
  rw [Sink.isSuppressed, LineSuppressions.covers, h.suppressions, LineSuppressions.covers]

theorem Answers.of_undisturbed (h : s.Answers R path) (hs : s.Undisturbed s') :
    s'.Answers R path :=
  ⟨hs.path.trans h.path, fun line => (hs.suppressions line).trans (h.suppressions line)⟩

theorem Answers.record (h : s.Answers R path) (e : Entry) :
    (s.record e).Answers R path ∧ (s.record e).diagnostics =
      s.diagnostics ++ ([e].filter fun e => !R.covers e.line e.rule).map (·.diagnostic path) := by
  rw [Sink.record, h.isSuppressed]
  cases hcovers : R.covers e.line e.rule with
  | true => exact ⟨⟨h.path, h.suppressions⟩, by simp [hcovers]⟩
  | false => exact ⟨⟨h.path, h.suppressions⟩, by simp [hcovers, h.path]⟩

/-- Recording drops exactly the entries whose rules are suppressed on their lines. -/
theorem Answers.foldl_record (h : s.Answers R path) (entries : List Entry) :
    (entries.foldl Sink.record s).Answers R path ∧
      (entries.foldl Sink.record s).diagnostics = s.diagnostics ++
        (entries.filter fun e => !R.covers e.line e.rule).map (·.diagnostic path) := by
  induction entries generalizing s with
  | nil => exact ⟨h, by simp⟩
  | cons e entries ih =>
    obtain ⟨hone, hfirst⟩ := h.record e
    obtain ⟨hall, hrest⟩ := ih hone
    refine ⟨hall, ?_⟩
    rw [List.foldl_cons, hrest, hfirst, List.append_assoc, ← List.map_append, ← List.filter_append,
      List.singleton_append]

end Sink

namespace Check

variable {c : Check} {settings : CheckSettings} {file : CheckedFile} {R : LineSuppressions}
  {entries : List Sink.Entry} {s : Sink}

/-- What a check works with where the sink drops what given suppressions cover. -/
def context (settings : CheckSettings) (file : CheckedFile) (R : LineSuppressions) : CheckContext where
  toCheckedFile := file
  settings
  isSuppressed := R.covers

/-- The entries of a check that get past given suppressions. -/
def accepted (c : Check) (R : LineSuppressions) (entries : List Sink.Entry) : List Sink.Entry :=
  if c.pastSuppressions then entries else entries.filter fun e => !R.covers e.line e.rule

/-- The diagnostics that a check adds to the sink of a file with given suppressions. -/
def found (c : Check) (settings : CheckSettings) (file : CheckedFile) (R : LineSuppressions) :
    List Diagnostic :=
  match c.entries (context settings file R) with
  | .ok entries => (c.accepted R entries).map (·.diagnostic file.path)
  | .error _ => []

/-- A check does not fail, and signs what it gives with its name. -/
def Signs (c : Check) (context : CheckContext) : Prop :=
  ∃ entries, c.entries context = .ok entries ∧ ∀ e ∈ entries, e.check = c.name

theorem check_of_mem_found (h : c.Signs (context settings file R)) {d : Diagnostic}
    (hd : d ∈ c.found settings file R) : d.check = c.name := by
  obtain ⟨entries, hentries, hnames⟩ := h
  rw [found, hentries] at hd
  obtain ⟨e, he, rfl⟩ := List.mem_map.mp hd
  unfold accepted at he
  split at he
  · exact hnames e he
  · exact hnames e (List.mem_of_mem_filter he)

theorem signs_directives {context : CheckContext}
    (h : ∀ d ∈ context.directives, 0 ≤ d.comment.start) : directives.Signs context := by
  obtain ⟨entries, hentries⟩ := DirectiveAudit.exists_entries h "directives" (rules "directives")
  refine ⟨entries, mapError_eq_ok.mpr hentries, fun e he => ?_⟩
  obtain ⟨f, -, hf⟩ := (mem_of_mapM hentries).mp he
  obtain ⟨fix, -, rfl⟩ := map_eq_ok.mp hf
  rfl

/-- A check sees what the sink drops, and adds what it finds. It leaves these answers of the sink as
they were, so that the answer to each record of a check is known before it runs. -/
theorem exists_run (h : c.Signs (context settings file R)) (hs : s.Answers R file.path) :
    ∃ s', c.run settings file s = .ok s' ∧ s'.Answers R file.path ∧
      s'.diagnostics = s.diagnostics ++ c.found settings file R := by
  obtain ⟨entries, hentries, -⟩ := h
  have hanswers : s.isSuppressed = R.covers :=
    funext fun line => funext fun rule => hs.isSuppressed line rule
  refine ⟨entries.foldl (if c.pastSuppressions then Sink.report else Sink.record) s, ?_, ?_⟩
  · rw [run, hanswers]
    exact map_eq_ok.mpr ⟨entries, hentries, rfl⟩
  · rw [found, hentries]
    unfold accepted
    cases hpast : c.pastSuppressions with
    | true =>
      refine ⟨hs.of_undisturbed (Sink.undisturbed_foldl_report s entries), ?_⟩
      rw [if_pos rfl, Sink.foldl_report_diagnostics, hs.path]
      rfl
    | false => exact hs.foldl_record entries

end Check

namespace Linter

variable {settings : Settings} {file : CheckedFile} {R : LineSuppressions} {s : Sink}

/-- No check of a list fails on a file, and each signs what it gives. -/
def AllSign (settings : Settings) (checks : List Check) (file : CheckedFile)
    (R : LineSuppressions) : Prop :=
  ∀ c ∈ checks, c.Signs (Check.context (settings.check c.name) file R)

/-- The diagnostics that checks add to the sink of a file, one check after the other. -/
def foundByAll (settings : Settings) (checks : List Check) (file : CheckedFile)
    (R : LineSuppressions) : List Diagnostic :=
  checks.flatMap fun c => c.found (settings.check c.name) file R

theorem exists_runChecks {checks : List Check} (h : AllSign settings checks file R)
    (hs : s.Answers R file.path) :
    ∃ s', runChecks settings checks file s = .ok s' ∧ s'.Answers R file.path ∧
      s'.diagnostics = s.diagnostics ++ foundByAll settings checks file R := by
  induction checks generalizing s with
  | nil => exact ⟨s, rfl, hs, by simp [foundByAll]⟩
  | cons c checks ih =>
    obtain ⟨s₁, hrun, hs₁, hfirst⟩ := Check.exists_run (h c List.mem_cons_self) hs
    obtain ⟨s₂, hruns, hs₂, hrest⟩ := ih (fun c hc => h c (List.mem_cons_of_mem _ hc)) hs₁
    refine ⟨s₂, ?_, hs₂, ?_⟩
    · rw [runChecks, List.foldlM_cons]
      exact bind_eq_ok.mpr ⟨s₁, hrun, hruns⟩
    · rw [hrest, hfirst, foundByAll, foundByAll, List.flatMap_cons, List.append_assoc]

/-- Where each check signs what it gives, its name tells its diagnostics from the others. -/
theorem filter_found {checks : List Check} (h : AllSign settings checks file R)
    (hnames : (checks.map (·.name)).Nodup) {c : Check} (hc : c ∈ checks) :
    (foundByAll settings checks file R).filter (·.check == c.name) =
      c.found (settings.check c.name) file R := by
  unfold foundByAll
  induction checks with
  | nil => exact absurd hc List.not_mem_nil
  | cons first checks ih =>
    rw [List.map_cons, List.nodup_cons] at hnames
    have hrest := fun c hc => h c (List.mem_cons_of_mem first hc)
    have hfirst := h first List.mem_cons_self
    rw [List.flatMap_cons, List.filter_append]
    rcases List.mem_cons.mp hc with rfl | hc
    · have hown : (c.found (settings.check c.name) file R).filter (·.check == c.name) =
          c.found (settings.check c.name) file R :=
        List.filter_eq_self.mpr fun d hd => beq_iff_eq.mpr (Check.check_of_mem_found hfirst hd)
      have hother : (checks.flatMap fun c => c.found (settings.check c.name) file R).filter
          (·.check == c.name) = [] := by
        refine List.filter_eq_nil_iff.mpr fun d hd heq => hnames.1 ?_
        obtain ⟨c', hc', hd⟩ := List.mem_flatMap.mp hd
        rw [← beq_iff_eq.mp heq, Check.check_of_mem_found (hrest c' hc') hd]
        exact List.mem_map_of_mem hc'
      rw [hown, hother, List.append_nil]
    · have hother : (first.found (settings.check first.name) file R).filter (·.check == c.name) = [] := by
        refine List.filter_eq_nil_iff.mpr fun d hd heq => hnames.1 ?_
        rw [← Check.check_of_mem_found hfirst hd, beq_iff_eq.mp heq]
        exact List.mem_map_of_mem hc
      rw [hother, List.nil_append, ih hrest hnames.2 hc]

/-! ## The diagnostics of a file -/

/-- What the directive comments of a source suppress on each line. -/
def suppressions (source : Bytes) (comments : List DirectiveComment) : LineSuppressions :=
  LineSuppressions.ofDirectives (comments.map Directive.classify)
    (Int.ofNat (Source.lineCount source))

def sinkOf (path : Text) (source : Bytes) (comments : List DirectiveComment) : Sink where
  path
  suppressions := suppressions source comments

variable {l l' : Linter} {language : Language} {path : Text} {source : Bytes}
  {comments : List DirectiveComment} {ds : List Diagnostic}

theorem checkBytes_eq_ok_iff
    (hcomments : directiveComments l.findComments language path source = .ok comments)
    (h : AllSign l.settings l.enabledChecks (.ofComments language path source comments)
      (suppressions source comments)) :
    l.checkBytes language path source = .ok ds ↔
      ∃ kept, l.settings.withoutIgnored
          ((foundByAll l.settings l.enabledChecks (.ofComments language path source comments)
            (suppressions source comments)).filter l.reachesThreshold) = .ok kept ∧
        ds = kept.mergeSort placeLe := by
  obtain ⟨after, hruns, -, hdiagnostics⟩ :=
    exists_runChecks (s := sinkOf path source comments) h ⟨rfl, fun _ => rfl⟩
  rw [sinkOf, List.nil_append] at hdiagnostics
  have hcheck : l.checkBytes language path source = (do
      let kept ← (l.settings.withoutIgnored
        (after.diagnostics.filter l.reachesThreshold)).mapError FileError.settings
      return kept.mergeSort placeLe) := by
    simp only [checkBytes, hcomments]
    change ((runChecks l.settings l.enabledChecks (.ofComments language path source comments)
      (sinkOf path source comments)).mapError FileError.check >>= _) = _
    rw [hruns]
    rfl
  rw [hcheck, bind_eq_ok, hdiagnostics]
  simp only [mapError_eq_ok]
  constructor
  · rintro ⟨kept, hkept, hresult⟩
    exact ⟨kept, hkept, (Except.ok.inj hresult).symm⟩
  · rintro ⟨kept, hkept, rfl⟩
    exact ⟨kept, hkept, rfl⟩

theorem start_nonneg_of_directiveComments {find : CommentFinder}
    (h : directiveComments find language path source = .ok comments) :
    ∀ d ∈ comments.map Directive.classify, 0 ≤ d.comment.start := by
  intro d hd
  obtain ⟨a, ha, rfl⟩ := List.mem_map.mp hd
  obtain ⟨cs, -, rfl⟩ := map_eq_ok.mp h
  obtain ⟨c, -, i, hi⟩ := DirectiveComment.exists_of_mem_ofComments ha
  obtain ⟨r, -, -, -, -, -, hstart⟩ := PlacedComment.exists_reading_of_recognize? hi
  rw [Directive.classify_comment, hstart]
  exact Int.natCast_nonneg _

/-- A linter has one check of another linter only, and treats its diagnostics as that one does. -/
structure Isolates (l' l : Linter) (c : Check) : Prop where
  enabledChecks : l'.enabledChecks = [c]
  settings : l'.settings.check c.name = l.settings.check c.name
  ignoreRules : l'.settings.ignoreRules = l.settings.ignoreRules
  findComments : l'.findComments = l.findComments

def only (l : Linter) (c : Check) : Linter :=
  { l with registry := CheckRegistry.register c [] }

theorem isolates_only {c : Check} (hc : c ∈ l.enabledChecks) : (l.only c).Isolates l c := by
  have henabled : l.settings.isEnabled c.name = true := (List.mem_filter.mp hc).2
  refine ⟨?_, rfl, rfl, rfl⟩
  rw [enabledChecks]
  exact List.filter_eq_self.mpr fun c' hc' => by rw [List.mem_singleton.mp hc']; exact henabled

/-- What reaches the threshold of a check does so as well where no other check is enabled. -/
theorem filter_reachesThreshold {file : CheckedFile} (R : LineSuppressions)
    (h : AllSign l.settings l.enabledChecks file R) (hnames : (l.enabledChecks.map (·.name)).Nodup)
    {c : Check} (hc : c ∈ l.enabledChecks) (hl' : l'.Isolates l c) :
    ((foundByAll l.settings l.enabledChecks file R).filter l.reachesThreshold).filter
        (·.check == c.name) =
      (foundByAll l'.settings l'.enabledChecks file R).filter l'.reachesThreshold := by
  have hown := filter_found h hnames hc
  have halone : foundByAll l'.settings l'.enabledChecks file R =
      c.found (l.settings.check c.name) file R := by
    rw [foundByAll, hl'.enabledChecks, List.flatMap_singleton, hl'.settings]
  rw [halone, ← hown, List.filter_filter, List.filter_filter]
  refine List.filter_congr fun d hd => ?_
  rw [Bool.and_comm]
  by_cases hname : d.check == c.name
  · rw [reachesThreshold, reachesThreshold, beq_iff_eq.mp hname, hl'.settings]
  · simp [hname]

theorem Isolates.allSign {c : Check} {file : CheckedFile} {R : LineSuppressions}
    (hl' : l'.Isolates l c) (hc : c ∈ l.enabledChecks)
    (h : AllSign l.settings l.enabledChecks file R) :
    AllSign l'.settings l'.enabledChecks file R := by
  intro c' hc'
  rw [hl'.enabledChecks, List.mem_singleton] at hc'
  rw [hc', hl'.settings]
  exact h c hc

theorem Isolates.checkBytes {c : Check} (hl' : l'.Isolates l c) (hc : c ∈ l.enabledChecks)
    (hcomments : directiveComments l.findComments language path source = .ok comments)
    (h : AllSign l.settings l.enabledChecks (.ofComments language path source comments)
      (suppressions source comments))
    (hnames : (l.enabledChecks.map (·.name)).Nodup)
    (hds : l.checkBytes language path source = .ok ds) :
    l'.checkBytes language path source = .ok (ds.filter (·.check == c.name)) := by
  obtain ⟨kept, hkept, rfl⟩ := (checkBytes_eq_ok_iff hcomments h).mp hds
  rw [← hl'.findComments] at hcomments
  refine (checkBytes_eq_ok_iff hcomments (hl'.allSign hc h)).mpr
    ⟨kept.filter (·.check == c.name), ?_, filter_mergeSort placeLe_trans placeLe_total _ kept⟩
  rw [← filter_reachesThreshold _ h hnames hc hl']
  exact Settings.withoutIgnored_filter hl'.ignoreRules hkept _

theorem exists_checkBytes
    (hcomments : directiveComments l.findComments language path source = .ok comments)
    (h : AllSign l.settings l.enabledChecks (.ofComments language path source comments)
      (suppressions source comments))
    (hnames : (l.enabledChecks.map (·.name)).Nodup)
    (hall : ∀ c ∈ l.enabledChecks, ∃ l' : Linter, ∃ ds,
      l'.Isolates l c ∧ l'.checkBytes language path source = .ok ds) :
    ∃ ds, l.checkBytes language path source = .ok ds := by
  have hkept : ∃ kept, l.settings.withoutIgnored
      ((foundByAll l.settings l.enabledChecks (.ofComments language path source comments)
        (suppressions source comments)).filter l.reachesThreshold) = .ok kept := by
    refine Settings.exists_withoutIgnored_iff.mpr fun d hd => ?_
    obtain ⟨c, hc, hfound⟩ := List.mem_flatMap.mp (List.mem_of_mem_filter hd)
    obtain ⟨l', ds, hl', hds⟩ := hall c hc
    have hcomments' := hcomments
    rw [← hl'.findComments] at hcomments'
    obtain ⟨kept, hkept, -⟩ := (checkBytes_eq_ok_iff hcomments' (hl'.allSign hc h)).mp hds
    rw [← filter_reachesThreshold _ h hnames hc hl'] at hkept
    have hname : (d.check == c.name) = true :=
      beq_iff_eq.mpr (Check.check_of_mem_found (h c hc) hfound)
    rw [← Settings.ignoresDiagnostic_of_ignoreRules hl'.ignoreRules]
    exact Settings.exists_withoutIgnored_iff.mp ⟨kept, hkept⟩ d (List.mem_filter.mpr ⟨hd, hname⟩)
  obtain ⟨kept, hkept⟩ := hkept
  exact ⟨_, (checkBytes_eq_ok_iff hcomments h).mpr ⟨kept, hkept, rfl⟩⟩

/-- Where every check signs what it gives with a name of its own, the diagnostics of a check are
the same as if it were the only enabled one, and no file fails that would not fail for one of its
checks alone. Before each check, whatever ran before it, the sink suppresses what the directives of
the file say, and this is what the entries of a check are dropped for. -/
theorem checks_do_not_interfere (l : Linter)
    (hchecks : ∀ c ∈ l.enabledChecks, c = Check.directives ∨ ∀ context, c.Signs context)
    (hnames : (l.enabledChecks.map (·.name)).Nodup)
    (language : Language) (path : Text) (source : Bytes) :
    (∀ ds, l.checkBytes language path source = .ok ds →
      ∀ c ∈ l.enabledChecks, ∀ l' : Linter, l'.Isolates l c →
        l'.checkBytes language path source = .ok (ds.filter (·.check == c.name))) ∧
    (l.enabledChecks ≠ [] →
      (∀ c ∈ l.enabledChecks, ∃ l' : Linter, ∃ ds,
        l'.Isolates l c ∧ l'.checkBytes language path source = .ok ds) →
      ∃ ds, l.checkBytes language path source = .ok ds) ∧
    ∀ comments, directiveComments l.findComments language path source = .ok comments →
      (∀ before c rest, l.enabledChecks = before ++ c :: rest →
        ∃ s, runChecks l.settings before (.ofComments language path source comments)
            (sinkOf path source comments) = .ok s ∧
          ∀ line rule,
            s.isSuppressed line rule = (suppressions source comments).covers line rule) ∧
      ∃ s, runChecks l.settings l.enabledChecks (.ofComments language path source comments)
          (sinkOf path source comments) = .ok s ∧
        ∀ c ∈ l.enabledChecks, c.pastSuppressions = false →
          ∃ entries, c.entries (Check.context (l.settings.check c.name)
              (.ofComments language path source comments) (suppressions source comments)) =
              .ok entries ∧
            s.diagnostics.filter (·.check == c.name) =
              (entries.filter fun e => !(suppressions source comments).covers e.line e.rule).map
                (·.diagnostic path) := by
  have hsigns {comments : List DirectiveComment}
      (hcomments : directiveComments l.findComments language path source = .ok comments) :
      AllSign l.settings l.enabledChecks (.ofComments language path source comments)
        (suppressions source comments) := by
    intro c hc
    rcases hchecks c hc with rfl | hc
    · exact Check.signs_directives (start_nonneg_of_directiveComments hcomments)
    · exact hc _
  refine ⟨fun ds hds c hc l' hl' => ?_, fun hne hall => ?_, fun comments hcomments => ⟨?_, ?_⟩⟩
  · obtain ⟨comments, hcomments, -⟩ := bind_eq_ok.mp hds
    rw [mapError_eq_ok] at hcomments
    exact hl'.checkBytes hc hcomments (hsigns hcomments) hnames hds
  · obtain ⟨c, hc⟩ := List.exists_mem_of_ne_nil _ hne
    obtain ⟨l', ds, hl', hds⟩ := hall c hc
    obtain ⟨comments, hcomments, -⟩ := bind_eq_ok.mp hds
    rw [mapError_eq_ok, hl'.findComments] at hcomments
    exact exists_checkBytes hcomments (hsigns hcomments) hnames hall
  · intro before c rest henabled
    have hall := hsigns hcomments
    unfold AllSign at hall
    rw [henabled] at hall
    obtain ⟨s, hs, hanswers, -⟩ := exists_runChecks (s := sinkOf path source comments)
      (fun c hc => hall c (List.mem_append_left _ hc)) ⟨rfl, fun _ => rfl⟩
    exact ⟨s, hs, hanswers.isSuppressed⟩
  · obtain ⟨s, hs, -, hdiagnostics⟩ := exists_runChecks (s := sinkOf path source comments)
      (hsigns hcomments) ⟨rfl, fun _ => rfl⟩
    refine ⟨s, hs, fun c hc hpast => ?_⟩
    obtain ⟨entries, hentries, -⟩ := hsigns hcomments c hc
    refine ⟨entries, hentries, ?_⟩
    rw [hdiagnostics, sinkOf, List.nil_append, filter_found (hsigns hcomments) hnames hc]
    simp only [Check.found, hentries, Check.accepted, hpast]
    rfl

/-- A check that notes some lines, whatever stands on them. -/
private def lineNotes (name : Text) (lines : List Int) : Check where
  name
  description := []
  entries := fun _ => .ok (lines.map fun line =>
    { line, check := name, rule := "Notes.Line", severity := .warning, message := [] })

private theorem signs_lineNotes (name : Text) (lines : List Int) (context : CheckContext) :
    (lineNotes name lines).Signs context := by
  refine ⟨_, rfl, fun e he => ?_⟩
  obtain ⟨line, -, rfl⟩ := List.mem_map.mp he
  rfl

private def notesAround : CheckRegistry :=
  CheckRegistry.register (lineNotes "later" [3, 1])
    (CheckRegistry.register Check.directives
      (CheckRegistry.register (lineNotes "earlier" [2, 3]) []))

private def notedSource : Bytes :=
  Text.utf8 "# lint:ignore\ny\nz"

/-- A bare `ignore` on the first line is reported there. It silences the notes on its own line and
on the next one, those made before the report as well as those made after it. -/
theorem notes_around_bare_ignore :
    let l : Linter := { registry := notesAround }
    ∃ ds, l.checkBytes .python "a.py" notedSource = .ok ds ∧
      ∀ c ∈ l.enabledChecks, (ds.filter (·.check == c.name)).map (·.location.line) =
        if c.name = "directives".toList then [1] else [3] := by
  intro l
  have hchecks : ∀ c ∈ l.enabledChecks, c = Check.directives ∨ ∀ context, c.Signs context := by
    intro c hc
    rw [show l.enabledChecks = [lineNotes "earlier" [2, 3], Check.directives,
      lineNotes "later" [3, 1]] from rfl] at hc
    simp only [List.mem_cons, List.not_mem_nil, or_false] at hc
    rcases hc with rfl | rfl | rfl
    · exact .inr (signs_lineNotes _ _)
    · exact .inl rfl
    · exact .inr (signs_lineNotes _ _)
  have halone : ∀ c ∈ l.enabledChecks,
      ((l.only c).checkBytes .python "a.py" notedSource).toOption.map (·.map (·.location.line)) =
        some (if c.name = "directives".toList then [1] else [3]) := by decide +kernel
  obtain ⟨hfilter, hsucceeds, -⟩ :=
    checks_do_not_interfere l hchecks (by decide +kernel) .python "a.py" notedSource
  have hisolated : ∀ c ∈ l.enabledChecks, ∃ ds,
      (l.only c).checkBytes .python "a.py" notedSource = .ok ds ∧
        ds.map (·.location.line) = if c.name = "directives".toList then [1] else [3] := by
    intro c hc
    obtain ⟨ds, hds, hlines⟩ := Option.map_eq_some_iff.mp (halone c hc)
    exact ⟨ds, eq_ok_of_toOption hds, hlines⟩
  obtain ⟨ds, hds⟩ := hsucceeds (by decide +kernel) fun c hc => by
    obtain ⟨ds, hds, -⟩ := hisolated c hc
    exact ⟨l.only c, ds, isolates_only hc, hds⟩
  refine ⟨ds, hds, fun c hc => ?_⟩
  obtain ⟨ds', hds', hlines⟩ := hisolated c hc
  rw [hfilter ds hds c hc _ (isolates_only hc)] at hds'
  rw [Except.ok.inj hds', hlines]

end Linter

end LintDirectives
