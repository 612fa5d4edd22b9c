import LintDirectives.TextReport
import LintDirectives.Proofs.KeyedGroups
import Mathlib.Data.Char
import Mathlib.Data.List.DropRight
import Mathlib.Data.List.Lex

/-!
# Groups and counts of a report

The report for terminals shows the diagnostics of each file together and the files by increasing
path, so each diagnostic is shown once. The counts above them are those of the diagnostics shown.
-/

namespace LintDirectives

theorem Text.le_iff (a b : Text) : Text.le a b = true ↔ a ≤ b := by
  rw [Text.le, Bool.not_eq_true', ← Bool.not_eq_true, List.lex_eq_true_iff_lex]
  simp only [decide_eq_true_eq]
  exact (not_congr List.lex_lt).trans not_lt

theorem pairwise_mergeSort_le (ts : List Text) :
    (ts.mergeSort Text.le).Pairwise (· ≤ ·) := by
  have hsorted : (ts.mergeSort Text.le).Pairwise fun a b => Text.le a b = true :=
    List.pairwise_mergeSort
      (fun a b c hab hbc => by
        rw [Text.le_iff] at hab hbc ⊢
        exact hab.trans hbc)
      (fun a b => by
        rw [Bool.or_eq_true, Text.le_iff, Text.le_iff]
        exact le_total a b) ts
  exact hsorted.imp fun hle => (Text.le_iff _ _).mp hle

namespace TextReport

/-! ## The files of the diagnostics -/

/-- The files with diagnostics, by increasing path. -/
def paths (ds : List Diagnostic) : List Text :=
  (ds.map (·.location.file)).eraseDups.mergeSort Text.le

/-- The diagnostics of a file, in their own order. -/
def inFile (ds : List Diagnostic) (file : Text) : List Diagnostic :=
  ds.filter (·.location.file = file)

def shown (ds : List Diagnostic) : List Diagnostic :=
  (paths ds).flatMap (inFile ds)

variable (ds : List Diagnostic)

theorem paths_perm : (paths ds).Perm (ds.map (·.location.file)).eraseDups :=
  List.mergeSort_perm _ _

theorem paths_nodup : (paths ds).Nodup :=
  (paths_perm ds).nodup_iff.mpr (KeyedList.nodup_eraseDups _)

theorem mem_paths {file : Text} : file ∈ paths ds ↔ ∃ d ∈ ds, d.location.file = file := by
  rw [(paths_perm ds).mem_iff, List.mem_eraseDups, List.mem_map]

theorem paths_increasing : (paths ds).Pairwise (· < ·) :=
  ((pairwise_mergeSort_le _).and (paths_nodup ds)).imp fun ⟨hle, hne⟩ => lt_of_le_of_ne hle hne

theorem inFile_ne_nil {file : Text} (h : file ∈ paths ds) : inFile ds file ≠ [] := by
  obtain ⟨d, hd, hfile⟩ := (mem_paths ds).mp h
  exact List.ne_nil_of_mem (List.mem_filter.mpr ⟨hd, decide_eq_true hfile⟩)

theorem shown_perm : (shown ds).Perm ds :=
  KeyedList.flatMap_filter_perm (fun d : Diagnostic => d.location.file) (paths_nodup ds)
    fun d hd => (mem_paths ds).mpr ⟨d, hd, rfl⟩

theorem groups_eq : groups ds = (paths ds).map fun file => (file, inFile ds file) := by
  have hown (file : Text) : ((ds.map fun d => (d.location.file, d)).filter
      fun pair => pair.1 = file).map Prod.snd = inFile ds file := by
    rw [List.filter_map, List.map_map]
    exact List.map_id _
  rw [groups, KeyedList.group_eq, List.map_map]
  simp only [hown]
  exact (List.map_mergeSort (f := fun file => (file, inFile ds file)) fun _ _ _ _ => rfl).symm

/-! ## Counts -/

/-- A summary, and the counts that are shown of it, are those of some diagnostics. -/
structure Counted (s : Summary) : Prop where
  total : s.total = ds.length
  fixable : s.fixable = ds.countP (·.isFixable)
  bySeverity : KeyedList.Counts s.bySeverity (ds.map (·.severity))
  severityCounts : KeyedList.Counts (severityCounts s) (ds.map (·.severity))
  byCode : KeyedList.Counts s.byCode (ds.map (·.code))

variable {ds} in
theorem Counted.of_perm {ds' : List Diagnostic} {s : Summary} (h : Counted ds s) (hperm : ds'.Perm ds) :
    Counted ds' s where
  total := h.total.trans hperm.length_eq.symm
  fixable := h.fixable.trans (hperm.countP_eq _).symm
  bySeverity := h.bySeverity.of_perm (hperm.map _)
  severityCounts := h.severityCounts.of_perm (hperm.map _)
  byCode := h.byCode.of_perm (hperm.map _)

theorem severityCounts_eq {s : Summary} {l : List Severity} (h : KeyedList.Counts s.bySeverity l) :
    severityCounts s = (Severity.all.filter fun sev => 0 < l.count sev).map fun sev =>
      (sev, l.count sev) := by
  rw [severityCounts, List.filter_map]
  simp only [h.getD_get?]
  rfl

theorem counts_severityCounts {s : Summary} {l : List Severity}
    (h : KeyedList.Counts s.bySeverity l) : KeyedList.Counts (severityCounts s) l := by
  have hall : Severity.all.Nodup := by decide
  rw [severityCounts_eq h]
  refine KeyedList.counts_map_count (hall.filter _) fun sev => ?_
  have hsev : sev ∈ Severity.all := by cases sev <;> decide
  rw [List.mem_filter, decide_eq_true_eq, List.count_pos_iff]
  exact and_iff_right hsev

theorem counted_summary (r : RunResult) : Counted r.diagnostics r.summary where
  total := rfl
  fixable := List.countP_eq_length_filter.symm
  bySeverity := KeyedList.counts_tally _
  severityCounts := counts_severityCounts (KeyedList.counts_tally _)
  byCode := KeyedList.counts_tally _

/-! ## The lines of a report -/

/-- The line that counts the diagnostics of each severity that occurs. -/
def severityLine : Text :=
  let occurring := Severity.all.filter fun sev => ∃ d ∈ ds, d.severity = sev
  "  " ++ List.intercalate [',', ' '] (occurring.map fun sev =>
    colour sev ++ Text.ofNat (ds.countP (·.severity = sev)) ++ " " ++ sev.name ++ reset)

def fixableLines : List Text :=
  if ∃ d ∈ ds, d.fix ≠ none then
    ["  " ++ Text.ofNat (ds.countP (·.fix ≠ none)) ++ " fixable with \x60scalpel fix\x60"]
  else []

variable {ds} in
theorem Counted.severityLine_eq {s : Summary} (h : Counted ds s) :
    "  " ++ Text.join ", " ((TextReport.severityCounts s).map fun (sev, n) =>
      colour sev ++ Text.ofNat n ++ " " ++ sev.name ++ reset) = severityLine ds := by
  have hcount (sev : Severity) :
      (ds.map (·.severity)).count sev = ds.countP (·.severity = sev) := by
    rw [List.count_eq_countP, List.countP_map]
    rfl
  have hoccurs (sev : Severity) : 0 < ds.countP (·.severity = sev) ↔ ∃ d ∈ ds, d.severity = sev := by
    simp [List.countP_pos_iff]
  rw [severityCounts_eq h.bySeverity, List.map_map, severityLine]
  simp only [hcount, hoccurs, Function.comp_def]
  rfl

variable {ds} in
theorem Counted.fixableLines_eq {s : Summary} (h : Counted ds s) :
    (if s.fixable = 0 then []
      else ["  " ++ Text.ofNat s.fixable ++ " fixable with \x60scalpel fix\x60"]) = fixableLines ds := by
  have hcount : s.fixable = ds.countP (·.fix ≠ none) := by
    rw [h.fixable]
    exact List.countP_congr fun d _ => by simp [Diagnostic.isFixable, Option.isSome_iff_ne_none]
  have hnone : s.fixable = 0 ↔ ¬ ∃ d ∈ ds, d.fix ≠ none := by
    rw [hcount, List.countP_eq_zero]
    simp
  rw [fixableLines, ← hcount]
  by_cases hzero : s.fixable = 0
  · rw [if_pos hzero, if_neg (hnone.mp hzero)]
  · rw [if_neg hzero, if_pos (not_not.mp fun hnot => hzero (hnone.mpr hnot))]

variable {ds} in
theorem Counted.heading_eq {s : Summary} (h : Counted ds s) :
    heading s = ["Found " ++ Text.ofNat ds.length ++ " problem(s) in " ++ Text.ofInt s.files ++
      " file(s):", severityLine ds] ++ fixableLines ds ++ [[]] := by
  rw [heading, h.total, h.severityLine_eq, h.fixableLines_eq]

theorem block_eq (withFixes : Bool) (d : Diagnostic) : block withFixes d =
    ["  " ++ Text.ofInt d.location.line ++ d.location.column.elim [] (':' :: Text.ofInt ·) ++ " " ++
        colour d.severity ++ "[" ++ d.severity.label ++ "]" ++ reset ++ " " ++ d.rule,
      "    " ++ d.message] ++
      (if withFixes then d.fix.toList.map fun e =>
        "    " ++ bold ++ "Fix:" ++ reset ++ " " ++ Text.quoted e.text
      else []) := by
  obtain ⟨_, _, ⟨_, _, _ | column⟩, _, _, _ | e⟩ := d <;> cases withFixes <;>
    simp [block, List.append_assoc]

theorem fileLines_eq (withFixes : Bool) (file : Text) :
    fileLines file (ds.map (block withFixes)) =
      [bold ++ file ++ reset] ++ ds.flatMap (block withFixes) ++ [[]] := by
  rw [fileLines, List.flatMap_def]
  rfl

theorem lines_eq (withFixes : Bool) {r : RunResult} (h : r.diagnostics ≠ []) :
    lines withFixes r = opening r ++ (heading r.summary ++ (paths r.diagnostics).flatMap fun file =>
      fileLines file ((inFile r.diagnostics file).map (block withFixes))) ++ errorLines r := by
  have hsome : ¬ r.diagnostics.isEmpty := by simpa using h
  rw [lines, if_neg hsome, body, groups_eq, List.flatMap_map]

theorem errorLines_eq (r : RunResult) : errorLines r =
    if r.errors = [] then [] else
      [colour .error ++ "Errors:" ++ reset] ++ r.errors.map ("  - ".toList ++ ·) := by
  simp only [errorLines, List.isEmpty_iff]
  rfl

theorem exists_render (withFixes : Bool) (r : RunResult) :
    ∃ n, Text.lines (lines withFixes r) = render withFixes r ++ List.replicate n '\n' := by
  refine ⟨((Text.lines (lines withFixes r)).rtakeWhile (· == '\n')).length, ?_⟩
  have hfeeds : (Text.lines (lines withFixes r)).rtakeWhile (· == '\n') = List.replicate _ '\n' :=
    List.eq_replicate_of_mem fun c hc => by simpa using List.mem_rtakeWhile_imp hc
  rw [← hfeeds]
  exact List.rdropWhile_append_rtakeWhile.symm

theorem render_getLast_ne (withFixes : Bool) (r : RunResult) :
    (render withFixes r).getLast? ≠ some '\n' := by
  intro hlast
  have hne : render withFixes r ≠ [] := fun hnil => by simp [hnil] at hlast
  refine List.rdropWhile_last_not (· == '\n') (Text.lines (lines withFixes r)) hne ?_
  rw [List.getLast?_eq_some_getLast hne] at hlast
  exact beq_iff_eq.mpr (Option.some.inj hlast)

/-- A report with diagnostics shows each of them once: the files by strictly increasing path, in each
of them its own diagnostics in their order, each with its place, severity, rule and message. What is
counted above the files, and in the summary, are the diagnostics that are shown. Only line feeds at the
end of the lines are left out. -/
theorem shows_each_diagnostic_once (withFixes : Bool) (r : RunResult) (h : r.diagnostics ≠ []) :
    let ds := shown r.diagnostics
    (lines withFixes r =
      [bold ++ "Scalpel" ++ reset, "Target: " ++ r.target, []] ++
      (if r.fixesApplied = 0 then [] else
        ["Applied " ++ Text.ofInt r.fixesApplied ++ " fix(es).", []]) ++
      ["Found " ++ Text.ofNat ds.length ++ " problem(s) in " ++ Text.ofInt r.filesChecked ++ " file(s):",
        severityLine ds] ++ fixableLines ds ++ [[]] ++
      ((paths r.diagnostics).flatMap fun file =>
        [bold ++ file ++ reset] ++ (inFile r.diagnostics file).flatMap (block withFixes) ++ [[]]) ++
      (if r.errors = [] then [] else
        [colour .error ++ "Errors:" ++ reset] ++ r.errors.map ("  - ".toList ++ ·))) ∧
    (∀ d, block withFixes d =
      ["  " ++ Text.ofInt d.location.line ++ d.location.column.elim [] (':' :: Text.ofInt ·) ++ " " ++
          colour d.severity ++ "[" ++ d.severity.label ++ "]" ++ reset ++ " " ++ d.rule,
        "    " ++ d.message] ++
        (if withFixes then d.fix.toList.map fun e =>
          "    " ++ bold ++ "Fix:" ++ reset ++ " " ++ Text.quoted e.text
        else [])) ∧
    (∃ n, List.intercalate ['\n'] (lines withFixes r) = render withFixes r ++ List.replicate n '\n') ∧
    (render withFixes r).getLast? ≠ some '\n' ∧
    (paths r.diagnostics).Pairwise (· < ·) ∧
    (∀ file ∈ paths r.diagnostics, inFile r.diagnostics file ≠ []) ∧
    (ds.map (block withFixes)).Perm (r.diagnostics.map (block withFixes)) ∧
    Counted ds r.summary := by
  have hcounted := (counted_summary r).of_perm (shown_perm r.diagnostics)
  refine ⟨?_, block_eq withFixes, exists_render withFixes r, render_getLast_ne withFixes r,
    paths_increasing _, fun _ => inFile_ne_nil _, (shown_perm _).map _, hcounted⟩
  rw [lines_eq withFixes h, errorLines_eq, hcounted.heading_eq]
  simp only [fileLines_eq, List.append_assoc]
  rfl

private def byTurns : RunResult where
  target := "."
  diagnostics := [
    ⟨"names", "names.short", ⟨"b", 1, none⟩, .error, "Too short.", none⟩,
    ⟨"names", "names.long", ⟨"a", 2, some 4⟩, .warning, "Too long.", some ⟨7, 9, "c", by decide⟩⟩,
    ⟨"names", "names.short", ⟨"b", 3, none⟩, .warning, "Too short.", none⟩]
  filesChecked := 2

/-- Diagnostics of two files that come in turns. -/
theorem turns_are_grouped :
    byTurns.diagnostics ≠ [] ∧ paths byTurns.diagnostics = [['a'], ['b']] ∧
    (shown byTurns.diagnostics).map (·.location.line) = [2, 1, 3] ∧
    lines true byTurns = [
      "\x1b[1mScalpel\x1b[0m", "Target: .", "",
      "Found 3 problem(s) in 2 file(s):",
      "  \x1b[91m1 error\x1b[0m, \x1b[93m2 warning\x1b[0m",
      "  1 fixable with \x60scalpel fix\x60", "",
      "\x1b[1ma\x1b[0m",
      "  2:4 \x1b[93m[WARNING]\x1b[0m names.long", "    Too long.", "    \x1b[1mFix:\x1b[0m 'c'", "",
      "\x1b[1mb\x1b[0m",
      "  1 \x1b[91m[ERROR]\x1b[0m names.short", "    Too short.",
      "  3 \x1b[93m[WARNING]\x1b[0m names.short", "    Too short.", ""].map String.toList ∧
    Counted (shown byTurns.diagnostics) byTurns.summary := by
  have hsome : byTurns.diagnostics ≠ [] := nofun
  have hfiles : (byTurns.diagnostics.map (·.location.file)).eraseDups = [['b'], ['a']] := rfl
  have hpaths : paths byTurns.diagnostics = [['a'], ['b']] := by
    rw [paths, hfiles]
    simp [List.mergeSort, Text.le]
  obtain ⟨hlines, -, -, -, -, -, -, hcounted⟩ := shows_each_diagnostic_once true byTurns hsome
  have hshown : (shown byTurns.diagnostics).map (·.location.line) = [2, 1, 3] := by
    rw [shown, hpaths]
    rfl
  refine ⟨hsome, hpaths, hshown, ?_, hcounted⟩
  rw [hlines, shown, hpaths]
  decide +kernel

end TextReport

end LintDirectives
