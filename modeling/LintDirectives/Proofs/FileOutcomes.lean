import LintDirectives.ProjectRun
import LintDirectives.Proofs.FileWriting
import Mathlib.Algebra.GroupWithZero.Nat
import Mathlib.Data.List.Basic
import Mathlib.Data.List.Induction

/-!
# What becomes of the files of a run

A run reads each of its files, checks or fixes it, and writes it back if it changed. What becomes of
the file depends on its content and on what the system says about its place. A step of a run brings
just that about, whatever the run did before, unless the check of the file stops the run.
-/

namespace LintDirectives

/-- What becomes of a file: what it holds afterwards, and what the run tells of it, which is either
its trouble or what fixing it came to. A file that is only checked counts as fixed without edits. -/
structure FileOutcome where
  content : Bytes
  told : Except Text Linter.Fixed

namespace FileChecker

def checkOutcome (c : FileChecker) (system : FileSystem) (place : Place) (language : Language)
    (path : Text) (source : Bytes) : FileOutcome where
  content := source
  told :=
    match system.readFault? place with
    | some message => .error message
    | none =>
      match c.check language path source with
      | .ok ds => .ok ⟨source, 0, ds⟩
      | .error e => .error (e.message?.getD [])

def fixOutcome (c : FileChecker) (system : FileSystem) (place : Place) (language : Language)
    (path : Text) (source : Bytes) : FileOutcome :=
  match system.readFault? place with
  | some message => ⟨source, .error message⟩
  | none =>
    match c.fixBytes language path source with
    | .error e => ⟨source, .error (e.message?.getD [])⟩
    | .ok fixed =>
      if fixed.source = source then ⟨source, .ok fixed⟩
      else
        match system.writeFault? place fixed.source with
        | some fault => ⟨fault.left.getD source, .error fault.message⟩
        | none => ⟨fixed.source, .ok fixed⟩

/-- A file that does not fail was read and fixed, and holds what it was fixed to. -/
theorem fixOutcome_of_told {c : FileChecker} {system : FileSystem} {place : Place}
    {language : Language} {path : Text} {source : Bytes} {fixed : Linter.Fixed}
    (h : (c.fixOutcome system place language path source).told = .ok fixed) :
    system.readFault? place = none ∧ c.fixBytes language path source = .ok fixed ∧
      (c.fixOutcome system place language path source).content = fixed.source := by
  unfold fixOutcome at h ⊢
  cases hread : system.readFault? place with
  | some message =>
    rw [hread] at h
    exact nomatch h
  | none =>
    simp only [hread] at h ⊢
    cases hfixed : c.fixBytes language path source with
    | error e =>
      rw [hfixed] at h
      exact nomatch h
    | ok f =>
      simp only [hfixed] at h ⊢
      by_cases hsame : f.source = source
      · rw [if_pos hsame] at h ⊢
        obtain rfl := Except.ok.inj h
        exact ⟨trivial, rfl, hsame.symm⟩
      · rw [if_neg hsame] at h ⊢
        cases hfault : system.writeFault? place f.source with
        | some fault =>
          rw [hfault] at h
          exact nomatch h
        | none =>
          rw [hfault] at h
          obtain rfl := Except.ok.inj h
          exact ⟨trivial, rfl, rfl⟩

end FileChecker

/-! ## What is told -/

/-- What a run tells of its files, in order. -/
abbrev RunReport := List (FilePath × Except Text Linter.Fixed)

namespace RunReport

/-- The files that did not fail. -/
def fixed (report : RunReport) : List Linter.Fixed :=
  report.filterMap fun entry => entry.2.toOption

/-- A line about each file that failed. -/
def troubles (report : RunReport) : List Text :=
  report.filterMap fun (file, told) =>
    match told with
    | .error trouble => some (file.text ++ ": " ++ trouble)
    | .ok _ => none

variable (file : FilePath) (f : Linter.Fixed) (trouble : Text) (report report' : RunReport)

@[simp] theorem fixed_nil : fixed [] = [] := rfl

@[simp] theorem fixed_ok : fixed ((file, .ok f) :: report) = f :: report.fixed := rfl

@[simp] theorem fixed_error : fixed ((file, .error trouble) :: report) = report.fixed := rfl

@[simp] theorem fixed_append : fixed (report ++ report') = report.fixed ++ report'.fixed :=
  List.filterMap_append ..

@[simp] theorem troubles_nil : troubles [] = [] := rfl

@[simp] theorem troubles_ok : troubles ((file, .ok f) :: report) = report.troubles := rfl

@[simp] theorem troubles_error : troubles ((file, .error trouble) :: report) =
    (file.text ++ ": " ++ trouble) :: report.troubles := rfl

@[simp] theorem troubles_append : troubles (report ++ report') = report.troubles ++ report'.troubles :=
  List.filterMap_append ..

end RunReport

/-- Add what is told of some files. -/
def RunResult.note (report : RunReport) (r : RunResult) : RunResult :=
  { r with
    diagnostics := r.diagnostics ++ report.fixed.flatMap (·.remaining)
    errors := r.errors ++ report.troubles
    filesChecked := r.filesChecked + report.fixed.length
    fixesApplied := r.fixesApplied + (report.fixed.map (·.applied)).sum }

theorem RunResult.note_append (report report' : RunReport) (r : RunResult) :
    r.note (report ++ report') = (r.note report).note report' := by
  simp [note, Int.add_assoc]

namespace Run

variable {r r₁ r₂ : Run} {tree : FileTree}
  {report : RunReport}

/-- A run goes on as before with another tree, after it told of some files. -/
def Tells (r : Run) (tree : FileTree) (report : RunReport) (after : Run) : Prop :=
  ∃ log, after = { r with tree, log, result := r.result.note report }

theorem tells_nil (r : Run) : r.Tells r.tree [] r :=
  ⟨r.log, by simp [RunResult.note]⟩

theorem Tells.trans {tree' : FileTree} {report' : RunReport} (h : r.Tells tree report r₁)
    (h' : r₁.Tells tree' report' r₂) : r.Tells tree' (report ++ report') r₂ := by
  obtain ⟨log, rfl⟩ := h
  obtain ⟨log', rfl⟩ := h'
  exact ⟨log', by rw [RunResult.note_append]⟩

theorem Tells.tree_eq (h : r.Tells tree report r₁) : r₁.tree = tree := by
  obtain ⟨log, rfl⟩ := h
  rfl

theorem Tells.result_eq (h : r.Tells tree report r₁) : r₁.result = r.result.note report := by
  obtain ⟨log, rfl⟩ := h
  rfl

theorem Tells.failure_eq (h : r.Tells tree report r₁) : r₁.failure = r.failure := by
  obtain ⟨log, rfl⟩ := h
  rfl

theorem tells_noteTrouble (v : Verbosity) (file : FilePath) (trouble : Text) (r : Run)
    (tree : FileTree) :
    r.Tells tree [(file, .error trouble)] ({ r with tree }.noteTrouble v file trouble) :=
  ⟨_, by simp [noteTrouble, RunResult.note]; rfl⟩

theorem tells_noteFile (file : FilePath) (f : Linter.Fixed) (lines : List Text) (r : Run)
    (tree : FileTree) :
    r.Tells tree [(file, .ok f)] ({ r with tree }.noteFile f.applied f.remaining lines) :=
  ⟨_, by simp [noteFile, RunResult.note]; rfl⟩

end Run

/-! ## Reading and writing -/

namespace Workspace

variable {w : Workspace} {tree : FileTree} {file : FilePath} {place : Place} {source : Bytes}

theorem read_of_fileAt (h : tree.FileAt w.directory file place source) :
    w.read tree file = match w.system.readFault? place with
      | some message => .error message
      | none => .ok source := by
  cases hfault : w.system.readFault? place with
  | some message => simp [read, h.path, hfault]
  | none => simp [read, h.path, h.node, hfault]

theorem exists_write_of_noFault (h : tree.FileAt w.directory file place source) {new : Bytes}
    (hfault : w.system.writeFault? place new = none) :
    ∃ tree', w.write tree file new = (tree', none) ∧ tree.Wrote place new tree' := by
  obtain ⟨tree', hwrite, hwrote⟩ := h.exists_write new
  exact ⟨tree', by simp only [write, h.path, hfault, hwrite], hwrote⟩

/-- After a write that failed, a file holds what got through, if it was opened at all. -/
theorem exists_write_of_fault (h : tree.FileAt w.directory file place source) {new : Bytes}
    {fault : WriteFault} (hfault : w.system.writeFault? place new = some fault) :
    ∃ tree', w.write tree file new = (tree', some fault.message) ∧
      tree.Wrote place (fault.left.getD source) tree' := by
  simp only [write, h.path, hfault]
  cases fault.left with
  | none => exact ⟨tree, rfl, FileTree.wrote_self h.node⟩
  | some left =>
    obtain ⟨tree', hwrite, hwrote⟩ := h.exists_write left
    refine ⟨tree', ?_, hwrote⟩
    rw [Option.bind_some, hwrite]
    rfl

/-- The place, the language and the content of a file that a run can look into. -/
def source? (w : Workspace) (tree : FileTree) (file : FilePath) :
    Option (Place × Language × Bytes) :=
  match tree.locate w.directory file, Language.ofPath? file.text with
  | .ok place, some language =>
    match tree.node? place with
    | some (.file source) => some (place, language, source)
    | _ => none
  | _, _ => none

theorem source?_eq_some_iff {language : Language} :
    w.source? tree file = some (place, language, source) ↔
      tree.FileAt w.directory file place source ∧ Language.ofPath? file.text = some language := by
  unfold source?
  constructor
  · intro h
    split at h
    · next hpath hlanguage =>
      split at h
      · next hnode =>
        obtain ⟨rfl, rfl, rfl⟩ := by simpa using h
        exact ⟨⟨hpath, hnode⟩, hlanguage⟩
      · exact nomatch h
    · exact nomatch h
  · rintro ⟨hfile, hlanguage⟩
    simp only [hfile.path, hlanguage, hfile.node]

/-- What a run tells of some files, when the outcome of each depends on its content only. -/
def report (w : Workspace) (tree : FileTree)
    (outcome : Place → Language → Text → Bytes → FileOutcome) (files : List FilePath) :
    RunReport :=
  files.filterMap fun file => (w.source? tree file).map fun (place, language, source) =>
    (file, (outcome place language file.text source).told)

/-- A run sees the same of a file in a tree with the same names and the same at its place. -/
theorem source?_of_blank_eq {tree' : FileTree} (h : tree'.blank = tree.blank)
    (hnode : ∀ place, tree.locate w.directory file = .ok place →
      tree'.node? place = tree.node? place) : w.source? tree' file = w.source? tree file := by
  rw [source?, source?, FileTree.locate_of_blank_eq h]
  cases hpath : tree.locate w.directory file with
  | error e => rfl
  | ok place =>
    cases Language.ofPath? file.text with
    | none => rfl
    | some language => simp only [hnode place hpath]

/-- A file that a run can look into stays one when only contents change. -/
theorem isSome_source?_of_blank_eq {tree' : FileTree} (h : tree'.blank = tree.blank)
    (hsome : (w.source? tree file).isSome) : (w.source? tree' file).isSome := by
  obtain ⟨⟨place, language, source⟩, hsource⟩ := Option.isSome_iff_exists.mp hsome
  obtain ⟨hfile, hlanguage⟩ := source?_eq_some_iff.mp hsource
  obtain ⟨content, hfile'⟩ := hfile.of_blank_eq h
  exact Option.isSome_iff_exists.mpr ⟨_, source?_eq_some_iff.mpr ⟨hfile', hlanguage⟩⟩

variable {outcome : Place → Language → Text → Bytes → FileOutcome} {files files' : List FilePath}

theorem report_append : w.report tree outcome (files ++ files') =
    w.report tree outcome files ++ w.report tree outcome files' :=
  List.filterMap_append ..

theorem report_singleton {language : Language}
    (h : w.source? tree file = some (place, language, source)) :
    w.report tree outcome [file] = [(file, (outcome place language file.text source).told)] := by
  simp [report, h]

/-- Each file that a run can look into is told of. -/
theorem map_fst_report (h : ∀ file ∈ files, (w.source? tree file).isSome) :
    (w.report tree outcome files).map Prod.fst = files := by
  induction files with
  | nil => rfl
  | cons file rest ih =>
    obtain ⟨⟨place, language, source⟩, hsource⟩ :=
      Option.isSome_iff_exists.mp (h file List.mem_cons_self)
    rw [← List.singleton_append, report_append, List.map_append, report_singleton hsource,
      ih fun q hq => h q (List.mem_cons_of_mem file hq)]
    rfl

theorem report_congr {tree' : FileTree}
    (h : ∀ file ∈ files, w.source? tree' file = w.source? tree file) :
    w.report tree' outcome files = w.report tree outcome files :=
  List.filterMap_congr fun file hfile => by rw [h file hfile]

end Workspace

/-! ## One file -/

namespace Run

variable {c : FileChecker} {v : Verbosity} {w : Workspace} {r : Run} {tree : FileTree}
  {file : FilePath} {files : List FilePath} {place : Place} {language : Language} {source : Bytes}

theorem goesOn_of_visit {step : Language → Bytes → Run → Run}
    (h : (r.visit w v file step).failure = none) : r.failure = none := by
  cases hfailure : r.failure with
  | none => rfl
  | some e =>
    have hstops : r.visit w v file step = r := by
      simp only [visit, hfailure]
      rfl
    rw [← hfailure, ← hstops, h]

theorem visit_of_fileAt {step : Language → Bytes → Run → Run} (hr : r.failure = none)
    (hfile : r.tree.FileAt w.directory file place source)
    (hlanguage : Language.ofPath? file.text = some language) :
    r.visit w v file step = match w.system.readFault? place with
      | some message => r.noteTrouble v file message
      | none => step language source r := by
  simp only [visit, hr, hlanguage, Workspace.read_of_fileAt hfile]
  cases w.system.readFault? place <;> rfl

/-- An error is told, or stops the run. -/
theorem noteError_cases (v : Verbosity) (file : FilePath) (e : FileError) (r : Run) :
    (r.noteError v file e).failure.isSome ∨
      r.Tells r.tree [(file, .error (e.message?.getD []))] (r.noteError v file e) := by
  unfold noteError
  split
  · exact .inr (tells_noteTrouble v file _ r r.tree)
  · exact .inl rfl

theorem checkFile_cases (c : FileChecker) (v : Verbosity) (hr : r.failure = none)
    (hsource : w.source? r.tree file = some (place, language, source)) :
    ((∃ e, c.check language file.text source = .error e) ∧
        (checkFile c v w r file).failure.isSome) ∨
      r.Tells r.tree (w.report r.tree (c.checkOutcome w.system) [file]) (checkFile c v w r file) := by
  obtain ⟨hfile, hlanguage⟩ := Workspace.source?_eq_some_iff.mp hsource
  rw [Workspace.report_singleton hsource, checkFile, visit_of_fileAt hr hfile hlanguage, FileChecker.checkOutcome]
  cases w.system.readFault? place with
  | some message => exact .inr (tells_noteTrouble v file message r r.tree)
  | none =>
    cases c.check language file.text source with
    | ok ds => exact .inr (tells_noteFile file ⟨source, 0, ds⟩ _ r r.tree)
    | error e =>
      rcases noteError_cases v file e r with hstops | htells
      · exact .inl ⟨⟨e, rfl⟩, hstops⟩
      · exact .inr htells

theorem fixFile_cases (c : FileChecker) (v : Verbosity) (hr : r.failure = none)
    (hsource : w.source? r.tree file = some (place, language, source)) :
    ((∃ e, c.fixBytes language file.text source = .error e) ∧
        (fixFile c v w r file).failure.isSome) ∨
      ∃ tree, r.tree.Wrote place (c.fixOutcome w.system place language file.text source).content tree ∧
        r.Tells tree (w.report r.tree (c.fixOutcome w.system) [file]) (fixFile c v w r file) := by
  obtain ⟨hfile, hlanguage⟩ := Workspace.source?_eq_some_iff.mp hsource
  have hself := FileTree.wrote_self hfile.node
  rw [Workspace.report_singleton hsource, fixFile, visit_of_fileAt hr hfile hlanguage,
    FileChecker.fixOutcome]
  cases w.system.readFault? place with
  | some message => exact .inr ⟨r.tree, hself, tells_noteTrouble v file message r r.tree⟩
  | none =>
    cases c.fixBytes language file.text source with
    | error e =>
      rcases noteError_cases v file e r with hstops | htells
      · exact .inl ⟨⟨e, rfl⟩, hstops⟩
      · exact .inr ⟨r.tree, hself, htells⟩
    | ok fixed =>
      right
      by_cases hsame : fixed.source = source
      · refine ⟨r.tree, ?_, ?_⟩
        · simpa only [if_pos hsame] using hself
        · simp only [if_pos hsame]
          exact tells_noteFile file fixed _ r r.tree
      · simp only [if_neg hsame]
        cases hfault : w.system.writeFault? place fixed.source with
        | some fault =>
          obtain ⟨tree, hwrite, hwrote⟩ := Workspace.exists_write_of_fault hfile hfault
          rw [hwrite]
          exact ⟨tree, hwrote, tells_noteTrouble v file fault.message r tree⟩
        | none =>
          obtain ⟨tree, hwrite, hwrote⟩ := Workspace.exists_write_of_noFault hfile hfault
          rw [hwrite]
          exact ⟨tree, hwrote, tells_noteFile file fixed _ r tree⟩

/-! ## All files of a run -/

/-- A fixing run changes contents only. -/
theorem blank_foldl_fixFile (hfiles : ∀ file ∈ files, (w.source? r.tree file).isSome)
    (h : (files.foldl (fixFile c v w) r).failure = none) :
    (files.foldl (fixFile c v w) r).tree.blank = r.tree.blank := by
  induction files using List.reverseRecOn with
  | nil => rfl
  | append_singleton files file ih =>
    rw [List.foldl_append, List.foldl_cons, List.foldl_nil] at h ⊢
    have hbefore := goesOn_of_visit h
    have hblank := ih (fun q hq => hfiles q (List.mem_append_left _ hq)) hbefore
    have hsome := Workspace.isSome_source?_of_blank_eq hblank
      (hfiles file (List.mem_append_right _ List.mem_cons_self))
    obtain ⟨⟨place, language, source⟩, hsource⟩ := Option.isSome_iff_exists.mp hsome
    rcases fixFile_cases c v hbefore hsource with ⟨-, hstops⟩ | ⟨tree, hwrote, htells⟩
    · rw [h] at hstops
      exact nomatch hstops
    · rw [htells.tree_eq, hwrote.blank, hblank]

/-- A checking run that is not stopped tells of each of its files, and leaves all of them as they
are. -/
theorem foldl_checkFile_tells (hfiles : ∀ file ∈ files, (w.source? r.tree file).isSome)
    (h : (files.foldl (checkFile c v w) r).failure = none) :
    r.Tells r.tree (w.report r.tree (c.checkOutcome w.system) files)
      (files.foldl (checkFile c v w) r) := by
  induction files using List.reverseRecOn with
  | nil => exact tells_nil r
  | append_singleton files file ih =>
    rw [List.foldl_append, List.foldl_cons, List.foldl_nil] at h ⊢
    have hbefore := goesOn_of_visit h
    have htells := ih (fun q hq => hfiles q (List.mem_append_left _ hq)) hbefore
    have hsome := hfiles file (List.mem_append_right _ List.mem_cons_self)
    rw [← htells.tree_eq] at hsome
    obtain ⟨⟨place, language, source⟩, hsource⟩ := Option.isSome_iff_exists.mp hsome
    rcases checkFile_cases c v hbefore hsource with ⟨-, hstops⟩ | hlast
    · rw [h] at hstops
      exact nomatch hstops
    · rw [htells.tree_eq] at hlast
      rw [Workspace.report_append]
      exact htells.trans hlast

end Run

end LintDirectives
