import LintDirectives.Proofs.FileCollection
import LintDirectives.Proofs.FixLoop

/-!
# Agreement of the runs over a project

A fixing run leaves every file it met in a state in which there is nothing to fix, as long as no
file of the run is written under two spellings of its path. Both a checking run and another fixing
run only note the diagnostics of such files. So after a fixing run without errors they tell the
same about the project as the fixing run did, and leave the project as it is.
-/

namespace LintDirectives

/-- The same result with another number of applied edits. -/
def RunResult.withApplied (applied : Int) (r : RunResult) : RunResult :=
  { r with fixesApplied := applied }

/-- No file is reached under two spellings of its path. -/
def FileTree.OneSpelling (tree : FileTree) (start : Place) (files : List FilePath) : Prop :=
  ∀ p ∈ files, ∀ q ∈ files, ∀ place, tree.locate start p = .ok place →
    tree.locate start q = .ok place → p = q

theorem FileTree.oneSpelling_iff {tree : FileTree} {start : Place} {files : List FilePath} :
    (∀ p ∈ files, ∀ q ∈ files, (tree.locate start p).isOk →
      tree.locate start p = tree.locate start q → p = q) ↔ tree.OneSpelling start files := by
  constructor
  · intro h p hp q hq place hplace hplace'
    exact h p hp q hq (by rw [hplace]; rfl) (hplace.trans hplace'.symm)
  · intro h p hp q hq hok heq
    cases hplace : tree.locate start p with
    | ok place => exact h p hp q hq place hplace (heq ▸ hplace)
    | error e =>
      rw [hplace] at hok
      exact nomatch hok

instance (tree : FileTree) (start : Place) (files : List FilePath) :
    Decidable (tree.OneSpelling start files) :=
  decidable_of_iff _ FileTree.oneSpelling_iff

/-! ## The files of a run -/

/-- A place of work whose files are all empty. -/
def Workspace.blank (w : Workspace) : Workspace :=
  { w with tree := w.tree.blank }

theorem FileTree.hasLongPathBelow_blank (tree : FileTree) (place : Place) (path : FilePath) :
    tree.blank.hasLongPathBelow place path = tree.hasLongPathBelow place path := by
  rw [hasLongPathBelow, hasLongPathBelow, blank, List.any_map]
  rfl

theorem targetFiles_blank (w : Workspace) (target : Text) :
    targetFiles w.blank target = targetFiles w target := by
  simp only [targetFiles, Workspace.blank, FileTree.locate_blank, FileTree.node?_blank,
    FileTree.hasLongPathBelow_blank, FileTree.namesBelow_blank, FileTree.isFile_blank]
  cases w.tree.locate w.directory (FilePath.ofText target) with
  | error e => cases e <;> rfl
  | ok place =>
    dsimp only
    cases w.tree.node? place with
    | none => rfl
    | some node => cases node <;> rfl

/-- The files of a run do not depend on what the files of the tree hold. -/
theorem Collection.ofTargets_blank (settings : Settings) (v : Verbosity) (w : Workspace)
    (targets : List Text) :
    ofTargets settings v w.blank targets = ofTargets settings v w targets := by
  have htarget : addTarget settings v w.blank = addTarget settings v w := by
    funext c target
    rw [addTarget, addTarget, targetFiles_blank]
  rw [ofTargets, ofTargets, htarget]

/-! ## Files with nothing to fix -/

/-- A file that a run can look into is read and checked, and there is nothing to fix in it. -/
def FileChecker.IsFixed (c : FileChecker) (w : Workspace) (tree : FileTree) (file : FilePath) :
    Prop :=
  ∃ place language source ds, w.source? tree file = some (place, language, source) ∧
    w.system.readFault? place = none ∧ c.check language file.text source = .ok ds ∧
      ds.any (·.isFixable) = false

namespace Run

variable {c : FileChecker} {v : Verbosity} {w : Workspace} {r : Run} {file : FilePath}
  {files : List FilePath} {tree tree' : FileTree}

/-- A run that goes on, and had no error so far. -/
structure Clean (r : Run) : Prop where
  goesOn : r.failure = none
  noError : r.result.errors = []

/-- What a checking run tells of files with nothing to fix. -/
def checked (c : FileChecker) (w : Workspace) (tree : FileTree) (files : List FilePath) :
    RunReport :=
  w.report tree (c.checkOutcome w.system) files

theorem checked_append (files files' : List FilePath) :
    checked c w tree (files ++ files') = checked c w tree files ++ checked c w tree files' :=
  Workspace.report_append

theorem checked_of_isFixed (h : c.IsFixed w tree file) : ∃ source ds,
    ds.any (·.isFixable) = false ∧ checked c w tree [file] = [(file, .ok ⟨source, 0, ds⟩)] := by
  obtain ⟨place, language, source, ds, hsource, hread, hds, hfree⟩ := h
  refine ⟨source, ds, hfree, ?_⟩
  rw [checked, Workspace.report_singleton hsource]
  simp only [FileChecker.checkOutcome, hread, hds]

/-- No edit is told of files with nothing to fix, nor a diagnostic that can be fixed. -/
theorem of_mem_fixed_checked (h : ∀ file ∈ files, c.IsFixed w tree file) {f : Linter.Fixed}
    (hf : f ∈ (checked c w tree files).fixed) :
    f.applied = 0 ∧ f.remaining.any (·.isFixable) = false := by
  induction files with
  | nil => exact absurd hf List.not_mem_nil
  | cons file rest ih =>
    obtain ⟨source, ds, hfree, hfile⟩ := checked_of_isFixed (h file List.mem_cons_self)
    rw [← List.singleton_append, checked_append, hfile, RunReport.fixed_append] at hf
    rcases List.mem_append.mp hf with hf | hf
    · obtain rfl := List.mem_singleton.mp hf
      exact ⟨rfl, hfree⟩
    · exact ih (fun q hq => h q (List.mem_cons_of_mem file hq)) hf

/-- A step of a run only tells of a file in which there is nothing to fix. -/
def TellsFixed (c : FileChecker) (w : Workspace) (step : Run → FilePath → Run) : Prop :=
  ∀ (r : Run) file, r.failure = none → c.IsFixed w r.tree file →
    r.Tells r.tree (checked c w r.tree [file]) (step r file)

theorem tellsFixed_checkFile (c : FileChecker) (v : Verbosity) (w : Workspace) :
    TellsFixed c w (checkFile c v w) := by
  rintro r file hr ⟨place, language, source, ds, hsource, -, hds, -⟩
  rcases checkFile_cases c v hr hsource with ⟨⟨e, he⟩, -⟩ | htells
  · exact nomatch hds.symm.trans he
  · exact htells

theorem tellsFixed_fixFile (c : FileChecker) (v : Verbosity) (w : Workspace) :
    TellsFixed c w (fixFile c v w) := by
  rintro r file hr ⟨place, language, source, ds, hsource, hread, hds, hfree⟩
  obtain ⟨hfile, hlanguage⟩ := Workspace.source?_eq_some_iff.mp hsource
  have hfixed : c.fixBytes language file.text source = .ok ⟨source, 0, ds⟩ :=
    Linter.fixPasses_of_fixFree hds hfree
  rw [checked, Workspace.report_singleton hsource, fixFile, visit_of_fileAt hr hfile hlanguage]
  simp only [hread, hfixed, if_true, FileChecker.checkOutcome, hds]
  exact tells_noteFile file ⟨source, 0, ds⟩ _ r r.tree

/-- A run over files with nothing to fix tells of them in order. -/
theorem TellsFixed.foldl {step : Run → FilePath → Run} (hstep : TellsFixed c w step)
    (hr : r.failure = none) (h : ∀ file ∈ files, c.IsFixed w r.tree file) :
    r.Tells r.tree (checked c w r.tree files) (files.foldl step r) := by
  induction files generalizing r with
  | nil => exact tells_nil r
  | cons file rest ih =>
    have hfile := hstep r file hr (h file List.mem_cons_self)
    have hrest := ih (r := step r file) (hfile.failure_eq.trans hr)
      (by rw [hfile.tree_eq]; exact fun q hq => h q (List.mem_cons_of_mem _ hq))
    rw [hfile.tree_eq] at hrest
    rw [List.foldl_cons, ← List.singleton_append, checked_append]
    exact hfile.trans hrest

/-! ## What a fixing run leaves -/

/-- What a fixing run leaves of the files it met: nothing to fix, and what it told of them is what
a checking run would tell now, up to the edits. -/
structure Leaves (c : FileChecker) (w : Workspace) (r : Run) (files : List FilePath)
    (after : Run) : Prop where
  blank : after.tree.blank = r.tree.blank
  isFixed : ∀ file ∈ files, c.IsFixed w after.tree file
  result : ∃ applied, after.result =
    (r.result.note (checked c w after.tree files)).withApplied applied

/-- A step without an error fixes its file, and changes nothing at another place. -/
theorem fixFile_leaves (h : (fixFile c v w r file).Clean)
    (hsome : (w.source? r.tree file).isSome) :
    r.Clean ∧ Leaves c w r [file] (fixFile c v w r file) ∧
      ∀ place, r.tree.locate w.directory file ≠ .ok place →
        (fixFile c v w r file).tree.node? place = r.tree.node? place := by
  have hr := goesOn_of_visit h.goesOn
  obtain ⟨⟨place, language, source⟩, hsource⟩ := Option.isSome_iff_exists.mp hsome
  obtain ⟨hfile, hlanguage⟩ := Workspace.source?_eq_some_iff.mp hsource
  rcases fixFile_cases c v hr hsource with ⟨-, hstops⟩ | ⟨tree, hwrote, htells⟩
  · rw [h.goesOn] at hstops
    exact nomatch hstops
  · have herrors := h.noError
    rw [htells.result_eq, Workspace.report_singleton hsource] at herrors
    cases htold : (c.fixOutcome w.system place language file.text source).told with
    | error trouble =>
      rw [htold] at herrors
      exact absurd herrors (by simp [RunResult.note])
    | ok fixed =>
      obtain ⟨hread, hfixed, hcontent⟩ := FileChecker.fixOutcome_of_told htold
      obtain ⟨k, -, hfirst, -⟩ := Linter.fixPasses_eq_ok_iff.mp hfixed
      rw [htold] at herrors
      rw [Workspace.report_singleton hsource, htold] at htells
      rw [hcontent] at hwrote
      have hnew : w.source? tree file = some (place, language, fixed.source) :=
        Workspace.source?_eq_some_iff.mpr
          ⟨⟨(FileTree.locate_of_blank_eq hwrote.blank _ _).trans hfile.path, hwrote.node⟩, hlanguage⟩
      have hisFixed : c.IsFixed w tree file :=
        ⟨place, language, fixed.source, fixed.remaining, hnew, hread, hfirst.checked, hfirst.fixFree⟩
      refine ⟨⟨hr, (List.append_eq_nil_iff.mp herrors).1⟩, ⟨?_, ?_, ?_⟩, ?_⟩
      · rw [htells.tree_eq, hwrote.blank]
      · intro q hq
        rw [List.mem_singleton.mp hq, htells.tree_eq]
        exact hisFixed
      · refine ⟨r.result.fixesApplied + fixed.applied, ?_⟩
        rw [htells.result_eq, htells.tree_eq, checked, Workspace.report_singleton hnew]
        simp [FileChecker.checkOutcome, hread, hfirst.checked, RunResult.note,
          RunResult.withApplied]
      · intro place' hplace'
        rw [htells.tree_eq]
        exact hwrote.others place' fun heq => hplace' (heq ▸ hfile.path)

theorem Leaves.append {r₁ r₂ : Run} (h : Leaves c w r files r₁) (h' : Leaves c w r₁ [file] r₂)
    (hkept : ∀ q ∈ files, w.source? r₂.tree q = w.source? r₁.tree q) :
    Leaves c w r (files ++ [file]) r₂ := by
  refine ⟨h'.blank.trans h.blank, fun q hq => ?_, ?_⟩
  · rcases List.mem_append.mp hq with hq | hq
    · obtain ⟨place, language, source, ds, hsource, hfixed⟩ := h.isFixed q hq
      exact ⟨place, language, source, ds, (hkept q hq).trans hsource, hfixed⟩
    · exact h'.isFixed q hq
  · obtain ⟨applied, hresult⟩ := h.result
    obtain ⟨applied', hresult'⟩ := h'.result
    have hsame : checked c w r₂.tree files = checked c w r₁.tree files :=
      Workspace.report_congr hkept
    refine ⟨applied', ?_⟩
    rw [hresult', hresult, checked_append, hsame, RunResult.note_append]
    rfl

/-- A fixing run without errors leaves nothing to fix in its files, whatever their order and however
often it meets each of them. -/
theorem foldl_fixFile_leaves (hone : r.tree.OneSpelling w.directory files)
    (hfiles : ∀ file ∈ files, (w.source? r.tree file).isSome)
    (h : (files.foldl (fixFile c v w) r).Clean) :
    r.Clean ∧ Leaves c w r files (files.foldl (fixFile c v w) r) := by
  induction files using List.reverseRecOn with
  | nil => exact ⟨h, rfl, fun _ hq => absurd hq List.not_mem_nil, r.result.fixesApplied,
      by simp [checked, Workspace.report, RunResult.note, RunResult.withApplied]⟩
  | append_singleton files file ih =>
    rw [List.foldl_append, List.foldl_cons, List.foldl_nil] at h ⊢
    have hearlier : ∀ q ∈ files, (w.source? r.tree q).isSome := fun q hq =>
      hfiles q (List.mem_append_left _ hq)
    have hblank := blank_foldl_fixFile hearlier (goesOn_of_visit h.goesOn)
    obtain ⟨hbefore, hfile, hframe⟩ := fixFile_leaves h
      (Workspace.isSome_source?_of_blank_eq hblank
        (hfiles file (List.mem_append_right _ List.mem_cons_self)))
    obtain ⟨hclean, hleaves⟩ := ih (fun p hp q hq => hone p (List.mem_append_left _ hp) q
      (List.mem_append_left _ hq)) hearlier hbefore
    refine ⟨hclean, hleaves.append hfile fun q hq => ?_⟩
    -- A file that was met before has nothing to fix any more, so that nothing is written.
    by_cases hagain : file ∈ files
    · have htells := tellsFixed_fixFile c v w _ file hbefore.goesOn (hleaves.isFixed file hagain)
      rw [htells.tree_eq]
    · refine Workspace.source?_of_blank_eq hfile.blank fun place hplace => ?_
      refine hframe place fun hplace' => hagain ?_
      rw [FileTree.locate_of_blank_eq hblank] at hplace hplace'
      have heq := hone q (List.mem_append_left _ hq) file
        (List.mem_append_right _ List.mem_cons_self) place hplace hplace'
      exact heq ▸ hq

/-- A second run over the same files tells what the fixing run told. -/
theorem Leaves.foldl_agrees {fixed r' : Run} (h : Leaves c w r files fixed)
    {step : Run → FilePath → Run} (hstep : TellsFixed c w step)
    (hr : r'.failure = none) (htree : r'.tree = fixed.tree)
    (hresult : r'.result = r.result.withApplied 0) :
    (files.foldl step r').failure = none ∧
      (files.foldl step r').result = fixed.result.withApplied 0 ∧
      (files.foldl step r').tree = fixed.tree := by
  obtain ⟨applied, happlied⟩ := h.result
  have htells := hstep.foldl hr (htree ▸ h.isFixed)
  refine ⟨htells.failure_eq.trans hr, ?_, htells.tree_eq.trans htree⟩
  have hnone : ((checked c w fixed.tree files).fixed.map (·.applied)).sum = 0 :=
    List.sum_eq_zero fun n hn => by
      obtain ⟨f, hf, rfl⟩ := List.mem_map.mp hn
      exact (of_mem_fixed_checked h.isFixed hf).1
  rw [htells.result_eq, hresult, htree, happlied]
  simp [RunResult.note, RunResult.withApplied, hnone]

theorem Leaves.not_fixable {fixed : Run} (h : Leaves c w r files fixed)
    (hr : r.result.diagnostics = []) {d : Diagnostic} (hd : d ∈ fixed.result.diagnostics) :
    d.isFixable = false := by
  obtain ⟨applied, happlied⟩ := h.result
  rw [happlied, RunResult.withApplied, RunResult.note, hr, List.nil_append] at hd
  obtain ⟨f, hf, hd⟩ := List.mem_flatMap.mp hd
  have hfree := (of_mem_fixed_checked h.isFixed hf).2
  exact Bool.eq_false_iff.mpr (List.any_eq_false.mp hfree d hd)

end Run

namespace FileChecker

variable (c : FileChecker) (v : Verbosity) (w : Workspace) (targets : List Text)

/-- However files are checked: after a fixing run without errors, a checking run tells what the
fixing run told, and another fixing run does so too, without an edit. Both leave the files as they
are, and nothing that they tell can be fixed. -/
theorem fix_agrees_with_analyze
    (hone : w.tree.OneSpelling w.directory (Collection.ofTargets c.settings v w targets).files)
    (hfailure : (c.fix v w targets).failure = none)
    (herrors : (c.fix v w targets).result.errors = []) :
    let fixed := c.fix v w targets
    let after : Workspace := { w with tree := fixed.tree }
    let checked := c.analyze v after targets
    let again := c.fix v after targets
    (checked.failure = none ∧ checked.result = { fixed.result with fixesApplied := 0 } ∧
      checked.tree = fixed.tree) ∧
    (again.failure = none ∧ again.result = { fixed.result with fixesApplied := 0 } ∧
      again.tree = fixed.tree) ∧
    checked.result.errors = [] ∧ ∀ d ∈ checked.result.diagnostics, d.isFixable = false := by
  intro fixed after checked again
  obtain ⟨hclean, hleaves⟩ := Run.foldl_fixFile_leaves (r := Run.start w targets _) hone
    (fun file hfile => Collection.isSome_source?_of_mem_ofTargets hfile) ⟨hfailure, herrors⟩
  have hblank : after.blank = w.blank := congrArg (Workspace.mk · w.directory w.system) hleaves.blank
  have hcollected : Collection.ofTargets c.settings v after targets =
      Collection.ofTargets c.settings v w targets := by
    rw [← Collection.ofTargets_blank, hblank, Collection.ofTargets_blank]
  have hgoesOn : (Collection.ofTargets c.settings v w targets).failure = none := hclean.goesOn
  have hchecked : checked.failure = none ∧ checked.result = fixed.result.withApplied 0 ∧
      checked.tree = fixed.tree := by
    obtain ⟨log, hrun⟩ := c.exists_analyze v after targets (hcollected ▸ hgoesOn)
    rw [hcollected] at hrun
    simp only [checked, hrun]
    exact hleaves.foldl_agrees (Run.tellsFixed_checkFile c v w) hgoesOn rfl rfl
  have hagain : again.failure = none ∧ again.result = fixed.result.withApplied 0 ∧
      again.tree = fixed.tree := by
    simp only [again, fix, hcollected]
    exact hleaves.foldl_agrees (Run.tellsFixed_fixFile c v w) hgoesOn rfl rfl
  refine ⟨hchecked, hagain, ?_, fun d hd => ?_⟩
  · rw [hchecked.2.1]
    exact herrors
  · rw [hchecked.2.1] at hd
    exact hleaves.not_fixable rfl hd

private def twoFiles : Workspace where
  tree := [(["a.py"], .file (Text.utf8 "# lint:ignore A--b\n")),
    (["b.go"], .file (Text.utf8 "// lint:enable B\n"))]
  directory := []

private def repeatedTargets : List Text :=
  ["a.py", "b.go", "./a.py"]

/-- A file with a repairable code is a target twice. The fixing run repairs it once, and the runs
after it still tell of the other file. -/
theorem fix_agrees_on_repeated_target :
    let fixed := ({} : Linter).checker.fix {} twoFiles repeatedTargets
    let checked :=
      ({} : Linter).checker.analyze {} { twoFiles with tree := fixed.tree } repeatedTargets
    fixed.result.fixesApplied = 1 ∧ fixed.result.diagnostics.length = 1 ∧
      checked.result = { fixed.result with fixesApplied := 0 } ∧ checked.tree = fixed.tree := by
  have hrun : (({} : Linter).checker.fix {} twoFiles repeatedTargets).failure.isNone ∧
      (({} : Linter).checker.fix {} twoFiles repeatedTargets).result.errors = [] ∧
      (({} : Linter).checker.fix {} twoFiles repeatedTargets).result.fixesApplied = 1 ∧
      (({} : Linter).checker.fix {} twoFiles repeatedTargets).result.diagnostics.length = 1 := by
    decide +kernel
  have hagree := fix_agrees_with_analyze ({} : Linter).checker {} twoFiles repeatedTargets
    (by decide +kernel) (Option.isNone_iff_eq_none.mp hrun.1) hrun.2.1
  exact ⟨hrun.2.2.1, hrun.2.2.2, hagree.1.2.1, hagree.1.2.2⟩

end FileChecker

end LintDirectives
