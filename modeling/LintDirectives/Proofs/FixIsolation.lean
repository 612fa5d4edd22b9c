import LintDirectives.Proofs.FileCollection

/-!
# Files of a fixing run one by one

When no two paths of a run lead to the same file, a fixing run does to each file what fixing it alone
would do: the file holds its fixed content afterwards, or its old content, or what a failed write left
of it, and in the last two cases there is a line about it. Nothing else in the tree changes, and what
the run tells is put together from the files that did not fail, in order.
-/

namespace LintDirectives

namespace Run

variable {c : FileChecker} {v : Verbosity} {w : Workspace} {r : Run} {file : FilePath}
  {files : List FilePath}

/-- A run did to each of some files what fixing it alone comes to, and nothing else. -/
structure Isolated (c : FileChecker) (w : Workspace) (r : Run) (files : List FilePath)
    (after : Run) : Prop where
  blank : after.tree.blank = r.tree.blank
  content : ∀ file ∈ files, ∀ place language source,
    w.source? r.tree file = some (place, language, source) → after.tree.node? place =
      some (.file (c.fixOutcome w.system place language file.text source).content)
  others : ∀ place, (∀ file ∈ files, r.tree.locate w.directory file ≠ .ok place) →
    after.tree.node? place = r.tree.node? place
  result : after.result = r.result.note (w.report r.tree (c.fixOutcome w.system) files)

theorem isolated_nil (r : Run) : Isolated c w r [] r where
  blank := rfl
  content _ hfile := absurd hfile List.not_mem_nil
  others _ _ := rfl
  result := (tells_nil r).result_eq

/-- A step that does not stop the run fixes its file, or notes its trouble. -/
theorem fixFile_isolated (h : (fixFile c v w r file).failure = none)
    (hsome : (w.source? r.tree file).isSome) :
    Isolated c w r [file] (fixFile c v w r file) := by
  obtain ⟨⟨place, language, source⟩, hsource⟩ := Option.isSome_iff_exists.mp hsome
  have hfile := (Workspace.source?_eq_some_iff.mp hsource).1
  rcases fixFile_cases c v (goesOn_of_visit h) hsource with ⟨-, hstops⟩ | ⟨tree, hwrote, htells⟩
  · rw [h] at hstops
    exact nomatch hstops
  · refine ⟨?_, fun q hq place' language' source' hsource' => ?_, fun place' hplace' => ?_,
      htells.result_eq⟩
    · rw [htells.tree_eq, hwrote.blank]
    · obtain rfl := List.mem_singleton.mp hq
      obtain ⟨rfl, rfl, rfl⟩ : place = place' ∧ language = language' ∧ source = source' := by
        simpa using hsource.symm.trans hsource'
      rw [htells.tree_eq]
      exact hwrote.node
    · rw [htells.tree_eq]
      exact hwrote.others place' fun heq =>
        hplace' file List.mem_cons_self (heq ▸ hfile.path)

/-- A step after others does not touch their files, and finds its own as it was. -/
theorem Isolated.append {r₁ r₂ : Run} (h : Isolated c w r files r₁)
    (h' : Isolated c w r₁ [file] r₂)
    (hdistinct : ∀ q ∈ files, r.tree.locate w.directory q ≠ r.tree.locate w.directory file) :
    Isolated c w r (files ++ [file]) r₂ := by
  have hlocate := fun q => FileTree.locate_of_blank_eq h.blank w.directory q
  have hown : w.source? r₁.tree file = w.source? r.tree file :=
    Workspace.source?_of_blank_eq h.blank fun place hplace =>
      h.others place fun q hq hplace' => hdistinct q hq (hplace'.trans hplace.symm)
  refine ⟨h'.blank.trans h.blank, fun q hq place language source hsource => ?_,
    fun place hplace => ?_, ?_⟩
  · rcases List.mem_append.mp hq with hq | hq
    · -- The other way round, the step does not write to the files before it.
      have hpath := (Workspace.source?_eq_some_iff.mp hsource).1.path
      rw [← h.content q hq place language source hsource]
      refine h'.others place fun file' hfile' hplace' => ?_
      rw [List.mem_singleton.mp hfile', hlocate] at hplace'
      exact hdistinct q hq (hpath.trans hplace'.symm)
    · rw [← List.mem_singleton.mp hq] at hown
      exact h'.content q hq place language source (hown.trans hsource)
  · rw [← h.others place fun q hq => hplace q (List.mem_append_left _ hq)]
    refine h'.others place fun q hq => ?_
    rw [hlocate]
    exact hplace q (List.mem_append_right _ hq)
  · have hsame : w.report r₁.tree (c.fixOutcome w.system) [file] =
        w.report r.tree (c.fixOutcome w.system) [file] :=
      Workspace.report_congr fun q hq => by rw [List.mem_singleton.mp hq, hown]
    rw [h'.result, h.result, hsame, Workspace.report_append, RunResult.note_append]

theorem foldl_fixFile_isolated (hfiles : ∀ file ∈ files, (w.source? r.tree file).isSome)
    (hdistinct : files.Pairwise fun p q =>
      r.tree.locate w.directory p ≠ r.tree.locate w.directory q)
    (h : (files.foldl (fixFile c v w) r).failure = none) :
    Isolated c w r files (files.foldl (fixFile c v w) r) := by
  induction files using List.reverseRecOn with
  | nil => exact isolated_nil r
  | append_singleton files file ih =>
    -- The files before are settled whatever the last one holds, so the induction is from the end.
    rw [List.foldl_append, List.foldl_cons, List.foldl_nil] at h ⊢
    obtain ⟨hearlier, -, hlast⟩ := List.pairwise_append.mp hdistinct
    have hbefore := ih (fun q hq => hfiles q (List.mem_append_left _ hq)) hearlier
      (goesOn_of_visit h)
    have hsome := Workspace.isSome_source?_of_blank_eq hbefore.blank
      (hfiles file (List.mem_append_right _ List.mem_cons_self))
    exact hbefore.append (fixFile_isolated h hsome) fun q hq =>
      hlast q hq file List.mem_cons_self

end Run

namespace FileChecker

/-- However files are checked, and whatever the others hold: if a fixing run goes over paths of which
no two lead to the same file, and is not stopped, each file comes to what fixing it alone comes to.
Everything else is as it was. The run tells of each file once: it tells of the files that did not
fail, in order, and has one line about each file that did. -/
theorem fix_isolates_files (c : FileChecker) (v : Verbosity) (w : Workspace) (targets : List Text)
    (hdistinct : (Collection.ofTargets c.settings v w targets).files.Pairwise fun p q =>
      w.tree.locate w.directory p ≠ w.tree.locate w.directory q)
    (hfailure : (c.fix v w targets).failure = none) :
    let files := (Collection.ofTargets c.settings v w targets).files
    let fixed := c.fix v w targets
    let report := w.report w.tree (c.fixOutcome w.system) files
    (∀ file ∈ files, ∃ place language source,
      w.tree.locate w.directory file = .ok place ∧ Language.ofPath? file.text = some language ∧
      w.tree.node? place = some (.file source) ∧
      (file, (c.fixOutcome w.system place language file.text source).told) ∈ report ∧
      fixed.tree.node? place =
        some (.file (c.fixOutcome w.system place language file.text source).content)) ∧
    (∀ place, (∀ file ∈ files, w.tree.locate w.directory file ≠ .ok place) →
      fixed.tree.node? place = w.tree.node? place) ∧
    report.map Prod.fst = files ∧
    fixed.result.errors = report.troubles ∧
    fixed.result.filesChecked = report.fixed.length ∧
    fixed.result.fixesApplied = (report.fixed.map (·.applied)).sum ∧
    fixed.result.diagnostics = report.fixed.flatMap (·.remaining) := by
  intro files fixed report
  have hfiles : ∀ file ∈ files, (w.source? w.tree file).isSome :=
    fun file hfile => Collection.isSome_source?_of_mem_ofTargets hfile
  have hisolated : Run.Isolated c w (Run.start w targets _) files fixed :=
    Run.foldl_fixFile_isolated hfiles hdistinct hfailure
  refine ⟨fun file hfile => ?_, hisolated.others, Workspace.map_fst_report hfiles, ?_⟩
  · obtain ⟨⟨place, language, source⟩, hsource⟩ := Option.isSome_iff_exists.mp (hfiles file hfile)
    obtain ⟨hthere, hlanguage⟩ := Workspace.source?_eq_some_iff.mp hsource
    refine ⟨place, language, source, hthere.path, hlanguage, hthere.node, ?_,
      hisolated.content file hfile place language source hsource⟩
    exact List.mem_filterMap.mpr ⟨file, hfile, by rw [hsource]; rfl⟩
  · rw [hisolated.result]
    simp [RunResult.note, Run.start, report]

private def glued : Bytes :=
  Text.utf8 "# lint:ignore A--b\n"

private def repaired : Bytes :=
  Text.utf8 "# lint:ignore A -- b\n"

private def mixedFiles : Workspace where
  tree := [(["a.py"], .file glued), (["bad.py"], .file (glued ++ [0x23, 0xFF])),
    (["locked.py"], .file glued), (["full.py"], .file glued),
    (["c.go"], .file (Text.utf8 "// lint:enable B\n")), (["notes.txt"], .file glued)]
  directory := []
  system :=
    { readFault? := fun place => if place = ["locked.py".toList] then some "Permission denied" else none
      writeFault? := fun place _ => if place = ["full.py".toList] then
        some { message := "No space left on device", left := some (Text.utf8 "# lint") } else none }

private def mixedTargets : List Text :=
  ["bad.py", "locked.py", "a.py", "full.py", "c.go"]

/-- Of four files with the same repairable code one is repaired. One that cannot be decoded further
down and one that cannot be read are left as they are, and one holds what a failed write left. There
is a line about each of these three. -/
theorem undecodable_file_left_alone :
    let fixed := ({} : Linter).checker.fix {} mixedFiles mixedTargets
    fixed.tree.node? ["a.py"] = some (.file repaired) ∧
      fixed.tree.node? ["bad.py"] = some (.file (glued ++ [0x23, 0xFF])) ∧
      fixed.tree.node? ["locked.py"] = some (.file glued) ∧
      fixed.tree.node? ["full.py"] = some (.file (Text.utf8 "# lint")) ∧
      fixed.tree.node? ["notes.txt"] = mixedFiles.tree.node? ["notes.txt"] ∧
      fixed.result.errors = ["bad.py: bad.py:2: undecodable comment",
        "locked.py: Permission denied", "full.py: No space left on device"] ∧
      fixed.result.filesChecked = 2 ∧ fixed.result.fixesApplied = 1 := by
  intro fixed
  have hgoesOn : fixed.failure.isNone := by decide +kernel
  obtain ⟨hcontent, hothers, -, herrors, hchecked, happlied, -⟩ :=
    fix_isolates_files ({} : Linter).checker {} mixedFiles mixedTargets (by decide +kernel)
      (Option.isNone_iff_eq_none.mp hgoesOn)
  -- What fixing each file alone comes to is computed, and the theorem carries it over.
  have hends (file : FilePath) (place : Place) (source content : Bytes)
      (hfile : file ∈ (Collection.ofTargets {} {} mixedFiles mixedTargets).files)
      (hsource : mixedFiles.source? mixedFiles.tree file = some (place, .python, source))
      (hends : (({} : Linter).checker.fixOutcome mixedFiles.system place .python file.text
        source).content = content) : fixed.tree.node? place = some (.file content) := by
    obtain ⟨place', language', source', hpath, hlanguage, hnode, -, hcontent⟩ :=
      hcontent file hfile
    have hsource' := Workspace.source?_eq_some_iff.mpr ⟨⟨hpath, hnode⟩, hlanguage⟩
    obtain ⟨rfl, rfl, rfl⟩ : place = place' ∧ Language.python = language' ∧ source = source' := by
      simpa using hsource.symm.trans hsource'
    rw [hcontent, hends]
  refine ⟨?_, ?_, ?_, ?_, hothers _ (by decide +kernel), ?_, ?_, ?_⟩
  · exact hends (FilePath.ofText "a.py") _ glued _ (by decide +kernel) (by decide +kernel)
      (by decide +kernel)
  · exact hends (FilePath.ofText "bad.py") _ (glued ++ [0x23, 0xFF]) _ (by decide +kernel)
      (by decide +kernel) (by decide +kernel)
  · exact hends (FilePath.ofText "locked.py") _ glued _ (by decide +kernel) (by decide +kernel)
      (by decide +kernel)
  · exact hends (FilePath.ofText "full.py") _ glued _ (by decide +kernel) (by decide +kernel)
      (by decide +kernel)
  · rw [herrors]
    decide +kernel
  · rw [hchecked]
    decide +kernel
  · rw [happlied]
    decide +kernel

private def fullDisk : Workspace where
  tree := [(["a.py"], .file glued)]
  directory := []
  system :=
    { writeFault? := fun _ _ => some { message := "No space left on device", left := some [] } }

private def twoSpellings : Workspace where
  tree := [(["a.py"], .file glued), (["sub"], .directory)]
  directory := []

private def spellings : List Text :=
  ["a.py", "sub/../a.py"]

/-- A write that fails on the way leaves a file neither fixed nor as it was, although it can be fixed.
And where two different paths lead to one file, the edit that fixing either of them alone applies is
applied and counted once. -/
theorem failed_write_leaves_neither :
    let full := ({} : Linter).checker.fix {} fullDisk ["a.py"]
    let twice := ({} : Linter).checker.fix {} twoSpellings spellings
    let paths := (Collection.ofTargets {} {} twoSpellings spellings).files
    (full.failure.isNone ∧
      (({} : Linter).checker.fixBytes .python "a.py" glued).toOption.map (·.source) =
        some repaired ∧
      full.tree.node? ["a.py"] = some (.file []) ∧
      full.result.errors = ["a.py: No space left on device"]) ∧
    (paths.Nodup ∧ paths.length = 2 ∧ twice.failure.isNone ∧ twice.result.errors = [] ∧
      (∀ path ∈ paths, (({} : Linter).checker.fixBytes .python path.text glued).toOption.map
        (·.applied) = some 1) ∧
      twice.result.fixesApplied = 1) := by
  constructor <;> decide +kernel

end FileChecker

end LintDirectives
