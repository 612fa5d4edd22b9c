import LintDirectives.Proofs.DiagnosticPlaces
import LintDirectives.Proofs.FileOutcomes
import LintDirectives.Proofs.FileTreePaths
import LintDirectives.Proofs.IgnoredRules
import Mathlib.Data.List.Nodup

/-!
# The files of a run

A target that is a file reaches that file, and a target that is a directory reaches the files below
it, except for those in a skipped directory between the two. A run collects the files that its
targets reach, if they are supported and no glob ignores them. Each target adds its files, so that a
file that several targets reach is collected as often, and whatever is found in it is told as often.
-/

namespace LintDirectives

/-- A target reaches a file. Directories are skipped by the names between the two only. -/
inductive Workspace.Reaches (w : Workspace) (target : Text) : FilePath → Prop where
  | itself {place : Place} {content : Bytes}
      (path : w.tree.locate w.directory (FilePath.ofText target) = .ok place)
      (file : w.tree.node? place = some (.file content)) :
      w.Reaches target (FilePath.ofText target)
  | below {place : Place} {content : Bytes} {names : List Text}
      (path : w.tree.locate w.directory (FilePath.ofText target) = .ok place)
      (directory : w.tree.node? place = some .directory)
      (inside : names ≠ [])
      (file : w.tree.node? (place ++ names) = some (.file content))
      (notSkipped : ∀ name ∈ names.dropLast, name ∉ skippedDirectories) :
      w.Reaches target ((FilePath.ofText target).below names)

/-- A file or a directory stands at the end of a target. -/
def Workspace.hasTarget (w : Workspace) (target : Text) : Bool :=
  match w.tree.look w.directory (FilePath.ofText target) with
  | .ok (.file _) => true
  | .ok .directory => true
  | _ => false

/-- Something below a target has a path that is longer than a path may be. -/
def Workspace.hasLongPath (w : Workspace) (target : Text) : Bool :=
  match w.tree.locate w.directory (FilePath.ofText target) with
  | .ok place => w.tree.hasLongPathBelow place (FilePath.ofText target)
  | .error _ => false

/-! ## What lies below a directory -/

namespace FileTree

variable {tree : FileTree} {place : Place} {p : FilePath} {names : List Text}

theorem WellFormed.node?_eq_some_iff (htree : tree.WellFormed) (hne : place ≠ [])
    {node : FileNode} : tree.node? place = some node ↔ (place, node) ∈ tree := by
  rw [node?, if_neg (by simpa using hne)]
  exact ⟨KeyedList.mem_of_get?, KeyedList.get?_of_mem htree.nodup⟩

theorem isPrefixOf?_eq_some_iff {q : Place} :
    (match place.isPrefixOf? q with
      | some (name :: rest) => some (name :: rest)
      | _ => none) = some names ↔ names ≠ [] ∧ place ++ names = q := by
  constructor
  · intro h
    split at h
    · next name rest hq =>
      obtain rfl := Option.some.inj h
      exact ⟨by simp, List.isPrefixOf?_eq_some_iff_append_eq.mp hq⟩
    · exact nomatch h
  · rintro ⟨hne, hq⟩
    obtain ⟨name, rest, rfl⟩ := List.exists_cons_of_ne_nil hne
    rw [List.isPrefixOf?_eq_some_iff_append_eq.mpr hq]

theorem WellFormed.mem_namesBelow (htree : tree.WellFormed) :
    names ∈ tree.namesBelow place ↔ names ≠ [] ∧ (tree.node? (place ++ names)).isSome := by
  rw [namesBelow, List.mem_mergeSort, List.mem_filterMap]
  constructor
  · rintro ⟨⟨q, node⟩, hmem, hnames⟩
    obtain ⟨hne, rfl⟩ := isPrefixOf?_eq_some_iff.mp hnames
    exact ⟨hne, Option.isSome_iff_exists.mpr
      ⟨node, (htree.node?_eq_some_iff (by simp [hne])).mpr hmem⟩⟩
  · rintro ⟨hne, hsome⟩
    obtain ⟨node, hnode⟩ := Option.isSome_iff_exists.mp hsome
    exact ⟨_, (htree.node?_eq_some_iff (by simp [hne])).mp hnode,
      isPrefixOf?_eq_some_iff.mpr ⟨hne, rfl⟩⟩

theorem WellFormed.nodup_namesBelow (htree : tree.WellFormed) (place : Place) :
    (tree.namesBelow place).Nodup := by
  rw [namesBelow, (List.mergeSort_perm _ _).nodup_iff]
  refine (List.pairwise_map.mp htree.nodup).filterMap _ ?_
  rintro ⟨q, node⟩ ⟨q', node'⟩ hkeys names hnames names' hnames' rfl
  obtain ⟨-, hq⟩ := isPrefixOf?_eq_some_iff.mp hnames
  obtain ⟨-, hq'⟩ := isPrefixOf?_eq_some_iff.mp hnames'
  exact hkeys (hq.symm.trans hq')

theorem length_le_of_hasLongPathBelow (h : tree.hasLongPathBelow place p = false)
    (hne : names ≠ []) (hnode : (tree.node? (place ++ names)).isSome) :
    (Text.utf8 (p.below names).text).length ≤ pathLimit := by
  obtain ⟨⟨q, node⟩, hmem, hq⟩ := List.mem_map.mp (mem_keys_of_node? hnode (by simp [hne]))
  obtain ⟨name, rest, rfl⟩ := List.exists_cons_of_ne_nil hne
  have hshort := List.any_eq_false.mp h _ hmem
  dsimp only at hq hshort
  rw [List.isPrefixOf?_eq_some_iff_append_eq.mpr hq.symm] at hshort
  simpa using hshort

end FileTree

/-! ## The files of one target -/

variable {w : Workspace} {target : Text} {file : FilePath} {files : List FilePath}

/-- The names below a place with no skipped directory between the two. -/
def FileTree.lookedAtBelow (tree : FileTree) (place : Place) : List (List Text) :=
  (tree.namesBelow place).filter fun names => !names.dropLast.any skippedDirectories.contains

/-- What a target stands for decides what its files are. -/
theorem targetFiles_cases (w : Workspace) (target : Text) :
    (∃ place content, w.tree.FileAt w.directory (FilePath.ofText target) place content ∧
        targetFiles w target = .ok [FilePath.ofText target]) ∨
    (∃ place, w.tree.locate w.directory (FilePath.ofText target) = .ok place ∧
        w.tree.node? place = some .directory ∧
        targetFiles w target =
          if w.tree.hasLongPathBelow place (FilePath.ofText target) then .error .targetTooLong
          else .ok (((w.tree.lookedAtBelow place).map (FilePath.ofText target).below).filter
            (w.tree.isFile w.directory))) ∨
    w.hasTarget target = false ∧ ∃ e, targetFiles w target = .error e := by
  rw [Workspace.hasTarget, FileTree.look, targetFiles]
  cases hplace : w.tree.locate w.directory (FilePath.ofText target) with
  | error e =>
    right
    right
    cases e <;> exact ⟨rfl, _, rfl⟩
  | ok place =>
    dsimp only [FileTree.nodeAt]
    cases hnode : w.tree.node? place with
    | none => exact .inr (.inr ⟨rfl, _, rfl⟩)
    | some node =>
      cases node with
      | file content => exact .inl ⟨place, content, ⟨hplace, hnode⟩, rfl⟩
      | directory => exact .inr (.inl ⟨place, rfl, hnode, rfl⟩)
      | device => exact .inr (.inr ⟨rfl, _, rfl⟩)

/-- Whatever a target stands for, its files are there. -/
theorem isFile_of_mem_targetFiles (h : targetFiles w target = .ok files) (hfile : file ∈ files) :
    w.tree.isFile w.directory file := by
  rcases targetFiles_cases w target with ⟨place, content, hthere, hfiles⟩ |
    ⟨place, -, -, hfiles⟩ | ⟨-, e, he⟩
  · obtain rfl := Except.ok.inj (h.symm.trans hfiles)
    obtain rfl := List.mem_singleton.mp hfile
    exact FileTree.isFile_iff.mpr ⟨place, content, hthere⟩
  · rw [hfiles] at h
    split at h
    · exact nomatch h
    · obtain rfl := Except.ok.inj h
      exact (List.mem_filter.mp hfile).2
  · rw [he] at h
    exact nomatch h

theorem mem_lookedAtBelow {tree : FileTree} {place : Place} {names : List Text}
    (htree : tree.WellFormed) :
    names ∈ tree.lookedAtBelow place ↔
      (names ≠ [] ∧ (tree.node? (place ++ names)).isSome) ∧
        ∀ name ∈ names.dropLast, name ∉ skippedDirectories := by
  rw [FileTree.lookedAtBelow, List.mem_filter, htree.mem_namesBelow]
  simp

/-- The files of a target are those that it reaches, each of them once. -/
theorem targetFiles_spec (htree : w.tree.WellFormed) (h : targetFiles w target = .ok files) :
    (∀ file, file ∈ files ↔ w.Reaches target file) ∧ files.Nodup := by
  rcases targetFiles_cases w target with ⟨place, content, hthere, hfiles⟩ |
    ⟨place, hplace, hnode, hfiles⟩ | ⟨-, e, he⟩
  · obtain rfl := Except.ok.inj (h.symm.trans hfiles)
    refine ⟨fun file => ⟨fun hfile => ?_, fun hfile => ?_⟩, List.nodup_singleton _⟩
    · obtain rfl := List.mem_singleton.mp hfile
      exact .itself hthere.path hthere.node
    · cases hfile with
      | itself => exact List.mem_singleton_self _
      | below hplace' hdirectory =>
        obtain rfl := Except.ok.inj (hthere.path.symm.trans hplace')
        exact nomatch hthere.node.symm.trans hdirectory
  · rw [hfiles] at h
    split at h
    · exact nomatch h
    · next hshort =>
      obtain rfl := Except.ok.inj h
      -- The names below the target lead to what lies there, since the paths are short enough.
      have hpath {names : List Text} (hne : names ≠ [])
          (hthere : (w.tree.node? (place ++ names)).isSome) :
          w.tree.locate w.directory ((FilePath.ofText target).below names) =
            .ok (place ++ names) :=
        htree.locate_below (FilePath.isPlain_ofText target) hplace hthere
          (FileTree.length_le_of_hasLongPathBelow (Bool.eq_false_iff.mpr hshort) hne hthere)
      refine ⟨fun file => ⟨fun hfile => ?_, fun hfile => ?_⟩, ?_⟩
      · obtain ⟨hbelow, hisFile⟩ := List.mem_filter.mp hfile
        obtain ⟨names, hnames, rfl⟩ := List.mem_map.mp hbelow
        obtain ⟨⟨hne, hthere⟩, hlooked⟩ := (mem_lookedAtBelow htree).mp hnames
        obtain ⟨place', content, hfile⟩ := FileTree.isFile_iff.mp hisFile
        obtain rfl := Except.ok.inj ((hpath hne hthere).symm.trans hfile.path)
        exact .below hplace hnode hne hfile.node hlooked
      · cases hfile with
        | itself hplace' hfile =>
          obtain rfl := Except.ok.inj (hplace.symm.trans hplace')
          exact nomatch hnode.symm.trans hfile
        | @below place' content names hplace' hdirectory hne hfile hlooked =>
          obtain rfl := Except.ok.inj (hplace.symm.trans hplace')
          have hthere : (w.tree.node? (place ++ names)).isSome := by
            rw [hfile]
            rfl
          exact List.mem_filter.mpr
            ⟨List.mem_map_of_mem ((mem_lookedAtBelow htree).mpr ⟨⟨hne, hthere⟩, hlooked⟩),
              FileTree.isFile_iff.mpr ⟨_, content, hpath hne hthere, hfile⟩⟩
      -- Paths below one target are different if the names behind it are.
      · refine (((htree.nodup_namesBelow place).filter _).map fun names names' heq => ?_).filter _
        exact List.append_cancel_left (congrArg FilePath.parts heq)
  · rw [he] at h
    exact nomatch h

/-- Names behind a skipped one lead to no file that a target reaches. -/
theorem not_reaches_below (names : List Text)
    (hskipped : ∃ name ∈ names.dropLast, name ∈ skippedDirectories) :
    ¬w.Reaches target ((FilePath.ofText target).below names) := by
  obtain ⟨name, hname, hskip⟩ := hskipped
  generalize hfile : (FilePath.ofText target).below names = file
  intro hreaches
  cases hreaches with
  | itself =>
    have hnames : names = [] := by simpa [FilePath.below] using congrArg FilePath.parts hfile
    rw [hnames] at hname
    exact absurd hname List.not_mem_nil
  | below _ _ _ _ hlooked =>
    have hnames := List.append_cancel_left (congrArg FilePath.parts hfile)
    rw [hnames] at hname
    exact hlooked name hname hskip

/-- The files of a target have paths in the plain form. -/
theorem isPlain_of_reaches (htree : w.tree.WellFormed) (h : w.Reaches target file) :
    file.IsPlain := by
  cases h with
  | itself => exact FilePath.isPlain_ofText target
  | @below place content names _ _ inside file =>
    have hmem := FileTree.mem_keys_of_node? (by rw [file]; rfl) (by simp [inside])
    exact (FilePath.isPlain_ofText target).below fun name hname =>
      htree.names _ hmem name (List.mem_append_right _ hname)

theorem exists_targetFiles (htarget : w.hasTarget target) (hshort : w.hasLongPath target = false) :
    ∃ files, targetFiles w target = .ok files := by
  rcases targetFiles_cases w target with ⟨place, content, -, hfiles⟩ |
    ⟨place, hplace, hnode, hfiles⟩ | ⟨hno, -⟩
  · exact ⟨_, hfiles⟩
  · rw [Workspace.hasLongPath, hplace] at hshort
    rw [hfiles, if_neg (Bool.eq_false_iff.mp hshort)]
    exact ⟨_, rfl⟩
  · exact nomatch htarget.symm.trans hno

/-! ## The files of all targets -/

theorem count_flatMap_of_nodup {α β : Type} [DecidableEq β] {f : α → List β} {l : List α}
    (h : ∀ a ∈ l, (f a).Nodup) (b : β) :
    (l.flatMap f).count b = l.countP fun a => decide (b ∈ f a) := by
  induction l with
  | nil => rfl
  | cons a l ih =>
    rw [List.flatMap_cons, List.count_append, ih fun a' ha' => h a' (List.mem_cons_of_mem a ha'),
      (h a List.mem_cons_self).count, List.countP_cons, Nat.add_comm]
    simp

/-- An element that one list of several has alone occurs in all of them together as often as in that
one, for each time that it is there. -/
theorem count_flatMap_of_alone {α β : Type} [DecidableEq α] [DecidableEq β] {f : α → List β}
    {l : List α} {a : α} {b : β} (h : ∀ a' ∈ l, a' ≠ a → b ∉ f a') :
    (l.flatMap f).count b = l.count a * (f a).count b := by
  induction l with
  | nil => simp
  | cons first rest ih =>
    rw [List.flatMap_cons, List.count_append, ih fun a' ha' => h a' (List.mem_cons_of_mem _ ha')]
    by_cases hfirst : first = a
    · rw [hfirst, List.count_cons_self, Nat.add_mul, Nat.one_mul, Nat.add_comm]
    · rw [List.count_cons_of_ne hfirst,
        List.count_eq_zero_of_not_mem (h first List.mem_cons_self hfirst), Nat.zero_add]

namespace Collection

variable {s : Settings} {v : Verbosity} {c : Collection} {f : FilePath} {targets globs : List Text}

/-- A file is supported, and none of some globs ignores it. -/
def takes (globs : List Text) (file : FilePath) : Bool :=
  (Language.ofPath? file.text).isSome && !globs.any (Glob.accepts · file.text)

def filesOf (w : Workspace) (target : Text) : List FilePath :=
  (targetFiles w target).toOption.getD []

/-- A collection goes on with some more files. -/
structure Took (c : Collection) (files : List FilePath) (c' : Collection) : Prop where
  files : c'.files = c.files ++ files
  goesOn : c'.failure = none

theorem Took.trans {c₁ c₂ c₃ : Collection} {files files' : List FilePath} (h : c₁.Took files c₂)
    (h' : c₂.Took files' c₃) : c₁.Took (files ++ files') c₃ :=
  ⟨by rw [h'.files, h.files, List.append_assoc], h'.goesOn⟩

theorem took_nil (hc : c.failure = none) : c.Took [] c :=
  ⟨(List.append_nil _).symm, hc⟩

theorem addFile_took (h : s.ignorePaths = .list (globs.map .text)) (hc : c.failure = none)
    (file : FilePath) : c.Took ([file].filter (takes globs)) (addFile s v c file) := by
  have hignores : s.ignoresPath file.text = .ok (globs.any (Glob.accepts · file.text)) := by
    rw [Settings.ignoresPath, h, ← Settings.anyGlob_texts]
    rfl
  simp only [addFile, hc, hignores, List.filter_singleton, takes]
  cases Language.ofPath? file.text with
  | none => exact took_nil hc
  | some language =>
    simp only [Option.isSome_none, Option.isNone_some, Bool.or_self, Bool.false_eq_true, if_false]
    cases globs.any (Glob.accepts · file.text) with
    | true => exact ⟨(List.append_nil _).symm, rfl⟩
    | false => exact ⟨rfl, rfl⟩

theorem foldl_addFile_took (h : s.ignorePaths = .list (globs.map .text)) (hc : c.failure = none)
    (files : List FilePath) :
    c.Took (files.filter (takes globs)) (files.foldl (addFile s v) c) := by
  induction files generalizing c with
  | nil => exact took_nil hc
  | cons file rest ih =>
    have hfile := addFile_took (v := v) h hc file
    rw [List.foldl_cons, ← List.singleton_append, List.filter_append]
    exact hfile.trans (ih hfile.goesOn)

theorem foldl_addTarget_took (h : s.ignorePaths = .list (globs.map .text))
    (hc : c.failure = none)
    (htargets : ∀ target ∈ targets, ∃ files, targetFiles w target = .ok files) :
    c.Took (targets.flatMap fun target => (filesOf w target).filter (takes globs))
      (targets.foldl (addTarget s v w) c) := by
  induction targets generalizing c with
  | nil => exact took_nil hc
  | cons target rest ih =>
    obtain ⟨files, hfiles⟩ := htargets target List.mem_cons_self
    have htarget : c.Took ((filesOf w target).filter (takes globs)) (addTarget s v w c target) := by
      simp only [addTarget, filesOf, hc, hfiles]
      exact foldl_addFile_took h hc files
    rw [List.foldl_cons, List.flatMap_cons]
    exact htarget.trans
      (ih htarget.goesOn fun target' ht => htargets target' (List.mem_cons_of_mem _ ht))

/-! ## What is collected -/

theorem files_addFile (hfile : file ∈ (addFile s v c f).files) :
    file ∈ c.files ∨ file = f ∧ (Language.ofPath? f.text).isSome := by
  rw [addFile] at hfile
  split at hfile
  · exact .inl hfile
  · next hgoesOn =>
    split at hfile
    · exact .inl hfile
    · rcases List.mem_append.mp hfile with hfile | hfile
      · exact .inl hfile
      · simp only [Bool.or_eq_true, not_or] at hgoesOn
        exact .inr ⟨List.mem_singleton.mp hfile, by simpa [Option.isSome_iff_ne_none] using hgoesOn.2⟩
    · exact .inl hfile

theorem files_foldl_addFile (hfile : file ∈ (files.foldl (addFile s v) c).files) :
    file ∈ c.files ∨ file ∈ files ∧ (Language.ofPath? file.text).isSome := by
  induction files generalizing c with
  | nil => exact .inl hfile
  | cons f rest ih =>
    rcases ih hfile with hfile | ⟨hfile, hsupported⟩
    · rcases files_addFile hfile with hfile | ⟨rfl, hsupported⟩
      · exact .inl hfile
      · exact .inr ⟨List.mem_cons_self, hsupported⟩
    · exact .inr ⟨List.mem_cons_of_mem f hfile, hsupported⟩

theorem files_foldl_addTarget (hfile : file ∈ (targets.foldl (addTarget s v w) c).files) :
    file ∈ c.files ∨ (Language.ofPath? file.text).isSome ∧
      ∃ target ∈ targets, ∃ files, targetFiles w target = .ok files ∧ file ∈ files := by
  induction targets generalizing c with
  | nil => exact .inl hfile
  | cons target rest ih =>
    rcases ih hfile with hfile | ⟨hsupported, target', ht, hfiles⟩
    · rw [addTarget] at hfile
      split at hfile
      · exact .inl hfile
      · split at hfile
        · next files hfiles =>
          rcases files_foldl_addFile hfile with hfile | ⟨hfile, hsupported⟩
          · exact .inl hfile
          · exact .inr ⟨hsupported, target, List.mem_cons_self, files, hfiles, hfile⟩
        · exact .inl hfile
    · exact .inr ⟨hsupported, target', List.mem_cons_of_mem target ht, hfiles⟩

/-- Whatever is ignored, a run can look into each file that it collects. -/
theorem isSome_source?_of_mem_ofTargets (hfile : file ∈ (ofTargets s v w targets).files) :
    (w.source? w.tree file).isSome := by
  rcases files_foldl_addTarget hfile with hfile | ⟨hsupported, target, -, files, hfiles, hfile⟩
  · exact absurd hfile List.not_mem_nil
  · obtain ⟨language, hlanguage⟩ := Option.isSome_iff_exists.mp hsupported
    obtain ⟨place, content, hthere⟩ :=
      FileTree.isFile_iff.mp (isFile_of_mem_targetFiles hfiles hfile)
    exact Option.isSome_iff_exists.mpr
      ⟨_, Workspace.source?_eq_some_iff.mpr ⟨hthere, hlanguage⟩⟩

end Collection

/-! ## What a checking run finds -/

namespace FileChecker

variable (c : FileChecker) (v : Verbosity) (w : Workspace) (targets : List Text)

/-- What checking a file alone finds, if that succeeds. -/
def found (file : FilePath) : List Diagnostic :=
  (w.report w.tree (c.checkOutcome w.system) [file]).fixed.flatMap (·.remaining)

theorem exists_analyze (h : (Collection.ofTargets c.settings v w targets).failure = none) :
    ∃ log, c.analyze v w targets =
      (Collection.ofTargets c.settings v w targets).files.foldl (Run.checkFile c v w)
        { Run.start w targets (Collection.ofTargets c.settings v w targets) with log := log } := by
  have hstart : (Run.start w targets
      (Collection.ofTargets c.settings v w targets)).failure.isSome = false := by
    rw [Run.start, h, Option.isSome_none]
  exact ⟨_, by simp only [analyze, hstart]; rfl⟩

variable {c v w targets} {l : Linter} {file : FilePath} {place : Place} {language : Language}
  {source : Bytes}

theorem flatMap_remaining_report (files : List FilePath) :
    (w.report w.tree (c.checkOutcome w.system) files).fixed.flatMap (·.remaining) =
      files.flatMap (c.found w) := by
  induction files with
  | nil => rfl
  | cons file rest ih =>
    rw [← List.singleton_append, Workspace.report_append, RunReport.fixed_append, List.flatMap_append,
      List.flatMap_append, List.flatMap_singleton]
    exact congrArg (c.found w file ++ ·) ih

/-- A checking run that is not stopped gives what is found in each of its files, in order. -/
theorem analyze_diagnostics (hcollected : (Collection.ofTargets c.settings v w targets).failure = none)
    (h : (c.analyze v w targets).failure = none) :
    (c.analyze v w targets).result.diagnostics =
      (Collection.ofTargets c.settings v w targets).files.flatMap (c.found w) := by
  obtain ⟨log, hrun⟩ := c.exists_analyze v w targets hcollected
  rw [hrun] at h ⊢
  have hfiles : ∀ file ∈ (Collection.ofTargets c.settings v w targets).files,
      (w.source? w.tree file).isSome :=
    fun file hfile => Collection.isSome_source?_of_mem_ofTargets hfile
  have htells := Run.foldl_checkFile_tells
    (r := { Run.start w targets (Collection.ofTargets c.settings v w targets) with log }) hfiles h
  rw [htells.result_eq, ← flatMap_remaining_report]
  exact List.nil_append _

theorem found_of_check (hread : w.read w.tree file = .ok source) {ds : List Diagnostic}
    (hsource : w.source? w.tree file = some (place, language, source))
    (hds : c.check language file.text source = .ok ds) : c.found w file = ds := by
  obtain ⟨hfile, -⟩ := Workspace.source?_eq_some_iff.mp hsource
  rw [Workspace.read_of_fileAt hfile] at hread
  rw [found, Workspace.report_singleton hsource, checkOutcome]
  cases hfault : w.system.readFault? place with
  | some message => simp [hfault] at hread
  | none => simp [hds]

theorem location_file_of_mem_found {d : Diagnostic} (hd : d ∈ l.checker.found w file) :
    d.location.file = file.text := by
  cases hsource : w.source? w.tree file with
  | none => simp [found, Workspace.report, hsource] at hd
  | some found =>
    obtain ⟨place, language, source⟩ := found
    rw [found, Workspace.report_singleton hsource, checkOutcome] at hd
    cases hfault : w.system.readFault? place with
    | some message => simp [hfault] at hd
    | none =>
      cases hds : l.checker.check language file.text source with
      | error e => simp [hfault, hds] at hd
      | ok ds =>
        have hmem : d ∈ ds := by simpa [hfault, hds] using hd
        exact Linter.location_file_of_checkBytes hds d hmem

/-- What is found in a file is told as often as the file is collected. -/
theorem count_analyze
    (hplain : ∀ file ∈ (Collection.ofTargets l.settings v w targets).files, file.IsPlain)
    (hcollected : (Collection.ofTargets l.settings v w targets).failure = none)
    (hgoesOn : (l.analyze v w targets).failure = none)
    (hfile : file ∈ (Collection.ofTargets l.settings v w targets).files)
    (hlanguage : Language.ofPath? file.text = some language)
    (hread : w.read w.tree file = .ok source) {ds : List Diagnostic}
    (hds : l.checkBytes language file.text source = .ok ds) {d : Diagnostic} (hd : d ∈ ds) :
    (l.analyze v w targets).result.diagnostics.count d =
      (Collection.ofTargets l.settings v w targets).files.count file * ds.count d := by
  obtain ⟨⟨place, language', source'⟩, hsource⟩ :=
    Option.isSome_iff_exists.mp (Collection.isSome_source?_of_mem_ofTargets hfile)
  obtain ⟨hthere, hlanguage'⟩ := Workspace.source?_eq_some_iff.mp hsource
  obtain rfl := Option.some.inj (hlanguage'.symm.trans hlanguage)
  obtain rfl : source' = source := by
    have hknown := Workspace.read_of_fileAt hthere
    rw [hread] at hknown
    split at hknown
    · exact nomatch hknown
    · exact (Except.ok.inj hknown).symm
  -- What is found in another file names that one, by another text of its path.
  have hother : ∀ file' ∈ (Collection.ofTargets l.settings v w targets).files, file' ≠ file →
      d ∉ l.checker.found w file' := by
    intro file' hfile' hne hfound
    have hplace := Linter.location_file_of_checkBytes hds d hd
    rw [location_file_of_mem_found hfound] at hplace
    exact hne ((hplain file' hfile').text_injective (hplain file hfile) hplace)
  have hdiagnostics : (l.analyze v w targets).result.diagnostics =
      (Collection.ofTargets l.settings v w targets).files.flatMap (l.checker.found w) :=
    analyze_diagnostics hcollected hgoesOn
  rw [hdiagnostics, count_flatMap_of_alone hother,
    found_of_check (c := l.checker) hread hsource hds]

end FileChecker

namespace Collection

variable {globs : List Text}

theorem takes_iff {file : FilePath} :
    takes globs file ↔ (∃ language : Language, fileExtension file.text ∈ language.extensions) ∧
      ∀ glob ∈ globs, ¬Glob.accepts glob file.text := by
  rw [takes, Bool.and_eq_true, Bool.not_eq_true', List.any_eq_false, Language.ofPath?,
    List.find?_isSome]
  refine and_congr_left fun _ => exists_congr fun language => ?_
  have hall : language ∈ Language.all := by cases language <;> decide
  simp [hall]

open scoped Classical in
/-- If all targets are files or directories with paths that are short enough, a run collects exactly
the supported files that no glob ignores and that a target reaches, and each of them as often as
there are targets that reach it. So a checking run tells what is found in a file once for each of
these targets. -/
theorem collected_once_for_each_target (s : Settings) (v : Verbosity) (w : Workspace)
    (targets globs : List Text) (htree : w.tree.WellFormed)
    (hignore : s.ignorePaths = .list (globs.map .text))
    (htargets : ∀ target ∈ targets, w.hasTarget target)
    (hshort : ∀ target ∈ targets, w.hasLongPath target = false) :
    (ofTargets s v w targets).failure = none ∧
    (∀ file, file ∈ (ofTargets s v w targets).files ↔
      (∃ language : Language, fileExtension file.text ∈ language.extensions) ∧
      (∀ glob ∈ globs, ¬Glob.accepts glob file.text) ∧
      ∃ target ∈ targets, w.Reaches target file) ∧
    (∀ file ∈ (ofTargets s v w targets).files,
      (ofTargets s v w targets).files.count file =
        targets.countP fun target => decide (w.Reaches target file)) ∧
    ∀ l : Linter, l.settings = s → (l.analyze v w targets).failure = none →
      ∀ file ∈ (ofTargets s v w targets).files, ∀ language source ds,
        Language.ofPath? file.text = some language → w.read w.tree file = .ok source →
        l.checkBytes language file.text source = .ok ds → ∀ d ∈ ds,
          (l.analyze v w targets).result.diagnostics.count d =
            (targets.countP fun target => decide (w.Reaches target file)) * ds.count d := by
  have hfiles : ∀ target ∈ targets, ∃ files, targetFiles w target = .ok files :=
    fun target ht => exists_targetFiles (htargets target ht) (hshort target ht)
  have htook : Took {} _ (ofTargets s v w targets) := foldl_addTarget_took hignore rfl hfiles
  have hof : ∀ target ∈ targets, (∀ file, file ∈ filesOf w target ↔ w.Reaches target file) ∧
      (filesOf w target).Nodup := by
    intro target ht
    obtain ⟨files, htarget⟩ := hfiles target ht
    rw [filesOf, htarget]
    exact targetFiles_spec htree htarget
  have hmem : ∀ file, file ∈ (ofTargets s v w targets).files ↔
      (∃ language : Language, fileExtension file.text ∈ language.extensions) ∧
      (∀ glob ∈ globs, ¬Glob.accepts glob file.text) ∧
      ∃ target ∈ targets, w.Reaches target file := by
    intro file
    rw [htook.files, List.nil_append]
    simp only [List.mem_flatMap, List.mem_filter, takes_iff]
    constructor
    · rintro ⟨target, ht, hfile, hsupported, hkept⟩
      exact ⟨hsupported, hkept, target, ht, ((hof target ht).1 file).mp hfile⟩
    · rintro ⟨hsupported, hkept, target, ht, hreaches⟩
      exact ⟨target, ht, ((hof target ht).1 file).mpr hreaches, hsupported, hkept⟩
  have hcount : ∀ file ∈ (ofTargets s v w targets).files,
      (ofTargets s v w targets).files.count file =
        targets.countP fun target => decide (w.Reaches target file) := by
    intro file hfile
    rw [htook.files, List.nil_append] at hfile ⊢
    obtain ⟨target, ht, hin⟩ := List.mem_flatMap.mp hfile
    have htakes := (List.mem_filter.mp hin).2
    rw [count_flatMap_of_nodup fun t ht => (hof t ht).2.filter _]
    -- The file is taken, so that only reaching it makes a difference between targets.
    refine List.countP_congr fun t ht => ?_
    simp [List.mem_filter, htakes, (hof t ht).1 file]
  refine ⟨htook.goesOn, hmem, hcount, ?_⟩
  rintro l rfl hgoesOn file hfile language source ds hlanguage hread hds d hd
  have hplain : ∀ file ∈ (ofTargets l.settings v w targets).files, file.IsPlain := by
    intro file hfile
    obtain ⟨-, -, target, -, hreaches⟩ := (hmem file).mp hfile
    exact isPlain_of_reaches htree hreaches
  rw [← hcount file hfile]
  exact FileChecker.count_analyze hplain htook.goesOn hgoesOn hfile hlanguage hread hds hd

private def nested : Workspace where
  tree := [(["src"], .directory), (["src", "a.py"], .file []), (["src", "vendor"], .directory),
    (["src", "vendor", "b.py"], .file []), (["src", "gen"], .directory),
    (["src", "gen", "c.py"], .file [])]
  directory := []

/-- A file below a skipped directory is collected when a target stands at that directory or below
it, although another target skips it: that one alone does not collect it. -/
theorem skipped_directory_reached_as_target :
    let targets : List Text := ["src", "src/vendor"]
    let s : Settings := { ignorePaths := .list ([("*/gen/*" : Text)].map .text) }
    (ofTargets s {} nested targets).failure = none ∧
      FilePath.ofText "src/vendor/b.py" ∈ (ofTargets s {} nested targets).files ∧
      FilePath.ofText "src/vendor/b.py" ∉ (ofTargets s {} nested ["src"]).files := by
  intro targets s
  obtain ⟨hgoesOn, hmem, -, -⟩ := collected_once_for_each_target s {} nested targets ["*/gen/*"]
    (by decide +kernel) rfl (by decide +kernel) (by decide +kernel)
  obtain ⟨-, hmemAlone, -, -⟩ := collected_once_for_each_target s {} nested ["src"] ["*/gen/*"]
    (by decide +kernel) rfl (by decide +kernel) (by decide +kernel)
  have hskips : ¬nested.Reaches "src" (FilePath.ofText "src/vendor/b.py") :=
    not_reaches_below (["vendor", "b.py"].map String.toList)
      ⟨"vendor".toList, by decide +kernel, by decide +kernel⟩
  have hplace : nested.tree.locate nested.directory (FilePath.ofText "src/vendor") =
      .ok ["src".toList, "vendor".toList] := by decide +kernel
  have hfile : nested.tree.node? (["src".toList, "vendor".toList] ++ ["b.py".toList]) =
      some (.file []) := by decide +kernel
  have hreaches : nested.Reaches "src/vendor"
      ((FilePath.ofText "src/vendor").below ["b.py".toList]) :=
    .below hplace (by decide +kernel) (by decide +kernel) hfile (by decide +kernel)
  have htext : (FilePath.ofText "src/vendor").below ["b.py".toList] =
      FilePath.ofText "src/vendor/b.py" := by decide +kernel
  refine ⟨hgoesOn, (hmem _).mpr ⟨⟨.python, by decide +kernel⟩, by decide +kernel, "src/vendor",
    by decide +kernel, htext ▸ hreaches⟩, fun hcollected => ?_⟩
  obtain ⟨-, -, target, htarget, halone⟩ := (hmemAlone _).mp hcollected
  exact hskips (List.mem_singleton.mp htarget ▸ halone)

private def oneFile : Workspace where
  tree := [(["a.py"], .file (Text.utf8 "# lint:ignore\n"))]
  directory := []

/-- A file that is a target beside the directory in which it lies is collected twice, and its
finding is told twice. -/
theorem nested_targets_repeat_finding :
    let targets : List Text := [".", "a.py"]
    oneFile.tree.WellFormed ∧ (∀ target ∈ targets, oneFile.hasTarget target) ∧
      (ofTargets {} {} oneFile targets).files.count (FilePath.ofText "a.py") = 2 ∧
      (({} : Linter).checker.analyze {} oneFile targets).result.diagnostics.map Diagnostic.code =
        ["BareIgnore", "BareIgnore"] := by
  refine ⟨by decide +kernel, by decide +kernel, by decide +kernel, ?_⟩
  decide +kernel

end Collection

end LintDirectives
