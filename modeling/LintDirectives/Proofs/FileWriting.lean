import LintDirectives.FileTree

/-!
# Writing files of a tree

Where a path leads, and which files there are below a directory, depends on the names of a tree and
not on the contents of its files. So a file that is there is written without moving any other: only
its own content changes.
-/

namespace LintDirectives

/-- A node without its content. -/
def FileNode.blank : FileNode → FileNode
  | .file _ => .file []
  | .directory => .directory
  | .device => .device

namespace FileTree

variable {tree tree' : FileTree} {start place : Place} {p : FilePath} {old : Bytes}

/-- A tree whose files are all empty. -/
def blank (tree : FileTree) : FileTree :=
  tree.map fun entry => (entry.1, entry.2.blank)

/-! ## Names alone lead to places -/

theorem node?_blank (tree : FileTree) (place : Place) :
    tree.blank.node? place = (tree.node? place).map FileNode.blank := by
  unfold node?
  split
  · rfl
  · exact KeyedList.get?_map FileNode.blank place tree

theorem walk_blank (tree : FileTree) (place : Place) (parts : List Text) :
    tree.blank.walk place parts = tree.walk place parts := by
  induction parts generalizing place with
  | nil => rfl
  | cons part rest ih =>
    rw [walk, walk, node?_blank]
    cases tree.node? place with
    | none => rfl
    | some node =>
      cases node with
      | directory => simp only [Option.map_some, FileNode.blank, ih]
      | file content => rfl
      | device => rfl

theorem locate_blank (tree : FileTree) (start : Place) (p : FilePath) :
    tree.blank.locate start p = tree.locate start p := by
  simp only [locate, follow, walk_blank]

theorem namesBelow_blank (tree : FileTree) (place : Place) :
    tree.blank.namesBelow place = tree.namesBelow place := by
  rw [namesBelow, namesBelow, blank, List.filterMap_map]
  rfl

theorem isFile_blank (tree : FileTree) (start : Place) :
    tree.blank.isFile start = tree.isFile start := by
  funext p
  simp only [isFile, look, locate_blank]
  cases tree.locate start p with
  | error e => rfl
  | ok place =>
    simp only [nodeAt, node?_blank]
    cases tree.node? place with
    | none => rfl
    | some node => cases node <;> rfl

theorem locate_of_blank_eq (h : tree'.blank = tree.blank) (start : Place) (p : FilePath) :
    tree'.locate start p = tree.locate start p := by
  rw [← locate_blank tree', h, locate_blank]

/-! ## Writing a file that is there -/

structure FileAt (tree : FileTree) (start : Place) (p : FilePath) (place : Place)
    (content : Bytes) : Prop where
  path : tree.locate start p = .ok place
  node : tree.node? place = some (.file content)

theorem isFile_iff : tree.isFile start p ↔ ∃ place content, tree.FileAt start p place content := by
  simp only [isFile, look]
  constructor
  · intro h
    cases hplace : tree.locate start p with
    | error e => simp [hplace, nodeAt] at h
    | ok place =>
      cases hnode : tree.node? place with
      | none => simp [hplace, nodeAt, hnode] at h
      | some node =>
        cases node with
        | file content => exact ⟨place, content, hplace, hnode⟩
        | directory => simp [hplace, nodeAt, hnode] at h
        | device => simp [hplace, nodeAt, hnode] at h
  · rintro ⟨place, content, hplace, hnode⟩
    simp only [hplace, nodeAt, hnode]

/-- A file that is there stays a file when only contents change. -/
theorem FileAt.of_blank_eq (h : tree.FileAt start p place old) (hblank : tree'.blank = tree.blank) :
    ∃ content, tree'.FileAt start p place content := by
  have hnode := node?_blank tree' place
  rw [hblank, node?_blank, h.node] at hnode
  obtain ⟨node, hplace, hfile⟩ := Option.map_eq_some_iff.mp hnode.symm
  have hpath := (locate_of_blank_eq hblank start p).trans h.path
  cases node with
  | file content => exact ⟨content, hpath, hplace⟩
  | directory => exact nomatch hfile
  | device => exact nomatch hfile

theorem blank_put (h : KeyedList.get? place tree = some (.file old)) (new : Bytes) :
    blank (KeyedList.put place (.file new) tree) = tree.blank := by
  induction tree with
  | nil => exact nomatch h
  | cons entry rest ih =>
    rw [KeyedList.put, KeyedList.update]
    rw [KeyedList.get?] at h
    split at h
    · next heq =>
      rw [if_pos heq]
      simp [blank, Option.some.inj h, FileNode.blank]
    · next hne =>
      rw [if_neg hne]
      exact congrArg ((entry.1, entry.2.blank) :: ·) (ih h)

/-- A tree differs from another one only by the content of the file at a place. -/
structure Wrote (tree : FileTree) (place : Place) (new : Bytes) (tree' : FileTree) : Prop where
  blank : tree'.blank = tree.blank
  node : tree'.node? place = some (.file new)
  others : ∀ place', place' ≠ place → tree'.node? place' = tree.node? place'

theorem wrote_self (h : tree.node? place = some (.file old)) : tree.Wrote place old tree :=
  ⟨rfl, h, fun _ _ => rfl⟩

/-- A file that is there can be written. -/
theorem FileAt.exists_write (h : tree.FileAt start p place old) (new : Bytes) :
    ∃ tree', tree.write start p new = .ok tree' ∧ tree.Wrote place new tree' := by
  have hroot : ¬place.isEmpty := fun hroot => by
    have hnode := h.node
    rw [node?, if_pos hroot] at hnode
    exact nomatch hnode
  have hget : KeyedList.get? place tree = some (.file old) := by
    rw [← h.node, node?, if_neg hroot]
  refine ⟨KeyedList.put place (.file new) tree, ?_, blank_put hget new, ?_, fun place' hne => ?_⟩
  · simp only [write, h.path, h.node]
  · rw [node?, if_neg hroot, KeyedList.put, KeyedList.get?_update_self]
  · unfold node?
    rw [KeyedList.put, KeyedList.get?_update_of_ne hne]

end FileTree

end LintDirectives
