import LintDirectives.ConfigFile
import Mathlib.Data.List.Induction

/-!
# The search for a configuration file

The directories from the one where the search starts up to the root are numbered by how far up they
lie. The search goes up to the first of them that holds a repository and looks into that one too. It
finds the file of the lowest directory that has one, and none if there is no such file on this way.
-/

namespace LintDirectives.ConfigFile

/-- The directory that lies a number of steps above another one. -/
def ancestor (directory : Place) (i : ℕ) : Place :=
  directory.take (directory.length - i)

/-- Something of a name stands in a directory. -/
def Holds (tree : FileTree) (directory : Place) (name : Text) : Prop :=
  (tree.node? (directory ++ [name])).isSome

instance (tree : FileTree) (directory : Place) (name : Text) :
    Decidable (Holds tree directory name) :=
  inferInstanceAs (Decidable ((tree.node? (directory ++ [name])).isSome = true))

def HoldsConfig (tree : FileTree) (directory : Place) : Prop :=
  Holds tree directory ".scalpel.yaml" ∨ Holds tree directory ".scalpel.yml"

/-- The configuration file of a directory, which may hold one under either name. -/
inductive IsConfigOf (tree : FileTree) (directory : Place) : Place → Prop where
  | first (holds : Holds tree directory ".scalpel.yaml") :
      IsConfigOf tree directory (directory ++ [".scalpel.yaml".toList])
  | second (other : ¬Holds tree directory ".scalpel.yaml")
      (holds : Holds tree directory ".scalpel.yml") :
      IsConfigOf tree directory (directory ++ [".scalpel.yml".toList])

/-- How far up a search goes: to the first directory that holds a repository, or to the root if none
does. -/
structure IsLimit (tree : FileTree) (directory : Place) (k : ℕ) : Prop where
  within : k ≤ directory.length
  ends : Holds tree (ancestor directory k) ".git" ∨ k = directory.length
  goesOn : ∀ i < k, ¬Holds tree (ancestor directory i) ".git"

/-- The configuration file of the lowest directory that has one, up to a limit. -/
def IsNearest (tree : FileTree) (directory : Place) (k : ℕ) (place : Place) : Prop :=
  ∃ i ≤ k, IsConfigOf tree (ancestor directory i) place ∧
    ∀ j < i, ¬HoldsConfig tree (ancestor directory j)

variable {tree : FileTree} {directory place : Place} {name : Text} {k : ℕ}

@[simp] theorem ancestor_zero (directory : Place) : ancestor directory 0 = directory := by
  simp [ancestor]

@[simp] theorem ancestor_append_succ (directory : Place) (name : Text) (i : ℕ) :
    ancestor (directory ++ [name]) (i + 1) = ancestor directory i := by
  rw [ancestor, ancestor, List.length_append, List.length_singleton, Nat.add_sub_add_right,
    List.take_append_of_le_length (Nat.sub_le _ _)]

theorem ancestor_isPrefix_of_le (directory : Place) {i j : ℕ} (h : i ≤ j) :
    ancestor directory j <+: ancestor directory i :=
  List.take_prefix_take_left (by omega)

/-! ## One directory -/

theorem IsConfigOf.holdsConfig (h : IsConfigOf tree directory place) :
    HoldsConfig tree directory := by
  cases h with
  | first holds => exact .inl holds
  | second other holds => exact .inr holds

theorem IsConfigOf.dropLast (h : IsConfigOf tree directory place) :
    place.dropLast = directory := by
  cases h <;> simp

theorem IsConfigOf.unique {place' : Place} (h : IsConfigOf tree directory place)
    (h' : IsConfigOf tree directory place') : place = place' := by
  cases h with
  | first holds =>
    cases h' with
    | first => rfl
    | second other => exact absurd holds other
  | second other holds =>
    cases h' with
    | first holds' => exact absurd holds' other
    | second => rfl

theorem find?_pair (tree : FileTree) (directory : Place) (a b : Text) :
    ([a, b].map fun name => directory ++ [name]).find? (fun place => (tree.node? place).isSome) =
      if Holds tree directory a then some (directory ++ [a])
      else if Holds tree directory b then some (directory ++ [b]) else none := by
  rw [List.map_cons, List.map_singleton, List.find?_cons, List.find?_singleton]
  by_cases ha : Holds tree directory a
  · rw [if_pos ha, show (tree.node? (directory ++ [a])).isSome = true from ha]
  · rw [if_neg ha, Bool.eq_false_iff.mpr ha]
    rfl

theorem inDirectory?_eq (tree : FileTree) (directory : Place) :
    inDirectory? tree directory =
      if Holds tree directory ".scalpel.yaml" then some (directory ++ [".scalpel.yaml".toList])
      else if Holds tree directory ".scalpel.yml" then some (directory ++ [".scalpel.yml".toList])
      else none :=
  find?_pair tree directory ".scalpel.yaml" ".scalpel.yml"

/-- The search ends in a directory with its configuration file, or without one if the directory
holds a repository. -/
theorem endsIn?_cases (tree : FileTree) (directory : Place) :
    (∃ place, endsIn? tree directory = some (some place) ∧ IsConfigOf tree directory place) ∨
      ¬HoldsConfig tree directory ∧
        endsIn? tree directory = if Holds tree directory ".git" then some none else none := by
  have hhere := inDirectory?_eq tree directory
  by_cases hfirst : Holds tree directory ".scalpel.yaml"
  · rw [if_pos hfirst] at hhere
    exact .inl ⟨_, by simp only [endsIn?, hhere], .first hfirst⟩
  · rw [if_neg hfirst] at hhere
    by_cases hsecond : Holds tree directory ".scalpel.yml"
    · rw [if_pos hsecond] at hhere
      exact .inl ⟨_, by simp only [endsIn?, hhere], .second hfirst hsecond⟩
    · rw [if_neg hsecond] at hhere
      refine .inr ⟨fun h => h.elim hfirst hsecond, ?_⟩
      simp only [endsIn?, hhere]
      rfl

/-! ## The way up -/

theorem find?_nil (tree : FileTree) : find? tree [] = (endsIn? tree []).getD none := rfl

theorem find?_append (tree : FileTree) (directory : Place) (name : Text) :
    find? tree (directory ++ [name]) =
      (endsIn? tree (directory ++ [name])).getD (find? tree directory) := by
  rw [find?, List.reverse_append, List.reverse_singleton, List.singleton_append, searchUp?,
    List.reverse_cons, List.reverse_reverse]
  cases endsIn? tree (directory ++ [name]) <;> rfl

theorem IsLimit.unique {k' : ℕ} (h : IsLimit tree directory k) (h' : IsLimit tree directory k') :
    k = k' := by
  -- Of two limits the upper one would not have been reached.
  have hle : ∀ {i j}, IsLimit tree directory i → IsLimit tree directory j → i ≤ j := by
    intro i j hi hj
    by_contra hlt
    rcases hj.ends with hends | hends
    · exact hi.goesOn j (by omega) hends
    · have := hi.within
      omega
  exact Nat.le_antisymm (hle h h') (hle h' h)

/-- Going on above a directory that holds no repository, the search has one more directory. -/
theorem isLimit_append_succ :
    IsLimit tree (directory ++ [name]) (k + 1) ↔
      ¬Holds tree (directory ++ [name]) ".git" ∧ IsLimit tree directory k := by
  constructor
  · intro h
    refine ⟨by simpa using h.goesOn 0 (by omega), by simpa using h.within, by simpa using h.ends,
      fun i hi => by simpa using h.goesOn (i + 1) (by omega)⟩
  · rintro ⟨hhere, h⟩
    refine ⟨by simpa using h.within, by simpa using h.ends, fun i hi => ?_⟩
    cases i with
    | zero => simpa using hhere
    | succ i => simpa using h.goesOn i (by omega)

theorem exists_isLimit (tree : FileTree) (directory : Place) : ∃ k, IsLimit tree directory k := by
  induction directory using List.reverseRecOn with
  | nil => exact ⟨0, Nat.le_refl 0, .inr rfl, by omega⟩
  | append_singleton directory name ih =>
    by_cases hhere : Holds tree (directory ++ [name]) ".git"
    · exact ⟨0, Nat.zero_le _, .inl (by simpa using hhere), by omega⟩
    · obtain ⟨k, hk⟩ := ih
      exact ⟨k + 1, isLimit_append_succ.mpr ⟨hhere, hk⟩⟩

theorem isNearest_zero (h : IsConfigOf tree directory place) (k : ℕ) :
    IsNearest tree directory k place :=
  ⟨0, Nat.zero_le k, by simpa using h, by omega⟩

theorem IsNearest.append (hhere : ¬HoldsConfig tree (directory ++ [name]))
    (h : IsNearest tree directory k place) :
    IsNearest tree (directory ++ [name]) (k + 1) place := by
  obtain ⟨i, hi, hplace, hbefore⟩ := h
  refine ⟨i + 1, by omega, by simpa using hplace, fun j hj => ?_⟩
  cases j with
  | zero => simpa using hhere
  | succ j => simpa using hbefore j (by omega)

theorem IsNearest.unique {place' : Place} (h : IsNearest tree directory k place)
    (h' : IsNearest tree directory k place') : place = place' := by
  obtain ⟨i, -, hplace, hbefore⟩ := h
  obtain ⟨i', -, hplace', hbefore'⟩ := h'
  have hle : i' ≤ i := Nat.not_lt.mp fun hlt => hbefore' i hlt hplace.holdsConfig
  have hge : i ≤ i' := Nat.not_lt.mp fun hlt => hbefore i' hlt hplace'.holdsConfig
  obtain rfl := Nat.le_antisymm hge hle
  exact hplace.unique hplace'

/-- What the search comes to: the nearest configuration file, or that there is none up to the
limit. -/
theorem find?_spec (h : IsLimit tree directory k) :
    (∃ place, find? tree directory = some place ∧ IsNearest tree directory k place) ∨
      find? tree directory = none ∧ ∀ i ≤ k, ¬HoldsConfig tree (ancestor directory i) := by
  -- The search starts at the end of the path, and each step up shortens it and the way to the limit.
  induction directory using List.reverseRecOn generalizing k with
  | nil =>
    rcases endsIn?_cases tree [] with ⟨place, hends, hplace⟩ | ⟨hno, hends⟩
    · exact .inl ⟨place, by rw [find?_nil, hends, Option.getD_some], isNearest_zero hplace k⟩
    · refine .inr ⟨by rw [find?_nil, hends]; split <;> rfl, fun i _ => ?_⟩
      simpa [ancestor] using hno
  | append_singleton directory name ih =>
    rcases endsIn?_cases tree (directory ++ [name]) with ⟨place, hends, hplace⟩ | ⟨hno, hends⟩
    · exact .inl ⟨place, by rw [find?_append, hends, Option.getD_some], isNearest_zero hplace k⟩
    · rw [find?_append, hends]
      cases k with
      | zero =>
        have hrepository : Holds tree (directory ++ [name]) ".git" := by simpa using h.ends
        rw [if_pos hrepository]
        refine .inr ⟨rfl, fun i hi => ?_⟩
        simpa [Nat.le_zero.mp hi] using hno
      | succ k =>
        obtain ⟨hgoesOn, hk⟩ := isLimit_append_succ.mp h
        rw [if_neg hgoesOn, Option.getD_none]
        rcases ih hk with ⟨place, hplace, hnearest⟩ | ⟨hnone, hall⟩
        · exact .inl ⟨place, hplace, hnearest.append hno⟩
        · refine .inr ⟨hnone, fun i hi => ?_⟩
          cases i with
          | zero => simpa using hno
          | succ i => simpa using hall i (by omega)

theorem find?_eq_some_iff (h : IsLimit tree directory k) :
    find? tree directory = some place ↔ IsNearest tree directory k place := by
  rcases find?_spec h with ⟨place', hfind, hnearest⟩ | ⟨hnone, hall⟩
  · rw [hfind, Option.some.injEq]
    exact ⟨fun heq => heq ▸ hnearest, fun h' => hnearest.unique h'⟩
  · rw [hnone]
    refine ⟨nofun, ?_⟩
    rintro ⟨i, hi, hplace, -⟩
    exact absurd hplace.holdsConfig (hall i hi)

theorem find?_eq_none_iff (h : IsLimit tree directory k) :
    find? tree directory = none ↔ ∀ i ≤ k, ¬HoldsConfig tree (ancestor directory i) := by
  rcases find?_spec h with ⟨place, hfind, i, hi, hplace, -⟩ | ⟨hnone, hall⟩
  · rw [hfind]
    exact ⟨nofun, fun hall => absurd hplace.holdsConfig (hall i hi)⟩
  · exact ⟨fun _ => hall, fun _ => hnone⟩

/-- In every file tree the search from a directory goes up to one limit, finds the nearest
configuration file up to there, and finds none exactly if there is none. What it finds lies in the
directory at the limit or below it, and a file in that directory is not missed. A path is searched
from as the directory that it stands for, unless it or a path asked for is longer than a path may be
or holds a zero character. -/
theorem nearest_config_found (tree : FileTree) (directory : Place) :
    ∃ k, IsLimit tree directory k ∧ (∀ k', IsLimit tree directory k' → k' = k) ∧
      (∀ place, find? tree directory = some place ↔ IsNearest tree directory k place) ∧
      (find? tree directory = none ↔ ∀ i ≤ k, ¬HoldsConfig tree (ancestor directory i)) ∧
      (∀ place, find? tree directory = some place →
        ancestor directory k <+: place.dropLast) ∧
      (HoldsConfig tree (ancestor directory k) → (find? tree directory).isSome) ∧
      ∀ working start, FileTree.resolve working (FilePath.ofText start) = directory →
        start.contains '\x00' = false →
        tree.locate [] ⟨.single, directory ++ [firstName]⟩ ≠ .error .tooLong →
        findFrom tree working start = .ok (find? tree directory) := by
  obtain ⟨k, hk⟩ := exists_isLimit tree directory
  refine ⟨k, hk, fun k' hk' => hk'.unique hk, fun place => find?_eq_some_iff hk,
    find?_eq_none_iff hk, fun place hplace => ?_, fun hlimit => ?_,
    fun working start hstart hzero hshort => ?_⟩
  · obtain ⟨i, hi, hplace, -⟩ := (find?_eq_some_iff hk).mp hplace
    rw [hplace.dropLast]
    exact ancestor_isPrefix_of_le directory hi
  · rw [Option.isSome_iff_ne_none]
    intro hnone
    exact (find?_eq_none_iff hk).mp hnone k (Nat.le_refl k) hlimit
  · simp only [findFrom, hstart, hzero, Bool.false_eq_true, if_false]

/-- The file beside the repository is found, and not the one above it. -/
example :
    let tree : FileTree := [([".scalpel.yaml"], .file []), (["r"], .directory),
      (["r", ".git"], .directory), (["r", ".scalpel.yml"], .file []), (["r", "a"], .directory)]
    find? tree ["r", "a"] = some (["r", ".scalpel.yml"] : List Text) := by
  decide +kernel

end LintDirectives.ConfigFile
