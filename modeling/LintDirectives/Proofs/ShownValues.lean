import LintDirectives.ConfigValue
import Mathlib.Data.Int.Notation
import Mathlib.Data.List.Basic

/-!
# Values that a message can show

A value can be shown if it is not nested too deeply and no number in it is too long. How deep it is
and which numbers stand in it can be told without going through the values as showing them does.
-/

namespace LintDirectives

namespace ConfigValue

mutual

/-- How many levels of values stand inside a value. The elements of a set count one level more than
those of a list, through which they are shown. -/
def depth : ConfigValue → ℕ
  | list items => itemsDepth items
  | pair first second => max first.depth second.depth + 1
  | set elements => if elements.isEmpty then 0 else itemsDepth elements + 1
  | map entries => entriesDepth entries
  | _ => 0

def itemsDepth : List ConfigValue → ℕ
  | [] => 0
  | v :: rest => max (v.depth + 1) (itemsDepth rest)

def entriesDepth : List (ConfigValue × ConfigValue) → ℕ
  | [] => 0
  | (k, v) :: rest => max (max k.depth v.depth + 1) (entriesDepth rest)

end

mutual

def integers : ConfigValue → List ℤ
  | int n => [n]
  | list items => itemsIntegers items
  | pair first second => first.integers ++ second.integers
  | set elements => itemsIntegers elements
  | map entries => entriesIntegers entries
  | _ => []

def itemsIntegers : List ConfigValue → List ℤ
  | [] => []
  | v :: rest => v.integers ++ itemsIntegers rest

def entriesIntegers : List (ConfigValue × ConfigValue) → List ℤ
  | [] => []
  | (k, v) :: rest => k.integers ++ v.integers ++ entriesIntegers rest

end

/-- A value that a message can show when it can show so many levels of values inside a value. -/
structure ShownWithin (levels : ℕ) (v : ConfigValue) : Prop where
  depth : v.depth ≤ levels
  short : ∀ n ∈ v.integers, (Text.ofNat n.natAbs).length ≤ 4300

theorem isShortNumber_iff (n : ℤ) :
    isShortNumber n = true ↔ (Text.ofNat n.natAbs).length ≤ 4300 := by
  have hdigits : (Nat.toDigits 10 n.natAbs).length ≤ ReadingError.maxDigits ↔ _ :=
    Nat.length_toDigits_le_iff (by decide) (by decide)
  rw [isShortNumber, decide_eq_true_iff, Nat.pow_eq, ← hdigits]
  rfl

mutual

theorem obstacle?_none_iff : ∀ (v : ConfigValue) (levels : ℕ),
    v.obstacle? levels = none ↔ v.depth ≤ levels ∧ ∀ n ∈ v.integers, isShortNumber n
  | int n, levels => by simp [obstacle?, depth, integers]
  | list items, levels => by
    rw [obstacle?, depth, integers, itemsObstacle?_none_iff items levels]
  | pair first second, 0 => by simp [obstacle?, depth]
  | pair first second, inner + 1 => by
    rw [obstacle?, depth, integers, Option.or_eq_none_iff, obstacle?_none_iff first inner,
      obstacle?_none_iff second inner, Nat.add_le_add_iff_right, Nat.max_le, List.forall_mem_append]
    exact and_and_and_comm
  | set elements, 0 => by cases elements <;> simp [obstacle?, depth, integers, itemsIntegers]
  | set elements, inner + 1 => by
    rw [obstacle?, depth, integers, itemsObstacle?_none_iff elements inner]
    cases elements <;> simp [itemsDepth]
  | map entries, levels => by
    rw [obstacle?, depth, integers, entriesObstacle?_none_iff entries levels]
  | null, _ => by simp [obstacle?, depth, integers]
  | bool _, _ => by simp [obstacle?, depth, integers]
  | float _, _ => by simp [obstacle?, depth, integers]
  | text _, _ => by simp [obstacle?, depth, integers]
  | date _, _ => by simp [obstacle?, depth, integers]
  | moment _, _ => by simp [obstacle?, depth, integers]
  | bytes _, _ => by simp [obstacle?, depth, integers]
  | ring _ _, _ => by simp [obstacle?, depth, integers]

theorem itemsObstacle?_none_iff : ∀ (items : List ConfigValue) (levels : ℕ),
    itemsObstacle? levels items = none ↔
      itemsDepth items ≤ levels ∧ ∀ n ∈ itemsIntegers items, isShortNumber n
  | [], _ => by simp [itemsObstacle?, itemsDepth, itemsIntegers]
  | v :: rest, 0 => by simp [itemsObstacle?, itemsDepth]
  | v :: rest, inner + 1 => by
    rw [itemsObstacle?, itemsDepth, itemsIntegers, Option.or_eq_none_iff, obstacle?_none_iff v inner,
      itemsObstacle?_none_iff rest (inner + 1), Nat.max_le, Nat.add_le_add_iff_right,
      List.forall_mem_append]
    exact and_and_and_comm

theorem entriesObstacle?_none_iff : ∀ (entries : List (ConfigValue × ConfigValue)) (levels : ℕ),
    entriesObstacle? levels entries = none ↔
      entriesDepth entries ≤ levels ∧ ∀ n ∈ entriesIntegers entries, isShortNumber n
  | [], _ => by simp [entriesObstacle?, entriesDepth, entriesIntegers]
  | (k, v) :: rest, 0 => by simp [entriesObstacle?, entriesDepth]
  | (k, v) :: rest, inner + 1 => by
    rw [entriesObstacle?, entriesDepth, entriesIntegers, Option.or_eq_none_iff, Option.or_eq_none_iff,
      obstacle?_none_iff k inner, obstacle?_none_iff v inner,
      entriesObstacle?_none_iff rest (inner + 1), Nat.max_le, Nat.add_le_add_iff_right, Nat.max_le,
      List.forall_mem_append, List.forall_mem_append]
    exact (and_congr and_and_and_comm Iff.rfl).trans and_and_and_comm

end

theorem obstacle?_eq_none_iff {v : ConfigValue} {levels : ℕ} :
    v.obstacle? levels = none ↔ v.ShownWithin levels := by
  rw [obstacle?_none_iff]
  simp only [isShortNumber_iff]
  exact ⟨fun ⟨hdepth, hshort⟩ => ⟨hdepth, hshort⟩, fun h => ⟨h.depth, h.short⟩⟩

end ConfigValue

end LintDirectives
