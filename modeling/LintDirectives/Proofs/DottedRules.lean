import LintDirectives.RulePattern
import LintDirectives.Proofs.TextSearch

/-!
# Dotted rules and their components

The dots of a rule cut it into components. A pattern without a star covers exactly the rules whose
components begin with its own, so it covers a rule or a whole namespace of rules and never a part of
a component. Question marks and brackets stand for themselves in such a pattern.
-/

namespace LintDirectives

open Text

namespace Text

theorem join_append {mark : Text} {first rest : List Text} (hfirst : first ≠ [])
    (hrest : rest ≠ []) : join mark (first ++ rest) = join mark first ++ mark ++ join mark rest := by
  obtain ⟨next, later, rfl⟩ := List.exists_cons_of_ne_nil hrest
  induction first with
  | nil => exact absurd rfl hfirst
  | cons part first ih =>
    cases first with
    | nil => simp [join_cons_cons]
    | cons other first =>
      rw [List.cons_append, List.cons_append, join_cons_cons, join_cons_cons, ← List.cons_append,
        ih (List.cons_ne_nil other first)]
      simp only [List.append_assoc]

end Text

/-! ## Components -/

/-- The components of a dotted name. They may be empty, as those on both sides of a single dot. -/
def components (name : Text) : List Text := name.splitOn '.'

theorem components_ne_nil (name : Text) : components name ≠ [] := List.splitOn_ne_nil '.' name

theorem components_append_dot (a b : Text) :
    components (a ++ '.' :: b) = components a ++ components b :=
  List.splitOn_append_cons_self a b

theorem join_components (name : Text) : join ['.'] (components name) = name :=
  List.intercalate_splitOn '.'

/-- The components of one name begin with those of another one just when the names are the same or the
other one is followed by a dot. -/
theorem components_isPrefix_iff {a b : Text} :
    components a <+: components b ↔ b = a ∨ a ++ ['.'] <+: b := by
  constructor
  · rintro ⟨rest, hrest⟩
    by_cases hnil : rest = []
    · left
      rw [hnil, List.append_nil] at hrest
      rw [← join_components b, ← hrest, join_components]
    · right
      refine ⟨join ['.'] rest, ?_⟩
      rw [← join_components b, ← hrest, join_append (components_ne_nil a) hnil, join_components]
  · rintro (rfl | ⟨rest, rfl⟩)
    · exact List.prefix_rfl
    · rw [List.append_assoc, List.singleton_append, components_append_dot]
      exact List.prefix_append _ _

/-! ## Patterns without a star -/

variable {rule pattern : Text}

theorem ruleMatches_iff_of_not_mem (hstar : '*' ∉ pattern) :
    ruleMatches rule pattern ↔ rule = pattern ∨ pattern ++ ['.'] <+: rule := by
  have hwild : pattern ≠ wildcard := by
    rintro rfl
    exact hstar (by decide)
  simp [ruleMatches, hwild, hstar]

theorem ruleMatches_iff_components (hstar : '*' ∉ pattern) :
    ruleMatches rule pattern ↔ components pattern <+: components rule := by
  rw [ruleMatches_iff_of_not_mem hstar, components_isPrefix_iff]

/-- A rule that goes on inside the last component of a pattern is another one. -/
theorem not_ruleMatches_append (hstar : '*' ∉ pattern) {c : Char} (hc : c ≠ '.') (rest : Text) :
    ¬ ruleMatches (pattern ++ c :: rest) pattern := by
  rw [ruleMatches_iff_of_not_mem hstar]
  rintro (heq | hdot)
  · simp at heq
  · rw [List.prefix_append_right_inj, List.cons_prefix_cons] at hdot
    exact hc hdot.1.symm

/-- A pattern without a star covers the rules whose components begin with its own. So it covers
itself and whatever is covered by a pattern that it covers, and no rule that goes on inside one of its
components. -/
theorem pattern_covers_whole_components (hstar : '*' ∉ pattern) :
    (∀ rule, ruleMatches rule pattern ↔ components pattern <+: components rule) ∧
    ruleMatches pattern pattern ∧
    (∀ rule between, '*' ∉ between → ruleMatches rule between → ruleMatches between pattern →
      ruleMatches rule pattern) ∧
    ∀ c rest, c ≠ '.' → ¬ ruleMatches (pattern ++ c :: rest) pattern := by
  refine ⟨fun rule => ruleMatches_iff_components hstar, ?_, ?_, ?_⟩
  · exact (ruleMatches_iff_components hstar).mpr List.prefix_rfl
  · intro rule between hbetween hrule hpattern
    rw [ruleMatches_iff_components hstar] at hpattern ⊢
    exact hpattern.trans ((ruleMatches_iff_components hbetween).mp hrule)
  · intro c rest hc
    exact not_ruleMatches_append hstar hc rest

/-- A bracket and a question mark in a component, and a component that is empty. -/
theorem bracket_covers_itself :
    '*' ∉ ("Team.[x?" : Text) ∧ '*' ∉ ("Team.[x?." : Text) ∧
    ruleMatches "Team.[x?..z" "Team.[x?." ∧ ruleMatches "Team.[x?." "Team.[x?" ∧
    ruleMatches "Team.[x?..z" "Team.[x?" ∧ ¬ ruleMatches "Team.[x?]" "Team.[x?" := by
  have hstar : '*' ∉ ("Team.[x?" : Text) := by decide
  have hbetween : '*' ∉ ("Team.[x?." : Text) := by decide
  have hrule : ruleMatches "Team.[x?..z" "Team.[x?." := by decide +kernel
  have hpattern : ruleMatches "Team.[x?." "Team.[x?" := by decide +kernel
  obtain ⟨-, -, htrans, hpartial⟩ := pattern_covers_whole_components hstar
  exact ⟨hstar, hbetween, hrule, hpattern, htrans _ _ hbetween hrule hpattern,
    hpartial ']' [] (by decide)⟩

end LintDirectives
