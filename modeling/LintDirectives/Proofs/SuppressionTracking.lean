import LintDirectives.DirectiveAudit
import Mathlib.Data.List.Basic

/-!
# Tracking open codes

While the directives of a file are read, the audit keeps the codes that are open. The codes
after some directives determine what is said about the partners of the next one, and at the end
of the file about the codes without a partner. No other finding is about partners.
-/

namespace LintDirectives

namespace Directive

/-- The directives that open or close codes: an `enable`, and a `disable` that is not bare. -/
def Pairs (d : Directive) : Prop :=
  d.kind = .enable ∨ d.kind = .disable ∧ d.isBare = false

instance (d : Directive) : Decidable d.Pairs :=
  inferInstanceAs (Decidable (_ ∨ _))

end Directive

namespace FindingCode

/-- The findings about a missing partner. -/
def IsPairing (code : FindingCode) : Prop :=
  code = .unmatchedDisable ∨ code = .unmatchedEnable

instance (code : FindingCode) : Decidable code.IsPairing :=
  inferInstanceAs (Decidable (_ ∨ _))

end FindingCode

/-- The findings about a directive by itself are not about partners. -/
theorem Directive.not_isPairing_of_mem_ownFindings {d : Directive} {f : Finding}
    (hf : f ∈ d.ownFindings) : ¬ f.code.IsPairing := by
  have hglue (hf : f ∈ d.glueFindings) : ¬ f.code.IsPairing := by
    unfold glueFindings at hf
    split at hf
    · simp at hf
    · split at hf
      · rw [List.mem_singleton.mp hf]
        simp [finding, FindingCode.IsPairing]
      · rw [List.mem_singleton.mp hf]
        simp [finding, FindingCode.IsPairing]
    · rw [List.mem_singleton.mp hf]
      simp [finding, FindingCode.IsPairing]
  unfold ownFindings at hf
  split at hf
  · unfold legacyFindings at hf
    split at hf
    · next migration _ =>
      rw [List.mem_singleton.mp hf]
      cases migration.marker <;> simp [finding, FindingCode.IsPairing, LegacyMarker.finding]
    · simp at hf
  · split at hf
    · rw [List.mem_singleton.mp hf]
      simp [finding, FindingCode.IsPairing]
    · exact hglue hf
  · split at hf
    · rw [List.mem_singleton.mp hf]
      simp [finding, FindingCode.IsPairing]
    · exact hglue hf
  · split at hf
    · simp at hf
    · exact hglue hf
  · rw [List.mem_singleton.mp hf]
    simp [finding, FindingCode.IsPairing]

namespace OpenSuppressions

/-! ## One directive -/

variable {d : Directive} {o : OpenSuppressions}

/-- What one directive does to the open codes, and the findings about its partners. -/
theorem step_cases (o : OpenSuppressions) (d : Directive) :
    (d.kind = .disable ∧ d.isBare = false ∧
      step o d = (d.targets.foldl (fun o code => KeyedList.put code d o) o, [])) ∨
    (d.kind = .enable ∧ d.isBare = true ∧ step o d = ([], [])) ∨
    (d.kind = .enable ∧ d.isBare = false ∧ step o d = closeAll d d.targets o) ∨
    (¬ d.Pairs ∧ step o d = (o, [])) := by
  cases hkind : d.kind <;> cases hbare : d.isBare <;>
    simp [step, hkind, hbare, Directive.Pairs]

/-- Closing codes leaves the other ones as they are. -/
theorem closeAll_fst (d : Directive) (codes : List Text) (o : OpenSuppressions) :
    (closeAll d codes o).1 = o.filter fun pair => pair.1 ∉ codes := by
  induction codes generalizing o with
  | nil => simp [closeAll]
  | cons code rest ih =>
    have herase := KeyedList.filter_erase (k := code) (p := (· ∉ rest)) (q := (· ∉ code :: rest))
      (fun _ => by simp [Bool.and_comm]) o
    rw [closeAll]
    split
    · exact (ih _).trans herase
    · next hnone =>
      rw [KeyedList.erase_eq_self hnone] at herase
      exact (ih o).trans herase

theorem keys_closeAll_fst (d : Directive) (codes : List Text) (o : OpenSuppressions) :
    KeyedList.keys (closeAll d codes o).1 = (KeyedList.keys o).filter (· ∉ codes) := by
  rw [closeAll_fst, ← KeyedList.keys_filter]

theorem code_of_mem_closeAll {codes : List Text} {f : Finding}
    (hf : f ∈ (closeAll d codes o).2) : f.code = .unmatchedEnable := by
  induction codes generalizing o with
  | nil => simp [closeAll] at hf
  | cons code rest ih =>
    rw [closeAll] at hf
    split at hf
    · exact ih hf
    · rcases List.mem_cons.mp hf with rfl | hf
      · rfl
      · exact ih hf

theorem code_of_mem_step {f : Finding} (hf : f ∈ (step o d).2) : f.code = .unmatchedEnable := by
  rcases step_cases o d with ⟨-, -, hstep⟩ | ⟨-, -, hstep⟩ | ⟨-, -, hstep⟩ | ⟨-, hstep⟩
  · simp [hstep] at hf
  · simp [hstep] at hf
  · rw [hstep] at hf
    exact code_of_mem_closeAll hf
  · simp [hstep] at hf

theorem code_of_mem_unclosed {f : Finding} (hf : f ∈ o.unclosed) :
    f.code = .unmatchedDisable := by
  obtain ⟨pair, -, rfl⟩ := List.mem_map.mp hf
  rfl

/-! ## Directives one after the other -/

/-- The codes that are open after further directives. -/
def afterAll (o : OpenSuppressions) (ds : List Directive) : OpenSuppressions :=
  ds.foldl (fun o d => (step o d).1) o

@[simp] theorem afterAll_nil (o : OpenSuppressions) : afterAll o [] = o := rfl

@[simp] theorem afterAll_cons (o : OpenSuppressions) (d : Directive) (ds : List Directive) :
    afterAll o (d :: ds) = afterAll (step o d).1 ds := rfl

theorem afterAll_append_singleton (o : OpenSuppressions) (ds : List Directive) (d : Directive) :
    afterAll o (ds ++ [d]) = (step (afterAll o ds) d).1 := by
  simp [afterAll]

end OpenSuppressions

namespace DirectiveAudit

open OpenSuppressions

/-- The round of a directive consists of the findings about it and about its partners. -/
theorem getElem?_rounds (o : OpenSuppressions) (past : List Directive) (d : Directive)
    (rest : List Directive) :
    (rounds o (past ++ d :: rest))[past.length]? =
      some (d.ownFindings ++ (step (afterAll o past) d).2) := by
  induction past generalizing o with
  | nil => rfl
  | cons first past ih => simpa [rounds] using ih (step o first).1

/-- The last round is about the codes that are still open. -/
theorem getLast?_rounds (o : OpenSuppressions) (ds : List Directive) :
    (rounds o ds).getLast? = some (afterAll o ds).unclosed := by
  induction ds generalizing o with
  | nil => rfl
  | cons d ds ih => simp [rounds, List.getLast?_cons, ih]

/-- Codes without an `enable` are reported in the last round only. -/
theorem filter_unmatchedDisable (o : OpenSuppressions) (ds : List Directive) :
    (rounds o ds).flatten.filter (·.code = .unmatchedDisable) = (afterAll o ds).unclosed := by
  induction ds generalizing o with
  | nil =>
    simpa [rounds] using fun f hf => code_of_mem_unclosed hf
  | cons d ds ih =>
    have hown : d.ownFindings.filter (·.code = .unmatchedDisable) = [] := by
      refine List.filter_eq_nil_iff.mpr fun f hf => ?_
      simpa using fun h => Directive.not_isPairing_of_mem_ownFindings hf (.inl h)
    have hstep : (step o d).2.filter (·.code = .unmatchedDisable) = [] := by
      refine List.filter_eq_nil_iff.mpr fun f hf => ?_
      simp [code_of_mem_step hf]
    simp only [rounds, List.flatten_cons, List.filter_append, hown, hstep, List.nil_append]
    exact ih (step o d).1

/-- Directives that neither open nor close codes play no role for findings about partners. -/
theorem filter_isPairing (o : OpenSuppressions) (ds : List Directive) :
    (rounds o (ds.filter (·.Pairs))).flatten.filter (·.code.IsPairing) =
      (rounds o ds).flatten.filter (·.code.IsPairing) := by
  induction ds generalizing o with
  | nil => rfl
  | cons d ds ih =>
    have hown : d.ownFindings.filter (·.code.IsPairing) = [] := by
      refine List.filter_eq_nil_iff.mpr fun f hf => ?_
      simpa using Directive.not_isPairing_of_mem_ownFindings hf
    by_cases hd : d.Pairs
    · rw [List.filter_cons_of_pos (by simpa using hd)]
      simp only [rounds, List.flatten_cons, List.filter_append, ih]
    · obtain hstep : step o d = (o, []) := by
        rcases step_cases o d with ⟨hk, hb, -⟩ | ⟨hk, -⟩ | ⟨hk, -⟩ | ⟨-, hstep⟩
        · exact absurd (.inr ⟨hk, hb⟩) hd
        · exact absurd (.inl hk) hd
        · exact absurd (.inl hk) hd
        · exact hstep
      rw [List.filter_cons_of_neg (by simpa using hd)]
      simp only [rounds, List.flatten_cons, List.filter_append, hown, hstep, List.nil_append,
        List.append_nil, ih]

end DirectiveAudit

end LintDirectives
