import LintDirectives.Proofs.DirectiveDiagnostics
import LintDirectives.Proofs.SuppressedLines

/-!
# Bare directives and the pattern for all rules

An `ignore` or `disable` is reported as bare when it has no codes or only one wildcard, while it
suppresses all rules when no code but wildcards is left. The two agree except for codes that
repeat the wildcard: these suppress all rules, and nothing is reported.
-/

namespace LintDirectives

/-! ## What is reported about a directive by itself -/

def DirectiveKind.bareFinding? : DirectiveKind → Option FindingCode
  | .ignore => some .bareIgnore
  | .disable => some .bareDisable
  | _ => none

namespace Directive

theorem code_of_mem_glueFindings {d : Directive} {f : Finding} (hf : f ∈ d.glueFindings) :
    f.code = .malformedNoteSeparator ∨ f.code = .missingNoteSeparator := by
  unfold glueFindings at hf
  split at hf
  · simp at hf
  · split at hf
    · exact .inl (List.mem_singleton.mp hf ▸ rfl)
    · exact .inr (List.mem_singleton.mp hf ▸ rfl)
  · exact .inr (List.mem_singleton.mp hf ▸ rfl)

theorem bareFinding?_ne_of_mem_glueFindings {d : Directive} {f : Finding}
    (hf : f ∈ d.glueFindings) (k : DirectiveKind) : k.bareFinding? ≠ some f.code := by
  rcases code_of_mem_glueFindings hf with hcode | hcode <;>
    cases k <;> simp [DirectiveKind.bareFinding?, hcode]

/-- An `ignore` or `disable` has the finding for its kind among its own just when it is bare. -/
theorem exists_bareFinding_iff {d : Directive} (hkind : d.kind = .ignore ∨ d.kind = .disable) :
    (∃ f ∈ d.ownFindings, d.kind.bareFinding? = some f.code) ↔ d.isBare = true := by
  cases hbare : d.isBare with
  | true =>
    rcases hkind with hkind | hkind <;>
      simp [ownFindings, hkind, hbare, DirectiveKind.bareFinding?, finding]
  | false =>
    have hown : d.ownFindings = d.glueFindings := by
      rcases hkind with hkind | hkind <;> simp [ownFindings, hkind, hbare]
    rw [hown]
    refine iff_of_false ?_ Bool.false_ne_true
    rintro ⟨f, hf, hcode⟩
    exact bareFinding?_ne_of_mem_glueFindings hf d.kind hcode

end Directive

namespace DirectiveAudit

open OpenSuppressions

/-- Findings that are not about partners are those about single directives. -/
theorem mem_findings_of_not_isPairing {ds : List Directive} {f : Finding}
    (hf : ¬ f.code.IsPairing) : f ∈ findings ds ↔ ∃ d ∈ ds, f ∈ d.ownFindings := by
  have hrounds (o : OpenSuppressions) :
      f ∈ (rounds o ds).flatten ↔ ∃ d ∈ ds, f ∈ d.ownFindings := by
    induction ds generalizing o with
    | nil =>
      have hend : f ∉ o.unclosed := fun h => hf (.inl (code_of_mem_unclosed h))
      simp [rounds, hend]
    | cons d rest ih =>
      have hstep : f ∉ (step o d).2 := fun h => hf (.inr (code_of_mem_step h))
      simp [rounds, hstep, ih]
  exact hrounds []

/-- The audit says of a directive that it names no rule. -/
def ReportsBare (ds : List Directive) (d : Directive) : Prop :=
  ∃ f ∈ findings ds, f.about = d ∧ d.kind.bareFinding? = some f.code

theorem reportsBare_iff {ds : List Directive} {d : Directive} (hd : d ∈ ds)
    (hkind : d.kind = .ignore ∨ d.kind = .disable) : ReportsBare ds d ↔ d.isBare = true := by
  have hpairing {f : Finding} (hcode : d.kind.bareFinding? = some f.code) :
      ¬ f.code.IsPairing := by
    rcases hkind with hkind | hkind <;> rw [hkind] at hcode <;>
      simp [← Option.some.inj hcode, FindingCode.IsPairing]
  rw [← Directive.exists_bareFinding_iff hkind]
  constructor
  · rintro ⟨f, hf, habout, hcode⟩
    obtain ⟨d', -, hown⟩ := (mem_findings_of_not_isPairing (hpairing hcode)).mp hf
    rw [← Directive.about_of_mem_ownFindings hown, habout] at hown
    exact ⟨f, hown, hcode⟩
  · rintro ⟨f, hown, hcode⟩
    exact ⟨f, (mem_findings_of_not_isPairing (hpairing hcode)).mpr ⟨d, hd, hown⟩,
      Directive.about_of_mem_ownFindings hown, hcode⟩

end DirectiveAudit

/-! ## What a directive suppresses by itself -/

namespace SuppressionRegions

/-- The patterns that one directive marks or opens a region for, apart from the mark that every
directive leaves on its own line. -/
def patternsTaken (d : Directive) : List Text :=
  ((step {} d).marks.erase (d.line, wildcard)).map Prod.snd ++ KeyedList.keys (step {} d).opened

/-- An `ignore` marks its patterns, and a `disable` opens a region for each of them. -/
theorem mem_patternsTaken {d : Directive} (hkind : d.kind = .ignore ∨ d.kind = .disable)
    {p : Text} : p ∈ patternsTaken d ↔ p ∈ d.patterns := by
  rcases hkind with hkind | hkind
  · have hmarks : (step {} d).marks =
        (d.line, wildcard) :: d.patterns.map fun q => (d.ignoredLine, q) := by
      simp [step, hkind, Directive.ignoredLine]
    have hopened : (step {} d).opened = [] :=
      opened_step_of_other (by simp [hkind]) (by simp [hkind])
    rw [patternsTaken, hmarks, hopened, List.erase_cons_head, List.map_map]
    simp [KeyedList.keys]
  · have hmarks : (step {} d).marks = [(d.line, wildcard)] := by simp [step, hkind]
    have hkey : p ∈ KeyedList.keys (step {} d).opened ↔ d.OpensRegion p := by
      have hcloses : ¬ d.ClosesRegion p := fun h => by simpa [hkind] using h.1
      rw [← KeyedList.get?_isSome_iff, get?_opened_step, if_neg hcloses]
      split <;> simp_all [KeyedList.get?]
    rw [patternsTaken, hmarks, List.mem_append, hkey]
    simp [Directive.OpensRegion, hkind]

end SuppressionRegions

namespace Directive

theorem wildcard_mem_patterns_iff {d : Directive} :
    wildcard ∈ d.patterns ↔ ∀ c ∈ d.codes, c = wildcard := by
  have hnil : d.targets = [] ↔ ∀ c ∈ d.codes, c = wildcard := by
    simp [targets, List.filter_eq_nil_iff]
  rw [← hnil]
  constructor
  · intro hmem
    by_contra hne
    rw [patterns_of_targets_ne_nil hne] at hmem
    exact targets_ne_wildcard hmem rfl
  · intro hall
    rw [patterns_of_targets_eq_nil hall]
    exact List.mem_singleton_self wildcard

theorem bareCodes_iff {codes : List Text} :
    bareCodes codes = true ↔ (∀ c ∈ codes, c = wildcard) ∧ codes.length < 2 := by
  match codes with
  | [] => simp [bareCodes]
  | [c] => simp [bareCodes]
  | _ :: _ :: _ => simp [bareCodes]

end Directive

/-! ## Bareness on both sides -/

/-- The comment has the kind, the codes and the note that a body reads as. -/
def DirectiveComment.Carries (a : DirectiveComment) (body : Text) : Prop :=
  ∃ w, DirectiveGrammar.read? body = some w ∧ a.kind = w.kind ∧ a.codes = some w.codes ∧
    a.note = w.note

open DirectiveAudit SuppressionRegions in
/-- For every body that reads as an `ignore` or `disable`, wherever its comment stands among the
directives of a file: if it is reported as bare it takes the pattern for all rules, and it takes
that pattern without such a report just when its codes repeat the wildcard and hold nothing else. -/
theorem bare_report_iff_wildcard_taken {a : DirectiveComment} {body : Text} (ha : a.Carries body)
    (hkind : a.kind = .ignore ∨ a.kind = .disable) {ds : List Directive}
    (hmem : Directive.classify a ∈ ds) :
    (ReportsBare ds (Directive.classify a) → wildcard ∈ patternsTaken (Directive.classify a)) ∧
    ((wildcard ∈ patternsTaken (Directive.classify a) ↔ ReportsBare ds (Directive.classify a)) ↔
      ¬ (2 ≤ (Directive.classify a).codes.length ∧
        ∀ c ∈ (Directive.classify a).codes, c = wildcard)) := by
  obtain ⟨w, -, -, hcodes, -⟩ := ha
  have hlegacy : a.kind ≠ .legacy := by
    rcases hkind with h | h <;> simp [h]
  have hclassified : (Directive.classify a).kind = .ignore ∨
      (Directive.classify a).kind = .disable := by
    rwa [Directive.kind, Directive.classify_comment]
  have hreported : ReportsBare ds (Directive.classify a) ↔
      (∀ c ∈ (Directive.classify a).codes, c = wildcard) ∧
        (Directive.classify a).codes.length < 2 := by
    rw [reportsBare_iff hmem hclassified, Directive.isBare_classify_of_codes hlegacy hcodes,
      Directive.classify_of_codes hlegacy hcodes, Directive.bareCodes_iff]
  have htaken : wildcard ∈ patternsTaken (Directive.classify a) ↔
      ∀ c ∈ (Directive.classify a).codes, c = wildcard := by
    rw [mem_patternsTaken hclassified, Directive.wildcard_mem_patterns_iff]
  rw [hreported, htaken, ← Nat.not_lt]
  refine ⟨And.left, ?_, ?_⟩
  · rintro hsame ⟨hlong, hall⟩
    exact hlong (hsame.mp hall).2
  · intro hrepeat
    refine ⟨fun hall => ⟨hall, ?_⟩, And.left⟩
    by_contra hlong
    exact hrepeat ⟨hlong, hall⟩

private def wildcardDisable : DirectiveComment where
  kind := .disable
  line := 2
  column := 1
  index := 1
  raw := "# lint:disable *, -- all"
  codes := some [wildcard]
  note := some "all"

/-- One wildcard, with an empty piece and a note behind it, is bare on both sides. -/
theorem single_wildcard_reported :
    wildcardDisable.Carries "lint:disable *, -- all" ∧
    (wildcard ∈ SuppressionRegions.patternsTaken (Directive.classify wildcardDisable) ↔
      DirectiveAudit.ReportsBare
        [Directive.classify { wildcardDisable with kind := .enable, line := 1, index := 0 },
          Directive.classify wildcardDisable] (Directive.classify wildcardDisable)) := by
  have hcarries : wildcardDisable.Carries "lint:disable *, -- all" :=
    ⟨⟨.disable, [wildcard], some "all"⟩, by decide +kernel, rfl, rfl, rfl⟩
  exact ⟨hcarries, (bare_report_iff_wildcard_taken hcarries (.inr rfl) (by simp)).2.mpr
    (by decide)⟩

private def repeatedWildcard : DirectiveComment where
  kind := .disable
  line := 1
  column := 1
  index := 0
  raw := "# lint:disable *, *"
  codes := some [wildcard, wildcard]

/-- A `disable` that names the wildcard twice suppresses all rules on the lines below it, and
nothing at all is reported about it. -/
theorem repeated_wildcard_unreported :
    repeatedWildcard.Carries "lint:disable *, *" ∧
    PlacedComment.recognize? false 0 ⟨"# lint:disable *, *", 0, 1, 1, false⟩ =
      some repeatedWildcard ∧
    wildcard ∈ SuppressionRegions.patternsTaken (Directive.classify repeatedWildcard) ∧
    LineSuppressions.ofDirectives [Directive.classify repeatedWildcard] 3 =
      [(1, [wildcard]), (2, [wildcard]), (3, [wildcard])] ∧
    DirectiveAudit.findings [Directive.classify repeatedWildcard] = [] ∧
    ¬ DirectiveAudit.ReportsBare [Directive.classify repeatedWildcard]
      (Directive.classify repeatedWildcard) := by
  have hcarries : repeatedWildcard.Carries "lint:disable *, *" :=
    ⟨⟨.disable, [wildcard, wildcard], none⟩, by decide +kernel, rfl, rfl, rfl⟩
  have hnone : DirectiveAudit.findings [Directive.classify repeatedWildcard] = [] := by
    decide +kernel
  refine ⟨hcarries, by decide +kernel, by decide +kernel, by decide +kernel, hnone, ?_⟩
  rintro ⟨f, hf, -⟩
  simp [hnone] at hf

end LintDirectives
