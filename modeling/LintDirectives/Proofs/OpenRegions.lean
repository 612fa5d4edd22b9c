import LintDirectives.Proofs.SuppressionTracking
import LintDirectives.SuppressionRegions

/-!
# Open codes and open regions

The audit of directives and the suppressions of lines keep track of disabled codes separately.
Apart from the pattern for all rules, which only the suppressions know, the same codes are open
in both, in the same order, after any directives. So a code without an `enable` is reported just
when its region reaches to the last line.
-/

namespace LintDirectives

/-! ## Classified directives -/

namespace Directive

theorem targets_ne_wildcard {d : Directive} {c : Text} (hc : c ∈ d.targets) : c ≠ wildcard := by
  simpa using (List.mem_filter.mp hc).2

theorem bareCodes_of_isBare {a : DirectiveComment} (h : (classify a).isBare = true) :
    bareCodes (classify a).codes = true := by
  generalize hraw : RawCodes.ofComment a.raw = rawCodes
  revert h
  simp only [classify, hraw]
  split
  · exact fun h => absurd h Bool.false_ne_true
  · exact id
  · exact id

/-- A bare directive names no code. -/
theorem targets_of_isBare {a : DirectiveComment} (h : (classify a).isBare = true) :
    (classify a).targets = [] := by
  have hbare := bareCodes_of_isBare h
  rw [bareCodes, Bool.or_eq_true, beq_iff_eq, beq_iff_eq] at hbare
  rcases hbare with hnil | hall
  · rw [targets, hnil, List.filter_nil]
  · rw [targets, hall]
    rfl

theorem patterns_of_targets_eq_nil {d : Directive} (h : d.targets = []) :
    d.patterns = [wildcard] := by
  simp [patterns, h]

theorem patterns_of_targets_ne_nil {d : Directive} (h : d.targets ≠ []) :
    d.patterns = d.targets := by
  simp [patterns, h]

end Directive

/-! ## Regions after one directive -/

namespace SuppressionRegions

theorem opened_close (line : Int) (s : SuppressionRegions) (pattern : Text) :
    (close line s pattern).opened = KeyedList.erase pattern s.opened := by
  unfold close
  split
  · rfl
  · next h => exact (KeyedList.erase_eq_self h).symm

theorem opened_foldl_close (line : Int) (closing : List Text) (s : SuppressionRegions) :
    (closing.foldl (close line) s).opened = s.opened.filter fun pair => pair.1 ∉ closing := by
  induction closing generalizing s with
  | nil => simp
  | cons pattern closing ih =>
    rw [List.foldl_cons, ih, opened_close]
    exact KeyedList.filter_erase (p := (· ∉ closing)) (q := (· ∉ pattern :: closing))
      (fun _ => by simp [Bool.and_comm]) s.opened

variable {s : SuppressionRegions} {d : Directive}

theorem opened_step_disable (h : d.kind = .disable) : (step s d).opened =
    d.patterns.foldl (fun o p => KeyedList.update p (·.getD d.line) o) s.opened := by
  simp only [step, h]
  rfl

theorem opened_step_enable (h : d.kind = .enable) : (step s d).opened = s.opened.filter fun pair =>
    pair.1 ∉ if d.isBare then KeyedList.keys s.opened else d.patterns := by
  simp only [step, h]
  exact opened_foldl_close _ _ _

theorem opened_step_of_other (hdisable : d.kind ≠ .disable) (henable : d.kind ≠ .enable) :
    (step s d).opened = s.opened := by
  cases hkind : d.kind <;> simp_all [step]

end SuppressionRegions

/-! ## The same codes are open -/

/-- The open codes are the patterns of the open regions, less the pattern for all rules. -/
def SameOpen (o : OpenSuppressions) (s : SuppressionRegions) : Prop :=
  KeyedList.keys o = (KeyedList.keys s.opened).filter (· ≠ wildcard)

private theorem filter_foldl_addKey {codes : List Text} (hcodes : ∀ c ∈ codes, c ≠ wildcard)
    (ks : List Text) : (codes.foldl KeyedList.addKey ks).filter (· ≠ wildcard) =
      codes.foldl KeyedList.addKey (ks.filter (· ≠ wildcard)) := by
  induction codes generalizing ks with
  | nil => rfl
  | cons c codes ih =>
    rw [List.foldl_cons, List.foldl_cons, ih fun c' hc' => hcodes c' (List.mem_cons_of_mem c hc'),
      KeyedList.filter_addKey (p := fun c => decide (c ≠ wildcard))
        (decide_eq_true (hcodes c List.mem_cons_self))]

variable {o : OpenSuppressions} {s : SuppressionRegions}

/-- A region for all rules does not count. -/
private theorem sameOpen_wildcard (h : SameOpen o s) {d : Directive} (hkind : d.kind = .disable)
    (htargets : d.targets = []) : SameOpen o (SuppressionRegions.step s d) := by
  rw [SameOpen, SuppressionRegions.opened_step_disable hkind,
    Directive.patterns_of_targets_eq_nil htargets, KeyedList.keys_foldl_update, h]
  simp only [List.foldl_cons, List.foldl_nil, KeyedList.addKey]
  split <;> simp

theorem SameOpen.step (h : SameOpen o s) (a : DirectiveComment) :
    SameOpen (OpenSuppressions.step o (Directive.classify a)).1
      (SuppressionRegions.step s (Directive.classify a)) := by
  have htargets := Directive.targets_of_isBare (a := a)
  generalize Directive.classify a = d at htargets
  rcases OpenSuppressions.step_cases o d with
    ⟨hkind, -, hstep⟩ | ⟨hkind, hbare, hstep⟩ | ⟨hkind, hbare, hstep⟩ | ⟨hpairs, hstep⟩
  · rw [hstep]
    by_cases hnil : d.targets = []
    · rw [hnil]
      exact sameOpen_wildcard h hkind hnil
    · have hput : KeyedList.keys (d.targets.foldl (fun o code => KeyedList.put code d o) o) = _ :=
        KeyedList.keys_foldl_update (fun _ => d) d.targets o
      rw [SameOpen, hput, SuppressionRegions.opened_step_disable hkind,
        Directive.patterns_of_targets_ne_nil hnil, KeyedList.keys_foldl_update, h,
        filter_foldl_addKey fun c hc => Directive.targets_ne_wildcard hc]
  · have hall : (SuppressionRegions.step s d).opened = [] := by
      rw [SuppressionRegions.opened_step_enable hkind, hbare, if_pos rfl]
      refine List.filter_eq_nil_iff.mpr fun pair hpair => ?_
      have hkey : pair.1 ∈ KeyedList.keys s.opened := List.mem_map_of_mem hpair
      simp [hkey]
    rw [hstep, SameOpen, hall]
    rfl
  · have hopened : KeyedList.keys (SuppressionRegions.step s d).opened =
        (KeyedList.keys s.opened).filter (· ∉ d.patterns) := by
      rw [SuppressionRegions.opened_step_enable hkind, hbare, if_neg Bool.false_ne_true]
      exact KeyedList.keys_filter (· ∉ d.patterns) s.opened
    rw [hstep, SameOpen, OpenSuppressions.keys_closeAll_fst, hopened, h, List.filter_filter,
      List.filter_filter]
    refine List.filter_congr fun c _ => ?_
    by_cases hnil : d.targets = []
    · simp [hnil, Directive.patterns_of_targets_eq_nil hnil]
    · rw [Directive.patterns_of_targets_ne_nil hnil, Bool.and_comm]
  · rw [hstep]
    by_cases hkind : d.kind = .disable
    · have hbare : d.isBare = true := by
        cases hb : d.isBare with
        | true => rfl
        | false => exact absurd (.inr ⟨hkind, hb⟩) hpairs
      exact sameOpen_wildcard h hkind (htargets hbare)
    · rw [SameOpen, SuppressionRegions.opened_step_of_other hkind fun henable =>
        hpairs (.inl henable)]
      exact h

/-- After any directives the same codes are open. -/
theorem SameOpen.afterAll (h : SameOpen o s) (comments : List DirectiveComment) :
    SameOpen (o.afterAll (comments.map Directive.classify))
      ((comments.map Directive.classify).foldl SuppressionRegions.step s) := by
  induction comments generalizing o s with
  | nil => exact h
  | cons a comments ih => exact ih (h.step a)

theorem sameOpen_ofDirectives (comments : List DirectiveComment) :
    SameOpen (OpenSuppressions.afterAll [] (comments.map Directive.classify))
      (SuppressionRegions.ofDirectives (comments.map Directive.classify)) := by
  have hstart : SameOpen [] {} := rfl
  exact hstart.afterAll comments

/-! ## The lines of open regions -/

theorem mem_lineRange {first stop line : Int} :
    line ∈ lineRange first stop ↔ first ≤ line ∧ line < stop := by
  simp only [lineRange, List.mem_map, List.mem_range]
  constructor
  · rintro ⟨k, hk, rfl⟩
    simp only [Int.ofNat_eq_natCast]
    omega
  · rintro ⟨hfirst, hstop⟩
    exact ⟨(line - first).toNat, by omega, by simp only [Int.ofNat_eq_natCast]; omega⟩

namespace LineSuppressions

/-- The patterns of a line are those that were marked on it. -/
theorem mem_foldl_add {marks : List (Int × Text)} {suppressions : LineSuppressions} {line : Int}
    {pattern : Text} :
    pattern ∈ (KeyedList.get? line
        (marks.foldl (fun s (line, pattern) => add line pattern s) suppressions)).getD [] ↔
      pattern ∈ (KeyedList.get? line suppressions).getD [] ∨ (line, pattern) ∈ marks := by
  induction marks generalizing suppressions with
  | nil => simp
  | cons mark marks ih =>
    obtain ⟨line', pattern'⟩ := mark
    have hadd : pattern ∈ (KeyedList.get? line (add line' pattern' suppressions)).getD [] ↔
        pattern ∈ (KeyedList.get? line suppressions).getD [] ∨
          line = line' ∧ pattern = pattern' := by
      by_cases hline : line = line'
      · subst hline
        rw [add, KeyedList.get?_update_self, Option.getD_some]
        dsimp only
        split
        · next hmem => exact ⟨.inl, fun h => h.elim id fun e => e.2 ▸ hmem⟩
        · simp
      · rw [add, KeyedList.get?_update_of_ne hline]
        simp [hline]
    rw [List.foldl_cons, ih, hadd]
    simp [or_assoc]

theorem mem_ofMarks {marks : List (Int × Text)} {line : Int} {pattern : Text} :
    pattern ∈ (KeyedList.get? line (ofMarks marks)).getD [] ↔ (line, pattern) ∈ marks := by
  rw [ofMarks, mem_foldl_add]
  simp [KeyedList.get?]

/-- A region that is open at the end of the file covers the lines up to the last one. -/
theorem mem_of_opened {directives : List Directive} {pattern : Text} {start line lineCount : Int}
    (hopen : KeyedList.get? pattern (SuppressionRegions.ofDirectives directives).opened = some start)
    (hstart : start < line) (hline : line ≤ lineCount) :
    pattern ∈ (KeyedList.get? line (ofDirectives directives lineCount)).getD [] := by
  rw [ofDirectives, mem_ofMarks, SuppressionRegions.allMarks]
  refine List.mem_append_left _ (List.mem_append_right _ (List.mem_flatMap.mpr
    ⟨(pattern, start), KeyedList.mem_of_get? hopen, List.mem_map.mpr ⟨line, ?_, rfl⟩⟩))
  exact mem_lineRange.mpr ⟨by omega, by omega⟩

end LineSuppressions

/-! ## Reports at the end of the file -/

theorem FindingMessage.unmatchedDisable_injective :
    Function.Injective FindingMessage.unmatchedDisable := by
  intro c c' h
  unfold FindingMessage.unmatchedDisable at h
  exact List.append_cancel_left
    (List.append_cancel_right (List.append_cancel_right (List.append_cancel_right h)))

namespace DirectiveAudit

theorem exists_unmatchedDisable_iff {ds : List Directive} {c : Text} :
    (∃ f ∈ findings ds, f.code = .unmatchedDisable ∧
        f.message = FindingMessage.unmatchedDisable c) ↔
      c ∈ KeyedList.keys (OpenSuppressions.afterAll [] ds) := by
  have hmem {f : Finding} : f ∈ findings ds ∧ f.code = .unmatchedDisable ↔
      f ∈ (OpenSuppressions.afterAll [] ds).unclosed := by
    rw [← filter_unmatchedDisable, List.mem_filter]
    simp [findings]
  constructor
  · rintro ⟨f, hf, hcode, hmessage⟩
    obtain ⟨pair, hpair, rfl⟩ := List.mem_map.mp (hmem.mp ⟨hf, hcode⟩)
    rw [← FindingMessage.unmatchedDisable_injective hmessage]
    exact List.mem_map_of_mem hpair
  · intro hc
    obtain ⟨pair, hpair, rfl⟩ := List.mem_map.mp hc
    obtain ⟨hf, hcode⟩ := hmem.mpr (List.mem_map_of_mem hpair)
    exact ⟨_, hf, hcode, rfl⟩

end DirectiveAudit

/-- After any of the directives of a file the codes that the audit keeps open are those with an
open region, in the same order, less the pattern for all rules. So a code is reported to lack an
`enable` just when its region is open at the end of the file and reaches to the last line. -/
theorem open_codes_eq_open_regions (comments : List DirectiveComment) :
    (∀ n, KeyedList.keys
        (OpenSuppressions.afterAll [] ((comments.map Directive.classify).take n)) =
      (KeyedList.keys (SuppressionRegions.ofDirectives
        ((comments.map Directive.classify).take n)).opened).filter (· ≠ wildcard)) ∧
    ∀ (lineCount : Int) (c : Text), c ≠ wildcard →
      ((∃ f ∈ DirectiveAudit.findings (comments.map Directive.classify),
          f.code = .unmatchedDisable ∧ f.message = FindingMessage.unmatchedDisable c) ↔
        ∃ start, KeyedList.get? c (SuppressionRegions.ofDirectives
            (comments.map Directive.classify)).opened = some start ∧
          ∀ line, start < line → line ≤ lineCount → c ∈ (KeyedList.get? line
            (LineSuppressions.ofDirectives (comments.map Directive.classify) lineCount)).getD []) := by
  constructor
  · intro n
    rw [← List.map_take]
    exact sameOpen_ofDirectives (comments.take n)
  · intro lineCount c hc
    have hopen : c ∈ KeyedList.keys
        (OpenSuppressions.afterAll [] (comments.map Directive.classify)) ↔
        c ∈ KeyedList.keys (SuppressionRegions.ofDirectives
          (comments.map Directive.classify)).opened := by
      rw [sameOpen_ofDirectives comments, List.mem_filter]
      simp [hc]
    rw [DirectiveAudit.exists_unmatchedDisable_iff, hopen, ← KeyedList.get?_isSome_iff,
      Option.isSome_iff_exists]
    refine exists_congr fun start => ⟨fun h => ⟨h, fun line => ?_⟩, And.left⟩
    exact LineSuppressions.mem_of_opened h

/-- A code that is disabled on the first of three lines is reported, and covers the other two. -/
theorem disabled_code_covers_last_line :
    (['A'] ≠ wildcard) ∧ ∃ start, KeyedList.get? ['A'] (SuppressionRegions.ofDirectives
        ([{ kind := .disable, line := 1, column := 1, index := 0, raw := "# lint:disable A",
            codes := some [['A']] }].map Directive.classify)).opened = some start ∧
      ∀ line, start < line → line ≤ 3 → ['A'] ∈ (KeyedList.get? line
        (LineSuppressions.ofDirectives
          ([{ kind := .disable, line := 1, column := 1, index := 0, raw := "# lint:disable A",
              codes := some [['A']] }].map Directive.classify) 3)).getD [] :=
  ⟨by decide, ((open_codes_eq_open_regions _).2 3 ['A'] (by decide)).mp (by decide +kernel)⟩

end LintDirectives
