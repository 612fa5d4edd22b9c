import LintDirectives.Proofs.KeyedGroups
import LintDirectives.Proofs.OpenRegions
import Mathlib.Data.List.Induction

/-!
# Suppressed lines

What is suppressed on a line can be told from the directives of a file, without the regions that
are kept while they are read. A region reaches from a `disable` that names its pattern to the
first later `enable` that closes it. While a region is open, another `disable` does not move its
start, so the start is the least line of all that opened it. This needs the directives in the
order of their lines.
-/

namespace LintDirectives

/-! ## What the directives of a file say -/

namespace Directive

/-- A `disable` opens a region for each of its patterns. -/
def OpensRegion (d : Directive) (p : Text) : Prop :=
  d.kind = .disable ∧ p ∈ d.patterns

/-- An `enable` closes the regions of its patterns, and all regions if it is bare. -/
def ClosesRegion (d : Directive) (p : Text) : Prop :=
  d.kind = .enable ∧ (d.isBare = true ∨ p ∈ d.patterns)

instance (d : Directive) (p : Text) : Decidable (d.OpensRegion p) :=
  inferInstanceAs (Decidable (_ ∧ _))

instance (d : Directive) (p : Text) : Decidable (d.ClosesRegion p) :=
  inferInstanceAs (Decidable (_ ∧ _))

def ignoredLine (d : Directive) : Int :=
  if d.comment.trailing then d.line else d.line + 1

end Directive

/-- The patterns that directives suppress on a line of a file with a number of lines. -/
inductive Suppressed (ds : List Directive) (lineCount line : Int) : Text → Prop where
  | ownLine {d : Directive} (hd : d ∈ ds) (hkind : d.kind ≠ .legacy) (hline : d.line = line) :
    Suppressed ds lineCount line wildcard
  | ignored {d : Directive} {p : Text} (hd : d ∈ ds) (hkind : d.kind = .ignore)
      (hp : p ∈ d.patterns) (hline : d.ignoredLine = line) : Suppressed ds lineCount line p
  | closedRegion {past later : List Directive} {d e : Directive} {p : Text}
      (hds : ds = past ++ d :: later) (hopens : d.OpensRegion p) (hstart : d.line < line)
      (hfirst : later.find? (·.ClosesRegion p) = some e) (hstop : line < e.line) :
    Suppressed ds lineCount line p
  | openRegion {past later : List Directive} {d : Directive} {p : Text}
      (hds : ds = past ++ d :: later) (hopens : d.OpensRegion p) (hstart : d.line < line)
      (hnone : later.find? (·.ClosesRegion p) = none) (hlast : line ≤ lineCount) :
    Suppressed ds lineCount line p
  | wholeFile {d : Directive} (hd : d ∈ ds) (hkind : d.kind = .ignoreFile) (hfirst : 1 ≤ line)
      (hlast : line ≤ lineCount) : Suppressed ds lineCount line wildcard

/-- A directive that opened a region which is still open. -/
def PendingOpener (past : List Directive) (p : Text) (d : Directive) : Prop :=
  ∃ before after, past = before ++ d :: after ∧ d.OpensRegion p ∧
    after.find? (·.ClosesRegion p) = none

def InClosedRegion (past : List Directive) (p : Text) (line : Int) : Prop :=
  ∃ before d after e, past = before ++ d :: after ∧ d.OpensRegion p ∧ d.line < line ∧
    after.find? (·.ClosesRegion p) = some e ∧ line < e.line

variable {past : List Directive} {d e : Directive} {p : Text} {line : Int}

private theorem snoc_eq_append_cons {before after : List Directive}
    (h : past ++ [e] = before ++ d :: after) :
    (past = before ∧ e = d ∧ after = []) ∨
      ∃ after', past = before ++ d :: after' ∧ after = after' ++ [e] := by
  rcases List.eq_nil_or_concat' after with rfl | ⟨after', last, rfl⟩
  · obtain ⟨hpast, he⟩ := List.append_inj' h rfl
    exact .inl ⟨hpast, (List.cons.inj he).1, rfl⟩
  · rw [← List.cons_append, ← List.append_assoc] at h
    obtain ⟨hpast, he⟩ := List.append_inj' h rfl
    obtain rfl := (List.cons.inj he).1
    exact .inr ⟨after', hpast, rfl⟩

private theorem exists_mem_append_singleton {P : Directive → Prop} :
    (∃ d ∈ past ++ [e], P d) ↔ (∃ d ∈ past, P d) ∨ P e := by
  simp only [List.mem_append, List.mem_singleton, or_and_right, exists_or, exists_eq_left]

theorem PendingOpener.mem (h : PendingOpener past p d) : d ∈ past := by
  obtain ⟨before, after, rfl, -⟩ := h
  simp

theorem pendingOpener_append_singleton : PendingOpener (past ++ [e]) p d ↔
    (e = d ∧ d.OpensRegion p) ∨ (PendingOpener past p d ∧ ¬ e.ClosesRegion p) := by
  constructor
  · rintro ⟨before, after, h, hopens, hnone⟩
    rcases snoc_eq_append_cons h with ⟨-, he, -⟩ | ⟨after', hpast, rfl⟩
    · exact .inl ⟨he, hopens⟩
    · rw [List.find?_append, Option.or_eq_none_iff] at hnone
      refine .inr ⟨⟨before, after', hpast, hopens, hnone.1⟩, ?_⟩
      simpa using hnone.2
  · rintro (⟨rfl, hopens⟩ | ⟨⟨before, after, rfl, hopens, hnone⟩, hcloses⟩)
    · exact ⟨past, [], rfl, hopens, rfl⟩
    · refine ⟨before, after ++ [e], by simp, hopens, ?_⟩
      rw [List.find?_append, hnone]
      simpa using hcloses

theorem inClosedRegion_append_singleton : InClosedRegion (past ++ [e]) p line ↔
    InClosedRegion past p line ∨
      (e.ClosesRegion p ∧ line < e.line ∧ ∃ d, PendingOpener past p d ∧ d.line < line) := by
  constructor
  · rintro ⟨before, d, after, f, h, hopens, hstart, hfirst, hstop⟩
    rcases snoc_eq_append_cons h with ⟨-, -, rfl⟩ | ⟨after', hpast, rfl⟩
    · simp at hfirst
    · rw [List.find?_append] at hfirst
      cases hfound : after'.find? (·.ClosesRegion p) with
      | some f' =>
        rw [hfound, Option.some_or] at hfirst
        exact .inl ⟨before, d, after', f, hpast, hopens, hstart, hfound.trans hfirst, hstop⟩
      | none =>
        -- the region was open before, so the last directive is the one that closes it
        rw [hfound, Option.none_or] at hfirst
        have hcloses := List.find?_some hfirst
        obtain rfl := List.mem_singleton.mp (List.mem_of_find?_eq_some hfirst)
        exact .inr ⟨by simpa using hcloses, hstop, d,
          ⟨before, after', hpast, hopens, hfound⟩, hstart⟩
  · rintro (⟨before, d, after, f, rfl, hopens, hstart, hfirst, hstop⟩ |
      ⟨hcloses, hstop, d, ⟨before, after, rfl, hopens, hnone⟩, hstart⟩)
    · refine ⟨before, d, after ++ [e], f, by simp, hopens, hstart, ?_, hstop⟩
      rw [List.find?_append, hfirst, Option.some_or]
    · refine ⟨before, d, after ++ [e], e, by simp, hopens, hstart, ?_, hstop⟩
      rw [List.find?_append, hnone, Option.none_or]
      simpa using hcloses

/-! ## What reading one directive does -/

theorem KeyedList.get?_foldl_putNew {κ α : Type} [DecidableEq κ] (a : α) (ks : List κ) (k : κ)
    (l : KeyedList κ α) : get? k (ks.foldl (fun l k' => update k' (·.getD a) l) l) =
      if k ∈ ks then some ((get? k l).getD a) else get? k l := by
  induction ks generalizing l with
  | nil => simp
  | cons k' ks ih =>
    rw [List.foldl_cons, ih]
    by_cases hk : k = k'
    · subst hk
      simp
    · rw [get?_update_of_ne hk]
      simp [hk]

theorem KeyedList.nodup_keys_foldl_update {κ α : Type} [DecidableEq κ] (f : Option α → α)
    (ks : List κ) {l : KeyedList κ α} (h : (keys l).Nodup) :
    (keys (ks.foldl (fun l k => update k f l) l)).Nodup := by
  rw [keys_foldl_update]
  exact nodup_foldl_addKey h ks

namespace SuppressionRegions

variable {s : SuppressionRegions}

theorem mem_region {first stop : Int} {q : Text} :
    (line, q) ∈ region p first stop ↔ q = p ∧ first ≤ line ∧ line < stop := by
  simp only [region, List.mem_map, mem_lineRange, Prod.mk.injEq]
  constructor
  · rintro ⟨l, hl, rfl, rfl⟩
    exact ⟨rfl, hl⟩
  · rintro ⟨rfl, hl⟩
    exact ⟨line, hl, rfl, rfl⟩

theorem mem_marks_close {stop : Int} {q : Text} : (line, q) ∈ (close stop s p).marks ↔
    (line, q) ∈ s.marks ∨
      (q = p ∧ ∃ start, KeyedList.get? p s.opened = some start ∧ start < line ∧ line < stop) := by
  unfold close
  split
  · next start hstart =>
    rw [List.mem_append, mem_region, Int.add_one_le_iff]
    simp [hstart]
  · next hnone => simp [hnone]

theorem mem_marks_foldl_close {stop : Int} (closing : List Text) :
    (line, p) ∈ (closing.foldl (close stop) s).marks ↔ (line, p) ∈ s.marks ∨
      (p ∈ closing ∧
        ∃ start, KeyedList.get? p s.opened = some start ∧ start < line ∧ line < stop) := by
  induction closing generalizing s with
  | nil => simp
  | cons q closing ih =>
    rw [List.foldl_cons, ih, mem_marks_close, opened_close]
    by_cases hq : p = q
    · subst hq
      simp
    · rw [KeyedList.get?_erase_of_ne hq]
      simp [hq]

private theorem wholeFile_foldl_close (stop : Int) (closing : List Text)
    (s : SuppressionRegions) : (closing.foldl (close stop) s).wholeFile = s.wholeFile := by
  induction closing generalizing s with
  | nil => rfl
  | cons q closing ih =>
    rw [List.foldl_cons, ih, close]
    split <;> rfl

/-- The marks that one directive adds. -/
theorem mem_marks_step : (line, p) ∈ (step s d).marks ↔ (line, p) ∈ s.marks ∨
    (p = wildcard ∧ d.kind ≠ .legacy ∧ d.line = line) ∨
    (d.kind = .ignore ∧ p ∈ d.patterns ∧ d.ignoredLine = line) ∨
    (d.ClosesRegion p ∧
      ∃ start, KeyedList.get? p s.opened = some start ∧ start < line ∧ line < d.line) := by
  have hown : (line, p) = (d.line, wildcard) ↔ p = wildcard ∧ d.line = line := by
    rw [Prod.mk.injEq, eq_comm, and_comm]
  cases hkind : d.kind with
  | legacy => simp [step, hkind, Directive.ClosesRegion]
  | ignoreFile => simp [step, hkind, Directive.ClosesRegion, hown]
  | disable => simp [step, hkind, Directive.ClosesRegion, hown]
  | ignore =>
    have hmark : (line, p) ∈ (d.patterns.map fun q => (d.ignoredLine, q)) ↔
        p ∈ d.patterns ∧ d.ignoredLine = line := by
      simp [and_comm]
    have hmarks : (step s d).marks = s.marks ++ [(d.line, wildcard)] ++
        d.patterns.map fun q => (d.ignoredLine, q) := by
      simp [step, hkind, Directive.ignoredLine]
    rw [hmarks, List.mem_append, List.mem_append, List.mem_singleton, hown, hmark]
    simp [hkind, Directive.ClosesRegion, or_assoc]
  | enable =>
    have hclosing : (p ∈ (if d.isBare then KeyedList.keys s.opened else d.patterns) ∧
        ∃ start, KeyedList.get? p s.opened = some start ∧ start < line ∧ line < d.line) ↔
        d.ClosesRegion p ∧
          ∃ start, KeyedList.get? p s.opened = some start ∧ start < line ∧ line < d.line := by
      apply and_congr_left
      rintro ⟨start, hstart, -⟩
      have hkey : p ∈ KeyedList.keys s.opened := by
        rw [← KeyedList.get?_isSome_iff, hstart]
        rfl
      cases hbare : d.isBare with
      | true => simp [Directive.ClosesRegion, hkind, hbare, hkey]
      | false => simp [Directive.ClosesRegion, hkind, hbare]
    simp only [step, hkind, reduceCtorEq, if_false]
    rw [mem_marks_foldl_close, List.mem_append, List.mem_singleton, hown, hclosing]
    simp [or_assoc]

/-- The regions that are open after one directive. -/
theorem get?_opened_step : KeyedList.get? p (step s d).opened =
    if d.OpensRegion p then some ((KeyedList.get? p s.opened).getD d.line)
    else if d.ClosesRegion p then none
    else KeyedList.get? p s.opened := by
  by_cases hdisable : d.kind = .disable
  · have hcloses : ¬ d.ClosesRegion p := fun h => by simpa [hdisable] using h.1
    rw [opened_step_disable hdisable, KeyedList.get?_foldl_putNew, if_neg hcloses]
    simp [Directive.OpensRegion, hdisable]
  · have hopens : ¬ d.OpensRegion p := fun h => hdisable h.1
    rw [if_neg hopens]
    by_cases henable : d.kind = .enable
    · have hget := KeyedList.get?_filter
        (fun q => q ∉ if d.isBare then KeyedList.keys s.opened else d.patterns) p s.opened
      rw [opened_step_enable henable, hget]
      cases hbare : d.isBare with
      | false => simp [Directive.ClosesRegion, henable, hbare]
      | true =>
        have hcloses : d.ClosesRegion p := ⟨henable, .inl hbare⟩
        rw [if_pos hcloses, if_pos rfl]
        split
        · next hkey =>
          rw [decide_eq_true_eq, ← KeyedList.get?_isSome_iff, Option.not_isSome_iff_eq_none] at hkey
          exact hkey
        · rfl
    · have hcloses : ¬ d.ClosesRegion p := fun h => henable h.1
      rw [opened_step_of_other hdisable henable, if_neg hcloses]

theorem nodup_opened_step (h : (KeyedList.keys s.opened).Nodup) :
    (KeyedList.keys (step s d).opened).Nodup := by
  by_cases hdisable : d.kind = .disable
  · rw [opened_step_disable hdisable]
    exact KeyedList.nodup_keys_foldl_update _ _ h
  · by_cases henable : d.kind = .enable
    · have hkeys := KeyedList.keys_filter
        (fun q => q ∉ if d.isBare then KeyedList.keys s.opened else d.patterns) s.opened
      rw [opened_step_enable henable, hkeys]
      exact h.filter _
    · rw [opened_step_of_other hdisable henable]
      exact h

theorem wholeFile_step : (step s d).wholeFile = true ↔
    s.wholeFile = true ∨ d.kind = .ignoreFile := by
  cases hkind : d.kind with
  | enable =>
    simp only [step, hkind, reduceCtorEq, if_false, wholeFile_foldl_close]
    simp
  | _ => simp [step, hkind]

end SuppressionRegions

/-! ## What reading all directives does -/

/-- The regions after some directives: an open region starts on the least line of the directives
that opened it, and the marks are those of the directives themselves and of the closed regions. -/
structure RegionsMatch (past : List Directive) (s : SuppressionRegions) : Prop where
  nodup : (KeyedList.keys s.opened).Nodup
  opened : ∀ p d, PendingOpener past p d →
    ∃ start, KeyedList.get? p s.opened = some start ∧ start ≤ d.line
  opener : ∀ p start, KeyedList.get? p s.opened = some start →
    ∃ d, PendingOpener past p d ∧ d.line = start
  mem_marks : ∀ line p, (line, p) ∈ s.marks ↔
    (p = wildcard ∧ ∃ d ∈ past, d.kind ≠ .legacy ∧ d.line = line) ∨
    (∃ d ∈ past, d.kind = .ignore ∧ p ∈ d.patterns ∧ d.ignoredLine = line) ∨
    InClosedRegion past p line
  wholeFile : s.wholeFile = true ↔ ∃ d ∈ past, d.kind = .ignoreFile

theorem regionsMatch_nil : RegionsMatch [] {} := by
  refine ⟨List.nodup_nil, ?_, ?_, ?_, by simp⟩
  · intro p d hpending
    exact absurd hpending.mem (by simp)
  · intro p start hstart
    simp [KeyedList.get?] at hstart
  · intro line p
    have hclosed : ¬ InClosedRegion [] p line := by
      rintro ⟨before, d, after, e, h, -⟩
      simp at h
    simp [hclosed]

variable {s : SuppressionRegions}

theorem RegionsMatch.step (h : RegionsMatch past s) (hlines : ∀ e ∈ past, e.line ≤ d.line) :
    RegionsMatch (past ++ [d]) (SuppressionRegions.step s d) := by
  refine ⟨SuppressionRegions.nodup_opened_step h.nodup, ?_, ?_, ?_, ?_⟩
  · intro p e hpending
    rw [SuppressionRegions.get?_opened_step]
    rcases pendingOpener_append_singleton.mp hpending with ⟨rfl, hopens⟩ | ⟨hpending, hcloses⟩
    · rw [if_pos hopens]
      cases hstart : KeyedList.get? p s.opened with
      | none => exact ⟨d.line, rfl, Int.le_refl _⟩
      | some start =>
        -- an earlier `disable` keeps the start, and it stands no lower than this one
        obtain ⟨f, hf, hline⟩ := h.opener p start hstart
        exact ⟨start, rfl, hline ▸ hlines f hf.mem⟩
    · obtain ⟨start, hstart, hle⟩ := h.opened p e hpending
      rw [hstart, if_neg hcloses]
      exact ⟨start, by split <;> rfl, hle⟩
  · intro p start hstart
    rw [SuppressionRegions.get?_opened_step] at hstart
    have hkept (hget : KeyedList.get? p s.opened = some start) (hcloses : ¬ d.ClosesRegion p) :
        ∃ e, PendingOpener (past ++ [d]) p e ∧ e.line = start := by
      obtain ⟨e, he, hline⟩ := h.opener p start hget
      exact ⟨e, pendingOpener_append_singleton.mpr (.inr ⟨he, hcloses⟩), hline⟩
    split at hstart
    · next hopens =>
      cases hget : KeyedList.get? p s.opened with
      | none =>
        rw [hget, Option.getD_none] at hstart
        exact ⟨d, pendingOpener_append_singleton.mpr (.inl ⟨rfl, hopens⟩), Option.some.inj hstart⟩
      | some start' =>
        rw [hget, Option.getD_some] at hstart
        refine hkept (hget.trans hstart) fun hcloses => ?_
        simpa [hopens.1] using hcloses.1
    · split at hstart
      · cases hstart
      · next hcloses => exact hkept hstart hcloses
  · intro line p
    have hregion : (∃ start, KeyedList.get? p s.opened = some start ∧ start < line ∧
        line < d.line) ↔ line < d.line ∧ ∃ e, PendingOpener past p e ∧ e.line < line := by
      constructor
      · rintro ⟨start, hstart, hlt, hstop⟩
        obtain ⟨e, he, hline⟩ := h.opener p start hstart
        exact ⟨hstop, e, he, by omega⟩
      · rintro ⟨hstop, e, he, hlt⟩
        obtain ⟨start, hstart, hle⟩ := h.opened p e he
        exact ⟨start, hstart, by omega, hstop⟩
    rw [SuppressionRegions.mem_marks_step, h.mem_marks, inClosedRegion_append_singleton, hregion,
      exists_mem_append_singleton, exists_mem_append_singleton, and_or_left]
    exact or_or_or_comm.trans (or_congr Iff.rfl or_or_or_comm)
  · rw [SuppressionRegions.wholeFile_step, h.wholeFile, exists_mem_append_singleton]

theorem regionsMatch_ofDirectives {ds : List Directive}
    (hlines : ds.Pairwise fun d e => d.line ≤ e.line) :
    RegionsMatch ds (SuppressionRegions.ofDirectives ds) := by
  induction ds using List.reverseRecOn with
  | nil => exact regionsMatch_nil
  | append_singleton past d ih =>
    obtain ⟨hpast, -, hlast⟩ := List.pairwise_append.mp hlines
    rw [SuppressionRegions.ofDirectives, List.foldl_append, List.foldl_cons, List.foldl_nil]
    exact (ih hpast).step fun e he => hlast e he d (List.mem_singleton_self d)

/-! ## What the suppressions of a file say -/

namespace LineSuppressions

/-- A line has an entry only if something is marked on it. -/
theorem ne_nil_of_get?_ofMarks {marks : List (Int × Text)} {patterns : List Text}
    (h : KeyedList.get? line (ofMarks marks) = some patterns) : patterns ≠ [] := by
  induction marks using List.reverseRecOn with
  | nil => simp [ofMarks, KeyedList.get?] at h
  | append_singleton marks mark ih =>
    have hsnoc : ofMarks (marks ++ [mark]) = add mark.1 mark.2 (ofMarks marks) := by
      rw [ofMarks, List.foldl_append]
      rfl
    rw [hsnoc, add] at h
    by_cases hline : line = mark.1
    · rw [hline, KeyedList.get?_update_self] at h
      rw [← Option.some.inj h]
      dsimp only
      split
      · next hmem => exact List.ne_nil_of_mem hmem
      · simp
    · rw [KeyedList.get?_update_of_ne hline] at h
      exact ih h

theorem isSome_get?_ofMarks {marks : List (Int × Text)} :
    (KeyedList.get? line (ofMarks marks)).isSome ↔ ∃ p, (line, p) ∈ marks := by
  constructor
  · intro h
    obtain ⟨patterns, hpatterns⟩ := Option.isSome_iff_exists.mp h
    obtain ⟨p, hp⟩ := List.exists_mem_of_ne_nil _ (ne_nil_of_get?_ofMarks hpatterns)
    exact ⟨p, mem_ofMarks.mp (by rwa [hpatterns])⟩
  · rintro ⟨p, hp⟩
    cases hget : KeyedList.get? line (ofMarks marks) with
    | some patterns => rfl
    | none =>
      have hmem := mem_ofMarks.mpr hp
      simp [hget] at hmem

end LineSuppressions

theorem RegionsMatch.mem_allMarks_iff {ds : List Directive} (h : RegionsMatch ds s)
    (lineCount : Int) : (line, p) ∈ s.allMarks lineCount ↔ Suppressed ds lineCount line p := by
  have hopen : (∃ pair ∈ s.opened, (line, p) ∈
        SuppressionRegions.region pair.1 (pair.2 + 1) (lineCount + 1)) ↔
      ∃ start, KeyedList.get? p s.opened = some start ∧ start < line ∧ line ≤ lineCount := by
    constructor
    · rintro ⟨⟨q, start⟩, hmem, hregion⟩
      obtain ⟨rfl, hstart, hstop⟩ := SuppressionRegions.mem_region.mp hregion
      exact ⟨start, KeyedList.get?_of_mem h.nodup hmem, by omega, by omega⟩
    · rintro ⟨start, hget, hstart, hlast⟩
      exact ⟨(p, start), KeyedList.mem_of_get? hget,
        SuppressionRegions.mem_region.mpr ⟨rfl, by omega, by omega⟩⟩
  have hwhole : (line, p) ∈ (if s.wholeFile then
      SuppressionRegions.region wildcard 1 (lineCount + 1) else []) ↔
      (∃ d ∈ ds, d.kind = .ignoreFile) ∧ p = wildcard ∧ 1 ≤ line ∧ line ≤ lineCount := by
    rw [← h.wholeFile]
    split
    · next hfile =>
      rw [SuppressionRegions.mem_region, Int.lt_add_one_iff]
      simp [hfile]
    · next hfile => simp [hfile]
  rw [SuppressionRegions.allMarks, List.mem_append, List.mem_append, List.mem_flatMap, h.mem_marks,
    hopen, hwhole]
  constructor
  · rintro (((⟨rfl, d, hd, hkind, hline⟩ | ⟨d, hd, hkind, hp, hline⟩ |
      ⟨past, d, later, e, hds, hopens, hstart, hfirst, hstop⟩) | ⟨start, hget, hstart, hlast⟩) |
      ⟨⟨d, hd, hkind⟩, rfl, hfirst, hlast⟩)
    · exact .ownLine hd hkind hline
    · exact .ignored hd hkind hp hline
    · exact .closedRegion hds hopens hstart hfirst hstop
    · obtain ⟨d, ⟨past, later, hds, hopens, hnone⟩, hline⟩ := h.opener p start hget
      exact .openRegion hds hopens (by omega) hnone hlast
    · exact .wholeFile hd hkind hfirst hlast
  · intro hsuppressed
    cases hsuppressed with
    | ownLine hd hkind hline => exact .inl (.inl (.inl ⟨rfl, _, hd, hkind, hline⟩))
    | ignored hd hkind hp hline => exact .inl (.inl (.inr (.inl ⟨_, hd, hkind, hp, hline⟩)))
    | closedRegion hds hopens hstart hfirst hstop =>
      exact .inl (.inl (.inr (.inr ⟨_, _, _, _, hds, hopens, hstart, hfirst, hstop⟩)))
    | openRegion hds hopens hstart hnone hlast =>
      obtain ⟨start, hget, hle⟩ := h.opened p _ ⟨_, _, hds, hopens, hnone⟩
      exact .inl (.inr ⟨start, hget, by omega, hlast⟩)
    | wholeFile hd hkind hfirst hlast => exact .inr ⟨⟨_, hd, hkind⟩, rfl, hfirst, hlast⟩

/-- Comments with deprecated markers suppress nothing. -/
theorem SuppressionRegions.ofDirectives_filter_legacy (ds : List Directive) :
    ofDirectives (ds.filter (·.kind ≠ .legacy)) = ofDirectives ds := by
  induction ds using List.reverseRecOn with
  | nil => rfl
  | append_singleton past d ih =>
    have hsnoc (ds : List Directive) : ofDirectives (ds ++ [d]) = step (ofDirectives ds) d := by
      rw [ofDirectives, List.foldl_append]
      rfl
    rw [List.filter_append, List.filter_singleton, hsnoc, ← ih]
    by_cases hkind : d.kind = .legacy
    · simp [hkind, step]
    · simp only [hkind, not_false_eq_true, decide_true, cond_true, ne_eq]
      exact hsnoc _

/-- The suppressions of a file whose directives stand in the order of their lines: the patterns of
each line are those that the directives suppress there, a line has an entry just when there are
such patterns, and comments with deprecated markers play no role. -/
theorem suppressions_match_directives (ds : List Directive)
    (hlines : ds.Pairwise fun d e => d.line ≤ e.line) (lineCount : Int) :
    (∀ line p, p ∈ (KeyedList.get? line (LineSuppressions.ofDirectives ds lineCount)).getD [] ↔
      Suppressed ds lineCount line p) ∧
    (∀ line, (KeyedList.get? line (LineSuppressions.ofDirectives ds lineCount)).isSome ↔
      ∃ p, Suppressed ds lineCount line p) ∧
    LineSuppressions.ofDirectives (ds.filter (·.kind ≠ .legacy)) lineCount =
      LineSuppressions.ofDirectives ds lineCount := by
  have hmatch := regionsMatch_ofDirectives hlines
  refine ⟨?_, ?_, ?_⟩
  · intro line p
    rw [LineSuppressions.ofDirectives, LineSuppressions.mem_ofMarks]
    exact hmatch.mem_allMarks_iff lineCount
  · intro line
    rw [LineSuppressions.ofDirectives, LineSuppressions.isSome_get?_ofMarks]
    exact exists_congr fun p => hmatch.mem_allMarks_iff lineCount
  · rw [LineSuppressions.ofDirectives, LineSuppressions.ofDirectives,
      SuppressionRegions.ofDirectives_filter_legacy]

/-- A region that is opened twice covers the lines behind the first `disable`. -/
theorem reopened_region_covers_line :
    Suppressed
      [⟨{ kind := .disable, line := 1, column := 1, index := 0, raw := [] }, false, [['A']]⟩,
        ⟨{ kind := .disable, line := 3, column := 1, index := 1, raw := [] }, false, [['A'], ['B']]⟩,
        ⟨{ kind := .enable, line := 5, column := 1, index := 2, raw := [] }, false, [['A']]⟩]
      9 2 ['A'] := by
  refine ((suppressions_match_directives _ ?_ 9).1 2 ['A']).mp ?_
  · decide
  · decide +kernel

end LintDirectives
