import LintDirectives.FileCheck
import LintDirectives.Proofs.EditSplicing
import LintDirectives.Proofs.FailingSteps
import Mathlib.Algebra.BigOperators.Group.Finset.Basic
import Mathlib.Algebra.Order.BigOperators.Group.Finset
import Mathlib.Data.Finset.Card

/-!
# The loop of fixing passes

A pass applies all edits that are proposed for a source. The loop makes passes as long as there
is something to fix, and at most as many as the limit allows. So its result is read off the
sequence of the sources after each number of passes: it is the first of them with nothing to
fix, unless a check or the application of edits fails before, or none of them is reached within
the limit.
-/

namespace LintDirectives

open FailingSteps

namespace Edit

theorem applyAll_nil (source : Bytes) : applyAll source [] = .ok source := by
  simp [applyAll, ordered, firstOverlap?]

end Edit

namespace Linter

/-! ## Passes -/

theorem proposedEdits_eq_nil_iff {ds : List Diagnostic} :
    proposedEdits ds = [] ↔ ds.any (·.isFixable) = false := by
  have hmem : proposedEdits ds = [] ↔ ∀ e, e ∉ ds.filterMap (·.fix) := by
    rw [proposedEdits, List.eq_nil_iff_forall_not_mem]
    simp only [List.mem_eraseDups]
  rw [hmem, ← List.eq_nil_iff_forall_not_mem, List.filterMap_eq_nil_iff, List.any_eq_false]
  simp [Diagnostic.isFixable]

theorem length_proposedEdits (ds : List Diagnostic) :
    (proposedEdits ds).length = (ds.filterMap (·.fix)).toFinset.card := by
  rw [proposedEdits, ← List.toFinset_card_of_nodup (KeyedList.nodup_eraseDups _)]
  congr 1
  ext e
  simp only [List.mem_toFinset, List.mem_eraseDups]

variable (check : Bytes → Except FileError (List Diagnostic))

/-- Apply the edits that are proposed for a source. -/
def pass (s : Bytes) : Except FileError Bytes := do
  let ds ← check s
  (Edit.applyAll s (proposedEdits ds)).mapError FileError.conflict

def afterPasses (source : Bytes) : ℕ → Except FileError Bytes
  | 0 => .ok source
  | k + 1 => do pass check (← afterPasses source k)

/-- The number of distinct edits that are proposed after a number of passes. -/
def editsAfter (source : Bytes) (k : ℕ) : ℕ :=
  match afterPasses check source k >>= check with
  | .ok ds => (ds.filterMap (·.fix)).toFinset.card
  | .error _ => 0

/-- There is something to fix after a number of passes. -/
def FixableAfter (source : Bytes) (k : ℕ) : Prop :=
  ∃ s ds, afterPasses check source k = .ok s ∧ check s = .ok ds ∧ ds.any (·.isFixable)

/-- A number of passes leads to the first source with nothing to fix. -/
structure FirstFixFree (source : Bytes) (k : ℕ) (s : Bytes) (ds : List Diagnostic) : Prop where
  reached : afterPasses check source k = .ok s
  checked : check s = .ok ds
  fixFree : ds.any (·.isFixable) = false
  before : ∀ j < k, FixableAfter check source j

variable {check} {limit : PassLimit} {source s s' : Bytes} {ds : List Diagnostic} {n k : ℕ}
  {applied : ℕ}

theorem pass_of_ok (h : check s = .ok ds) :
    pass check s = (Edit.applyAll s (proposedEdits ds)).mapError FileError.conflict := by
  simp only [pass, h]
  rfl

theorem afterPasses_succ_of_ok (h : afterPasses check source k = .ok s) :
    afterPasses check source (k + 1) = pass check s := by
  simp only [afterPasses, h]
  rfl

theorem editsAfter_of_ok (h : afterPasses check source k = .ok s) (hs : check s = .ok ds) :
    editsAfter check source k = (proposedEdits ds).length := by
  have hbind : (afterPasses check source k >>= check) = .ok ds := by
    rw [h]
    exact hs
  simp only [editsAfter, hbind, length_proposedEdits]

/-! ## One round of the loop -/

theorem fixPasses_of_fixFree (h : check s = .ok ds) (hfree : ds.any (·.isFixable) = false) :
    fixPasses check limit n s applied = .ok ⟨s, applied, ds⟩ := by
  cases n with
  | zero =>
    simp only [fixPasses, h]
    show (if _ then _ else _) = _
    rw [if_neg (by simp [hfree])]
    rfl
  | succ n =>
    have hnil := proposedEdits_eq_nil_iff.mpr hfree
    simp only [fixPasses, h]
    show (if _ then _ else _) = _
    rw [if_pos (by simp [hnil])]
    rfl

theorem fixPasses_of_error {e : FileError} (h : check s = .error e) :
    fixPasses check limit n s applied = .error e := by
  cases n with
  | zero =>
    simp only [fixPasses, h]
    rfl
  | succ n =>
    simp only [fixPasses, h]
    rfl

theorem fixPasses_zero_of_fixable (h : check s = .ok ds) (hfix : ds.any (·.isFixable)) :
    fixPasses check limit 0 s applied = .error (.notConverged limit) := by
  simp only [fixPasses, h]
  show (if _ then _ else _) = _
  rw [if_pos hfix]

/-- With something to fix, a round of the loop is a pass and the rest of the loop. -/
theorem fixPasses_succ_of_fixable (h : check s = .ok ds) (hfix : ds.any (·.isFixable)) :
    fixPasses check limit (n + 1) s applied = (do
      let s' ← pass check s
      fixPasses check limit n s' (applied + (proposedEdits ds).length)) := by
  have hne : proposedEdits ds ≠ [] := fun hnil => by
    rw [proposedEdits_eq_nil_iff.mp hnil] at hfix
    exact absurd hfix (by simp)
  rw [pass_of_ok h]
  simp only [fixPasses, h]
  show (if _ then _ else _) = _
  rw [if_neg (by simpa using hne)]

/-! ## The whole loop -/

/-- As long as there is something to fix, the loop is as far as the passes are. -/
theorem fixPasses_of_afterPasses (hfix : ∀ j < k, FixableAfter check source j)
    (h : afterPasses check source k = .ok s) :
    fixPasses check limit (n + k) source applied =
      fixPasses check limit n s (applied + ∑ j ∈ Finset.range k, editsAfter check source j) := by
  induction k generalizing n s with
  | zero =>
    obtain rfl := Except.ok.inj h
    simp
  | succ k ih =>
    obtain ⟨s₀, ds, hs₀, hds, hany⟩ := hfix k (Nat.lt_succ_self k)
    have hround := ih (n := n + 1) (fun j hj => hfix j (Nat.lt_succ_of_lt hj)) hs₀
    have hpass : pass check s₀ = .ok s := by rw [← afterPasses_succ_of_ok hs₀, h]
    rw [show n + (k + 1) = n + 1 + k by omega, hround, fixPasses_succ_of_fixable hds hany, hpass,
      Finset.sum_range_succ, editsAfter_of_ok hs₀ hds, ← Nat.add_assoc]
    rfl

theorem fixPasses_of_le (hk : k ≤ n) (hfix : ∀ j < k, FixableAfter check source j)
    (h : afterPasses check source k = .ok s) :
    fixPasses check limit n source applied =
      fixPasses check limit (n - k) s
        (applied + ∑ j ∈ Finset.range k, editsAfter check source j) := by
  have hrun : fixPasses check limit (n - k + k) source applied = _ :=
    fixPasses_of_afterPasses hfix h
  rwa [Nat.sub_add_cancel hk] at hrun

/-- A pass fails on a checked source only by a conflict of edits. -/
theorem exists_conflict_of_pass {e : FileError} (hs : check s = .ok ds)
    (h : pass check s = .error e) :
    ∃ conflict, Edit.applyAll s (proposedEdits ds) = .error conflict ∧ e = .conflict conflict := by
  rw [pass_of_ok hs] at h
  cases happly : Edit.applyAll s (proposedEdits ds) with
  | ok s' =>
    rw [happly] at h
    exact nomatch h
  | error conflict =>
    rw [happly] at h
    exact ⟨conflict, rfl, (Except.error.inj h).symm⟩

/-- Where there is nothing to fix after some passes, no later pass changes the source. -/
theorem afterPasses_of_fixFree (h : afterPasses check source k = .ok s) (hs : check s = .ok ds)
    (hfree : ds.any (·.isFixable) = false) (hn : k ≤ n) :
    afterPasses check source n = .ok s := by
  induction n, hn using Nat.le_induction with
  | base => exact h
  | succ n _ ih =>
    rw [afterPasses_succ_of_ok ih, pass_of_ok hs, proposedEdits_eq_nil_iff.mpr hfree,
      Edit.applyAll_nil]
    rfl

/-- Every source but the last of a sequence of passes was checked. -/
theorem exists_of_afterPasses_succ (h : afterPasses check source (k + 1) = .ok s) :
    ∃ s₀ ds, afterPasses check source k = .ok s₀ ∧ check s₀ = .ok ds := by
  obtain ⟨s₀, hs₀, hpass⟩ := bind_eq_ok.mp h
  obtain ⟨ds, hds, -⟩ := bind_eq_ok.mp hpass
  exact ⟨s₀, ds, hs₀, hds⟩

theorem exists_of_afterPasses_of_lt (h : afterPasses check source k = .ok s) {j : ℕ} (hj : j < k) :
    ∃ s₀ ds, afterPasses check source j = .ok s₀ ∧ check s₀ = .ok ds := by
  induction k generalizing s with
  | zero => omega
  | succ k ih =>
    obtain ⟨s₀, ds, hs₀, hds⟩ := exists_of_afterPasses_succ h
    rcases Nat.lt_succ_iff_lt_or_eq.mp hj with hj | rfl
    · exact ih hs₀ hj
    · exact ⟨s₀, ds, hs₀, hds⟩

/-- A conflict arises only where there was something to fix all along. -/
theorem fixableAfter_of_conflict {e : EditConflict} (h : afterPasses check source k = .ok s)
    (hs : check s = .ok ds) (hconflict : Edit.applyAll s (proposedEdits ds) = .error e) {j : ℕ}
    (hj : j ≤ k) : FixableAfter check source j := by
  have hchecked : ∃ s₀ ds₀, afterPasses check source j = .ok s₀ ∧ check s₀ = .ok ds₀ := by
    rcases Nat.lt_or_eq_of_le hj with hj | rfl
    · exact exists_of_afterPasses_of_lt h hj
    · exact ⟨s, ds, h, hs⟩
  obtain ⟨s₀, ds₀, hs₀, hds₀⟩ := hchecked
  refine ⟨s₀, ds₀, hs₀, hds₀, Bool.eq_true_of_not_eq_false fun hfree => ?_⟩
  -- otherwise the sources would be the same from there on, and no edits would be applied
  obtain rfl := Except.ok.inj (h.symm.trans (afterPasses_of_fixFree hs₀ hds₀ hfree hj))
  obtain rfl := Except.ok.inj (hs.symm.trans hds₀)
  rw [proposedEdits_eq_nil_iff.mpr hfree, Edit.applyAll_nil] at hconflict
  exact nomatch hconflict

/-- The loop ends at the first source with nothing to fix, at a failing check, at a conflict, or
at its limit. -/
theorem fixPasses_cases (check : Bytes → Except FileError (List Diagnostic)) (limit : PassLimit)
    (n : ℕ) (source : Bytes) (applied : ℕ) :
    (∃ k ≤ n, ∃ s ds, FirstFixFree check source k s ds ∧
      fixPasses check limit n source applied =
        .ok ⟨s, applied + ∑ j ∈ Finset.range k, editsAfter check source j, ds⟩) ∨
    (∃ s e, check s = .error e ∧ fixPasses check limit n source applied = .error e) ∨
    (∃ k < n, ∃ s ds e, afterPasses check source k = .ok s ∧ check s = .ok ds ∧
      Edit.applyAll s (proposedEdits ds) = .error e ∧
      fixPasses check limit n source applied = .error (.conflict e)) ∨
    ((∀ k ≤ n, FixableAfter check source k) ∧
      fixPasses check limit n source applied = .error (.notConverged limit)) := by
  by_cases hall : ∀ k ≤ n, FixableAfter check source k
  · obtain ⟨s, ds, hs, hds, hany⟩ := hall n le_rfl
    refine .inr (.inr (.inr ⟨hall, ?_⟩))
    rw [fixPasses_of_le le_rfl (fun j hj => hall j hj.le) hs, Nat.sub_self,
      fixPasses_zero_of_fixable hds hany]
  · classical
    push Not at hall
    obtain ⟨hk, hfree⟩ := Nat.find_spec hall
    have hbefore (j : ℕ) (hj : j < Nat.find hall) : FixableAfter check source j := by
      by_contra hno
      exact Nat.find_min hall hj ⟨hj.le.trans hk, hno⟩
    revert hk hfree hbefore
    generalize Nat.find hall = k
    intro hk hfree hbefore
    cases hs : afterPasses check source k with
    | ok s =>
      have hloop : fixPasses check limit n source applied = _ := fixPasses_of_le hk hbefore hs
      cases hds : check s with
      | ok ds =>
        have hnone : ds.any (·.isFixable) = false :=
          Bool.eq_false_of_not_eq_true fun hany => hfree ⟨s, ds, hs, hds, hany⟩
        exact .inl ⟨k, hk, s, ds, ⟨hs, hds, hnone, hbefore⟩,
          hloop.trans (fixPasses_of_fixFree hds hnone)⟩
      | error e => exact .inr (.inl ⟨s, e, hds, hloop.trans (fixPasses_of_error hds)⟩)
    | error e =>
      cases k with
      | zero => exact nomatch hs
      | succ k =>
        obtain ⟨s, ds, hs', hds, hany⟩ := hbefore k (Nat.lt_succ_self k)
        rw [afterPasses_succ_of_ok hs'] at hs
        obtain ⟨conflict, hconflict, rfl⟩ := exists_conflict_of_pass hds hs
        refine .inr (.inr (.inl ⟨k, hk, s, ds, conflict, hs', hds, hconflict, ?_⟩))
        rw [fixPasses_of_le (Nat.le_of_succ_le hk) (fun j hj => hbefore j (Nat.lt_succ_of_lt hj)) hs',
          show n - k = n - k - 1 + 1 by omega, fixPasses_succ_of_fixable hds hany, hs]
        rfl

theorem fixPasses_eq_ok_iff {r : Fixed} : fixPasses check limit n source applied = .ok r ↔
    ∃ k ≤ n, FirstFixFree check source k r.source r.remaining ∧
      r.applied = applied + ∑ j ∈ Finset.range k, editsAfter check source j := by
  constructor
  · intro h
    rcases fixPasses_cases check limit n source applied with
      ⟨k, hk, s, ds, hfirst, hr⟩ | ⟨s, e, -, hr⟩ | ⟨k, -, s, ds, e, -, -, -, hr⟩ | ⟨-, hr⟩
    · obtain rfl := Except.ok.inj (h.symm.trans hr)
      exact ⟨k, hk, hfirst, rfl⟩
    · exact nomatch h.symm.trans hr
    · exact nomatch h.symm.trans hr
    · exact nomatch h.symm.trans hr
  · rintro ⟨k, hk, hfirst, happlied⟩
    rw [fixPasses_of_le hk hfirst.before hfirst.reached,
      fixPasses_of_fixFree hfirst.checked hfirst.fixFree, ← happlied]

theorem fixPasses_eq_notConverged_iff
    (hcheck : ∀ s limit', check s ≠ .error (.notConverged limit')) {limit' : PassLimit} :
    fixPasses check limit n source applied = .error (.notConverged limit') ↔
      limit' = limit ∧ ∀ k ≤ n, FixableAfter check source k := by
  constructor
  · intro h
    rcases fixPasses_cases check limit n source applied with
      ⟨k, -, s, ds, -, hr⟩ | ⟨s, e, he, hr⟩ | ⟨k, -, s, ds, e, -, -, -, hr⟩ | ⟨hall, hr⟩
    · exact nomatch h.symm.trans hr
    · obtain rfl := Except.error.inj (h.symm.trans hr)
      exact absurd he (hcheck s limit')
    · exact nomatch h.symm.trans hr
    · cases Except.error.inj (h.symm.trans hr)
      exact ⟨rfl, hall⟩
  · rintro ⟨rfl, hall⟩
    obtain ⟨s, ds, hs, hds, hany⟩ := hall n le_rfl
    rw [fixPasses_of_le le_rfl (fun j hj => hall j hj.le) hs, Nat.sub_self,
      fixPasses_zero_of_fixable hds hany]

theorem fixPasses_eq_conflict_iff (hcheck : ∀ s e, check s ≠ .error (.conflict e))
    {e : EditConflict} : fixPasses check limit n source applied = .error (.conflict e) ↔
      ∃ k < n, ∃ s ds, afterPasses check source k = .ok s ∧ check s = .ok ds ∧
        Edit.applyAll s (proposedEdits ds) = .error e := by
  constructor
  · intro h
    rcases fixPasses_cases check limit n source applied with
      ⟨k, -, s, ds, -, hr⟩ | ⟨s, e', he, hr⟩ | ⟨k, hk, s, ds, e', hs, hds, he, hr⟩ | ⟨-, hr⟩
    · exact nomatch h.symm.trans hr
    · obtain rfl := Except.error.inj (h.symm.trans hr)
      exact absurd he (hcheck s e)
    · cases Except.error.inj (h.symm.trans hr)
      exact ⟨k, hk, s, ds, hs, hds, he⟩
    · exact nomatch h.symm.trans hr
  · rintro ⟨k, hk, s, ds, hs, hds, he⟩
    have hfix {j : ℕ} (hj : j ≤ k) := fixableAfter_of_conflict hs hds he hj
    obtain ⟨s', ds', hs', hds', hany⟩ := hfix le_rfl
    obtain rfl := Except.ok.inj (hs.symm.trans hs')
    obtain rfl := Except.ok.inj (hds.symm.trans hds')
    rw [fixPasses_of_le hk.le (fun j hj => hfix hj.le) hs, show n - k = n - k - 1 + 1 by omega,
      fixPasses_succ_of_fixable hds hany, pass_of_ok hds, he]
    rfl

/-! ## Fixing files and texts -/

variable {l : Linter} {language : Language} {path : Text}

/-- Checking a file fails by an undecodable comment, a failing check, or the settings. -/
theorem checkBytes_eq_error {e : FileError} (h : l.checkBytes language path source = .error e) :
    (∃ comment, e = .undecodableComment comment) ∨ (∃ failure, e = .check failure) ∨
      ∃ settings, e = .settings settings := by
  rcases bind_eq_error h with h | ⟨comments, -, h⟩
  · exact .inl (mapError_eq_error h)
  · rw [checkFile] at h
    rcases bind_eq_error h with h | ⟨sink, -, h⟩
    · exact .inr (.inl (mapError_eq_error h))
    · rcases bind_eq_error h with h | ⟨ds, -, h⟩
      · exact .inr (.inr (mapError_eq_error h))
      · exact nomatch h

def withPasses (l : Linter) (limit : PassLimit) : Linter :=
  { l with settings := { l.settings with passes := limit } }

theorem fixBytes_eq_ok_iff {r : Fixed} : l.fixBytes language path source = .ok r ↔
    ∃ k ≤ l.settings.passes.count,
      FirstFixFree (l.checkBytes language path) source k r.source r.remaining ∧
        r.applied = ∑ j ∈ Finset.range k, editsAfter (l.checkBytes language path) source j := by
  rw [fixBytes, fixPasses_eq_ok_iff]
  simp only [Nat.zero_add]

theorem fixBytes_eq_notConverged_iff {limit : PassLimit} :
    l.fixBytes language path source = .error (.notConverged limit) ↔
      limit = l.settings.passes ∧ ∀ k ≤ l.settings.passes.count,
        FixableAfter (l.checkBytes language path) source k := by
  refine fixPasses_eq_notConverged_iff fun s limit' h => ?_
  rcases checkBytes_eq_error h with ⟨_, h⟩ | ⟨_, h⟩ | ⟨_, h⟩ <;> exact nomatch h

/-- The limit of passes plays no role in checking. -/
theorem checkBytes_withPasses (l : Linter) (limit : PassLimit) :
    (l.withPasses limit).checkBytes = l.checkBytes := by
  have hignored (ds : List Diagnostic) :
      (l.withPasses limit).settings.withoutIgnored ds = l.settings.withoutIgnored ds := by
    induction ds with
    | nil => rfl
    | cons d ds ih =>
      rw [Settings.withoutIgnored, Settings.withoutIgnored, ih]
      rfl
  funext language path source
  simp only [checkBytes, checkFile, hignored]
  rfl

theorem fixBytes_withPasses {limit : PassLimit} (hlimit : l.settings.passes.count ≤ limit.count)
    {r : Fixed} (h : l.fixBytes language path source = .ok r) :
    (l.withPasses limit).fixBytes language path source = .ok r := by
  obtain ⟨k, hk, hfirst, happlied⟩ := fixBytes_eq_ok_iff.mp h
  rw [fixBytes_eq_ok_iff, checkBytes_withPasses]
  exact ⟨k, hk.trans hlimit, hfirst, happlied⟩

/-- A fixed file is not changed by fixing it again. -/
theorem fixBytes_of_fixed {r : Fixed} (h : l.fixBytes language path source = .ok r) :
    l.fixBytes language path r.source = .ok ⟨r.source, 0, r.remaining⟩ := by
  obtain ⟨k, -, hfirst, -⟩ := fixBytes_eq_ok_iff.mp h
  exact fixPasses_of_fixFree hfirst.checked hfirst.fixFree

theorem fixText_eq_ok_iff {t t' : Text} {applied : ℕ} : l.fixText path t = .ok (t', applied) ↔
    ∃ language r, languageOf path = .ok language ∧
      l.fixBytes language path (Text.utf8 t) = .ok r ∧ r.source = Text.utf8 t' ∧
      r.applied = applied := by
  constructor
  · intro h
    obtain ⟨language, hlanguage, h⟩ := bind_eq_ok.mp h
    obtain ⟨r, hr, h⟩ := bind_eq_ok.mp h
    obtain ⟨back, hback, h⟩ := bind_eq_ok.mp h
    obtain ⟨rfl, happlied⟩ := Prod.mk.inj (Except.ok.inj h)
    refine ⟨language, r, hlanguage, hr, ?_, happlied⟩
    unfold readBack at hback
    split at hback
    · next hread =>
      rw [← Except.ok.inj hback, Text.utf8_of_ofUtf8? hread]
    · exact nomatch hback
  · rintro ⟨language, r, hlanguage, hr, hsource, rfl⟩
    refine bind_eq_ok.mpr ⟨language, hlanguage, bind_eq_ok.mpr ⟨r, hr, bind_eq_ok.mpr ⟨t', ?_, rfl⟩⟩⟩
    rw [readBack, hsource, Text.ofUtf8?_utf8]

/-- The loop returns the first source with nothing to fix, with the edits of all passes before it
and its diagnostics. It fails to converge exactly when there is something to fix after every
number of passes up to the limit, and it meets a conflict exactly when a pass within the limit
does. So fixing is idempotent, and a higher limit changes no result. -/
theorem fixBytes_first_fixFree (l : Linter) :
    (∀ language path source r, l.fixBytes language path source = .ok r ↔
      ∃ k ≤ l.settings.passes.count,
        FirstFixFree (l.checkBytes language path) source k r.source r.remaining ∧
          r.applied = ∑ j ∈ Finset.range k, editsAfter (l.checkBytes language path) source j) ∧
    (∀ language path source limit,
      l.fixBytes language path source = .error (.notConverged limit) ↔
        limit = l.settings.passes ∧ ∀ k ≤ l.settings.passes.count,
          FixableAfter (l.checkBytes language path) source k) ∧
    (∀ language path source e, l.fixBytes language path source = .error (.conflict e) ↔
      ∃ k < l.settings.passes.count, ∃ s ds,
        afterPasses (l.checkBytes language path) source k = .ok s ∧
          l.checkBytes language path s = .ok ds ∧
          Edit.applyAll s (proposedEdits ds) = .error e) ∧
    (∀ path t t' applied, l.fixText path t = .ok (t', applied) →
      l.fixText path t' = .ok (t', 0)) ∧
    (∀ limit : PassLimit, l.settings.passes.count ≤ limit.count →
      (∀ language path source r, l.fixBytes language path source = .ok r →
        (l.withPasses limit).fixBytes language path source = .ok r) ∧
      ∀ path t r, l.fixText path t = .ok r → (l.withPasses limit).fixText path t = .ok r) := by
  refine ⟨fun _ _ _ _ => fixBytes_eq_ok_iff, fun _ _ _ _ => fixBytes_eq_notConverged_iff, ?_, ?_, ?_⟩
  · intro language path source e
    refine fixPasses_eq_conflict_iff fun s e' h => ?_
    rcases checkBytes_eq_error h with ⟨_, h⟩ | ⟨_, h⟩ | ⟨_, h⟩ <;> exact nomatch h
  · intro path t t' applied h
    obtain ⟨language, r, hlanguage, hr, hsource, -⟩ := fixText_eq_ok_iff.mp h
    have hagain := fixBytes_of_fixed hr
    rw [hsource] at hagain
    exact fixText_eq_ok_iff.mpr ⟨language, _, hlanguage, hagain, rfl, rfl⟩
  · intro limit hlimit
    refine ⟨fun _ _ _ _ h => fixBytes_withPasses hlimit h, fun path t ⟨t', applied⟩ h => ?_⟩
    obtain ⟨language, r, hlanguage, hr, hsource, happlied⟩ := fixText_eq_ok_iff.mp h
    exact fixText_eq_ok_iff.mpr
      ⟨language, r, hlanguage, fixBytes_withPasses hlimit hr, hsource, happlied⟩

/-- A note without a blank before it is repaired by one edit, and then there is nothing to do. -/
theorem fixText_repaired_note :
    (({} : Linter).fixText "a.py" "# lint:ignore A--b\n".toList =
        .ok ("# lint:ignore A -- b\n".toList, 1)) ∧
      ({} : Linter).fixText "a.py" "# lint:ignore A -- b\n".toList =
        .ok ("# lint:ignore A -- b\n".toList, 0) ∧
      (({} : Linter).withPasses (.number 20 (by decide))).fixText "a.py"
        "# lint:ignore A--b\n".toList = .ok ("# lint:ignore A -- b\n".toList, 1) := by
  have hfixed : ({} : Linter).fixText "a.py" "# lint:ignore A--b\n".toList =
      .ok ("# lint:ignore A -- b\n".toList, 1) := eq_ok_of_toOption (by decide +kernel)
  obtain ⟨-, -, -, hagain, hlimit⟩ := fixBytes_first_fixFree {}
  exact ⟨hfixed, hagain _ _ _ _ hfixed, (hlimit _ (by decide)).2 _ _ _ hfixed⟩

end Linter

end LintDirectives
