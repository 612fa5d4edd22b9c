import LintDirectives.Proofs.EditSplicing
import Mathlib.Data.List.Permutation

/-!
# Which sets of edits are refused

Only neighbours in the order of ranges are compared, and only the last edit is held against the
length of the source. This is enough: an edit that does not overlap the next one ends where that one
starts, or before it, so the edits stand one behind the other and the last one reaches furthest.
Insertions at one place, which overlap nothing there, fit into this order as well.
-/

namespace LintDirectives

namespace Edit

variable {edits sorted : List Edit} {source : Bytes} {a b e last : Edit}

theorem overlaps_iff : a.overlaps b ↔ a.start < b.stop ∧ b.start < a.stop := by
  simp [overlaps]

theorem overlaps_comm (a b : Edit) : a.overlaps b = b.overlaps a :=
  Bool.and_comm _ _

/-- An edit that does not overlap a later one ends before it starts. -/
theorem stop_le_start_of_rangeLe (hle : rangeLe a b) (hfree : ¬ a.overlaps b) :
    a.stop ≤ b.start := by
  rw [overlaps_iff] at hfree
  have hb := b.start_le_stop
  unfold rangeLe at hle
  split at hle
  · -- with equal starts, both ranges are empty or the first one is
    have hstop := of_decide_eq_true hle
    omega
  · have hstart := of_decide_eq_true hle
    omega

/-- Where no neighbours overlap, the edits stand one behind the other. -/
theorem pairwise_of_firstOverlap?_eq_none (hsorted : sorted.Pairwise fun a b => rangeLe a b)
    (h : firstOverlap? sorted = none) : sorted.Pairwise fun a b => a.stop ≤ b.start := by
  fun_induction firstOverlap? sorted with
  | case1 => cases h
  | case2 a b rest hfree ih =>
    obtain ⟨hfirst, hsorted⟩ := List.pairwise_cons.mp hsorted
    have hrest := ih hsorted h
    have hab := stop_le_start_of_rangeLe (hfirst b List.mem_cons_self) hfree
    refine List.pairwise_cons.mpr ⟨fun c hc => ?_, hrest⟩
    rcases List.mem_cons.mp hc with rfl | hc
    · exact hab
    · have hbc := (List.pairwise_cons.mp hrest).1 c hc
      have hb := b.start_le_stop
      omega
  | case3 l hshort =>
    rcases l with - | ⟨a, - | ⟨b, rest⟩⟩
    · exact .nil
    · exact List.pairwise_singleton _ a
    · exact absurd rfl (hshort a b rest)

/-- What is found is an edit and a later one that it overlaps. -/
theorem sublist_of_firstOverlap? (h : firstOverlap? sorted = some (a, b)) :
    [a, b].Sublist sorted ∧ a.overlaps b := by
  fun_induction firstOverlap? sorted with
  | case1 c d rest hoverlap =>
    obtain ⟨rfl, rfl⟩ := Prod.mk.inj (Option.some.inj h)
    exact ⟨((List.nil_sublist rest).cons_cons _).cons_cons _, hoverlap⟩
  | case2 c d rest _ ih =>
    obtain ⟨hsub, hoverlap⟩ := ih h
    exact ⟨hsub.cons c, hoverlap⟩
  | case3 => cases h

/-- The last of edits that stand one behind the other reaches furthest. -/
theorem stop_le_of_getLast? (h : sorted.Pairwise fun a b => a.stop ≤ b.start)
    (hlast : sorted.getLast? = some last) (he : e ∈ sorted) : e.stop ≤ last.stop := by
  obtain ⟨before, rfl⟩ := List.getLast?_eq_some_iff.mp hlast
  rcases List.mem_append.mp he with he | he
  · have hle := (List.pairwise_append.mp h).2.2 e he last (by simp)
    exact hle.trans last.start_le_stop
  · rw [List.mem_singleton.mp he]

end Edit

/-- What a conflict says is true of the edits and the source: two different edits overlap, or no two
of them do and one reaches beyond the end of the source. -/
def EditConflict.IsAbout (source : Bytes) (edits : List Edit) : EditConflict → Prop
  | .overlap a b => a ∈ edits ∧ b ∈ edits ∧ a ≠ b ∧ a.overlaps b
  | .beyondEnd e length => (∀ a ∈ edits, ∀ b ∈ edits, a ≠ b → ¬ a.overlaps b) ∧
      e ∈ edits ∧ length = source.length ∧ length < e.stop

namespace Edit

variable {edits : List Edit} {source : Bytes}

/-- No two different edits of a set overlap if its order shows no overlap. -/
theorem not_overlaps_of_firstOverlap? (h : firstOverlap? (ordered edits) = none) {a b : Edit}
    (ha : a ∈ edits) (hb : b ∈ edits) (hne : a ≠ b) : ¬ a.overlaps b := by
  have hpairwise := pairwise_of_firstOverlap?_eq_none (pairwise_rangeLe_ordered edits) h
  have hapart : (ordered edits).Pairwise fun a b => ¬ a.overlaps b := by
    refine hpairwise.imp fun {a b} hle => ?_
    rw [overlaps_iff]
    omega
  have : Std.Symm fun a b : Edit => ¬ a.overlaps b := ⟨fun a b h => by rwa [overlaps_comm]⟩
  exact hapart.forall (mem_ordered.mpr ha) (mem_ordered.mpr hb) hne

theorem isAbout_of_applyAll {c : EditConflict} (h : applyAll source edits = .error c) :
    c.IsAbout source edits := by
  unfold applyAll at h
  dsimp only at h
  split at h
  · next a b hfound =>
    cases h
    obtain ⟨hsub, hoverlap⟩ := sublist_of_firstOverlap? hfound
    have hne : a ≠ b := by
      have hnodup := (nodup_ordered edits).sublist hsub
      simpa using hnodup
    exact ⟨mem_ordered.mp (hsub.subset (by simp)), mem_ordered.mp (hsub.subset (by simp)), hne,
      hoverlap⟩
  · next hnone =>
    split at h
    · next last hlast =>
      split at h
      · next hbeyond =>
        cases h
        exact ⟨fun a ha b hb hne => not_overlaps_of_firstOverlap? hnone ha hb hne,
          mem_ordered.mp (List.mem_of_getLast? hlast), rfl, hbeyond⟩
      · exact nomatch h
    · exact nomatch h

theorem fits_of_applyAll {out : Bytes} (h : applyAll source edits = .ok out) :
    firstOverlap? (ordered edits) = none ∧ ∀ e ∈ edits, e.stop ≤ source.length := by
  unfold applyAll at h
  dsimp only at h
  split at h
  · exact nomatch h
  · next hnone =>
    refine ⟨hnone, fun e he => ?_⟩
    have hpairwise := pairwise_of_firstOverlap?_eq_none (pairwise_rangeLe_ordered edits) hnone
    split at h
    · next last hlast =>
      split at h
      · exact nomatch h
      · next hinside =>
        have hle := stop_le_of_getLast? hpairwise hlast (mem_ordered.mpr he)
        omega
    · next hempty =>
      rw [← mem_ordered, List.getLast?_eq_none_iff.mp hempty] at he
      exact absurd he List.not_mem_nil

/-- Edits are refused exactly when two different ones of them overlap, neighbours or not, or when one
of them ends beyond the source; and the conflict that is reported is one of these. -/
theorem applyAll_conflict_iff (source : Bytes) (edits : List Edit) :
    ((∃ c, applyAll source edits = .error c) ↔
      (∃ a ∈ edits, ∃ b ∈ edits, a ≠ b ∧ a.overlaps b) ∨
        ∃ e ∈ edits, source.length < e.stop) ∧
    ∀ c, applyAll source edits = .error c → c.IsAbout source edits := by
  refine ⟨⟨?_, ?_⟩, fun c => isAbout_of_applyAll⟩
  · rintro ⟨c, hc⟩
    have habout := isAbout_of_applyAll hc
    cases c with
    | overlap a b =>
      obtain ⟨ha, hb, hne, hoverlap⟩ := habout
      exact .inl ⟨a, ha, b, hb, hne, hoverlap⟩
    | beyondEnd e length =>
      obtain ⟨-, he, rfl, hbeyond⟩ := habout
      exact .inr ⟨e, he, hbeyond⟩
  · intro hbad
    cases happly : applyAll source edits with
    | error c => exact ⟨c, rfl⟩
    | ok out =>
      obtain ⟨hnone, hinside⟩ := fits_of_applyAll happly
      rcases hbad with ⟨a, ha, b, hb, hne, hoverlap⟩ | ⟨e, he, hbeyond⟩
      · exact absurd hoverlap (not_overlaps_of_firstOverlap? hnone ha hb hne)
      · have hle := hinside e he
        omega

private def enclosing : Edit where
  start := 0
  stop := 5
  text := "a"

private def enclosed (start : ℕ) : Edit where
  start := start
  stop := start + 1
  text := "b"

/-- An edit is refused with one inside of its range that is not next to it, and the conflict names
the one that is. -/
theorem applyAll_enclosing_refused :
    (enclosing ≠ enclosed 3 ∧ enclosing.overlaps (enclosed 3)) ∧
    (∃ c, applyAll (Text.utf8 "source") [enclosed 3, enclosing, enclosed 1] = .error c) ∧
    (EditConflict.overlap enclosing (enclosed 1)).IsAbout (Text.utf8 "source")
      [enclosed 3, enclosing, enclosed 1] := by
  obtain ⟨hiff, habout⟩ :=
    applyAll_conflict_iff (Text.utf8 "source") [enclosed 3, enclosing, enclosed 1]
  have hpair : enclosing ≠ enclosed 3 ∧ enclosing.overlaps (enclosed 3) := by decide
  refine ⟨hpair, hiff.mpr ?_, habout _ ?_⟩
  · exact .inl ⟨enclosing, by simp, enclosed 3, by simp, hpair.1, hpair.2⟩
  · cbv

end Edit

end LintDirectives
