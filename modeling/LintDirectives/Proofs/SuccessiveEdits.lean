import LintDirectives.Proofs.EditConflicts
import Mathlib.Algebra.BigOperators.Group.Finset.Basic
import Mathlib.Algebra.Ring.Int.Defs

/-!
# One edit after the other

An edit changes no offset in front of its range, so edits that are applied one at a time, from the
last range to the first, always find their ranges where they were in the source. This gives what one
pass over the source gives. The order of ranges leaves no choice among edits that are applied
together, except between insertions at one place; where there is at most one at each place, the
result depends on the set of edits alone.
-/

namespace LintDirectives

namespace Edit

open Text

def replaceIn (source : Bytes) (e : Edit) : Bytes :=
  source.take e.start ++ utf8 e.text ++ source.drop e.stop

/-- By how many bytes an edit makes a source longer. -/
def growth (e : Edit) : ℤ :=
  (utf8 e.text).length - ((e.stop : ℤ) - e.start)

/-- No two different edits insert at one place. -/
def SingleInsertions (edits : List Edit) : Prop :=
  ∀ a ∈ edits, ∀ b ∈ edits, a.start = a.stop → b.start = b.stop → a.start = b.start → a = b

/-- A list holds the distinct edits of another one, the last range first. -/
structure LastToFirst (edits descending : List Edit) : Prop where
  nodup : descending.Nodup
  mem_iff : ∀ e, e ∈ descending ↔ e ∈ edits
  ordered : descending.Pairwise fun a b => rangeLe b a

variable {edits sorted : List Edit} {source before rest out : Bytes} {cursor : ℕ} {e : Edit}

/-! ## Splicing and single replacements -/

theorem replaceIn_append {old : Bytes} (hstart : before.length = e.start)
    (hstop : e.start + old.length = e.stop) (rest : Bytes) :
    replaceIn (before ++ (old ++ rest)) e = before ++ (utf8 e.text ++ rest) := by
  have hlength : e.stop = (before ++ old).length := by
    rw [List.length_append, hstart, hstop]
  have htake : (before ++ (old ++ rest)).take e.start = before := by
    rw [← hstart, List.take_left]
  have hdrop : (before ++ (old ++ rest)).drop e.stop = rest := by
    rw [← List.append_assoc, hlength, List.drop_left]
  rw [replaceIn, htake, hdrop, List.append_assoc]

/-- Splicing is to replace the ranges from the last to the first. -/
theorem foldr_replaceIn (hsorted : sorted.Pairwise fun a b => a.stop ≤ b.start)
    (hbefore : before.length = cursor) (hstart : ∀ e ∈ sorted, cursor ≤ e.start)
    (hstop : ∀ e ∈ sorted, e.stop ≤ cursor + rest.length) :
    sorted.foldr (fun e s => replaceIn s e) (before ++ rest) =
      before ++ splice cursor rest sorted := by
  induction sorted generalizing cursor before rest with
  | nil => rfl
  | cons e sorted ih =>
    obtain ⟨hbehind, hsorted⟩ := List.pairwise_cons.mp hsorted
    obtain ⟨kept, old, more, rfl, hkept, hold, hsplice⟩ :=
      exists_splice_cons (hstart e List.mem_cons_self) (hstop e List.mem_cons_self) sorted
    have hlength : (before ++ (kept ++ old)).length = e.stop := by
      simp only [List.length_append]
      omega
    -- the later ranges start behind this one, so its own bytes count as already passed for them
    have hlater : sorted.foldr (fun e s => replaceIn s e) ((before ++ (kept ++ old)) ++ more) =
        (before ++ (kept ++ old)) ++ splice e.stop more sorted := by
      refine ih hsorted hlength hbehind fun e' he' => ?_
      have hle := hstop e' (List.mem_cons_of_mem e he')
      simp only [List.length_append] at hle
      omega
    have hfront : (before ++ kept).length = e.start := by
      rw [List.length_append, hbefore, hkept]
    calc (e :: sorted).foldr (fun e s => replaceIn s e) (before ++ (kept ++ (old ++ more)))
        = replaceIn (sorted.foldr (fun e s => replaceIn s e)
            ((before ++ (kept ++ old)) ++ more)) e := by
          rw [List.foldr_cons]
          simp only [List.append_assoc]
      _ = replaceIn ((before ++ kept) ++ (old ++ splice e.stop more sorted)) e := by
          rw [hlater]
          simp only [List.append_assoc]
      _ = before ++ splice cursor (kept ++ (old ++ more)) (e :: sorted) := by
          rw [replaceIn_append hfront hold, hsplice]
          simp only [List.append_assoc]

theorem length_splice (hsorted : sorted.Pairwise fun a b => a.stop ≤ b.start)
    (hstart : ∀ e ∈ sorted, cursor ≤ e.start)
    (hstop : ∀ e ∈ sorted, e.stop ≤ cursor + rest.length) :
    ((splice cursor rest sorted).length : ℤ) = rest.length + (sorted.map growth).sum := by
  induction sorted generalizing cursor rest with
  | nil => simp [splice]
  | cons e sorted ih =>
    obtain ⟨hbehind, hsorted⟩ := List.pairwise_cons.mp hsorted
    obtain ⟨kept, old, more, rfl, hkept, hold, hsplice⟩ :=
      exists_splice_cons (hstart e List.mem_cons_self) (hstop e List.mem_cons_self) sorted
    have hinside : ∀ e' ∈ sorted, e'.stop ≤ e.stop + more.length := fun e' he' => by
      have hle := hstop e' (List.mem_cons_of_mem e he')
      simp only [List.length_append] at hle
      omega
    have hlater := ih hsorted hbehind hinside
    rw [hsplice, List.map_cons, List.sum_cons, growth]
    simp only [List.length_append]
    omega

/-! ## The order of edits -/

/-- Among edits that are applied together, the order of ranges tells any two apart. -/
theorem eq_of_rangeLe (hfree : firstOverlap? (ordered edits) = none)
    (hsingle : SingleInsertions edits) {a b : Edit} (ha : a ∈ edits) (hb : b ∈ edits)
    (hab : rangeLe a b) (hba : rangeLe b a) : a = b := by
  have hstart : a.start = b.start :=
    le_antisymm (start_le_of_rangeLe hab) (start_le_of_rangeLe hba)
  have hstop : a.stop = b.stop := by
    simp only [rangeLe, hstart, if_true, decide_eq_true_eq] at hab hba
    omega
  by_contra hne
  have hapart := not_overlaps_of_firstOverlap? hfree ha hb hne
  rw [overlaps_iff] at hapart
  have hrange := a.start_le_stop
  exact hne (hsingle a ha b hb (by omega) (by omega) hstart)

theorem lastToFirst_reverse_ordered (edits : List Edit) :
    LastToFirst edits (ordered edits).reverse where
  nodup := List.nodup_reverse.mpr (nodup_ordered edits)
  mem_iff _ := List.mem_reverse.trans mem_ordered
  ordered := List.pairwise_reverse.mpr (pairwise_rangeLe_ordered edits)

/-- There is one order from the last range to the first, whichever list the edits are given in. -/
theorem LastToFirst.eq_reverse_ordered {edits' descending : List Edit}
    (h : LastToFirst edits' descending) (hmem : ∀ e, e ∈ edits' ↔ e ∈ edits)
    (hfree : firstOverlap? (Edit.ordered edits) = none) (hsingle : SingleInsertions edits) :
    descending = (Edit.ordered edits).reverse := by
  have hordered := lastToFirst_reverse_ordered edits
  have hperm : descending.Perm (Edit.ordered edits).reverse := by
    refine (List.perm_ext_iff_of_nodup h.nodup hordered.nodup).mpr fun e => ?_
    rw [h.mem_iff, hordered.mem_iff, hmem]
  refine hperm.eq_of_pairwise (fun a b ha hb hab hba => ?_) h.ordered hordered.ordered
  exact eq_of_rangeLe hfree hsingle ((hmem a).mp ((h.mem_iff a).mp ha))
    ((hordered.mem_iff b).mp hb) hba hab

theorem ordered_congr {edits' : List Edit} (hmem : ∀ e, e ∈ edits' ↔ e ∈ edits)
    (hfree : firstOverlap? (ordered edits) = none) (hsingle : SingleInsertions edits) :
    ordered edits' = ordered edits :=
  List.reverse_injective
    ((lastToFirst_reverse_ordered edits').eq_reverse_ordered hmem hfree hsingle)

/-! ## One pass -/

theorem splice_of_applyAll (h : applyAll source edits = .ok out) :
    splice 0 source (ordered edits) = out := by
  unfold applyAll at h
  dsimp only at h
  split at h
  · exact nomatch h
  · split at h
    · split at h
      · exact nomatch h
      · exact Except.ok.inj h
    · next hempty =>
      rw [List.getLast?_eq_none_iff.mp hempty]
      exact Except.ok.inj h

/-- Edits that are applied in one pass, with at most one insertion at each place, give what they give
one at a time, the distinct edits taken from the last range to the first. The result is the same for
every list of the same edits, and its length is that of the source and what each edit adds. -/
theorem applyAll_eq_successive (h : applyAll source edits = .ok out)
    (hsingle : SingleInsertions edits) :
    (∃ descending, LastToFirst edits descending) ∧
    (∀ descending, LastToFirst edits descending → descending.foldl replaceIn source = out) ∧
    (∀ edits', (∀ e, e ∈ edits' ↔ e ∈ edits) → applyAll source edits' = .ok out) ∧
    (out.length : ℤ) = source.length + ∑ e ∈ edits.toFinset, e.growth := by
  obtain ⟨hfree, hinside⟩ := fits_of_applyAll h
  have hsplice := splice_of_applyAll h
  have hsorted := pairwise_of_firstOverlap?_eq_none (pairwise_rangeLe_ordered edits) hfree
  have hstop : ∀ e ∈ ordered edits, e.stop ≤ 0 + source.length := fun e he => by
    rw [Nat.zero_add]
    exact hinside e (mem_ordered.mp he)
  refine ⟨⟨_, lastToFirst_reverse_ordered edits⟩, ?_, ?_, ?_⟩
  · intro descending hdescending
    have hreplaced : (ordered edits).foldr (fun e s => replaceIn s e) ([] ++ source) =
        [] ++ splice 0 source (ordered edits) :=
      foldr_replaceIn hsorted rfl (fun e _ => Nat.zero_le _) hstop
    rw [hdescending.eq_reverse_ordered (fun _ => Iff.rfl) hfree hsingle, List.foldl_reverse]
    exact hreplaced.trans hsplice
  · intro edits' hmem
    rw [← h, applyAll, applyAll, ordered_congr hmem hfree hsingle]
  · have hsum : ((ordered edits).map growth).sum = ∑ e ∈ edits.toFinset, e.growth := by
      rw [← List.sum_toFinset _ (nodup_ordered edits)]
      congr 1
      ext e
      rw [List.mem_toFinset, List.mem_toFinset, mem_ordered]
    rw [← hsplice, length_splice hsorted (fun e _ => Nat.zero_le _) hstop, hsum]

private def insertion : Edit where
  start := 2
  stop := 2
  text := "é"

private def removal : Edit where
  start := 2
  stop := 3
  text := ""

private def replacement : Edit where
  start := 3
  stop := 5
  text := "cde"

/-- An insertion goes in front of a range that starts at its place, however often and wherever it
stands in the list. -/
theorem insertion_before_removal :
    applyAll (utf8 "ab-CDe") [replacement, insertion, removal, insertion] =
      .ok (utf8 "abécdee") ∧
    SingleInsertions [replacement, insertion, removal, insertion] ∧
    [replacement, removal, insertion].foldl replaceIn (utf8 "ab-CDe") = utf8 "abécdee" ∧
    applyAll (utf8 "ab-CDe") [insertion, removal, replacement] = .ok (utf8 "abécdee") := by
  have happly : applyAll (utf8 "ab-CDe") [replacement, insertion, removal, insertion] =
      .ok (utf8 "abécdee") := by cbv
  have hsingle : SingleInsertions [replacement, insertion, removal, insertion] := by
    unfold SingleInsertions
    decide
  obtain ⟨-, hsuccessive, hsame, -⟩ := applyAll_eq_successive happly hsingle
  have horder : LastToFirst [replacement, insertion, removal, insertion]
      [replacement, removal, insertion] := ⟨by decide, by grind, by decide⟩
  exact ⟨happly, hsingle, hsuccessive _ horder, hsame _ (by grind)⟩

end Edit

end LintDirectives
