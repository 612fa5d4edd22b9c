import LintDirectives.Edit
import LintDirectives.Proofs.EncodedTexts
import LintDirectives.Proofs.KeyedGroups
import Mathlib.Data.List.Infix
import Mathlib.Data.List.Pairwise

/-!
# Edits of separate ranges

Edits of non-empty ranges that share no byte can always be applied together. Sorting puts them one
behind the other, and then the result is read off the source byte by byte: a byte in no range stays,
and a range gives way to the text of its edit. If every range holds a text in UTF-8, a source in
UTF-8 stays one.
-/

namespace LintDirectives.Edit

open Text

/-! ## Separate edits in order -/

/-- Two edits are the same, or their ranges stand one behind the other. -/
def Apart (e e' : Edit) : Prop := e = e' ∨ e.stop ≤ e'.start ∨ e'.stop ≤ e.start

instance : Std.Symm Apart := ⟨fun _ _ h => h.imp Eq.symm Or.symm⟩

/-- Edits of non-empty ranges of a source with a number of bytes, no two of which share a byte. -/
structure Separate (length : ℕ) (edits : List Edit) : Prop where
  nonempty : ∀ e ∈ edits, e.start < e.stop
  inside : ∀ e ∈ edits, e.stop ≤ length
  apart : ∀ e ∈ edits, ∀ e' ∈ edits, Apart e e'

variable {edits sorted : List Edit} {source rest out : Bytes} {cursor length : ℕ} {e : Edit}

theorem Separate.of_subset (h : Separate length edits) (hsub : sorted ⊆ edits) :
    Separate length sorted where
  nonempty e he := h.nonempty e (hsub he)
  inside e he := h.inside e (hsub he)
  apart e he e' he' := h.apart e (hsub he) e' (hsub he')

theorem Separate.of_pairwise (h : edits.Pairwise fun e e' => e.stop ≤ e'.start)
    (hnonempty : ∀ e ∈ edits, e.start < e.stop) (hinside : ∀ e ∈ edits, e.stop ≤ length) :
    Separate length edits := by
  have hapart : edits.Pairwise Apart := h.imp fun hle => .inr (.inl hle)
  exact ⟨hnonempty, hinside, fun e he e' he' =>
    hapart.forall_of_forall (fun _ _ => .inl rfl) he he'⟩

theorem mem_ordered : e ∈ ordered edits ↔ e ∈ edits := by
  rw [ordered, List.mem_mergeSort, List.mem_eraseDups]

theorem start_le_of_rangeLe {a b : Edit} (h : rangeLe a b) : a.start ≤ b.start := by
  unfold rangeLe at h
  split at h
  · next heq => exact heq.le
  · exact of_decide_eq_true h

/-- The distinct edits stand in the order of their ranges. -/
theorem pairwise_rangeLe_ordered (edits : List Edit) :
    (ordered edits).Pairwise fun a b => rangeLe a b := by
  have htrans (a b c : Edit) (hab : rangeLe a b) (hbc : rangeLe b c) : rangeLe a c := by
    simp only [rangeLe] at hab hbc ⊢
    split at hab <;> split at hbc <;> split <;>
      simp only [decide_eq_true_eq] at hab hbc ⊢ <;> omega
  have htotal (a b : Edit) : (rangeLe a b || rangeLe b a) = true := by
    simp only [rangeLe, Bool.or_eq_true]
    split <;> split <;> simp only [decide_eq_true_eq] <;> omega
  exact List.pairwise_mergeSort htrans htotal _

theorem nodup_ordered (edits : List Edit) : (ordered edits).Nodup :=
  (List.mergeSort_perm _ _).nodup_iff.mpr (KeyedList.nodup_eraseDups edits)

theorem pairwise_ordered (edits : List Edit) :
    (ordered edits).Pairwise fun a b => a.start ≤ b.start ∧ a ≠ b := by
  have hboth := (pairwise_rangeLe_ordered edits).and (nodup_ordered edits)
  exact hboth.imp fun h => ⟨start_le_of_rangeLe h.1, h.2⟩

/-- In the order of their ranges, separate edits stand one behind the other. -/
theorem Separate.pairwise_ordered (h : Separate length edits) :
    (ordered edits).Pairwise fun a b => a.stop ≤ b.start := by
  refine (Edit.pairwise_ordered edits).imp_of_mem fun {a b} ha hb hab => ?_
  rw [mem_ordered] at ha hb
  rcases h.apart a ha b hb with heq | hle | hle
  · exact absurd heq hab.2
  · exact hle
  · have hpos := h.nonempty b hb
    omega

theorem firstOverlap?_eq_none (h : sorted.Pairwise fun a b => a.stop ≤ b.start) :
    firstOverlap? sorted = none := by
  fun_induction firstOverlap? sorted with
  | case1 a b rest hoverlap =>
    have hab := (List.pairwise_cons.mp h).1 b List.mem_cons_self
    simp only [overlaps, Bool.and_eq_true, decide_eq_true_eq] at hoverlap
    omega
  | case2 a b rest _ ih => exact ih (List.pairwise_cons.mp h).2
  | case3 => rfl

/-- Separate edits are applied by splicing them in order. -/
theorem Separate.applyAll_eq (h : Separate source.length edits) :
    applyAll source edits = .ok (splice 0 source (ordered edits)) := by
  rw [applyAll, firstOverlap?_eq_none h.pairwise_ordered]
  dsimp only
  split
  · next last hlast =>
    have hinside := h.inside last (mem_ordered.mp (List.mem_of_getLast? hlast))
    rw [if_neg (by omega)]
  · next hnil =>
    rw [List.getLast?_eq_none_iff.mp hnil]
    rfl

/-! ## What becomes of each byte -/

/-- A source from an offset on, and what edits make of it: a byte in none of the ranges is kept, and
the bytes of a range are replaced by the text of its edit. -/
inductive Rewritten (edits : List Edit) : ℕ → Bytes → Bytes → Prop where
  | done (offset : ℕ) : Rewritten edits offset [] []
  | keep {offset : ℕ} {b : UInt8} {rest out : Bytes}
      (hfree : ∀ e ∈ edits, ¬ (e.start ≤ offset ∧ offset < e.stop))
      (h : Rewritten edits (offset + 1) rest out) : Rewritten edits offset (b :: rest) (b :: out)
  | replace {e : Edit} {old rest out : Bytes} (he : e ∈ edits)
      (hlength : e.start + old.length = e.stop) (h : Rewritten edits e.stop rest out) :
      Rewritten edits e.start (old ++ rest) (utf8 e.text ++ out)

theorem Rewritten.keep_append {kept : Bytes} (h : Rewritten edits (cursor + kept.length) rest out)
    (hfree : ∀ e ∈ edits, e.stop ≤ cursor ∨ cursor + kept.length ≤ e.start) :
    Rewritten edits cursor (kept ++ rest) (kept ++ out) := by
  induction kept generalizing cursor with
  | nil => simpa using h
  | cons b kept ih =>
    have hlength : cursor + (b :: kept).length = cursor + 1 + kept.length := by
      simp
      omega
    rw [hlength] at h hfree
    refine .keep ?_ (ih h ?_)
    · intro e he
      have := hfree e he
      omega
    · intro e he
      have := hfree e he
      omega

theorem eq_append_range (hstart : cursor ≤ e.start) (rest : Bytes) :
    rest = rest.take (e.start - cursor) ++
      ((rest.drop (e.start - cursor)).take (e.stop - e.start) ++ rest.drop (e.stop - cursor)) := by
  have hrange := e.start_le_stop
  have hdrop : (rest.drop (e.start - cursor)).drop (e.stop - e.start) =
      rest.drop (e.stop - cursor) := by
    rw [List.drop_drop]
    congr 1
    omega
  rw [← hdrop, List.take_append_drop, List.take_append_drop]

/-- Splicing cuts a source around the first range and goes on behind it. -/
theorem exists_splice_cons (hstart : cursor ≤ e.start) (hstop : e.stop ≤ cursor + rest.length)
    (sorted : List Edit) :
    ∃ kept old more, rest = kept ++ (old ++ more) ∧ cursor + kept.length = e.start ∧
      e.start + old.length = e.stop ∧
      splice cursor rest (e :: sorted) = kept ++ (utf8 e.text ++ splice e.stop more sorted) := by
  have hrange := e.start_le_stop
  refine ⟨_, _, _, eq_append_range hstart rest, ?_, ?_, ?_⟩
  · rw [List.length_take]
    omega
  · rw [List.length_take, List.length_drop]
    omega
  · rw [splice, List.append_assoc]

/-- Splicing replaces the ranges of increasing edits and keeps all other bytes. -/
theorem rewritten_splice (hsorted : sorted.Pairwise fun a b => a.stop ≤ b.start)
    (hstart : ∀ e ∈ sorted, cursor ≤ e.start) (hstop : ∀ e ∈ sorted, e.stop ≤ cursor + rest.length)
    (hedits : ∀ e, e ∈ edits → e ∈ sorted ∨ e.stop ≤ cursor) (hsub : sorted ⊆ edits) :
    Rewritten edits cursor rest (splice cursor rest sorted) := by
  induction sorted generalizing cursor rest with
  | nil =>
    have hkept : Rewritten edits cursor (rest ++ []) (rest ++ []) :=
      .keep_append (.done _) fun e he => .inl ((hedits e he).resolve_left (by simp))
    simpa [splice] using hkept
  | cons e sorted ih =>
    obtain ⟨hbehind, hsorted⟩ := List.pairwise_cons.mp hsorted
    have hrange := e.start_le_stop
    obtain ⟨kept, old, more, rfl, hkept, hold, hsplice⟩ :=
      exists_splice_cons (hstart e List.mem_cons_self) (hstop e List.mem_cons_self) sorted
    simp only [List.length_append] at hstop
    rw [hsplice]
    refine Rewritten.keep_append ?_ ?_
    · rw [hkept]
      refine .replace (hsub List.mem_cons_self) hold (ih hsorted hbehind ?_ ?_ ?_)
      · intro e' he'
        have hinside := hstop e' (List.mem_cons_of_mem e he')
        omega
      · intro e' he'
        rcases hedits e' he' with hmem | hbefore
        · rcases List.mem_cons.mp hmem with rfl | hmem
          · exact .inr le_rfl
          · exact .inl hmem
        · exact .inr (by omega)
      · exact fun e' he' => hsub (List.mem_cons_of_mem e he')
    · intro e' he'
      rcases hedits e' he' with hmem | hbefore
      · rcases List.mem_cons.mp hmem with rfl | hmem
        · exact .inr hkept.le
        · have := hbehind e' hmem
          exact .inr (by omega)
      · exact .inl hbefore

/-- Separate edits leave no choice at any byte. -/
theorem Rewritten.unique (h : Separate length edits) {out' : Bytes}
    (hout : Rewritten edits cursor rest out) (hout' : Rewritten edits cursor rest out') :
    out = out' := by
  induction hout generalizing out' with
  | done offset =>
    generalize hnil : ([] : Bytes) = empty at hout'
    cases hout' with
    | done => rfl
    | keep => simp at hnil
    | @replace e old _ _ he hlength _ =>
      have hpos := h.nonempty e he
      obtain rfl : old = [] := (List.append_eq_nil_iff.mp hnil.symm).1
      simp only [List.length_nil] at hlength
      omega
  | @keep offset b rest out hfree _ ih =>
    generalize hsource : b :: rest = source at hout'
    cases hout' with
    | done => simp at hsource
    | keep _ hrest' =>
      obtain ⟨rfl, rfl⟩ := List.cons.inj hsource
      rw [ih hrest']
    | @replace e _ _ _ he =>
      exact absurd ⟨le_rfl, h.nonempty e he⟩ (hfree e he)
  | @replace e old rest out he hlength _ ih =>
    generalize hsource : old ++ rest = source at hout'
    generalize hoffset : e.start = offset at hout'
    cases hout' with
    | done =>
      have hpos := h.nonempty e he
      obtain rfl : old = [] := (List.append_eq_nil_iff.mp hsource).1
      simp only [List.length_nil] at hlength
      omega
    | keep hfree _ => exact absurd ⟨hoffset.le, hoffset ▸ h.nonempty e he⟩ (hfree e he)
    | @replace e' old' rest' out' he' hlength' hrest' =>
      have hpos := h.nonempty e he
      have hpos' := h.nonempty e' he'
      obtain rfl : e = e' := by
        rcases h.apart e he e' he' with heq | hle | hle
        · exact heq
        · omega
        · omega
      obtain ⟨-, rfl⟩ := List.append_inj hsource (by omega)
      rw [ih hrest']

/-- Applying separate edits succeeds, with the one result that the edits prescribe. -/
theorem Separate.exists_applyAll (h : Separate source.length edits) :
    ∃ result, applyAll source edits = .ok result ∧
      ∀ out, Rewritten edits 0 source out ↔ out = result := by
  have hspliced : Rewritten edits 0 source (splice 0 source (ordered edits)) := by
    refine rewritten_splice h.pairwise_ordered (fun e _ => Nat.zero_le _) ?_ ?_ ?_
    · intro e he
      rw [Nat.zero_add]
      exact h.inside e (mem_ordered.mp he)
    · exact fun e he => .inl (mem_ordered.mpr he)
    · exact fun e he => mem_ordered.mp he
  refine ⟨_, h.applyAll_eq, fun out => ?_⟩
  constructor
  · exact fun hout => hout.unique h hspliced
  · rintro rfl
    exact hspliced

/-! ## Sources in UTF-8 -/

/-- Replacing encoded texts by other ones keeps a source encoded. -/
theorem isEncoded_splice (hsorted : sorted.Pairwise fun a b => a.stop ≤ b.start)
    (hstart : ∀ e ∈ sorted, cursor ≤ e.start)
    (htexts : ∀ e ∈ sorted, ∃ v, v ≠ [] ∧
      (rest.drop (e.start - cursor)).take (e.stop - e.start) = utf8 v)
    (hrest : IsEncoded rest) : IsEncoded (splice cursor rest sorted) := by
  induction sorted generalizing cursor rest with
  | nil => exact hrest
  | cons e sorted ih =>
    obtain ⟨hbehind, hsorted⟩ := List.pairwise_cons.mp hsorted
    obtain ⟨v, hv, hold⟩ := htexts e List.mem_cons_self
    obtain ⟨t, ht⟩ := hrest
    have hfirst := hstart e List.mem_cons_self
    have hrange := e.start_le_stop
    have hsplit : utf8 t = rest.take (e.start - cursor) ++
        (utf8 v ++ rest.drop (e.stop - cursor)) := by
      rw [← ht, ← hold]
      exact eq_append_range hfirst rest
    obtain ⟨hbefore, hafter⟩ := isEncoded_around hsplit hv
    refine (hbefore.append ⟨e.text, rfl⟩).append (ih hsorted hbehind ?_ hafter)
    intro e' he'
    obtain ⟨v', hv', hold'⟩ := htexts e' (List.mem_cons_of_mem e he')
    refine ⟨v', hv', ?_⟩
    have hle := hbehind e' he'
    rw [← hold', List.drop_drop]
    congr 2
    omega

end LintDirectives.Edit
