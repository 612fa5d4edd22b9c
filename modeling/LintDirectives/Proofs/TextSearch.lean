import LintDirectives.Text
import Mathlib.Data.List.Infix

/-!
# Finding and replacing parts of a text

Cutting a text finds the leftmost occurrence of a mark, and it fails exactly when there is none.
Replacing every occurrence of a mark goes through the text once from the left; the induction
principle `replaceAll_induction` follows that scan.
-/

namespace LintDirectives.Text

variable {mark t before after : Text}

theorem isPrefixOf?_eq_some_iff {rest : Text} :
    mark.isPrefixOf? t = some rest ↔ t = mark ++ rest := by
  rw [List.isPrefixOf?_eq_some_iff_append_eq, eq_comm]

@[simp] theorem isPrefixOf?_append_self (mark rest : Text) :
    mark.isPrefixOf? (mark ++ rest) = some rest :=
  isPrefixOf?_eq_some_iff.mpr rfl

theorem isPrefixOf?_eq_none_iff : mark.isPrefixOf? t = none ↔ ¬ mark <+: t := by
  rw [Option.eq_none_iff_forall_not_mem]
  constructor
  · rintro h ⟨rest, rfl⟩
    exact h rest (isPrefixOf?_append_self mark rest)
  · intro h rest hrest
    exact h ⟨rest, (isPrefixOf?_eq_some_iff.mp hrest).symm⟩

/-- An initial part of two texts one after the other ends in the first or in the second. -/
theorem isPrefix_append_cases {p a b : Text} (h : p <+: a ++ b) :
    p <+: a ∨ ∃ q, q <+: b ∧ p = a ++ q := by
  rcases List.prefix_or_prefix_of_prefix h (List.prefix_append a b) with hp | ⟨q, rfl⟩
  · exact .inl hp
  · exact .inr ⟨q, (List.prefix_append_right_inj a).mp h, rfl⟩

/-- An initial part without a certain character ends before that character. -/
theorem isPrefix_of_append_cons {p a b : Text} {c : Char} (hc : c ∉ p) (h : p <+: a ++ c :: b) :
    p <+: a := by
  rcases isPrefix_append_cases h with h | ⟨q, hq, rfl⟩
  · exact h
  · cases q with
    | nil => simp
    | cons d q => exact absurd (by simp [(List.cons_prefix_cons.mp hq).1]) hc

/-- A part that starts with a certain character starts behind a text without that character. -/
theorem infix_append_of_not_mem {part a b : Text} {c : Char} (ha : c ∉ a)
    (h : c :: part <:+: a ++ b) : c :: part <:+: b := by
  induction a with
  | nil => exact h
  | cons d a ih =>
    simp only [List.mem_cons, not_or] at ha
    rcases List.infix_cons_iff.mp h with h | h
    · exact absurd (List.cons_prefix_cons.mp h).1 ha.1
    · exact ih ha.2 h

theorem suffix_append_of_not_mem {part a b : Text} {c : Char} (ha : c ∉ a)
    (h : c :: part <:+ a ++ b) : c :: part <:+ b := by
  induction a with
  | nil => exact h
  | cons d a ih =>
    simp only [List.mem_cons, not_or] at ha
    rcases List.suffix_cons_iff.mp h with h | h
    · exact absurd (List.cons.inj h).1 ha.1
    · exact ih ha.2 h

/-- A part without a certain character lies on one side of that character. -/
theorem infix_append_cons_iff {part a b : Text} {c : Char} (hc : c ∉ part) :
    part <:+: a ++ c :: b ↔ part <:+: a ∨ part <:+: b := by
  constructor
  · intro h
    rcases List.infix_append_iff.mp h with h | h | ⟨left, right, rfl, hleft, hright⟩
    · exact .inl h
    · rcases List.infix_cons_iff.mp h with h | h
      · cases part with
        | nil => exact .inl List.nil_infix
        | cons d part => exact absurd (List.cons_prefix_cons.mp h).1 fun e => hc (by simp [e])
      · exact .inr h
    · cases right with
      | nil => exact .inl (by simpa using hleft.isInfix)
      | cons d right =>
        exact absurd (List.cons_prefix_cons.mp hright).1 fun e => hc (by simp [e])
  · rintro (h | h)
    · exact List.infix_append_of_infix_left h
    · exact List.infix_append_of_infix_right (List.infix_cons h)

/-! ## Cutting at the first occurrence -/

theorem eq_append_of_cut? (h : cut? mark t = some (before, after)) :
    t = before ++ mark ++ after := by
  induction t generalizing before with
  | nil =>
    simp only [cut?, Option.ite_none_right_eq_some, List.isEmpty_iff, Option.some.injEq,
      Prod.mk.injEq] at h
    obtain ⟨rfl, rfl, rfl⟩ := h
    rfl
  | cons c t ih =>
    rw [cut?] at h
    split at h
    · next rest hp =>
      cases h
      exact isPrefixOf?_eq_some_iff.mp hp
    · obtain ⟨⟨b, a⟩, hcut, heq⟩ := Option.map_eq_some_iff.mp h
      cases heq
      simp [ih hcut]

theorem cut?_isSome_of_isInfix (h : mark <:+: t) : (cut? mark t).isSome := by
  induction t with
  | nil => simp [cut?, List.infix_nil.mp h]
  | cons c t ih =>
    rw [cut?]
    split
    · rfl
    · next hp =>
      rw [isPrefixOf?_eq_none_iff] at hp
      have ht : mark <:+: t := (List.infix_cons_iff.mp h).resolve_left hp
      simpa using ih ht

theorem occursIn_iff {part whole : Text} : occursIn part whole ↔ part <:+: whole := by
  constructor
  · intro h
    obtain ⟨⟨before, after⟩, hcut⟩ := Option.isSome_iff_exists.mp h
    exact ⟨before, after, (eq_append_of_cut? hcut).symm⟩
  · exact cut?_isSome_of_isInfix

/-- No occurrence starts before the one at which a text is cut. -/
theorem length_le_of_cut? (h : cut? mark t = some (before, after)) {x : Text}
    (hx : x ++ mark <+: t) : before.length ≤ x.length := by
  induction t generalizing before x with
  | nil =>
    simp only [cut?, Option.ite_none_right_eq_some, Option.some.injEq, Prod.mk.injEq] at h
    simp [← h.2.1]
  | cons c t ih =>
    rw [cut?] at h
    split at h
    · cases h
      simp
    · next hp =>
      rw [isPrefixOf?_eq_none_iff] at hp
      obtain ⟨⟨b, a⟩, hcut, heq⟩ := Option.map_eq_some_iff.mp h
      cases heq
      cases x with
      | nil => exact absurd hx hp
      | cons d x =>
        have hx' : x ++ mark <+: t := (List.cons_prefix_cons.mp hx).2
        simpa using ih hcut hx'

/-- A text is cut at the occurrence that no other one precedes. -/
theorem cut?_append (h : ∀ x, x ++ mark <+: before ++ mark ++ after → before.length ≤ x.length) :
    cut? mark (before ++ mark ++ after) = some (before, after) := by
  obtain ⟨⟨b, a⟩, hcut⟩ := Option.isSome_iff_exists.mp
    (cut?_isSome_of_isInfix ⟨before, after, rfl⟩)
  have heq := eq_append_of_cut? hcut
  have hlen : before.length = b.length := le_antisymm
    (h b ⟨a, heq.symm⟩) (length_le_of_cut? hcut ⟨after, rfl⟩)
  rw [List.append_assoc, List.append_assoc] at heq
  obtain ⟨rfl, htail⟩ := List.append_inj heq hlen
  rw [hcut, List.append_cancel_left htail]

/-- What follows a text in which a mark occurs does not move the cut. -/
theorem cut?_append_right (h : cut? mark t = some (before, after)) (more : Text) :
    cut? mark (t ++ more) = some (before, after ++ more) := by
  have ht : t ++ more = before ++ mark ++ (after ++ more) := by
    rw [eq_append_of_cut? h]
    simp
  rw [ht]
  refine cut?_append fun x hx => ?_
  by_contra hlt
  rw [← ht] at hx
  -- an earlier occurrence would end inside the text itself
  have hlen := congrArg List.length (eq_append_of_cut? h)
  simp only [List.length_append] at hlen
  have hinside : x ++ mark <+: t :=
    List.prefix_of_prefix_length_le hx (List.prefix_append t more) (by simp; omega)
  exact hlt (length_le_of_cut? h hinside)

/-- A mark is found behind a text that lacks its first character. -/
theorem cut?_append_left {a : Char} {tail : Text} (hmark : mark = a :: tail) (hbefore : a ∉ before)
    (after : Text) : cut? mark (before ++ mark ++ after) = some (before, after) := by
  refine cut?_append fun x hx => ?_
  by_contra hlt
  have hshort : x ++ [a] <+: before := by
    refine List.prefix_of_prefix_length_le (List.IsPrefix.trans ?_ hx)
      (List.append_assoc before mark after ▸ List.prefix_append before _) (by simp; omega)
    exact ⟨tail, by simp [hmark]⟩
  exact hbefore (hshort.subset (by simp))

theorem cut?_singleton (c : Char) (t : Text) : cut? [c] t =
    if c ∈ t then some (t.takeWhile (· ≠ c), (t.dropWhile (· ≠ c)).tail) else none := by
  induction t with
  | nil => rfl
  | cons a t ih =>
    by_cases ha : a = c
    · subst ha
      simp [cut?, List.isPrefixOf?]
    · have hca : c ≠ a := Ne.symm ha
      rw [cut?, ih]
      by_cases hc : c ∈ t <;> simp [List.isPrefixOf?, ha, hca, hc]

/-! ## Replacing every occurrence -/

private theorem replaceFrom_eq_drop (old new : Text) (k : ℕ) (t : Text) :
    replaceFrom old new k t = replaceFrom old new 0 (t.drop k) := by
  induction t generalizing k with
  | nil => cases k <;> simp [replaceFrom]
  | cons c t ih =>
    cases k with
    | zero => rfl
    | succ k => simpa [replaceFrom] using ih k

@[simp] theorem replaceAll_nil (old new : Text) : replaceAll old new [] = [] := rfl

theorem replaceAll_append_mark {old : Text} (hold : old ≠ []) (new rest : Text) :
    replaceAll old new (old ++ rest) = new ++ replaceAll old new rest := by
  obtain ⟨c, tail, rfl⟩ := List.exists_cons_of_ne_nil hold
  have hp : (c :: tail).isPrefixOf (c :: (tail ++ rest)) := by
    simp
  rw [replaceAll, List.cons_append, replaceFrom, if_pos hp, replaceFrom_eq_drop]
  simp [replaceAll]

theorem replaceAll_cons_of_not_isPrefix {old : Text} {c : Char} {rest : Text} (new : Text)
    (h : ¬ old <+: c :: rest) :
    replaceAll old new (c :: rest) = c :: replaceAll old new rest := by
  rw [replaceAll, replaceFrom, if_neg (by simpa using h)]
  rfl

/-- The scan that replaces a mark: at each place it either meets the mark or passes one
character. -/
theorem replaceAll_induction {old : Text} (hold : old ≠ []) {motive : Text → Prop}
    (nil : motive []) (mark : ∀ rest, motive rest → motive (old ++ rest))
    (char : ∀ c rest, ¬ old <+: c :: rest → motive rest → motive (c :: rest)) (t : Text) :
    motive t := by
  induction hn : t.length using Nat.strong_induction_on generalizing t with
  | _ n ih =>
    by_cases hp : old <+: t
    · obtain ⟨rest, rfl⟩ := hp
      have hpos : 0 < old.length := List.length_pos_iff.mpr hold
      exact mark rest (ih rest.length (by simp at hn; omega) rest rfl)
    · cases t with
      | nil => exact nil
      | cons c rest => exact char c rest hp (ih rest.length (by simp at hn; omega) rest rfl)

/-- A text before the first possible place of the mark stays as it is. -/
theorem replaceAll_append_of_not_mem {old : Text} {a : Char} {tail : Text}
    (hold : old = a :: tail) (new : Text) {pre : Text} (hpre : a ∉ pre) (t : Text) :
    replaceAll old new (pre ++ t) = pre ++ replaceAll old new t := by
  induction pre with
  | nil => rfl
  | cons c pre ih =>
    simp only [List.mem_cons, not_or] at hpre
    have hp : ¬ old <+: c :: (pre ++ t) := by
      rw [hold, List.cons_prefix_cons]
      exact fun h => hpre.1 h.1
    rw [List.cons_append, replaceAll_cons_of_not_isPrefix new hp, ih hpre.2]
    rfl

/-- A character that the mark does not have stands between two replacements. -/
theorem replaceAll_append_cons {old : Text} (hold : old ≠ []) (new : Text) {c : Char} (hc : c ∉ old)
    (a b : Text) :
    replaceAll old new (a ++ c :: b) = replaceAll old new a ++ c :: replaceAll old new b := by
  have hhead : ¬ old <+: c :: b := by
    intro hp
    obtain ⟨d, tail, rfl⟩ := List.exists_cons_of_ne_nil hold
    exact hc (by simp [(List.cons_prefix_cons.mp hp).1])
  induction a using replaceAll_induction hold with
  | nil => simpa using replaceAll_cons_of_not_isPrefix new hhead
  | mark rest ih =>
    rw [List.append_assoc, replaceAll_append_mark hold, replaceAll_append_mark hold, ih,
      List.append_assoc]
  | char d rest hp ih =>
    have hlong : ¬ old <+: d :: (rest ++ c :: b) := fun h =>
      hp (isPrefix_of_append_cons (a := d :: rest) hc h)
    rw [List.cons_append, replaceAll_cons_of_not_isPrefix new hlong,
      replaceAll_cons_of_not_isPrefix new hp, ih, List.cons_append]

/-- A character of neither mark occurs as often as before. -/
theorem count_replaceAll {old new : Text} (hold : old ≠ []) {c : Char} (hc : c ∉ old)
    (hc' : c ∉ new) (t : Text) : (replaceAll old new t).count c = t.count c := by
  induction t using replaceAll_induction hold with
  | nil => rfl
  | mark rest ih =>
    rw [replaceAll_append_mark hold, List.count_append, List.count_append, ih,
      List.count_eq_zero.mpr hc, List.count_eq_zero.mpr hc']
  | char d rest hp ih =>
    rw [replaceAll_cons_of_not_isPrefix new hp, List.count_cons, List.count_cons, ih]

/-- What stands between separators is part of the text and holds no separator. -/
theorem infix_of_mem_splitOn {sep : Char} {part whole : Text} (h : part ∈ whole.splitOn sep) :
    part <:+: whole ∧ sep ∉ part := by
  induction hn : whole.length using Nat.strong_induction_on generalizing whole with
  | _ n ih =>
    by_cases hsep : sep ∈ whole
    · obtain ⟨first, rest, rfl, hfirst⟩ := List.eq_append_cons_of_mem hsep
      rw [List.splitOn_append_cons_self_of_not_mem hfirst] at h
      rcases List.mem_cons.mp h with rfl | h
      · exact ⟨(List.prefix_append _ _).isInfix, hfirst⟩
      · obtain ⟨hrest, hpart⟩ := ih rest.length (by simp at hn; omega) h rfl
        exact ⟨List.infix_append_of_infix_right (List.infix_cons hrest), hpart⟩
    · rw [List.splitOn_eq_singleton hsep] at h
      obtain rfl := List.mem_singleton.mp h
      exact ⟨List.infix_rfl, hsep⟩

end LintDirectives.Text
