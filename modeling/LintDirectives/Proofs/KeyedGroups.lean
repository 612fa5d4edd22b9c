import LintDirectives.KeyedList
import Mathlib.Algebra.BigOperators.Group.List.Lemmas
import Mathlib.Algebra.GroupWithZero.Nat
import Mathlib.Data.List.Induction

/-!
# Groups and tallies of keyed values

A fold that changes the value of one key for each element of a list gives the keys in the order in
which they first come, and under each key what its own elements make of it. Groups and tallies are
such folds, so each of them has a closed form over the distinct keys.
-/

namespace LintDirectives.KeyedList

variable {κ α β : Type} [DecidableEq κ]

/-! ## Keys in the order in which they first come -/

theorem nodup_addKey {ks : List κ} (h : ks.Nodup) (k : κ) : (addKey ks k).Nodup := by
  unfold addKey
  split
  · exact h
  · next hk =>
    refine List.nodup_append.mpr ⟨h, by simp, fun a ha b hb hab => hk ?_⟩
    rwa [← List.mem_singleton.mp hb, ← hab]

theorem nodup_foldl_addKey {ks : List κ} (h : ks.Nodup) (l : List κ) : (l.foldl addKey ks).Nodup := by
  induction l generalizing ks with
  | nil => exact h
  | cons k l ih => exact ih (nodup_addKey h k)

theorem foldl_addKey_nil [BEq κ] [LawfulBEq κ] (l : List κ) : l.foldl addKey [] = l.eraseDups := by
  induction l using List.reverseRecOn with
  | nil => rfl
  | append_singleton l k ih =>
    rw [List.foldl_append, ih, List.eraseDups_append, List.foldl_cons, List.foldl_nil, addKey]
    by_cases hk : k ∈ l
    · simp [hk, List.removeAll]
    · simp [hk, List.removeAll, List.eraseDups_cons]

theorem nodup_eraseDups [BEq κ] [LawfulBEq κ] (l : List κ) : l.eraseDups.Nodup := by
  rw [← foldl_addKey_nil]
  exact nodup_foldl_addKey List.nodup_nil l

/-! ## One change for each element -/

section Changes

variable (key : β → κ) (f : β → Option α → α)

/-- The keyed values after a change for each element of a list. -/
def changes (xs : List β) (l : KeyedList κ α) : KeyedList κ α :=
  xs.foldl (fun l x => update (key x) (f x) l) l

theorem keys_changes (xs : List β) (l : KeyedList κ α) :
    keys (changes key f xs l) = (xs.map key).foldl addKey (keys l) := by
  induction xs generalizing l with
  | nil => rfl
  | cons x xs ih =>
    have hrest := ih (update (key x) (f x) l)
    rw [keys_update] at hrest
    exact hrest

theorem keys_changes_nil [BEq κ] [LawfulBEq κ] (xs : List β) :
    keys (changes key f xs []) = (xs.map key).eraseDups := by
  rw [keys_changes, ← foldl_addKey_nil]
  rfl

/-- A key sees its own elements only. -/
theorem get?_changes (k : κ) (xs : List β) (l : KeyedList κ α) :
    get? k (changes key f xs l) =
      (xs.filter fun x => key x = k).foldl (fun o x => some (f x o)) (get? k l) := by
  induction xs generalizing l with
  | nil => rfl
  | cons x xs ih =>
    have hrest := ih (update (key x) (f x) l)
    by_cases hk : key x = k
    · subst hk
      rw [get?_update_self] at hrest
      rw [List.filter_cons_of_pos (by simp)]
      exact hrest
    · rw [get?_update_of_ne (Ne.symm hk)] at hrest
      rw [List.filter_cons_of_neg (by simp [hk])]
      exact hrest

/-- Values under distinct keys are known from the keys and from what each of them gives. -/
theorem eq_map_keys {l : KeyedList κ α} {value : κ → α} (hkeys : (keys l).Nodup)
    (h : ∀ k ∈ keys l, get? k l = some (value k)) : l = (keys l).map fun k => (k, value k) := by
  have hself : l.map id = l.map fun pair => (pair.1, value pair.1) := by
    refine List.map_congr_left fun pair hpair => ?_
    have hvalue := h pair.1 (List.mem_map_of_mem hpair)
    rw [get?_of_mem hkeys hpair] at hvalue
    rw [← Option.some.inj hvalue, id]
  rw [List.map_id] at hself
  rw [keys, List.map_map]
  exact hself

theorem get?_map_pair (value : κ → α) (ks : List κ) (k : κ) :
    get? k (ks.map fun k => (k, value k)) = if k ∈ ks then some (value k) else none := by
  induction ks with
  | nil => rfl
  | cons k' ks ih =>
    by_cases hk : k' = k
    · simp [get?, hk]
    · simp [get?, hk, ih, Ne.symm hk]

/-- The closed form of a list that starts empty, from what the elements of each key make of it. -/
theorem changes_eq [BEq κ] [LawfulBEq κ] (value : κ → α) (xs : List β)
    (h : ∀ k x rest, (xs.filter fun x => key x = k) = x :: rest →
      rest.foldl (fun o y => some (f y o)) (some (f x none)) = some (value k)) :
    changes key f xs [] = (xs.map key).eraseDups.map fun k => (k, value k) := by
  have hkeys := keys_changes_nil key f xs
  rw [← hkeys]
  refine eq_map_keys ?_ fun k hk => ?_
  · rw [hkeys]
    exact nodup_eraseDups _
  · rw [hkeys, List.mem_eraseDups] at hk
    obtain ⟨x, hx, hxk⟩ := List.mem_map.mp hk
    have hown : x ∈ xs.filter fun x => key x = k := List.mem_filter.mpr ⟨hx, by simpa using hxk⟩
    rw [get?_changes]
    cases hfilter : xs.filter fun x => key x = k with
    | nil =>
      rw [hfilter] at hown
      exact absurd hown List.not_mem_nil
    | cons y rest => exact h k y rest hfilter

end Changes

/-! ## Groups -/

theorem group_eq [BEq κ] [LawfulBEq κ] (pairs : List (κ × α)) :
    group pairs = (pairs.map Prod.fst).eraseDups.map fun k =>
      (k, (pairs.filter fun pair => pair.1 = k).map Prod.snd) := by
  refine changes_eq Prod.fst (fun pair values => values.getD [] ++ [pair.2]) _ pairs
    fun k pair rest hown => ?_
  have hrest (rest : List (κ × α)) (values : List α) :
      rest.foldl (fun o pair => some (o.getD [] ++ [pair.2])) (some values) =
        some (values ++ rest.map Prod.snd) := by
    induction rest generalizing values with
    | nil => simp
    | cons pair rest ih => simpa using ih (values ++ [pair.2])
  rw [hown]
  exact hrest rest [pair.2]

theorem keys_group [BEq κ] [LawfulBEq κ] (pairs : List (κ × α)) :
    keys (group pairs) = (pairs.map Prod.fst).eraseDups :=
  keys_changes_nil Prod.fst (fun pair values => values.getD [] ++ [pair.2]) pairs

/-- Taking the elements of each distinct key together only reorders a list. -/
theorem flatMap_filter_perm (key : β → κ) {ks : List κ} (hks : ks.Nodup) {xs : List β}
    (h : ∀ x ∈ xs, key x ∈ ks) : (ks.flatMap fun k => xs.filter fun x => key x = k).Perm xs := by
  induction ks generalizing xs with
  | nil =>
    have hnil : xs = [] := List.eq_nil_iff_forall_not_mem.mpr fun x hx => List.not_mem_nil (h x hx)
    rw [hnil]
    exact List.Perm.refl _
  | cons k ks ih =>
    obtain ⟨hk, hks⟩ := List.nodup_cons.mp hks
    have hothers : ∀ x ∈ xs.filter fun x => !decide (key x = k), key x ∈ ks := by
      intro x hx
      obtain ⟨hx, hne⟩ := List.mem_filter.mp hx
      exact (List.mem_cons.mp (h x hx)).resolve_left (by simpa using hne)
    -- the elements of the other keys are not among those of the first one
    have hrest : (ks.flatMap fun k' => xs.filter fun x => key x = k') =
        ks.flatMap fun k' => (xs.filter fun x => !decide (key x = k)).filter fun x => key x = k' := by
      refine List.flatMap_congr fun k' hk' => ?_
      have hne : k' ≠ k := fun heq => hk (heq ▸ hk')
      rw [List.filter_filter]
      refine List.filter_congr fun x _ => ?_
      by_cases hx : key x = k' <;> simp [hx, hne]
    rw [List.flatMap_cons, hrest]
    exact ((ih hks hothers).append_left _).trans (List.filter_append_perm _ xs)

/-! ## Tallies -/

theorem tally_eq (l : List κ) : tally l = l.eraseDups.map fun k => (k, l.count k) := by
  have hrest (rest : List κ) (n : ℕ) :
      rest.foldl (fun o _ => some (o.getD 0 + 1)) (some n) = some (n + rest.length) := by
    induction rest generalizing n with
    | nil => rfl
    | cons k rest ih =>
      have hnext := ih (n + 1)
      rw [Nat.add_right_comm] at hnext
      exact hnext
  have hform := changes_eq id (fun _ n => n.getD 0 + 1) (l.count ·) l
    fun k k' rest hown => by
      have hcount : l.count k = rest.length + 1 := by
        rw [List.count_eq_length_filter, ← List.length_cons (a := k'), ← hown]
        exact congrArg List.length (List.filter_congr fun y _ => beq_eq_decide y k)
      rw [hcount, Nat.add_comm rest.length]
      exact hrest rest 1
  rw [List.map_id] at hform
  exact hform

section Counts

variable {l : List κ} {counts : KeyedList κ ℕ}

/-- Each element of a list is counted under itself, and nothing else is. -/
structure Counts (counts : KeyedList κ ℕ) (l : List κ) : Prop where
  value : ∀ k n, get? k counts = some n ↔ 0 < n ∧ n = l.count k
  once : (keys counts).Nodup
  sum : (counts.map Prod.snd).sum = l.length

theorem counts_map_count {ks : List κ} (hks : ks.Nodup) (h : ∀ k, k ∈ ks ↔ k ∈ l) :
    Counts (ks.map fun k => (k, l.count k)) l where
  value k n := by
    rw [get?_map_pair]
    by_cases hk : k ∈ l
    · have hpos := List.count_pos_iff.mpr hk
      rw [if_pos ((h k).mpr hk), Option.some.injEq]
      omega
    · have hnone := List.count_eq_zero_of_not_mem hk
      rw [if_neg (mt (h k).mp hk), hnone]
      exact iff_of_false nofun fun ⟨hpos, hzero⟩ => hpos.ne hzero.symm
  once := by
    rw [keys, List.map_map]
    exact (List.map_id ks).symm ▸ hks
  sum := by
    have hperm : ks.Perm l.dedup :=
      (List.perm_ext_iff_of_nodup hks l.nodup_dedup).mpr fun k => by rw [h, List.mem_dedup]
    rw [List.map_map]
    exact ((hperm.map _).sum_nat).trans (List.sum_map_count_dedup_eq_length l)

theorem counts_tally (l : List κ) : Counts (tally l) l := by
  rw [tally_eq]
  exact counts_map_count (nodup_eraseDups l) fun _ => List.mem_eraseDups

theorem Counts.getD_get? (h : Counts counts l) (k : κ) : (get? k counts).getD 0 = l.count k := by
  cases hget : get? k counts with
  | some n => exact ((h.value k n).mp hget).2
  | none =>
    by_contra hne
    have hsome := (h.value k _).mpr ⟨Nat.pos_of_ne_zero (Ne.symm hne), rfl⟩
    rw [hget] at hsome
    cases hsome

theorem Counts.of_perm {l' : List κ} (h : Counts counts l) (hperm : l'.Perm l) :
    Counts counts l' where
  value k n := by rw [hperm.count_eq, h.value]
  once := h.once
  sum := h.sum.trans hperm.length_eq.symm

end Counts

end LintDirectives.KeyedList
