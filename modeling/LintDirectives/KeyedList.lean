/-!
# Lists of keyed values

Key-value pairs in the order in which the keys were first put, each key at most once.
Replacing the value of a key keeps its place; a key that was erased and is put again comes
last.
-/

namespace LintDirectives

/-- Pairs of a key and its value, in the order of first insertion. -/
abbrev KeyedList (κ α : Type) := List (κ × α)

namespace KeyedList

variable {κ α : Type} [DecidableEq κ]

def get? (k : κ) : KeyedList κ α → Option α
  | [] => none
  | (k', a) :: rest => if k' = k then some a else get? k rest

/-- Change the value of a key in its place, or append the key with a new value. -/
def update (k : κ) (f : Option α → α) : KeyedList κ α → KeyedList κ α
  | [] => [(k, f none)]
  | (k', a) :: rest => if k' = k then (k', f (some a)) :: rest else (k', a) :: update k f rest

def put (k : κ) (a : α) (l : KeyedList κ α) : KeyedList κ α :=
  update k (fun _ => a) l

def putNew (k : κ) (a : α) (l : KeyedList κ α) : KeyedList κ α :=
  update k (·.getD a) l

def erase (k : κ) (l : KeyedList κ α) : KeyedList κ α :=
  l.filter fun pair => pair.1 ≠ k

def keys (l : KeyedList κ α) : List κ :=
  l.map Prod.fst

/-- How often each element occurs, in the order of first occurrence. -/
def tally (elements : List κ) : KeyedList κ Nat :=
  elements.foldl (fun counts k => update k (·.getD 0 + 1) counts) []

/-- The values under each key, in the order of first occurrence of the keys. -/
def group (pairs : List (κ × α)) : KeyedList κ (List α) :=
  pairs.foldl (fun groups (k, a) => update k (·.getD [] ++ [a]) groups) []

@[simp] theorem get?_update_self (k : κ) (f : Option α → α) (l : KeyedList κ α) :
    get? k (update k f l) = some (f (get? k l)) := by
  induction l with
  | nil => simp [update, get?]
  | cons pair rest ih =>
    by_cases h : pair.1 = k <;> simp [update, get?, h, ih]

theorem get?_update_of_ne {k k' : κ} (h : k' ≠ k) (f : Option α → α) (l : KeyedList κ α) :
    get? k' (update k f l) = get? k' l := by
  induction l with
  | nil => simp [update, get?, Ne.symm h]
  | cons pair rest ih =>
    by_cases hk : pair.1 = k
    · simp [update, get?, hk, Ne.symm h]
    · simp [update, get?, hk, ih]

@[simp] theorem get?_erase_self (k : κ) (l : KeyedList κ α) : get? k (erase k l) = none := by
  induction l with
  | nil => rfl
  | cons pair rest ih =>
    by_cases h : pair.1 = k <;> simp_all [erase, get?]

theorem get?_erase_of_ne {k k' : κ} (h : k' ≠ k) (l : KeyedList κ α) :
    get? k' (erase k l) = get? k' l := by
  induction l with
  | nil => rfl
  | cons pair rest ih =>
    by_cases hk : pair.1 = k
    · have hk' : pair.1 ≠ k' := fun e => h (e.symm.trans hk)
      simp_all [erase, get?]
    · simp_all [erase, get?]

theorem get?_isSome_iff (k : κ) (l : KeyedList κ α) : (get? k l).isSome ↔ k ∈ keys l := by
  induction l with
  | nil => simp [get?, keys]
  | cons pair rest ih =>
    by_cases h : pair.1 = k
    · simp [get?, keys, h]
    · have hk : k ≠ pair.1 := fun e => h e.symm
      simpa [get?, keys, h, hk] using ih

def addKey (ks : List κ) (k : κ) : List κ :=
  if k ∈ ks then ks else ks ++ [k]

theorem mem_addKey {ks : List κ} {k k' : κ} : k' ∈ addKey ks k ↔ k' ∈ ks ∨ k' = k := by
  unfold addKey
  split
  · next h => exact ⟨.inl, fun h' => h'.elim id fun e => e ▸ h⟩
  · simp

theorem filter_addKey {p : κ → Bool} {k : κ} (hk : p k = true) (ks : List κ) :
    (addKey ks k).filter p = addKey (ks.filter p) k := by
  unfold addKey
  by_cases h : k ∈ ks <;> simp [h, hk]

theorem keys_update (k : κ) (f : Option α → α) (l : KeyedList κ α) :
    keys (update k f l) = addKey (keys l) k := by
  induction l with
  | nil => simp [update, keys, addKey]
  | cons pair rest ih =>
    by_cases h : pair.1 = k
    · simp [update, keys, addKey, h]
    · have hk : k ≠ pair.1 := fun e => h e.symm
      have hcons : keys (update k f (pair :: rest)) = pair.1 :: keys (update k f rest) := by
        simp [update, keys, h]
      rw [hcons, ih]
      unfold addKey
      split <;> simp_all [keys]

theorem keys_foldl_update (f : Option α → α) (ks : List κ) (l : KeyedList κ α) :
    keys (ks.foldl (fun l k => update k f l) l) = ks.foldl addKey (keys l) := by
  induction ks generalizing l with
  | nil => rfl
  | cons k ks ih => rw [List.foldl_cons, List.foldl_cons, ih, keys_update]

theorem erase_eq_self {k : κ} {l : KeyedList κ α} (h : get? k l = none) : erase k l = l := by
  refine List.filter_eq_self.mpr fun pair hpair => decide_eq_true fun hkey => ?_
  have hsome := (get?_isSome_iff k l).mpr (hkey ▸ List.mem_map_of_mem hpair)
  simp [h] at hsome

theorem filter_erase {k : κ} {p q : κ → Bool} (h : ∀ k', q k' = (p k' && decide (k' ≠ k)))
    (l : KeyedList κ α) :
    (erase k l).filter (fun pair => p pair.1) = l.filter fun pair => q pair.1 := by
  rw [erase, List.filter_filter]
  exact List.filter_congr fun pair _ => (h pair.1).symm

omit [DecidableEq κ] in
theorem keys_filter (p : κ → Bool) (l : KeyedList κ α) :
    keys (l.filter fun pair => p pair.1) = (keys l).filter p := by
  rw [keys, keys, List.filter_map]
  rfl

theorem get?_filter (p : κ → Bool) (k : κ) (l : KeyedList κ α) :
    get? k (l.filter fun pair => p pair.1) = if p k then get? k l else none := by
  induction l with
  | nil => simp [get?]
  | cons pair rest ih =>
    by_cases hk : pair.1 = k
    · by_cases hp : p k <;> simp_all [get?]
    · by_cases hp : p pair.1 <;> simp_all [get?]

theorem get?_map {β : Type} (f : α → β) (k : κ) (l : KeyedList κ α) :
    get? k (l.map fun pair => (pair.1, f pair.2)) = (get? k l).map f := by
  induction l with
  | nil => rfl
  | cons pair rest ih =>
    by_cases hk : pair.1 = k <;> simp [get?, hk, ih]

theorem mem_of_get? {k : κ} {a : α} {l : KeyedList κ α} (h : get? k l = some a) : (k, a) ∈ l := by
  induction l with
  | nil => simp [get?] at h
  | cons pair rest ih =>
    by_cases hk : pair.1 = k
    · rw [get?, if_pos hk] at h
      rw [← hk, ← Option.some.inj h]
      exact List.mem_cons_self
    · rw [get?, if_neg hk] at h
      exact List.mem_cons_of_mem pair (ih h)

theorem get?_of_mem {k : κ} {a : α} {l : KeyedList κ α} (hkeys : (keys l).Nodup)
    (h : (k, a) ∈ l) : get? k l = some a := by
  induction l with
  | nil => simp at h
  | cons pair rest ih =>
    rw [keys, List.map_cons, List.nodup_cons] at hkeys
    rcases List.mem_cons.mp h with rfl | h
    · simp [get?]
    · have hne : pair.1 ≠ k := fun e => hkeys.1 (e ▸ List.mem_map_of_mem h)
      rw [get?, if_neg hne]
      exact ih hkeys.2 h

end KeyedList

end LintDirectives
