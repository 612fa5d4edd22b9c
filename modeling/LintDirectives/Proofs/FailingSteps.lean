/-!
# Steps that may fail

A chain of steps succeeds when each of them does, and fails with the first one that fails.
-/

namespace LintDirectives.FailingSteps

variable {ε ε' α β : Type}

theorem bind_eq_ok {x : Except ε α} {f : α → Except ε β} {b : β} :
    (x >>= f) = .ok b ↔ ∃ a, x = .ok a ∧ f a = .ok b := by
  constructor
  · intro h
    cases x with
    | ok a => exact ⟨a, rfl, h⟩
    | error e => exact nomatch h
  · rintro ⟨a, rfl, h⟩
    exact h

theorem bind_eq_error {x : Except ε α} {f : α → Except ε β} {e : ε}
    (h : (x >>= f) = .error e) : x = .error e ∨ ∃ a, x = .ok a ∧ f a = .error e := by
  cases x with
  | ok a => exact .inr ⟨a, rfl, h⟩
  | error e' => exact .inl (congrArg _ (Except.error.inj h))

theorem map_eq_ok {x : Except ε α} {f : α → β} {b : β} :
    x.map f = .ok b ↔ ∃ a, x = .ok a ∧ f a = b := by
  cases x with
  | ok a =>
    constructor
    · exact fun h => ⟨a, rfl, Except.ok.inj h⟩
    · rintro ⟨a', ha, rfl⟩
      cases ha
      rfl
  | error e => exact ⟨nofun, nofun⟩

theorem map_bind {γ : Type} (x : Except ε α) (f : α → Except ε β) (g : β → γ) :
    (x >>= f).map g = x >>= fun a => (f a).map g := by
  cases x <;> rfl

theorem mapError_eq_ok {x : Except ε α} {f : ε → ε'} {a : α} :
    x.mapError f = .ok a ↔ x = .ok a := by
  cases x with
  | ok b => exact ⟨fun h => congrArg _ (Except.ok.inj h), fun h => congrArg _ (Except.ok.inj h)⟩
  | error e => exact ⟨nofun, nofun⟩

theorem mapError_eq_error {x : Except ε α} {f : ε → ε'} {e : ε'}
    (h : x.mapError f = .error e) : ∃ e₀, e = f e₀ := by
  cases x with
  | ok a => exact nomatch h
  | error e₀ => exact ⟨e₀, (Except.error.inj h).symm⟩

theorem eq_ok_of_toOption {x : Except ε α} {a : α} (h : x.toOption = some a) : x = .ok a := by
  cases x with
  | ok b => exact congrArg _ (Option.some.inj h)
  | error e => exact nomatch h

/-- The results of a step that succeeds on a whole list are those of its elements. -/
theorem mem_of_mapM {f : α → Except ε β} {xs : List α} {ys : List β} (h : xs.mapM f = .ok ys)
    {y : β} : y ∈ ys ↔ ∃ x ∈ xs, f x = .ok y := by
  induction xs generalizing ys with
  | nil =>
    cases h
    simp
  | cons x xs ih =>
    rw [List.mapM_cons] at h
    obtain ⟨first, hfirst, h⟩ := bind_eq_ok.mp h
    obtain ⟨rest, hrest, h⟩ := bind_eq_ok.mp h
    cases h
    have hhead : y = first ↔ f x = .ok y := by
      rw [hfirst]
      exact ⟨fun h => congrArg _ h.symm, fun h => (Except.ok.inj h).symm⟩
    simp [ih hrest, hhead]

/-- What a step keeps of each element, it keeps of a whole list. -/
theorem map_eq_of_mapM {γ : Type} {f : α → Except ε β} {g : β → γ} {k : α → γ} {xs : List α}
    {ys : List β} (h : xs.mapM f = .ok ys) (hf : ∀ x ∈ xs, ∀ y, f x = .ok y → g y = k x) :
    ys.map g = xs.map k := by
  induction xs generalizing ys with
  | nil =>
    cases h
    rfl
  | cons x xs ih =>
    rw [List.mapM_cons] at h
    obtain ⟨y, hy, h⟩ := bind_eq_ok.mp h
    obtain ⟨rest, hrest, h⟩ := bind_eq_ok.mp h
    cases h
    rw [List.map_cons, List.map_cons, hf x List.mem_cons_self y hy,
      ih hrest fun x' hx' => hf x' (List.mem_cons_of_mem x hx')]

/-- A step that succeeds on every element of a list succeeds on the whole list. -/
theorem exists_mapM {f : α → Except ε β} {xs : List α} (h : ∀ x ∈ xs, ∃ y, f x = .ok y) :
    ∃ ys, xs.mapM f = .ok ys := by
  induction xs with
  | nil => exact ⟨[], rfl⟩
  | cons x xs ih =>
    obtain ⟨y, hy⟩ := h x List.mem_cons_self
    obtain ⟨ys, hys⟩ := ih fun x' hx' => h x' (List.mem_cons_of_mem x hx')
    refine ⟨y :: ys, ?_⟩
    rw [List.mapM_cons, bind_eq_ok]
    exact ⟨y, hy, bind_eq_ok.mpr ⟨ys, hys, rfl⟩⟩

/-! ## The first of some faults -/

/-- A step fails with the first of some faults, and succeeds if there are none. -/
def FailsFirst (x : Except ε α) (faults : List ε) : Prop :=
  match x with
  | .ok _ => faults = []
  | .error e => faults.head? = some e

theorem FailsFirst.ok_iff {x : Except ε α} {faults : List ε} (h : FailsFirst x faults) :
    (∃ a, x = .ok a) ↔ faults = [] := by
  cases x with
  | ok a => exact ⟨fun _ => h, fun _ => ⟨a, rfl⟩⟩
  | error e =>
    refine ⟨nofun, ?_⟩
    rintro rfl
    exact nomatch h

theorem FailsFirst.error_iff {x : Except ε α} {faults : List ε} (h : FailsFirst x faults) {e : ε} :
    x = .error e ↔ faults.head? = some e := by
  cases x with
  | ok a =>
    obtain rfl : faults = [] := h
    exact ⟨nofun, nofun⟩
  | error e' =>
    have hfirst : faults.head? = some e' := h
    rw [hfirst, Except.error.injEq, Option.some.injEq]

theorem FailsFirst.map {x : Except ε α} {faults : List ε} (h : FailsFirst x faults) (f : α → β) :
    FailsFirst (x.map f) faults := by
  cases x <;> exact h

/-- The faults of a step that comes second stand behind those of the first one. -/
theorem FailsFirst.bind {x : Except ε α} {f : α → Except ε β} {faults faults' : List ε}
    (h : FailsFirst x faults) (h' : ∀ a, x = .ok a → FailsFirst (f a) faults') :
    FailsFirst (x >>= f) (faults ++ faults') := by
  cases x with
  | ok a =>
    obtain rfl : faults = [] := h
    exact h' a rfl
  | error e =>
    have hfirst : faults.head? = some e := h
    exact List.head?_append.trans (by rw [hfirst, Option.some_or])

/-- A step on a whole list meets the faults of its elements in order. -/
theorem FailsFirst.mapM {f : α → Except ε β} {faults : α → List ε} {xs : List α}
    (h : ∀ x ∈ xs, FailsFirst (f x) (faults x)) : FailsFirst (xs.mapM f) (xs.flatMap faults) := by
  induction xs with
  | nil => rfl
  | cons x xs ih =>
    rw [List.mapM_cons, List.flatMap_cons]
    refine (h x List.mem_cons_self).bind fun y _ => ?_
    rw [← List.append_nil (xs.flatMap faults)]
    exact (ih fun x' hx' => h x' (List.mem_cons_of_mem x hx')).bind fun ys _ => rfl

end LintDirectives.FailingSteps
