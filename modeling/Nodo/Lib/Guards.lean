import Mathlib.Logic.Basic

/-!
# Guard chains

Validation code is a chain of `if bad then reject else …`. These lemmas peel
one guard off an accepted run: the guard did not fire, and the rest accepted.
-/

namespace Guards

variable {ε α : Type*} {c : Prop} [Decidable c]

/-- An accepted `Except` chain passed its first guard. -/
theorem ok_of_ite_error {e : ε} {rest : Except ε α} {a : α}
    (h : (if c then .error e else rest) = .ok a) : ¬ c ∧ rest = .ok a := by
  by_cases hc : c
  · rw [if_pos hc] at h
    cases h
  · rw [if_neg hc] at h
    exact ⟨hc, h⟩

/-- An accepted Boolean chain passed its first guard. -/
theorem true_of_ite_false {rest : Bool} (h : (if c then false else rest) = true) :
    ¬ c ∧ rest = true := by
  by_cases hc : c
  · rw [if_pos hc] at h
    cases h
  · rw [if_neg hc] at h
    exact ⟨hc, h⟩

/-- An accepted `Option` chain passed its first guard. -/
theorem some_of_ite_none {rest : Option α} {a : α}
    (h : (if c then none else rest) = some a) : ¬ c ∧ rest = some a := by
  by_cases hc : c
  · rw [if_pos hc] at h
    cases h
  · rw [if_neg hc] at h
    exact ⟨hc, h⟩

/-- A guard that answers nothing is passed. -/
theorem none_of_ite_some {a : α} {rest : Option α}
    (h : (if c then some a else rest) = none) : ¬ c ∧ rest = none := by
  by_cases hc : c
  · rw [if_pos hc] at h
    cases h
  · rw [if_neg hc] at h
    exact ⟨hc, h⟩

/-- A bind that succeeds: its first step did, and the rest from there. -/
theorem ok_of_bind {ε α β : Type} {x : Except ε α} {f : α → Except ε β} {b : β}
    (h : (x >>= f) = .ok b) : ∃ a, x = .ok a ∧ f a = .ok b := by
  cases x with
  | error e => cases h
  | ok a => exact ⟨a, rfl, h⟩

theorem ok_bind {ε α β : Type} (a : α) (f : α → Except ε β) : (Except.ok a >>= f) = f a := rfl

/-- A loop of checks accepts exactly when each check does. -/
theorem forM_eq_ok {ε α : Type} {check : α → Except ε PUnit} {items : List α} :
    items.forM check = .ok () ↔ ∀ item ∈ items, check item = .ok () := by
  induction items with
  | nil => exact ⟨fun _ _ hmem => (List.not_mem_nil hmem).elim, fun _ => rfl⟩
  | cons first rest ih =>
    change (check first >>= fun _ => rest.forM check) = .ok () ↔ _
    rw [List.forall_mem_cons, ← ih]
    cases hfirst : check first with
    | error e =>
      constructor
      · intro h
        cases h
      · rintro ⟨h, -⟩
        cases h
    | ok u => exact ⟨fun h => ⟨rfl, h⟩, fun h => h.2⟩

end Guards
