import Mathlib.Algebra.BigOperators.Ring.Finset
import Mathlib.Algebra.Order.BigOperators.Group.Finset
import Mathlib.Algebra.Order.Ring.Int
import Mathlib.Data.Fintype.BigOperators
import Mathlib.Tactic.Linarith
import Mathlib.Tactic.Ring

/-!
# Turns in proportion to weight

Parties with weights take turns. Before each turn every party earns its weight in
credit; the turn goes to a party with the most credit, who pays what all of them
earned together. How ties are broken is left open.

## Results

* `Turns.credit_eq` — a credit counts turns due against turns taken.
* `Turns.neg_lt_credit` — nobody is ever in debt by the total weight.
* `Turns.fair` — after a multiple of the total weight, everyone has had exactly their
  share and all credits are zero again.
-/

namespace WeightedTurns

variable {ι : Type*} [Fintype ι] [DecidableEq ι]

/-- The credits after a turn. -/
def pay (weight : ι → ℕ) (credit : ι → ℤ) (turn : ι) : ι → ℤ :=
  fun i => credit i + weight i - if i = turn then ∑ j, (weight j : ℤ) else 0

/-- The turns taken since all credits were zero, and the credits they leave. -/
inductive Turns (weight : ι → ℕ) : List ι → (ι → ℤ) → Prop
  | start : Turns weight [] 0
  | turn {taken : List ι} {credit : ι → ℤ} (h : Turns weight taken credit) (turn : ι)
      (hmost : ∀ i, credit i + weight i ≤ credit turn + weight turn) :
      Turns weight (taken ++ [turn]) (pay weight credit turn)

variable {weight : ι → ℕ} {taken : List ι} {credit : ι → ℤ}

/-- A turn only moves credit around. -/
theorem sum_pay (credit : ι → ℤ) (turn : ι) : ∑ i, pay weight credit turn i = ∑ i, credit i := by
  simp only [pay]
  rw [Finset.sum_sub_distrib, Finset.sum_add_distrib, Finset.sum_ite_eq' Finset.univ turn,
    if_pos (Finset.mem_univ turn)]
  ring

namespace Turns

theorem sum_credit (h : Turns weight taken credit) : ∑ i, credit i = 0 := by
  induction h with
  | start => simp
  | turn _ turn _ ih => rw [sum_pay, ih]

/-- A credit is what was earned less what was paid. -/
theorem credit_eq (h : Turns weight taken credit) (i : ι) :
    credit i = taken.length * weight i - taken.count i * ∑ j, (weight j : ℤ) := by
  induction h with
  | start => simp
  | @turn taken credit _ turn _ ih =>
    rw [pay, ih, List.length_append, List.length_singleton, List.count_append,
      List.count_singleton]
    by_cases hturn : i = turn
    · rw [if_pos hturn, hturn, if_pos (beq_self_eq_true turn)]
      push_cast
      ring
    · rw [if_neg hturn, if_neg (fun heq => hturn (beq_iff_eq.mp heq).symm)]
      push_cast
      ring

/-- The party with the most credit has some, since all of it together is the total
weight. -/
theorem most_pos (h : Turns weight taken credit) (htotal : 0 < ∑ j, (weight j : ℤ)) {turn : ι}
    (hmost : ∀ i, credit i + weight i ≤ credit turn + weight turn) :
    0 < credit turn + weight turn := by
  by_contra hnot
  have hnonpos : ∑ i, (credit i + weight i) ≤ 0 :=
    Finset.sum_nonpos (fun i _ => (hmost i).trans (not_lt.mp hnot))
  rw [Finset.sum_add_distrib, h.sum_credit, zero_add] at hnonpos
  omega

/-- **Nobody is ever in debt by the total weight.** The one who pays had some credit. -/
theorem neg_lt_credit (h : Turns weight taken credit) (htotal : 0 < ∑ j, (weight j : ℤ))
    (i : ι) : -∑ j, (weight j : ℤ) < credit i := by
  induction h with
  | start => simpa using htotal
  | @turn taken credit h turn hmost ih =>
    rw [pay]
    by_cases hturn : i = turn
    · rw [if_pos hturn, hturn]
      have hpos := h.most_pos htotal hmost
      omega
    · rw [if_neg hturn]
      omega

/-- **Exact shares.** After `k` times the total weight, each party has had `k` times its
own weight, and all credits are zero. -/
theorem fair (h : Turns weight taken credit) (htotal : 0 < ∑ j, (weight j : ℤ)) {k : ℕ}
    (hlength : taken.length = k * ∑ j, weight j) (i : ι) :
    taken.count i = k * weight i ∧ credit i = 0 := by
  have hlength' : (taken.length : ℤ) = k * ∑ j, (weight j : ℤ) := by
    rw [hlength]
    push_cast
    rfl
  -- every credit is a multiple of the total, so none is negative
  have hmultiple : ∀ j, credit j = (k * weight j - taken.count j) * ∑ j, (weight j : ℤ) := by
    intro j
    rw [h.credit_eq j, hlength']
    ring
  have hnonneg : ∀ j ∈ Finset.univ, 0 ≤ credit j := by
    intro j _
    have hdebt := h.neg_lt_credit htotal j
    rw [hmultiple j] at hdebt ⊢
    refine mul_nonneg ?_ htotal.le
    by_contra hneg
    have hle : (k * weight j - taken.count j : ℤ) ≤ -1 := by omega
    have := mul_le_mul_of_nonneg_right hle htotal.le
    omega
  have hzero := (Finset.sum_eq_zero_iff_of_nonneg hnonneg).mp h.sum_credit i (Finset.mem_univ i)
  refine ⟨?_, hzero⟩
  rw [hmultiple i] at hzero
  rcases mul_eq_zero.mp hzero with hshare | hnone
  · have : (taken.count i : ℤ) = (k * weight i : ℕ) := by
      push_cast
      omega
    exact_mod_cast this
  · exact absurd hnone htotal.ne'

end Turns

end WeightedTurns
