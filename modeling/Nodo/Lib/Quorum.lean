import Mathlib.Algebra.BigOperators.Group.Finset.Basic
import Mathlib.Algebra.Order.BigOperators.Group.Finset
import Mathlib.Tactic.Linarith

/-!
# Weighted quorums

Weighted sets of voters over an arbitrary type. A *quorum* of a universe `U` is
a subset that carries strictly more than two thirds of its weight.

## Results

* `isQuorum_iff_floor_lt` — the two-thirds rule in the `⌊2W/3⌋ + 1` spelling.
* `weight_lt_three_mul_inter` — two quorums share more than a third of the
  weight.
* `exists_correct_of_quorums` — below one third of faulty weight, two quorums
  share a correct voter.
-/

namespace Quorum

variable {α : Type*}

/-- Total weight of a finite set of voters. -/
def weight (w : α → Nat) (s : Finset α) : Nat := ∑ a ∈ s, w a

/-- `s` holds more than two thirds of the weight of `U`. -/
def IsQuorum (w : α → Nat) (U s : Finset α) : Prop :=
  s ⊆ U ∧ 2 * weight w U < 3 * weight w s

theorem weight_mono {w : α → Nat} {s t : Finset α} (h : s ⊆ t) :
    weight w s ≤ weight w t :=
  Finset.sum_le_sum_of_subset h

/-- The `⌊2W/3⌋ + 1` spelling of the two-thirds rule. -/
theorem isQuorum_iff_floor_lt {w : α → Nat} {U s : Finset α} (hsub : s ⊆ U) :
    IsQuorum w U s ↔ 2 * weight w U / 3 + 1 ≤ weight w s := by
  unfold IsQuorum
  constructor
  · rintro ⟨-, h⟩
    omega
  · intro h
    exact ⟨hsub, by omega⟩

variable [DecidableEq α]

/-- Voters without weight do not matter. -/
theorem weight_inter_eq {w : α → Nat} {U s : Finset α} (h : ∀ a ∈ s, a ∉ U → w a = 0) :
    weight w (s ∩ U) = weight w s := by
  refine Finset.sum_subset Finset.inter_subset_left ?_
  intro a ha hout
  refine h a ha (fun haU => hout ?_)
  exact Finset.mem_inter.mpr ⟨ha, haU⟩

/-- Weighted inclusion–exclusion inside a universe. -/
theorem weight_add_le_inter {w : α → Nat} {U s t : Finset α} (hs : s ⊆ U) (ht : t ⊆ U) :
    weight w s + weight w t ≤ weight w U + weight w (s ∩ t) := by
  have hsplit : weight w (s ∪ t) + weight w (s ∩ t) = weight w s + weight w t :=
    Finset.sum_union_inter
  have hunion : weight w (s ∪ t) ≤ weight w U := weight_mono (Finset.union_subset hs ht)
  omega

/-- **Quorum intersection.** Two quorums share more than a third of the weight. -/
theorem weight_lt_three_mul_inter {w : α → Nat} {U s t : Finset α}
    (hs : IsQuorum w U s) (ht : IsQuorum w U t) :
    weight w U < 3 * weight w (s ∩ t) := by
  have hle := weight_add_le_inter (w := w) hs.1 ht.1
  have hs' := hs.2
  have ht' := ht.2
  omega

/-- Below one third of faulty weight, a voter outside the faulty set sits in
any two quorums. -/
theorem exists_correct_of_quorums {w : α → Nat} {U s t F : Finset α}
    (hF : 3 * weight w (F ∩ U) < weight w U)
    (hs : IsQuorum w U s) (ht : IsQuorum w U t) :
    ∃ a, a ∈ s ∧ a ∈ t ∧ a ∈ U ∧ a ∉ F := by
  by_contra hnone
  push Not at hnone
  -- otherwise the whole intersection is faulty and too light to be one
  have hsub : s ∩ t ⊆ F ∩ U := by
    intro a ha
    obtain ⟨has, hat⟩ := Finset.mem_inter.mp ha
    have haU : a ∈ U := hs.1 has
    exact Finset.mem_inter.mpr ⟨hnone a has hat haU, haU⟩
  have hle := weight_mono (w := w) hsub
  have hlt := weight_lt_three_mul_inter hs ht
  omega

end Quorum
