import Mathlib.Algebra.Order.BigOperators.Group.List
import Mathlib.Tactic.Linarith

/-!
# Weighted lower medians

Entries with a weight and a value, in ascending order of the value. The lower median is the
first entry at which the running weight reaches half of the total, rounded up.

## Results

* `reach_spec` — where the running weight reaches a threshold.
* `median_between` — while the doubtful entries weigh less than half, the median lies
  between the values of others.
-/

namespace WeightedMedian

variable {α β : Type*} {weight : α → Nat}

/-- The weight of some entries. -/
def total (weight : α → Nat) (l : List α) : Nat := (l.map weight).sum

@[simp] theorem total_nil : total weight [] = 0 := rfl

@[simp] theorem total_cons (a : α) (l : List α) :
    total weight (a :: l) = weight a + total weight l := List.sum_cons

@[simp] theorem total_append (l l' : List α) :
    total weight (l ++ l') = total weight l + total weight l' := by
  rw [total, List.map_append, List.sum_append]
  rfl

theorem total_le_of_sublist {l l' : List α} (h : l.Sublist l') :
    total weight l ≤ total weight l' :=
  (h.map weight).sum_le_sum (fun _ _ => Nat.zero_le _)

/-- The first entry at which the running weight reaches the threshold. -/
def reach (weight : α → Nat) (threshold : Nat) : Nat → List α → Option α
  | _, [] => none
  | cumulative, a :: rest =>
    if threshold ≤ cumulative + weight a then some a
    else reach weight threshold (cumulative + weight a) rest

/-- The entries before fall short of the threshold, with this one they do not. -/
theorem reach_spec {threshold cumulative : Nat} {l : List α} {a : α}
    (hstart : cumulative < threshold) (h : reach weight threshold cumulative l = some a) :
    ∃ before after, l = before ++ a :: after ∧ cumulative + total weight before < threshold ∧
      threshold ≤ cumulative + total weight before + weight a := by
  induction l generalizing cumulative with
  | nil => cases h
  | cons b rest ih =>
    rw [reach] at h
    split at h
    · rename_i hreached
      obtain rfl := Option.some.inj h
      exact ⟨[], rest, rfl, by simpa using hstart, by simpa using hreached⟩
    · rename_i hshort
      obtain ⟨before, after, rfl, hbefore, hreached⟩ := ih (not_le.mp hshort) h
      refine ⟨b :: before, after, rfl, ?_, ?_⟩
      · rw [total_cons]
        omega
      · rw [total_cons]
        omega

theorem reach_map (f : α → β) (weight : β → Nat) (threshold cumulative : Nat) (l : List α) :
    reach weight threshold cumulative (l.map f) =
      (reach (weight ∘ f) threshold cumulative l).map f := by
  induction l generalizing cumulative with
  | nil => rfl
  | cons a rest ih =>
    rw [List.map_cons, reach, reach, Function.comp_apply]
    by_cases hreached : threshold ≤ cumulative + weight (f a)
    · rw [if_pos hreached, if_pos hreached]
      rfl
    · rw [if_neg hreached, if_neg hreached]
      exact ih _

/-- Entries that make up half of the weight are not all doubtful. -/
theorem exists_sound {l part : List α} (hpart : part.Sublist l) (doubtful : α → Bool)
    (hhalf : total weight l ≤ 2 * total weight part)
    (hdoubtful : 2 * total weight (l.filter doubtful) < total weight l) :
    ∃ a ∈ part, doubtful a = false := by
  by_contra hall
  have hfilter : part.filter doubtful = part := by
    refine List.filter_eq_self.mpr (fun a ha => ?_)
    by_contra hsound
    exact hall ⟨a, ha, Bool.eq_false_iff.mpr hsound⟩
  have hle : total weight part ≤ total weight (l.filter doubtful) := by
    rw [← hfilter]
    exact total_le_of_sublist (hpart.filter doubtful)
  omega

/-- **The median is not in doubt.** While the doubtful entries weigh less than half of the
total, other entries lie on both sides of the lower median. -/
theorem median_between {τ : Type*} [LinearOrder τ] {value : α → τ} {l : List α}
    (hsorted : l.Pairwise fun a b => value a ≤ value b) {a : α}
    (h : reach weight ((total weight l + 1) / 2) 0 l = some a) (doubtful : α → Bool)
    (hdoubtful : 2 * total weight (l.filter doubtful) < total weight l) :
    (∃ b ∈ l, doubtful b = false ∧ value b ≤ value a) ∧
      ∃ b ∈ l, doubtful b = false ∧ value a ≤ value b := by
  obtain ⟨before, after, rfl, hshort, hreached⟩ := reach_spec (by omega) h
  have hsplit : total weight (before ++ a :: after) =
      total weight before + (weight a + total weight after) := by
    rw [total_append, total_cons]
  have hfirst : total weight (before ++ [a]) = total weight before + weight a := by
    rw [total_append, total_cons, total_nil, Nat.add_zero]
  constructor
  · -- the entries up to the median weigh at least half
    obtain ⟨b, hb, hsound⟩ := exists_sound
      (List.Sublist.append_left (List.singleton_sublist.mpr List.mem_cons_self) before :
        (before ++ [a]).Sublist (before ++ a :: after)) doubtful
      (by omega) hdoubtful
    refine ⟨b, ?_, hsound, ?_⟩
    · rcases List.mem_append.mp hb with hbefore | hlast
      · exact List.mem_append_left _ hbefore
      · rw [List.mem_singleton.mp hlast]
        exact List.mem_append_right _ List.mem_cons_self
    · rcases List.mem_append.mp hb with hbefore | hlast
      · exact (List.pairwise_append.mp hsorted).2.2 b hbefore a List.mem_cons_self
      · exact (congrArg value (List.mem_singleton.mp hlast)).le
  · -- and so do the entries from the median on
    obtain ⟨b, hb, hsound⟩ := exists_sound
      (List.sublist_append_right _ _ : (a :: after).Sublist (before ++ a :: after)) doubtful
      (by rw [total_cons]; omega) hdoubtful
    refine ⟨b, List.mem_append_right _ hb, hsound, ?_⟩
    rcases List.mem_cons.mp hb with rfl | hafter
    · exact le_refl _
    · exact List.rel_of_pairwise_cons (List.pairwise_append.mp hsorted).2.1 hafter

end WeightedMedian
