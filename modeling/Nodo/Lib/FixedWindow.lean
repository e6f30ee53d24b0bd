import Mathlib.Algebra.BigOperators.Group.List.Basic
import Mathlib.Algebra.Ring.Nat
import Mathlib.Data.List.Basic
import Mathlib.Order.Basic

/-!
# Fixed windows

A counter that restarts grants at most `limit` requests in a window of a given length. A grant
is known by the window it was counted in and by its time. Windows are opened when a request
comes, so they are at least a length apart but not aligned.

## Results

* `Spaced.concat` — one more grant.
* `Spaced.count_span_le` — any span of one length holds at most two windows' grants.
* `Follows.restart`, `Follows.grant` — a counter beside the history of its grants.
* `Follows.alive_eq`, `Settled.alive_eq` — the grants whose window is still open.
* `alive_eq_sum` — the same of many counters, key by key.
-/

namespace FixedWindow

variable {α : Type} {start time : α → Int} {length : Int} {limit : Nat} {grants : List α}

/-- The grants of one counter: each within its window, the windows apart, none above the
limit. -/
structure Spaced (start time : α → Int) (length : Int) (limit : Nat) (grants : List α) : Prop where
  within : ∀ g ∈ grants, start g ≤ time g ∧ time g < start g + length
  apart : grants.Pairwise (fun g g' => start g = start g' ∨ start g + length ≤ start g')
  bounded : ∀ s, grants.countP (fun g => start g == s) ≤ limit

theorem Spaced.nil : Spaced start time length limit ([] : List α) :=
  ⟨by simp, List.Pairwise.nil, by simp⟩

/-- One more grant: in its window, which is the last one or a later one and not full. -/
theorem Spaced.concat (h : Spaced start time length limit grants) {g : α}
    (hwithin : start g ≤ time g ∧ time g < start g + length)
    (holder : ∀ g' ∈ grants, start g' = start g ∨ start g' + length ≤ start g)
    (hroom : grants.countP (fun g' => start g' == start g) < limit) :
    Spaced start time length limit (grants ++ [g]) := by
  refine ⟨?_, ?_, ?_⟩
  · intro g' hg'
    rcases List.mem_append.mp hg' with hold | hnew
    · exact h.within g' hold
    · obtain rfl := List.mem_singleton.mp hnew
      exact hwithin
  · rw [List.pairwise_append]
    refine ⟨h.apart, List.pairwise_singleton _ _, ?_⟩
    intro g' hg' other hother
    obtain rfl := List.mem_singleton.mp hother
    exact holder g' hg'
  · intro s
    rw [List.countP_append, List.countP_singleton]
    by_cases hs : start g = s
    · subst hs
      simp only [beq_self_eq_true, if_true]
      omega
    · have hne : (start g == s) = false := beq_eq_false_iff_ne.mpr hs
      rw [hne]
      exact h.bounded s

/-- **Any span of one length holds at most twice the limit.** Its grants come from windows that
open less than two lengths apart, and there are at most two of these. -/
theorem Spaced.count_span_le (h : Spaced start time length limit grants) (a : Int) :
    grants.countP (fun g => a ≤ time g && time g < a + length) ≤ 2 * limit := by
  rw [List.countP_eq_length_filter]
  generalize hspan : grants.filter (fun g => a ≤ time g && time g < a + length) = span
  have hmem : ∀ g ∈ span, a - length < start g ∧ start g < a + length := by
    intro g hg
    rw [← hspan, List.mem_filter, Bool.and_eq_true, decide_eq_true_eq, decide_eq_true_eq] at hg
    have hwithin := h.within g hg.1
    omega
  have hapart : span.Pairwise (fun g g' => start g = start g' ∨ start g + length ≤ start g') := by
    rw [← hspan]
    exact h.apart.filter _
  have hone : ∀ s, span.countP (fun g => start g == s) ≤ limit := by
    intro s
    rw [← hspan]
    exact Nat.le_trans (List.filter_sublist.countP_le) (h.bounded s)
  -- The first grant's window, the first window after it, and no third one.
  cases span with
  | nil => exact Nat.zero_le _
  | cons first rest =>
    obtain ⟨hfirst, hrest⟩ := List.pairwise_cons.mp hapart
    have hsplit := List.length_eq_countP_add_countP (fun g => start g == start first)
      (l := first :: rest)
    have hlater : (first :: rest).countP (fun g => ¬ (start g == start first) = true) ≤ limit := by
      rw [List.countP_eq_length_filter]
      generalize hothers : (first :: rest).filter
        (fun g => decide ¬ (start g == start first) = true) = others
      have hsub : others.Sublist (first :: rest) := hothers ▸ List.filter_sublist
      cases others with
      | nil => exact Nat.zero_le _
      | cons second last =>
        have hothersMem : ∀ g ∈ second :: last, start first + length ≤ start g := by
          intro g hg
          rw [← hothers, List.mem_filter] at hg
          simp only [beq_iff_eq, decide_eq_true_eq] at hg
          rcases List.mem_cons.mp hg.1 with rfl | hin
          · exact absurd rfl hg.2
          · rcases hfirst g hin with heq | hle
            · exact absurd heq.symm hg.2
            · exact hle
        have hsecond := hothersMem second List.mem_cons_self
        have hlast := (List.pairwise_cons.mp (hapart.sublist hsub)).1
        have hall : ∀ g ∈ second :: last, (start g == start second) = true := by
          intro g hg
          rw [beq_iff_eq]
          rcases List.mem_cons.mp hg with rfl | hin
          · rfl
          · rcases hlast g hin with heq | hle
            · exact heq.symm
            · have hfar := hmem g (hsub.subset hg)
              have hnear := hmem first List.mem_cons_self
              omega
        rw [← List.countP_eq_length.mpr hall]
        exact Nat.le_trans hsub.countP_le (hone (start second))
    have hown := hone (start first)
    omega

--
-- The counter
--

/-- The windows of all grants are over at `now`. -/
def Settled (start : α → Int) (length : Int) (grants : List α) (now : Int) : Prop :=
  ∀ g ∈ grants, start g + length ≤ now

/-- A counter beside the grants it made: its window is the last one, and it counts the grants
in it. -/
structure Follows (start : α → Int) (length : Int) (grants : List α) (windowStart : Int)
    (count : Nat) : Prop where
  older : ∀ g ∈ grants, start g = windowStart ∨ start g + length ≤ windowStart
  counts : grants.countP (fun g => start g == windowStart) = count

theorem Settled.mono {now now' : Int} (h : Settled start length grants now) (hle : now ≤ now') :
    Settled start length grants now' := fun g hg => Int.le_trans (h g hg) hle

/-- A new window at a time when all are over. -/
theorem Settled.follows {now : Int} (h : Settled start length grants now) (hlength : 0 < length) :
    Follows start length grants now 0 := by
  refine ⟨fun g hg => Or.inr (h g hg), ?_⟩
  rw [List.countP_eq_zero]
  intro g hg heq
  rw [beq_iff_eq] at heq
  have hover := h g hg
  omega

theorem Follows.settled {windowStart now : Int} {count : Nat}
    (h : Follows start length grants windowStart count) (hlength : 0 ≤ length)
    (hover : windowStart + length ≤ now) : Settled start length grants now := by
  intro g hg
  rcases h.older g hg with heq | hle
  · omega
  · omega

/-- A window that is over gives way to a new one. -/
theorem Follows.restart {windowStart now : Int} {count : Nat}
    (h : Follows start length grants windowStart count) (hlength : 0 < length)
    (hover : windowStart + length ≤ now) : Follows start length grants now 0 :=
  (h.settled (Int.le_of_lt hlength) hover).follows hlength

/-- A grant in the counter's window. -/
theorem Follows.grant {windowStart : Int} {count : Nat}
    (h : Follows start length grants windowStart count) {g : α} (hstart : start g = windowStart) :
    Follows start length (grants ++ [g]) windowStart (count + 1) := by
  refine ⟨?_, ?_⟩
  · intro g' hg'
    rcases List.mem_append.mp hg' with hold | hnew
    · exact h.older g' hold
    · obtain rfl := List.mem_singleton.mp hnew
      exact Or.inl hstart
  · rw [List.countP_append, List.countP_singleton, h.counts, if_pos (beq_iff_eq.mpr hstart)]

/-- **A grant below the limit keeps the windows spaced.** -/
theorem Follows.spaced_concat {windowStart : Int} {count : Nat}
    (h : Follows start length grants windowStart count)
    (hspaced : Spaced start time length limit grants) {g : α} (hstart : start g = windowStart)
    (hwithin : windowStart ≤ time g ∧ time g < windowStart + length) (hroom : count < limit) :
    Spaced start time length limit (grants ++ [g]) := by
  refine hspaced.concat ?_ ?_ ?_
  · rw [hstart]
    exact hwithin
  · rw [hstart]
    exact h.older
  · rw [hstart, h.counts]
    exact hroom

/-- The grants whose window is open at `now`. -/
def alive (start : α → Int) (length : Int) (grants : List α) (now : Int) : Nat :=
  grants.countP (fun g => now < start g + length)

theorem Settled.alive_eq {now : Int} (h : Settled start length grants now) :
    alive start length grants now = 0 := by
  rw [alive, List.countP_eq_zero]
  intro g hg hopen
  rw [decide_eq_true_eq] at hopen
  exact absurd (h g hg) (Int.not_le.mpr hopen)

/-- While its window is open, the counter counts the open grants. -/
theorem Follows.alive_eq {windowStart now : Int} {count : Nat}
    (h : Follows start length grants windowStart count) (hle : windowStart ≤ now)
    (hopen : now < windowStart + length) : alive start length grants now = count := by
  rw [alive, ← h.counts]
  refine List.countP_congr (fun g hg => ?_)
  rw [decide_eq_true_eq, beq_iff_eq]
  rcases h.older g hg with heq | hover
  · omega
  · omega

/-- The open grants, counted key by key. -/
theorem alive_eq_sum {κ : Type} [DecidableEq κ] (key : α → κ) {keys : List κ} (hnodup : keys.Nodup)
    {now : Int} (hmem : ∀ g ∈ grants, now < start g + length → key g ∈ keys) :
    alive start length grants now =
      (keys.map (fun k => alive start length (grants.filter (fun g => key g == k)) now)).sum := by
  induction keys generalizing grants with
  | nil =>
    rw [List.map_nil, List.sum_nil, alive, List.countP_eq_zero]
    intro g hg hopen
    exact absurd (hmem g hg (of_decide_eq_true hopen)) List.not_mem_nil
  | cons k keys ih =>
    obtain ⟨hfresh, hnodup⟩ := List.nodup_cons.mp hnodup
    have hrest : ∀ g ∈ grants.filter (fun g => !(key g == k)), now < start g + length →
        key g ∈ keys := by
      intro g hg hopen
      rw [List.mem_filter, Bool.not_eq_true', beq_eq_false_iff_ne] at hg
      exact (List.mem_cons.mp (hmem g hg.1 hopen)).resolve_left hg.2
    have hsame : ∀ k' ∈ keys, (grants.filter (fun g => !(key g == k))).filter (fun g => key g == k')
        = grants.filter (fun g => key g == k') := by
      intro k' hk'
      rw [List.filter_filter]
      refine List.filter_congr (fun g _ => ?_)
      by_cases hkey : key g = k'
      · have hne : key g ≠ k := fun heq => hfresh (heq ▸ hkey ▸ hk')
        rw [beq_false_of_ne hne, Bool.not_false, Bool.and_true]
      · rw [beq_false_of_ne hkey, Bool.false_and]
    rw [List.map_cons, List.sum_cons, alive,
      List.countP_eq_countP_filter_add grants _ (fun g => key g == k), ← alive, ← alive, ih hnodup hrest]
    refine congrArg _ (congrArg List.sum (List.map_congr_left (fun k' hk' => ?_)))
    rw [hsame k' hk']

end FixedWindow
