import Mathlib.Order.BooleanAlgebra.Set

/-!
# Rendezvous choices

Round after round the least of the candidates not yet taken is taken, and every round ranks the
candidates by a key of its own. A newcomer that wins a round pushes its former winner on to the
next one, which may push the winner there, and so on; whatever the keys, in the end the chain has
cost at most one candidate its place.

## Results

* `Taken.subset` — only candidates are taken.
* `Taken.newcomer` — what a newcomer changes.
-/

namespace Rendezvous

variable {α β : Type} [LinearOrder β]

/-- What is taken after so many rounds; a round without candidates takes nothing. -/
inductive Taken (key : ℕ → α → β) (pool : Set α) : ℕ → Set α → Prop
  | start : Taken key pool 0 ∅
  | pick {round : ℕ} {taken : Set α} {a : α} (before : Taken key pool round taken)
      (hmem : a ∈ pool) (hfree : a ∉ taken)
      (hleast : ∀ b ∈ pool, b ∉ taken → key round a ≤ key round b) :
      Taken key pool (round + 1) (insert a taken)
  | dry {round : ℕ} {taken : Set α} (before : Taken key pool round taken)
      (hnone : pool ⊆ taken) : Taken key pool (round + 1) taken

variable {key : ℕ → α → β} {pool : Set α} {round : ℕ} {taken taken' : Set α}

theorem Taken.subset (h : Taken key pool round taken) : taken ⊆ pool := by
  induction h with
  | start => exact Set.empty_subset _
  | pick _ hmem _ _ ih => exact Set.insert_subset hmem ih
  | dry _ _ ih => exact ih

/-- Without candidates all further rounds are dry. -/
theorem Taken.dry_to {last : ℕ} (h : Taken key pool round taken) (hnone : pool ⊆ taken)
    (hle : round ≤ last) : Taken key pool last taken := by
  induction hle with
  | refl => exact h
  | step _ ih => exact .dry ih hnone

/-- What is taken among the candidates and a newcomer, beside what is taken without it. -/
inductive Displaced (newcomer : α) (pool taken : Set α) : Set α → Prop
  | same : Displaced newcomer pool taken taken
  | joined (hall : pool ⊆ taken) : Displaced newcomer pool taken (insert newcomer taken)
  | swapped {lost : α} (hlost : lost ∈ taken) :
      Displaced newcomer pool taken (insert newcomer (taken \ {lost}))

/-- **A newcomer costs at most one candidate its place.** -/
theorem Taken.newcomer {newcomer : α} (hinj : ∀ round, Function.Injective (key round))
    (hnew : newcomer ∉ pool) (h : Taken key pool round taken)
    (h' : Taken key (insert newcomer pool) round taken') :
    Displaced newcomer pool taken taken' := by
  induction h generalizing taken' with
  | start =>
    cases h'
    exact .same
  | @pick round taken a before hmem hfree hleast ih =>
    have hsubset := before.subset
    cases h' with
    | @pick _ taken' a' before' hmem' hfree' hleast' =>
      cases ih before' with
      | same =>
        rcases Set.mem_insert_iff.mp hmem' with rfl | hold
        · -- the newcomer wins the round of `a`
          have hswap : Displaced a' pool (insert a taken) (insert a' (insert a taken \ {a})) :=
            .swapped (Set.mem_insert a taken)
          rwa [Set.insert_sdiff_self_of_notMem hfree] at hswap
        · have hle := hleast a' hold hfree'
          have hge := hleast' a (Set.mem_insert_of_mem _ hmem) hfree
          rw [hinj round (le_antisymm hge hle)]
          exact .same
      | joined hall => exact absurd (hall hmem) hfree
      | @swapped lost hlost =>
        have hne : a' ≠ newcomer := fun hsame => hfree' (hsame ▸ Set.mem_insert _ _)
        have hold : a' ∈ pool := (Set.mem_insert_iff.mp hmem').resolve_left hne
        by_cases hback : a' = lost
        · -- the candidate that had lost its place wins the round of `a`
          subst hback
          have hswap : Displaced newcomer pool (insert a taken)
              (insert newcomer (insert a taken \ {a})) := .swapped (Set.mem_insert a taken)
          rw [Set.insert_sdiff_self_of_notMem hfree] at hswap
          rwa [Set.insert_comm, Set.insert_sdiff_singleton, Set.insert_eq_of_mem hlost]
        · have hfree'' : a' ∉ taken := fun hin =>
            hfree' (Set.mem_insert_of_mem _ ⟨hin, hback⟩)
          have hother : a ∉ insert newcomer (taken \ {lost}) := by
            rintro (hsame | hin)
            · exact hnew (hsame ▸ hmem)
            · exact hfree hin.1
          have hle := hleast a' hold hfree''
          have hge := hleast' a (Set.mem_insert_of_mem _ hmem) hother
          rw [hinj round (le_antisymm hge hle)]
          have hkept : a ≠ lost := fun hsame => hfree (hsame ▸ hlost)
          rw [Set.insert_comm, Set.insert_sdiff_singleton_comm hkept]
          exact .swapped (Set.mem_insert_of_mem _ hlost)
    | dry before' hnone' =>
      have hin := hnone' (Set.mem_insert_of_mem _ hmem)
      cases ih before' with
      | same => exact absurd hin hfree
      | joined hall => exact absurd (hall hmem) hfree
      | swapped hlost =>
        rcases hin with hsame | hin
        · exact absurd (hsame ▸ hmem) hnew
        · exact absurd hin.1 hfree
  | @dry round taken before hnone ih =>
    have hsubset := before.subset
    cases h' with
    | @pick _ taken' a' before' hmem' hfree' hleast' =>
      cases ih before' with
      | same =>
        rcases Set.mem_insert_iff.mp hmem' with rfl | hold
        · exact .joined hnone
        · exact absurd (hnone hold) hfree'
      | joined hall =>
        rcases Set.mem_insert_iff.mp hmem' with rfl | hold
        · exact absurd (Set.mem_insert _ _) hfree'
        · exact absurd (Set.mem_insert_of_mem _ (hnone hold)) hfree'
      | @swapped lost hlost =>
        have hne : a' ≠ newcomer := fun hsame => hfree' (hsame ▸ Set.mem_insert _ _)
        have hold : a' ∈ pool := (Set.mem_insert_iff.mp hmem').resolve_left hne
        have hback : a' = lost := by
          by_contra hback
          exact hfree' (Set.mem_insert_of_mem _ ⟨hnone hold, hback⟩)
        subst hback
        rw [Set.insert_comm, Set.insert_sdiff_singleton, Set.insert_eq_of_mem hlost]
        exact .joined hnone
    | dry before' hnone' =>
      cases ih before' with
      | same => exact absurd (hsubset (hnone' (Set.mem_insert _ _))) hnew
      | joined hall => exact .joined hnone
      | swapped hlost => exact .swapped hlost

end Rendezvous
