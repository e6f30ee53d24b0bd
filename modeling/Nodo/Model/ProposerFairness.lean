import Mathlib.Algebra.BigOperators.Fin
import Mathlib.Data.List.GetD
import Mathlib.Data.Nat.ModEq
import Nodo.Lib.WeightedTurns
import Nodo.Model.ProposerSchedule

/-!
# Nodo — fallback rounds and fair shares

Two promises of the weighted proposer schedule. Where the primary of a height fails to
propose, the rounds after it go through the whole set, and the round that finalizes the
height leaves no trace in the schedule. Over many heights every validator is the primary
as often as its weight says.

The shares are those of `WeightedTurns`: the priorities are the credits, the primary of
round zero takes the turn whatever round is finalized, and `normalize` changes nothing as
long as the range stays within `2W`.

## Results

* `round_fallback` — consecutive rounds name every validator once, and `finalize` forgets
  the round.
* `normalize_eq_self` — priorities that sum to zero within the threshold stay as they are.
* `weighted_fairness` — exact shares after a multiple of the total weight.
-/

namespace Nodo.Model

open IntVector (Within Bounded checked)
open WeightedTurns (Turns)

variable {Digest : Type} [LinearOrder Digest]

namespace V1WeightedProposerSchedule

--
-- Fallback rounds
--

/-- Consecutive numbers meet every remainder once. -/
theorem perm_mod_range (start n : Nat) :
    ((List.range n).map fun i => (start + i) % n).Perm (List.range n) := by
  rcases Nat.eq_zero_or_pos n with rfl | hpos
  · exact List.Perm.refl _
  have hnodup : ((List.range n).map fun i => (start + i) % n).Nodup := by
    refine List.nodup_range.map_on ?_
    intro i hi j hj hmod
    rw [List.mem_range] at hi hj
    have hsame : i % n = j % n := Nat.ModEq.add_left_cancel' start hmod
    rwa [Nat.mod_eq_of_lt hi, Nat.mod_eq_of_lt hj] at hsame
  refine (List.subperm_of_subset hnodup ?_).perm_of_length_le ?_
  · intro r hr
    obtain ⟨i, -, rfl⟩ := List.mem_map.mp hr
    exact List.mem_range.mpr (Nat.mod_lt _ hpos)
  · rw [List.length_map]

/-- All entries of a list, by their positions. -/
theorem map_getElem?_range {α : Type} (l : List α) :
    ((List.range l.length).map fun i => l[i]?) = l.map some := by
  refine List.ext_getElem (by rw [List.length_map, List.length_map, List.length_range]) ?_
  intro i hi hi'
  rw [List.length_map] at hi'
  rw [List.getElem_map, List.getElem_map, List.getElem_range, List.getElem?_eq_getElem hi']

/-- The ids a ranking names, best first. -/
theorem IsRanking.map_id_perm {validators : List (V1Validator Digest)} {ranked : Ranking}
    (h : IsRanking validators ranked) :
    (ranked.order.map fun index => validators[index]?.map (·.id)).Perm
      (validators.map fun validator => some validator.id) := by
  have hids : ((List.range validators.length).map fun index => validators[index]?.map (·.id)) =
      validators.map fun validator => some validator.id := by
    have hentries := congrArg (List.map (Option.map V1Validator.id)) (map_getElem?_range validators)
    rw [List.map_map, List.map_map] at hentries
    exact hentries
  exact (h.perm.map _).trans (List.Perm.of_eq hids)

omit [LinearOrder Digest] in
/-- A round asks the ranking at its remainder. -/
theorem rankedId_eq (s : V1WeightedProposerSchedule Digest) (ranked : Ranking) (round : UInt64) :
    s.rankedId ranked round =
      (ranked.order[round.toNat % ranked.order.length]?).bind
        fun index => s.validators[index]?.map (·.id) := by
  unfold rankedId
  cases ranked.order[round.toNat % ranked.order.length]? with
  | none => rfl
  | some index =>
    cases hvalidator : s.validators[index]? with
    | none => simp [hvalidator]
    | some validator => simp [hvalidator]

/-- **Consecutive rounds name every validator once.** -/
theorem Sound.fallback_perm {s : V1WeightedProposerSchedule Digest} (h : Sound s)
    {round : UInt64} (hround : round.toNat + s.validators.length ≤ 2 ^ 64) :
    ((List.range s.validators.length).map
        fun i => s.proposer s.nextHeight (round + UInt64.ofNat i)).Perm
      (s.validators.map fun validator => some validator.id) := by
  have hranking := h.isRanking h.ranking_eq
  generalize hranked : ({ scores := s.scores, order := sortedOrder s.validators s.scores } :
    Ranking) = ranked at hranking
  have hlength : ranked.order.length = s.validators.length := by
    rw [hranking.perm.length_eq, List.length_range]
  have hentry : ∀ i ∈ List.range s.validators.length,
      s.proposer s.nextHeight (round + UInt64.ofNat i) =
        ((fun index => (ranked.order[index]?).bind
          fun index => s.validators[index]?.map (·.id)) ∘
          fun i => (round.toNat + i) % s.validators.length) i := by
    intro i hi
    rw [List.mem_range] at hi
    have hexact : (round + UInt64.ofNat i).toNat = round.toNat + i := by
      rw [UInt64.toNat_add, UInt64.toNat_ofNat', Nat.mod_eq_of_lt (by omega : i < 2 ^ 64),
        Nat.mod_eq_of_lt (by omega)]
    unfold proposer
    rw [if_neg (not_not.mpr rfl), h.ranking_eq, hranked]
    dsimp only
    rw [rankedId_eq, hexact, hlength]
    rfl
  have hids : ((List.range s.validators.length).map fun index => (ranked.order[index]?).bind
      fun index => s.validators[index]?.map (·.id)) =
      ranked.order.map fun index => s.validators[index]?.map (·.id) := by
    have hentries := congrArg
      (List.map fun index : Option Nat => index.bind fun index => s.validators[index]?.map (·.id))
      (map_getElem?_range ranked.order)
    rw [List.map_map, List.map_map, hlength] at hentries
    exact hentries
  rw [List.map_congr_left hentry, ← List.map_map]
  refine ((perm_mod_range round.toNat s.validators.length).map _).trans ?_
  exact (List.Perm.of_eq hids).trans hranking.map_id_perm

/-- A round enters `finalize` only through the signer the ranking gives for it. -/
theorem finalize_proposer (s : V1WeightedProposerSchedule Digest) {height round round' : UInt64}
    {signer signer' : Digest} (hsigner : s.proposer height round = some signer)
    (hsigner' : s.proposer height round' = some signer') (nextSet : Option (NextSet Digest)) :
    s.finalize height round signer nextSet = s.finalize height round' signer' nextSet := by
  unfold proposer at hsigner hsigner'
  split at hsigner
  · cases hsigner
  · rename_i hheight
    rw [if_neg hheight] at hsigner'
    cases hranking : s.ranking with
    | none =>
      rw [hranking] at hsigner
      cases hsigner
    | some ranked =>
      rw [hranking] at hsigner hsigner'
      dsimp only at hsigner hsigner'
      unfold finalize
      rw [hranking]
      dsimp only
      rw [hsigner, hsigner']
      simp only [ne_eq, not_true_eq_false, if_false]

/-- **Round fallback.** In every reachable schedule, as many consecutive rounds as there
are validators name each of them once, and the schedule after a height does not depend on
the round the height was finalized in. -/
theorem round_fallback {s : V1WeightedProposerSchedule Digest} (h : Reachable s) :
    (∀ round : UInt64, round.toNat + s.validators.length ≤ 2 ^ 64 →
      ((List.range s.validators.length).map
          fun i => s.proposer s.nextHeight (round + UInt64.ofNat i)).Perm
        (s.validators.map fun validator => some validator.id)) ∧
    ∀ (height round round' : UInt64) (signer signer' : Digest)
      (nextSet : Option (NextSet Digest)),
      s.proposer height round = some signer → s.proposer height round' = some signer' →
      s.finalize height round signer nextSet = s.finalize height round' signer' nextSet :=
  ⟨fun _ hround => h.sound.fallback_perm hround,
    fun _ _ _ _ _ nextSet hsigner hsigner' => s.finalize_proposer hsigner hsigner' nextSet⟩

/-- Four rounds at genesis, and the first height finalized by the primary or by the one
behind it. -/
theorem round_fallback_genesis :
    ([3, 4, 5, 6].map (genesisSchedule.proposer 1)).Perm [some 1, some 2, some 5, some 9] ∧
      genesisSchedule.finalize 1 0 2 none = genesisSchedule.finalize 1 1 1 none :=
  ⟨(round_fallback (.create genesisSchedule_created)).1 3 (by decide),
    (round_fallback (.create genesisSchedule_created)).2 1 0 1 2 1 none (by decide +kernel)
      (by decide +kernel)⟩

--
-- Priorities that need no normalizing
--

/-- The truncated average of nothing is nothing. -/
theorem center_eq_self {priorities : List Int} (hsize : priorities.length ≤ kMaxValidators)
    (hbounded : Bounded priorityBound priorities) (hsum : priorities.sum = 0) :
    center priorities = some priorities := by
  unfold kMaxValidators at hsize
  unfold priorityBound at hbounded
  have hproduct : (priorities.length * 2 ^ 70 : Int) ≤ 9619 * 2 ^ 70 := by omega
  have hchecked := IntVector.sumM_checked priorityLimit hbounded (by unfold priorityLimit; omega)
  unfold center
  rw [hchecked, hsum]
  simp only [Option.bind_eq_bind, Option.bind_some, Int.zero_tdiv]
  rw [IntVector.mapM_checked priorityLimit]
  · simp only [sub_zero, List.map_id']
  · intro a ha
    have := hbounded a ha
    unfold priorityLimit
    omega

/-- Without a remainder nothing is distributed. -/
theorem distribute_eq_self {priorities : List Int} {threshold : Int} (hne : priorities ≠ [])
    (hsize : priorities.length ≤ kMaxValidators) (hbounded : Bounded priorityBound priorities)
    (hsum : priorities.sum = 0) (hwithin : Within threshold priorities) :
    distribute priorities threshold = some priorities := by
  unfold kMaxValidators at hsize
  unfold priorityBound at hbounded
  have hproduct : (priorities.length * 2 ^ 70 : Int) ≤ 9619 * 2 ^ 70 := by omega
  have hchecked := IntVector.sumM_checked priorityLimit hbounded (by unfold priorityLimit; omega)
  obtain ⟨range, hrange, -, -, hleast⟩ :=
    IntVector.rangeM_checked priorityLimit hne hbounded (by unfold priorityLimit; omega)
  have hlength := List.length_pos_iff.mpr hne
  have hclose := hleast threshold hwithin
  unfold distribute
  rw [hchecked, hsum]
  simp only [Option.bind_eq_bind, Option.bind_some, Int.natAbs_zero, Nat.zero_mod,
    List.take_zero, List.mapM_nil, List.drop_zero]
  rw [if_neg (by omega)]
  simp only [Option.pure_def, Option.bind_some, List.nil_append, hchecked, hrange, hsum]
  rw [if_pos ⟨trivial, by omega⟩]

/-- **Nothing to normalize.** Priorities that sum to zero and lie within the threshold stay
as they are. -/
theorem normalize_eq_self {priorities : List Int} {totalWeight : UInt64} (hne : priorities ≠ [])
    (hsize : priorities.length ≤ kMaxValidators) (hbounded : Bounded priorityBound priorities)
    (hsum : priorities.sum = 0) (hwithin : Within (totalWeight.toNat * 2) priorities) :
    normalize priorities totalWeight = some priorities := by
  obtain ⟨range, hrange, -, -, hleast⟩ :=
    IntVector.rangeM_checked priorityLimit hne hbounded (by decide)
  have hcompress : compress priorities range (totalWeight.toNat * 2) = priorities :=
    if_neg (not_lt.mpr (hleast _ hwithin))
  unfold normalize
  rw [hrange]
  simp only [Option.bind_eq_bind, Option.bind_some, hcompress,
    center_eq_self hsize hbounded hsum]
  exact distribute_eq_self hne hsize hbounded hsum hwithin

--
-- A height as a turn
--

/-- The weights of a set by position. -/
def weights (validators : List (V1Validator Digest)) : Fin validators.length → ℕ :=
  fun i => validators[i].weight.toNat

/-- Priorities by position. -/
def credits (validators : List (V1Validator Digest)) (priorities : List Int) :
    Fin validators.length → ℤ :=
  fun i => priorities.getD i 0

omit [LinearOrder Digest] in
theorem sum_weights (validators : List (V1Validator Digest)) :
    ∑ i, weights validators i = weightSum validators :=
  Fin.sum_univ_fun_getElem validators (·.weight.toNat)

omit [LinearOrder Digest] in
theorem sum_credits {validators : List (V1Validator Digest)} {priorities : List Int}
    (hlength : priorities.length = validators.length) :
    ∑ i, credits validators priorities i = priorities.sum := by
  unfold credits
  rw [← hlength, ← Fin.sum_univ_getElem]
  exact Finset.sum_congr rfl (fun i _ => List.getD_eq_getElem _ _ i.isLt)

namespace Sound

variable {s : V1WeightedProposerSchedule Digest}

theorem sum_weights (h : Sound s) :
    ∑ i, (weights s.validators i : ℤ) = s.totalWeight.toNat := by
  rw [← Nat.cast_sum, V1WeightedProposerSchedule.sum_weights, h.total]

/-- A score is what the validator earned on top of its priority. -/
theorem credits_scores (h : Sound s) (i : Fin s.validators.length) :
    credits s.validators s.scores i =
      credits s.validators s.priorities i + weights s.validators i := by
  have hscore : (i : Nat) < s.scores.length := by
    rw [h.length_scores]
    exact i.isLt
  have hpriority : (i : Nat) < s.priorities.length := by
    rw [h.length]
    exact i.isLt
  unfold credits weights
  rw [List.getD_eq_getElem _ _ hscore, List.getD_eq_getElem _ _ hpriority]
  simp only [scores, List.getElem_map, List.getElem_zip, V1Validator.asPriority]
  rfl

end Sound

/-- The first of a ranking has the highest score. -/
theorem IsRanking.head_most {validators : List (V1Validator Digest)} {ranked : Ranking}
    (h : IsRanking validators ranked) {primary : Nat} (hprimary : ranked.order.head? = some primary)
    {i : Nat} (hi : i < validators.length) :
    ranked.scores.getD i 0 ≤ ranked.scores.getD primary 0 := by
  obtain ⟨rest, horder⟩ := List.head?_eq_some_iff.mp hprimary
  have hmem := h.perm.mem_iff.mpr (List.mem_range.mpr hi)
  have hsorted := h.sorted
  rw [horder] at hmem hsorted
  obtain rfl | hrest := List.mem_cons.mp hmem
  · exact le_refl _
  · obtain ⟨_, _, _, _, x, hx, y, hy, hrank⟩ := List.rel_of_pairwise_cons hsorted hrest
    rw [List.getD_eq_getElem?_getD, List.getD_eq_getElem?_getD, Option.mem_def.mp hx,
      Option.mem_def.mp hy]
    simp only [Option.getD_some]
    omega

/-- **Paying is a turn.** The primary has the most credit, and pays the total weight. -/
theorem Sound.pays {s : V1WeightedProposerSchedule Digest} (h : Sound s) {ranked : Ranking}
    (hranked : s.ranking = some ranked) {paid : List Int}
    (hpaid : s.payPrimary ranked = some paid) :
    ∃ primary : Fin s.validators.length, s.rankedId ranked 0 = some s.validators[primary].id ∧
      (∀ i, credits s.validators s.priorities i + weights s.validators i ≤
        credits s.validators s.priorities primary + weights s.validators primary) ∧
      credits s.validators paid =
        WeightedTurns.pay (weights s.validators) (credits s.validators s.priorities) primary := by
  have hranking := h.isRanking hranked
  have hscores : ranked.scores = s.scores := by
    rw [h.ranking_eq] at hranked
    rw [← Option.some.inj hranked]
  unfold payPrimary at hpaid
  obtain ⟨index, hindex, hpaid⟩ := Option.bind_eq_some_iff.mp hpaid
  obtain ⟨score, hscore, hpaid⟩ := Option.bind_eq_some_iff.mp hpaid
  obtain ⟨rest, hrest, hpaid⟩ := Option.bind_eq_some_iff.mp hpaid
  obtain rfl := Option.some.inj hpaid
  have hlt : index < s.validators.length :=
    List.mem_range.mp (hranking.perm.mem_iff.mp (List.mem_of_mem_head? hindex))
  have hexact : rest = score - s.totalWeight.toNat := by
    unfold checked at hrest
    split at hrest
    · exact (Option.some.inj hrest).symm
    · cases hrest
  rw [hscores] at hscore
  refine ⟨⟨index, hlt⟩, ?_, fun i => ?_, ?_⟩
  · rw [rankedId_eq]
    have hzero : (0 : UInt64).toNat % ranked.order.length = 0 := by
      rw [UInt64.toNat_zero, Nat.zero_mod]
    rw [hzero, ← List.head?_eq_getElem?, hindex, Option.bind_some,
      List.getElem?_eq_getElem hlt]
    rfl
  · rw [← h.credits_scores, ← h.credits_scores]
    have hmost := hranking.head_most hindex i.isLt
    rw [hscores] at hmost
    exact hmost
  · funext i
    have hset : credits s.validators (ranked.scores.set index rest) i =
        if (i : Nat) = index then rest else credits s.validators s.scores i := by
      unfold credits
      rw [hscores, List.getD_eq_getElem?_getD, List.getElem?_set]
      by_cases heq : index = (i : Nat)
      · rw [if_pos heq, if_pos heq.symm, if_pos (by rw [h.length_scores]; exact hlt)]
        rfl
      · rw [if_neg heq, if_neg (Ne.symm heq), List.getD_eq_getElem?_getD]
    rw [hset, WeightedTurns.pay, h.sum_weights, ← h.credits_scores]
    by_cases heq : (i : Nat) = index
    · rw [if_pos heq, if_pos (Fin.ext heq), hexact]
      unfold credits
      rw [heq, List.getD_eq_getElem?_getD, hscore]
      rfl
    · rw [if_neg heq, if_neg (fun hfin => heq (congrArg Fin.val hfin)), sub_zero]

--
-- Many heights
--

/-- The priorities that the next height hands to `normalize` have a range of at most `2W`,
so they are not rescaled. -/
def Unscaled (s : V1WeightedProposerSchedule Digest) : Prop :=
  ∀ ranked, s.ranking = some ranked → ∀ paid, s.payPrimary ranked = some paid →
    Within (s.totalWeight.toNat * 2) paid

/-- Calls of `finalize` that leave the set as it is, and the round-zero primaries of the
heights they finalized. Calls that are refused may ask for anything. -/
inductive SameSetRun (genesis : V1WeightedProposerSchedule Digest) :
    List Digest → V1WeightedProposerSchedule Digest → Prop
  | start : SameSetRun genesis [] genesis
  | refused {primaries : List Digest} {s : V1WeightedProposerSchedule Digest}
      (h : SameSetRun genesis primaries s) (height round : UInt64) (signedProposer : Digest)
      (nextSet : Option (NextSet Digest))
      (hrefused : (s.finalize height round signedProposer nextSet).1 = false) :
      SameSetRun genesis primaries (s.finalize height round signedProposer nextSet).2
  | finalized {primaries : List Digest} {s : V1WeightedProposerSchedule Digest}
      (h : SameSetRun genesis primaries s) (height round : UInt64) (signedProposer : Digest)
      (nextSet : Option (NextSet Digest)) (primary : Digest)
      (hfinalized : (s.finalize height round signedProposer nextSet).1 = true)
      (hsame : ∀ next ∈ nextSet, next.validators = s.validators) (hunscaled : Unscaled s)
      (hprimary : s.proposer height 0 = some primary) :
      SameSetRun genesis (primaries ++ [primary])
        (s.finalize height round signedProposer nextSet).2

/-- What an accepted call with the same set leaves behind. -/
theorem Sound.finalize_same {s : V1WeightedProposerSchedule Digest} (h : Sound s)
    {height round : UInt64} {signedProposer : Digest} {nextSet : Option (NextSet Digest)}
    (haccepts : Accepts s height round signedProposer nextSet)
    (hsame : ∀ next ∈ nextSet, next.validators = s.validators)
    {ranked : Ranking} (hranked : s.ranking = some ranked) {paid : List Int}
    (hpaid : s.payPrimary ranked = some paid) (hsum : paid.sum = 0)
    (hwithin : Within (s.totalWeight.toNat * 2) paid) :
    Sound (s.finalize height round signedProposer nextSet).2 ∧
      (s.finalize height round signedProposer nextSet).2.validators = s.validators ∧
      (s.finalize height round signedProposer nextSet).2.priorities = paid := by
  obtain ⟨s', hfinalize, hsound⟩ := h.finalize_accepted haccepts
  obtain ⟨paid', hpaid', hlength, hbounded⟩ := h.payPrimary_spec hranked
  obtain rfl := Option.some.inj (hpaid.symm.trans hpaid')
  have hne : paid ≠ [] := by
    rw [← List.length_pos_iff, hlength]
    exact List.length_pos_iff.mpr h.valid.nonempty
  have hwide : Bounded priorityBound paid := by
    intro a ha
    have := hbounded a ha
    unfold priorityBound
    omega
  have hself : normalize paid s.totalWeight = some paid :=
    normalize_eq_self hne (hlength ▸ h.valid.size) hwide hsum hwithin
  rw [hfinalize]
  refine ⟨hsound, ?_⟩
  unfold finalize at hfinalize
  split at hfinalize
  · cases hfinalize
  · split at hfinalize
    · cases hfinalize
    · rename_i weight hweight
      rw [hranked] at hfinalize
      dsimp only at hfinalize
      split at hfinalize
      · cases hfinalize
      · rw [hpaid] at hfinalize
        dsimp only at hfinalize
        cases nextSet with
        | none =>
          unfold nextPriorities at hfinalize
          rw [hself] at hfinalize
          obtain rfl := (Prod.mk.inj hfinalize).2
          exact ⟨rfl, rfl⟩
        | some next =>
          -- the total weight of the same members is the one before
          have hsameSet := hsame next rfl
          have htotal := (validSet_eq_some_iff.mp hweight).2
          rw [hsameSet, ← h.total, UInt64.toNat_inj] at htotal
          unfold nextPriorities at hfinalize
          dsimp only at hfinalize
          rw [if_neg (not_not.mpr hsameSet), htotal, hself] at hfinalize
          obtain rfl := (Prod.mk.inj hfinalize).2
          exact ⟨hsameSet, rfl⟩

/-- A schedule after some heights with one set: the priorities are the credits of the turns
its primaries took. -/
def TurnsTaken (validators : List (V1Validator Digest)) (primaries : List Digest)
    (s : V1WeightedProposerSchedule Digest) : Prop :=
  s.validators = validators ∧ ∃ taken : List (Fin validators.length),
    primaries = taken.map (fun i => validators[i].id) ∧
      Turns (weights validators) taken (credits validators s.priorities)

/-- **One height is one turn**, whatever round it is finalized in. -/
theorem TurnsTaken.finalized {s : V1WeightedProposerSchedule Digest} (hsound : Sound s)
    {validators : List (V1Validator Digest)} {primaries : List Digest}
    (h : TurnsTaken validators primaries s) {height round : UInt64} {signedProposer : Digest}
    {nextSet : Option (NextSet Digest)} {primary : Digest}
    (haccepts : Accepts s height round signedProposer nextSet)
    (hsame : ∀ next ∈ nextSet, next.validators = s.validators) (hunscaled : Unscaled s)
    (hprimary : s.proposer height 0 = some primary) :
    Sound (s.finalize height round signedProposer nextSet).2 ∧
      TurnsTaken validators (primaries ++ [primary])
        (s.finalize height round signedProposer nextSet).2 := by
  obtain ⟨rfl, taken, rfl, hturns⟩ := h
  obtain ⟨paid, hpaid, hlength, -⟩ := hsound.payPrimary_spec hsound.ranking_eq
  obtain ⟨turn, hturn, hmost, hcredits⟩ := hsound.pays hsound.ranking_eq hpaid
  have hsum : paid.sum = 0 := by
    rw [← sum_credits hlength, hcredits, WeightedTurns.sum_pay, hturns.sum_credit]
  obtain ⟨hsound', hvalidators, hpriorities⟩ := hsound.finalize_same haccepts hsame
    hsound.ranking_eq hpaid hsum (hunscaled _ hsound.ranking_eq _ hpaid)
  refine ⟨hsound', hvalidators, taken ++ [turn], ?_, ?_⟩
  · unfold proposer at hprimary
    rw [if_neg (not_not.mpr haccepts.1), hsound.ranking_eq] at hprimary
    rw [List.map_append, List.map_singleton, ← Option.some.inj (hturn.symm.trans hprimary)]
  · rw [hpriorities, hcredits]
    exact hturns.turn turn hmost

theorem create_fields {epochLengthBlocks : UInt64} {genesisSetRoot : Digest}
    {genesisValidators : List (V1Validator Digest)} {s : V1WeightedProposerSchedule Digest}
    (h : create epochLengthBlocks genesisSetRoot genesisValidators = some s) :
    s.validators = genesisValidators ∧
      s.priorities = List.replicate genesisValidators.length 0 := by
  unfold create at h
  split at h
  · cases h
  · split at h
    · cases h
    · obtain rfl := Option.some.inj h
      exact ⟨rfl, rfl⟩

/-- The invariant of a run with one set. -/
theorem SameSetRun.turnsTaken {epochLengthBlocks : UInt64} {genesisSetRoot : Digest}
    {genesisValidators : List (V1Validator Digest)} {genesis : V1WeightedProposerSchedule Digest}
    (hcreate : create epochLengthBlocks genesisSetRoot genesisValidators = some genesis)
    {primaries : List Digest} {s : V1WeightedProposerSchedule Digest}
    (h : SameSetRun genesis primaries s) :
    Sound s ∧ TurnsTaken genesisValidators primaries s := by
  induction h with
  | start =>
    obtain ⟨hvalidators, hpriorities⟩ := create_fields hcreate
    refine ⟨create_sound hcreate, hvalidators, [], rfl, ?_⟩
    have hzero : credits genesisValidators genesis.priorities = 0 := by
      funext i
      rw [hpriorities, credits, List.getD_eq_getElem?_getD,
        List.getElem?_replicate_of_lt i.isLt]
      rfl
    rw [hzero]
    exact .start
  | @refused primaries s _ height round signedProposer nextSet hrefused ih =>
    have hnot : ¬ Accepts s height round signedProposer nextSet := by
      intro haccepts
      obtain ⟨s', hfinalize, -⟩ := ih.1.finalize_accepted haccepts
      rw [hfinalize] at hrefused
      cases hrefused
    rw [finalize_refused hnot]
    exact ih
  | @finalized primaries s _ height round signedProposer nextSet primary hfinalized hsame
      hunscaled hprimary ih =>
    have haccepts : Accepts s height round signedProposer nextSet := by
      by_contra hnot
      rw [finalize_refused hnot] at hfinalized
      cases hfinalized
    exact ih.2.finalized ih.1 haccepts hsame hunscaled hprimary

/-- **Weighted fairness.** When `k` times the total weight of heights have been finalized
with the genesis set and no rescaling, every validator has been the primary exactly `k`
times its weight, and all priorities are zero again. -/
theorem weighted_fairness {epochLengthBlocks : UInt64} {genesisSetRoot : Digest}
    {genesisValidators : List (V1Validator Digest)} {genesis : V1WeightedProposerSchedule Digest}
    (hcreate : create epochLengthBlocks genesisSetRoot genesisValidators = some genesis)
    {primaries : List Digest} {s : V1WeightedProposerSchedule Digest}
    (hrun : SameSetRun genesis primaries s) {k : Nat}
    (hlength : primaries.length = k * weightSum genesisValidators) :
    (∀ validator ∈ genesisValidators,
      primaries.count validator.id = k * validator.weight.toNat) ∧
      s.priorities = List.replicate genesisValidators.length 0 := by
  obtain ⟨hsound, hvalidators, taken, rfl, hturns⟩ := hrun.turnsTaken hcreate
  have hvalid : ValidSet genesisValidators := hvalidators ▸ hsound.valid
  have htotal : 0 < ∑ i, (weights genesisValidators i : ℤ) := by
    rw [← Nat.cast_sum, sum_weights]
    exact_mod_cast hvalid.weightSum_pos
  rw [List.length_map, ← sum_weights] at hlength
  have hshare := hturns.fair htotal hlength
  constructor
  · intro validator hmem
    obtain ⟨i, hi, rfl⟩ := List.getElem_of_mem hmem
    have hinjective : Function.Injective
        fun j : Fin genesisValidators.length => genesisValidators[j].id := by
      intro a b hid
      exact Fin.ext (hvalid.index_eq (List.getElem?_eq_getElem a.isLt)
        (List.getElem?_eq_getElem b.isLt) hid)
    exact (List.count_map_of_injective taken _ hinjective ⟨i, hi⟩).trans (hshare ⟨i, hi⟩).1
  · have hcount : s.priorities.length = genesisValidators.length := by
      rw [hsound.length, hvalidators]
    refine List.eq_replicate_iff.mpr ⟨hcount, fun priority hmem => ?_⟩
    obtain ⟨i, hi, rfl⟩ := List.getElem_of_mem hmem
    have hzero := (hshare ⟨i, hcount ▸ hi⟩).2
    rw [credits, List.getD_eq_getElem _ _ hi] at hzero
    exact hzero

instance (width : Int) (l : List Int) : Decidable (Within width l) :=
  inferInstanceAs (Decidable (∀ a ∈ l, ∀ b ∈ l, a - b ≤ width))

instance (s : V1WeightedProposerSchedule Digest) : Decidable (Unscaled s) :=
  inferInstanceAs (Decidable (∀ ranked ∈ s.ranking, ∀ paid ∈ s.payPrimary ranked,
    Within (s.totalWeight.toNat * 2) paid))

/-- Four validators, the second of which weighs twice as much as each of the others. -/
def unevenSchedule : V1WeightedProposerSchedule Nat :=
  { epochLengthBlocks := 2, nextHeight := 1, setRoot := 0, totalWeight := 5
    validators := [⟨1, 1⟩, ⟨2, 2⟩, ⟨5, 1⟩, ⟨9, 1⟩], priorities := [0, 0, 0, 0] }

/-- The first five heights, finalized in various rounds, with one refused call and the same
set given again at a boundary. -/
theorem unevenSchedule_run :
    ∃ s, SameSetRun unevenSchedule [2, 1, 5, 9, 2] s ∧ s.nextHeight = 6 := by
  refine ⟨_, (((((SameSetRun.start.finalized 1 0 2 none 2 (by decide +kernel) (by simp)
    (by decide +kernel) (by decide +kernel)).refused 7 0 2 none (by decide +kernel)).finalized
    2 1 5 (some ⟨8, unevenSchedule.validators⟩) 1 (by decide +kernel) (by decide +kernel)
    (by decide +kernel) (by decide +kernel)).finalized 3 2 2 none 5 (by decide +kernel) (by simp)
    (by decide +kernel) (by decide +kernel)).finalized 4 0 9 none 9 (by decide +kernel) (by simp)
    (by decide +kernel) (by decide +kernel)).finalized 5 3 9 none 2 (by decide +kernel) (by simp)
    (by decide +kernel) (by decide +kernel), by decide +kernel⟩

/-- One cycle of the uneven set: everyone has had their weight, and the priorities are back
at zero. -/
theorem weighted_fairness_uneven :
    ∃ s, SameSetRun unevenSchedule [2, 1, 5, 9, 2] s ∧ s.priorities = [0, 0, 0, 0] := by
  obtain ⟨s, hrun, -⟩ := unevenSchedule_run
  exact ⟨s, hrun, (weighted_fairness (k := 1) (rfl : create 2 0 unevenSchedule.validators =
    some unevenSchedule) hrun (by decide)).2⟩

end V1WeightedProposerSchedule

end Nodo.Model
