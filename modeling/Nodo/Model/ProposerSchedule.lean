import Mathlib.Data.List.Sort
import Nodo.Lib.IntVector
import Nodo.Model.Validators

/-!
# Nodo — the weighted proposer schedule

`consensus/V1WeightedProposerSchedule.cpp`: who proposes at a height and round.
Every validator carries a priority. A finalized block adds each weight to its
priority, takes the total weight from the first of the ranking, and brings the
priorities back to a sum of zero and a range of at most twice the total weight,
plus one. A changed validator set carries the priorities of the members that stay
and starts the others below the lowest of them.

Priorities are `__int128` with an overflow check on every operation; `none` stands
for the checked failure. Digests are compared bytewise, a linear order.

## Results

* `validSet_eq_some_iff` — what `validSet` accepts, and with which total.
* `normalize_spec` — `normalize` cannot fail on priorities below `2 ^ 70`.
* `rebase_spec` — nor can `rebase`, whatever the two sets.
* `Sound.finalize_accepted`, `finalize_refused` — one call on a sound schedule.
* `proposer_schedule_sound` — the invariant, the absence of failures and the exact
  acceptance condition of `finalize`, for every reachable schedule.
-/

namespace Nodo.Model

open IntVector (Within Bounded checked sumM rangeM nudge)

variable {Digest : Type} [LinearOrder Digest]

--
-- The schedule
--

/-- `V1WeightedProposerSchedule::Validator`. -/
structure V1Validator (Digest : Type) where
  id : Digest
  weight : UInt64
  deriving DecidableEq

/-- `V1WeightedProposerSchedule::NextSet`. -/
structure NextSet (Digest : Type) where
  root : Digest
  validators : List (V1Validator Digest)

structure V1WeightedProposerSchedule (Digest : Type) where
  epochLengthBlocks : UInt64
  nextHeight : UInt64
  setRoot : Digest
  totalWeight : UInt64
  validators : List (V1Validator Digest)
  priorities : List Int

/-- `V1WeightedProposerSchedule::Ranking`. -/
structure Ranking where
  scores : List Int
  order : List Nat

/-- A weight as a `Priority`. -/
def V1Validator.asPriority (validator : V1Validator Digest) : Int := validator.weight.toNat

/-- `Priority` is `__int128`. -/
def priorityLimit : Int := 2 ^ 127

/-- `V1WeightedProposerSchedule::kMaxValidators`. -/
def kMaxValidators : Nat := 9619

namespace V1WeightedProposerSchedule

/-- The loop of `validSet`, with the id of the validator before. -/
def addValidators : Option Digest → UInt64 → List (V1Validator Digest) → Option UInt64
  | _, totalWeight, [] => some totalWeight
  | previous, totalWeight, validator :: rest =>
    if validator.weight = 0 ∨ (∃ id ∈ previous, ¬ id < validator.id)
        ∨ uint64Max - totalWeight < validator.weight then none
    else addValidators (some validator.id) (totalWeight + validator.weight) rest

/-- The total weight of a set that passes. -/
def validSet (validators : List (V1Validator Digest)) : Option UInt64 :=
  if validators.isEmpty ∨ kMaxValidators < validators.length then none
  else
    match addValidators none 0 validators with
    | none => none
    | some totalWeight => if totalWeight = 0 then none else some totalWeight

def create (epochLengthBlocks : UInt64) (genesisSetRoot : Digest)
    (genesisValidators : List (V1Validator Digest)) :
    Option (V1WeightedProposerSchedule Digest) :=
  if epochLengthBlocks = 0 ∨ genesisValidators.length < 4 then none
  else
    match validSet genesisValidators with
    | none => none
    | some totalWeight =>
      some { epochLengthBlocks, nextHeight := 1, setRoot := genesisSetRoot, totalWeight
             validators := genesisValidators
             priorities := List.replicate genesisValidators.length 0 }

/-- The comparison `ranking` sorts by: the higher score first, the lower id among
equals. -/
def ranksBefore (left right : (V1Validator Digest × Int) × Nat) : Prop :=
  if left.1.2 ≠ right.1.2 then right.1.2 < left.1.2 else left.1.1.id < right.1.1.id

instance (left right : (V1Validator Digest × Int) × Nat) : Decidable (ranksBefore left right) :=
  inferInstanceAs (Decidable (ite _ _ _))

/-- The indices in ranking order. Ids are distinct, so the order `std::sort` leaves
is the only one. -/
def sortedOrder (validators : List (V1Validator Digest)) (scores : List Int) : List Nat :=
  ((validators.zip scores).zipIdx.insertionSort
    (fun left right => ¬ ranksBefore right left)).map (·.2)

def ranking (s : V1WeightedProposerSchedule Digest) : Option Ranking := do
  let scores ← (s.validators.zip s.priorities).mapM fun entry =>
    checked priorityLimit (entry.2 + entry.1.asPriority)
  pure { scores, order := sortedOrder s.validators scores }

/-- `m_validators[ranked->order[round % ranked->order.size()]].id`. -/
def rankedId (s : V1WeightedProposerSchedule Digest) (ranked : Ranking) (round : UInt64) :
    Option Digest := do
  let index ← ranked.order[round.toNat % ranked.order.length]?
  let validator ← s.validators[index]?
  pure validator.id

def proposer (s : V1WeightedProposerSchedule Digest) (height round : UInt64) : Option Digest :=
  if height ≠ s.nextHeight then none
  else
    match s.ranking with
    | none => none
    | some ranked => s.rankedId ranked round

/-- The rounded-up quotient by which `normalize` divides a range above the
threshold. -/
def compressionDivisor (range threshold : Int) : Int :=
  range.tdiv threshold + if range.tmod threshold ≠ 0 then 1 else 0

/-- First part of `normalize`: division toward zero where the range is too large. -/
def compress (priorities : List Int) (range threshold : Int) : List Int :=
  if threshold < range then priorities.map (·.tdiv (compressionDivisor range threshold))
  else priorities

/-- Second part: the truncated average is subtracted. -/
def center (priorities : List Int) : Option (List Int) := do
  let sum ← sumM priorityLimit priorities
  let average := sum.tdiv priorities.length
  priorities.mapM fun priority => checked priorityLimit (priority - average)

/-- Last part: the remainder of the sum goes to the first entries, one unit each, and
the result is checked. -/
def distribute (priorities : List Int) (threshold : Int) : Option (List Int) := do
  let sum ← sumM priorityLimit priorities
  let direction : Int := if 0 < sum then -1 else 1
  -- the cast to `std::size_t`
  let remainder := sum.natAbs % 2 ^ 64
  if priorities.length ≤ remainder then none
  else
    let moved ← (priorities.take remainder).mapM fun priority =>
      checked priorityLimit (priority + direction)
    let result := moved ++ priorities.drop remainder
    let sum ← sumM priorityLimit result
    let range ← rangeM priorityLimit result
    if sum = 0 ∧ range ≤ threshold + 1 then some result else none

def normalize (priorities : List Int) (totalWeight : UInt64) : Option (List Int) := do
  let range ← rangeM priorityLimit priorities
  let threshold : Int := totalWeight.toNat * 2
  let centered ← center (compress priorities range threshold)
  distribute centered threshold

/-- The priority a member of the new set had in the old one: `std::lower_bound` finds
the first old id that is not below. -/
def carriedPriority (oldValidators : List (V1Validator Digest)) (oldPriorities : List Int)
    (id : Digest) : Option Int :=
  match (oldValidators.zip oldPriorities).find? (fun entry => ¬ entry.1.id < id) with
  | none => none
  | some entry => if entry.1.id = id then some entry.2 else none

/-- The priority a member starts with in the new set: the carried one, or the lowest
carried one less the new total. -/
def startPriority (carried lowest : Option Int) (newWeight : UInt64) : Option Int :=
  match carried with
  | some priority => some priority
  | none =>
    match lowest with
    | some lowest => checked priorityLimit (lowest - newWeight.toNat)
    | none => some 0

def rebase (oldValidators : List (V1Validator Digest)) (oldPriorities : List Int)
    (newValidators : List (V1Validator Digest)) (newWeight : UInt64) : Option (List Int) := do
  let lowest := (newValidators.filterMap
    (fun validator => carriedPriority oldValidators oldPriorities validator.id)).min?
  let result ← newValidators.mapM fun validator =>
    startPriority (carriedPriority oldValidators oldPriorities validator.id) lowest newWeight
  normalize result newWeight

/-- The scores after the primary has paid the total weight. -/
def payPrimary (s : V1WeightedProposerSchedule Digest) (ranked : Ranking) :
    Option (List Int) := do
  let primary ← ranked.order.head?
  let score ← ranked.scores[primary]?
  let paid ← checked priorityLimit (score - s.totalWeight.toNat)
  pure (ranked.scores.set primary paid)

/-- The weight of the set given, `0` where none is. -/
def nextWeight (nextSet : Option (NextSet Digest)) : Option UInt64 :=
  match nextSet with
  | none => some 0
  | some next => validSet next.validators

/-- The priorities of the next height. -/
def nextPriorities (s : V1WeightedProposerSchedule Digest) (paid : List Int)
    (nextSet : Option (NextSet Digest)) (nextWeight : UInt64) : Option (List Int) :=
  match nextSet with
  | some next =>
    if next.validators ≠ s.validators then rebase s.validators paid next.validators nextWeight
    else normalize paid nextWeight
  | none => normalize paid s.totalWeight

/-- The members `finalize` writes once everything has passed. -/
def commit (s : V1WeightedProposerSchedule Digest) (priorities : List Int)
    (nextSet : Option (NextSet Digest)) (nextWeight : UInt64) :
    V1WeightedProposerSchedule Digest :=
  match nextSet with
  | none => { s with priorities, nextHeight := s.nextHeight + 1 }
  | some next =>
    { s with priorities, validators := next.validators, setRoot := next.root
             totalWeight := nextWeight, nextHeight := s.nextHeight + 1 }

def finalize (s : V1WeightedProposerSchedule Digest) (height round : UInt64)
    (signedProposer : Digest) (nextSet : Option (NextSet Digest)) :
    Bool × V1WeightedProposerSchedule Digest :=
  if height ≠ s.nextHeight ∨ height = uint64Max
      ∨ (nextSet.isSome ∧ height % s.epochLengthBlocks ≠ 0) then (false, s)
  else
    match nextWeight nextSet with
    | none => (false, s)
    | some nextWeight =>
      match s.ranking with
      | none => (false, s)
      | some ranked =>
        if s.rankedId ranked round ≠ some signedProposer then (false, s)
        else
          match s.payPrimary ranked with
          | none => (false, s)
          | some paid =>
            match s.nextPriorities paid nextSet nextWeight with
            | none => (false, s)
            | some priorities => (true, s.commit priorities nextSet nextWeight)

--
-- Valid sets
--

/-- The exact total weight. -/
def weightSum (validators : List (V1Validator Digest)) : Nat :=
  (validators.map (·.weight.toNat)).sum

/-- What `validSet` asks of a validator set. -/
structure ValidSet (validators : List (V1Validator Digest)) : Prop where
  nonempty : validators ≠ []
  size : validators.length ≤ kMaxValidators
  weights : ∀ validator ∈ validators, validator.weight ≠ 0
  ascending : validators.Pairwise (fun a b => a.id < b.id)
  total : weightSum validators < 2 ^ 64

omit [LinearOrder Digest] in
@[simp] theorem weightSum_cons (validator : V1Validator Digest)
    (rest : List (V1Validator Digest)) :
    weightSum (validator :: rest) = validator.weight.toNat + weightSum rest := by
  simp [weightSum]

omit [LinearOrder Digest] in
theorem weight_le_weightSum {validators : List (V1Validator Digest)}
    {validator : V1Validator Digest} (h : validator ∈ validators) :
    validator.weight.toNat ≤ weightSum validators :=
  List.single_le_sum (by simp) _ (List.mem_map_of_mem h)

/-- The loop accepts exactly positive weights, ascending ids and a total that
fits. -/
theorem addValidators_eq_some_iff {validators : List (V1Validator Digest)}
    {previous : Option Digest} {start total : UInt64} :
    addValidators previous start validators = some total ↔
      (∀ validator ∈ validators, validator.weight ≠ 0) ∧
      (previous.toList ++ validators.map (·.id)).Pairwise (· < ·) ∧
      start.toNat + weightSum validators < 2 ^ 64 ∧
      total.toNat = start.toNat + weightSum validators := by
  induction validators generalizing previous start with
  | nil =>
    have hfits := start.toNat_lt
    have hsingle : (previous.toList ++ ([] : List (V1Validator Digest)).map (·.id)).Pairwise
        (· < ·) := by
      cases previous <;> simp
    simp only [addValidators, Option.some.injEq, hsingle]
    constructor
    · rintro rfl
      simp [weightSum]
      omega
    · rintro ⟨-, -, -, htotal⟩
      exact (UInt64.toNat_inj.mp (by simpa [weightSum] using htotal)).symm
  | cons validator rest ih =>
    unfold addValidators
    -- the id before has to be below this one, and below the rest with it
    have hascending : (previous.toList ++ (validator :: rest).map (·.id)).Pairwise (· < ·) ↔
        (∀ id ∈ previous, id < validator.id) ∧
          ((some validator.id).toList ++ rest.map (·.id)).Pairwise (· < ·) := by
      cases previous with
      | none => simp
      | some id =>
        simp only [Option.toList_some, List.singleton_append, List.map_cons,
          List.pairwise_cons_cons_iff_of_trans]
        simp
    rw [hascending, List.forall_mem_cons, weightSum_cons]
    split
    · rename_i hguard
      constructor
      · intro h
        cases h
      · rintro ⟨⟨hweight, -⟩, ⟨hbelow, -⟩, hfits, -⟩
        rcases hguard with hzero | ⟨id, hid, hnot⟩ | hover
        · exact absurd hzero hweight
        · exact absurd (hbelow id hid) hnot
        · refine absurd hover (not_guard_iff.mpr ?_)
          rw [uint64Max_toNat]
          omega
    · rename_i hguard
      simp only [not_or, not_exists, not_and, not_not] at hguard
      obtain ⟨hweight, hbelow, hroom⟩ := hguard
      rw [ih, toNat_add_of_guard hroom]
      constructor
      · rintro ⟨hweights, hrest, hfits, htotal⟩
        exact ⟨⟨hweight, hweights⟩, ⟨hbelow, hrest⟩, by omega, by omega⟩
      · rintro ⟨⟨-, hweights⟩, ⟨-, hrest⟩, hfits, htotal⟩
        exact ⟨hweights, hrest, by omega, by omega⟩

/-- The total of a valid set is positive. -/
theorem ValidSet.weightSum_pos {validators : List (V1Validator Digest)}
    (h : ValidSet validators) : 0 < weightSum validators := by
  obtain ⟨validator, hmem⟩ := List.exists_mem_of_ne_nil _ h.nonempty
  have hpos := toNat_pos_of_ne_zero (h.weights validator hmem)
  have hle := weight_le_weightSum hmem
  omega

theorem ValidSet.weight_ne_zero {validators : List (V1Validator Digest)} {weight : UInt64}
    (h : ValidSet validators) (htotal : weight.toNat = weightSum validators) : weight ≠ 0 := by
  rintro rfl
  have hpos := h.weightSum_pos
  rw [UInt64.toNat_zero] at htotal
  omega

/-- **`validSet` exactly.** It accepts a valid set, with its exact total. -/
theorem validSet_eq_some_iff {validators : List (V1Validator Digest)} {total : UInt64} :
    validSet validators = some total ↔
      ValidSet validators ∧ total.toNat = weightSum validators := by
  have hids : (validators.map (·.id)).Pairwise (· < ·) ↔
      validators.Pairwise (fun a b => a.id < b.id) := List.pairwise_map
  constructor
  · intro h
    unfold validSet at h
    split at h
    · cases h
    · rename_i hsize
      split at h
      · cases h
      · rename_i result hloop
        split at h
        · cases h
        · obtain rfl := Option.some.inj h
          obtain ⟨hweights, hascending, hfits, htotal⟩ := addValidators_eq_some_iff.mp hloop
          simp only [not_or, Nat.not_lt, List.isEmpty_iff] at hsize
          simp only [UInt64.toNat_zero, Nat.zero_add] at hfits htotal
          exact ⟨⟨hsize.1, hsize.2, hweights, hids.mp hascending, hfits⟩, htotal⟩
  · rintro ⟨hvalid, htotal⟩
    have hloop : addValidators none 0 validators = some total := by
      refine addValidators_eq_some_iff.mpr ⟨hvalid.weights, hids.mpr hvalid.ascending, ?_, ?_⟩
      · rw [UInt64.toNat_zero, Nat.zero_add]
        exact hvalid.total
      · rw [UInt64.toNat_zero, Nat.zero_add]
        exact htotal
    have hsize : ¬ (validators.isEmpty ∨ kMaxValidators < validators.length) := by
      simp only [not_or, Nat.not_lt, List.isEmpty_iff]
      exact ⟨hvalid.nonempty, hvalid.size⟩
    unfold validSet
    rw [if_neg hsize, hloop]
    exact if_neg (hvalid.weight_ne_zero htotal)

--
-- Normalizing
--

/-- The rounded-up quotient covers the range. -/
theorem range_le_compressionDivisor {range threshold : Int} (hrange : 0 ≤ range)
    (hpos : 0 < threshold) :
    range ≤ compressionDivisor range threshold * threshold := by
  have hsplit := Int.mul_tdiv_add_tmod range threshold
  have hsmall := Int.tmod_lt_of_pos range hpos
  have hnonneg := Int.tmod_nonneg threshold hrange
  unfold compressionDivisor
  rw [Int.add_mul, Int.mul_comm (range.tdiv threshold)]
  split
  · omega
  · omega

theorem compressionDivisor_pos {range threshold : Int} (hpos : 0 < threshold)
    (habove : threshold < range) : 0 < compressionDivisor range threshold := by
  have hcover := range_le_compressionDivisor (by omega : 0 ≤ range) hpos
  by_contra hnot
  have := Int.mul_nonpos_of_nonpos_of_nonneg (by omega : compressionDivisor range threshold ≤ 0)
    hpos.le
  omega

/-- The division brings the range to the threshold and moves no entry away from
zero. -/
theorem compress_spec {priorities : List Int} {range threshold bound : Int}
    (hwithin : Within range priorities) (hrange : 0 ≤ range) (hpos : 0 < threshold)
    (hbounded : Bounded bound priorities) :
    (compress priorities range threshold).length = priorities.length ∧
      Within threshold (compress priorities range threshold) ∧
      Bounded bound (compress priorities range threshold) := by
  unfold compress
  by_cases habove : threshold < range
  · rw [if_pos habove]
    exact ⟨List.length_map _,
      hwithin.map_tdiv (compressionDivisor_pos hpos habove) hpos.le
        (range_le_compressionDivisor hrange hpos),
      hbounded.map_tdiv _⟩
  · rw [if_neg habove]
    exact ⟨rfl, hwithin.mono (by omega), hbounded⟩

/-- Priorities the schedule works with stay far below `__int128`. -/
def priorityBound : Int := 2 ^ 70

/-- Subtracting the average of bounded entries cannot overflow, and leaves a sum
smaller than the number of entries. -/
theorem center_spec {priorities : List Int} {width : Int} (hne : priorities ≠ [])
    (hsize : priorities.length ≤ kMaxValidators) (hbounded : Bounded priorityBound priorities)
    (hwithin : Within width priorities) :
    ∃ centered, center priorities = some centered ∧ centered.length = priorities.length ∧
      Within width centered ∧ Bounded (2 ^ 84) centered ∧
      centered.sum.natAbs < centered.length := by
  unfold kMaxValidators at hsize
  unfold priorityBound at hbounded
  -- at most 9619 entries of at most `2 ^ 70`
  have hproduct : (priorities.length * 2 ^ 70 : Int) ≤ 9619 * 2 ^ 70 := by omega
  have hsum := IntVector.sumM_checked priorityLimit hbounded (by unfold priorityLimit; omega)
  have hsumBounds := hbounded.sum_bounds
  have hresidue := IntVector.natAbs_sum_sub_average hne
  have haverage : -(9619 * 2 ^ 70) ≤ priorities.sum.tdiv priorities.length ∧
      priorities.sum.tdiv priorities.length ≤ 9619 * 2 ^ 70 := by
    have habs := Int.natAbs_tdiv_le_natAbs priorities.sum priorities.length
    omega
  have hshifted := hbounded.map_sub haverage
  refine ⟨priorities.map (· - priorities.sum.tdiv priorities.length), ?_, List.length_map _,
    hwithin.map_sub _, ?_, ?_⟩
  · unfold center
    rw [hsum]
    refine IntVector.mapM_checked priorityLimit (fun a ha => ?_)
    have := hshifted _ (List.mem_map_of_mem ha)
    unfold priorityLimit
    omega
  · intro a ha
    have := hshifted a ha
    omega
  · rw [List.length_map]
    exact hresidue

/-- The remainder is spread without overflow, and the final checks pass. -/
theorem distribute_spec {priorities : List Int} {threshold : Int} (hne : priorities ≠ [])
    (hsize : priorities.length ≤ kMaxValidators) (hbounded : Bounded (2 ^ 84) priorities)
    (hwithin : Within threshold priorities) (hthreshold : threshold < 2 ^ 65)
    (hresidue : priorities.sum.natAbs < priorities.length) :
    ∃ result, distribute priorities threshold = some result ∧
      result.length = priorities.length ∧ result.sum = 0 ∧ Within (threshold + 1) result := by
  unfold kMaxValidators at hsize
  generalize hdirection : (if 0 < priorities.sum then (-1 : Int) else 1) = direction
  have hunit : -1 ≤ direction ∧ direction ≤ 1 := by
    rw [← hdirection]
    split <;> omega
  have hsum := IntVector.sumM_checked priorityLimit hbounded (by
    have : (priorities.length * 2 ^ 84 : Int) ≤ 9619 * 2 ^ 84 := by omega
    unfold priorityLimit
    omega)
  -- the cast keeps a remainder below the number of entries
  have hcast : priorities.sum.natAbs % 2 ^ 64 = priorities.sum.natAbs :=
    Nat.mod_eq_of_lt (by omega)
  have hmoved : (priorities.take priorities.sum.natAbs).mapM
      (fun priority => checked priorityLimit (priority + direction)) =
        some ((priorities.take priorities.sum.natAbs).map (· + direction)) := by
    refine IntVector.mapM_checked priorityLimit (fun a ha => ?_)
    have := hbounded a (List.mem_of_mem_take ha)
    unfold priorityLimit
    omega
  have hzero : (nudge priorities.sum.natAbs direction priorities).sum = 0 := by
    rw [IntVector.sum_nudge hresidue.le, ← hdirection]
    split <;> omega
  have hclose : Within (threshold + 1) (nudge priorities.sum.natAbs direction priorities) :=
    hwithin.nudge hunit
  have hlength := IntVector.length_nudge priorities.sum.natAbs direction priorities
  have hnudgeNe : nudge priorities.sum.natAbs direction priorities ≠ [] := by
    rw [← List.length_pos_iff, hlength]
    omega
  have hnear := hclose.bounded_of_sum_zero hzero
  have hfinalSum := IntVector.sumM_checked priorityLimit hnear (by
    rw [hlength]
    have hmul : (priorities.length * (threshold + 1) : Int) ≤ 9619 * 2 ^ 65 := by
      obtain ⟨a, ha⟩ := List.exists_mem_of_ne_nil _ hne
      have := hwithin a ha a ha
      exact Int.mul_le_mul (by omega) (by omega) (by omega) (by omega)
    unfold priorityLimit
    omega)
  obtain ⟨range, hrange, -, -, hleast⟩ :=
    IntVector.rangeM_checked priorityLimit hnudgeNe hnear (by unfold priorityLimit; omega)
  refine ⟨nudge priorities.sum.natAbs direction priorities, ?_, hlength, hzero, hclose⟩
  unfold nudge at hfinalSum hrange hzero
  unfold distribute
  rw [hsum]
  simp only [Option.bind_eq_bind, Option.bind_some, hcast, hdirection, hmoved]
  rw [if_neg (by omega), hfinalSum, Option.bind_some, hrange, Option.bind_some,
    if_pos ⟨hzero, hleast _ hclose⟩]
  rfl

/-- **`normalize` cannot fail** on priorities below `2 ^ 70`; what it returns sums to
zero and has a range of at most `2W + 1`. -/
theorem normalize_spec {priorities : List Int} {totalWeight : UInt64}
    (hne : priorities ≠ []) (hsize : priorities.length ≤ kMaxValidators)
    (hbounded : Bounded priorityBound priorities) (hweight : totalWeight ≠ 0) :
    ∃ result, normalize priorities totalWeight = some result ∧
      result.length = priorities.length ∧ result.sum = 0 ∧
      Within (totalWeight.toNat * 2 + 1) result := by
  have hpositive := toNat_pos_of_ne_zero hweight
  have hfits := totalWeight.toNat_lt
  obtain ⟨range, hrange, hrangePos, hwithin, -⟩ :=
    IntVector.rangeM_checked priorityLimit hne hbounded (by decide)
  obtain ⟨hcompressedLength, hcompressedWithin, hcompressedBounded⟩ :=
    compress_spec hwithin hrangePos (by omega : (0 : Int) < totalWeight.toNat * 2) hbounded
  have hcompressedNe : compress priorities range (totalWeight.toNat * 2) ≠ [] := by
    rw [← List.length_pos_iff, hcompressedLength]
    exact List.length_pos_iff.mpr hne
  obtain ⟨centered, hcentered, hcenteredLength, hcenteredWithin, hcenteredBounded, hresidue⟩ :=
    center_spec hcompressedNe (by omega) hcompressedBounded hcompressedWithin
  obtain ⟨result, hresult, hlength, hzero, hclose⟩ :=
    distribute_spec (List.length_pos_iff.mp (by omega)) (by omega) hcenteredBounded
      hcenteredWithin (by omega) hresidue
  refine ⟨result, ?_, by omega, hzero, hclose⟩
  unfold normalize
  rw [hrange]
  simp only [Option.bind_eq_bind, Option.bind_some, hcentered]
  exact hresult

--
-- Carrying priorities over to a new set
--

theorem carriedPriority_mem {oldValidators : List (V1Validator Digest)}
    {oldPriorities : List Int} {id : Digest} {priority : Int}
    (h : carriedPriority oldValidators oldPriorities id = some priority) :
    priority ∈ oldPriorities := by
  unfold carriedPriority at h
  split at h
  · cases h
  · rename_i entry hfind
    split at h
    · obtain rfl := Option.some.inj h
      exact (List.of_mem_zip (List.mem_of_find?_eq_some hfind)).2
    · cases h

/-- **`rebase` cannot fail**, whatever members stay and go. -/
theorem rebase_spec (oldValidators : List (V1Validator Digest))
    {newValidators : List (V1Validator Digest)} {oldPriorities : List Int} {newWeight : UInt64}
    (hbounded : Bounded (2 ^ 68) oldPriorities) (hvalid : ValidSet newValidators) (hweight : newWeight ≠ 0) :
    ∃ result, rebase oldValidators oldPriorities newValidators newWeight = some result ∧
      result.length = newValidators.length ∧ result.sum = 0 ∧
      Within (newWeight.toNat * 2 + 1) result := by
  have hfits := newWeight.toNat_lt
  generalize hlowest : (newValidators.filterMap
    (fun validator => carriedPriority oldValidators oldPriorities validator.id)).min? = lowest
  -- the lowest carried priority is a carried one
  have hlowestBounds : ∀ value ∈ lowest, -(2 ^ 68) ≤ value ∧ value ≤ 2 ^ 68 := by
    rintro value rfl
    obtain ⟨hmem, -⟩ := List.min?_eq_some_iff.mp hlowest
    obtain ⟨validator, -, hcarried⟩ := List.mem_filterMap.mp hmem
    exact hbounded value (carriedPriority_mem hcarried)
  have hstep : ∀ validator ∈ newValidators, ∃ priority,
      startPriority (carriedPriority oldValidators oldPriorities validator.id) lowest newWeight =
        some priority ∧ -priorityBound ≤ priority ∧ priority ≤ priorityBound := by
    intro validator _
    unfold startPriority priorityBound
    cases hcarried : carriedPriority oldValidators oldPriorities validator.id with
    | some priority =>
      have := hbounded priority (carriedPriority_mem hcarried)
      exact ⟨priority, rfl, by omega⟩
    | none =>
      cases lowest with
      | none => exact ⟨0, rfl, by omega⟩
      | some value =>
        have := hlowestBounds value rfl
        refine ⟨value - newWeight.toNat, IntVector.checked_of_bounds ?_, by omega⟩
        unfold priorityLimit
        omega
  obtain ⟨carried, hcarried, hlength, hcarriedBounded⟩ := IntVector.mapM_of_forall hstep
  have hcarriedNe : carried ≠ [] := by
    rw [← List.length_pos_iff, hlength]
    exact List.length_pos_iff.mpr hvalid.nonempty
  obtain ⟨result, hresult, hresultLength, hzero, hclose⟩ :=
    normalize_spec hcarriedNe (hlength ▸ hvalid.size) hcarriedBounded hweight
  refine ⟨result, ?_, by omega, hzero, hclose⟩
  unfold rebase
  rw [hlowest]
  simp only [Option.bind_eq_bind, hcarried, Option.bind_some]
  exact hresult

--
-- Ranking
--

theorem not_ranksBefore_total (left right : (V1Validator Digest × Int) × Nat) :
    ¬ ranksBefore right left ∨ ¬ ranksBefore left right := by
  unfold ranksBefore
  by_cases heq : left.1.2 = right.1.2
  · rw [if_neg (not_not.mpr heq.symm), if_neg (not_not.mpr heq)]
    rcases lt_or_ge right.1.1.id left.1.1.id with hlt | hge
    · exact Or.inr (not_lt_of_gt hlt)
    · exact Or.inl (not_lt_of_ge hge)
  · rw [if_pos (Ne.symm heq), if_pos heq]
    omega

theorem not_ranksBefore_trans {a b c : (V1Validator Digest × Int) × Nat}
    (hab : ¬ ranksBefore b a) (hbc : ¬ ranksBefore c b) : ¬ ranksBefore c a := by
  unfold ranksBefore at *
  split at hab <;> split at hbc <;> split <;> try omega
  -- equal scores throughout
  exact not_lt_of_ge ((not_lt.mp hab).trans (not_lt.mp hbc))

instance : Std.Total (fun left right : (V1Validator Digest × Int) × Nat =>
    ¬ ranksBefore right left) := ⟨not_ranksBefore_total⟩

instance : IsTrans ((V1Validator Digest × Int) × Nat)
    (fun left right => ¬ ranksBefore right left) := ⟨fun _ _ _ => not_ranksBefore_trans⟩

/-- An id stands at one position of a valid set. -/
theorem ValidSet.index_eq {validators : List (V1Validator Digest)} (h : ValidSet validators)
    {i j : Nat} {a b : V1Validator Digest} (ha : validators[i]? = some a)
    (hb : validators[j]? = some b) (hid : a.id = b.id) : i = j := by
  have hnodup : (validators.map (·.id)).Nodup :=
    List.pairwise_map.mpr (h.ascending.imp (fun hlt => hlt.ne))
  have hlt : i < (validators.map (·.id)).length := by
    rw [List.length_map]
    exact (List.getElem?_eq_some_iff.mp ha).1
  refine (List.getElem?_inj hlt hnodup).mp ?_
  rw [List.getElem?_map, List.getElem?_map, ha, hb]
  exact congrArg some hid

/-- Higher scores first, lower ids first among equal scores. -/
structure IsRanking (validators : List (V1Validator Digest)) (ranked : Ranking) : Prop where
  length : ranked.scores.length = validators.length
  perm : ranked.order.Perm (List.range validators.length)
  sorted : ranked.order.Pairwise fun left right =>
    ∃ a ∈ validators[left]?, ∃ b ∈ validators[right]?, ∃ x ∈ ranked.scores[left]?,
      ∃ y ∈ ranked.scores[right]?, y < x ∨ x = y ∧ a.id < b.id

omit [LinearOrder Digest] in
theorem getElem?_of_zipIdx {validators : List (V1Validator Digest)} {scores : List Int}
    {entry : (V1Validator Digest × Int) × Nat} (h : entry ∈ (validators.zip scores).zipIdx) :
    validators[entry.2]? = some entry.1.1 ∧ scores[entry.2]? = some entry.1.2 := by
  rw [List.mem_zipIdx_iff_getElem?, List.getElem?_zip_eq_some] at h
  exact h

/-- The order `ranking` computes is the ranking. -/
theorem isRanking_sortedOrder {validators : List (V1Validator Digest)} {scores : List Int}
    (hvalid : ValidSet validators) (hlength : scores.length = validators.length) :
    IsRanking validators { scores, order := sortedOrder validators scores } := by
  have hsorted := (validators.zip scores).zipIdx.pairwise_insertionSort
    (fun left right => ¬ ranksBefore right left)
  have hperm := (validators.zip scores).zipIdx.perm_insertionSort
    (fun left right => ¬ ranksBefore right left)
  have hindices : (sortedOrder validators scores).Perm (List.range validators.length) := by
    have := hperm.map (·.2)
    rw [List.zipIdx_map_snd, List.length_zip, hlength, Nat.min_self, ← List.range_eq_range'] at this
    exact this
  refine ⟨hlength, hindices, ?_⟩
  have hnodup : (sortedOrder validators scores).Nodup := hindices.nodup_iff.mpr List.nodup_range
  refine List.pairwise_map.mpr ((hsorted.and (List.pairwise_map.mp hnodup)).imp_of_mem ?_)
  rintro a b ha hb ⟨hnot, hindex⟩
  obtain ⟨hva, hsa⟩ := getElem?_of_zipIdx (hperm.mem_iff.mp ha)
  obtain ⟨hvb, hsb⟩ := getElem?_of_zipIdx (hperm.mem_iff.mp hb)
  refine ⟨a.1.1, hva, b.1.1, hvb, a.1.2, hsa, b.1.2, hsb, ?_⟩
  unfold ranksBefore at hnot
  split at hnot
  · exact Or.inl (by omega)
  · rename_i heq
    refine Or.inr ⟨(not_not.mp heq).symm, lt_of_le_of_ne (not_lt.mp hnot) ?_⟩
    -- equal ids would be one position of the set
    intro hid
    exact hindex (hvalid.index_eq hva hvb hid)

--
-- The invariant, and one call
--

/-- What every schedule keeps: one priority for each validator of a valid set, in
ascending id order, that sum to zero and lie within `2W + 1`. -/
structure Sound (s : V1WeightedProposerSchedule Digest) : Prop where
  valid : ValidSet s.validators
  total : s.totalWeight.toNat = weightSum s.validators
  length : s.priorities.length = s.validators.length
  sum : s.priorities.sum = 0
  range : Within (s.totalWeight.toNat * 2 + 1) s.priorities

/-- The scores of `ranking`, without the overflow checks. -/
def scores (s : V1WeightedProposerSchedule Digest) : List Int :=
  (s.validators.zip s.priorities).map fun entry => entry.2 + entry.1.asPriority

namespace Sound

variable {s : V1WeightedProposerSchedule Digest}

theorem totalWeight_ne_zero (h : Sound s) : s.totalWeight ≠ 0 :=
  h.valid.weight_ne_zero h.total

theorem length_scores (h : Sound s) : s.scores.length = s.validators.length := by
  unfold scores
  rw [List.length_map, List.length_zip, h.length, Nat.min_self]

/-- A score is a priority within `2W + 1` of zero and one weight. -/
theorem scores_bounded (h : Sound s) : Bounded (2 ^ 67) s.scores := by
  intro score hscore
  obtain ⟨⟨validator, priority⟩, hmem, rfl⟩ := List.mem_map.mp hscore
  obtain ⟨hvalidator, hpriority⟩ := List.of_mem_zip hmem
  have hnear := h.range.bounded_of_sum_zero h.sum priority hpriority
  have hweight := weight_le_weightSum hvalidator
  have htotal := h.total
  have hfits := s.totalWeight.toNat_lt
  simp only [V1Validator.asPriority]
  omega

/-- **`ranking` cannot fail.** -/
theorem ranking_eq (h : Sound s) :
    s.ranking = some { scores := s.scores, order := sortedOrder s.validators s.scores } := by
  unfold ranking
  rw [IntVector.mapM_checked priorityLimit]
  · rfl
  · intro entry hentry
    have := h.scores_bounded _ (List.mem_map_of_mem hentry)
    unfold priorityLimit
    omega

theorem isRanking (h : Sound s) {ranked : Ranking} (hranked : s.ranking = some ranked) :
    IsRanking s.validators ranked := by
  rw [h.ranking_eq] at hranked
  obtain rfl := Option.some.inj hranked
  exact isRanking_sortedOrder h.valid h.length_scores

/-- The primary can always pay. -/
theorem payPrimary_spec (h : Sound s) {ranked : Ranking} (hranked : s.ranking = some ranked) :
    ∃ paid, s.payPrimary ranked = some paid ∧ paid.length = s.validators.length ∧
      Bounded (2 ^ 68) paid := by
  have hranking := h.isRanking hranked
  have hscores : ranked.scores = s.scores := by
    rw [h.ranking_eq] at hranked
    rw [← Option.some.inj hranked]
  have hne : ranked.order ≠ [] := by
    rw [← List.length_pos_iff, hranking.perm.length_eq, List.length_range]
    exact List.length_pos_iff.mpr h.valid.nonempty
  obtain ⟨primary, hprimary⟩ := Option.ne_none_iff_exists'.mp (mt List.head?_eq_none_iff.mp hne)
  have hlt : primary < ranked.scores.length := by
    rw [hranking.length]
    exact List.mem_range.mp (hranking.perm.mem_iff.mp (List.mem_of_head? hprimary))
  have hscore := List.getElem?_eq_getElem hlt
  have hfits := s.totalWeight.toNat_lt
  have hbounded : Bounded (2 ^ 67) ranked.scores := by
    rw [hscores]
    exact h.scores_bounded
  have hbounds := hbounded _ (List.getElem_mem hlt)
  refine ⟨ranked.scores.set primary (ranked.scores[primary] - s.totalWeight.toNat), ?_, ?_, ?_⟩
  · unfold payPrimary
    simp only [hprimary, Option.bind_eq_bind, Option.bind_some, hscore]
    rw [IntVector.checked_of_bounds (by unfold priorityLimit; omega)]
    rfl
  · rw [List.length_set]
    exact hranking.length
  · intro a ha
    rcases List.mem_or_eq_of_mem_set ha with hold | rfl
    · have := hbounded a hold
      omega
    · omega

/-- The paid scores can be normalized for any positive weight. -/
theorem normalize_paid (h : Sound s) {paid : List Int}
    (hlength : paid.length = s.validators.length) (hbounded : Bounded (2 ^ 68) paid)
    {weight : UInt64} (hweight : weight ≠ 0) :
    ∃ result, normalize paid weight = some result ∧ result.length = s.validators.length ∧
      result.sum = 0 ∧ Within (weight.toNat * 2 + 1) result := by
  have hne : paid ≠ [] := by
    rw [← List.length_pos_iff, hlength]
    exact List.length_pos_iff.mpr h.valid.nonempty
  have hwide : Bounded priorityBound paid := by
    intro a ha
    have := hbounded a ha
    unfold priorityBound
    omega
  obtain ⟨result, hresult, hlen, hzero, hclose⟩ :=
    normalize_spec hne (hlength ▸ h.valid.size) hwide hweight
  exact ⟨result, hresult, hlen.trans hlength, hzero, hclose⟩

end Sound

/-- When `finalize` accepts: the next height, which is not the last one, a valid set
at an epoch boundary or none, and the signer the ranking gives for the round. -/
def Accepts (s : V1WeightedProposerSchedule Digest) (height round : UInt64)
    (signedProposer : Digest) (nextSet : Option (NextSet Digest)) : Prop :=
  height = s.nextHeight ∧ height ≠ uint64Max ∧
    (∀ next ∈ nextSet, height % s.epochLengthBlocks = 0 ∧ ValidSet next.validators) ∧
    ∃ ranked, s.ranking = some ranked ∧ s.rankedId ranked round = some signedProposer

/-- The weight of an acceptable set. -/
theorem nextWeight_of_valid {nextSet : Option (NextSet Digest)}
    (h : ∀ next ∈ nextSet, ValidSet next.validators) :
    ∃ weight, nextWeight nextSet = some weight ∧
      ∀ next ∈ nextSet, weight.toNat = weightSum next.validators := by
  cases nextSet with
  | none => exact ⟨0, rfl, fun next hnext => by cases hnext⟩
  | some next =>
    have hvalid := h next rfl
    have hexact : (UInt64.ofNat (weightSum next.validators)).toNat = weightSum next.validators :=
      UInt64.toNat_ofNat_of_lt hvalid.total
    refine ⟨_, validSet_eq_some_iff.mpr ⟨hvalid, hexact⟩, ?_⟩
    rintro other hother
    obtain rfl := Option.some.inj hother
    exact hexact

/-- Neither branch of the update can fail, and what it writes is sound again. -/
theorem Sound.commit_spec {s : V1WeightedProposerSchedule Digest} (h : Sound s)
    {paid : List Int} (hlength : paid.length = s.validators.length)
    (hbounded : Bounded (2 ^ 68) paid) {nextSet : Option (NextSet Digest)} {weight : UInt64}
    (hvalid : ∀ next ∈ nextSet, ValidSet next.validators)
    (hweight : ∀ next ∈ nextSet, weight.toNat = weightSum next.validators) :
    ∃ priorities, s.nextPriorities paid nextSet weight = some priorities ∧
      Sound (s.commit priorities nextSet weight) := by
  cases nextSet with
  | none =>
    obtain ⟨priorities, hpriorities, hlen, hzero, hclose⟩ :=
      h.normalize_paid hlength hbounded h.totalWeight_ne_zero
    exact ⟨priorities, hpriorities, h.valid, h.total, hlen, hzero, hclose⟩
  | some next =>
    have hnext := hvalid next rfl
    have htotal := hweight next rfl
    have hpositive := hnext.weight_ne_zero htotal
    by_cases hsame : next.validators = s.validators
    · obtain ⟨priorities, hpriorities, hlen, hzero, hclose⟩ :=
        h.normalize_paid hlength hbounded hpositive
      refine ⟨priorities, ?_, hnext, htotal, hlen.trans (congrArg _ hsame.symm), hzero, hclose⟩
      unfold nextPriorities
      rw [← hpriorities]
      exact if_neg (not_not.mpr hsame)
    · obtain ⟨priorities, hpriorities, hlen, hzero, hclose⟩ :=
        rebase_spec s.validators hbounded hnext hpositive
      refine ⟨priorities, ?_, hnext, htotal, hlen, hzero, hclose⟩
      unfold nextPriorities
      rw [← hpriorities]
      exact if_pos hsame

/-- A call that meets the condition is accepted and keeps the invariant. -/
theorem Sound.finalize_accepted {s : V1WeightedProposerSchedule Digest} (h : Sound s)
    {height round : UInt64} {signedProposer : Digest} {nextSet : Option (NextSet Digest)}
    (haccepts : Accepts s height round signedProposer nextSet) :
    ∃ s', s.finalize height round signedProposer nextSet = (true, s') ∧ Sound s' := by
  obtain ⟨hheight, hlast, hset, ranked, hranked, hsigner⟩ := haccepts
  obtain ⟨weight, hweight, hexact⟩ := nextWeight_of_valid (fun next hnext => (hset next hnext).2)
  obtain ⟨paid, hpaid, hlength, hbounded⟩ := h.payPrimary_spec hranked
  obtain ⟨priorities, hpriorities, hsound⟩ :=
    h.commit_spec hlength hbounded (fun next hnext => (hset next hnext).2) hexact
  refine ⟨s.commit priorities nextSet weight, ?_, hsound⟩
  have hguard : ¬ (height ≠ s.nextHeight ∨ height = uint64Max
      ∨ (nextSet.isSome ∧ height % s.epochLengthBlocks ≠ 0)) := by
    rintro (hother | heq | ⟨hsome, hoff⟩)
    · exact hother hheight
    · exact hlast heq
    · obtain ⟨next, hnext⟩ := Option.isSome_iff_exists.mp hsome
      exact hoff (hset next hnext).1
  unfold finalize
  rw [if_neg hguard, hweight]
  simp only [hranked]
  rw [if_neg (not_not.mpr hsigner), hpaid]
  simp only [hpriorities]

/-- Any other call is refused before a member is written. -/
theorem finalize_refused {s : V1WeightedProposerSchedule Digest}
    {height round : UInt64} {signedProposer : Digest} {nextSet : Option (NextSet Digest)}
    (hnot : ¬ Accepts s height round signedProposer nextSet) :
    s.finalize height round signedProposer nextSet = (false, s) := by
  unfold finalize
  split
  · rfl
  · rename_i hguard
    simp only [not_or, not_and, not_not] at hguard
    obtain ⟨hheight, hlast, hboundary⟩ := hguard
    split
    · rfl
    · rename_i weight hweight
      have hset : ∀ next ∈ nextSet,
          height % s.epochLengthBlocks = 0 ∧ ValidSet next.validators := by
        rintro next rfl
        exact ⟨hboundary rfl, (validSet_eq_some_iff.mp hweight).1⟩
      split
      · rfl
      · rename_i ranked hranked
        by_cases hsigner : s.rankedId ranked round = some signedProposer
        · exact absurd ⟨hheight, hlast, hset, ranked, hranked, hsigner⟩ hnot
        · rw [if_pos hsigner]

--
-- Every reachable schedule
--

/-- Schedules made by `create` and any calls of `finalize`. -/
inductive Reachable : V1WeightedProposerSchedule Digest → Prop
  | create {epochLengthBlocks : UInt64} {genesisSetRoot : Digest}
      {genesisValidators : List (V1Validator Digest)} {s : V1WeightedProposerSchedule Digest}
      (h : create epochLengthBlocks genesisSetRoot genesisValidators = some s) : Reachable s
  | finalize {s : V1WeightedProposerSchedule Digest} (h : Reachable s) (height round : UInt64)
      (signedProposer : Digest) (nextSet : Option (NextSet Digest)) :
      Reachable (s.finalize height round signedProposer nextSet).2

theorem create_sound {epochLengthBlocks : UInt64} {genesisSetRoot : Digest}
    {genesisValidators : List (V1Validator Digest)} {s : V1WeightedProposerSchedule Digest}
    (h : create epochLengthBlocks genesisSetRoot genesisValidators = some s) : Sound s := by
  unfold create at h
  split at h
  · cases h
  · split at h
    · cases h
    · rename_i totalWeight htotal
      obtain rfl := Option.some.inj h
      obtain ⟨hvalid, hexact⟩ := validSet_eq_some_iff.mp htotal
      refine ⟨hvalid, hexact, List.length_replicate, ?_, ?_⟩
      · rw [List.sum_replicate, nsmul_zero]
      · intro a ha b hb
        rw [List.eq_of_mem_replicate ha, List.eq_of_mem_replicate hb]
        omega

theorem Reachable.sound {s : V1WeightedProposerSchedule Digest} (h : Reachable s) : Sound s := by
  induction h with
  | create h => exact create_sound h
  | @finalize s _ height round signedProposer nextSet ih =>
    by_cases haccepts : Accepts s height round signedProposer nextSet
    · obtain ⟨s', heq, hsound⟩ := ih.finalize_accepted haccepts
      rw [heq]
      exact hsound
    · rw [finalize_refused haccepts]
      exact ih

/-- No checked operation of a call fails: the ranking exists, the primary can pay, and
both `normalize` and `rebase` to any valid set return priorities. -/
structure NoFailure (s : V1WeightedProposerSchedule Digest) : Prop where
  ranking : ∃ ranked, s.ranking = some ranked ∧ IsRanking s.validators ranked
  update : ∀ ranked, s.ranking = some ranked →
    ∃ paid, s.payPrimary ranked = some paid ∧
      (normalize paid s.totalWeight).isSome ∧
      ∀ validators weight, validSet validators = some weight →
        (normalize paid weight).isSome ∧ (rebase s.validators paid validators weight).isSome

theorem Sound.noFailure {s : V1WeightedProposerSchedule Digest} (h : Sound s) : NoFailure s := by
  refine ⟨⟨_, h.ranking_eq, h.isRanking h.ranking_eq⟩, fun ranked hranked => ?_⟩
  obtain ⟨paid, hpaid, hlength, hbounded⟩ := h.payPrimary_spec hranked
  obtain ⟨result, hresult, -⟩ := h.normalize_paid hlength hbounded h.totalWeight_ne_zero
  refine ⟨paid, hpaid, Option.isSome_of_eq_some hresult, fun validators weight hvalid => ?_⟩
  obtain ⟨hset, htotal⟩ := validSet_eq_some_iff.mp hvalid
  have hpositive := hset.weight_ne_zero htotal
  obtain ⟨normalized, hnormalized, -⟩ := h.normalize_paid hlength hbounded hpositive
  obtain ⟨rebased, hrebased, -⟩ := rebase_spec s.validators hbounded hset hpositive
  exact ⟨Option.isSome_of_eq_some hnormalized, Option.isSome_of_eq_some hrebased⟩

/-- **The proposer schedule.** Every reachable schedule keeps the invariant, none of its
checked operations can fail, `finalize` accepts exactly the calls that meet
`Accepts`, and a refused call changes nothing. -/
theorem proposer_schedule_sound {s : V1WeightedProposerSchedule Digest} (h : Reachable s) :
    Sound s ∧ NoFailure s ∧
      ∀ (height round : UInt64) (signedProposer : Digest) (nextSet : Option (NextSet Digest)),
        ((s.finalize height round signedProposer nextSet).1 = true ↔
          Accepts s height round signedProposer nextSet) ∧
        ((s.finalize height round signedProposer nextSet).1 = false →
          (s.finalize height round signedProposer nextSet).2 = s) := by
  have hsound := h.sound
  refine ⟨hsound, hsound.noFailure, fun height round signedProposer nextSet => ?_⟩
  by_cases haccepts : Accepts s height round signedProposer nextSet
  · obtain ⟨s', heq, -⟩ := hsound.finalize_accepted haccepts
    rw [heq]
    exact ⟨⟨fun _ => haccepts, fun _ => rfl⟩, fun hfalse => nomatch hfalse⟩
  · rw [finalize_refused haccepts]
    exact ⟨⟨fun htrue => absurd htrue Bool.false_ne_true, fun h => absurd h haccepts⟩, fun _ => rfl⟩

/-- Four validators at genesis, with epochs of two blocks. -/
def genesisSchedule : V1WeightedProposerSchedule Nat :=
  { epochLengthBlocks := 2, nextHeight := 1, setRoot := 0, totalWeight := 34
    validators := [⟨1, 10⟩, ⟨2, 20⟩, ⟨5, 3⟩, ⟨9, 1⟩], priorities := [0, 0, 0, 0] }

theorem genesisSchedule_created :
    create 2 0 genesisSchedule.validators = some genesisSchedule := by
  rfl

/-- The heaviest validator signs the first block, and a set of two of the members, with
new weights, and one newcomer follows at the boundary. -/
theorem proposer_schedule_sound_genesis :
    Reachable genesisSchedule ∧
      (genesisSchedule.finalize 1 0 2 none).1 = true ∧
      Sound ((genesisSchedule.finalize 1 0 2 none).2.finalize 2 0 1
        (some ⟨7, [⟨2, 1⟩, ⟨3, 1⟩, ⟨9, 5⟩]⟩)).2 ∧
      ((genesisSchedule.finalize 1 0 2 none).2.finalize 2 0 1
        (some ⟨7, [⟨2, 1⟩, ⟨3, 1⟩, ⟨9, 5⟩]⟩)).2.priorities = [5, -6, 1] :=
  ⟨.create genesisSchedule_created, by decide +kernel,
    (proposer_schedule_sound (.finalize (.finalize (.create genesisSchedule_created) 1 0 2 none) 2 0
      1 (some ⟨7, [⟨2, 1⟩, ⟨3, 1⟩, ⟨9, 5⟩]⟩))).1,
    by decide +kernel⟩

end V1WeightedProposerSchedule

end Nodo.Model
