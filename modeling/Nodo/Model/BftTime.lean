import Nodo.Lib.WeightedMedian
import Nodo.Model.ForkChoice
import Nodo.Model.UpgradeSchedule
import Nodo.Model.ValidatorSetHistory

/-!
# Nodo — header time and epochs

`consensus/EpochCadence.cpp`, the arithmetic of epochs over block heights, and
`consensus/BftTime.cpp`, the time that a child of a block has to carry: the weighted lower
median of the times in the certificate of its parent, and at least one target interval
after the parent.

The certificate names a time for each voter. What keeps the median honest is the threshold:
a certificate carries more than two thirds of the weight, so voters below one third are
less than half of what is signed.

## Results

* `EpochCadence.epochForHeight_eq_some_iff` and its neighbours — epochs tile the heights.
* `BftTime.expectedChildTime_eq_some_iff` — what an accepted certificate has passed.
* `BftTime.bft_time_bounded` — the time lies between times of voters outside any third.
* `header_time_and_epochs` — header times stay above the bound that the cadence gives.
-/

namespace Nodo.Model

--
-- Epochs
--

structure EpochCadence where
  epochLengthBlocks : UInt64
  targetBlockSeconds : UInt64
  deriving DecidableEq

namespace EpochCadence

/-- `EpochCadence::kMaxTargetBlockSeconds`. -/
def kMaxTargetBlockSeconds : UInt64 := 300

/-- `EpochCadence::kMinNominalEpochSeconds`, one day. -/
def kMinNominalEpochSeconds : UInt64 := 24 * 60 * 60

/-- `EpochCadence::kMaxNominalEpochSeconds`, one week. -/
def kMaxNominalEpochSeconds : UInt64 := 7 * 24 * 60 * 60

def create (epochLengthBlocks targetBlockSeconds : UInt64) : Option EpochCadence :=
  if epochLengthBlocks = 0 ∨ targetBlockSeconds = 0 ∨ kMaxTargetBlockSeconds < targetBlockSeconds
      ∨ kMaxNominalEpochSeconds / targetBlockSeconds < epochLengthBlocks
      ∨ epochLengthBlocks * targetBlockSeconds < kMinNominalEpochSeconds then none
  else some { epochLengthBlocks, targetBlockSeconds }

def nominalEpochSeconds (cadence : EpochCadence) : UInt64 :=
  cadence.epochLengthBlocks * cadence.targetBlockSeconds

def epochForHeight (cadence : EpochCadence) (height : UInt64) : Option UInt64 :=
  if height = 0 then none else some ((height - 1) / cadence.epochLengthBlocks)

def isFinalBlockOfEpoch (cadence : EpochCadence) (height : UInt64) : Bool :=
  height != 0 && height % cadence.epochLengthBlocks == 0

def firstHeight (cadence : EpochCadence) (epoch : UInt64) : Option UInt64 :=
  if (uint64Max - 1) / cadence.epochLengthBlocks < epoch then none
  else some (epoch * cadence.epochLengthBlocks + 1)

def lastHeight (cadence : EpochCadence) (epoch : UInt64) : Option UInt64 :=
  if epoch = uint64Max ∨ uint64Max / cadence.epochLengthBlocks < epoch + 1 then none
  else some ((epoch + 1) * cadence.epochLengthBlocks)

/-- `available` is the cast of a difference that is not negative for an `int64`. -/
def earliestHeaderTime (cadence : EpochCadence) (genesisTime : Int) (height : UInt64) :
    Option Int :=
  if genesisTime ≤ 0 then none
  else
    let available := UInt64.ofNat (int64Max.toNat - genesisTime).toNat
    if available / cadence.targetBlockSeconds < height then none
    else some (genesisTime + (height * cadence.targetBlockSeconds).toNat)

end EpochCadence

--
-- The time of a child
--

namespace BftTime

/-- The vote loop of `expectedChildTime`: the signed weight and a pair for each vote; `none`
where the source returns `nullopt`. -/
def collectVoteTimes (registry : ValidatorRegistry) (parentTimestamp : Int) :
    UInt64 → List (Int × UInt64) → List ValidatorVoteRecord → Option (UInt64 × List (Int × UInt64))
  | signedWeight, voteTimes, [] => some (signedWeight, voteTimes)
  | signedWeight, voteTimes, vote :: rest =>
    if vote.createdAt < parentTimestamp then none
    else
      let weight := registry.consensusWeightFor vote.validatorAddress
      if weight = 0 ∨ uint64Max - weight < signedWeight then none
      else collectVoteTimes registry parentTimestamp (signedWeight + weight)
        (voteTimes ++ [(vote.createdAt, weight)]) rest

/-- `operator<=` of the pairs. -/
def pairLe (left right : Int × UInt64) : Bool :=
  left.1 < right.1 || (left.1 == right.1 && left.2 ≤ right.2)

/-- The loop over the sorted pairs: the first time at which the running weight reaches the
threshold. -/
def medianTime (threshold : UInt64) : UInt64 → List (Int × UInt64) → Option Int
  | _, [] => none
  | cumulative, (time, weight) :: rest =>
    if threshold ≤ cumulative + weight then some time
    else medianTime threshold (cumulative + weight) rest

/-- The first check of `expectedChildTime`. -/
def refusesParent (hashBytes : String → String) (parent : ChainBlock)
    (targetBlockSeconds : UInt64) : Bool :=
  !parent.isValid hashBytes false || parent.timestamp ≤ 0 || parent.previousHash == "SNAPSHOT"
    || parent.index == uint64Max || targetBlockSeconds == 0
    || EpochCadence.kMaxTargetBlockSeconds < targetBlockSeconds
    || (int64Max.toNat : Int) - parent.timestamp < targetBlockSeconds.toNat

/-- `BftTime::expectedChildTime`. Pairs are totally ordered, so the order `std::sort` leaves is the
only one. -/
def expectedChildTime (crypto : CryptoContext) (hashBytes : String → String) (parent : ChainBlock)
    (targetBlockSeconds : UInt64) (parentCertificate : Option QuorumCertificate)
    (validatorSetHistory : Option ValidatorSetHistory) : Option Int :=
  if refusesParent hashBytes parent targetBlockSeconds then none
  else
    let minimum := parent.timestamp + targetBlockSeconds.toNat
    if parent.isGenesisBlock then
      match parentCertificate with
      | none => some minimum
      | some _ => none
    else
      match parentCertificate, validatorSetHistory with
      | some certificate, some history =>
        if !history.hasSet parent.index.toNat || certificate.blockIndex != parent.index.toNat
            || certificate.blockHash != parent.hash
            || certificate.previousHash != parent.previousHash then none
        else
          match history.setAt parent.index.toNat with
          -- a recorded height has a set
          | .error _ => none
          | .ok registry =>
            if !certificate.verify crypto registry then none
            else
              match collectVoteTimes registry parent.timestamp 0 [] certificate.votes with
              | none => none
              | some (signedWeight, voteTimes) =>
                if signedWeight ≠ certificate.signedVotingWeight ∨ signedWeight = 0 then none
                else
                  (medianTime (signedWeight / 2 + signedWeight % 2) 0
                    (voteTimes.mergeSort pairLe)).map (max minimum)
      | _, _ => none

end BftTime

--
-- The pairs of a certificate
--

namespace BftTime

/-- The pair that a vote contributes. -/
def voteTime (registry : ValidatorRegistry) (vote : ValidatorVoteRecord) : Int × UInt64 :=
  (vote.createdAt, registry.consensusWeightFor vote.validatorAddress)

/-- The weight of the voters of some votes. -/
def votesWeight (registry : ValidatorRegistry) (votes : List ValidatorVoteRecord) : Nat :=
  (votes.map fun vote => registry.weightOf vote.validatorAddress).sum

variable {registry : ValidatorRegistry} {parentTimestamp : Int}

theorem not_guard_iff' {a b : UInt64} :
    ¬ uint64Max - b < a ↔ a.toNat + b.toNat ≤ uint64Max.toNat := by
  rw [not_guard_iff]
  omega

/-- What the vote loop returns. -/
theorem collectVoteTimes_spec {votes : List ValidatorVoteRecord} {start signedWeight : UInt64}
    {voteTimes result : List (Int × UInt64)}
    (h : collectVoteTimes registry parentTimestamp start voteTimes votes =
      some (signedWeight, result)) :
    result = voteTimes ++ votes.map (voteTime registry) ∧
      (∀ vote ∈ votes, parentTimestamp ≤ vote.createdAt) ∧
      signedWeight.toNat = start.toNat + votesWeight registry votes := by
  induction votes generalizing start voteTimes with
  | nil =>
    rw [collectVoteTimes] at h
    obtain ⟨rfl, rfl⟩ := Prod.mk.inj (Option.some.inj h)
    exact ⟨(List.append_nil _).symm, (fun _ hvote => nomatch hvote), rfl⟩
  | cons vote rest ih =>
    rw [collectVoteTimes] at h
    obtain ⟨htime, h⟩ := Guards.some_of_ite_none h
    obtain ⟨hguard, h⟩ := Guards.some_of_ite_none h
    rw [not_or, not_guard_iff'] at hguard
    obtain ⟨hresult, htimes, hweight⟩ := ih h
    have hadd := toNat_add_of_guard (not_guard_iff.mpr hguard.2)
    refine ⟨?_, List.forall_mem_cons.mpr ⟨not_lt.mp htime, htimes⟩, ?_⟩
    · rw [hresult, List.map_cons, List.append_assoc]
      rfl
    · rw [hweight, hadd, votesWeight, votesWeight, List.map_cons, List.sum_cons,
        ValidatorRegistry.weightOf, Nat.add_assoc]

/-- The vote loop on weighted votes that fit and are not older than the parent. -/
theorem collectVoteTimes_ok {votes : List ValidatorVoteRecord} {start : UInt64}
    {voteTimes : List (Int × UInt64)}
    (htimes : ∀ vote ∈ votes, parentTimestamp ≤ vote.createdAt)
    (hweights : ∀ vote ∈ votes, registry.consensusWeightFor vote.validatorAddress ≠ 0)
    (hfits : start.toNat + votesWeight registry votes ≤ uint64Max.toNat) :
    ∃ signedWeight, collectVoteTimes registry parentTimestamp start voteTimes votes =
      some (signedWeight, voteTimes ++ votes.map (voteTime registry)) := by
  induction votes generalizing start voteTimes with
  | nil => exact ⟨start, by rw [collectVoteTimes, List.map_nil, List.append_nil]⟩
  | cons vote rest ih =>
    obtain ⟨htime, htimes⟩ := List.forall_mem_cons.mp htimes
    obtain ⟨hweight, hweights⟩ := List.forall_mem_cons.mp hweights
    unfold votesWeight at hfits
    rw [List.map_cons, List.sum_cons, ValidatorRegistry.weightOf] at hfits
    have hguard : ¬ uint64Max - registry.consensusWeightFor vote.validatorAddress < start :=
      not_guard_iff'.mpr (by omega)
    have hadd := toNat_add_of_guard (not_guard_iff.mpr (not_guard_iff'.mp hguard))
    obtain ⟨signedWeight, hloop⟩ := @ih
      (start + registry.consensusWeightFor vote.validatorAddress)
      (voteTimes ++ [voteTime registry vote]) htimes hweights (by
        unfold votesWeight
        omega)
    refine ⟨signedWeight, ?_⟩
    rw [collectVoteTimes, if_neg (not_lt.mpr htime)]
    dsimp only
    rw [if_neg (not_or.mpr ⟨hweight, hguard⟩)]
    refine hloop.trans ?_
    rw [List.map_cons, List.append_assoc]
    rfl

--
-- The sorted pairs
--

theorem pairLe_iff {left right : Int × UInt64} :
    pairLe left right = true ↔
      left.1 < right.1 ∨ left.1 = right.1 ∧ left.2.toNat ≤ right.2.toNat := by
  unfold pairLe
  rw [Bool.or_eq_true, Bool.and_eq_true, decide_eq_true_eq, decide_eq_true_eq, beq_iff_eq,
    UInt64.le_iff_toNat_le]

theorem pairLe_trans (a b c : Int × UInt64) (hab : pairLe a b = true) (hbc : pairLe b c = true) :
    pairLe a c = true := by
  rw [pairLe_iff] at *
  omega

theorem pairLe_total (a b : Int × UInt64) : (pairLe a b || pairLe b a) = true := by
  rw [Bool.or_eq_true, pairLe_iff, pairLe_iff]
  omega

theorem pairLe_antisymm {a b : Int × UInt64} (hab : pairLe a b = true) (hba : pairLe b a = true) :
    a = b := by
  rw [pairLe_iff] at hab hba
  exact Prod.ext (by omega) (UInt64.toNat_inj.mp (by omega))

/-- The order of the votes is forgotten. -/
theorem mergeSort_perm_eq {pairs pairs' : List (Int × UInt64)} (h : pairs.Perm pairs') :
    pairs.mergeSort pairLe = pairs'.mergeSort pairLe :=
  List.Perm.eq_of_pairwise (fun _ _ _ _ => pairLe_antisymm)
    (List.pairwise_mergeSort pairLe_trans pairLe_total pairs)
    (List.pairwise_mergeSort pairLe_trans pairLe_total pairs')
    (((List.mergeSort_perm pairs pairLe).trans h).trans (List.mergeSort_perm pairs' pairLe).symm)

/-- The votes in the order of their pairs. -/
def sortedVotes (registry : ValidatorRegistry) (votes : List ValidatorVoteRecord) :
    List ValidatorVoteRecord :=
  votes.mergeSort fun left right => pairLe (voteTime registry left) (voteTime registry right)

theorem sortedVotes_perm (votes : List ValidatorVoteRecord) :
    (sortedVotes registry votes).Perm votes := List.mergeSort_perm _ _

theorem map_sortedVotes (votes : List ValidatorVoteRecord) :
    (sortedVotes registry votes).map (voteTime registry) =
      (votes.map (voteTime registry)).mergeSort pairLe :=
  List.map_mergeSort (fun _ _ _ _ => rfl)

theorem sortedVotes_pairwise (votes : List ValidatorVoteRecord) :
    (sortedVotes registry votes).Pairwise fun left right => left.createdAt ≤ right.createdAt := by
  have hsorted := List.pairwise_mergeSort pairLe_trans pairLe_total
    (votes.map (voteTime registry))
  rw [← map_sortedVotes, List.pairwise_map] at hsorted
  refine hsorted.imp (fun h => ?_)
  rw [pairLe_iff] at h
  simp only [voteTime] at h
  omega

/-- The loop over pairs whose weights fit is the search for the running weight. -/
theorem medianTime_eq {threshold cumulative : UInt64} {pairs : List (Int × UInt64)}
    (hfits : cumulative.toNat + WeightedMedian.total (·.2.toNat) pairs < 2 ^ 64) :
    medianTime threshold cumulative pairs =
      (WeightedMedian.reach (·.2.toNat) threshold.toNat cumulative.toNat pairs).map (·.1) := by
  induction pairs generalizing cumulative with
  | nil => rfl
  | cons pair rest ih =>
    rw [WeightedMedian.total_cons] at hfits
    have hadd : (cumulative + pair.2).toNat = cumulative.toNat + pair.2.toNat := by
      rw [UInt64.toNat_add]
      exact Nat.mod_eq_of_lt (by omega)
    have hiff : threshold ≤ cumulative + pair.2 ↔
        threshold.toNat ≤ cumulative.toNat + pair.2.toNat := by
      rw [UInt64.le_iff_toNat_le, hadd]
    rw [medianTime, WeightedMedian.reach]
    by_cases hreached : threshold.toNat ≤ cumulative.toNat + pair.2.toNat
    · rw [if_pos (hiff.mpr hreached), if_pos hreached]
      rfl
    · rw [if_neg (mt hiff.mp hreached), if_neg hreached, ih (by omega), hadd]

/-- `ceil(S/2)`, without overflow. -/
theorem half_toNat (signedWeight : UInt64) :
    (signedWeight / 2 + signedWeight % 2).toNat = (signedWeight.toNat + 1) / 2 := by
  have hlt := signedWeight.toNat_lt
  rw [UInt64.toNat_add, UInt64.toNat_div, UInt64.toNat_mod]
  have htwo : (2 : UInt64).toNat = 2 := rfl
  rw [htwo, Nat.mod_eq_of_lt (by omega)]
  omega

/-- **The median of a certificate**, over its votes. -/
theorem medianTime_votes {votes : List ValidatorVoteRecord} {signedWeight : UInt64}
    (hsigned : signedWeight.toNat = votesWeight registry votes) :
    medianTime (signedWeight / 2 + signedWeight % 2) 0
        ((votes.map (voteTime registry)).mergeSort pairLe) =
      (WeightedMedian.reach (fun vote => registry.weightOf vote.validatorAddress)
        ((votesWeight registry (sortedVotes registry votes) + 1) / 2) 0
        (sortedVotes registry votes)).map (·.createdAt) := by
  have htotal : votesWeight registry (sortedVotes registry votes) = votesWeight registry votes :=
    ((sortedVotes_perm votes).map _).sum_eq
  have hpairs : WeightedMedian.total (·.2.toNat)
      ((sortedVotes registry votes).map (voteTime registry)) = votesWeight registry votes := by
    rw [← htotal, WeightedMedian.total, List.map_map]
    rfl
  have hlt := signedWeight.toNat_lt
  rw [← map_sortedVotes, medianTime_eq (by rw [hpairs, UInt64.toNat_zero]; omega), half_toNat,
    UInt64.toNat_zero, hsigned, ← htotal, WeightedMedian.reach_map, Option.map_map]
  rfl

end BftTime

--
-- An accepted certificate
--

namespace QuorumCertificate

/-- The checks of `verify` that do not look at the votes one by one. -/
theorem verify_conditions {crypto : CryptoContext} {registry : ValidatorRegistry}
    {certificate : QuorumCertificate} (h : certificate.verify crypto registry = true) :
    registry.isValid crypto = true ∧
      registry.validatorSetRoot crypto = some certificate.validatorSetRoot ∧
      isSafeScalar certificate.validatorSetRoot = true ∧ certificate.votes ≠ [] ∧
      certificate.signedVotingWeight ≤ certificate.totalVotingWeight := by
  have hstructure := isStructurallyValid_of_verify h
  obtain ⟨-, h⟩ := Guards.true_of_ite_false h
  obtain ⟨hvalid, h⟩ := Guards.true_of_ite_false h
  obtain ⟨-, h⟩ := Guards.true_of_ite_false h
  obtain ⟨-, h⟩ := Guards.true_of_ite_false h
  obtain ⟨hroot, -⟩ := Guards.true_of_ite_false h
  obtain ⟨-, hstructure⟩ := Guards.true_of_ite_false hstructure
  obtain ⟨hsafe, hstructure⟩ := Guards.true_of_ite_false hstructure
  obtain ⟨hweights, hstructure⟩ := Guards.true_of_ite_false hstructure
  obtain ⟨-, hstructure⟩ := Guards.true_of_ite_false hstructure
  obtain ⟨hvotes, -⟩ := Guards.true_of_ite_false hstructure
  simp only [Bool.or_eq_true, Bool.not_eq_true', not_or, Bool.not_eq_false] at hsafe
  simp only [Bool.or_eq_true, decide_eq_true_eq, not_or, UInt64.not_lt] at hweights
  exact ⟨by simpa using hvalid, by simpa using hroot, hsafe.2, by simpa using hvotes, hweights.1.2⟩

/-- The votes of a verified certificate are usable for its target. -/
theorem Verified.usable {crypto : CryptoContext} {registry : ValidatorRegistry}
    {certificate : QuorumCertificate} (h : Verified crypto registry certificate) :
    ∀ vote ∈ certificate.votes, UsableVote crypto registry
      ⟨certificate.blockIndex, certificate.blockHash, certificate.previousHash,
        certificate.round⟩ vote := by
  intro vote hvote
  have hcounted := h.counted vote hvote
  exact ⟨hcounted.verified, hcounted.matchesBlock, hcounted.previousHash, hcounted.precommit,
    hcounted.identity, hcounted.weighted⟩

/-- **The order of the votes does not matter to `verify`.** -/
theorem verify_perm {crypto : CryptoContext} {registry : ValidatorRegistry}
    {certificate : QuorumCertificate} {votes : List ValidatorVoteRecord}
    (h : certificate.verify crypto registry = true) (hperm : votes.Perm certificate.votes) :
    ({ certificate with votes := votes } : QuorumCertificate).verify crypto registry = true := by
  have hverified := verify_spec h
  obtain ⟨hvalid, hroot, hsafe, hne, hbound⟩ := verify_conditions h
  have husable : ∀ vote ∈ votes, UsableVote crypto registry
      ⟨certificate.blockIndex, certificate.blockHash, certificate.previousHash,
        certificate.round⟩ vote := fun vote hvote => hverified.usable vote (hperm.mem_iff.mp hvote)
  have hnodup : (votes.map (·.validatorAddress)).Nodup := by
    rw [(hperm.map _).nodup_iff]
    exact hverified.nodup
  have hsum : (votes.map fun vote => registry.weightOf vote.validatorAddress).sum =
      certificate.signedVotingWeight.toNat := by
    rw [hverified.signed, voters, List.map_map]
    exact (hperm.map _).sum_eq
  have hlt := certificate.signedVotingWeight.toNat_lt
  obtain ⟨signed, -, hcount⟩ := @collectVotes_ok _ _ _ _ [] 0 husable hnodup
    (by simp) (by rw [hsum, UInt64.toNat_zero, uint64Max_toNat]; omega)
  obtain rfl : signed = certificate.signedVotingWeight := by
    rw [← UInt64.toNat_inj, (countSignedWeight_spec hcount).1, UInt64.toNat_zero, Nat.zero_add, hsum]
  refine @verify_of_usable _ _ { certificate with votes := votes } hvalid
    hverified.total hverified.required hroot hsafe ?_ husable hnodup hcount hverified.enough hbound
  rintro rfl
  exact hne hperm.nil_eq.symm

end QuorumCertificate

namespace BftTime

variable {crypto : CryptoContext} {hashBytes : String → String} {parent : ChainBlock}
  {targetBlockSeconds : UInt64} {certificate : QuorumCertificate} {history : ValidatorSetHistory}

/-- What `expectedChildTime` checks of a certificate for a parent that is not the genesis block. -/
structure Accepted (crypto : CryptoContext) (hashBytes : String → String) (parent : ChainBlock)
    (targetBlockSeconds : UInt64) (certificate : QuorumCertificate)
    (history : ValidatorSetHistory) (registry : ValidatorRegistry) : Prop where
  admitted : refusesParent hashBytes parent targetBlockSeconds = false
  recorded : history.hasSet parent.index.toNat = true
  index : certificate.blockIndex = parent.index.toNat
  hash : certificate.blockHash = parent.hash
  previousHash : certificate.previousHash = parent.previousHash
  set : history.setAt parent.index.toNat = .ok registry
  verified : certificate.verify crypto registry = true
  times : ∀ vote ∈ certificate.votes, parent.timestamp ≤ vote.createdAt

/-- The lower median of the vote times. -/
def medianVoteTime (registry : ValidatorRegistry) (certificate : QuorumCertificate) : Option Int :=
  medianTime (certificate.signedVotingWeight / 2 + certificate.signedVotingWeight % 2) 0
    ((certificate.votes.map (voteTime registry)).mergeSort pairLe)

theorem signed_eq {registry : ValidatorRegistry}
    (h : certificate.verify crypto registry = true) :
    certificate.signedVotingWeight.toNat = votesWeight registry certificate.votes ∧
      certificate.signedVotingWeight ≠ 0 := by
  have hverified := QuorumCertificate.verify_spec h
  constructor
  · rw [hverified.signed, QuorumCertificate.voters, List.map_map]
    rfl
  · intro hzero
    have henough := hverified.enough
    rw [UInt64.le_iff_toNat_le, requiredWeight_toNat hverified.required, hzero,
      UInt64.toNat_zero] at henough
    omega

/-- **What an accepted certificate has passed**, and the time it gives. -/
theorem expectedChildTime_eq_some_iff (hgenesis : parent.isGenesisBlock = false) {time : Int} :
    expectedChildTime crypto hashBytes parent targetBlockSeconds (some certificate)
        (some history) = some time ↔
      ∃ registry, Accepted crypto hashBytes parent targetBlockSeconds certificate history registry ∧
        ∃ median, medianVoteTime registry certificate = some median ∧
          time = max (parent.timestamp + targetBlockSeconds.toNat) median := by
  unfold expectedChildTime
  constructor
  · intro h
    obtain ⟨hparent, h⟩ := Guards.some_of_ite_none h
    dsimp only at h
    rw [if_neg (by rw [hgenesis]; exact Bool.false_ne_true)] at h
    obtain ⟨hmatches, h⟩ := Guards.some_of_ite_none h
    simp only [Bool.or_eq_true, Bool.not_eq_true', bne_iff_ne, not_or, not_not,
      Bool.not_eq_false] at hmatches
    obtain ⟨⟨⟨hrecorded, hindex⟩, hhash⟩, hprevious⟩ := hmatches
    split at h
    · cases h
    · rename_i registry hset
      obtain ⟨hverify, h⟩ := Guards.some_of_ite_none h
      have hverify : certificate.verify crypto registry = true := by simpa using hverify
      split at h
      · cases h
      · rename_i signedWeight voteTimes hloop
        obtain ⟨hsigned, h⟩ := Guards.some_of_ite_none h
        simp only [not_or, not_not] at hsigned
        obtain ⟨rfl, -⟩ := hsigned
        obtain ⟨rfl, htimes, -⟩ := collectVoteTimes_spec hloop
        rw [List.nil_append] at h
        obtain ⟨median, hmedian, rfl⟩ := Option.map_eq_some_iff.mp h
        exact ⟨registry, ⟨by simpa using hparent, hrecorded, hindex, hhash, hprevious, hset, hverify,
          htimes⟩, median, hmedian, rfl⟩
  · rintro ⟨registry, haccepted, median, hmedian, rfl⟩
    obtain ⟨hsum, hpositive⟩ := signed_eq haccepted.verified
    have hlt := certificate.signedVotingWeight.toNat_lt
    obtain ⟨signedWeight, hloop⟩ := @collectVoteTimes_ok _ _ _ 0 []
      haccepted.times
      (fun vote hvote => ((QuorumCertificate.verify_spec haccepted.verified).counted vote hvote).weighted)
      (by rw [← hsum, UInt64.toNat_zero, uint64Max_toNat]; omega)
    obtain rfl : signedWeight = certificate.signedVotingWeight := by
      rw [← UInt64.toNat_inj, (collectVoteTimes_spec hloop).2.2, UInt64.toNat_zero, Nat.zero_add, hsum]
    rw [List.nil_append] at hloop
    rw [if_neg (by rw [haccepted.admitted]; exact Bool.false_ne_true)]
    dsimp only
    rw [if_neg (by rw [hgenesis]; exact Bool.false_ne_true), if_neg (by
      simp [haccepted.recorded, haccepted.index, haccepted.hash, haccepted.previousHash]),
      haccepted.set]
    dsimp only
    rw [if_neg (by simp [haccepted.verified]), hloop]
    dsimp only
    rw [if_neg (by simp [hpositive])]
    unfold medianVoteTime at hmedian
    rw [hmedian]
    rfl

--
-- Bounded by the other clocks
--

/-- A certificate with its votes in another order is accepted with the same time. -/
theorem expectedChildTime_of_perm (hgenesis : parent.isGenesisBlock = false) {time : Int}
    (h : expectedChildTime crypto hashBytes parent targetBlockSeconds (some certificate)
      (some history) = some time)
    {votes : List ValidatorVoteRecord} (hperm : votes.Perm certificate.votes) :
    expectedChildTime crypto hashBytes parent targetBlockSeconds
      (some { certificate with votes := votes }) (some history) = some time := by
  obtain ⟨registry, haccepted, median, hmedian, rfl⟩ :=
    (expectedChildTime_eq_some_iff hgenesis).mp h
  refine (expectedChildTime_eq_some_iff hgenesis).mpr ⟨registry,
    ⟨haccepted.admitted, haccepted.recorded, haccepted.index, haccepted.hash,
      haccepted.previousHash, haccepted.set, QuorumCertificate.verify_perm haccepted.verified hperm,
      fun vote hvote => haccepted.times vote (hperm.mem_iff.mp hvote)⟩, median, ?_, rfl⟩
  unfold medianVoteTime at hmedian ⊢
  rw [← hmedian, mergeSort_perm_eq (hperm.map (voteTime registry))]

/-- The voters of some votes of a certificate weigh what their votes do. -/
theorem total_filter_le {registry : ValidatorRegistry} {votes : List ValidatorVoteRecord}
    (hnodup : (votes.map (·.validatorAddress)).Nodup) (D : Finset String) :
    WeightedMedian.total (fun vote => registry.weightOf vote.validatorAddress)
        (votes.filter fun vote => vote.validatorAddress ∈ D) ≤
      Quorum.weight registry.weightOf D := by
  have hsub : ((votes.filter fun vote => vote.validatorAddress ∈ D).map
      (·.validatorAddress)).Sublist (votes.map (·.validatorAddress)) := List.filter_sublist.map _
  have hsum : WeightedMedian.total (fun vote => registry.weightOf vote.validatorAddress)
      (votes.filter fun vote => vote.validatorAddress ∈ D) =
      Quorum.weight registry.weightOf ((votes.filter fun vote => vote.validatorAddress ∈ D).map
        (·.validatorAddress)).toFinset := by
    rw [Quorum.weight, List.sum_toFinset _ (hnodup.sublist hsub), List.map_map]
    rfl
  rw [hsum]
  refine Quorum.weight_mono (fun address hmem => ?_)
  obtain ⟨vote, hvote, rfl⟩ := List.mem_map.mp (List.mem_toFinset.mp hmem)
  exact of_decide_eq_true (List.mem_filter.mp hvote).2

/-- **The median lies between clocks outside any third of the weight.** A verified
certificate carries more than two thirds, so voters of less than one third are less than
half of it. -/
theorem medianVoteTime_between {registry : ValidatorRegistry}
    (hverify : certificate.verify crypto registry = true) {median : Int}
    (hmedian : medianVoteTime registry certificate = some median) {D : Finset String}
    (hD : 3 * Quorum.weight registry.weightOf D < certificate.totalVotingWeight.toNat) :
    (∃ vote ∈ certificate.votes, vote.validatorAddress ∉ D ∧ vote.createdAt ≤ median) ∧
      ∃ vote ∈ certificate.votes, vote.validatorAddress ∉ D ∧ median ≤ vote.createdAt := by
  have hverified := QuorumCertificate.verify_spec hverify
  obtain ⟨hsigned, -⟩ := signed_eq hverify
  have hperm := @sortedVotes_perm registry certificate.votes
  have htotal : votesWeight registry (sortedVotes registry certificate.votes) =
      votesWeight registry certificate.votes := (hperm.map _).sum_eq
  -- the threshold of the certificate
  have henough := hverified.enough
  rw [UInt64.le_iff_toNat_le, requiredWeight_toNat hverified.required, hsigned] at henough
  have hnodup : ((sortedVotes registry certificate.votes).map (·.validatorAddress)).Nodup := by
    rw [(hperm.map _).nodup_iff]
    exact hverified.nodup
  have hdoubtful := @total_filter_le registry _ hnodup D
  unfold medianVoteTime at hmedian
  rw [medianTime_votes hsigned] at hmedian
  obtain ⟨middle, hreach, rfl⟩ := Option.map_eq_some_iff.mp hmedian
  obtain ⟨⟨early, hearly, hsound, hle⟩, late, hlate, hsound', hge⟩ :=
    WeightedMedian.median_between (sortedVotes_pairwise certificate.votes) hreach
      (fun vote => decide (vote.validatorAddress ∈ D)) (by
        unfold votesWeight at htotal henough
        unfold WeightedMedian.total at hdoubtful ⊢
        omega)
  exact ⟨⟨early, hperm.mem_iff.mp hearly, of_decide_eq_false hsound, hle⟩, late,
    hperm.mem_iff.mp hlate, of_decide_eq_false hsound', hge⟩

/-- The running weights of an accepted certificate stay within what it signs. -/
theorem running_weight_le {registry : ValidatorRegistry}
    (hverify : certificate.verify crypto registry = true) :
    (∀ part, part <+: certificate.votes →
      votesWeight registry part ≤ certificate.signedVotingWeight.toNat) ∧
    ∀ part, part <+: (certificate.votes.map (voteTime registry)).mergeSort pairLe →
      WeightedMedian.total (·.2.toNat) part ≤ certificate.signedVotingWeight.toNat := by
  obtain ⟨hsigned, -⟩ := signed_eq hverify
  constructor
  · intro part hpart
    rw [hsigned]
    exact (hpart.sublist.map _).sum_le_sum (fun _ _ => Nat.zero_le _)
  · intro part hpart
    have hall : WeightedMedian.total (·.2.toNat)
        ((certificate.votes.map (voteTime registry)).mergeSort pairLe) =
        certificate.signedVotingWeight.toNat := by
      rw [hsigned, WeightedMedian.total, ((List.mergeSort_perm _ _).map _).sum_eq, List.map_map]
      rfl
    rw [← hall]
    exact WeightedMedian.total_le_of_sublist hpart.sublist

/-- **BFT time.** The time that an accepted certificate gives is the floor of one target
interval or a median that lies between the vote times of voters outside any set of less than
a third of the weight; the order of the votes does not matter, and no sum wraps. -/
theorem bft_time_bounded (hgenesis : parent.isGenesisBlock = false) {time : Int}
    (h : expectedChildTime crypto hashBytes parent targetBlockSeconds (some certificate)
      (some history) = some time) :
    ∃ (registry : ValidatorRegistry) (total : UInt64) (median : Int),
      history.setAt parent.index.toNat = .ok registry ∧
      registry.totalConsensusWeight = some total ∧
      time = max (parent.timestamp + targetBlockSeconds.toNat) median ∧
      (∀ D : Finset String, D ⊆ certificate.voters.toFinset →
        3 * Quorum.weight registry.weightOf D < total.toNat →
        (∃ vote ∈ certificate.votes, vote.validatorAddress ∉ D ∧ vote.createdAt ≤ median) ∧
          ∃ vote ∈ certificate.votes, vote.validatorAddress ∉ D ∧ median ≤ vote.createdAt) ∧
      (∀ votes : List ValidatorVoteRecord, votes.Perm certificate.votes →
        expectedChildTime crypto hashBytes parent targetBlockSeconds
          (some { certificate with votes := votes }) (some history) = some time) ∧
      parent.timestamp + targetBlockSeconds.toNat ≤ int64Max.toNat ∧
      (∀ part, part <+: certificate.votes →
        votesWeight registry part ≤ certificate.signedVotingWeight.toNat) ∧
      (certificate.signedVotingWeight / 2 + certificate.signedVotingWeight % 2).toNat =
        (certificate.signedVotingWeight.toNat + 1) / 2 ∧
      ∀ part, part <+: (certificate.votes.map (voteTime registry)).mergeSort pairLe →
        WeightedMedian.total (·.2.toNat) part ≤ certificate.signedVotingWeight.toNat := by
  obtain ⟨registry, haccepted, median, hmedian, htime⟩ :=
    (expectedChildTime_eq_some_iff hgenesis).mp h
  have hverified := QuorumCertificate.verify_spec haccepted.verified
  obtain ⟨hvotes, hpairs⟩ := running_weight_le haccepted.verified
  have hfloor : parent.timestamp + targetBlockSeconds.toNat ≤ int64Max.toNat := by
    have hadmitted := haccepted.admitted
    unfold refusesParent at hadmitted
    simp only [Bool.or_eq_false_iff, decide_eq_false_iff_not] at hadmitted
    have := hadmitted.2
    omega
  exact ⟨registry, certificate.totalVotingWeight, median, haccepted.set, hverified.total, htime,
    fun D _ hD => medianVoteTime_between haccepted.verified hmedian hD,
    fun votes hperm => expectedChildTime_of_perm hgenesis h hperm, hfloor, hvotes, half_toNat _,
    hpairs⟩

/-- The certificate of the sample block at height 1, signed at the times 30, 10 and 20. -/
def clockCertificate : QuorumCertificate :=
  ⟨1, "4", "3", 1, 2666667, 4000000, 3000000, "a,b,c,d",
    [sampleVote "a" 1 "4" "3" 1 .precommit 30, sampleVote "b" 1 "4" "3" 1 .precommit 10,
      sampleVote "c" 1 "4" "3" 1 .precommit 20]⟩

/-- The four validators at height 1. -/
def clockHistory : ValidatorSetHistory := ⟨1, 1, ⟨[(1, sampleRegistry)], by decide⟩⟩

theorem refusesParent_sample (targetBlockSeconds : UInt64)
    (htarget : targetBlockSeconds ≠ 0 ∧ targetBlockSeconds ≤ 300) :
    refusesParent (tableHash sampleTable) (sampleChainBlock 1 "3" "4" 2) targetBlockSeconds =
      false := by
  obtain ⟨hzero, hle⟩ := htarget
  rw [UInt64.le_iff_toNat_le] at hle
  have hlimit : (300 : UInt64).toNat = 300 := rfl
  unfold refusesParent
  rw [(isValid_samples false).2.1]
  simp only [Bool.or_eq_false_iff, Bool.not_true, decide_eq_false_iff_not, beq_eq_false_iff_ne,
    UInt64.not_lt, UInt64.le_iff_toNat_le]
  refine ⟨⟨⟨⟨⟨⟨trivial, by decide⟩, by decide⟩, by decide⟩, hzero⟩, ?_⟩, ?_⟩
  · exact hle
  · simp only [sampleChainBlock, int64Max_toNat]
    omega

theorem medianVoteTime_clock : medianVoteTime sampleRegistry clockCertificate = some 20 := by
  have hpairs : clockCertificate.votes.map (voteTime sampleRegistry) =
      [(30, 1000000), (10, 1000000), (20, 1000000)] := by
    decide +kernel
  have hperm : ([(30, 1000000), (10, 1000000), (20, 1000000)] : List (Int × UInt64)).Perm
      [(10, 1000000), (20, 1000000), (30, 1000000)] := by
    decide
  unfold medianVoteTime
  rw [hpairs, mergeSort_perm_eq hperm, List.mergeSort_of_pairwise (by decide)]
  decide

theorem expectedChildTime_clock :
    expectedChildTime sampleCrypto (tableHash sampleTable) (sampleChainBlock 1 "3" "4" 2) 5
      (some clockCertificate) (some clockHistory) = some 20 := by
  refine (expectedChildTime_eq_some_iff (by decide)).mpr ⟨sampleRegistry,
    ⟨refusesParent_sample 5 (by decide), by decide, rfl, rfl, rfl, rfl, by decide +kernel,
      by decide⟩, 20, medianVoteTime_clock, by decide⟩

/-- Three clocks at 10, 20 and 30 give 20, and no one of the voters can move it out of the
times of the other two. -/
theorem bft_time_bounded_clock :
    ∃ (registry : ValidatorRegistry) (total : UInt64) (median : Int),
      (20 : Int) = max 7 median ∧ registry.totalConsensusWeight = some total ∧
      (3 * Quorum.weight registry.weightOf {"a"} < total.toNat →
        ∃ vote ∈ clockCertificate.votes, vote.validatorAddress ∉ ({"a"} : Finset String) ∧
          median ≤ vote.createdAt) := by
  obtain ⟨registry, total, median, -, htotal, htime, hbetween, -⟩ :=
    bft_time_bounded (by decide) expectedChildTime_clock
  exact ⟨registry, total, median, htime, htotal, fun hthird =>
    (hbetween {"a"} (by decide) hthird).2⟩
end BftTime

--
-- Epochs tile the heights
--

/-- A checked `uint64` function has an exact result: it returns it, or nothing where the
result is not representable. -/
def Represents (result : Option UInt64) (exact : Nat) : Prop :=
  (∀ value, result = some value ↔ value.toNat = exact) ∧ (result = none ↔ 2 ^ 64 ≤ exact)

theorem represents_ite {condition : Prop} [Decidable condition] {value : UInt64} {exact : Nat}
    (hguard : condition ↔ 2 ^ 64 ≤ exact) (hvalue : ¬ condition → value.toNat = exact) :
    Represents (if condition then none else some value) exact := by
  by_cases hcondition : condition
  · rw [if_pos hcondition]
    have hlarge := hguard.mp hcondition
    refine ⟨fun other => ⟨(fun h => nomatch h), fun h => ?_⟩, fun _ => hlarge, fun _ => rfl⟩
    have := other.toNat_lt
    omega
  · rw [if_neg hcondition]
    refine ⟨fun other => ?_, (fun h => nomatch h), fun h => absurd (hguard.mpr h) hcondition⟩
    rw [Option.some.injEq, ← UInt64.toNat_inj, hvalue hcondition]
    exact eq_comm

namespace EpochCadence

variable {cadence : EpochCadence}

/-- What `create` accepts. -/
theorem of_create {epochLengthBlocks targetBlockSeconds : UInt64}
    (h : create epochLengthBlocks targetBlockSeconds = some cadence) :
    cadence.epochLengthBlocks ≠ 0 ∧ cadence.targetBlockSeconds ≠ 0 ∧
      cadence.targetBlockSeconds ≤ kMaxTargetBlockSeconds := by
  unfold create at h
  obtain ⟨hguard, h⟩ := Guards.some_of_ite_none h
  obtain rfl := Option.some.inj h
  simp only [not_or, UInt64.not_lt] at hguard
  exact ⟨hguard.1, hguard.2.1, hguard.2.2.1⟩

theorem toNat_sub_one {a : UInt64} (h : a ≠ 0) : (a - 1).toNat = a.toNat - 1 := by
  have hone : (1 : UInt64) ≤ a := by
    rw [UInt64.le_iff_toNat_le]
    exact toNat_pos_of_ne_zero h
  rw [UInt64.toNat_sub_of_le _ _ hone, UInt64.toNat_one]

theorem epochForHeight_eq_some_iff (height epoch : UInt64) :
    cadence.epochForHeight height = some epoch ↔
      height ≠ 0 ∧ epoch.toNat = (height.toNat - 1) / cadence.epochLengthBlocks.toNat := by
  unfold epochForHeight
  by_cases hzero : height = 0
  · rw [if_pos hzero]
    exact ⟨(fun h => nomatch h), fun h => absurd hzero h.1⟩
  · rw [if_neg hzero, Option.some.injEq, ← UInt64.toNat_inj, UInt64.toNat_div, toNat_sub_one hzero]
    exact ⟨fun h => ⟨hzero, h.symm⟩, fun h => h.2.symm⟩

theorem firstHeight_represents (hlength : cadence.epochLengthBlocks ≠ 0) (epoch : UInt64) :
    Represents (cadence.firstHeight epoch)
      (epoch.toNat * cadence.epochLengthBlocks.toNat + 1) := by
  have hpos := toNat_pos_of_ne_zero hlength
  have hguard : (uint64Max - 1) / cadence.epochLengthBlocks < epoch ↔
      2 ^ 64 ≤ epoch.toNat * cadence.epochLengthBlocks.toNat + 1 := by
    have hmax : (uint64Max - 1).toNat = 2 ^ 64 - 2 := rfl
    rw [UInt64.lt_iff_toNat_lt, UInt64.toNat_div, hmax, Nat.div_lt_iff_lt_mul hpos]
    omega
  refine represents_ite hguard (fun hnot => ?_)
  have hfits := mt hguard.mpr hnot
  rw [UInt64.toNat_add, UInt64.toNat_mul, UInt64.toNat_one,
    Nat.mod_eq_of_lt (by omega : epoch.toNat * cadence.epochLengthBlocks.toNat < 2 ^ 64),
    Nat.mod_eq_of_lt (by omega)]

theorem lastHeight_represents (hlength : cadence.epochLengthBlocks ≠ 0) (epoch : UInt64) :
    Represents (cadence.lastHeight epoch)
      ((epoch.toNat + 1) * cadence.epochLengthBlocks.toNat) := by
  have hpos := toNat_pos_of_ne_zero hlength
  have hguard : epoch = uint64Max ∨ uint64Max / cadence.epochLengthBlocks < epoch + 1 ↔
      2 ^ 64 ≤ (epoch.toNat + 1) * cadence.epochLengthBlocks.toNat := by
    by_cases hmax : epoch = uint64Max
    · have hlarge : 2 ^ 64 ≤ (epoch.toNat + 1) * cadence.epochLengthBlocks.toNat := by
        rw [hmax, uint64Max_toNat]
        exact Nat.le_mul_of_pos_right _ hpos
      exact ⟨fun _ => hlarge, fun _ => Or.inl hmax⟩
    · rw [or_iff_right hmax, UInt64.lt_iff_toNat_lt, UInt64.toNat_div, toNat_succ hmax,
        Nat.div_lt_iff_lt_mul hpos, uint64Max_toNat]
      omega
  refine represents_ite hguard (fun hnot => ?_)
  have hfits := mt hguard.mpr hnot
  rw [UInt64.toNat_mul, toNat_succ (not_or.mp hnot).1, Nat.mod_eq_of_lt (by omega)]

/-- **Epochs tile the heights.** A height is in the epoch whose bounds it lies within; an
epoch whose last height is not representable has no upper bound. -/
theorem epochForHeight_iff_bounds (hlength : cadence.epochLengthBlocks ≠ 0)
    (height epoch : UInt64) :
    cadence.epochForHeight height = some epoch ↔
      (∃ first, cadence.firstHeight epoch = some first ∧ first ≤ height) ∧
        ∀ last, cadence.lastHeight epoch = some last → height ≤ last := by
  have hpos := toNat_pos_of_ne_zero hlength
  have hfits := height.toNat_lt
  obtain ⟨hfirst, -⟩ := firstHeight_represents hlength epoch
  obtain ⟨hlast, -⟩ := lastHeight_represents hlength epoch
  rw [epochForHeight_eq_some_iff]
  constructor
  · rintro ⟨hzero, hepoch⟩
    have hheight := toNat_pos_of_ne_zero hzero
    have hlow := Nat.div_mul_le_self (height.toNat - 1) cadence.epochLengthBlocks.toNat
    have hhigh := Nat.lt_mul_of_div_lt (by omega : (height.toNat - 1) /
      cadence.epochLengthBlocks.toNat < epoch.toNat + 1) hpos
    rw [← hepoch] at hlow
    constructor
    · refine ⟨UInt64.ofNat (epoch.toNat * cadence.epochLengthBlocks.toNat + 1), ?_, ?_⟩
      · exact (hfirst _).mpr (UInt64.toNat_ofNat_of_lt' (by
          rw [UInt64.size]
          omega))
      · rw [UInt64.le_iff_toNat_le, UInt64.toNat_ofNat_of_lt' (by
          rw [UInt64.size]
          omega)]
        omega
    · intro last hsome
      rw [UInt64.le_iff_toNat_le, (hlast last).mp hsome]
      omega
  · rintro ⟨⟨first, hsome, hle⟩, hbelow⟩
    rw [UInt64.le_iff_toNat_le, (hfirst first).mp hsome] at hle
    refine ⟨?_, ?_⟩
    · rintro rfl
      rw [UInt64.toNat_zero] at hle
      omega
    · refine (Nat.div_eq_of_lt_le (by omega) ?_).symm
      -- an epoch without a last height reaches past every height
      by_cases hrepresentable : (epoch.toNat + 1) * cadence.epochLengthBlocks.toNat < 2 ^ 64
      · have hbound := hbelow (UInt64.ofNat ((epoch.toNat + 1) * cadence.epochLengthBlocks.toNat))
          ((hlast _).mpr (UInt64.toNat_ofNat_of_lt' hrepresentable))
        rw [UInt64.le_iff_toNat_le, UInt64.toNat_ofNat_of_lt' hrepresentable] at hbound
        omega
      · omega

/-- An epoch ends where the next one starts. -/
theorem lastHeight_succ (hlength : cadence.epochLengthBlocks ≠ 0) {epoch next first : UInt64}
    (hnext : next.toNat = epoch.toNat + 1) (hfirst : cadence.firstHeight next = some first) :
    ∃ last, cadence.lastHeight epoch = some last ∧ last.toNat + 1 = first.toNat := by
  have hexact := ((firstHeight_represents hlength next).1 first).mp hfirst
  rw [hnext] at hexact
  have hlt := first.toNat_lt
  have hrepresentable : (epoch.toNat + 1) * cadence.epochLengthBlocks.toNat < 2 ^ 64 := by omega
  refine ⟨UInt64.ofNat ((epoch.toNat + 1) * cadence.epochLengthBlocks.toNat),
    ((lastHeight_represents hlength epoch).1 _).mpr (UInt64.toNat_ofNat_of_lt' hrepresentable), ?_⟩
  rw [UInt64.toNat_ofNat_of_lt' hrepresentable, hexact]

/-- The bound on header times, where it is representable. -/
theorem earliestHeaderTime_eq_some_iff (htarget : cadence.targetBlockSeconds ≠ 0)
    {genesisTime : Int} (hpositive : 0 < genesisTime) (hint64 : genesisTime ≤ int64Max.toNat)
    (height : UInt64) (time : Int) :
    cadence.earliestHeaderTime genesisTime height = some time ↔
      time = genesisTime + height.toNat * cadence.targetBlockSeconds.toNat ∧
        time ≤ int64Max.toNat := by
  have hpos := toNat_pos_of_ne_zero htarget
  rw [int64Max_toNat] at hint64
  have havailable : (UInt64.ofNat (int64Max.toNat - genesisTime).toNat).toNat =
      (int64Max.toNat - genesisTime).toNat := by
    refine UInt64.toNat_ofNat_of_lt' ?_
    rw [UInt64.size, int64Max_toNat]
    omega
  have hguard : UInt64.ofNat (int64Max.toNat - genesisTime).toNat / cadence.targetBlockSeconds <
      height ↔ (int64Max.toNat : Int) <
        genesisTime + (height.toNat * cadence.targetBlockSeconds.toNat : Nat) := by
    rw [UInt64.lt_iff_toNat_lt, UInt64.toNat_div, havailable, Nat.div_lt_iff_lt_mul hpos,
      int64Max_toNat]
    omega
  unfold earliestHeaderTime
  rw [if_neg (not_le.mpr hpositive)]
  dsimp only
  by_cases hover : UInt64.ofNat (int64Max.toNat - genesisTime).toNat / cadence.targetBlockSeconds <
      height
  · rw [if_pos hover]
    have hlarge := hguard.mp hover
    refine ⟨(fun h => nomatch h), fun h => ?_⟩
    rw [Nat.cast_mul] at hlarge
    omega
  · rw [if_neg hover]
    have hfits := mt hguard.mpr hover
    rw [int64Max_toNat] at hfits
    have hexact : (height * cadence.targetBlockSeconds).toNat =
        height.toNat * cadence.targetBlockSeconds.toNat := by
      rw [UInt64.toNat_mul]
      exact Nat.mod_eq_of_lt (by omega)
    rw [Option.some.injEq, hexact, ← Nat.cast_mul, int64Max_toNat]
    omega

end EpochCadence

--
-- The formulas of the upgrade schedule
--

/-- The earliest activation, where it is representable. -/
theorem V1UpgradeSchedule.earliestActivationHeight_represents {s : V1UpgradeSchedule}
    (hlength : s.epochLengthBlocks ≠ 0) {executionHeight : UInt64} (hzero : executionHeight ≠ 0) :
    Represents (s.earliestActivationHeight executionHeight)
      (((executionHeight.toNat - 1) / s.epochLengthBlocks.toNat + 5) * s.epochLengthBlocks.toNat
        + 1) := by
  have hpos := toNat_pos_of_ne_zero hlength
  have hepoch : ((executionHeight - 1) / s.epochLengthBlocks).toNat =
      (executionHeight.toNat - 1) / s.epochLengthBlocks.toNat := by
    rw [UInt64.toNat_div, EpochCadence.toNat_sub_one hzero]
  unfold earliestActivationHeight
  rw [if_neg hzero]
  dsimp only
  generalize (executionHeight - 1) / s.epochLengthBlocks = epoch at hepoch ⊢
  rw [← hepoch]
  have hnotice : (uint64Max - kFullNoticeEpochs - 1).toNat = 2 ^ 64 - 6 := rfl
  have hmax : (uint64Max - 1).toNat = 2 ^ 64 - 2 := rfl
  by_cases hroom : uint64Max - kFullNoticeEpochs - 1 < epoch
  · -- an epoch that is not representable has no representable first height either
    rw [if_pos hroom]
    rw [UInt64.lt_iff_toNat_lt, hnotice] at hroom
    have hlarge : 2 ^ 64 ≤ (epoch.toNat + 5) * s.epochLengthBlocks.toNat + 1 := by
      have := Nat.le_mul_of_pos_right (epoch.toNat + 5) hpos
      omega
    refine ⟨fun value => ⟨(fun h => nomatch h), fun h => ?_⟩, fun _ => hlarge, fun _ => rfl⟩
    have := value.toNat_lt
    omega
  · rw [if_neg hroom]
    rw [UInt64.lt_iff_toNat_lt, hnotice] at hroom
    have hearliest : (epoch + kFullNoticeEpochs + 1).toNat = epoch.toNat + 5 := by
      have hfour : kFullNoticeEpochs.toNat = 4 := rfl
      rw [UInt64.toNat_add, UInt64.toNat_add, hfour, UInt64.toNat_one]
      omega
    rw [← hearliest]
    have hguard : (uint64Max - 1) / s.epochLengthBlocks < epoch + kFullNoticeEpochs + 1 ↔
        2 ^ 64 ≤ (epoch + kFullNoticeEpochs + 1).toNat * s.epochLengthBlocks.toNat + 1 := by
      rw [UInt64.lt_iff_toNat_lt, UInt64.toNat_div, hmax, Nat.div_lt_iff_lt_mul hpos]
      omega
    refine represents_ite hguard (fun hnot => ?_)
    have hfits := mt hguard.mpr hnot
    rw [UInt64.toNat_add, UInt64.toNat_mul, UInt64.toNat_one, Nat.mod_eq_of_lt (by omega :
      (epoch + kFullNoticeEpochs + 1).toNat * s.epochLengthBlocks.toNat < 2 ^ 64),
      Nat.mod_eq_of_lt (by omega)]

/-- **The schedule and the cadence agree** on the fifth epoch after a height. -/
theorem earliestActivationHeight_iff_firstHeight {s : V1UpgradeSchedule} {cadence : EpochCadence}
    (hlength : cadence.epochLengthBlocks ≠ 0)
    (hsame : s.epochLengthBlocks = cadence.epochLengthBlocks) (height earliest : UInt64) :
    s.earliestActivationHeight height = some earliest ↔
      ∃ epoch later, cadence.epochForHeight height = some epoch ∧
        later.toNat = epoch.toNat + 5 ∧ cadence.firstHeight later = some earliest := by
  by_cases hzero : height = 0
  · constructor
    · intro h
      rw [hzero, V1UpgradeSchedule.earliestActivationHeight, if_pos rfl] at h
      cases h
    · rintro ⟨epoch, later, hepoch, -⟩
      rw [hzero, EpochCadence.epochForHeight, if_pos rfl] at hepoch
      cases hepoch
  · have hpos := toNat_pos_of_ne_zero hlength
    rw [(V1UpgradeSchedule.earliestActivationHeight_represents (hsame ▸ hlength) hzero).1, hsame]
    constructor
    · intro hexact
      have hlt := earliest.toNat_lt
      have hle := Nat.le_mul_of_pos_right
        ((height.toNat - 1) / cadence.epochLengthBlocks.toNat + 5) hpos
      have hlater : (UInt64.ofNat ((height.toNat - 1) / cadence.epochLengthBlocks.toNat + 5)).toNat =
          (height.toNat - 1) / cadence.epochLengthBlocks.toNat + 5 :=
        UInt64.toNat_ofNat_of_lt' (by
          rw [UInt64.size]
          omega)
      have hepoch : (UInt64.ofNat ((height.toNat - 1) / cadence.epochLengthBlocks.toNat)).toNat =
          (height.toNat - 1) / cadence.epochLengthBlocks.toNat :=
        UInt64.toNat_ofNat_of_lt' (by
          rw [UInt64.size]
          omega)
      refine ⟨_, _, (EpochCadence.epochForHeight_eq_some_iff _ _).mpr ⟨hzero, hepoch⟩,
        hlater.trans (congrArg (· + 5) hepoch.symm), ?_⟩
      rw [(EpochCadence.firstHeight_represents hlength _).1, hlater, hexact]
    · rintro ⟨epoch, later, hepoch, hlater, hfirst⟩
      rw [(EpochCadence.firstHeight_represents hlength _).1, hlater] at hfirst
      rw [hfirst, ((EpochCadence.epochForHeight_eq_some_iff _ _).mp hepoch).2]

--
-- Header times along a chain
--

/-- A child is at least one target interval later than its parent, which is not at the last
height. -/
theorem BftTime.expectedChildTime_floor {crypto : CryptoContext} {hashBytes : String → String}
    {parent : ChainBlock} {targetBlockSeconds : UInt64} {certificate : Option QuorumCertificate}
    {history : Option ValidatorSetHistory} {time : Int}
    (h : expectedChildTime crypto hashBytes parent targetBlockSeconds certificate history =
      some time) :
    parent.index ≠ uint64Max ∧ parent.timestamp + targetBlockSeconds.toNat ≤ time := by
  have hindex : parent.index ≠ uint64Max := by
    unfold expectedChildTime at h
    obtain ⟨hadmitted, -⟩ := Guards.some_of_ite_none h
    rw [Bool.not_eq_true] at hadmitted
    unfold refusesParent at hadmitted
    simp only [Bool.or_eq_false_iff, beq_eq_false_iff_ne] at hadmitted
    exact hadmitted.1.1.1.2
  refine ⟨hindex, ?_⟩
  cases hgenesis : parent.isGenesisBlock with
  | true =>
    unfold expectedChildTime at h
    obtain ⟨-, h⟩ := Guards.some_of_ite_none h
    dsimp only at h
    rw [if_pos hgenesis] at h
    cases certificate with
    | none => exact (Option.some.inj h).le
    | some certificate => cases h
  | false =>
    cases certificate with
    | none =>
      unfold expectedChildTime at h
      obtain ⟨-, h⟩ := Guards.some_of_ite_none h
      dsimp only at h
      rw [if_neg (by rw [hgenesis]; exact Bool.false_ne_true)] at h
      cases h
    | some certificate =>
      cases history with
      | none =>
        unfold expectedChildTime at h
        obtain ⟨-, h⟩ := Guards.some_of_ite_none h
        dsimp only at h
        rw [if_neg (by rw [hgenesis]; exact Bool.false_ne_true)] at h
        cases h
      | some history =>
        obtain ⟨registry, -, median, -, rfl⟩ := (expectedChildTime_eq_some_iff hgenesis).mp h
        exact le_max_left _ _

/-- A genesis block and the blocks above it, each of which carries the time that
`expectedChildTime` returned for its parent, with whatever certificate and history. -/
inductive TimedBlock (crypto : CryptoContext) (hashBytes : String → String)
    (targetBlockSeconds : UInt64) (genesis : ChainBlock) : ChainBlock → Prop
  | genesis (hgenesis : genesis.isGenesisBlock = true) (hpositive : 0 < genesis.timestamp) :
      TimedBlock crypto hashBytes targetBlockSeconds genesis genesis
  | child {parent block : ChainBlock}
      (h : TimedBlock crypto hashBytes targetBlockSeconds genesis parent)
      (certificate : Option QuorumCertificate) (history : Option ValidatorSetHistory)
      (hindex : block.index = parent.index + 1)
      (htime : BftTime.expectedChildTime crypto hashBytes parent targetBlockSeconds certificate
        history = some block.timestamp) :
      TimedBlock crypto hashBytes targetBlockSeconds genesis block

/-- **One interval for each height.** -/
theorem TimedBlock.timestamp_ge {crypto : CryptoContext} {hashBytes : String → String}
    {targetBlockSeconds : UInt64} {genesis block : ChainBlock}
    (h : TimedBlock crypto hashBytes targetBlockSeconds genesis block) :
    genesis.timestamp + block.index.toNat * targetBlockSeconds.toNat ≤ block.timestamp := by
  induction h with
  | genesis hgenesis _ =>
    unfold ChainBlock.isGenesisBlock at hgenesis
    rw [Bool.and_eq_true, beq_iff_eq] at hgenesis
    rw [hgenesis.1, UInt64.toNat_zero]
    simp
  | @child parent block _ certificate history hindex htime ih =>
    obtain ⟨hlast, hfloor⟩ := BftTime.expectedChildTime_floor htime
    rw [hindex, toNat_succ hlast, Nat.cast_add, Nat.cast_one, Int.add_mul, Int.one_mul]
    omega

/-- The arithmetic of a cadence: heights and epochs, the representable results, and the
schedules of upgrades with the same epochs. -/
structure EpochArithmetic (cadence : EpochCadence) : Prop where
  tiled : ∀ height epoch, cadence.epochForHeight height = some epoch ↔
    (∃ first, cadence.firstHeight epoch = some first ∧ first ≤ height) ∧
      ∀ last, cadence.lastHeight epoch = some last → height ≤ last
  adjacent : ∀ epoch next first : UInt64, next.toNat = epoch.toNat + 1 →
    cadence.firstHeight next = some first →
    ∃ last, cadence.lastHeight epoch = some last ∧ last.toNat + 1 = first.toNat
  epoch : ∀ height, (cadence.epochForHeight height = none ↔ height = 0) ∧
    ∀ epoch, cadence.epochForHeight height = some epoch →
      epoch.toNat = (height.toNat - 1) / cadence.epochLengthBlocks.toNat
  first : ∀ epoch, Represents (cadence.firstHeight epoch)
    (epoch.toNat * cadence.epochLengthBlocks.toNat + 1)
  last : ∀ epoch, Represents (cadence.lastHeight epoch)
    ((epoch.toNat + 1) * cadence.epochLengthBlocks.toNat)
  time : ∀ (genesisTime : Int) (height : UInt64), 0 < genesisTime → genesisTime ≤ int64Max.toNat →
    (cadence.earliestHeaderTime genesisTime height = none ↔ (int64Max.toNat : Int) <
      genesisTime + height.toNat * cadence.targetBlockSeconds.toNat) ∧
    ∀ bound, cadence.earliestHeaderTime genesisTime height = some bound →
      bound = genesisTime + height.toNat * cadence.targetBlockSeconds.toNat
  upgrade : ∀ s : V1UpgradeSchedule, s.epochLengthBlocks = cadence.epochLengthBlocks →
    ∀ height earliest, s.earliestActivationHeight height = some earliest ↔
      ∃ epoch later, cadence.epochForHeight height = some epoch ∧
        later.toNat = epoch.toNat + 5 ∧ cadence.firstHeight later = some earliest
  upgradeNone : ∀ s : V1UpgradeSchedule, s.epochLengthBlocks = cadence.epochLengthBlocks →
    ∀ height, s.earliestActivationHeight height = none ↔ height = 0 ∨
      2 ^ 64 ≤ ((height.toNat - 1) / cadence.epochLengthBlocks.toNat + 5) *
        cadence.epochLengthBlocks.toNat + 1

theorem EpochCadence.arithmetic {cadence : EpochCadence}
    (hlength : cadence.epochLengthBlocks ≠ 0) (htarget : cadence.targetBlockSeconds ≠ 0) :
    EpochArithmetic cadence where
  tiled := epochForHeight_iff_bounds hlength
  adjacent := fun _ _ _ => lastHeight_succ hlength
  epoch := fun height => by
    constructor
    · unfold epochForHeight
      by_cases hzero : height = 0
      · rw [if_pos hzero]
        exact ⟨fun _ => hzero, fun _ => rfl⟩
      · rw [if_neg hzero]
        exact ⟨(fun h => nomatch h), fun h => absurd h hzero⟩
    · intro epoch h
      exact ((epochForHeight_eq_some_iff _ _).mp h).2
  first := firstHeight_represents hlength
  last := lastHeight_represents hlength
  time := fun genesisTime height hpositive hint64 => by
    have hiff := earliestHeaderTime_eq_some_iff htarget hpositive hint64 height
    refine ⟨?_, fun bound h => ((hiff bound).mp h).1⟩
    rw [Option.eq_none_iff_forall_ne_some]
    constructor
    · intro hnone
      by_contra hfits
      exact hnone _ ((hiff _).mpr ⟨rfl, not_lt.mp hfits⟩)
    · intro hlarge bound h
      obtain ⟨rfl, hle⟩ := (hiff bound).mp h
      exact absurd hlarge (not_lt.mpr hle)
  upgrade := fun _ hsame => earliestActivationHeight_iff_firstHeight hlength hsame
  upgradeNone := fun s hsame height => by
    by_cases hzero : height = 0
    · rw [hzero, V1UpgradeSchedule.earliestActivationHeight, if_pos rfl]
      exact ⟨fun _ => Or.inl rfl, fun _ => rfl⟩
    · rw [(V1UpgradeSchedule.earliestActivationHeight_represents (hsame ▸ hlength) hzero).2, hsame,
        or_iff_right hzero]

/-- **Header time and epochs.** Under an accepted cadence, the header times of a chain never
fall below the bound that the cadence gives, and its epochs, bounds and upgrade heights
agree up to the representable limits. -/
theorem header_time_and_epochs {epochLengthBlocks targetBlockSeconds : UInt64}
    {cadence : EpochCadence}
    (hcreate : EpochCadence.create epochLengthBlocks targetBlockSeconds = some cadence) :
    (∀ (crypto : CryptoContext) (hashBytes : String → String) (genesis block : ChainBlock),
      TimedBlock crypto hashBytes cadence.targetBlockSeconds genesis block →
      ∀ bound, cadence.earliestHeaderTime genesis.timestamp block.index = some bound →
        bound ≤ block.timestamp) ∧
    EpochArithmetic cadence := by
  obtain ⟨hlength, htarget, -⟩ := EpochCadence.of_create hcreate
  refine ⟨fun crypto hashBytes genesis block htimed bound hbound => ?_,
    EpochCadence.arithmetic hlength htarget⟩
  refine le_trans (le_of_eq ?_) htimed.timestamp_ge
  unfold EpochCadence.earliestHeaderTime at hbound
  obtain ⟨hpositive, hbound⟩ := Guards.some_of_ite_none hbound
  dsimp only at hbound
  obtain ⟨hguard, hbound⟩ := Guards.some_of_ite_none hbound
  rw [← Option.some.inj hbound, UInt64.toNat_mul]
  -- the guard keeps the product in range
  rw [UInt64.lt_iff_toNat_lt, UInt64.toNat_div,
    Nat.div_lt_iff_lt_mul (toNat_pos_of_ne_zero htarget)] at hguard
  have hfits := (UInt64.ofNat (int64Max.toNat - genesis.timestamp).toNat).toNat_lt
  rw [Nat.mod_eq_of_lt (by omega), Nat.cast_mul]

/-- Epochs of 1440 blocks of a minute: one day. -/
theorem header_time_and_epochs_day :
    (EpochCadence.mk 1440 60).firstHeight 1 = some 1441 ∧
      (EpochCadence.mk 1440 60).lastHeight 0 = some 1440 ∧
      EpochArithmetic ⟨1440, 60⟩ :=
  ⟨by decide, by decide, (header_time_and_epochs
    (by decide : EpochCadence.create 1440 60 = some ⟨1440, 60⟩)).2⟩

end Nodo.Model
