import Nodo.Model.Finalization
import Nodo.Model.VotePoolRuns

/-!
# Nodo — progress of a block and its certificate

`consensus/VotePool.cpp`: `quorumProgressForBlock` weighs the voters that a pool lists for
a block, and `QuorumAssembly::tryBuildCertificate` hands the same list to the builder. The
progress weighs every vote, whatever it decides; the builder refuses a list with a PREVOTE
or a REJECT in it.

## Results

* `canCertify_iff` — the progress certifies when the distinct voters are a quorum.
* `tryBuildCertificate_ok_iff` — the builder does when moreover all of them precommit.
* `progress_agrees_iff` — so the two agree exactly without other votes, or without a quorum.
-/

namespace Nodo.Model

structure VotePoolQuorumProgress where
  blockIndex : Nat
  blockHash : String
  round : Nat
  acceptedVotingWeight : UInt64
  requiredVotingWeight : UInt64
  totalVotingWeight : UInt64
  deriving DecidableEq, Repr

namespace VotePoolQuorumProgress

def isValid (progress : VotePoolQuorumProgress) : Bool :=
  progress.blockIndex != 0 && !progress.blockHash.isEmpty && progress.round != 0
    && 0 < progress.requiredVotingWeight && 0 < progress.totalVotingWeight
    && requiredWeight progress.totalVotingWeight == some progress.requiredVotingWeight
    && progress.acceptedVotingWeight ≤ progress.totalVotingWeight

def canCertify (progress : VotePoolQuorumProgress) : Bool :=
  progress.isValid && progress.requiredVotingWeight ≤ progress.acceptedVotingWeight

end VotePoolQuorumProgress

/-- The loop of `quorumProgressForBlock`: one weight for each voter; `none` stands for the
`overflow_error` it throws. -/
def addVoterWeights (registry : ValidatorRegistry) :
    List String → UInt64 → List ValidatorVoteRecord → Option UInt64
  | _, acceptedWeight, [] => some acceptedWeight
  | seenVoters, acceptedWeight, vote :: rest =>
    if seenVoters.contains vote.validatorAddress then
      addVoterWeights registry seenVoters acceptedWeight rest
    else
      let weight := registry.consensusWeightFor vote.validatorAddress
      if uint64Max - acceptedWeight < weight then none
      else addVoterWeights registry (vote.validatorAddress :: seenVoters) (acceptedWeight + weight)
        rest

/-- `none` where it throws. -/
def VotePool.quorumProgressForBlock (pool : VotePool) (blockIndex : Nat) (blockHash : String)
    (round : Nat) (registry : ValidatorRegistry) (thresholdNumerator thresholdDenominator : Nat) :
    Option VotePoolQuorumProgress := do
  let acceptedWeight ← addVoterWeights registry [] 0 (pool.votesForBlock blockIndex blockHash round)
  let totalWeight ← registry.totalConsensusWeight
  let required ← requiredVotingWeight totalWeight thresholdNumerator thresholdDenominator
  pure ⟨blockIndex, blockHash, round, acceptedWeight, required, totalWeight⟩

/-- `QuorumAssembly::tryBuildCertificate`. -/
def QuorumAssembly.tryBuildCertificate (crypto : CryptoContext) (pool : VotePool)
    (target : CertificateTarget) (registry : ValidatorRegistry)
    (thresholdNumerator thresholdDenominator : Nat) :
    Except QuorumCertificateRejection QuorumCertificate :=
  buildFromVotes crypto registry target
    (pool.votesForBlock target.blockIndex target.blockHash target.round) thresholdNumerator
    thresholdDenominator

--
-- The votes under the claim of both
--

/-- The distinct voters a pool lists for a target. -/
def VotePool.votersFor (pool : VotePool) (target : CertificateTarget) : Finset String :=
  ((pool.votesForBlock target.blockIndex target.blockHash target.round).map
    (·.validatorAddress)).toFinset

/-- Every vote the pool lists for the target names the previous hash, is signed, and comes
from a registered eligible validator. -/
def VotePool.CleanFor (crypto : CryptoContext) (registry : ValidatorRegistry) (pool : VotePool)
    (target : CertificateTarget) : Prop :=
  ∀ vote ∈ pool.votesForBlock target.blockIndex target.blockHash target.round,
    vote.previousHash = target.previousHash ∧ vote.verify crypto = true ∧
      registry.verifyValidatorIdentity crypto vote.validatorAddress vote.validatorPublicKey = true ∧
      registry.isEligibleForConsensus vote.validatorAddress = true

theorem PoolReachable.poolInvariant {crypto : CryptoContext} {kind : ValidatorVoteRecord → Prop}
    {pool : VotePool} (h : PoolReachable crypto kind pool) : PoolInvariant pool := by
  induction h with
  | empty => exact poolInvariant_empty
  | submit vote _ _ ih => exact ih.submitVote vote
  | prune height _ ih => exact ih.prune height

--
-- The progress
--

/-- Each new voter is weighed once. -/
theorem addVoterWeights_eq {registry : ValidatorRegistry} {votes : List ValidatorVoteRecord}
    {seen : List String} {start : UInt64}
    (hfits : start.toNat + Quorum.weight registry.weightOf
      ((votes.map (·.validatorAddress)).toFinset \ seen.toFinset) ≤ uint64Max.toNat) :
    ∃ accepted, addVoterWeights registry seen start votes = some accepted ∧
      accepted.toNat = start.toNat + Quorum.weight registry.weightOf
        ((votes.map (·.validatorAddress)).toFinset \ seen.toFinset) := by
  induction votes generalizing seen start with
  | nil => exact ⟨start, rfl, by simp [Quorum.weight]⟩
  | cons vote rest ih =>
    rw [List.map_cons, List.toFinset_cons] at hfits ⊢
    by_cases hseen : vote.validatorAddress ∈ seen
    · rw [Finset.insert_sdiff_of_mem _ (List.mem_toFinset.mpr hseen)] at hfits ⊢
      obtain ⟨accepted, hloop, hsum⟩ := ih hfits
      refine ⟨accepted, ?_, hsum⟩
      rw [addVoterWeights, if_pos (by simpa using hseen)]
      exact hloop
    · -- a new voter joins the ones that are skipped from here on
      have hsplit : insert vote.validatorAddress (rest.map (·.validatorAddress)).toFinset \
          seen.toFinset = insert vote.validatorAddress
            ((rest.map (·.validatorAddress)).toFinset \
              (vote.validatorAddress :: seen).toFinset) := by
        ext address
        simp only [Finset.mem_sdiff, Finset.mem_insert, List.mem_toFinset, List.mem_cons]
        by_cases heq : address = vote.validatorAddress
        · simp [heq, hseen]
        · simp [heq]
      have hweight : Quorum.weight registry.weightOf
          (insert vote.validatorAddress ((rest.map (·.validatorAddress)).toFinset \
            (vote.validatorAddress :: seen).toFinset)) =
          registry.weightOf vote.validatorAddress + Quorum.weight registry.weightOf
            ((rest.map (·.validatorAddress)).toFinset \
              (vote.validatorAddress :: seen).toFinset) :=
        Finset.sum_insert (by simp)
      rw [hsplit, hweight] at hfits ⊢
      have hguard : ¬ uint64Max - start < registry.consensusWeightFor vote.validatorAddress := by
        rw [not_guard_iff]
        unfold ValidatorRegistry.weightOf at hfits
        omega
      have hadd := toNat_add_of_guard hguard
      unfold ValidatorRegistry.weightOf at hfits
      obtain ⟨accepted, hloop, hsum⟩ := @ih (vote.validatorAddress :: seen)
        (start + registry.consensusWeightFor vote.validatorAddress) (by
          rw [hadd]
          unfold ValidatorRegistry.weightOf
          omega)
      refine ⟨accepted, ?_, ?_⟩
      · rw [addVoterWeights, if_neg (by simpa using hseen)]
        dsimp only
        rw [if_neg hguard]
        exact hloop
      · rw [hsum, hadd]
        unfold ValidatorRegistry.weightOf
        omega

/-- Eligible voters are members. -/
theorem VotePool.CleanFor.votersFor_subset {crypto : CryptoContext} {registry : ValidatorRegistry}
    {pool : VotePool} {target : CertificateTarget} (h : pool.CleanFor crypto registry target) :
    pool.votersFor target ⊆ registry.members := by
  intro address hmem
  obtain ⟨vote, hvote, rfl⟩ := List.mem_map.mp (List.mem_toFinset.mp hmem)
  exact ValidatorRegistry.mem_members_of_weight_ne_zero
    (weight_ne_zero_iff_eligible.mpr (h vote hvote).2.2.2)

/-- A quorum has a vote, and the vote vouches for the shape of the target. -/
theorem VotePool.CleanFor.target_safe {crypto : CryptoContext} {registry : ValidatorRegistry}
    {pool : VotePool} {target : CertificateTarget} (hinv : PoolInvariant pool)
    (h : pool.CleanFor crypto registry target)
    (hquorum : Quorum.IsQuorum registry.weightOf registry.members (pool.votersFor target)) :
    isSafeScalar target.blockHash = true ∧ target.blockIndex ≠ 0 ∧ target.round ≠ 0 := by
  have hne : pool.votesForBlock target.blockIndex target.blockHash target.round ≠ [] := by
    intro hnil
    have hweight := hquorum.2
    unfold VotePool.votersFor Quorum.weight at hweight
    rw [hnil, List.map_nil, List.toFinset_nil, Finset.sum_empty] at hweight
    omega
  obtain ⟨vote, hvote⟩ := List.exists_mem_of_ne_nil _ hne
  obtain ⟨hindex, hhash, hround, -⟩ := hinv.votesForBlock_indexed hvote
  obtain ⟨hsafe, -, hindexNe, hroundNe⟩ := ValidatorVoteRecord.verify_structural (h vote hvote).2.1
  exact ⟨hhash ▸ hsafe, hindex ▸ hindexNe, hround ▸ hroundNe⟩

/-- **The progress certifies** when the distinct voters are a quorum, whatever they vote. -/
theorem canCertify_iff {crypto : CryptoContext} {registry : ValidatorRegistry} {pool : VotePool}
    {target : CertificateTarget} (hinv : PoolInvariant pool)
    (hvalid : registry.isValid crypto = true) (hclean : pool.CleanFor crypto registry target)
    (thresholdNumerator thresholdDenominator : Nat) :
    (∃ progress, pool.quorumProgressForBlock target.blockIndex target.blockHash target.round registry
        thresholdNumerator thresholdDenominator = some progress ∧ progress.canCertify = true) ↔
      isCanonicalFraction thresholdNumerator thresholdDenominator = true ∧
        Quorum.IsQuorum registry.weightOf registry.members (pool.votersFor target) := by
  have hsub := hclean.votersFor_subset
  obtain ⟨total, htotal⟩ := ValidatorRegistry.isValid_total hvalid
  have hexact := ValidatorRegistry.totalConsensusWeight_toNat htotal
  have hbound : Quorum.weight registry.weightOf (pool.votersFor target) ≤ total.toNat :=
    hexact ▸ Quorum.weight_mono hsub
  have hlt := total.toNat_lt
  obtain ⟨accepted, hloop, haccepted⟩ := @addVoterWeights_eq registry
    (pool.votesForBlock target.blockIndex target.blockHash target.round) [] 0 (by
      rw [List.toFinset_nil, Finset.sdiff_empty, uint64Max_toNat, UInt64.toNat_zero]
      unfold VotePool.votersFor at hbound
      omega)
  rw [List.toFinset_nil, Finset.sdiff_empty, UInt64.toNat_zero, Nat.zero_add] at haccepted
  have haccepted' : accepted.toNat = Quorum.weight registry.weightOf (pool.votersFor target) :=
    haccepted
  unfold VotePool.quorumProgressForBlock
  simp only [hloop, htotal, Option.bind_eq_bind, Option.bind_some]
  constructor
  · rintro ⟨progress, hprogress, hcertify⟩
    obtain ⟨required, hrequired, hprogress⟩ := Option.bind_eq_some_iff.mp hprogress
    obtain rfl := Option.some.inj hprogress
    obtain ⟨hcanonical, hrequired⟩ := Guards.some_of_ite_none hrequired
    simp only [Bool.or_eq_true, Bool.not_eq_true', not_or, Bool.not_eq_false] at hcanonical
    refine ⟨hcanonical.1, (Quorum.isQuorum_iff_floor_lt hsub).mpr ?_⟩
    rw [← hexact, ← requiredWeight_toNat hrequired, ← haccepted', ← UInt64.le_iff_toNat_le]
    simp only [VotePoolQuorumProgress.canCertify, Bool.and_eq_true, decide_eq_true_eq] at hcertify
    exact hcertify.2
  · rintro ⟨hcanonical, hquorum⟩
    obtain ⟨hsafe, hindex, hround⟩ := hclean.target_safe hinv hquorum
    have hfloor := (Quorum.isQuorum_iff_floor_lt hsub).mp hquorum
    rw [← hexact] at hfloor
    obtain ⟨required, hrequired, hpositive, -⟩ :=
      @requiredWeight_of_pos total (by omega)
    have hrequiredNat := requiredWeight_toNat hrequired
    have hthreshold : requiredVotingWeight total thresholdNumerator thresholdDenominator =
        some required := by
      have hne : total ≠ 0 := by
        rintro rfl
        rw [UInt64.toNat_zero] at hbound hfloor
        omega
      unfold requiredVotingWeight
      rw [if_neg (by simp [hcanonical, hne]), hrequired]
    have hhash : target.blockHash ≠ "" := by
      intro hempty
      rw [hempty] at hsafe
      exact absurd hsafe (by decide)
    refine ⟨⟨target.blockIndex, target.blockHash, target.round, accepted, required, total⟩, ?_, ?_⟩
    · rw [hthreshold]
      rfl
    · simp only [VotePoolQuorumProgress.canCertify, VotePoolQuorumProgress.isValid, Bool.and_eq_true,
        bne_iff_ne, decide_eq_true_eq, beq_iff_eq, Bool.not_eq_true', UInt64.lt_iff_toNat_lt,
        UInt64.le_iff_toNat_le, UInt64.toNat_zero]
      refine ⟨⟨⟨⟨⟨⟨⟨hindex, ?_⟩, hround⟩, by omega⟩, by omega⟩, hrequired⟩, by omega⟩, by omega⟩
      rwa [String.isEmpty_eq_false_iff]

--
-- The certificate
--

theorem buildFromVotes_canonical {crypto : CryptoContext} {registry : ValidatorRegistry}
    {target : CertificateTarget} {votes : List ValidatorVoteRecord} {numerator denominator : Nat}
    {certificate : QuorumCertificate}
    (h : buildFromVotes crypto registry target votes numerator denominator = .ok certificate) :
    isCanonicalFraction numerator denominator = true := by
  obtain ⟨-, h⟩ := Guards.ok_of_ite_error h
  obtain ⟨-, h⟩ := Guards.ok_of_ite_error h
  split at h
  · cases h
  · split at h
    · cases h
    · rename_i required hrequired
      obtain ⟨hcanonical, -⟩ := Guards.some_of_ite_none hrequired
      simp only [Bool.or_eq_true, Bool.not_eq_true', not_or, Bool.not_eq_false] at hcanonical
      exact hcanonical.1

/-- **The builder certifies** when moreover all of the votes precommit. -/
theorem tryBuildCertificate_ok_iff {crypto : CryptoContext} {registry : ValidatorRegistry}
    {pool : VotePool} {target : CertificateTarget} (hinv : PoolInvariant pool)
    (hdigest : isSafeScalar (crypto.registryDigest registry.entries.entries) = true)
    (hvalid : registry.isValid crypto = true) (hclean : pool.CleanFor crypto registry target)
    (thresholdNumerator thresholdDenominator : Nat) :
    (∃ certificate, QuorumAssembly.tryBuildCertificate crypto pool target registry
        thresholdNumerator thresholdDenominator = .ok certificate) ↔
      (isCanonicalFraction thresholdNumerator thresholdDenominator = true ∧
        Quorum.IsQuorum registry.weightOf registry.members (pool.votersFor target)) ∧
      ∀ vote ∈ pool.votesForBlock target.blockIndex target.blockHash target.round,
        vote.decision = .precommit := by
  unfold QuorumAssembly.tryBuildCertificate
  constructor
  · rintro ⟨certificate, hbuild⟩
    obtain ⟨hverify, hvotes, -⟩ := buildFromVotes_spec hbuild
    have hverified := QuorumCertificate.verify_spec hverify
    have hquorum := hverified.quorum
    unfold QuorumCertificate.voters at hquorum
    rw [hvotes] at hquorum
    refine ⟨⟨buildFromVotes_canonical hbuild, hquorum⟩, fun vote hvote => ?_⟩
    exact (hverified.counted vote (hvotes ▸ hvote)).precommit
  · rintro ⟨⟨hcanonical, hquorum⟩, hprecommit⟩
    obtain ⟨total, htotal⟩ := ValidatorRegistry.isValid_total hvalid
    have hexact := ValidatorRegistry.totalConsensusWeight_toNat htotal
    have husable : ∀ vote ∈ pool.votesForBlock target.blockIndex target.blockHash target.round,
        UsableVote crypto registry target vote := by
      intro vote hvote
      obtain ⟨hindex, hhash, hround, -⟩ := hinv.votesForBlock_indexed hvote
      obtain ⟨hprevious, hverified, hidentity, heligible⟩ := hclean vote hvote
      exact ⟨hverified, ValidatorVoteRecord.matchesBlock_iff.mpr ⟨hindex, hhash, hround⟩, hprevious,
        hprecommit vote hvote, hidentity, weight_ne_zero_iff_eligible.mpr heligible⟩
    -- one key for each voter, height, round and decision, and only one decision
    have hnodup : ((pool.votesForBlock target.blockIndex target.blockHash target.round).map
        (·.validatorAddress)).Nodup := by
      have h := certificateVotes_voters_nodup hinv
        ⟨target.blockIndex, target.blockHash, target.previousHash, 0⟩ target.round
      unfold certificateVotes at h
      rwa [List.filter_eq_self.mpr (fun vote hvote => beq_iff_eq.mpr (hprecommit vote hvote))] at h
    have hfloor := (Quorum.isQuorum_iff_floor_lt hclean.votersFor_subset).mp hquorum
    rw [← hexact] at hfloor
    unfold Quorum.weight VotePool.votersFor at hfloor
    rw [List.sum_toFinset _ hnodup, List.map_map] at hfloor
    obtain ⟨certificate, hbuild, -⟩ := buildFromVotes_ok hdigest hvalid htotal husable hnodup hfloor
    simp only [isCanonicalFraction, Bool.and_eq_true, beq_iff_eq] at hcanonical
    rw [hcanonical.1, hcanonical.2]
    exact ⟨certificate, hbuild⟩

--
-- Their agreement
--

/-- **Progress and certificate.** For a reachable pool whose votes for the target are clean, the
two answers agree exactly when all of these votes precommit, or the voters are no quorum,
or the threshold is one that both refuse. -/
theorem progress_agrees_iff {crypto : CryptoContext} {pool : VotePool}
    (hpool : PoolReachable crypto (fun _ => True) pool) {registry : ValidatorRegistry}
    (hvalid : registry.isValid crypto = true)
    (hdigest : isSafeScalar (crypto.registryDigest registry.entries.entries) = true)
    {target : CertificateTarget} (hclean : pool.CleanFor crypto registry target)
    (thresholdNumerator thresholdDenominator : Nat) :
    ((∃ progress, pool.quorumProgressForBlock target.blockIndex target.blockHash target.round
        registry thresholdNumerator thresholdDenominator = some progress ∧
        progress.canCertify = true) ↔
      ∃ certificate, QuorumAssembly.tryBuildCertificate crypto pool target registry
        thresholdNumerator thresholdDenominator = .ok certificate) ↔
    (∀ vote ∈ pool.votesForBlock target.blockIndex target.blockHash target.round,
        vote.decision = .precommit) ∨
      ¬ Quorum.IsQuorum registry.weightOf registry.members (pool.votersFor target) ∨
      isCanonicalFraction thresholdNumerator thresholdDenominator = false := by
  have hinv := hpool.poolInvariant
  rw [canCertify_iff hinv hvalid hclean, tryBuildCertificate_ok_iff hinv hdigest hvalid hclean,
    ← Bool.not_eq_true]
  tauto

/-- A pool with the PRECOMMITs of `a`, `b` and `c` for block `B`, and `more`. -/
def precommitPool (more : List ValidatorVoteRecord) : VotePool :=
  (["a", "b", "c"].map (fun name => sampleVote name 1 "B" "G" 1 .precommit 10) ++ more).foldl
    (fun pool vote => (pool.submitVote sampleCrypto vote).2) VotePool.empty

theorem precommitPool_reachable (more : List ValidatorVoteRecord) :
    PoolReachable sampleCrypto (fun _ => True) (precommitPool more) := by
  have hrun : ∀ (votes : List ValidatorVoteRecord) (pool : VotePool),
      PoolReachable sampleCrypto (fun _ => True) pool →
      PoolReachable sampleCrypto (fun _ => True)
        (votes.foldl (fun pool vote => (pool.submitVote sampleCrypto vote).2) pool) := by
    intro votes
    induction votes with
    | nil => exact fun pool h => h
    | cons vote rest ih => exact fun pool h => ih _ (h.submit vote trivial)
  exact hrun _ _ .empty

instance (crypto : CryptoContext) (registry : ValidatorRegistry) (pool : VotePool)
    (target : CertificateTarget) : Decidable (pool.CleanFor crypto registry target) :=
  inferInstanceAs (Decidable (∀ vote ∈ _, _ ∧ _ ∧ _ ∧ _))

/-- Three PRECOMMITs alone: both answers are yes. -/
theorem progress_agrees_precommits :
    (∃ progress, (precommitPool []).quorumProgressForBlock 1 "B" 1 sampleRegistry 2 3 =
        some progress ∧ progress.canCertify = true) ↔
      ∃ certificate, QuorumAssembly.tryBuildCertificate sampleCrypto (precommitPool [])
        ⟨1, "B", "G", 1⟩ sampleRegistry 2 3 = .ok certificate :=
  (@progress_agrees_iff sampleCrypto _ (precommitPool_reachable []) sampleRegistry
    (by decide +kernel) (by decide +kernel) ⟨1, "B", "G", 1⟩ (by decide +kernel) 2 3).mpr
    (.inl (by decide +kernel))

/-- **A PREVOTE in the way.** With the PREVOTE of `a` beside the three PRECOMMITs, the
progress can certify and the builder refuses. -/
theorem prevote_stops_certificate :
    ∃ (pool : VotePool) (target : CertificateTarget),
      PoolReachable sampleCrypto (fun _ => True) pool ∧
      sampleRegistry.isValid sampleCrypto = true ∧
      isSafeScalar (sampleCrypto.registryDigest sampleRegistry.entries.entries) = true ∧
      pool.CleanFor sampleCrypto sampleRegistry target ∧
      ¬ ((∃ progress, pool.quorumProgressForBlock target.blockIndex target.blockHash target.round
          sampleRegistry 2 3 = some progress ∧ progress.canCertify = true) ↔
        ∃ certificate, QuorumAssembly.tryBuildCertificate sampleCrypto pool target sampleRegistry
          2 3 = .ok certificate) := by
  refine ⟨precommitPool [sampleVote "a" 1 "B" "G" 1 .prevote 5], ⟨1, "B", "G", 1⟩,
    precommitPool_reachable _, by decide +kernel, by decide +kernel, by decide +kernel, ?_⟩
  intro hagree
  obtain ⟨certificate, hcertificate⟩ := hagree.mp
    ⟨⟨1, "B", 1, 3000000, 2666667, 4000000⟩, by decide +kernel, by decide +kernel⟩
  have hrefused : (QuorumAssembly.tryBuildCertificate sampleCrypto
      (precommitPool [sampleVote "a" 1 "B" "G" 1 .prevote 5]) ⟨1, "B", "G", 1⟩ sampleRegistry
      2 3).isOk = false := by
    decide +kernel
  rw [hcertificate] at hrefused
  cases hrefused

end Nodo.Model
