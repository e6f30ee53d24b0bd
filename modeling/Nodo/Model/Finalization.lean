import Nodo.Model.VotePool

/-!
# Nodo — from a pool of votes to a finalized block

`consensus/BlockFinalizer.cpp` and `node/consensus/BlockFinalizationPhase.cpp`:
the PRECOMMIT votes a pool holds for a candidate are turned into a certificate,
and the finalizer accepts it for the block or not. The checks that do not look
at votes (chain, registry, state transition) enter as their outcomes.

## Results

* `collectVotes_ok`, `buildFromVotes_ok` — the builder succeeds on distinct,
  well-formed PRECOMMIT votes of sufficient weight.
* `tryFinalize_ok_iff` — given a quorum of certifiable votes, the phase
  finalizes exactly when *every* PRECOMMIT the pool holds for the block is
  certifiable.
-/

namespace Nodo.Model

/-- What consensus reads of a `core::Block`. -/
structure Block where
  index : Nat
  hash : String
  previousHash : String
  timestamp : Int
  deriving DecidableEq, Repr

structure FinalizedBlockRecord where
  blockIndex : Nat
  blockHash : String
  previousHash : String
  round : Nat
  finalizedAt : Int
  quorumCertificate : QuorumCertificate
  deriving DecidableEq, Repr

namespace FinalizedBlockRecord

/-- `matchesBlock`: no vote may be older than the block it certifies. -/
def matchesBlock (record : FinalizedBlockRecord) (block : Block) : Bool :=
  record.blockIndex == block.index && record.blockHash == block.hash
    && record.previousHash == block.previousHash
    && record.quorumCertificate.votes.all (fun vote => block.timestamp ≤ vote.createdAt)

def isStructurallyValid (record : FinalizedBlockRecord) : Bool :=
  record.blockIndex != 0 && record.round != 0 && 0 < record.finalizedAt
    && isSafeScalar record.blockHash && isSafeScalar record.previousHash
    && record.quorumCertificate.isStructurallyValid
    && record.quorumCertificate.blockIndex == record.blockIndex
    && record.quorumCertificate.blockHash == record.blockHash
    && record.quorumCertificate.previousHash == record.previousHash
    && record.quorumCertificate.round == record.round

def verify (crypto : CryptoContext) (registry : ValidatorRegistry)
    (record : FinalizedBlockRecord) : Bool :=
  record.isStructurallyValid && record.quorumCertificate.verify crypto registry

end FinalizedBlockRecord

inductive BlockFinalizationStatus
  | invalidBlockchain
  | invalidFinalizationRegistry
  | invalidBlock
  | appendRejected
  | invalidCertificate
  | certificateBlockMismatch
  | alreadyFinalizedConflict
  deriving DecidableEq, Repr

structure BlockFinalizationRejection where
  status : BlockFinalizationStatus
  reason : String
  deriving DecidableEq, Repr

/-- The outcomes of the finalizer's checks that read the chain and the
finalization registry, not the votes. -/
structure ChainChecks where
  /-- `!blockchain.empty() && blockchain.isValid(false)`. -/
  blockchainValid : Bool
  /-- `finalizationRegistry.isValid()`. -/
  registryValid : Bool
  /-- `block.isValid(false) && !block.isGenesisBlock()`. -/
  blockValid : Bool
  /-- `blockchain.canAppendBlock(block)`. -/
  canAppend : Bool
  /-- `finalizationRegistry.canRegister(record)`. -/
  canRegister : Bool
  /-- The runtime, parameter and state-transition checks of
  `RuntimeBlockPipeline::applyCertifiedBlock` around the finalizer. -/
  stateTransition : Bool
  deriving DecidableEq, Repr

/-- All checks that do not look at votes pass. -/
def ChainChecks.allPass : ChainChecks := ⟨true, true, true, true, true, true⟩

/-- `BlockFinalizer::certificateMatchesBlock`. -/
def certificateMatchesBlock (block : Block) (certificate : QuorumCertificate) : Bool :=
  certificate.blockIndex == block.index && certificate.blockHash == block.hash
    && certificate.previousHash == block.previousHash

/-- `BlockFinalizer::finalizeBlock`. -/
def finalizeBlock (crypto : CryptoContext) (registry : ValidatorRegistry) (checks : ChainChecks)
    (block : Block) (certificate : QuorumCertificate) (finalizedAt : Int) :
    Except BlockFinalizationRejection FinalizedBlockRecord :=
  let record : FinalizedBlockRecord :=
    ⟨block.index, block.hash, block.previousHash, certificate.round, finalizedAt, certificate⟩
  if !checks.blockchainValid then
    .error ⟨.invalidBlockchain, "Blockchain is empty or invalid."⟩
  else if !checks.registryValid then
    .error ⟨.invalidFinalizationRegistry, "Block finalization registry is invalid."⟩
  else if !checks.blockValid then
    .error ⟨.invalidBlock, "Only valid non-genesis blocks can be finalized."⟩
  else if finalizedAt ≤ 0 then
    .error ⟨.invalidBlock, "Finalization timestamp must be positive."⟩
  else if !checks.canAppend then
    .error ⟨.appendRejected, "Block cannot be appended to current blockchain tip."⟩
  else if !certificate.verify crypto registry then
    .error ⟨.invalidCertificate, "Quorum certificate failed verification."⟩
  else if !certificateMatchesBlock block certificate then
    .error ⟨.certificateBlockMismatch, "Quorum certificate does not match block."⟩
  else if !record.matchesBlock block then
    .error ⟨.invalidCertificate, "PRECOMMIT vote time is earlier than the certified block time."⟩
  else if !record.verify crypto registry then
    .error ⟨.invalidCertificate, "Finalized block record failed verification."⟩
  else if !checks.canRegister then
    .error ⟨.alreadyFinalizedConflict, "A conflicting block is already finalized at this height."⟩
  else .ok record

--
-- The finalization phase
--

/-- `networkParameters()` as far as consensus reads them. -/
structure ConsensusParameters where
  quorumThresholdNumerator : Nat
  quorumThresholdDenominator : Nat
  proposalTimeoutMs : Nat
  prevoteTimeoutMs : Nat
  precommitTimeoutMs : Nat
  deriving DecidableEq, Repr

/-- `BlockFinalizationPhaseResult`. -/
inductive BlockFinalizationPhaseResult
  | failed (reason : String)
  | notEnoughVotes
  | ok (record : FinalizedBlockRecord)
  deriving DecidableEq, Repr

/-- The votes `tryFinalize` hands to the builder: every PRECOMMIT the pool lists
for the block and round. -/
def certificateVotes (pool : VotePool) (block : Block) (round : Nat) : List ValidatorVoteRecord :=
  (pool.votesForBlock block.index block.hash round).filter (fun vote => vote.decision == .precommit)

/-- The certificate `tryFinalize` assembles from a pool. -/
def assembleCertificate (crypto : CryptoContext) (params : ConsensusParameters)
    (registry : ValidatorRegistry) (pool : VotePool) (block : Block) (round : Nat) :
    Except QuorumCertificateRejection QuorumCertificate :=
  buildFromVotes crypto registry ⟨block.index, block.hash, block.previousHash, round⟩
    (certificateVotes pool block round) params.quorumThresholdNumerator
    params.quorumThresholdDenominator

/-- `BlockFinalizationPhase::tryFinalize` up to persistence. -/
def tryFinalize (crypto : CryptoContext) (params : ConsensusParameters)
    (hasFinalizedHeight : Bool) (validatorSet : Option ValidatorRegistry) (pool : VotePool)
    (checks : ChainChecks) (block : Block) (round : Nat) (now : Int) :
    BlockFinalizationPhaseResult :=
  if hasFinalizedHeight then
    .failed ("Block at height " ++ toString block.index ++ " already finalized.")
  else match validatorSet with
    | none =>
      .failed ("Validator set history is missing for block height " ++ toString block.index ++ ".")
    | some registry =>
      match assembleCertificate crypto params registry pool block round with
      | .error _ => .notEnoughVotes
      | .ok certificate =>
        if !checks.stateTransition then .failed "Node runtime rejected the certified block."
        else match finalizeBlock crypto registry checks block certificate now with
          | .error rejection => .failed rejection.reason
          | .ok record => .ok record

--
-- When the builder succeeds
--

/-- A vote that `buildFromVotes` can use for the target. -/
structure UsableVote (crypto : CryptoContext) (registry : ValidatorRegistry)
    (target : CertificateTarget) (vote : ValidatorVoteRecord) : Prop where
  verified : vote.verify crypto = true
  matchesBlock : vote.matchesBlock target.blockIndex target.blockHash target.round = true
  previousHash : vote.previousHash = target.previousHash
  precommit : vote.decision = .precommit
  identity : registry.verifyValidatorIdentity crypto vote.validatorAddress
    vote.validatorPublicKey = true
  weighted : registry.consensusWeightFor vote.validatorAddress ≠ 0

/-- A usable vote vouches for the shape of its target. -/
theorem UsableVote.target_safe {crypto : CryptoContext} {registry : ValidatorRegistry}
    {target : CertificateTarget} {vote : ValidatorVoteRecord}
    (h : UsableVote crypto registry target vote) :
    isSafeScalar target.blockHash = true ∧ isSafeScalar target.previousHash = true ∧
      target.blockIndex ≠ 0 ∧ target.round ≠ 0 := by
  obtain ⟨hIndex, hHash, hRound⟩ := ValidatorVoteRecord.matchesBlock_iff.mp h.matchesBlock
  have hsafe := ValidatorVoteRecord.verify_structural h.verified
  rwa [hHash, h.previousHash, hIndex, hRound] at hsafe

private theorem not_guard_of_le {a b : UInt64} (h : a.toNat + b.toNat ≤ uint64Max.toNat) :
    ¬ uint64Max - a < b := by
  have hle : a ≤ uint64Max := by
    rw [UInt64.le_iff_toNat_le]
    omega
  rw [UInt64.lt_iff_toNat_lt, UInt64.toNat_sub_of_le _ _ hle]
  omega

/-- The loop of `buildFromVotes` on usable votes of distinct voters whose weight
fits: it returns their sum. -/
theorem collectVotes_ok {crypto : CryptoContext} {registry : ValidatorRegistry}
    {target : CertificateTarget} {votes : List ValidatorVoteRecord} {seen : List String}
    {start : UInt64}
    (hUsable : ∀ vote ∈ votes, UsableVote crypto registry target vote)
    (hNodup : (votes.map (·.validatorAddress)).Nodup)
    (hFresh : ∀ vote ∈ votes, vote.validatorAddress ∉ seen)
    (hFits : start.toNat + (votes.map (fun v => registry.weightOf v.validatorAddress)).sum
      ≤ uint64Max.toNat) :
    ∃ signedWeight, collectVotes crypto registry target seen start votes = .ok signedWeight ∧
      QuorumCertificate.countSignedWeight crypto registry start votes = some signedWeight := by
  induction votes generalizing seen start with
  | nil => exact ⟨start, rfl, rfl⟩
  | cons vote rest ih =>
    have hu := hUsable vote (List.mem_cons_self ..)
    obtain ⟨hnotin, hnodup⟩ := List.nodup_cons.mp (List.map_cons ▸ hNodup)
    rw [List.map_cons, List.sum_cons] at hFits
    have hguard : ¬ uint64Max - start < registry.consensusWeightFor vote.validatorAddress := by
      refine not_guard_of_le ?_
      have hle : start.toNat + registry.weightOf vote.validatorAddress ≤ uint64Max.toNat := by
        omega
      exact hle
    have hsum := toNat_add_of_guard hguard
    obtain ⟨signedWeight, hcollect, hcount⟩ :=
      @ih (vote.validatorAddress :: seen)
        (start + registry.consensusWeightFor vote.validatorAddress)
        (fun v hv => hUsable v (List.mem_cons_of_mem _ hv)) hnodup
        (by
          intro v hv hseen
          rcases List.mem_cons.mp hseen with heq | hold
          · exact hnotin (heq ▸ List.mem_map_of_mem hv)
          · exact hFresh v (List.mem_cons_of_mem _ hv) hold)
        (by
          rw [hsum]
          have hw : registry.weightOf vote.validatorAddress
              = (registry.consensusWeightFor vote.validatorAddress).toNat := rfl
          omega)
    have hseen : vote.validatorAddress ∉ seen := hFresh vote (List.mem_cons_self ..)
    refine ⟨signedWeight, ?_, ?_⟩
    · rw [collectVotes, if_neg (by simp [hu.verified]),
        if_neg (by simp [hu.matchesBlock, hu.previousHash]), if_neg (by simp [hu.precommit]),
        if_neg (by simp [hu.identity]), if_neg (by simpa using hseen)]
      dsimp only
      rw [if_neg (by simpa using hu.weighted), if_neg hguard]
      exact hcollect
    · rw [QuorumCertificate.countSignedWeight, if_neg (by simp [hu.identity]),
        if_neg (by simp [hu.verified])]
      dsimp only
      rw [if_neg (by simpa [hguard] using hu.weighted)]
      exact hcount

/-- Distinct weighted voters never outweigh the registry. -/
theorem sum_weightOf_le_total {registry : ValidatorRegistry} {total : UInt64}
    {voters : List String} (hTotal : registry.totalConsensusWeight = some total)
    (hNodup : voters.Nodup) (hWeighted : ∀ a ∈ voters, registry.consensusWeightFor a ≠ 0) :
    (voters.map registry.weightOf).sum ≤ total.toNat := by
  rw [ValidatorRegistry.totalConsensusWeight_toNat hTotal, ← List.sum_toFinset _ hNodup]
  refine Quorum.weight_mono ?_
  intro a ha
  exact ValidatorRegistry.mem_members_of_weight_ne_zero (hWeighted a (List.mem_toFinset.mp ha))

/-- The threshold of a positive total exists and is between one and the total. -/
theorem requiredWeight_of_pos {total : UInt64} (h : 0 < total.toNat) :
    ∃ required, requiredWeight total = some required ∧
      0 < required.toNat ∧ required.toNat ≤ total.toNat := by
  have hne : (total == 0) = false := by
    rw [beq_eq_false_iff_ne]
    rintro rfl
    exact absurd h (by simp)
  have hsome : requiredWeight total = some (total - (total - 1) / 3) := by
    simp [requiredWeight, hne]
  have hnat := requiredWeight_toNat hsome
  exact ⟨_, hsome, by omega, by omega⟩

/-- A certificate over usable votes of distinct voters passes `verify`. -/
theorem verify_of_usable {crypto : CryptoContext} {registry : ValidatorRegistry}
    {certificate : QuorumCertificate}
    (hValid : registry.isValid crypto = true)
    (hTotal : registry.totalConsensusWeight = some certificate.totalVotingWeight)
    (hRequired : requiredWeight certificate.totalVotingWeight
      = some certificate.requiredVotingWeight)
    (hRoot : registry.validatorSetRoot crypto = some certificate.validatorSetRoot)
    (hRootSafe : isSafeScalar certificate.validatorSetRoot = true)
    (hNonempty : certificate.votes ≠ [])
    (hUsable : ∀ vote ∈ certificate.votes, UsableVote crypto registry
      ⟨certificate.blockIndex, certificate.blockHash, certificate.previousHash,
        certificate.round⟩ vote)
    (hNodup : certificate.voters.Nodup)
    (hCount : QuorumCertificate.countSignedWeight crypto registry 0 certificate.votes
      = some certificate.signedVotingWeight)
    (hEnough : certificate.requiredVotingWeight ≤ certificate.signedVotingWeight)
    (hBound : certificate.signedVotingWeight ≤ certificate.totalVotingWeight) :
    certificate.verify crypto registry = true := by
  obtain ⟨first, hfirst⟩ := List.exists_mem_of_ne_nil _ hNonempty
  obtain ⟨hSafeHash, hSafePrev, hIndexNe, hRoundNe⟩ := (hUsable first hfirst).target_safe
  have hRequiredNat := requiredWeight_toNat hRequired
  rw [UInt64.le_iff_toNat_le] at hEnough hBound
  have hPos : ∀ w : UInt64, 0 < w.toNat → (w == 0) = false := by
    intro w hw
    rw [beq_eq_false_iff_ne]
    rintro rfl
    exact absurd hw (by simp)
  have hDup : hasDuplicateVoter certificate.votes = false :=
    hasDuplicateVoterFrom_eq_false_iff.mpr ⟨hNodup, by simp⟩
  have hShape : ∀ vote ∈ certificate.votes,
      (vote.matchesBlock certificate.blockIndex certificate.blockHash certificate.round = true ∧
        vote.previousHash = certificate.previousHash) ∧ vote.decision = .precommit :=
    fun vote hvote => ⟨⟨(hUsable vote hvote).matchesBlock, (hUsable vote hvote).previousHash⟩,
      (hUsable vote hvote).precommit⟩
  have hStruct : certificate.isStructurallyValid = true := by
    unfold QuorumCertificate.isStructurallyValid
    rw [if_neg, if_neg, if_neg, if_neg, if_neg, if_neg]
    · simpa using hShape
    · simp [hDup]
    · simpa using hNonempty
    · simp [hRequired]
    · simp only [Bool.or_eq_true, decide_eq_true_eq, UInt64.lt_iff_toNat_lt]
      omega
    · simp [hSafeHash, hSafePrev, hRootSafe]
    · rw [beq_false_of_ne hIndexNe, beq_false_of_ne hRoundNe, hPos _ (by omega),
        hPos _ (by omega), hPos _ (by omega)]
      simp
  unfold QuorumCertificate.verify
  rw [if_neg (by simp [hStruct]), if_neg (by simp [hValid]), if_neg (by simp [hTotal]),
    if_neg (by simp [hRequired]), if_neg (by simp [hRoot]), hCount]
  simp only [beq_self_eq_true, Bool.true_and, decide_eq_true_eq, UInt64.le_iff_toNat_le]
  exact hEnough

/-- **The builder succeeds** on usable votes of distinct voters that reach the
threshold, and certifies exactly those votes. -/
theorem buildFromVotes_ok {crypto : CryptoContext} {registry : ValidatorRegistry}
    {target : CertificateTarget} {votes : List ValidatorVoteRecord} {total : UInt64}
    (hDigest : isSafeScalar (crypto.registryDigest registry.entries.entries) = true)
    (hValid : registry.isValid crypto = true)
    (hTotal : registry.totalConsensusWeight = some total)
    (hUsable : ∀ vote ∈ votes, UsableVote crypto registry target vote)
    (hNodup : (votes.map (·.validatorAddress)).Nodup)
    (hQuorum : 2 * total.toNat / 3 + 1
      ≤ (votes.map (fun v => registry.weightOf v.validatorAddress)).sum) :
    ∃ certificate, buildFromVotes crypto registry target votes 2 3 = .ok certificate ∧
      certificate.votes = votes ∧ certificate.blockIndex = target.blockIndex ∧
      certificate.blockHash = target.blockHash ∧
      certificate.previousHash = target.previousHash ∧ certificate.round = target.round := by
  have hVoters : ∀ a ∈ votes.map (·.validatorAddress), registry.consensusWeightFor a ≠ 0 := by
    intro a ha
    obtain ⟨vote, hvote, rfl⟩ := List.mem_map.mp ha
    exact (hUsable vote hvote).weighted
  have hSumLe : (votes.map (fun v => registry.weightOf v.validatorAddress)).sum ≤ total.toNat := by
    simpa [Function.comp_def] using sum_weightOf_le_total hTotal hNodup hVoters
  have hTotalLt := total.toNat_lt
  obtain ⟨signed, hcollect, hcount⟩ := @collectVotes_ok _ _ _ _ [] 0 hUsable hNodup
    (by simp) (by simp only [uint64Max_toNat, UInt64.toNat_zero]; omega)
  have hSigned : signed.toNat
      = (votes.map (fun v => registry.weightOf v.validatorAddress)).sum := by
    simpa using (QuorumCertificate.countSignedWeight_spec hcount).1
  obtain ⟨required, hRequired, hReqPos, hReqLe⟩ :=
    requiredWeight_of_pos (show 0 < total.toNat by omega)
  have hRequiredNat := requiredWeight_toNat hRequired
  have hNonempty : votes ≠ [] := by
    rintro rfl
    simp at hQuorum
  obtain ⟨first, hfirst⟩ := List.exists_mem_of_ne_nil _ hNonempty
  obtain ⟨hSafeHash, hSafePrev, hIndexNe, hRoundNe⟩ := (hUsable first hfirst).target_safe
  let certificate : QuorumCertificate :=
    ⟨target.blockIndex, target.blockHash, target.previousHash, target.round, required, total,
      signed, crypto.registryDigest registry.entries.entries, votes⟩
  have hRoot : registry.validatorSetRoot crypto
      = some (crypto.registryDigest registry.entries.entries) := by
    simp [ValidatorRegistry.validatorSetRoot, hTotal]
  have hEnough : required ≤ signed := by
    rw [UInt64.le_iff_toNat_le]
    omega
  have hVerify : certificate.verify crypto registry = true :=
    verify_of_usable hValid hTotal hRequired hRoot hDigest hNonempty hUsable hNodup hcount
      hEnough (by rw [UInt64.le_iff_toNat_le]; show signed.toNat ≤ total.toNat; omega)
  refine ⟨certificate, ?_, rfl, rfl, rfl, rfl, rfl⟩
  have hTotalNe : total ≠ 0 := by
    rintro rfl
    simp at hReqLe
    omega
  unfold buildFromVotes
  rw [if_neg, if_neg, hTotal]
  · have hThreshold : requiredVotingWeight total 2 3 = some required := by
      simp [requiredVotingWeight, isCanonicalFraction, hTotalNe, hRequired]
    have hNotLess : ¬ signed < required := UInt64.not_lt.mpr hEnough
    simp only [hThreshold, hcollect, hNotLess, if_false, hRoot, Option.getD_some]
    rw [if_neg (by simpa using hVerify)]
  · simp [hValid, hTotal, hTotalNe]
  · simp [hIndexNe, hRoundNe, hSafeHash, hSafePrev, hNonempty]

--
-- A formed quorum against the other votes of the pool
--

/-- The collectors a node can hold: a fresh one, after any submitted votes and
any moves of the window. -/
inductive CollectorReachable (crypto : CryptoContext) : NetworkVoteCollector → Prop
  | init (height round : Nat) : CollectorReachable crypto (.init height round)
  | submit {collector : NetworkVoteCollector} (vote : ValidatorVoteRecord) :
      CollectorReachable crypto collector →
      CollectorReachable crypto (collector.submitNetworkVote crypto vote).2
  | move {collector : NetworkVoteCollector} (height round : Nat) :
      CollectorReachable crypto collector →
      CollectorReachable crypto (collector.setCurrentRound crypto height round)

theorem PoolInvariant.submitNetworkVote {crypto : CryptoContext}
    {collector : NetworkVoteCollector} (hInv : PoolInvariant collector.pool)
    (vote : ValidatorVoteRecord) :
    PoolInvariant (collector.submitNetworkVote crypto vote).2.pool := by
  rcases collector.submitNetworkVote_cases crypto vote with ⟨heq, -⟩ | ⟨-, -, heq, -⟩
  · rw [heq]
    exact hInv
  · rw [heq]
    exact hInv.submitVote vote

theorem CollectorReachable.poolInvariant {crypto : CryptoContext}
    {collector : NetworkVoteCollector} (h : CollectorReachable crypto collector) :
    PoolInvariant collector.pool := by
  induction h with
  | init height round => exact poolInvariant_empty
  | submit vote _ ih => exact ih.submitNetworkVote vote
  | move height round _ ih => exact ih.prune height

/-- A PRECOMMIT that counts for `block`: signed, for the block's predecessor, by
a validator eligible in the registry, and not older than the block. -/
def isCertifiableVote (crypto : CryptoContext) (registry : ValidatorRegistry) (block : Block)
    (vote : ValidatorVoteRecord) : Bool :=
  vote.decision == .precommit && vote.previousHash == block.previousHash && vote.verify crypto
    && registry.verifyValidatorIdentity crypto vote.validatorAddress vote.validatorPublicKey
    && registry.isEligibleForConsensus vote.validatorAddress
    && block.timestamp ≤ vote.createdAt

/-- The weight of the certifiable votes a pool holds for `block` in `round`. -/
def certifiableWeight (crypto : CryptoContext) (registry : ValidatorRegistry) (pool : VotePool)
    (block : Block) (round : Nat) : Nat :=
  (((pool.votesForBlock block.index block.hash round).filter
    (isCertifiableVote crypto registry block)).map
      (fun vote => registry.weightOf vote.validatorAddress)).sum

theorem weight_ne_zero_iff_eligible {registry : ValidatorRegistry} {address : String} :
    registry.consensusWeightFor address ≠ 0 ↔ registry.isEligibleForConsensus address = true := by
  unfold ValidatorRegistry.consensusWeightFor ValidatorRegistry.isEligibleForConsensus
  cases hfind : registry.entries.find? address with
  | none => simp
  | some entry =>
    by_cases hel : entry.eligibleForConsensus
    · have hpos : 0 < entry.consensusWeight := by
        simp only [ValidatorRegistryEntry.eligibleForConsensus, Bool.and_eq_true,
          decide_eq_true_eq] at hel
        exact hel.2
      simp only [hel, if_true, iff_true]
      intro h0
      rw [h0] at hpos
      exact absurd hpos (by decide)
    · simp [hel]

/-- The PRECOMMIT voters a pool lists for one block and round are distinct. -/
theorem certificateVotes_voters_nodup {pool : VotePool} (hInv : PoolInvariant pool)
    (block : Block) (round : Nat) :
    ((certificateVotes pool block round).map (·.validatorAddress)).Nodup := by
  unfold certificateVotes
  rw [List.Nodup, List.pairwise_map, List.pairwise_filter]
  refine (hInv.votesForBlock_distinct block.index round block.hash).imp_of_mem ?_
  intro a b ha hb hkeys hda hdb haddr
  obtain ⟨hia, -, hra, -⟩ := hInv.votesForBlock_indexed ha
  obtain ⟨hib, -, hrb, -⟩ := hInv.votesForBlock_indexed hb
  -- same voter, height, round and decision: the pool would have one key for both
  refine hkeys ?_
  simp only [beq_iff_eq] at hda hdb
  rw [VotePool.validatorHeightRoundKey, VotePool.validatorHeightRoundKey, haddr, hia, hra, hib,
    hrb, hda, hdb]

/-- What an accepting `finalizeBlock` has checked. -/
theorem finalizeBlock_spec {crypto : CryptoContext} {registry : ValidatorRegistry}
    {checks : ChainChecks} {block : Block} {certificate : QuorumCertificate} {now : Int}
    {record : FinalizedBlockRecord}
    (h : finalizeBlock crypto registry checks block certificate now = .ok record) :
    certificate.verify crypto registry = true ∧ record.matchesBlock block = true ∧
      record.quorumCertificate = certificate ∧ record.round = certificate.round := by
  obtain ⟨-, h⟩ := Guards.ok_of_ite_error h
  obtain ⟨-, h⟩ := Guards.ok_of_ite_error h
  obtain ⟨-, h⟩ := Guards.ok_of_ite_error h
  obtain ⟨-, h⟩ := Guards.ok_of_ite_error h
  obtain ⟨-, h⟩ := Guards.ok_of_ite_error h
  obtain ⟨hVerify, h⟩ := Guards.ok_of_ite_error h
  obtain ⟨-, h⟩ := Guards.ok_of_ite_error h
  obtain ⟨hMatch, h⟩ := Guards.ok_of_ite_error h
  obtain ⟨-, h⟩ := Guards.ok_of_ite_error h
  obtain ⟨-, h⟩ := Guards.ok_of_ite_error h
  obtain rfl := Except.ok.inj h
  exact ⟨by simpa using hVerify, by simpa using hMatch, rfl, rfl⟩

/-- What an accepting `buildFromVotes` has checked. -/
theorem buildFromVotes_spec {crypto : CryptoContext} {registry : ValidatorRegistry}
    {target : CertificateTarget} {votes : List ValidatorVoteRecord} {numerator denominator : Nat}
    {certificate : QuorumCertificate}
    (h : buildFromVotes crypto registry target votes numerator denominator = .ok certificate) :
    certificate.verify crypto registry = true ∧ certificate.votes = votes ∧
      certificate.blockIndex = target.blockIndex ∧ certificate.blockHash = target.blockHash ∧
      certificate.previousHash = target.previousHash ∧ certificate.round = target.round := by
  obtain ⟨-, h⟩ := Guards.ok_of_ite_error h
  obtain ⟨-, h⟩ := Guards.ok_of_ite_error h
  split at h
  · cases h
  split at h
  · cases h
  split at h
  · cases h
  obtain ⟨-, h⟩ := Guards.ok_of_ite_error h
  obtain ⟨hVerify, h⟩ := Guards.ok_of_ite_error h
  obtain rfl := Except.ok.inj h
  exact ⟨by simpa using hVerify, rfl, rfl, rfl, rfl, rfl⟩

/-- Whatever `tryFinalize` finalizes, every PRECOMMIT in the pool for that block
and round was certifiable. -/
theorem certifiable_of_tryFinalize_ok {crypto : CryptoContext} {params : ConsensusParameters}
    {registry : ValidatorRegistry} {pool : VotePool} {checks : ChainChecks} {block : Block}
    {round : Nat} {now : Int} {record : FinalizedBlockRecord}
    (hok : tryFinalize crypto params false (some registry) pool checks block round now = .ok record)
    {vote : ValidatorVoteRecord}
    (hvote : vote ∈ pool.votesForBlock block.index block.hash round)
    (hdecision : vote.decision = .precommit) :
    isCertifiableVote crypto registry block vote = true := by
  unfold tryFinalize at hok
  simp only [Bool.false_eq_true, if_false] at hok
  split at hok
  · cases hok
  rename_i certificate hcert
  split_ifs at hok with hstate
  split at hok
  · cases hok
  rename_i record' hfin
  obtain rfl := BlockFinalizationPhaseResult.ok.inj hok
  obtain ⟨hverify, hmatch, hqc, -⟩ := finalizeBlock_spec hfin
  obtain ⟨-, hcv, -, -, hprev, -⟩ := buildFromVotes_spec hcert
  have hin : vote ∈ certificate.votes := by
    rw [hcv, certificateVotes, List.mem_filter]
    exact ⟨hvote, by simp [hdecision]⟩
  have hc := (QuorumCertificate.verify_spec hverify).counted vote hin
  have htime : block.timestamp ≤ vote.createdAt := by
    simp only [FinalizedBlockRecord.matchesBlock, Bool.and_eq_true, List.all_eq_true,
      decide_eq_true_eq] at hmatch
    exact hmatch.2 vote (hqc ▸ hin)
  have hel := weight_ne_zero_iff_eligible.mp hc.weighted
  have hp : vote.previousHash = block.previousHash := hc.previousHash.trans hprev
  simp [isCertifiableVote, hdecision, hp, hc.verified, hc.identity, hel, htime]

/-- A certifiable vote the pool lists for the block is usable for it. -/
theorem usableVote_of_certifiable {crypto : CryptoContext} {registry : ValidatorRegistry}
    {pool : VotePool} (hInv : PoolInvariant pool) {block : Block} {round : Nat}
    {vote : ValidatorVoteRecord}
    (hvote : vote ∈ pool.votesForBlock block.index block.hash round)
    (hgood : isCertifiableVote crypto registry block vote = true) :
    UsableVote crypto registry ⟨block.index, block.hash, block.previousHash, round⟩ vote := by
  obtain ⟨hi, hh, hr, -⟩ := hInv.votesForBlock_indexed hvote
  simp only [isCertifiableVote, Bool.and_eq_true, beq_iff_eq, decide_eq_true_eq] at hgood
  obtain ⟨⟨⟨⟨⟨hdec, hprev⟩, hver⟩, hid⟩, hel⟩, -⟩ := hgood
  exact ⟨hver, ValidatorVoteRecord.matchesBlock_iff.mpr ⟨hi, hh, hr⟩, hprev, hdec, hid,
    weight_ne_zero_iff_eligible.mpr hel⟩

/-- The finalizer accepts a verified certificate for the block whose votes are
not older than it. -/
theorem finalizeBlock_ok {crypto : CryptoContext} {registry : ValidatorRegistry} {block : Block}
    {certificate : QuorumCertificate} {now : Int}
    (hVerify : certificate.verify crypto registry = true)
    (hMatch : certificateMatchesBlock block certificate = true) (hNow : 0 < now)
    (hTimes : ∀ vote ∈ certificate.votes, block.timestamp ≤ vote.createdAt) :
    finalizeBlock crypto registry .allPass block certificate now
      = .ok ⟨block.index, block.hash, block.previousHash, certificate.round, now, certificate⟩ := by
  have hStruct := QuorumCertificate.isStructurallyValid_of_verify hVerify
  obtain ⟨hIndex, hRound, hHash, hPrev⟩ := QuorumCertificate.isStructurallyValid_target hStruct
  have hFields := hMatch
  simp only [certificateMatchesBlock, Bool.and_eq_true, beq_iff_eq] at hFields
  obtain ⟨⟨hi, hh⟩, hp⟩ := hFields
  rw [hi] at hIndex
  rw [hh] at hHash
  rw [hp] at hPrev
  have hRecord : FinalizedBlockRecord.verify crypto registry
      ⟨block.index, block.hash, block.previousHash, certificate.round, now, certificate⟩ = true := by
    simp [FinalizedBlockRecord.verify, FinalizedBlockRecord.isStructurallyValid, hVerify, hStruct,
      hi, hh, hp, hIndex, hRound, hHash, hPrev, hNow]
  have hTimely : FinalizedBlockRecord.matchesBlock
      ⟨block.index, block.hash, block.previousHash, certificate.round, now, certificate⟩ block
        = true := by
    simpa [FinalizedBlockRecord.matchesBlock] using hTimes
  unfold finalizeBlock
  dsimp only
  rw [if_neg (by decide), if_neg (by decide), if_neg (by decide), if_neg (by omega),
    if_neg (by decide), if_neg (by simp [hVerify]), if_neg (by simp [hMatch]),
    if_neg (by simp [hTimely]), if_neg (by simp [hRecord]), if_neg (by decide)]

/-- **A quorum finalizes exactly when no other PRECOMMIT spoils it.** Let a pool
hold certifiable PRECOMMITs for `block` of at least `⌊2W/3⌋ + 1`. Then
`tryFinalize` finalizes the block if and only if every PRECOMMIT the pool holds
for its (height, hash, round) is certifiable. -/
theorem tryFinalize_ok_iff {crypto : CryptoContext} {params : ConsensusParameters}
    {registry : ValidatorRegistry} {collector : NetworkVoteCollector} {block : Block}
    {round : Nat} {now : Int} {total : UInt64}
    (hReach : CollectorReachable crypto collector)
    (hDigest : isSafeScalar (crypto.registryDigest registry.entries.entries) = true)
    (hParams : params.quorumThresholdNumerator = 2 ∧ params.quorumThresholdDenominator = 3)
    (hValid : registry.isValid crypto = true)
    (hTotal : registry.totalConsensusWeight = some total) (hNow : 0 < now)
    (hQuorum : 2 * total.toNat / 3 + 1
      ≤ certifiableWeight crypto registry collector.pool block round) :
    (∃ record, tryFinalize crypto params false (some registry) collector.pool .allPass block
        round now = .ok record ∧ record.matchesBlock block = true ∧ record.round = round) ↔
      ∀ vote ∈ collector.pool.votesForBlock block.index block.hash round,
        vote.decision = .precommit → isCertifiableVote crypto registry block vote = true := by
  have hInv := hReach.poolInvariant
  set votes := certificateVotes collector.pool block round with hVotes
  have hMem : ∀ vote, vote ∈ votes ↔
      vote ∈ collector.pool.votesForBlock block.index block.hash round ∧
        vote.decision = .precommit := by
    intro vote
    simp [hVotes, certificateVotes]
  constructor
  · rintro ⟨record, hok, -, -⟩ vote hvote hdecision
    exact certifiable_of_tryFinalize_ok hok hvote hdecision
  · intro hAll
    have hCertifiable : ∀ vote ∈ votes, isCertifiableVote crypto registry block vote = true :=
      fun vote hvote => hAll vote ((hMem vote).mp hvote).1 ((hMem vote).mp hvote).2
    -- with nothing to spoil the list, the builder's votes are the certifiable ones
    have hSame : (collector.pool.votesForBlock block.index block.hash round).filter
        (isCertifiableVote crypto registry block) = votes := by
      rw [hVotes, certificateVotes]
      refine List.filter_congr ?_
      intro vote hvote
      by_cases hdec : vote.decision = .precommit
      · rw [hAll vote hvote hdec]
        simp [hdec]
      · simp [isCertifiableVote, beq_false_of_ne hdec]
    rw [certifiableWeight, hSame] at hQuorum
    obtain ⟨certificate, hbuild, hcv, hi, hh, hp, hr⟩ := buildFromVotes_ok hDigest hValid hTotal
      (fun vote hvote => usableVote_of_certifiable hInv ((hMem vote).mp hvote).1
        (hCertifiable vote hvote))
      (certificateVotes_voters_nodup hInv block round) hQuorum
    have hverify := (buildFromVotes_spec hbuild).1
    have htimes : ∀ vote ∈ certificate.votes, block.timestamp ≤ vote.createdAt := by
      intro vote hvote
      have hgood := hCertifiable vote (hcv ▸ hvote)
      simp only [isCertifiableVote, Bool.and_eq_true, decide_eq_true_eq] at hgood
      exact hgood.2
    have hfin := finalizeBlock_ok hverify (by simp [certificateMatchesBlock, hi, hh, hp]) hNow htimes
    refine ⟨_, ?_, (finalizeBlock_spec hfin).2.1, hr⟩
    have hassemble : assembleCertificate crypto params registry collector.pool block round
        = .ok certificate := by
      rw [assembleCertificate, hParams.1, hParams.2]
      exact hbuild
    unfold tryFinalize
    simp only [Bool.false_eq_true, if_false, hassemble]
    rw [if_neg (by simp [ChainChecks.allPass]), hfin]

--
-- One spoiling vote
--

def sampleParams : ConsensusParameters := ⟨2, 3, 10000, 5000, 5000⟩

def sampleBlock : Block := ⟨1, "B", "G", 5⟩

/-- A node at height 1, round 1 that has received `votes`. -/
def sampleCollector (votes : List ValidatorVoteRecord) : NetworkVoteCollector :=
  votes.foldl (fun collector vote => (collector.submitNetworkVote sampleCrypto vote).2) (.init 1 1)

theorem sampleCollector_reachable (votes : List ValidatorVoteRecord) :
    CollectorReachable sampleCrypto (sampleCollector votes) := by
  unfold sampleCollector
  induction votes using List.reverseRecOn with
  | nil => exact .init 1 1
  | append_singleton rest vote ih =>
    rw [List.foldl_append]
    exact .submit vote ih

/-- PRECOMMITs of `a`, `b` and `c` for the sample block: a quorum of the four. -/
def quorumVotes : List ValidatorVoteRecord :=
  ["a", "b", "c"].map fun name => sampleVote name 1 "B" "G" 1 .precommit 10

/-- With three good votes the sample block is finalized. -/
theorem tryFinalize_ok_iff_sample :
    (∃ record, tryFinalize sampleCrypto sampleParams false (some sampleRegistry)
        (sampleCollector quorumVotes).pool .allPass sampleBlock 1 20 = .ok record ∧
        record.matchesBlock sampleBlock = true ∧ record.round = 1) ↔
      ∀ vote ∈ (sampleCollector quorumVotes).pool.votesForBlock sampleBlock.index
          sampleBlock.hash 1,
        vote.decision = .precommit →
          isCertifiableVote sampleCrypto sampleRegistry sampleBlock vote = true := by
  have hTotal : sampleRegistry.totalConsensusWeight = some 4000000 := by decide +kernel
  exact tryFinalize_ok_iff (sampleCollector_reachable quorumVotes) (by decide +kernel) ⟨rfl, rfl⟩
    (by decide +kernel) hTotal (by decide) (by decide +kernel)

/-- Validator `d` signs a PRECOMMIT for the same block hash with another
previous hash. The pool accepts it, three honest PRECOMMITs still weigh a quorum,
and the block is not finalized. -/
theorem spoiling_precommit_blocks_quorum :
    ∃ collector, CollectorReachable sampleCrypto collector ∧
      2 * 4000000 / 3 + 1
        ≤ certifiableWeight sampleCrypto sampleRegistry collector.pool sampleBlock 1 ∧
      ∀ record, tryFinalize sampleCrypto sampleParams false (some sampleRegistry) collector.pool
        .allPass sampleBlock 1 20 ≠ .ok record := by
  refine ⟨sampleCollector (quorumVotes ++ [sampleVote "d" 1 "B" "X" 1 .precommit 10]),
    sampleCollector_reachable _, by decide +kernel, ?_⟩
  have hstalled : tryFinalize sampleCrypto sampleParams false (some sampleRegistry)
      (sampleCollector (quorumVotes ++ [sampleVote "d" 1 "B" "X" 1 .precommit 10])).pool
      .allPass sampleBlock 1 20 = .notEnoughVotes := by decide +kernel
  intro record h
  rw [hstalled] at h
  cases h

end Nodo.Model
