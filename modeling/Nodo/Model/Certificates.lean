import Nodo.Lib.Guards
import Nodo.Model.Votes

/-!
# Nodo — quorum certificates

`consensus/QuorumCertificate.cpp`: a certificate is a list of PRECOMMIT votes
of one round with the weight it claims; `verify` recomputes that weight against
a registry and `buildFromVotes` assembles one from the votes of a pool.

## Results

* `verify_spec` — what an accepted certificate guarantees about its voters.
* `verify_quorum` — its voters are a quorum of the registry.
* `certificates_intersect` — two accepted certificates share more than a third
  of the weight.
-/

namespace Nodo.Model

structure QuorumCertificate where
  blockIndex : Nat
  blockHash : String
  previousHash : String
  round : Nat
  requiredVotingWeight : UInt64
  totalVotingWeight : UInt64
  signedVotingWeight : UInt64
  validatorSetRoot : String
  votes : List ValidatorVoteRecord
  deriving DecidableEq, Repr

/-- The `std::set` insertion loop of `hasDuplicateVoter`. -/
def hasDuplicateVoterFrom : List String → List ValidatorVoteRecord → Bool
  | _, [] => false
  | seen, vote :: rest =>
    if seen.contains vote.validatorAddress then true
    else hasDuplicateVoterFrom (vote.validatorAddress :: seen) rest

def hasDuplicateVoter (votes : List ValidatorVoteRecord) : Bool :=
  hasDuplicateVoterFrom [] votes

namespace QuorumCertificate

def isStructurallyValid (certificate : QuorumCertificate) : Bool :=
  if certificate.blockIndex == 0 || certificate.round == 0
      || certificate.requiredVotingWeight == 0 || certificate.totalVotingWeight == 0
      || certificate.signedVotingWeight == 0 then false
  else if !isSafeScalar certificate.blockHash || !isSafeScalar certificate.previousHash
      || !isSafeScalar certificate.validatorSetRoot then false
  else if certificate.totalVotingWeight < certificate.requiredVotingWeight
      || certificate.totalVotingWeight < certificate.signedVotingWeight
      || certificate.signedVotingWeight < certificate.requiredVotingWeight then false
  else if requiredWeight certificate.totalVotingWeight != some certificate.requiredVotingWeight then
    false
  else if certificate.votes.isEmpty then false
  else if hasDuplicateVoter certificate.votes then false
  else certificate.votes.all fun vote =>
    vote.matchesBlock certificate.blockIndex certificate.blockHash certificate.round
      && vote.previousHash == certificate.previousHash
      && vote.decision == .precommit

/-- The vote loop of `verify`: the recomputed signed weight, or `none` where the
source returns `false`. -/
def countSignedWeight (crypto : CryptoContext) (registry : ValidatorRegistry) :
    UInt64 → List ValidatorVoteRecord → Option UInt64
  | signedWeight, [] => some signedWeight
  | signedWeight, vote :: rest =>
    if !registry.verifyValidatorIdentity crypto vote.validatorAddress vote.validatorPublicKey then
      none
    else if !vote.verify crypto then none
    else
      let voterWeight := registry.consensusWeightFor vote.validatorAddress
      if voterWeight == 0 || uint64Max - signedWeight < voterWeight then none
      else countSignedWeight crypto registry (signedWeight + voterWeight) rest

def verify (crypto : CryptoContext) (registry : ValidatorRegistry)
    (certificate : QuorumCertificate) : Bool :=
  if !certificate.isStructurallyValid then false
  else if !registry.isValid crypto then false
  else if registry.totalConsensusWeight != some certificate.totalVotingWeight then false
  else if requiredWeight certificate.totalVotingWeight != some certificate.requiredVotingWeight then
    false
  else if registry.validatorSetRoot crypto != some certificate.validatorSetRoot then false
  else match countSignedWeight crypto registry 0 certificate.votes with
    | none => false
    | some signedWeight =>
      signedWeight == certificate.signedVotingWeight
        && certificate.requiredVotingWeight ≤ signedWeight

end QuorumCertificate

--
-- Building a certificate
--

inductive QuorumCertificateBuildStatus
  | certified
  | invalidInput
  | invalidValidatorRegistry
  | invalidVote
  | unregisteredOrInactiveVoter
  | duplicateVoter
  | conflictingVote
  | notEnoughValidVotes
  deriving DecidableEq, Repr

/-- A rejection of the builder: its status and its text. -/
structure QuorumCertificateRejection where
  status : QuorumCertificateBuildStatus
  reason : String
  deriving DecidableEq, Repr

/-- `QuorumThreshold::isCanonicalFraction`. -/
def isCanonicalFraction (numerator denominator : Nat) : Bool :=
  numerator == 2 && denominator == 3

/-- `QuorumCertificateBuilder::requiredVotingWeight`; `none` where it throws. -/
def requiredVotingWeight (totalVotingWeight : UInt64) (numerator denominator : Nat) :
    Option UInt64 :=
  if !isCanonicalFraction numerator denominator || totalVotingWeight == 0 then none
  else requiredWeight totalVotingWeight

/-- What `buildFromVotes` is asked to certify. -/
structure CertificateTarget where
  blockIndex : Nat
  blockHash : String
  previousHash : String
  round : Nat
  deriving DecidableEq, Repr

/-- The vote loop of `buildFromVotes`. The first vote it cannot use ends it. -/
def collectVotes (crypto : CryptoContext) (registry : ValidatorRegistry)
    (target : CertificateTarget) :
    List String → UInt64 → List ValidatorVoteRecord → Except QuorumCertificateRejection UInt64
  | _, signedWeight, [] => .ok signedWeight
  | seenVoters, signedWeight, vote :: rest =>
    if !vote.verify crypto then
      .error ⟨.invalidVote, "Invalid vote signature or structure."⟩
    else if !vote.matchesBlock target.blockIndex target.blockHash target.round
        || vote.previousHash != target.previousHash then
      .error ⟨.conflictingVote, "Vote targets a different block or round."⟩
    else if vote.decision != .precommit then
      .error ⟨.conflictingVote, "Only PRECOMMIT votes can build a quorum certificate."⟩
    else if !registry.verifyValidatorIdentity crypto vote.validatorAddress
        vote.validatorPublicKey then
      .error ⟨.unregisteredOrInactiveVoter, "Vote signer is not an active registered validator."⟩
    else if seenVoters.contains vote.validatorAddress then
      .error ⟨.duplicateVoter, "Duplicate validator vote rejected."⟩
    else
      let voterWeight := registry.consensusWeightFor vote.validatorAddress
      if voterWeight == 0 then
        .error ⟨.unregisteredOrInactiveVoter, "Vote signer has no consensus voting weight."⟩
      else if uint64Max - signedWeight < voterWeight then
        .error ⟨.invalidInput, "Signed voting weight overflow."⟩
      else
        collectVotes crypto registry target (vote.validatorAddress :: seenVoters)
          (signedWeight + voterWeight) rest

/-- `QuorumCertificateBuilder::buildFromVotes`. A vote that survives the loop is
in `acceptedVotes`, so the accepted votes are the candidates. -/
def buildFromVotes (crypto : CryptoContext) (registry : ValidatorRegistry)
    (target : CertificateTarget) (candidateVotes : List ValidatorVoteRecord)
    (thresholdNumerator thresholdDenominator : Nat) :
    Except QuorumCertificateRejection QuorumCertificate :=
  if target.blockIndex == 0 || target.round == 0 || !isSafeScalar target.blockHash
      || !isSafeScalar target.previousHash || candidateVotes.isEmpty then
    .error ⟨.invalidInput, "Invalid quorum certificate input."⟩
  else if !registry.isValid crypto || registry.totalConsensusWeight == some 0 then
    .error ⟨.invalidValidatorRegistry,
      "Validator registry is invalid or has no weighted consensus validators."⟩
  else
    match registry.totalConsensusWeight with
    -- a registry that passed its audit does not overflow
    | none => .error ⟨.invalidValidatorRegistry, "Validator consensus weight overflow."⟩
    | some totalVotingWeight =>
      match requiredVotingWeight totalVotingWeight thresholdNumerator thresholdDenominator with
      | none => .error ⟨.invalidInput, "Invalid quorum threshold parameters."⟩
      | some required =>
        match collectVotes crypto registry target [] 0 candidateVotes with
        | .error rejection => .error rejection
        | .ok signedWeight =>
          if signedWeight < required then
            .error ⟨.notEnoughValidVotes, "Not enough signed validator weight to certify block."⟩
          else
            let certificate : QuorumCertificate :=
              { blockIndex := target.blockIndex, blockHash := target.blockHash
                previousHash := target.previousHash, round := target.round
                requiredVotingWeight := required, totalVotingWeight := totalVotingWeight
                signedVotingWeight := signedWeight
                validatorSetRoot := (registry.validatorSetRoot crypto).getD ""
                votes := candidateVotes }
            if !certificate.verify crypto registry then
              .error ⟨.invalidVote, "Built quorum certificate failed verification."⟩
            else .ok certificate

--
-- What an accepted certificate guarantees
--

theorem hasDuplicateVoterFrom_eq_false_iff {votes : List ValidatorVoteRecord}
    {seen : List String} :
    hasDuplicateVoterFrom seen votes = false ↔
      (votes.map (·.validatorAddress)).Nodup ∧ ∀ vote ∈ votes, vote.validatorAddress ∉ seen := by
  induction votes generalizing seen with
  | nil => simp [hasDuplicateVoterFrom]
  | cons vote rest ih =>
    rw [hasDuplicateVoterFrom, List.map_cons, List.nodup_cons]
    by_cases hseen : vote.validatorAddress ∈ seen
    · simp [hseen]
    · rw [if_neg (by simpa using hseen), ih]
      constructor
      · rintro ⟨hnodup, hout⟩
        refine ⟨⟨?_, hnodup⟩, ?_⟩
        · intro hmem
          obtain ⟨other, hother, heq⟩ := List.mem_map.mp hmem
          exact hout other hother (by simp [heq])
        · intro other hother
          rcases List.mem_cons.mp hother with rfl | hrest
          · exact hseen
          · exact fun h => hout other hrest (List.mem_cons_of_mem _ h)
      · rintro ⟨⟨hnew, hnodup⟩, hout⟩
        refine ⟨hnodup, ?_⟩
        intro other hother hmem
        rcases List.mem_cons.mp hmem with heq | hold
        · exact hnew (heq ▸ List.mem_map_of_mem hother)
        · exact hout other (List.mem_cons_of_mem _ hother) hold

namespace QuorumCertificate

/-- The addresses that voted in a certificate. -/
def voters (certificate : QuorumCertificate) : List String :=
  certificate.votes.map (·.validatorAddress)

/-- A vote that may count towards a certificate for `certificate`'s block. -/
structure CountedVote (crypto : CryptoContext) (registry : ValidatorRegistry)
    (certificate : QuorumCertificate) (vote : ValidatorVoteRecord) : Prop where
  matchesBlock :
    vote.matchesBlock certificate.blockIndex certificate.blockHash certificate.round = true
  previousHash : vote.previousHash = certificate.previousHash
  precommit : vote.decision = .precommit
  identity : registry.verifyValidatorIdentity crypto vote.validatorAddress
    vote.validatorPublicKey = true
  verified : vote.verify crypto = true
  weighted : registry.consensusWeightFor vote.validatorAddress ≠ 0

/-- What `verify` establishes. -/
structure Verified (crypto : CryptoContext) (registry : ValidatorRegistry)
    (certificate : QuorumCertificate) : Prop where
  total : registry.totalConsensusWeight = some certificate.totalVotingWeight
  required : requiredWeight certificate.totalVotingWeight = some certificate.requiredVotingWeight
  nodup : certificate.voters.Nodup
  counted : ∀ vote ∈ certificate.votes, CountedVote crypto registry certificate vote
  signed : certificate.signedVotingWeight.toNat
    = (certificate.voters.map registry.weightOf).sum
  enough : certificate.requiredVotingWeight ≤ certificate.signedVotingWeight

/-- The vote loop returns the unwrapped sum and has checked every vote. -/
theorem countSignedWeight_spec {crypto : CryptoContext} {registry : ValidatorRegistry}
    {votes : List ValidatorVoteRecord} {start result : UInt64}
    (h : countSignedWeight crypto registry start votes = some result) :
    result.toNat = start.toNat + (votes.map (fun v => registry.weightOf v.validatorAddress)).sum ∧
      ∀ vote ∈ votes,
        registry.verifyValidatorIdentity crypto vote.validatorAddress
            vote.validatorPublicKey = true ∧
          vote.verify crypto = true ∧
          registry.consensusWeightFor vote.validatorAddress ≠ 0 := by
  induction votes generalizing start with
  | nil =>
    simp only [countSignedWeight, Option.some.injEq] at h
    simp [h]
  | cons vote rest ih =>
    obtain ⟨hident, h⟩ := Guards.some_of_ite_none h
    obtain ⟨hverify, h⟩ := Guards.some_of_ite_none h
    obtain ⟨hguard, h⟩ := Guards.some_of_ite_none h
    simp only [Bool.or_eq_true, beq_iff_eq, decide_eq_true_eq, not_or] at hguard
    obtain ⟨hsum, hrest⟩ := ih h
    constructor
    · rw [hsum, toNat_add_of_guard hguard.2]
      simp [ValidatorRegistry.weightOf, Nat.add_assoc]
    · intro other hother
      rcases List.mem_cons.mp hother with rfl | hmem
      · exact ⟨by simpa using hident, by simpa using hverify, hguard.1⟩
      · exact hrest other hmem

theorem isStructurallyValid_target {certificate : QuorumCertificate}
    (h : certificate.isStructurallyValid = true) :
    certificate.blockIndex ≠ 0 ∧ certificate.round ≠ 0 ∧
      isSafeScalar certificate.blockHash = true ∧ isSafeScalar certificate.previousHash = true := by
  obtain ⟨hnonzero, h⟩ := Guards.true_of_ite_false h
  obtain ⟨hsafe, -⟩ := Guards.true_of_ite_false h
  simp only [Bool.or_eq_true, beq_iff_eq, not_or, Bool.not_eq_true', Bool.not_eq_false]
    at hnonzero hsafe
  exact ⟨hnonzero.1.1.1.1, hnonzero.1.1.1.2, hsafe.1.1, hsafe.1.2⟩

theorem isStructurallyValid_spec {certificate : QuorumCertificate}
    (h : certificate.isStructurallyValid = true) :
    certificate.voters.Nodup ∧
      ∀ vote ∈ certificate.votes,
        vote.matchesBlock certificate.blockIndex certificate.blockHash certificate.round = true ∧
          vote.previousHash = certificate.previousHash ∧ vote.decision = .precommit := by
  obtain ⟨-, h⟩ := Guards.true_of_ite_false h
  obtain ⟨-, h⟩ := Guards.true_of_ite_false h
  obtain ⟨-, h⟩ := Guards.true_of_ite_false h
  obtain ⟨-, h⟩ := Guards.true_of_ite_false h
  obtain ⟨-, h⟩ := Guards.true_of_ite_false h
  obtain ⟨hdup, h⟩ := Guards.true_of_ite_false h
  refine ⟨(hasDuplicateVoterFrom_eq_false_iff.mp (Bool.eq_false_iff.mpr hdup)).1, ?_⟩
  intro vote hvote
  have hshape := List.all_eq_true.mp h vote hvote
  simp only [Bool.and_eq_true, beq_iff_eq] at hshape
  exact ⟨hshape.1.1, hshape.1.2, hshape.2⟩

theorem isStructurallyValid_of_verify {crypto : CryptoContext} {registry : ValidatorRegistry}
    {certificate : QuorumCertificate} (h : certificate.verify crypto registry = true) :
    certificate.isStructurallyValid = true := by
  have hstruct := (Guards.true_of_ite_false h).1
  simpa using hstruct

/-- **Spec of `verify`.** -/
theorem verify_spec {crypto : CryptoContext} {registry : ValidatorRegistry}
    {certificate : QuorumCertificate} (h : certificate.verify crypto registry = true) :
    Verified crypto registry certificate := by
  have hstruct := isStructurallyValid_of_verify h
  obtain ⟨-, h⟩ := Guards.true_of_ite_false h
  obtain ⟨-, h⟩ := Guards.true_of_ite_false h
  obtain ⟨htotal, h⟩ := Guards.true_of_ite_false h
  obtain ⟨hrequired, h⟩ := Guards.true_of_ite_false h
  obtain ⟨-, h⟩ := Guards.true_of_ite_false h
  split at h
  · cases h
  · rename_i signedWeight hcount
    simp only [Bool.and_eq_true, beq_iff_eq, decide_eq_true_eq] at h
    obtain ⟨rfl, henough⟩ := h
    obtain ⟨hsum, hvotes⟩ := countSignedWeight_spec hcount
    obtain ⟨hnodup, hshape⟩ := isStructurallyValid_spec hstruct
    refine ⟨by simpa using htotal, by simpa using hrequired, hnodup, ?_, ?_, henough⟩
    · intro vote hvote
      obtain ⟨hmatch, hprev, hdecision⟩ := hshape vote hvote
      obtain ⟨hident, hver, hweight⟩ := hvotes vote hvote
      exact ⟨hmatch, hprev, hdecision, hident, hver, hweight⟩
    · simpa [voters, Function.comp_def] using hsum

/-- The voters of an accepted certificate form a quorum of the registry. -/
theorem Verified.quorum {crypto : CryptoContext} {registry : ValidatorRegistry}
    {certificate : QuorumCertificate} (h : Verified crypto registry certificate) :
    Quorum.IsQuorum registry.weightOf registry.members certificate.voters.toFinset := by
  have hsub : certificate.voters.toFinset ⊆ registry.members := by
    intro address haddr
    obtain ⟨vote, hvote, rfl⟩ := List.mem_map.mp (List.mem_toFinset.mp haddr)
    exact ValidatorRegistry.mem_members_of_weight_ne_zero (h.counted vote hvote).weighted
  have hweight : Quorum.weight registry.weightOf certificate.voters.toFinset
      = certificate.signedVotingWeight.toNat := by
    rw [Quorum.weight, List.sum_toFinset _ h.nodup, h.signed]
  rw [Quorum.isQuorum_iff_floor_lt hsub, hweight,
    ← ValidatorRegistry.totalConsensusWeight_toNat h.total,
    ← requiredWeight_toNat h.required, ← UInt64.le_iff_toNat_le]
  exact h.enough

end QuorumCertificate

/-- **Quorum intersection.** Any two certificates accepted against one registry
of total weight `W` carry the exact, unwrapped weight of their distinct voters,
at least `⌊2W/3⌋ + 1` each, and their common voters weigh more than `W / 3`. -/
theorem certificates_intersect {crypto : CryptoContext} {registry : ValidatorRegistry}
    {c₁ c₂ : QuorumCertificate}
    (h₁ : c₁.verify crypto registry = true) (h₂ : c₂.verify crypto registry = true) :
    ∃ total : UInt64, registry.totalConsensusWeight = some total ∧
      total.toNat
        < 3 * ∑ a ∈ c₁.voters.toFinset ∩ c₂.voters.toFinset, registry.weightOf a ∧
      ∀ c ∈ [c₁, c₂], c.voters.Nodup ∧
        c.signedVotingWeight.toNat = (c.voters.map registry.weightOf).sum ∧
        2 * total.toNat / 3 + 1 ≤ c.signedVotingWeight.toNat := by
  have hv₁ := QuorumCertificate.verify_spec h₁
  have hv₂ := QuorumCertificate.verify_spec h₂
  refine ⟨c₁.totalVotingWeight, hv₁.total, ?_, ?_⟩
  · rw [ValidatorRegistry.totalConsensusWeight_toNat hv₁.total]
    exact Quorum.weight_lt_three_mul_inter hv₁.quorum hv₂.quorum
  · have hone : ∀ c, QuorumCertificate.Verified crypto registry c →
        c.voters.Nodup ∧
          c.signedVotingWeight.toNat = (c.voters.map registry.weightOf).sum ∧
          2 * c₁.totalVotingWeight.toNat / 3 + 1 ≤ c.signedVotingWeight.toNat := by
      intro c hc
      have heq : c.totalVotingWeight = c₁.totalVotingWeight :=
        Option.some.inj (hc.total.symm.trans hv₁.total)
      refine ⟨hc.nodup, hc.signed, ?_⟩
      rw [← heq, ← requiredWeight_toNat hc.required, ← UInt64.le_iff_toNat_le]
      exact hc.enough
    intro c hc
    rcases List.mem_pair.mp hc with rfl | rfl
    · exact hone _ hv₁
    · exact hone _ hv₂

--
-- A concrete validator set
--

/-- A transparent context: addresses are key material, a signature is good when
it was made with the voter's key at the voting time, identifiers are short
readable texts. -/
def sampleCrypto : CryptoContext where
  developmentMode := true
  publicKeyIsValid key := !key.keyMaterial.isEmpty
  fingerprint key := key.keyMaterial
  addressIsValid address := !address.isEmpty
  deriveFromPublicKey key := key.keyMaterial
  providerAlgorithm := .bls12381
  providerVerify message signature :=
    signature.publicKey == message.validatorPublicKey && signature.createdAt == message.createdAt
  voteRecordId vote :=
    let phase := match vote.decision with
      | .unknown => "u"
      | .reject => "r"
      | .prevote => "v"
      | .precommit => "c"
    vote.validatorAddress ++ "/" ++ vote.blockHash ++ "/" ++ vote.previousHash ++ "/"
      ++ toString vote.blockIndex ++ "/" ++ toString vote.round ++ "/" ++ phase ++ "/"
      ++ toString vote.createdAt
  doubleVotePayloadHash first second :=
    "p/" ++ first.validatorAddress ++ "/" ++ first.blockHash ++ "/" ++ second.blockHash
  doubleVoteEvidenceId payloadHash := "id/" ++ payloadHash
  registryDigest entries := String.intercalate "," (entries.map (·.1))

def sampleKey (name : String) : PublicKey := ⟨.bls12381, name⟩

/-- An active validator `name` with the given stake. -/
def sampleEntry (name : String) (stake : UInt64) : String × ValidatorRegistryEntry :=
  (name, ⟨⟨name, sampleKey name, 1, "meta", 1⟩, .active, 1, stake, 0, 0, name⟩)

/-- Four validators of equal weight; three of them are a quorum. -/
def sampleRegistry : ValidatorRegistry where
  entries :=
    ⟨[sampleEntry "a" 1000000, sampleEntry "b" 1000000, sampleEntry "c" 1000000,
      sampleEntry "d" 1000000], by decide⟩

/-- A vote signed by `name`. -/
def sampleVote (name : String) (blockIndex : Nat) (blockHash previousHash : String)
    (round : Nat) (decision : ValidatorVoteDecision) (createdAt : Int) : ValidatorVoteRecord :=
  ⟨⟨name, sampleKey name, blockIndex, blockHash, previousHash, round, decision, "reason",
      createdAt⟩,
    [⟨.nodoCryptoSuiteV1, .validatorVote, .bls12381, sampleKey name, "00", createdAt⟩]⟩

/-- The certificate of three of the four validators for block `B`. -/
def sampleCertificate (names : List String) : QuorumCertificate :=
  ⟨1, "B", "G", 1, 2666667, 4000000, 3000000, "a,b,c,d",
    names.map fun name => sampleVote name 1 "B" "G" 1 .precommit 10⟩

/-- Two different certificates of the four validators, sharing `b` and `c`. -/
theorem certificates_intersect_sample :
    ∃ total : UInt64, sampleRegistry.totalConsensusWeight = some total ∧
      total.toNat
        < 3 * ∑ a ∈ (sampleCertificate ["a", "b", "c"]).voters.toFinset
            ∩ (sampleCertificate ["b", "c", "d"]).voters.toFinset, sampleRegistry.weightOf a ∧
      ∀ c ∈ [sampleCertificate ["a", "b", "c"], sampleCertificate ["b", "c", "d"]],
        c.voters.Nodup ∧
        c.signedVotingWeight.toNat = (c.voters.map sampleRegistry.weightOf).sum ∧
        2 * total.toNat / 3 + 1 ≤ c.signedVotingWeight.toNat := by
  have h₁ : (sampleCertificate ["a", "b", "c"]).verify sampleCrypto sampleRegistry = true := by
    decide +kernel
  have h₂ : (sampleCertificate ["b", "c", "d"]).verify sampleCrypto sampleRegistry = true := by
    decide +kernel
  exact certificates_intersect h₁ h₂

end Nodo.Model
