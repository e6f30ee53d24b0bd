import Nodo.Model.Votes

/-!
# Nodo — double-vote evidence

`consensus/SlashingEvidence.cpp` and the evidence loop of
`node/CanonicalSlashingTransition.cpp`: two votes of one validator in one round,
put in a canonical order, the checks under which they count as an offense, and
the block transition that punishes for it.

## Results

* `verifyDoubleVoteEvidenceForHistory_conflict` — only a conflict pair is
  accepted.
* `applyEvidenceRecords_verified` — a block with evidence that the verifier
  rejects has no successor state.
-/

namespace Nodo.Model

/-- `sameValidatorHeightRound`. -/
def sameValidatorHeightRound (left right : ValidatorVoteRecord) : Bool :=
  !left.validatorAddress.isEmpty && left.validatorAddress == right.validatorAddress
    && left.blockIndex == right.blockIndex && left.round == right.round

/-- `sameVoteTarget`: block, predecessor, decision and reason. -/
def sameVoteTarget (left right : ValidatorVoteRecord) : Bool :=
  left.blockHash == right.blockHash && left.previousHash == right.previousHash
    && left.decision == right.decision && left.reasonHash == right.reasonHash

structure DoubleVoteEvidence where
  firstVote : ValidatorVoteRecord
  secondVote : ValidatorVoteRecord
  detectedAt : Int
  deriving DecidableEq, Repr

namespace DoubleVoteEvidence

/-- The constructor orders the votes by their ids. -/
def ofVotes (crypto : CryptoContext) (firstVote secondVote : ValidatorVoteRecord)
    (detectedAt : Int) : DoubleVoteEvidence :=
  if secondVote.deterministicId crypto < firstVote.deterministicId crypto then
    ⟨secondVote, firstVote, detectedAt⟩
  else ⟨firstVote, secondVote, detectedAt⟩

def isConflictPair (evidence : DoubleVoteEvidence) : Bool :=
  0 < evidence.detectedAt
    && sameValidatorHeightRound evidence.firstVote evidence.secondVote
    && !sameVoteTarget evidence.firstVote evidence.secondVote

def validatorAddress (evidence : DoubleVoteEvidence) : String :=
  if evidence.isConflictPair then evidence.firstVote.validatorAddress else ""

def payloadHash (crypto : CryptoContext) (evidence : DoubleVoteEvidence) : String :=
  crypto.doubleVotePayloadHash evidence.firstVote evidence.secondVote

def evidenceId (crypto : CryptoContext) (evidence : DoubleVoteEvidence) : String :=
  if evidence.isConflictPair then crypto.doubleVoteEvidenceId (evidence.payloadHash crypto) else ""

end DoubleVoteEvidence

--
-- Evidence records
--

/-- `isSafeScalar(value, maxSize)` of the evidence file: `;` is not forbidden. -/
def isSafeEvidenceScalar (value : String) (maxSize : Nat) : Bool :=
  !value.isEmpty && value.utf8ByteSize ≤ maxSize &&
    !value.toList.any (fun c => ['{', '}', '[', ']', '\n', '\r', '\t'].contains c)

inductive SlashingEvidenceType
  | unknown
  | doubleVote
  | invalidSignature
  | equivocation
  deriving DecidableEq, Repr

inductive SlashingEvidenceSeverity
  | unknown
  | warning
  | slashable
  deriving DecidableEq, Repr

structure SlashingEvidenceRecord where
  evidenceId : String
  type : SlashingEvidenceType
  validatorAddress : String
  payloadHash : String
  severity : SlashingEvidenceSeverity
  createdAt : Int
  deriving DecidableEq, Repr

/-- The default-constructed record. -/
def SlashingEvidenceRecord.empty : SlashingEvidenceRecord := ⟨"", .unknown, "", "", .unknown, 0⟩

def SlashingEvidenceRecord.isValid (record : SlashingEvidenceRecord) : Bool :=
  isSafeEvidenceScalar record.evidenceId 160 && record.type != .unknown
    && isSafeEvidenceScalar record.validatorAddress 200
    && isSafeEvidenceScalar record.payloadHash 160
    && record.severity != .unknown && 0 < record.createdAt

def DoubleVoteEvidence.toRecord (crypto : CryptoContext) (evidence : DoubleVoteEvidence) :
    SlashingEvidenceRecord :=
  ⟨evidence.evidenceId crypto, .doubleVote, evidence.validatorAddress,
    evidence.payloadHash crypto, .slashable, evidence.detectedAt⟩

--
-- Verification
--

inductive SlashingEvidenceValidationStatus
  | rejected
  | accepted
  | duplicate
  deriving DecidableEq, Repr

structure SlashingEvidenceValidationResult where
  status : SlashingEvidenceValidationStatus
  reason : String
  record : SlashingEvidenceRecord
  deriving DecidableEq, Repr

def SlashingEvidenceValidationResult.accepted (result : SlashingEvidenceValidationResult) : Bool :=
  result.status == .accepted

/-- `SlashingEvidenceVerifier::validateDoubleVoteStructure`. -/
def validateDoubleVoteStructure (crypto : CryptoContext) (evidence : DoubleVoteEvidence) :
    SlashingEvidenceValidationResult :=
  if !evidence.isConflictPair then
    ⟨.rejected, "Votes do not form a same-validator same-height same-round conflict.", .empty⟩
  else if !(evidence.toRecord crypto).isValid then
    ⟨.rejected, "Double-vote evidence record is invalid.", evidence.toRecord crypto⟩
  else ⟨.accepted, "Double-vote evidence structure is valid.", evidence.toRecord crypto⟩

/-- `SlashingEvidenceVerifier::bothVotesVerify`. -/
def bothVotesVerify (crypto : CryptoContext) (evidence : DoubleVoteEvidence) : Bool :=
  evidence.firstVote.verify crypto && evidence.secondVote.verify crypto

/-- `SlashingEvidenceVerifier::verifyDoubleVoteEvidence`. -/
def verifyDoubleVoteEvidence (crypto : CryptoContext) (evidence : DoubleVoteEvidence) :
    SlashingEvidenceValidationResult :=
  let structural := validateDoubleVoteStructure crypto evidence
  if !structural.accepted then structural
  else if !bothVotesVerify crypto evidence then
    ⟨.rejected, "Double-vote evidence contains at least one vote with an invalid signature.",
      structural.record⟩
  else ⟨.accepted, "Double-vote evidence is structurally valid and both signatures verify.",
    structural.record⟩

/-- `SlashingEvidenceVerifier::verifyDoubleVoteEvidenceForHistory`;
`validatorSets` is the `ValidatorSetHistory`. -/
def verifyDoubleVoteEvidenceForHistory (crypto : CryptoContext) (evidence : DoubleVoteEvidence)
    (maximumOffenseHeight : Nat) (validatorSets : Nat → Option ValidatorRegistry) :
    SlashingEvidenceValidationResult :=
  let structural := validateDoubleVoteStructure crypto evidence
  if !structural.accepted then structural
  else
    let offenseHeight := evidence.firstVote.blockIndex
    if offenseHeight == 0 || maximumOffenseHeight < offenseHeight then
      ⟨.rejected, "Double-vote evidence refers to an unavailable consensus height.",
        structural.record⟩
    else match validatorSets offenseHeight with
      | none =>
        ⟨.rejected, "Historical validator set is unavailable for the evidence.", structural.record⟩
      | some historicalValidators =>
        if !historicalValidators.verifyValidatorIdentity crypto evidence.validatorAddress
              evidence.firstVote.validatorPublicKey
            || !historicalValidators.verifyValidatorIdentity crypto evidence.validatorAddress
              evidence.secondVote.validatorPublicKey then
          ⟨.rejected, "Evidence signer was not active at the offense height.", structural.record⟩
        else verifyDoubleVoteEvidence crypto evidence

--
-- The block transition
--

/-- `ProposerEquivocationEvidence`. -/
structure ProposerEquivocationEvidence where
  firstProposal : String
  secondProposal : String
  proposerAddress : String
  blockIndex : Nat
  round : Nat
  firstBlockHash : String
  secondBlockHash : String
  detectedAt : Int
  deriving DecidableEq, Repr

inductive EvidenceVariant
  | doubleVote (evidence : DoubleVoteEvidence)
  | proposerEquivocation (evidence : ProposerEquivocationEvidence)
  deriving DecidableEq, Repr

/-- A `SLASHING_EVIDENCE` ledger record with its parsed payload, or the reason the
domain validator gives for a payload that does not parse. -/
structure EvidenceLedgerRecord where
  isSlashingEvidence : Bool
  timestamp : Int
  sourceId : String
  evidence : Except String EvidenceVariant

/-- The parts of the transition that double votes do not depend on: proposer
evidence, and the ledgers that a penalty writes. -/
structure SlashingRules (σ : Type) where
  /-- `ProposerEquivocationEvidence::toRecord`. -/
  equivocationRecord : ProposerEquivocationEvidence → SlashingEvidenceRecord
  /-- `validateProposerEquivocationStructure`. -/
  validateEquivocation : ProposerEquivocationEvidence → SlashingEvidenceValidationResult
  /-- `verifyProposerEquivocationForHistory`. -/
  verifyEquivocation : ProposerEquivocationEvidence → Nat → SlashingEvidenceValidationResult
  /-- `penaltyLedger.containsEvidence`. -/
  containsEvidence : σ → String → Bool
  /-- `penaltyLedger.applyEvidence` and `applyPenaltyEffects` for the stake bonded at
  the offense height. -/
  penalize : SlashingEvidenceRecord → UInt64 → σ → Except String σ

/-- `NODO_VALIDATOR_EPOCH_BLOCKS`. -/
def nodoValidatorEpochBlocks : Nat := 43200

namespace ValidatorLifecycle

def epochIndexForBlock (blockHeight : UInt64) : Except String UInt64 :=
  if blockHeight == 0 then .error "Cannot calculate validator epoch for genesis height."
  else .ok ((blockHeight - 1) / nodoValidatorEpochBlocks.toUInt64 + 1)

def epochStartBlock (epochIndex : UInt64) : Except String UInt64 :=
  if epochIndex == 0 then .error "Validator epoch index must be positive."
  else .ok ((epochIndex - 1) * nodoValidatorEpochBlocks.toUInt64 + 1)

end ValidatorLifecycle

/-- `AccountabilityWindow::kEvidenceMaxAgeBlocks`. -/
def kEvidenceMaxAgeBlocks : Nat := 21 * nodoValidatorEpochBlocks

/-- `AccountabilityWindow::evidenceHeightIsAdmissible`. -/
def evidenceHeightIsAdmissible (offenseHeight inclusionHeight : Nat) : Bool :=
  offenseHeight != 0 && offenseHeight < inclusionHeight
    && inclusionHeight - offenseHeight ≤ kEvidenceMaxAgeBlocks

/-- `ProtocolLimits::MAX_SLASHING_EVIDENCE_PER_BLOCK`. -/
def maxSlashingEvidencePerBlock : Nat := 32

section Transition

variable {σ : Type} (rules : SlashingRules σ) (crypto : CryptoContext)
  (validatorSets : Nat → Option ValidatorRegistry) (blockHeight : Nat) (blockTimestamp : Int)

def recordOf : EvidenceVariant → SlashingEvidenceRecord
  | .doubleVote evidence => evidence.toRecord crypto
  | .proposerEquivocation evidence => rules.equivocationRecord evidence

def offenseHeightOf : EvidenceVariant → Nat
  | .doubleVote evidence => evidence.firstVote.blockIndex
  | .proposerEquivocation evidence => evidence.blockIndex

def detectedAtOf : EvidenceVariant → Int
  | .doubleVote evidence => evidence.detectedAt
  | .proposerEquivocation evidence => evidence.detectedAt

/-- `LedgerRecordDomainValidator::validateSlashingEvidence` on a parsed payload:
the reason of a failure, if any. -/
def validateSlashingEvidence (sourceId : String) : EvidenceVariant → Option String
  | .doubleVote evidence =>
    if !(validateDoubleVoteStructure crypto evidence).accepted
        || sourceId != evidence.evidenceId crypto then
      some "SLASHING_EVIDENCE record does not contain canonical double-vote evidence."
    else none
  | .proposerEquivocation evidence =>
    if !(rules.validateEquivocation evidence).accepted
        || sourceId != (rules.equivocationRecord evidence).evidenceId then
      some "SLASHING_EVIDENCE record does not contain canonical proposer-equivocation evidence."
    else none

/-- `verifyEvidenceForHistory` for the blocks before `blockHeight`. -/
def verifyEvidenceForHistory : EvidenceVariant → SlashingEvidenceValidationResult
  | .doubleVote evidence =>
    verifyDoubleVoteEvidenceForHistory crypto evidence (blockHeight - 1) validatorSets
  | .proposerEquivocation evidence => rules.verifyEquivocation evidence (blockHeight - 1)

/-- One turn of the loop: the ids seen so far and the ledgers. -/
def applyEvidenceRecord (seen : List String) (state : σ) (ledgerRecord : EvidenceLedgerRecord) :
    Except String (List String × σ) :=
  if !ledgerRecord.isSlashingEvidence || ledgerRecord.timestamp != blockTimestamp then
    .error "Canonical slashing input contains an invalid ledger record."
  else match ledgerRecord.evidence with
    | .error reason => .error reason
    | .ok evidence =>
      let record := recordOf rules crypto evidence
      let verified := verifyEvidenceForHistory rules crypto validatorSets blockHeight evidence
      match validateSlashingEvidence rules crypto ledgerRecord.sourceId evidence with
      | some reason => .error reason
      | none =>
        if ledgerRecord.sourceId != record.evidenceId || seen.contains record.evidenceId
            || rules.containsEvidence state record.evidenceId then
          .error "Slashing evidence is duplicated or already finalized."
        else if !evidenceHeightIsAdmissible (offenseHeightOf evidence) blockHeight
            || blockTimestamp < detectedAtOf evidence then
          .error "Slashing evidence is outside the admissible height window."
        else if !verified.accepted then
          .error ("Slashing evidence verification failed: " ++ verified.reason)
        else match (validatorSets (offenseHeightOf evidence)).bind
            (fun set => set.entries.find? record.validatorAddress) with
          | none => .error "Offender is absent from historical validator set."
          | some offender =>
            match rules.penalize record offender.stakeAmount state with
            | .error reason => .error reason
            | .ok state => .ok (record.evidenceId :: seen, state)

/-- The loop of `applyEvidenceRecords`. -/
def applyEvidenceLoop : List String → σ → List EvidenceLedgerRecord → Except String σ
  | _, state, [] => .ok state
  | seen, state, ledgerRecord :: rest =>
    match applyEvidenceRecord rules crypto validatorSets blockHeight blockTimestamp seen state
        ledgerRecord with
    | .error reason => .error reason
    | .ok (seen, state) => applyEvidenceLoop seen state rest

/-- `CanonicalSlashingTransition::applyEvidenceRecords`. -/
def applyEvidenceRecords (chainId : String) (records : List EvidenceLedgerRecord) (state : σ) :
    Except String σ :=
  if blockHeight == 0 || blockTimestamp ≤ 0 || chainId.isEmpty then
    .error "Canonical slashing transition requires block height, timestamp and chain id."
  else if maxSlashingEvidencePerBlock < records.length then
    .error "Block exceeds the canonical slashing evidence limit."
  else applyEvidenceLoop rules crypto validatorSets blockHeight blockTimestamp [] state records

end Transition

--
-- What is accepted
--

/-- Only a conflict pair is accepted. -/
theorem verifyDoubleVoteEvidenceForHistory_conflict {crypto : CryptoContext}
    {evidence : DoubleVoteEvidence} {maximumOffenseHeight : Nat}
    {validatorSets : Nat → Option ValidatorRegistry}
    (h : (verifyDoubleVoteEvidenceForHistory crypto evidence maximumOffenseHeight
      validatorSets).accepted = true) : evidence.isConflictPair = true := by
  by_contra hpair
  have hstructural : validateDoubleVoteStructure crypto evidence
      = ⟨.rejected, "Votes do not form a same-validator same-height same-round conflict.",
        .empty⟩ := by
    unfold validateDoubleVoteStructure
    rw [if_pos (by simp [hpair])]
  unfold verifyDoubleVoteEvidenceForHistory at h
  rw [hstructural] at h
  cases h

/-- A conflict pair, whichever way round it was built: one validator, one height,
one round, two targets. -/
theorem DoubleVoteEvidence.ofVotes_conflict {crypto : CryptoContext}
    {a b : ValidatorVoteRecord} {detectedAt : Int}
    (h : (DoubleVoteEvidence.ofVotes crypto a b detectedAt).isConflictPair = true) :
    a.blockIndex = b.blockIndex ∧ a.round = b.round ∧ sameVoteTarget a b = false := by
  have hsymm : sameVoteTarget b a = sameVoteTarget a b := by
    simp only [sameVoteTarget, Bool.beq_comm]
  unfold ofVotes at h
  split_ifs at h with hswap
  · simp only [isConflictPair, sameValidatorHeightRound, Bool.and_eq_true, beq_iff_eq,
      Bool.not_eq_true'] at h
    exact ⟨h.1.2.1.2.symm, h.1.2.2.symm, hsymm ▸ h.2⟩
  · simp only [isConflictPair, sameValidatorHeightRound, Bool.and_eq_true, beq_iff_eq,
      Bool.not_eq_true'] at h
    exact ⟨h.1.2.1.2, h.1.2.2, h.2⟩

section Transition

variable {σ : Type} {rules : SlashingRules σ} {crypto : CryptoContext}
  {validatorSets : Nat → Option ValidatorRegistry} {blockHeight : Nat} {blockTimestamp : Int}

/-- A turn that succeeds has verified its evidence. -/
theorem applyEvidenceRecord_verified {seen : List String} {state : σ}
    {ledgerRecord : EvidenceLedgerRecord} {result : List String × σ}
    (h : applyEvidenceRecord rules crypto validatorSets blockHeight blockTimestamp seen state
      ledgerRecord = .ok result) :
    ∃ evidence, ledgerRecord.evidence = .ok evidence ∧
      (verifyEvidenceForHistory rules crypto validatorSets blockHeight evidence).accepted
        = true := by
  unfold applyEvidenceRecord at h
  split_ifs at h
  cases hparsed : ledgerRecord.evidence with
  | error reason =>
    rw [hparsed] at h
    cases h
  | ok evidence =>
    rw [hparsed] at h
    dsimp only at h
    cases hdomain : validateSlashingEvidence rules crypto ledgerRecord.sourceId evidence with
    | some reason =>
      rw [hdomain] at h
      cases h
    | none =>
      rw [hdomain] at h
      dsimp only at h
      split_ifs at h with _ _ hverified
      exact ⟨evidence, rfl, by simpa using hverified⟩

theorem applyEvidenceLoop_verified {seen : List String} {state state' : σ}
    {records : List EvidenceLedgerRecord}
    (h : applyEvidenceLoop rules crypto validatorSets blockHeight blockTimestamp seen state records
      = .ok state') :
    ∀ record ∈ records, ∀ evidence, record.evidence = .ok evidence →
      (verifyEvidenceForHistory rules crypto validatorSets blockHeight evidence).accepted
        = true := by
  induction records generalizing seen state with
  | nil => simp
  | cons head rest ih =>
    rw [applyEvidenceLoop] at h
    cases hturn : applyEvidenceRecord rules crypto validatorSets blockHeight blockTimestamp seen
        state head with
    | error reason =>
      rw [hturn] at h
      cases h
    | ok result =>
      rw [hturn] at h
      obtain ⟨parsed, hparsed, hverified⟩ := applyEvidenceRecord_verified hturn
      intro record hrecord evidence hevidence
      rcases List.mem_cons.mp hrecord with rfl | hrest
      · rw [hparsed] at hevidence
        cases hevidence
        exact hverified
      · exact ih h record hrest evidence hevidence

/-- **A penalty needs a verified offense.** -/
theorem applyEvidenceRecords_verified {chainId : String} {state state' : σ}
    {records : List EvidenceLedgerRecord}
    (h : applyEvidenceRecords rules crypto validatorSets blockHeight blockTimestamp chainId records
      state = .ok state') :
    ∀ record ∈ records, ∀ evidence, record.evidence = .ok evidence →
      (verifyEvidenceForHistory rules crypto validatorSets blockHeight evidence).accepted
        = true := by
  unfold applyEvidenceRecords at h
  split_ifs at h
  exact applyEvidenceLoop_verified h

end Transition

end Nodo.Model
