import Nodo.Lib.MapLoop
import Nodo.Model.Evidence
import Nodo.Model.GovernancePayload

/-!
# Nodo — governance

`node/GovernanceExecutor.cpp` and `economics/TreasurySpendValidator.cpp`. Proposals collect votes
until their voting period ends; a pass over all proposals at a height decides them, executes what
can be executed and queues the rest. A treasury spend is executed by an explicit call after its
timelock, which checks it once more against the policy.

The pass writes to the proposals one after another and may throw between two of them; the
execution of a spend may throw between its two account writes.
-/

namespace Nodo.Model

open ThrowingState

--
-- Parameters, statuses, tallies
--

inductive GovernanceParameterTarget
  | epochDurationSeconds
  | minimumValidatorCount
  | quorumThresholdNumerator
  | quorumThresholdDenominator
  | maxTransactionsPerBlock
  | minimumFeeRaw
  | treasuryAllocationBasisPoints
  | validatorRewardBasisPoints
  | unknown
  deriving DecidableEq

def governanceParameterTargetToString : GovernanceParameterTarget → String
  | .epochDurationSeconds => "EPOCH_DURATION_SECONDS"
  | .minimumValidatorCount => "MINIMUM_VALIDATOR_COUNT"
  | .quorumThresholdNumerator => "QUORUM_THRESHOLD_NUMERATOR"
  | .quorumThresholdDenominator => "QUORUM_THRESHOLD_DENOMINATOR"
  | .maxTransactionsPerBlock => "MAX_TRANSACTIONS_PER_BLOCK"
  | .minimumFeeRaw => "MINIMUM_FEE_RAW"
  | .treasuryAllocationBasisPoints => "TREASURY_ALLOCATION_BASIS_POINTS"
  | .validatorRewardBasisPoints => "VALIDATOR_REWARD_BASIS_POINTS"
  | .unknown => "UNKNOWN"

def governanceParameterTargetFromString (s : String) : GovernanceParameterTarget :=
  if s == "EPOCH_DURATION_SECONDS" then .epochDurationSeconds
  else if s == "MINIMUM_VALIDATOR_COUNT" then .minimumValidatorCount
  else if s == "QUORUM_THRESHOLD_NUMERATOR" then .quorumThresholdNumerator
  else if s == "QUORUM_THRESHOLD_DENOMINATOR" then .quorumThresholdDenominator
  else if s == "MAX_TRANSACTIONS_PER_BLOCK" then .maxTransactionsPerBlock
  else if s == "MINIMUM_FEE_RAW" then .minimumFeeRaw
  else if s == "TREASURY_ALLOCATION_BASIS_POINTS" then .treasuryAllocationBasisPoints
  else if s == "VALIDATOR_REWARD_BASIS_POINTS" then .validatorRewardBasisPoints
  else .unknown

inductive GovernanceProposalStatus
  | pending
  | active
  | approved
  | rejected
  | expired
  | queuedForExecution
  | executed
  | failedExecution
  deriving DecidableEq

inductive GovernanceVoteChoice
  | yes
  | no
  | abstain
  deriving DecidableEq

structure GovernanceTallySnapshot where
  proposalId : String
  yesWeight : UInt64
  noWeight : UInt64
  abstainWeight : UInt64
  participatingWeight : UInt64
  totalEligibleWeight : UInt64
  quorumMet : Bool
  approvalThresholdMet : Bool
  deriving DecidableEq

/-- The default constructor. -/
def GovernanceTallySnapshot.none : GovernanceTallySnapshot := ⟨"", 0, 0, 0, 0, 0, false, false⟩

structure GovernanceParameterChange where
  proposalId : String
  target : GovernanceParameterTarget
  previousValue : String
  newValue : String
  effectiveAtHeight : UInt64
  appliedAt : Int
  deriving DecidableEq

namespace GovernanceParameterChange

def pending (proposalId : String) (target : GovernanceParameterTarget) (newValue : String)
    (effectiveAtHeight : UInt64) : GovernanceParameterChange :=
  ⟨proposalId, target, "", newValue, effectiveAtHeight, 0⟩

def serialize (change : GovernanceParameterChange) : String :=
  "GovernanceParameterChange\x7bproposalId=" ++ change.proposalId
    ++ ";target=" ++ governanceParameterTargetToString change.target
    ++ ";previousValue=" ++ change.previousValue ++ ";newValue=" ++ change.newValue
    ++ ";effectiveAtHeight=" ++ toString change.effectiveAtHeight
    ++ ";appliedAt=" ++ toString change.appliedAt ++ "\x7d"

end GovernanceParameterChange

inductive GovernanceExecutionStatus
  | applied
  | pending
  | rejectedUnknownTarget
  | rejectedInvalidValue
  deriving DecidableEq

structure GovernanceExecutionResult where
  status : GovernanceExecutionStatus
  detail : String

structure VoteState where
  choice : GovernanceVoteChoice
  weight : UInt64
  castHeight : UInt64
  castAt : Int
  transactionId : String
  deriving DecidableEq

structure ProposalState where
  proposerAddress : String
  payload : GovernanceProposalPayload
  createdHeight : UInt64
  createdAt : Int
  votingStartHeight : UInt64
  votingEndHeight : UInt64
  totalEligibleWeight : UInt64
  status : GovernanceProposalStatus
  finalTally : GovernanceTallySnapshot
  decidedAtHeight : UInt64
  decidedAt : Int
  executedAtHeight : UInt64
  executedAt : Int
  executionDetail : String
  votes : SortedMap String VoteState
  treasuryExecutableAtHeight : UInt64
  treasuryBalanceBeforeExecution : Amount

/-- `m_appliedChanges` and `m_pendingChanges`. -/
structure ParameterChanges where
  applied : List GovernanceParameterChange
  pending : List GovernanceParameterChange

/-- `currentValueForTarget`. -/
def ParameterChanges.currentValueForTarget (changes : ParameterChanges)
    (target : GovernanceParameterTarget) : String :=
  match changes.applied.reverse.find? fun change => change.target == target with
  | some change => change.newValue
  | none => ""

structure GovernanceExecutor where
  changes : ParameterChanges
  proposals : SortedMap String ProposalState

namespace GovernanceExecutor

/-- `GovernanceExecutor()`. -/
def empty : GovernanceExecutor := ⟨⟨[], []⟩, SortedMap.empty⟩

/-- `ProtocolLimits::MAX_BLOCK_RECORDS`. -/
def maxBlockRecords : UInt64 := 10000

/-- The digits of a number below `2 ^ 64` without a zero in front. -/
def parseUint64Strict (value : String) : Option UInt64 :=
  if value.isEmpty then none
  else if !value.toList.all (fun c => '0' ≤ c && c ≤ '9') then none
  else
    let parsed := value.toList.foldl (fun n c => n * 10 + (c.toNat - '0'.toNat)) 0
    if parsed > 2 ^ 64 - 1 || toString parsed != value then none else some parsed.toUInt64

def checkedAddU64 (left right : UInt64) : Option UInt64 :=
  if (2 ^ 64 - 1 : Nat).toUInt64 - left < right then none else some (left + right)

/-- The products are taken in 128 bits. -/
def ratioMet (value denominator total numerator : UInt64) : Bool :=
  value.toNat * denominator.toNat ≥ total.toNat * numerator.toNat

def parseTarget (payload : GovernanceProposalPayload) : GovernanceParameterTarget :=
  governanceParameterTargetFromString payload.parameterTarget

def validateValue (target : GovernanceParameterTarget) (value : String) : Bool :=
  match parseUint64Strict value with
  | none => false
  | some numericValue =>
    match target with
    | .epochDurationSeconds => numericValue ≥ 60
    | .minimumValidatorCount => numericValue ≥ 1
    | .quorumThresholdNumerator => numericValue ≥ 1
    | .quorumThresholdDenominator => numericValue ≥ 2
    | .maxTransactionsPerBlock => numericValue ≥ 1 && numericValue ≤ maxBlockRecords
    | .minimumFeeRaw => numericValue.toNat ≤ 2 ^ 63 - 1
    | .treasuryAllocationBasisPoints => numericValue ≤ 10000
    | .validatorRewardBasisPoints => numericValue ≤ 10000
    | .unknown => false

end GovernanceExecutor

--
-- Proposals and votes
--

namespace GovernanceExecutor

def validateProposalPayload (proposalPayload : String) :
    Except String GovernanceProposalPayload := do
  let payload ← GovernanceProposalPayload.deserialize proposalPayload
  if payload.type == .parameterChange && (parseTarget payload == .unknown
      || !validateValue (parseTarget payload) payload.parameterValue) then
    .error "Governance parameter change payload is invalid."
  else .ok payload

/-- The proposal that `submitProposal` stores. -/
def newProposal (proposerAddress : String) (payload : GovernanceProposalPayload)
    (currentHeight : UInt64) (now : Int) (votingStart votingEnd totalEligibleWeight : UInt64) :
    ProposalState :=
  { proposerAddress := proposerAddress
    payload := payload
    createdHeight := currentHeight
    createdAt := now
    votingStartHeight := votingStart
    votingEndHeight := votingEnd
    totalEligibleWeight := totalEligibleWeight
    status := if currentHeight ≥ votingStart then .active else .pending
    finalTally := GovernanceTallySnapshot.none
    decidedAtHeight := 0
    decidedAt := 0
    executedAtHeight := 0
    executedAt := 0
    executionDetail := ""
    votes := SortedMap.empty
    treasuryExecutableAtHeight := 0
    treasuryBalanceBeforeExecution := Amount.zero }

/-- A sum that throws where it does not fit. -/
def sumOrThrow (left right : UInt64) (message : String) : Except String UInt64 :=
  match checkedAddU64 left right with
  | none => .error message
  | some sum => .ok sum

/-- A refused proposal has a reason and changes nothing. -/
def submitProposal (executor : GovernanceExecutor) (proposalId proposerAddress : String)
    (proposalPayload : String) (currentHeight : UInt64) (now : Int)
    (totalEligibleWeight : UInt64) : Except String GovernanceExecutor :=
  if proposalId.isEmpty || proposerAddress.isEmpty || currentHeight == 0 || now ≤ 0
      || totalEligibleWeight == 0 then
    .error "Governance proposal identity, block context, or voting snapshot is invalid."
  else if executor.proposals.contains proposalId then
    .error "Governance proposal already exists."
  else do
    let payload ← validateProposalPayload proposalPayload
    let votingStart ← sumOrThrow currentHeight payload.votingStartDelayBlocks
      "Governance voting start height overflow."
    let votingEnd ← sumOrThrow votingStart (payload.votingPeriodBlocks - 1)
      "Governance voting end height overflow."
    .ok { executor with
      proposals := executor.proposals.insert proposalId (newProposal proposerAddress payload
        currentHeight now votingStart votingEnd totalEligibleWeight) }

/-- A proposal whose voting is over. -/
def decided : GovernanceProposalStatus → Bool
  | .pending => false
  | .active => false
  | _ => true

def castVote (executor : GovernanceExecutor) (proposalId validatorAddress : String)
    (choice : GovernanceVoteChoice) (votingWeight currentHeight : UInt64) (now : Int)
    (transactionId : String) : Except String GovernanceExecutor :=
  match executor.proposals.find? proposalId with
  | none => .error "Governance proposal does not exist."
  | some proposal =>
    if decided proposal.status then .error "Governance proposal is already decided."
    else if validatorAddress.isEmpty || transactionId.isEmpty || votingWeight == 0
        || votingWeight > proposal.totalEligibleWeight || currentHeight < proposal.createdHeight
        || now ≤ 0 then
      .error "Governance vote context or weight is invalid."
    else if currentHeight < proposal.votingStartHeight then
      .error "Governance voting period has not started."
    else if currentHeight > proposal.votingEndHeight then
      .error "Governance voting period has ended."
    else if proposal.votes.contains validatorAddress then
      .error "Validator has already voted on this proposal."
    else
      .ok { executor with
        proposals := executor.proposals.insert proposalId
          { proposal with
            status := .active
            votes := proposal.votes.insert validatorAddress
              ⟨choice, votingWeight, currentHeight, now, transactionId⟩ } }

/-- The running sums of a tally. -/
structure TallySums where
  yes : UInt64
  no : UInt64
  abstain : UInt64

def TallySums.add (sums : TallySums) (vote : VoteState) : Option TallySums :=
  match vote.choice with
  | .yes => (checkedAddU64 sums.yes vote.weight).map fun yes => { sums with yes }
  | .abstain => (checkedAddU64 sums.abstain vote.weight).map fun abstain => { sums with abstain }
  | .no => (checkedAddU64 sums.no vote.weight).map fun no => { sums with no }

def computeTally (proposalId : String) (proposal : ProposalState) :
    Except String GovernanceTallySnapshot :=
  match proposal.votes.entries.foldlM (fun sums entry => sums.add entry.2) (⟨0, 0, 0⟩ : TallySums)
      with
  | none => .error "Governance tally overflow."
  | some sums =>
    match (checkedAddU64 sums.yes sums.no).bind (checkedAddU64 · sums.abstain) with
    | none => .error "Governance participant tally overflow."
    | some participating =>
      let quorumMet := proposal.totalEligibleWeight > 0
        && ratioMet participating proposal.payload.quorumDenominator proposal.totalEligibleWeight
          proposal.payload.quorumNumerator
      match checkedAddU64 sums.yes sums.no with
      | none => .error "Governance directional tally overflow."
      | some directional =>
        let approvalMet := directional > 0
          && ratioMet sums.yes proposal.payload.approvalDenominator directional
            proposal.payload.approvalNumerator
        .ok ⟨proposalId, sums.yes, sums.no, sums.abstain, participating,
          proposal.totalEligibleWeight, quorumMet, approvalMet⟩

end GovernanceExecutor

--
-- Decisions
--

namespace GovernanceExecutor

def proposalCanExecuteAt (proposal : ProposalState) (currentHeight : UInt64) : Bool :=
  if proposal.status != .approved && proposal.status != .queuedForExecution then false
  else if proposal.payload.type == .treasurySpend then false
  else if proposal.payload.type != .parameterChange then true
  else currentHeight ≥ proposal.payload.parameterEffectiveHeight

/-- `executeApprovedProposal`: the result, the proposal and the changes it leaves. -/
def executeApprovedProposal (proposalId : String) (proposal : ProposalState)
    (changes : ParameterChanges) (currentHeight : UInt64) (now : Int) :
    GovernanceExecutionResult × ProposalState × ParameterChanges :=
  if proposal.status == .executed then
    (⟨.rejectedInvalidValue, "Proposal " ++ proposalId ++ " has already been executed."⟩,
      proposal, changes)
  else if proposal.payload.type == .text then
    (⟨.applied, "Text proposal recorded on-chain."⟩,
      { proposal with
        status := .executed
        executedAtHeight := currentHeight
        executedAt := now
        executionDetail := "Text proposal recorded on-chain." }, changes)
  else
    let target := parseTarget proposal.payload
    let value := proposal.payload.parameterValue
    let effectiveHeight := proposal.payload.parameterEffectiveHeight
    if target == .unknown then
      (⟨.rejectedUnknownTarget,
        "Unknown governance parameter target in proposal " ++ proposalId⟩, proposal, changes)
    else if !validateValue target value then
      (⟨.rejectedInvalidValue, "Invalid value '" ++ value ++ "' for target "
        ++ governanceParameterTargetToString target⟩, proposal, changes)
    else if currentHeight < effectiveHeight then
      (⟨.pending, "Proposal " ++ proposalId ++ " effective at height " ++ toString effectiveHeight
          ++ " (current: " ++ toString currentHeight ++ ")"⟩,
        { proposal with
          status := .queuedForExecution
          executionDetail :=
            "Parameter change queued for height " ++ toString effectiveHeight },
        if changes.pending.any (·.proposalId == proposalId) then changes
        else { changes with
          pending := changes.pending
            ++ [GovernanceParameterChange.pending proposalId target value effectiveHeight] })
    else
      let change : GovernanceParameterChange :=
        ⟨proposalId, target, changes.currentValueForTarget target, value, effectiveHeight, now⟩
      (⟨.applied, "Applied: " ++ governanceParameterTargetToString target ++ " = " ++ value⟩,
        { proposal with
          status := .executed
          executedAtHeight := currentHeight
          executedAt := now
          executionDetail := change.serialize },
        { applied := changes.applied ++ [change]
          pending := changes.pending.filter (·.proposalId != proposalId) })

/-- `finalizeProposal`; a tally that overflows throws before anything is written. -/
def finalizeProposal (proposalId : String) (proposal : ProposalState)
    (changes : ParameterChanges) (currentHeight : UInt64) (now : Int)
    (treasuryTimelockBlocks : UInt64) : Except String (ProposalState × ParameterChanges) := do
  let tally ← computeTally proposalId proposal
  let proposal := { proposal with
    finalTally := tally
    decidedAtHeight := currentHeight
    decidedAt := now }
  if !tally.quorumMet then
    .ok ({ proposal with
      status := .expired
      executionDetail := "Voting period ended without quorum." }, changes)
  else if !tally.approvalThresholdMet then
    .ok ({ proposal with
      status := .rejected
      executionDetail := "Voting period ended without approval threshold." }, changes)
  else
    let proposal := { proposal with status := .approved }
    if proposal.payload.type == .treasurySpend then
      let executableAt := currentHeight + treasuryTimelockBlocks
      .ok ({ proposal with
        treasuryExecutableAtHeight := executableAt
        status := .queuedForExecution
        executionDetail :=
          "Treasury spend approved; executable via governance execute at height "
            ++ toString executableAt ++ " or later." }, changes)
    else
      let (execution, proposal, changes) :=
        executeApprovedProposal proposalId proposal changes currentHeight now
      match execution.status with
      | .pending => .ok ({ proposal with status := .queuedForExecution }, changes)
      | .applied => .ok (proposal, changes)
      | _ => .ok ({ proposal with
          status := .failedExecution
          executionDetail := execution.detail }, changes)

/-- The variables of the pass: the changes and the number of executed proposals. -/
abbrev PassState := ParameterChanges × Nat

/-- The first step of the loop of `advanceToHeight` for one proposal. -/
def openVoting (currentHeight : UInt64) (proposal : ProposalState) : ProposalState :=
  if proposal.status == .pending && currentHeight ≥ proposal.votingStartHeight then
    { proposal with status := .active }
  else proposal

/-- The rest of the body; `before` is the status before the voting was opened. -/
def advanceOpened (currentHeight : UInt64) (now : Int) (treasuryTimelockBlocks : UInt64)
    (proposalId : String) (before : GovernanceProposalStatus) :
    EStateM String (ProposalState × PassState) Unit := do
  let (proposal, changes, executed) ← get
  if proposal.status == .active && currentHeight > proposal.votingEndHeight then
    let (proposal, changes) ← call (finalizeProposal proposalId proposal changes currentHeight now
      treasuryTimelockBlocks)
    set (proposal, changes,
      if before != .executed && proposal.status == .executed then executed + 1 else executed)
  else if proposal.status == .queuedForExecution && proposalCanExecuteAt proposal currentHeight then
    let (execution, proposal, changes) :=
      executeApprovedProposal proposalId proposal changes currentHeight now
    let proposal :=
      if execution.status != .applied && execution.status != .pending then
        { proposal with status := .failedExecution, executionDetail := execution.detail }
      else proposal
    set (proposal, changes,
      if before != .executed && proposal.status == .executed then executed + 1 else executed)
  else pure ()

/-- The body of the loop of `advanceToHeight` for one proposal. -/
def advanceProposal (currentHeight : UInt64) (now : Int) (treasuryTimelockBlocks : UInt64)
    (proposalId : String) : EStateM String (ProposalState × PassState) Unit := do
  let (proposal, changes, executed) ← get
  set (openVoting currentHeight proposal, changes, executed)
  advanceOpened currentHeight now treasuryTimelockBlocks proposalId proposal.status

/-- `advanceToHeight`: the executor it leaves, also where it throws. -/
def advanceToHeight (executor : GovernanceExecutor) (currentHeight : UInt64) (now : Int)
    (treasuryTimelockBlocks : UInt64) : EStateM.Result String GovernanceExecutor Nat :=
  if currentHeight == 0 || now ≤ 0 then
    .error "Governance activation boundary is invalid." executor
  else
    match executor.proposals.visit (advanceProposal currentHeight now treasuryTimelockBlocks)
        (executor.changes, 0) with
    | .ok _ (proposals, changes, executed) => .ok executed ⟨changes, proposals⟩
    | .error message (proposals, changes, _) => .error message ⟨changes, proposals⟩

end GovernanceExecutor

--
-- The rules for treasury spends
--

/-- `ProtectionTreasury::TREASURY_ADDRESS`. -/
def treasuryAddress : String := "treasury-protocol-account"

structure TreasuryPolicy where
  policyVersion : String
  maxSpendPerEpoch : Amount
  maxSpendPerProposal : Amount
  timelockBlocks : UInt64
  requireApproval : Bool
  allowSpendingWhenLocked : Bool

/-- Empty for a valid policy. -/
def TreasuryPolicy.rejectionReason (policy : TreasuryPolicy) : String :=
  if policy.policyVersion.isEmpty then "TreasuryPolicy: policyVersion must not be empty."
  else if policy.maxSpendPerEpoch.isNegative then
    "TreasuryPolicy: maxSpendPerEpoch must not be negative."
  else if policy.maxSpendPerProposal.isNegative then
    "TreasuryPolicy: maxSpendPerProposal must not be negative."
  else ""

structure TreasuryProposal where
  proposalId : String
  recipientAddress : String
  amount : Amount
  purpose : String
  createdAtBlock : UInt64
  requestedEpoch : UInt64
  proposer : String

def TreasuryProposal.rejectionReason (proposal : TreasuryProposal) : String :=
  if proposal.proposalId.isEmpty then "TreasuryProposal: proposalId must not be empty."
  else if proposal.recipientAddress.isEmpty then
    "TreasuryProposal: recipientAddress must not be empty."
  else if !proposal.amount.isPositive then "TreasuryProposal: amount must be positive."
  else if proposal.purpose.isEmpty then "TreasuryProposal: purpose must not be empty."
  else if proposal.proposer.isEmpty then "TreasuryProposal: proposer must not be empty."
  else ""

structure TreasuryApproval where
  approvalId : String
  proposalId : String
  approvedAtBlock : UInt64
  approver : String
  approvalProof : String

def TreasuryApproval.rejectionReason (approval : TreasuryApproval) : String :=
  if approval.approvalId.isEmpty then "TreasuryApproval: approvalId must not be empty."
  else if approval.proposalId.isEmpty then "TreasuryApproval: proposalId must not be empty."
  else if approval.approver.isEmpty then "TreasuryApproval: approver must not be empty."
  else if approval.approvalProof.isEmpty then "TreasuryApproval: approvalProof must not be empty."
  else ""

structure TreasuryAccount where
  treasuryId : String
  accountAddress : String
  balance : Amount
  epoch : UInt64
  locked : Bool
  lockReason : String

def TreasuryAccount.rejectionReason (account : TreasuryAccount) : String :=
  if account.treasuryId.isEmpty then "TreasuryAccount: treasuryId must not be empty."
  else if account.accountAddress.isEmpty then "TreasuryAccount: accountAddress must not be empty."
  else if account.balance.isNegative then "TreasuryAccount: balance must not be negative."
  else ""

structure TreasurySpendRecord where
  spendId : String
  proposalId : String
  recipientAddress : String
  amount : Amount
  purpose : String
  executedAtBlock : UInt64
  epoch : UInt64
  treasuryBalanceBefore : Amount
  treasuryBalanceAfter : Amount

def TreasurySpendRecord.rejectionReason (record : TreasurySpendRecord) : String :=
  if record.spendId.isEmpty then "TreasurySpendRecord: spendId must not be empty."
  else if record.proposalId.isEmpty then "TreasurySpendRecord: proposalId must not be empty."
  else if record.recipientAddress.isEmpty then
    "TreasurySpendRecord: recipientAddress must not be empty."
  else if !record.amount.isPositive then "TreasurySpendRecord: amount must be positive."
  else if record.treasuryBalanceBefore.isNegative then
    "TreasurySpendRecord: treasuryBalanceBefore must not be negative."
  else if record.treasuryBalanceAfter.isNegative then
    "TreasurySpendRecord: treasuryBalanceAfter must not be negative (would create negative "
      ++ "treasury)."
  else
    let expectedAfter : Int :=
      (record.treasuryBalanceBefore.rawUnits : Int) - record.amount.rawUnits
    if expectedAfter != record.treasuryBalanceAfter.rawUnits then
      "TreasurySpendRecord: balance mismatch: before("
        ++ toString record.treasuryBalanceBefore.rawUnits ++ ") - amount("
        ++ toString record.amount.rawUnits ++ ") = " ++ toString expectedAfter ++ " != after("
        ++ toString record.treasuryBalanceAfter.rawUnits ++ ")."
    else ""

inductive TreasurySpendStatus
  | defenseModeActive
  | invalidTreasury
  | invalidPolicy
  | invalidProposal
  | invalidApproval
  | approvalMismatch
  | timelockNotSatisfied
  | timelockOverflow
  | insufficientTreasuryBalance
  | proposalLimitExceeded
  | epochLimitExceeded
  | epochSpendOverflow
  | treasuryLocked
  deriving DecidableEq

def treasurySpendStatusToString : TreasurySpendStatus → String
  | .defenseModeActive => "DEFENSE_MODE_ACTIVE"
  | .invalidTreasury => "INVALID_TREASURY"
  | .invalidPolicy => "INVALID_POLICY"
  | .invalidProposal => "INVALID_PROPOSAL"
  | .invalidApproval => "INVALID_APPROVAL"
  | .approvalMismatch => "APPROVAL_MISMATCH"
  | .timelockNotSatisfied => "TIMELOCK_NOT_SATISFIED"
  | .timelockOverflow => "TIMELOCK_OVERFLOW"
  | .insufficientTreasuryBalance => "INSUFFICIENT_TREASURY_BALANCE"
  | .proposalLimitExceeded => "PROPOSAL_LIMIT_EXCEEDED"
  | .epochLimitExceeded => "EPOCH_LIMIT_EXCEEDED"
  | .epochSpendOverflow => "EPOCH_SPEND_OVERFLOW"
  | .treasuryLocked => "TREASURY_LOCKED"

/-- `TreasurySpendValidator::validateSpend`; a refusal has a status and a reason. -/
def validateSpend (defenseModeActive blockTreasurySpend : Bool) (treasury : TreasuryAccount)
    (policy : TreasuryPolicy) (proposal : TreasuryProposal) (approval : TreasuryApproval)
    (currentBlockHeight : UInt64) (epochSpentSoFar : Amount) :
    Except (TreasurySpendStatus × String) TreasurySpendRecord :=
  if defenseModeActive && blockTreasurySpend then
    .error (.defenseModeActive, "treasury spend is blocked while defense mode is ACTIVE")
  else if !treasury.rejectionReason.isEmpty then
    .error (.invalidTreasury, "treasury account is invalid: " ++ treasury.rejectionReason)
  else if !policy.rejectionReason.isEmpty then
    .error (.invalidPolicy, "treasury policy is invalid: " ++ policy.rejectionReason)
  else if !proposal.rejectionReason.isEmpty then
    .error (.invalidProposal, "treasury proposal is invalid: " ++ proposal.rejectionReason)
  else if policy.requireApproval && !approval.rejectionReason.isEmpty then
    .error (.invalidApproval,
      "approval required but approval is invalid: " ++ approval.rejectionReason)
  else if policy.requireApproval && approval.proposalId != proposal.proposalId then
    .error (.approvalMismatch, "approval.proposalId (" ++ approval.proposalId
      ++ ") does not match proposal.proposalId (" ++ proposal.proposalId ++ ")")
  else if policy.timelockBlocks > (2 ^ 64 - 1 : Nat).toUInt64 - proposal.createdAtBlock then
    .error (.timelockOverflow,
      "timelock height computation would overflow uint64: createdAtBlock="
        ++ toString proposal.createdAtBlock ++ " timelockBlocks=" ++ toString policy.timelockBlocks)
  else if currentBlockHeight < proposal.createdAtBlock + policy.timelockBlocks then
    .error (.timelockNotSatisfied, "timelock not satisfied: currentBlock="
      ++ toString currentBlockHeight ++ " unlockAt="
      ++ toString (proposal.createdAtBlock + policy.timelockBlocks))
  else if proposal.amount.rawUnits > treasury.balance.rawUnits then
    .error (.insufficientTreasuryBalance, "proposal amount (" ++ toString proposal.amount.rawUnits
      ++ ") exceeds treasury balance (" ++ toString treasury.balance.rawUnits ++ ")")
  else if proposal.amount.rawUnits > policy.maxSpendPerProposal.rawUnits then
    .error (.proposalLimitExceeded, "proposal amount (" ++ toString proposal.amount.rawUnits
      ++ ") exceeds maxSpendPerProposal (" ++ toString policy.maxSpendPerProposal.rawUnits ++ ")")
  else if proposal.amount.rawUnits > maxRawUnits - epochSpentSoFar.rawUnits then
    .error (.epochSpendOverflow, "epoch spend total would overflow int64: epochSpentSoFar="
      ++ toString epochSpentSoFar.rawUnits ++ " proposalAmount="
      ++ toString proposal.amount.rawUnits)
  else if epochSpentSoFar.rawUnits + proposal.amount.rawUnits > policy.maxSpendPerEpoch.rawUnits then
    .error (.epochLimitExceeded, "epoch spend total ("
      ++ toString (epochSpentSoFar.rawUnits + proposal.amount.rawUnits)
      ++ ") would exceed maxSpendPerEpoch (" ++ toString policy.maxSpendPerEpoch.rawUnits ++ ")")
  else if treasury.locked && !policy.allowSpendingWhenLocked then
    .error (.treasuryLocked,
      "treasury is locked and policy does not allow spending when locked: " ++ treasury.lockReason)
  else
    match treasury.balance.sub proposal.amount with
    | none => .error (.invalidProposal, "")  -- excluded by the check of the balance
    | some balanceAfter =>
      let record : TreasurySpendRecord :=
        { spendId := "spend:" ++ proposal.proposalId ++ ":" ++ toString currentBlockHeight ++ ":"
            ++ toString proposal.requestedEpoch ++ ":" ++ proposal.recipientAddress ++ ":"
            ++ toString proposal.amount.rawUnits
          proposalId := proposal.proposalId
          recipientAddress := proposal.recipientAddress
          amount := proposal.amount
          purpose := proposal.purpose
          executedAtBlock := currentBlockHeight
          epoch := proposal.requestedEpoch
          treasuryBalanceBefore := treasury.balance
          treasuryBalanceAfter := balanceAfter }
      if !record.rejectionReason.isEmpty then
        .error (.invalidProposal, "spend record construction failed: " ++ record.rejectionReason)
      else .ok record

--
-- The execution of a treasury spend
--

structure TreasuryExecutionOutcome where
  applied : Bool
  reason : String
  spendRecord : Option TreasurySpendRecord
  treasuryBalanceBefore : Amount

namespace GovernanceExecutor

def proposalReadyForExplicitExecution (executor : GovernanceExecutor) (proposalId : String)
    (currentHeight : UInt64) : Bool :=
  match executor.proposals.find? proposalId with
  | none => false
  | some proposal =>
    proposal.status == .queuedForExecution && proposal.payload.type == .treasurySpend
      && currentHeight ≥ proposal.treasuryExecutableAtHeight

/-- `Amount::fromRawUnits` of a signed number of units. -/
def amountFromRawUnits (rawUnits : Int) : Except String Amount :=
  if rawUnits < 0 then .error "Amount cannot be negative."
  else if h : rawUnits.toNat ≤ maxRawUnits then .ok ⟨rawUnits.toNat, h⟩
  else .error ""  -- no signed 64-bit number

/-- The loop of `treasuryEpochSpentSoFar`. -/
def epochSpent (currentEpoch : UInt64) (excludingProposalId : String) :
    Amount → List (String × ProposalState) → Except String Amount
  | total, [] => .ok total
  | total, (id, proposal) :: rest => do
    if id == excludingProposalId || proposal.payload.type != .treasurySpend
        || proposal.status != .executed then
      epochSpent currentEpoch excludingProposalId total rest
    else
      let epoch ← ValidatorLifecycle.epochIndexForBlock proposal.executedAtHeight
      if epoch != currentEpoch then epochSpent currentEpoch excludingProposalId total rest
      else
        let amount ← amountFromRawUnits proposal.payload.treasuryAmountRaw
        match total.add amount with
        | none => .error "Amount addition overflow."
        | some total => epochSpent currentEpoch excludingProposalId total rest

def treasuryEpochSpentSoFar (executor : GovernanceExecutor) (currentHeight : UInt64)
    (excludingProposalId : String) : Except String Amount := do
  let currentEpoch ← ValidatorLifecycle.epochIndexForBlock currentHeight
  epochSpent currentEpoch excludingProposalId Amount.zero executor.proposals.entries

def refusedExecution (reason : String) : TreasuryExecutionOutcome :=
  ⟨false, reason, none, Amount.zero⟩

/-- The state of `executeQueuedTreasuryProposal`: the executor and the accounts. -/
structure TreasuryState where
  executor : GovernanceExecutor
  accounts : AccountStateView

/-- The two account writes and the record of the execution. Both balances are read before the
first write; the sum of the second one is taken after it. -/
def paySpend (proposalId : String) (proposal : ProposalState) (amount : Amount)
    (record : TreasurySpendRecord) (currentHeight : UInt64) (now : Int) :
    EStateM String TreasuryState TreasuryExecutionOutcome := do
  let state ← get
  let treasury := state.accounts.accountOrDefault treasuryAddress
  let recipient := state.accounts.accountOrDefault proposal.payload.treasuryRecipient
  match treasury.balance.sub amount with
  | none => throw "Amount subtraction would create negative value."
  | some treasuryBalance =>
    match state.accounts.putAccount ⟨treasuryAddress, treasuryBalance, treasury.nonce⟩ with
    | none => pure (refusedExecution "Treasury spend account write failed.")
    | some debited =>
      set { state with accounts := debited }
      match recipient.balance.add amount with
      | none => throw "Amount addition overflow."
      | some recipientBalance =>
        match debited.putAccount
            ⟨proposal.payload.treasuryRecipient, recipientBalance, recipient.nonce⟩ with
        | none => pure (refusedExecution "Treasury spend account write failed.")
        | some credited =>
          set { executor := { state.executor with
                  proposals := state.executor.proposals.insert proposalId
                    { proposal with
                      status := .executed
                      executedAtHeight := currentHeight
                      executedAt := now
                      treasuryBalanceBeforeExecution := treasury.balance
                      executionDetail := "Treasury spend executed to "
                        ++ proposal.payload.treasuryRecipient ++ " amountRaw="
                        ++ toString proposal.payload.treasuryAmountRaw } }
                accounts := credited : TreasuryState }
          pure ⟨true, "", some record, treasury.balance⟩

def executeQueuedTreasuryProposal (proposalId : String) (currentHeight : UInt64) (now : Int)
    (treasuryPolicy : TreasuryPolicy) (approval : TreasuryApproval) :
    EStateM String TreasuryState TreasuryExecutionOutcome := do
  let state ← get
  let refused := refusedExecution ("Treasury proposal " ++ proposalId
    ++ " is not eligible for execution at height " ++ toString currentHeight ++ ".")
  if !state.executor.proposalReadyForExplicitExecution proposalId currentHeight then pure refused
  else
    match state.executor.proposals.find? proposalId with
    | none => pure refused
    | some proposal =>
      let amount ← call (amountFromRawUnits proposal.payload.treasuryAmountRaw)
      let treasuryAccount := state.accounts.accountOrDefault treasuryAddress
      let currentEpoch ← call (ValidatorLifecycle.epochIndexForBlock currentHeight)
      let spent ← call (state.executor.treasuryEpochSpentSoFar currentHeight proposalId)
      match validateSpend false true
          ⟨"treasury-main", treasuryAddress, treasuryAccount.balance, currentEpoch, false,
            "unlocked"⟩ treasuryPolicy
          ⟨proposalId, proposal.payload.treasuryRecipient, amount, proposal.payload.title,
            proposal.decidedAtHeight, currentEpoch, proposal.proposerAddress⟩
          approval currentHeight spent with
      | .error (status, reason) =>
        pure (refusedExecution (treasurySpendStatusToString status ++ ": " ++ reason))
      | .ok record => paySpend proposalId proposal amount record currentHeight now

end GovernanceExecutor

end Nodo.Model
