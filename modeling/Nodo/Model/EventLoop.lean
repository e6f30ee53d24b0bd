import Nodo.Model.Finalization
import Nodo.Model.RoundState

/-!
# Nodo — the consensus event loop of one validator

`node/consensus/ConsensusEventLoop.cpp` with the parts of the runtime it drives:
`tick` drains votes and proposals, resets itself when the height has moved,
casts the PREVOTE, the PRECOMMIT or a nil vote, tries to finalize and times the
round out. A `Node` is the loop's fields, the runtime fields it reads, and the
recovery file; ghost lists record which votes it handed out, which of them it
broadcast (with the recovery file at that moment), the states it built to save
a fresh PREVOTE, and the certificates it assembled.

What the loop only observes enters through the tick's input: the messages, the
clock, the outcome of every save, and the verdicts on proposals and on the
commit. Slashing-evidence traffic, relaying and the block producer hook touch
none of this state.
-/

namespace Nodo.Model

--
-- Configuration, state and input
--

/-- `crypto::Signer`: the local validator key. -/
structure LocalSigner where
  address : String
  publicKey : PublicKey
  sign : VoteSigningPayload → SignatureBundle

/-- `Signer::signValidatorVote`. -/
def LocalSigner.signValidatorVote (signer : LocalSigner) (blockIndex : Nat)
    (blockHash previousHash : String) (round : Nat) (decision : ValidatorVoteDecision)
    (reasonHash : String) (createdAt : Int) : ValidatorVoteRecord :=
  let payload : VoteSigningPayload :=
    ⟨signer.address, signer.publicKey, blockIndex, blockHash, previousHash, round, decision,
      reasonHash, createdAt⟩
  { toVoteSigningPayload := payload, signatureBundle := signer.sign payload }

/-- `SignedBlockProposalMessage` with its decoded block. -/
structure BlockProposal where
  blockIndex : Nat
  round : Nat
  blockHash : String
  proposerAddress : String
  block : Block
  justification : Option QuorumCertificate
  deriving DecidableEq, Repr

/-- `PendingBlockCandidate`. -/
structure PendingBlockCandidate where
  block : Block
  round : Nat
  proposal : BlockProposal
  deriving DecidableEq, Repr

/-- The verdicts of the proposal checks that do not read the loop's state. -/
structure ProposalChecks where
  /-- `proposal.isValid()`. -/
  wellFormed : Bool
  /-- The scheduled proposer exists and `proposal.verify` accepts it. -/
  verified : Bool
  /-- `block.isValid()`. -/
  blockValid : Bool
  /-- `chain.canAppendBlock(block)`. -/
  canAppend : Bool
  /-- Authoritative context, `validateCandidateBlock` and `candidateRecordsMatch`. -/
  stateAccepted : Bool
  deriving DecidableEq, Repr

/-- What does not change while the node runs. -/
structure LoopConfig where
  crypto : CryptoContext
  params : ConsensusParameters
  /-- `validatorSetHistory().setAt(height)`, `none` where there is no set. -/
  validatorSets : Nat → Option ValidatorRegistry
  /-- `ValidatorSetHistory::recordSet` takes valid registries only. -/
  validatorSets_valid : ∀ height registry,
    validatorSets height = some registry → registry.isValid crypto = true
  /-- The number read from the hash of `buildSelectionKey` for a height and round. -/
  lottery : Nat → Nat → UInt64
  /-- The checks of `Block::isValid` on the records, the roots and the hash. -/
  blockBodyIsValid : Block → Bool
  signer : Option LocalSigner
  hasRecoveryPath : Bool
  hasDataDirectory : Bool

/-- `ProposerSchedule::selectProposer` on the set of a height; on a valid set it
does not throw. -/
def LoopConfig.selectProposer (cfg : LoopConfig) (height round : Nat) : String :=
  ((cfg.validatorSets height).bind
    (fun registry => Model.selectProposer registry (cfg.lottery height round))).getD ""

/-- The locals `prevoteVoters` and `prevoteWeight` of a tick, with what they
count; the own vote joins them when it is cast. -/
structure PrevoteTally where
  height : Nat
  round : Nat
  blockHash : String
  voters : List String
  weight : UInt64
  deriving DecidableEq, Repr

/-- `Block::isValid`. -/
def LoopConfig.blockIsValid (cfg : LoopConfig) (block : Block) : Bool :=
  if block.previousHash.isEmpty || block.hash.isEmpty || block.timestamp ≤ 0 then false
  else if block.index == 0 && block.previousHash != "GENESIS" then false
  else if 0 < block.index && block.previousHash == "GENESIS" then false
  else cfg.blockBodyIsValid block

/-- A broadcast vote with the content of the recovery file at that moment. -/
structure Broadcast where
  vote : ValidatorVoteRecord
  file : Option ConsensusRoundState
  deriving DecidableEq, Repr

structure Node where
  lockedBlock : String
  lockedRound : Nat
  votedPrevote : Bool
  votedPrecommit : Bool
  persistedPrevote : Option ValidatorVoteRecord
  persistedPrecommit : Option ValidatorVoteRecord
  rebroadcastedPrevote : Bool
  rebroadcastedPrecommit : Bool
  lastProcessedHeight : Nat
  pendingCandidate : Option PendingBlockCandidate
  bufferedProposals : List BlockProposal
  bufferedProposalHeight : Nat
  bufferedProposalRound : Nat
  /-- `runtime.consensusRoundManager()`. -/
  roundManager : ConsensusRoundManager
  /-- The heights of `runtime.finalizationRegistry()`. -/
  finalizedHeights : List Nat
  recoveryFile : Option ConsensusRoundState
  /-- The PREVOTE count of the last tick that took one. -/
  tally : PrevoteTally
  handed : List ValidatorVoteRecord
  broadcasts : List Broadcast
  prevoteStates : List ConsensusRoundState
  certified : List QuorumCertificate
  deriving DecidableEq

/-- How the persistence of a finalized block ends: stored, or failed, possibly
after the snapshot writer replaced the recovery file. -/
inductive CommitStorage
  | persisted
  | failed (recoveryReplaced : Bool)
  deriving DecidableEq, Repr

structure TickInput where
  now : Int
  /-- The system clock. -/
  now_pos : 0 < now
  chainEmpty : Bool
  votes : List ValidatorVoteRecord
  proposals : List BlockProposal
  check : BlockProposal → ProposalChecks
  prevoteStorage : StorageOutcome
  precommitStorage : StorageOutcome
  chainChecks : ChainChecks
  commitStorage : CommitStorage

namespace Node

def height (node : Node) : Nat := node.roundManager.state.height

def round (node : Node) : Nat := node.roundManager.state.round

def pool (node : Node) : VotePool := node.roundManager.voteCollector.pool

def hasFinalizedHeight (node : Node) (height : Nat) : Bool := node.finalizedHeights.contains height

--
-- Handing out votes and saving
--

/-- `runtime.submitConsensusVote` on any vote. -/
def submitConsensusVote (cfg : LoopConfig) (node : Node) (vote : ValidatorVoteRecord) :
    VoteCollectResult × Node :=
  let (result, collector) := node.roundManager.voteCollector.submitNetworkVote cfg.crypto vote
  (result, { node with roundManager := { node.roundManager with voteCollector := collector } })

/-- `runtime.submitConsensusVote` on a vote of the local validator. -/
def submitOwnVote (cfg : LoopConfig) (node : Node) (vote : ValidatorVoteRecord) :
    VoteCollectResult × Node :=
  let (result, node) := node.submitConsensusVote cfg vote
  (result, { node with handed := node.handed ++ [vote] })

/-- `BlockVotingPhase::submitAndBroadcastSignedVote`: a vote the pool knows
already is broadcast again, one it refuses is not. -/
def submitAndBroadcastSignedVote (cfg : LoopConfig) (node : Node) (vote : ValidatorVoteRecord) :
    Bool × Node :=
  let (result, node) := node.submitOwnVote cfg vote
  if !result.accepted && result.status != .rejectedReplay then (false, node)
  else (true, { node with broadcasts := node.broadcasts ++ [⟨vote, node.recoveryFile⟩] })

/-- The state that `saveRecoveryState` writes. -/
def recoveryState (node : Node) : ConsensusRoundState where
  height := node.height
  round := node.round
  proposerAddress := node.roundManager.state.proposerAddress
  roundStartedAt := node.roundManager.state.roundStartedAt
  lockedBlockHash := node.lockedBlock
  lockedRound := node.lockedRound
  votedPrevote := node.persistedPrevote.isSome
  votedPrecommit := node.persistedPrecommit.isSome
  persistedPrevote := node.persistedPrevote
  persistedPrecommit := node.persistedPrecommit

def saveRecoveryState (cfg : LoopConfig) (storage : StorageOutcome) (node : Node) : Bool × Node :=
  if !cfg.hasRecoveryPath then (true, node)
  else
    let (saved, file) := recoverySave storage node.recoveryFile node.recoveryState
    (saved, { node with recoveryFile := file })

--
-- Draining the inbox
--

/-- The vote loop of `drainVotesAndCollect`. -/
def drainVotes (cfg : LoopConfig) (node : Node) (votes : List ValidatorVoteRecord) : Node :=
  votes.foldl (fun node vote =>
    if vote.isStructurallyValid cfg.crypto then (node.submitConsensusVote cfg vote).2 else node) node

/-- `kMaxBufferedNextRoundProposals`. -/
def kMaxBufferedNextRoundProposals : Nat := 16

/-- A candidate for the current height and round is already pending. -/
def hasCurrentCandidate (node : Node) : Bool :=
  node.pendingCandidate.any
    (fun candidate => candidate.round == node.round && candidate.block.index == node.height)

/-- Buffers a proposal of the next round. -/
def bufferProposal (node : Node) (proposal : BlockProposal) : Node :=
  if node.bufferedProposals.isEmpty
      || (node.bufferedProposalHeight == proposal.blockIndex
        && node.bufferedProposalRound == proposal.round) then
    { node with
      bufferedProposalHeight := proposal.blockIndex
      bufferedProposalRound := proposal.round
      bufferedProposals :=
        if node.bufferedProposals.length < kMaxBufferedNextRoundProposals then
          node.bufferedProposals ++ [proposal]
        else node.bufferedProposals }
  else node

/-- The body of the proposal loop: the first admissible proposal of the current
round becomes the candidate, one of the next round is buffered. -/
def processProposal (input : TickInput) (node : Node) (proposal : BlockProposal) : Node :=
  let checks := input.check proposal
  let forCurrentRound := proposal.round == node.round
  let forNextRound := node.round != uint64Max.toNat && proposal.round == node.round + 1
  if !checks.wellFormed || proposal.blockIndex != node.height then node
  else if !forCurrentRound && !forNextRound then node
  else if !checks.verified then node
  else if !checks.blockValid || proposal.block.index != proposal.blockIndex
      || proposal.block.hash != proposal.blockHash || !checks.canAppend then node
  else if node.hasCurrentCandidate then node
  else if !checks.stateAccepted then node
  else if forNextRound then node.bufferProposal proposal
  else { node with pendingCandidate := some ⟨proposal.block, node.round, proposal⟩ }

/-- `processBlockProposals`: buffered proposals whose round has come are read
before the new ones. -/
def processBlockProposals (cfg : LoopConfig) (input : TickInput) (node : Node) : Node :=
  let due := !node.bufferedProposals.isEmpty && node.bufferedProposalHeight == node.height
    && node.bufferedProposalRound == node.round
  let outdated := !node.bufferedProposals.isEmpty && (node.bufferedProposalHeight < node.height
    || (node.bufferedProposalHeight == node.height && node.bufferedProposalRound < node.round))
  let messages := if due then node.bufferedProposals ++ input.proposals else input.proposals
  let node := if due || outdated then
    { node with bufferedProposals := [], bufferedProposalHeight := 0, bufferedProposalRound := 0 }
    else node
  match (cfg.validatorSets node.height).bind (·.totalConsensusWeight) with
  | none => node
  | some total => if total == 0 then node else messages.foldl (processProposal input) node

--
-- Height reset
--

/-- The height the reset asks the finalization registry about. -/
def resetProbe (node : Node) : Nat :=
  if 0 < node.lastProcessedHeight then node.lastProcessedHeight else node.height

/-- The height has moved past one the loop knows to be finalized. -/
def resetPending (node : Node) : Bool :=
  node.lastProcessedHeight < node.height && node.hasFinalizedHeight node.resetProbe

/-- The reset at the start of `tick`. -/
def resetForHeight (node : Node) : Node :=
  if node.resetPending then
    { node with
      lastProcessedHeight := node.height
      lockedBlock := "", lockedRound := 0
      votedPrevote := false, votedPrecommit := false
      persistedPrevote := none, persistedPrecommit := none
      rebroadcastedPrevote := false, rebroadcastedPrecommit := false
      pendingCandidate := none }
  else if node.lastProcessedHeight == 0 && 0 < node.height then
    { node with lastProcessedHeight := node.height }
  else node

--
-- Timeouts
--

/-- `elapsedMs`. -/
def elapsedMs (node : Node) (now : Int) : Int :=
  (now - node.roundManager.state.roundStartedAt) * 1000

def proposalTimedOut (cfg : LoopConfig) (node : Node) (now : Int) : Bool :=
  (cfg.params.proposalTimeoutMs : Int) ≤ node.elapsedMs now

def prevoteTimedOut (cfg : LoopConfig) (node : Node) (now : Int) : Bool :=
  ((cfg.params.proposalTimeoutMs + cfg.params.prevoteTimeoutMs : Nat) : Int) ≤ node.elapsedMs now

/-- `advanceRoundIfTimedOut` with `NodeRuntime::advanceConsensusRoundIfTimedOut`. -/
def advanceRoundIfTimedOut (cfg : LoopConfig) (now : Int) (node : Node) : Node :=
  let phaseTimeoutSecs := (cfg.params.proposalTimeoutMs + cfg.params.prevoteTimeoutMs
    + cfg.params.precommitTimeoutMs) / 1000
  if now - node.roundManager.state.roundStartedAt < (phaseTimeoutSecs : Int) then node
  else
    { node with
      roundManager := node.roundManager.advanceRound cfg.crypto (node.round + 1)
        (cfg.selectProposer node.height (node.round + 1)) now
      votedPrevote := false, votedPrecommit := false
      persistedPrevote := none, persistedPrecommit := none
      rebroadcastedPrevote := false, rebroadcastedPrecommit := false
      pendingCandidate := none }

--
-- Nil votes
--

/-- The vote for "no block": decision REJECT on the hash `"nil"`. -/
def nilVote (node : Node) (signer : LocalSigner) (now : Int) : ValidatorVoteRecord :=
  signer.signValidatorVote node.height "nil" "nil" node.round .reject "nil" now

/-- The nil PREVOTE of a round without a candidate: pool only, and the save is
not looked at. -/
def nilPrevoteWithoutCandidate (cfg : LoopConfig) (registry : ValidatorRegistry)
    (input : TickInput) (node : Node) : Node :=
  match cfg.signer with
  | none => node
  | some signer =>
    if node.proposalTimedOut cfg input.now && !node.votedPrevote
        && registry.isEligibleForConsensus signer.address then
      let vote := node.nilVote signer input.now
      let node := (node.submitOwnVote cfg vote).2
      let node := { node with persistedPrevote := some vote }
      let node := (node.saveRecoveryState cfg input.prevoteStorage).2
      { node with votedPrevote := true }
    else node

/-- The nil PRECOMMIT of a round without a candidate. -/
def nilPrecommitWithoutCandidate (cfg : LoopConfig) (registry : ValidatorRegistry)
    (input : TickInput) (node : Node) : Node :=
  match cfg.signer with
  | none => node
  | some signer =>
    if node.votedPrevote && !node.votedPrecommit && node.prevoteTimedOut cfg input.now
        && registry.isEligibleForConsensus signer.address then
      let vote := node.nilVote signer input.now
      let node := (node.submitOwnVote cfg vote).2
      let node := { node with persistedPrecommit := some vote }
      let node := (node.saveRecoveryState cfg input.precommitStorage).2
      { node with votedPrecommit := true }
    else node

--
-- Voting on a candidate
--

/-- `persistedVoteMatchesCandidate`. -/
def persistedVoteMatchesCandidate (cfg : LoopConfig) (vote : ValidatorVoteRecord) (block : Block)
    (round : Nat) (decision : ValidatorVoteDecision) : Bool :=
  vote.blockIndex == block.index && vote.blockHash == block.hash
    && vote.previousHash == block.previousHash && vote.round == round && vote.decision == decision
    && cfg.signer.all (fun signer => vote.validatorAddress == signer.address)

/-- `submitAndBroadcastSignedVote` on the PREVOTE; a cast one is not sent again. -/
def exposePrevote (cfg : LoopConfig) (vote : ValidatorVoteRecord) (node : Node) : Bool × Node :=
  match node.submitAndBroadcastSignedVote cfg vote with
  | (false, node) => (false, node)
  | (true, node) => (true, { node with rebroadcastedPrevote := true })

/-- `submitAndBroadcastSignedVote` on the PRECOMMIT. -/
def exposePrecommit (cfg : LoopConfig) (vote : ValidatorVoteRecord) (node : Node) : Node :=
  match node.submitAndBroadcastSignedVote cfg vote with
  | (false, node) => node
  | (true, node) => { node with rebroadcastedPrecommit := true }

/-- The two halves of `rebroadcastPersistedVotesForCandidate`. -/
def rebroadcastPrevote (cfg : LoopConfig) (block : Block) (round : Nat) (node : Node) : Node :=
  match node.persistedPrevote with
  | none => node
  | some vote =>
    if !node.rebroadcastedPrevote
        && persistedVoteMatchesCandidate cfg vote block round .prevote then
      (node.exposePrevote cfg vote).2
    else node

def rebroadcastPrecommit (cfg : LoopConfig) (block : Block) (round : Nat) (node : Node) : Node :=
  match node.persistedPrecommit with
  | none => node
  | some vote =>
    if !node.rebroadcastedPrecommit
        && persistedVoteMatchesCandidate cfg vote block round .precommit then
      node.exposePrecommit cfg vote
    else node

/-- The PREVOTE loop over the pool: the voters it saw and their weight; `none`
where the source throws. -/
def tallyPrevotes (registry : ValidatorRegistry) :
    List String → UInt64 → List ValidatorVoteRecord → Option (List String × UInt64)
  | voters, weight, [] => some (voters, weight)
  | voters, weight, vote :: rest =>
    if vote.decision == .prevote && !voters.contains vote.validatorAddress then
      let voterWeight := registry.consensusWeightFor vote.validatorAddress
      if uint64Max - weight < voterWeight then none
      else tallyPrevotes registry (vote.validatorAddress :: voters) (weight + voterWeight) rest
    else tallyPrevotes registry voters weight rest

end Node

/-- `ProposalJustification::permitsUnlock`. -/
def permitsUnlock (crypto : CryptoContext) (justification : Option QuorumCertificate)
    (lockedRound : Nat) (candidateBlockHash : String) (round : Nat)
    (registry : ValidatorRegistry) : Bool :=
  if round ≤ lockedRound then false
  else match justification with
    | none => false
    | some certificate =>
      certificate.isStructurallyValid && certificate.verify crypto registry
        && lockedRound ≤ certificate.round && certificate.blockHash == candidateBlockHash

/-- `ValidatorVoteBuilder::buildPrevote`; `none` where it throws. -/
def buildPrevote (cfg : LoopConfig) (registry : ValidatorRegistry) (block : Block) (round : Nat)
    (createdAt : Int) (signer : LocalSigner) : Option ValidatorVoteRecord :=
  if !cfg.blockIsValid block || round == 0 || createdAt ≤ 0 then none
  else if !registry.isEligibleForConsensus signer.address then none
  else if !registry.verifyValidatorIdentity cfg.crypto signer.address signer.publicKey then none
  else some (signer.signValidatorVote block.index block.hash block.previousHash round .prevote
    "runtime-block-pipeline-prevote" createdAt)

/-- `ValidatorVoteBuilder::buildPrecommit`: the time is compared with the block's. -/
def buildPrecommit (cfg : LoopConfig) (registry : ValidatorRegistry) (block : Block) (round : Nat)
    (createdAt : Int) (signer : LocalSigner) : Option ValidatorVoteRecord :=
  if !cfg.blockIsValid block || round == 0 || createdAt < block.timestamp then none
  else if !registry.isEligibleForConsensus signer.address then none
  else if !registry.verifyValidatorIdentity cfg.crypto signer.address signer.publicKey then none
  else some (signer.signValidatorVote block.index block.hash block.previousHash round .precommit
    "runtime-block-pipeline-precommit" createdAt)

namespace Node

/-- The lock rule of the PREVOTE. -/
def safeToVote (cfg : LoopConfig) (registry : ValidatorRegistry)
    (candidate : PendingBlockCandidate) (node : Node) : Bool :=
  if node.lockedBlock.isEmpty || candidate.block.hash == node.lockedBlock then true
  else if node.lockedRound < node.round then
    permitsUnlock cfg.crypto candidate.proposal.justification node.lockedRound candidate.block.hash
      node.round registry
  else false

/-- Counts the own PREVOTE; `.error` is the overflow the source throws on. -/
def countOwnPrevote (registry : ValidatorRegistry) (signer : LocalSigner) (node : Node) :
    Except Node Node :=
  let ownWeight := registry.consensusWeightFor signer.address
  if uint64Max - node.tally.weight < ownWeight then .error node
  else .ok { node with tally := { node.tally with
    voters := signer.address :: node.tally.voters, weight := node.tally.weight + ownWeight } }

/-- Casting a PREVOTE: build, save, and only then expose. `.error` ends the tick. -/
def castPrevote (cfg : LoopConfig) (registry : ValidatorRegistry) (signer : LocalSigner)
    (input : TickInput) (candidate : PendingBlockCandidate) (node : Node) : Except Node Node :=
  match buildPrevote cfg registry candidate.block node.round input.now signer with
  | none => .error node
  | some vote =>
    let node := { node with persistedPrevote := some vote }
    let node := { node with prevoteStates := node.prevoteStates ++ [node.recoveryState] }
    match node.saveRecoveryState cfg input.prevoteStorage with
    | (false, node) => .ok { node with persistedPrevote := none }
    | (true, node) =>
      match exposePrevote cfg vote { node with votedPrevote := true } with
      | (false, node) => .ok node
      | (true, node) => node.countOwnPrevote registry signer

/-- A nil PREVOTE exposed before its save. -/
def castNilPrevote (cfg : LoopConfig) (signer : LocalSigner) (input : TickInput)
    (node : Node) : Node :=
  let vote := node.nilVote signer input.now
  match submitAndBroadcastSignedVote cfg node vote with
  | (false, node) => node
  | (true, node) =>
    let node := { node with persistedPrevote := some vote }
    { (node.saveRecoveryState cfg input.prevoteStorage).2 with votedPrevote := true }

/-- Phase A of `tick`. The second branch repeats the eligibility test that the
first one failed, so it casts nothing. -/
def prevotePhase (cfg : LoopConfig) (registry : ValidatorRegistry) (input : TickInput)
    (candidate : PendingBlockCandidate) (node : Node) : Except Node Node :=
  match cfg.signer with
  | none => .ok node
  | some signer =>
    if !node.votedPrevote && registry.isEligibleForConsensus signer.address then
      if node.safeToVote cfg registry candidate then
        node.castPrevote cfg registry signer input candidate
      else .ok node
    else if !node.votedPrevote && node.proposalTimedOut cfg input.now then
      if registry.isEligibleForConsensus signer.address then
        .ok (node.castNilPrevote cfg signer input)
      else .ok node
    else .ok node

/-- Casting a PRECOMMIT: lock, build, save, expose; a failed build or save
restores the lock. `.error` ends the tick. -/
def castPrecommit (cfg : LoopConfig) (registry : ValidatorRegistry) (signer : LocalSigner)
    (input : TickInput) (candidate : PendingBlockCandidate) (node : Node) : Except Node Node :=
  match buildPrecommit cfg registry candidate.block node.round input.now signer with
  | none => .error node
  | some vote =>
    let locked := { node with
      lockedBlock := candidate.block.hash, lockedRound := node.round
      persistedPrecommit := some vote }
    match saveRecoveryState cfg input.precommitStorage locked with
    | (false, saved) =>
      .ok { saved with
        lockedBlock := node.lockedBlock, lockedRound := node.lockedRound
        persistedPrecommit := none }
    | (true, saved) => .ok (exposePrecommit cfg vote { saved with votedPrecommit := true })

/-- A nil PRECOMMIT exposed before its save. -/
def castNilPrecommit (cfg : LoopConfig) (signer : LocalSigner) (input : TickInput)
    (node : Node) : Node :=
  let vote := node.nilVote signer input.now
  match submitAndBroadcastSignedVote cfg node vote with
  | (false, node) => node
  | (true, node) =>
    let node := { node with persistedPrecommit := some vote }
    { (node.saveRecoveryState cfg input.precommitStorage).2 with votedPrecommit := true }

/-- The PRECOMMIT branch of phase B is taken. -/
def precommitDue (node : Node) (eligible : Bool) : Bool :=
  node.votedPrevote && !node.votedPrecommit && eligible

/-- Phase B of `tick`. -/
def precommitPhase (cfg : LoopConfig) (registry : ValidatorRegistry) (input : TickInput)
    (candidate : PendingBlockCandidate) (required : UInt64) (node : Node) : Except Node Node :=
  match cfg.signer with
  | none => .ok node
  | some signer =>
    let eligible := registry.isEligibleForConsensus signer.address
    if node.precommitDue eligible then
      if required ≤ node.tally.weight then node.castPrecommit cfg registry signer input candidate
      else .ok node
    else if !node.votedPrecommit && node.prevoteTimedOut cfg input.now then
      if eligible then .ok (node.castNilPrecommit cfg signer input) else .ok node
    else .ok node

--
-- Finalization
--

/-- The vote-free state of the next height that a commit installs. -/
def nextHeightState (cfg : LoopConfig) (now : Int) (node : Node) : ConsensusRoundState :=
  ConsensusRoundState.fresh (node.height + 1) 1 (cfg.selectProposer (node.height + 1) 1) (now + 1)

/-- The loop and runtime after a successful finalization. The persisted votes and
the rebroadcast flags keep their values. -/
def moveToNextHeight (cfg : LoopConfig) (now : Int) (node : Node) : Node :=
  { node with
    roundManager := node.roundManager.advanceToHeight cfg.crypto (node.height + 1) 1
      (cfg.selectProposer (node.height + 1) 1) (now + 1)
    finalizedHeights := node.height :: node.finalizedHeights
    lastProcessedHeight := node.height + 1
    lockedBlock := "", lockedRound := 0
    votedPrevote := false, votedPrecommit := false
    pendingCandidate := none }

/-- The certificate that `tryFinalize` assembles on the way. -/
def recordCertificate (cfg : LoopConfig) (registry : ValidatorRegistry)
    (candidate : PendingBlockCandidate) (node : Node) : Node :=
  match node.hasFinalizedHeight node.height,
      assembleCertificate cfg.crypto cfg.params registry node.pool candidate.block node.round with
  | false, .ok certificate => { node with certified := node.certified ++ [certificate] }
  | _, _ => node

/-- `tryFinalize` with the persistence of the commit, and the reset that follows
a success. -/
def commitPhase (cfg : LoopConfig) (registry : ValidatorRegistry) (input : TickInput)
    (candidate : PendingBlockCandidate) (node : Node) : Node :=
  match tryFinalize cfg.crypto cfg.params (node.hasFinalizedHeight node.height) (some registry)
      node.pool input.chainChecks candidate.block node.round input.now with
  | .ok _ =>
    if !cfg.hasDataDirectory then node.moveToNextHeight cfg input.now
    else
      let (saved, file) := recoverySave .written node.recoveryFile (node.nextHeightState cfg input.now)
      match input.commitStorage with
      | .persisted =>
        if saved then { node.moveToNextHeight cfg input.now with recoveryFile := file } else node
      | .failed replaced => if replaced then { node with recoveryFile := file } else node
  | _ => node

--
-- The tick
--

/-- The pending candidate, if it is for the current height and round. -/
def currentCandidate (node : Node) : Option PendingBlockCandidate :=
  node.pendingCandidate.filter
    (fun candidate => candidate.block.index == node.height && candidate.round == node.round)

/-- `tick` in a round without a candidate. -/
def tickWithoutCandidate (cfg : LoopConfig) (registry : ValidatorRegistry) (input : TickInput)
    (node : Node) : Node :=
  ((node.nilPrevoteWithoutCandidate cfg registry input).nilPrecommitWithoutCandidate cfg registry
    input).advanceRoundIfTimedOut cfg input.now

/-- The PREVOTE count of the pool and the threshold, where `tick` gets that far. -/
def countPrevotes (cfg : LoopConfig) (registry : ValidatorRegistry)
    (candidate : PendingBlockCandidate) (node : Node) : Option (Node × UInt64) := do
  let (voters, weight) ← tallyPrevotes registry [] 0
    (node.pool.votesForBlock node.height candidate.block.hash node.round)
  let total ← registry.totalConsensusWeight
  let required ← requiredVotingWeight total cfg.params.quorumThresholdNumerator
    cfg.params.quorumThresholdDenominator
  return ({ node with tally := ⟨node.height, node.round, candidate.block.hash, voters, weight⟩ },
    required)

/-- The start of `tick`, up to the height reset. `.error` ends the tick. -/
def openTick (cfg : LoopConfig) (input : TickInput) (node : Node) :
    Except Node (ValidatorRegistry × Node) :=
  let node := node.drainVotes cfg input.votes
  if input.chainEmpty then .error node
  else
    let node := node.processBlockProposals cfg input
    match cfg.validatorSets node.height with
    | none => .error node
    | some registry => .ok (registry, node.resetForHeight)

end Node

/-- Where `tick` stands when it enters its PRECOMMIT phase. -/
structure PrecommitPoint where
  registry : ValidatorRegistry
  candidate : PendingBlockCandidate
  required : UInt64
  node : Node

namespace Node

/-- From the candidate check to phase B. `.error` ends the tick. -/
def prepareVote (cfg : LoopConfig) (registry : ValidatorRegistry) (input : TickInput)
    (candidate : PendingBlockCandidate) (node : Node) : Except Node PrecommitPoint :=
  let round := node.round
  let node := (node.rebroadcastPrevote cfg candidate.block round).rebroadcastPrecommit cfg
    candidate.block round
  match node.countPrevotes cfg registry candidate with
  | none => .error node
  | some (node, required) =>
    match node.prevotePhase cfg registry input candidate with
    | .error node => .error node
    | .ok node => .ok ⟨registry, candidate, required, node⟩

/-- `tick` up to phase B. `.error` ends the tick. -/
def reachPrecommit (cfg : LoopConfig) (input : TickInput) (node : Node) :
    Except Node PrecommitPoint :=
  match node.openTick cfg input with
  | .error node => .error node
  | .ok (registry, node) =>
    match node.currentCandidate with
    | none => .error (node.tickWithoutCandidate cfg registry input)
    | some candidate => node.prepareVote cfg registry input candidate

/-- `tick` up to the commit. `.error` ends the tick. -/
def reachCommit (cfg : LoopConfig) (input : TickInput) (node : Node) :
    Except Node PrecommitPoint :=
  match node.reachPrecommit cfg input with
  | .error node => .error node
  | .ok point =>
    match point.node.precommitPhase cfg point.registry input point.candidate point.required with
    | .error node => .error node
    | .ok node =>
      .ok { point with node := node.recordCertificate cfg point.registry point.candidate }

/-- `ConsensusEventLoop::tick`. -/
def tick (cfg : LoopConfig) (input : TickInput) (node : Node) : Node :=
  match node.reachCommit cfg input with
  | .error node => node
  | .ok point =>
    (point.node.commitPhase cfg point.registry input point.candidate).advanceRoundIfTimedOut cfg
      input.now

end Node

end Nodo.Model
