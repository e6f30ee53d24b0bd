import Mathlib.Logic.Relation
import Nodo.Model.EventLoop

/-!
# Nodo — what a tick can do

`tick` is a chain of few kinds of effects on a node: votes and proposals come
in, the height reset, nil votes, rebroadcasts, a PREVOTE or PRECOMMIT that is
cast or not saved, a certificate, a commit that moves the height or fails, a
round advance. `Effect` lists them with the guards under which the source
reaches them, and `tick_effects` shows that every tick is such a chain. An
invariant is then proved effect by effect, and holds at every point at which a
tick can be interrupted.

## Results

* `tick_effects` — every tick is a chain of effects, and the branches that a
  condition on a run talks about start where the tick reaches them.
* `effects_invariant` — a property kept by every effect is kept by a chain.
-/

namespace Nodo.Model

namespace Node

--
-- Handing out a vote
--

/-- The node after one of its votes went to the pool and, if `cast`, to gossip. -/
def handOut (cfg : LoopConfig) (vote : ValidatorVoteRecord) (cast : Bool) (node : Node) : Node :=
  { node with
    roundManager := { node.roundManager with
      voteCollector := (node.roundManager.voteCollector.submitNetworkVote cfg.crypto vote).2 }
    handed := node.handed ++ [vote]
    broadcasts := if cast then node.broadcasts ++ [⟨vote, node.recoveryFile⟩] else node.broadcasts }

theorem submitOwnVote_eq (cfg : LoopConfig) (node : Node) (vote : ValidatorVoteRecord) :
    (node.submitOwnVote cfg vote).2 = node.handOut cfg vote false := rfl

theorem submitAndBroadcastSignedVote_eq (cfg : LoopConfig) (node : Node)
    (vote : ValidatorVoteRecord) :
    ∃ cast, node.submitAndBroadcastSignedVote cfg vote = (cast, node.handOut cfg vote cast) := by
  unfold submitAndBroadcastSignedVote
  dsimp only
  split_ifs
  · exact ⟨false, rfl⟩
  · exact ⟨true, rfl⟩

theorem exposePrevote_eq (cfg : LoopConfig) (node : Node) (vote : ValidatorVoteRecord) :
    ∃ cast, node.exposePrevote cfg vote
      = (cast, { node.handOut cfg vote cast with
          rebroadcastedPrevote := cast || node.rebroadcastedPrevote }) := by
  obtain ⟨cast, hcast⟩ := submitAndBroadcastSignedVote_eq cfg node vote
  refine ⟨cast, ?_⟩
  unfold exposePrevote
  rw [hcast]
  cases cast <;> rfl

theorem exposePrecommit_eq (cfg : LoopConfig) (node : Node) (vote : ValidatorVoteRecord) :
    ∃ cast, node.exposePrecommit cfg vote
      = { node.handOut cfg vote cast with
          rebroadcastedPrecommit := cast || node.rebroadcastedPrecommit } := by
  obtain ⟨cast, hcast⟩ := submitAndBroadcastSignedVote_eq cfg node vote
  refine ⟨cast, ?_⟩
  unfold exposePrecommit
  rw [hcast]
  cases cast <;> rfl

--
-- Saving
--

/-- What the recovery file may hold after a save that was reported as done. -/
def SavedAs (cfg : LoopConfig) (node : Node) (file : Option ConsensusRoundState) : Prop :=
  (cfg.hasRecoveryPath = true ∧ node.recoveryState.isValid = true
    ∧ file = some node.recoveryState) ∨
  (cfg.hasRecoveryPath = false ∧ file = node.recoveryFile)

/-- What it may hold after a save that was reported as failed. -/
def NotSavedAs (cfg : LoopConfig) (node : Node) (file : Option ConsensusRoundState) : Prop :=
  cfg.hasRecoveryPath = true ∧
    (file = node.recoveryFile ∨
      (node.recoveryState.isValid = true ∧ file = some node.recoveryState))

theorem saveRecoveryState_cases (cfg : LoopConfig) (storage : StorageOutcome) (node : Node) :
    (∃ file, SavedAs cfg node file ∧
      node.saveRecoveryState cfg storage = (true, { node with recoveryFile := file })) ∨
    (∃ file, NotSavedAs cfg node file ∧
      node.saveRecoveryState cfg storage = (false, { node with recoveryFile := file })) := by
  unfold saveRecoveryState
  by_cases hpath : cfg.hasRecoveryPath
  · rw [if_neg (by simp [hpath])]
    rcases recoverySave_cases storage node.recoveryFile node.recoveryState with
      ⟨hvalid, hsave⟩ | ⟨hvalid, hsave⟩ | hsave
    · exact Or.inl ⟨_, Or.inl ⟨hpath, hvalid, rfl⟩, by rw [hsave]⟩
    · exact Or.inr ⟨_, ⟨hpath, Or.inr ⟨hvalid, rfl⟩⟩, by rw [hsave]⟩
    · exact Or.inr ⟨_, ⟨hpath, Or.inl rfl⟩, by rw [hsave]⟩
  · rw [if_pos (by simp [hpath])]
    exact Or.inl ⟨_, Or.inr ⟨by simpa using hpath, rfl⟩, rfl⟩

/-- With a recovery path a save that was reported as done has written. -/
theorem SavedAs.written {cfg : LoopConfig} {node : Node} {file : Option ConsensusRoundState}
    (hpath : cfg.hasRecoveryPath = true) (h : node.SavedAs cfg file) :
    node.recoveryState.isValid = true ∧ file = some node.recoveryState := by
  rcases h with ⟨-, hvalid, hfile⟩ | ⟨hnone, -⟩
  · exact ⟨hvalid, hfile⟩
  · rw [hpath] at hnone
    cases hnone

/-- A state with a nil vote in it is never written. -/
theorem saveRecoveryState_of_invalid {cfg : LoopConfig} {storage : StorageOutcome} {node : Node}
    (h : node.recoveryState.isValid = false) : (node.saveRecoveryState cfg storage).2 = node := by
  unfold saveRecoveryState
  by_cases hpath : cfg.hasRecoveryPath
  · rw [if_neg (by simp [hpath])]
    have hsave : recoverySave storage node.recoveryFile node.recoveryState
        = (false, node.recoveryFile) := by
      unfold recoverySave
      rw [if_pos (by simp [h])]
    rw [hsave]
  · rw [if_pos (by simp [hpath])]

theorem recoveryState_invalid_of_nil_prevote {node : Node} {vote : ValidatorVoteRecord}
    (hvote : node.persistedPrevote = some vote) (hnil : vote.decision = .reject) :
    node.recoveryState.isValid = false := by
  by_contra hvalid
  rw [Bool.not_eq_false] at hvalid
  have hspec := (ConsensusRoundState.isValid_spec hvalid).2.2.1 vote hvote
  rw [hnil] at hspec
  cases hspec.2.2

theorem recoveryState_invalid_of_nil_precommit {node : Node} {vote : ValidatorVoteRecord}
    (hvote : node.persistedPrecommit = some vote) (hnil : vote.decision = .reject) :
    node.recoveryState.isValid = false := by
  by_contra hvalid
  rw [Bool.not_eq_false] at hvalid
  have hspec := (ConsensusRoundState.isValid_spec hvalid).2.2.2.1 vote hvote
  rw [hnil] at hspec
  cases hspec.2.2.1

end Node

--
-- The effects
--

/-- The branches of `tick`. -/
inductive Branch
  | inbox
  | reset
  | nilVote
  | rebroadcast
  | count
  | prevote
  | precommit
  | nilPrecommitOnCandidate
  | certify
  | finalize
  | commitFailed
  | advanceRound
  deriving DecidableEq, Repr

/-- A tick that votes on `candidate` with the validators of `registry`. -/
structure OnCandidate (cfg : LoopConfig) (registry : ValidatorRegistry)
    (candidate : PendingBlockCandidate) (node : Node) : Prop where
  registry_eq : cfg.validatorSets node.height = some registry
  candidate_eq : node.currentCandidate = some candidate
  settled : node.resetPending = false

/-- The candidate of a tick depends on the round state, the pending block and the
heights the reset looks at. -/
theorem OnCandidate.congr {cfg : LoopConfig} {registry : ValidatorRegistry}
    {candidate : PendingBlockCandidate} {node node' : Node}
    (hon : OnCandidate cfg registry candidate node)
    (hstate : node'.roundManager.state = node.roundManager.state)
    (hpending : node'.pendingCandidate = node.pendingCandidate)
    (hlast : node'.lastProcessedHeight = node.lastProcessedHeight)
    (hfinalized : node'.finalizedHeights = node.finalizedHeights) :
    OnCandidate cfg registry candidate node' := by
  obtain ⟨hregistry, hcandidate, hsettled⟩ := hon
  refine ⟨?_, ?_, ?_⟩
  · rw [Node.height, hstate]
    exact hregistry
  · unfold Node.currentCandidate Node.height Node.round at hcandidate ⊢
    rw [hstate, hpending]
    exact hcandidate
  · unfold Node.resetPending Node.resetProbe Node.hasFinalizedHeight Node.height at hsettled ⊢
    rw [hstate, hlast, hfinalized]
    exact hsettled

/-- The block of a tick is for the current height. -/
theorem OnCandidate.index_eq {cfg : LoopConfig} {registry : ValidatorRegistry}
    {candidate : PendingBlockCandidate} {node : Node}
    (hon : OnCandidate cfg registry candidate node) : candidate.block.index = node.height := by
  have hfilter := (Option.filter_eq_some_iff.mp hon.candidate_eq).2
  simp only [Bool.and_eq_true, beq_iff_eq] at hfilter
  exact hfilter.1

/-- The tick has counted the PREVOTEs for `candidate`, and the weight is exact. -/
structure Counted (registry : ValidatorRegistry) (candidate : PendingBlockCandidate)
    (node : Node) : Prop where
  height : node.tally.height = node.height
  round : node.tally.round = node.round
  blockHash : node.tally.blockHash = candidate.block.hash
  weight : node.tally.weight.toNat = (node.tally.voters.map registry.weightOf).sum

theorem Counted.congr {registry : ValidatorRegistry} {candidate : PendingBlockCandidate}
    {node node' : Node} (hcounted : Counted registry candidate node)
    (hstate : node'.roundManager.state = node.roundManager.state)
    (htally : node'.tally = node.tally) : Counted registry candidate node' := by
  obtain ⟨hheight, hround, hhash, hweight⟩ := hcounted
  refine ⟨?_, ?_, ?_, ?_⟩
  · rw [htally, hheight, Node.height, Node.height, hstate]
  · rw [htally, hround, Node.round, Node.round, hstate]
  · rw [htally, hhash]
  · rw [htally, hweight]

/-- The threshold of a tick. -/
def RequiredOf (cfg : LoopConfig) (registry : ValidatorRegistry) (required : UInt64) : Prop :=
  ∃ total, registry.totalConsensusWeight = some total ∧
    requiredVotingWeight total cfg.params.quorumThresholdNumerator
      cfg.params.quorumThresholdDenominator = some required

/-- Without a recovery path no save can fail, so an eligible validator that has not
prevoted when phase B starts was kept from it by the lock rule. -/
def Abstained (cfg : LoopConfig) (registry : ValidatorRegistry)
    (candidate : PendingBlockCandidate) (node : Node) : Prop :=
  cfg.hasRecoveryPath = false → ∀ signer, cfg.signer = some signer →
    registry.isEligibleForConsensus signer.address = true → node.votedPrevote = false →
    node.safeToVote cfg registry candidate = false

/-- The node that tries to save a fresh PREVOTE. -/
def Node.withPrevote (vote : ValidatorVoteRecord) (node : Node) : Node :=
  let node := { node with persistedPrevote := some vote }
  { node with prevoteStates := node.prevoteStates ++ [node.recoveryState] }

/-- The node that tries to save a fresh PRECOMMIT, already locked on its block. -/
def Node.withPrecommit (blockHash : String) (vote : ValidatorVoteRecord) (node : Node) : Node :=
  { node with
    lockedBlock := blockHash, lockedRound := node.round
    persistedPrecommit := some vote }

/-- One effect of a tick. -/
inductive Effect (cfg : LoopConfig) (input : TickInput) : Branch → Node → Node → Prop
  | deliver {node : Node} {vote : ValidatorVoteRecord} (hmem : vote ∈ input.votes) :
      Effect cfg input .inbox node (node.submitConsensusVote cfg vote).2
  | adopt {node : Node} (candidate : Option PendingBlockCandidate) (buffered : List BlockProposal)
      (bufferedHeight bufferedRound : Nat)
      (hcandidate : candidate = node.pendingCandidate ∨
        (node.hasCurrentCandidate = false ∧
          ∃ proposal ∈ node.bufferedProposals ++ input.proposals,
            proposal.block.index = node.height ∧
            candidate = some ⟨proposal.block, node.round, proposal⟩))
      (hbuffered : ∀ proposal ∈ buffered, proposal ∈ node.bufferedProposals ++ input.proposals) :
      Effect cfg input .inbox node
        { node with
          pendingCandidate := candidate, bufferedProposals := buffered
          bufferedProposalHeight := bufferedHeight, bufferedProposalRound := bufferedRound }
  | reset {node : Node} : Effect cfg input .reset node node.resetForHeight
  | nilPrevote {node : Node} {signer : LocalSigner} (hsigner : cfg.signer = some signer)
      (hcandidate : node.currentCandidate = none) (hsettled : node.resetPending = false)
      (hvoted : node.votedPrevote = false) :
      Effect cfg input .nilVote node
        { node.handOut cfg (node.nilVote signer input.now) false with
          persistedPrevote := some (node.nilVote signer input.now), votedPrevote := true }
  | nilPrecommit {node : Node} {signer : LocalSigner} (hsigner : cfg.signer = some signer)
      (hcandidate : node.currentCandidate = none) (hsettled : node.resetPending = false)
      (hprevoted : node.votedPrevote = true) (hvoted : node.votedPrecommit = false) :
      Effect cfg input .nilVote node
        { node.handOut cfg (node.nilVote signer input.now) false with
          persistedPrecommit := some (node.nilVote signer input.now), votedPrecommit := true }
  | rebroadcastPrevote {node : Node} {registry : ValidatorRegistry}
      {candidate : PendingBlockCandidate} {vote : ValidatorVoteRecord} (cast : Bool)
      (hon : OnCandidate cfg registry candidate node)
      (hpersisted : node.persistedPrevote = some vote) (hfresh : node.rebroadcastedPrevote = false)
      (hmatch : Node.persistedVoteMatchesCandidate cfg vote candidate.block node.round .prevote = true) :
      Effect cfg input .rebroadcast node
        { node.handOut cfg vote cast with
          rebroadcastedPrevote := cast || node.rebroadcastedPrevote }
  | rebroadcastPrecommit {node : Node} {registry : ValidatorRegistry}
      {candidate : PendingBlockCandidate} {vote : ValidatorVoteRecord} (cast : Bool)
      (hon : OnCandidate cfg registry candidate node)
      (hpersisted : node.persistedPrecommit = some vote)
      (hfresh : node.rebroadcastedPrecommit = false)
      (hmatch : Node.persistedVoteMatchesCandidate cfg vote candidate.block node.round .precommit
        = true) :
      Effect cfg input .rebroadcast node
        { node.handOut cfg vote cast with
          rebroadcastedPrecommit := cast || node.rebroadcastedPrecommit }
  | count {node : Node} {registry : ValidatorRegistry} {candidate : PendingBlockCandidate}
      {voters : List String} {weight : UInt64} (hon : OnCandidate cfg registry candidate node)
      (htally : Node.tallyPrevotes registry [] 0
        (node.pool.votesForBlock node.height candidate.block.hash node.round)
          = some (voters, weight)) :
      Effect cfg input .count node
        { node with tally := ⟨node.height, node.round, candidate.block.hash, voters, weight⟩ }
  | castPrevote {node : Node} {registry : ValidatorRegistry} {candidate : PendingBlockCandidate}
      {signer : LocalSigner} {vote : ValidatorVoteRecord} {file : Option ConsensusRoundState}
      (cast : Bool) (tally : PrevoteTally)
      (hon : OnCandidate cfg registry candidate node) (hsigner : cfg.signer = some signer)
      (heligible : registry.isEligibleForConsensus signer.address = true)
      (hvoted : node.votedPrevote = false)
      (hsafe : node.safeToVote cfg registry candidate = true)
      (hbuild : buildPrevote cfg registry candidate.block node.round input.now signer = some vote)
      (hfile : Node.SavedAs cfg (node.withPrevote vote) file)
      (htally : tally = node.tally ∨
        (cast = true ∧
          ¬ uint64Max - node.tally.weight < registry.consensusWeightFor signer.address ∧
          tally = { node.tally with
            voters := signer.address :: node.tally.voters
            weight := node.tally.weight + registry.consensusWeightFor signer.address }))
      (hcounted : Counted registry candidate node) :
      Effect cfg input .prevote node
        { Node.handOut cfg vote cast
            { node.withPrevote vote with recoveryFile := file, votedPrevote := true } with
          rebroadcastedPrevote := cast || node.rebroadcastedPrevote, tally := tally }
  | prevoteNotSaved {node : Node} {registry : ValidatorRegistry}
      {candidate : PendingBlockCandidate} {signer : LocalSigner} {vote : ValidatorVoteRecord}
      {file : Option ConsensusRoundState}
      (hon : OnCandidate cfg registry candidate node) (hsigner : cfg.signer = some signer)
      (heligible : registry.isEligibleForConsensus signer.address = true)
      (hvoted : node.votedPrevote = false)
      (hsafe : node.safeToVote cfg registry candidate = true)
      (hbuild : buildPrevote cfg registry candidate.block node.round input.now signer = some vote)
      (hfile : Node.NotSavedAs cfg (node.withPrevote vote) file) :
      Effect cfg input .prevote node
        { node.withPrevote vote with recoveryFile := file, persistedPrevote := none }
  | castPrecommit {node : Node} {registry : ValidatorRegistry} {candidate : PendingBlockCandidate}
      {signer : LocalSigner} {vote : ValidatorVoteRecord} {file : Option ConsensusRoundState}
      {required : UInt64} (cast : Bool)
      (hon : OnCandidate cfg registry candidate node) (hsigner : cfg.signer = some signer)
      (heligible : registry.isEligibleForConsensus signer.address = true)
      (hprevoted : node.votedPrevote = true) (hvoted : node.votedPrecommit = false)
      (hcounted : Counted registry candidate node) (hrequired : RequiredOf cfg registry required)
      (hquorum : required ≤ node.tally.weight)
      (hbuild : buildPrecommit cfg registry candidate.block node.round input.now signer
        = some vote)
      (hfile : Node.SavedAs cfg (node.withPrecommit candidate.block.hash vote) file) :
      Effect cfg input .precommit node
        { Node.handOut cfg vote cast
            { node.withPrecommit candidate.block.hash vote with
              recoveryFile := file, votedPrecommit := true } with
          rebroadcastedPrecommit := cast || node.rebroadcastedPrecommit }
  | precommitNotSaved {node : Node} {registry : ValidatorRegistry}
      {candidate : PendingBlockCandidate} {signer : LocalSigner} {vote : ValidatorVoteRecord}
      {file : Option ConsensusRoundState} {required : UInt64}
      (hon : OnCandidate cfg registry candidate node) (hsigner : cfg.signer = some signer)
      (heligible : registry.isEligibleForConsensus signer.address = true)
      (hprevoted : node.votedPrevote = true) (hvoted : node.votedPrecommit = false)
      (hcounted : Counted registry candidate node) (hrequired : RequiredOf cfg registry required)
      (hquorum : required ≤ node.tally.weight)
      (hbuild : buildPrecommit cfg registry candidate.block node.round input.now signer
        = some vote)
      (hfile : Node.NotSavedAs cfg (node.withPrecommit candidate.block.hash vote) file) :
      Effect cfg input .precommit node
        { node with recoveryFile := file, persistedPrecommit := none }
  | nilPrecommitOnCandidate {node : Node} {registry : ValidatorRegistry}
      {candidate : PendingBlockCandidate} {signer : LocalSigner} (cast : Bool)
      (hon : OnCandidate cfg registry candidate node) (hsigner : cfg.signer = some signer)
      (heligible : registry.isEligibleForConsensus signer.address = true)
      (hprevoted : node.votedPrevote = false) (hvoted : node.votedPrecommit = false)
      (htimeout : node.prevoteTimedOut cfg input.now = true)
      (habstained : Abstained cfg registry candidate node) :
      Effect cfg input .nilPrecommitOnCandidate node
        { node.handOut cfg (node.nilVote signer input.now) cast with
          persistedPrecommit :=
            if cast then some (node.nilVote signer input.now) else node.persistedPrecommit
          votedPrecommit := cast || node.votedPrecommit }
  | certify {node : Node} {registry : ValidatorRegistry} {candidate : PendingBlockCandidate}
      {certificate : QuorumCertificate} (hon : OnCandidate cfg registry candidate node)
      (hcertificate : assembleCertificate cfg.crypto cfg.params registry node.pool candidate.block
        node.round = .ok certificate) :
      Effect cfg input .certify node { node with certified := node.certified ++ [certificate] }
  | finalize {node : Node} {registry : ValidatorRegistry} {candidate : PendingBlockCandidate}
      {record : FinalizedBlockRecord} {file : Option ConsensusRoundState}
      (hon : OnCandidate cfg registry candidate node)
      (hfinalized : tryFinalize cfg.crypto cfg.params (node.hasFinalizedHeight node.height)
        (some registry) node.pool input.chainChecks candidate.block node.round input.now
          = .ok record)
      (hfile : file = node.recoveryFile ∨
        ((node.nextHeightState cfg input.now).isValid = true ∧
          file = some (node.nextHeightState cfg input.now))) :
      Effect cfg input .finalize node
        { node.moveToNextHeight cfg input.now with recoveryFile := file }
  | commitFailed {node : Node} (hstorage : input.commitStorage = .failed true)
      (hvalid : (node.nextHeightState cfg input.now).isValid = true) :
      Effect cfg input .commitFailed node
        { node with recoveryFile := some (node.nextHeightState cfg input.now) }
  | advanceRound {node : Node} :
      Effect cfg input .advanceRound node
        { node with
          roundManager := node.roundManager.advanceRound cfg.crypto (node.round + 1)
            (cfg.selectProposer node.height (node.round + 1)) input.now
          votedPrevote := false, votedPrecommit := false
          persistedPrevote := none, persistedPrecommit := none
          rebroadcastedPrevote := false, rebroadcastedPrecommit := false
          pendingCandidate := none }

/-- Where the tick from `start` is when it enters a branch. Branches without a
condition on them are left open. -/
def Visits (cfg : LoopConfig) (input : TickInput) (start : Node) : Branch → Node → Prop
  | .precommit, node | .nilPrecommitOnCandidate, node =>
    ∃ point, start.reachPrecommit cfg input = .ok point ∧ point.node = node
  | .finalize, node | .commitFailed, node =>
    ∃ point, start.reachCommit cfg input = .ok point ∧ point.node = node
  | _, _ => True

/-- A chain of effects, each entered in a state that `allowed` admits. -/
def Effects (cfg : LoopConfig) (input : TickInput) (allowed : Branch → Node → Prop) :
    Node → Node → Prop :=
  Relation.ReflTransGen fun node node' =>
    ∃ branch, allowed branch node ∧ Effect cfg input branch node node'

section Chains

variable {cfg : LoopConfig} {input : TickInput} {allowed : Branch → Node → Prop}

theorem effects_single {branch : Branch} {node node' : Node} (hallowed : allowed branch node)
    (h : Effect cfg input branch node node') : Effects cfg input allowed node node' :=
  Relation.ReflTransGen.single ⟨branch, hallowed, h⟩

/-- **Invariants of a chain.** What every allowed effect keeps, a chain keeps. -/
theorem effects_invariant {P : Node → Prop} {node node' : Node}
    (hstep : ∀ branch a b, allowed branch a → Effect cfg input branch a b → P a → P b)
    (h : Effects cfg input allowed node node') (hP : P node) : P node' := by
  induction h with
  | refl => exact hP
  | tail _ hlast ih =>
    obtain ⟨branch, hallowed, heffect⟩ := hlast
    exact hstep branch _ _ hallowed heffect ih

/-- A chain under weaker admission. -/
theorem effects_mono {allowed' : Branch → Node → Prop} {node node' : Node}
    (hle : ∀ branch a, allowed branch a → allowed' branch a)
    (h : Effects cfg input allowed node node') : Effects cfg input allowed' node node' := by
  induction h with
  | refl => exact Relation.ReflTransGen.refl
  | tail _ hlast ih =>
    obtain ⟨branch, hallowed, heffect⟩ := hlast
    exact Relation.ReflTransGen.tail ih ⟨branch, hle branch _ hallowed, heffect⟩

end Chains

--
-- The inbox
--

namespace Node

theorem resetForHeight_roundManager (node : Node) :
    node.resetForHeight.roundManager = node.roundManager := by
  unfold resetForHeight
  split_ifs <;> rfl

theorem resetForHeight_height (node : Node) : node.resetForHeight.height = node.height := by
  rw [height, resetForHeight_roundManager, height]

/-- After the reset none is due. -/
theorem resetForHeight_settled (node : Node) : node.resetForHeight.resetPending = false := by
  unfold resetForHeight
  split_ifs with hpending hzero
  · simp [resetPending, height]
  · simp [resetPending, height]
  · simpa using hpending

section Start

variable (cfg : LoopConfig) (input : TickInput) (start : Node)

theorem drainVotes_effects (node : Node) :
    Effects cfg input (Visits cfg input start) node (node.drainVotes cfg input.votes) := by
  -- every prefix of the inbox is drained by `deliver` effects
  have hall : ∀ votes, (∀ vote ∈ votes, vote ∈ input.votes) → ∀ node : Node,
      Effects cfg input (Visits cfg input start) node (node.drainVotes cfg votes) := by
    intro votes
    induction votes with
    | nil => exact fun _ node => Relation.ReflTransGen.refl
    | cons vote rest ih =>
      intro hmem node
      have hrest := fun v hv => hmem v (List.mem_cons_of_mem _ hv)
      rw [drainVotes, List.foldl_cons]
      split_ifs
      · refine Relation.ReflTransGen.trans ?_ (ih hrest _)
        have hvisit : Visits cfg input start .inbox node := trivial
        exact effects_single hvisit (Effect.deliver (hmem vote List.mem_cons_self))
      · exact ih hrest node
  exact hall input.votes (fun _ h => h) node

/-- What reading proposals can change: one becomes the candidate if there was
none, and proposals read are buffered. -/
def Adopted (source : List BlockProposal) (node node' : Node) : Prop :=
  ∃ candidate buffered bufferedHeight bufferedRound,
    node' = { node with
      pendingCandidate := candidate, bufferedProposals := buffered
      bufferedProposalHeight := bufferedHeight, bufferedProposalRound := bufferedRound } ∧
    (candidate = node.pendingCandidate ∨
      (node.hasCurrentCandidate = false ∧ ∃ proposal ∈ source,
        proposal.block.index = node.height ∧
        candidate = some ⟨proposal.block, node.round, proposal⟩)) ∧
    ∀ proposal ∈ buffered, proposal ∈ node.bufferedProposals ++ source

theorem adopted_refl (source : List BlockProposal) (node : Node) : Adopted source node node :=
  ⟨node.pendingCandidate, node.bufferedProposals, node.bufferedProposalHeight,
    node.bufferedProposalRound, rfl, Or.inl rfl, fun _ h => List.mem_append_left _ h⟩

theorem bufferProposal_adopted {source : List BlockProposal} {proposal : BlockProposal}
    (hmem : proposal ∈ source) (node : Node) :
    Adopted source node (node.bufferProposal proposal) := by
  unfold bufferProposal
  split_ifs
  · refine ⟨node.pendingCandidate, _, _, _, rfl, Or.inl rfl, ?_⟩
    intro other hother
    rcases List.mem_append.mp hother with hold | hnew
    · exact List.mem_append_left _ hold
    · rw [List.mem_singleton.mp hnew]
      exact List.mem_append_right _ hmem
  · exact ⟨node.pendingCandidate, _, _, _, rfl, Or.inl rfl,
      fun _ h => List.mem_append_left _ h⟩
  · exact adopted_refl source node

theorem processProposal_adopted {source : List BlockProposal}
    {proposal : BlockProposal} (hmem : proposal ∈ source) (node : Node) :
    Adopted source node (processProposal input node proposal) := by
  unfold processProposal
  dsimp only
  by_cases hskip : (!(input.check proposal).wellFormed || proposal.blockIndex != node.height) = true
  · rw [if_pos hskip]
    exact adopted_refl source node
  rw [if_neg hskip]
  split_ifs with h1 h2 h3 h4 h5 h6
  · exact adopted_refl source node
  · exact adopted_refl source node
  · exact adopted_refl source node
  · exact adopted_refl source node
  · exact adopted_refl source node
  · exact bufferProposal_adopted hmem node
  · -- the block is for the current height, since the proposal is
    have hindex : proposal.block.index = node.height := by
      simp only [Bool.or_eq_true, not_or, bne_iff_ne, ne_eq, not_not] at hskip h3
      rw [h3.1.1.2, hskip.2]
    refine ⟨_, node.bufferedProposals, node.bufferedProposalHeight, node.bufferedProposalRound,
      rfl, Or.inr ⟨by simpa using h4, proposal, hmem, hindex, rfl⟩,
      fun _ h => List.mem_append_left _ h⟩

/-- A candidate once adopted stays, so reading on adopts no second one. -/
theorem adopted_trans {source : List BlockProposal} {a b c : Node}
    (hab : Adopted source a b) (hbc : Adopted source b c) : Adopted source a c := by
  obtain ⟨cand₁, buf₁, bh₁, br₁, rfl, hcand₁, hbuf₁⟩ := hab
  obtain ⟨cand₂, buf₂, bh₂, br₂, rfl, hcand₂, hbuf₂⟩ := hbc
  refine ⟨cand₂, buf₂, bh₂, br₂, rfl, ?_, ?_⟩
  · rcases hcand₂ with rfl | ⟨hnone, proposal, hmem, hindex, rfl⟩
    · exact hcand₁
    · rcases hcand₁ with rfl | ⟨-, other, -, hother, rfl⟩
      · exact Or.inr ⟨hnone, proposal, hmem, hindex, rfl⟩
      · have hcurrent : (Option.any (fun candidate : PendingBlockCandidate =>
            candidate.round == a.round && candidate.block.index == a.height)
            (some ⟨other.block, a.round, other⟩)) = false := hnone
        simp [hother] at hcurrent
  · intro proposal hproposal
    rcases List.mem_append.mp (hbuf₂ proposal hproposal) with hold | hsource
    · exact hbuf₁ proposal hold
    · exact List.mem_append_right _ hsource

theorem foldl_processProposal_adopted {source messages : List BlockProposal}
    (hsub : ∀ proposal ∈ messages, proposal ∈ source) (node : Node) :
    Adopted source node (messages.foldl (processProposal input) node) := by
  induction messages generalizing node with
  | nil => exact adopted_refl source node
  | cons proposal rest ih =>
    rw [List.foldl_cons]
    refine adopted_trans (processProposal_adopted input (hsub proposal List.mem_cons_self) node) ?_
    exact ih (fun p hp => hsub p (List.mem_cons_of_mem _ hp)) _

theorem processBlockProposals_adopted (node : Node) :
    Adopted (node.bufferedProposals ++ input.proposals) node
      (node.processBlockProposals cfg input) := by
  unfold processBlockProposals
  dsimp only
  generalize hdue : (!node.bufferedProposals.isEmpty && node.bufferedProposalHeight == node.height
    && node.bufferedProposalRound == node.round) = due
  generalize (!node.bufferedProposals.isEmpty && (node.bufferedProposalHeight < node.height
    || (node.bufferedProposalHeight == node.height
      && node.bufferedProposalRound < node.round))) = outdated
  have hmessages : ∀ proposal ∈
      (if due = true then node.bufferedProposals ++ input.proposals else input.proposals),
      proposal ∈ node.bufferedProposals ++ input.proposals := by
    intro proposal hproposal
    split_ifs at hproposal
    · exact hproposal
    · exact List.mem_append_right _ hproposal
  have hcleared : Adopted (node.bufferedProposals ++ input.proposals) node
      (if (due || outdated) = true then
        { node with bufferedProposals := [], bufferedProposalHeight := 0, bufferedProposalRound := 0 }
      else node) := by
    split_ifs
    · exact ⟨node.pendingCandidate, [], 0, 0, rfl, Or.inl rfl, by simp⟩
    · exact adopted_refl _ node
  generalize (if (due || outdated) = true then
    { node with bufferedProposals := [], bufferedProposalHeight := 0, bufferedProposalRound := 0 }
    else node) = cleared at hcleared ⊢
  generalize (if due = true then node.bufferedProposals ++ input.proposals else input.proposals)
    = messages at hmessages ⊢
  split
  · exact hcleared
  · split_ifs with hweight
    · exact hcleared
    · exact adopted_trans hcleared (foldl_processProposal_adopted input hmessages _)

theorem processBlockProposals_effects (node : Node) :
    Effects cfg input (Visits cfg input start) node (node.processBlockProposals cfg input) := by
  obtain ⟨candidate, buffered, bufferedHeight, bufferedRound, heq, hcandidate, hbuffered⟩ :=
    processBlockProposals_adopted cfg input node
  rw [heq]
  have hvisit : Visits cfg input start .inbox node := trivial
  refine effects_single hvisit (Effect.adopt candidate buffered _ _ hcandidate ?_)
  intro proposal hproposal
  rcases List.mem_append.mp (hbuffered proposal hproposal) with hold | hsource
  · exact List.mem_append_left _ hold
  · exact hsource

/-- The start of a tick, whether it ends there or not. -/
theorem openTick_effects (node : Node) :
    (∀ node', node.openTick cfg input = .error node' →
      Effects cfg input (Visits cfg input start) node node') ∧
    (∀ registry node', node.openTick cfg input = .ok (registry, node') →
      cfg.validatorSets node'.height = some registry ∧ node'.resetPending = false ∧
      Effects cfg input (Visits cfg input start) node node') := by
  have hdrain := drainVotes_effects cfg input start node
  have hread := Relation.ReflTransGen.trans hdrain
    (processBlockProposals_effects cfg input start (node.drainVotes cfg input.votes))
  unfold openTick
  dsimp only
  split_ifs
  · refine ⟨?_, by simp⟩
    rintro node' ⟨⟩
    exact hdrain
  · split
    · refine ⟨?_, by simp⟩
      rintro node' ⟨⟩
      exact hread
    · rename_i registry hregistry
      refine ⟨by simp, ?_⟩
      rintro registry' node' ⟨⟩
      refine ⟨?_, resetForHeight_settled _, ?_⟩
      · rw [resetForHeight_height]
        exact hregistry
      · have hvisit : Visits cfg input start .reset
            ((node.drainVotes cfg input.votes).processBlockProposals cfg input) := trivial
        exact Relation.ReflTransGen.trans hread (effects_single hvisit Effect.reset)

--
-- Rounds without a candidate
--

theorem nilPrevoteWithoutCandidate_effects (registry : ValidatorRegistry) {node : Node}
    (hcandidate : node.currentCandidate = none) (hsettled : node.resetPending = false) :
    Effects cfg input (Visits cfg input start) node
        (node.nilPrevoteWithoutCandidate cfg registry input) ∧
      (node.nilPrevoteWithoutCandidate cfg registry input).currentCandidate = none ∧
      (node.nilPrevoteWithoutCandidate cfg registry input).resetPending = false := by
  unfold nilPrevoteWithoutCandidate
  split
  · exact ⟨Relation.ReflTransGen.refl, hcandidate, hsettled⟩
  · rename_i signer hsigner
    dsimp only
    split_ifs with hguard
    · -- the save of a nil vote is refused
      rw [submitOwnVote_eq, saveRecoveryState_of_invalid
        (recoveryState_invalid_of_nil_prevote rfl rfl)]
      simp only [Bool.and_eq_true, Bool.not_eq_true'] at hguard
      have hvisit : Visits cfg input start .nilVote node := trivial
      exact ⟨effects_single hvisit (Effect.nilPrevote hsigner hcandidate hsettled hguard.1.2),
        hcandidate, hsettled⟩
    · exact ⟨Relation.ReflTransGen.refl, hcandidate, hsettled⟩

theorem nilPrecommitWithoutCandidate_effects (registry : ValidatorRegistry) {node : Node}
    (hcandidate : node.currentCandidate = none) (hsettled : node.resetPending = false) :
    Effects cfg input (Visits cfg input start) node
      (node.nilPrecommitWithoutCandidate cfg registry input) := by
  unfold nilPrecommitWithoutCandidate
  split
  · exact Relation.ReflTransGen.refl
  · rename_i signer hsigner
    dsimp only
    split_ifs with hguard
    · rw [submitOwnVote_eq, saveRecoveryState_of_invalid
        (recoveryState_invalid_of_nil_precommit rfl rfl)]
      simp only [Bool.and_eq_true, Bool.not_eq_true'] at hguard
      have hvisit : Visits cfg input start .nilVote node := trivial
      exact effects_single hvisit (Effect.nilPrecommit hsigner hcandidate hsettled hguard.1.1.1
        hguard.1.1.2)
    · exact Relation.ReflTransGen.refl

theorem advanceRoundIfTimedOut_effects (node : Node) :
    Effects cfg input (Visits cfg input start) node
      (node.advanceRoundIfTimedOut cfg input.now) := by
  unfold advanceRoundIfTimedOut
  dsimp only
  split_ifs
  · exact Relation.ReflTransGen.refl
  · have hvisit : Visits cfg input start .advanceRound node := trivial
    exact effects_single hvisit Effect.advanceRound

theorem tickWithoutCandidate_effects (registry : ValidatorRegistry) {node : Node}
    (hcandidate : node.currentCandidate = none) (hsettled : node.resetPending = false) :
    Effects cfg input (Visits cfg input start) node
      (node.tickWithoutCandidate cfg registry input) := by
  obtain ⟨hprevote, hstill, hsettled⟩ :=
    nilPrevoteWithoutCandidate_effects cfg input start registry hcandidate hsettled
  have hprecommit := nilPrecommitWithoutCandidate_effects cfg input start registry hstill hsettled
  exact (hprevote.trans hprecommit).trans (advanceRoundIfTimedOut_effects cfg input start _)

--
-- Rounds with a candidate
--

theorem rebroadcastPrevote_effects {registry : ValidatorRegistry}
    {candidate : PendingBlockCandidate} {node : Node}
    (hon : OnCandidate cfg registry candidate node) :
    Effects cfg input (Visits cfg input start) node
        (node.rebroadcastPrevote cfg candidate.block node.round) ∧
      (node.rebroadcastPrevote cfg candidate.block node.round).round = node.round ∧
      OnCandidate cfg registry candidate
        (node.rebroadcastPrevote cfg candidate.block node.round) := by
  unfold rebroadcastPrevote
  split
  · exact ⟨Relation.ReflTransGen.refl, rfl, hon⟩
  · rename_i vote hvote
    split_ifs with hguard
    · simp only [Bool.and_eq_true, Bool.not_eq_true'] at hguard
      obtain ⟨cast, hcast⟩ := exposePrevote_eq cfg node vote
      rw [hcast]
      have hvisit : Visits cfg input start .rebroadcast node := trivial
      exact ⟨effects_single hvisit
        (Effect.rebroadcastPrevote cast hon hvote hguard.1 hguard.2), rfl,
        hon.congr rfl rfl rfl rfl⟩
    · exact ⟨Relation.ReflTransGen.refl, rfl, hon⟩

theorem rebroadcastPrecommit_effects {registry : ValidatorRegistry}
    {candidate : PendingBlockCandidate} {node : Node}
    (hon : OnCandidate cfg registry candidate node) :
    Effects cfg input (Visits cfg input start) node
        (node.rebroadcastPrecommit cfg candidate.block node.round) ∧
      OnCandidate cfg registry candidate
        (node.rebroadcastPrecommit cfg candidate.block node.round) := by
  unfold rebroadcastPrecommit
  split
  · exact ⟨Relation.ReflTransGen.refl, hon⟩
  · rename_i vote hvote
    split_ifs with hguard
    · simp only [Bool.and_eq_true, Bool.not_eq_true'] at hguard
      obtain ⟨cast, hcast⟩ := exposePrecommit_eq cfg node vote
      rw [hcast]
      have hvisit : Visits cfg input start .rebroadcast node := trivial
      exact ⟨effects_single hvisit
        (Effect.rebroadcastPrecommit cast hon hvote hguard.1 hguard.2),
        hon.congr rfl rfl rfl rfl⟩
    · exact ⟨Relation.ReflTransGen.refl, hon⟩

/-- The PREVOTE loop returns distinct voters of its list and their exact weight. -/
theorem tallyPrevotes_spec {registry : ValidatorRegistry} {seen voters : List String}
    {start weight : UInt64} {votes : List ValidatorVoteRecord}
    (h : tallyPrevotes registry seen start votes = some (voters, weight)) (hseen : seen.Nodup)
    (hstart : start.toNat = (seen.map registry.weightOf).sum) :
    voters.Nodup ∧ weight.toNat = (voters.map registry.weightOf).sum ∧
      ∀ address ∈ voters, address ∈ seen ∨
        ∃ vote ∈ votes, vote.decision = .prevote ∧ vote.validatorAddress = address := by
  induction votes generalizing seen start with
  | nil =>
    simp only [tallyPrevotes, Option.some.injEq, Prod.mk.injEq] at h
    obtain ⟨rfl, rfl⟩ := h
    exact ⟨hseen, hstart, fun _ h => Or.inl h⟩
  | cons vote rest ih =>
    rw [tallyPrevotes] at h
    by_cases hcounted : (vote.decision == .prevote
        && !seen.contains vote.validatorAddress) = true
    · rw [if_pos hcounted] at h
      obtain ⟨hguard, h⟩ := Guards.some_of_ite_none h
      simp only [Bool.and_eq_true, beq_iff_eq, Bool.not_eq_true', List.contains_eq_mem,
        decide_eq_false_iff_not] at hcounted
      obtain ⟨hnodup, hweight, hfrom⟩ := ih h (List.nodup_cons.mpr ⟨hcounted.2, hseen⟩) (by
        rw [toNat_add_of_guard hguard, hstart, List.map_cons, List.sum_cons, Nat.add_comm]
        rfl)
      refine ⟨hnodup, hweight, ?_⟩
      intro address haddress
      rcases hfrom address haddress with hin | ⟨other, hother, hvoter⟩
      · rcases List.mem_cons.mp hin with rfl | hold
        · exact Or.inr ⟨vote, List.mem_cons_self, hcounted.1, rfl⟩
        · exact Or.inl hold
      · exact Or.inr ⟨other, List.mem_cons_of_mem _ hother, hvoter⟩
    · rw [if_neg hcounted] at h
      obtain ⟨hnodup, hweight, hfrom⟩ := ih h hseen hstart
      refine ⟨hnodup, hweight, ?_⟩
      intro address haddress
      rcases hfrom address haddress with hin | ⟨other, hother, hvoter⟩
      · exact Or.inl hin
      · exact Or.inr ⟨other, List.mem_cons_of_mem _ hother, hvoter⟩

theorem countPrevotes_effects {registry : ValidatorRegistry} {candidate : PendingBlockCandidate}
    {node node' : Node} {required : UInt64} (hon : OnCandidate cfg registry candidate node)
    (h : node.countPrevotes cfg registry candidate = some (node', required)) :
    Effects cfg input (Visits cfg input start) node node' ∧
      OnCandidate cfg registry candidate node' ∧ Counted registry candidate node' ∧
      RequiredOf cfg registry required := by
  unfold countPrevotes at h
  simp only [Option.bind_eq_bind, Option.bind_eq_some_iff, Prod.exists, Option.pure_def,
    Option.some.injEq, Prod.mk.injEq] at h
  obtain ⟨voters, weight, htally, total, htotal, required', hrequired, rfl, rfl⟩ := h
  have hvisit : Visits cfg input start .count node := trivial
  refine ⟨effects_single hvisit (Effect.count hon htally), hon.congr rfl rfl rfl rfl,
    ⟨rfl, rfl, rfl, ?_⟩, total, htotal, hrequired⟩
  exact (tallyPrevotes_spec htally List.nodup_nil rfl).2.1

--
-- The voting phases
--

/-- A phase ends the tick or goes on in a state with `Q`; either way by effects. -/
def PhaseOutcome (Q : Node → Prop) (node : Node) : Except Node Node → Prop
  | .error node' => Effects cfg input (Visits cfg input start) node node'
  | .ok node' => Effects cfg input (Visits cfg input start) node node' ∧ Q node'

/-- The phases keep the candidate and its count. -/
def Voting (cfg : LoopConfig) (registry : ValidatorRegistry) (candidate : PendingBlockCandidate)
    (node : Node) : Prop :=
  OnCandidate cfg registry candidate node ∧ Counted registry candidate node

/-- Adding the own weight keeps the count exact, or ends the tick. -/
theorem countOwnPrevote_outcome {registry : ValidatorRegistry} {signer : LocalSigner}
    {candidate : PendingBlockCandidate} {node exposed : Node}
    (hvoting : Voting cfg registry candidate exposed)
    (heffects : ∀ tally, tally = exposed.tally ∨
        (¬ uint64Max - exposed.tally.weight < registry.consensusWeightFor signer.address ∧
          tally = { exposed.tally with
            voters := signer.address :: exposed.tally.voters
            weight := exposed.tally.weight + registry.consensusWeightFor signer.address }) →
      Effects cfg input (Visits cfg input start) node { exposed with tally := tally }) :
    PhaseOutcome cfg input start (Voting cfg registry candidate) node
      (exposed.countOwnPrevote registry signer) := by
  obtain ⟨hon, hcounted⟩ := hvoting
  unfold countOwnPrevote
  dsimp only
  split_ifs with hguard
  · exact heffects exposed.tally (Or.inl rfl)
  · refine ⟨heffects _ (Or.inr ⟨hguard, rfl⟩), hon.congr rfl rfl rfl rfl,
      hcounted.height, hcounted.round, hcounted.blockHash, ?_⟩
    show (exposed.tally.weight + registry.consensusWeightFor signer.address).toNat
      = ((signer.address :: exposed.tally.voters).map registry.weightOf).sum
    rw [toNat_add_of_guard hguard, hcounted.weight, List.map_cons, List.sum_cons, Nat.add_comm]
    rfl

/-- The cast of a PREVOTE that could be built. -/
theorem castPrevote_of_build {registry : ValidatorRegistry} {signer : LocalSigner}
    {candidate : PendingBlockCandidate} {node : Node} {vote : ValidatorVoteRecord}
    (hbuild : buildPrevote cfg registry candidate.block node.round input.now signer = some vote) :
    node.castPrevote cfg registry signer input candidate =
      match (node.withPrevote vote).saveRecoveryState cfg input.prevoteStorage with
      | (false, node) => .ok { node with persistedPrevote := none }
      | (true, node) =>
        match exposePrevote cfg vote { node with votedPrevote := true } with
        | (false, node) => .ok node
        | (true, node) => node.countOwnPrevote registry signer := by
  unfold castPrevote
  rw [hbuild]
  rfl

theorem castPrevote_outcome {registry : ValidatorRegistry} {signer : LocalSigner}
    {candidate : PendingBlockCandidate} {node : Node} (hvoting : Voting cfg registry candidate node)
    (hsigner : cfg.signer = some signer)
    (heligible : registry.isEligibleForConsensus signer.address = true)
    (hvoted : node.votedPrevote = false) (hsafe : node.safeToVote cfg registry candidate = true) :
    PhaseOutcome cfg input start (Voting cfg registry candidate) node
      (node.castPrevote cfg registry signer input candidate) := by
  obtain ⟨hon, hcounted⟩ := hvoting
  have hvisit : Visits cfg input start .prevote node := trivial
  cases hbuild : buildPrevote cfg registry candidate.block node.round input.now signer with
  | none =>
    unfold castPrevote
    rw [hbuild]
    exact Relation.ReflTransGen.refl
  | some vote =>
    rw [castPrevote_of_build cfg input hbuild]
    rcases saveRecoveryState_cases cfg input.prevoteStorage (node.withPrevote vote) with
      ⟨file, hfile, hsave⟩ | ⟨file, hfile, hsave⟩
    · rw [hsave]
      dsimp only
      obtain ⟨cast, hcast⟩ := exposePrevote_eq cfg
        { node.withPrevote vote with recoveryFile := file, votedPrevote := true } vote
      rw [hcast]
      have heffect := fun tally htally => effects_single hvisit
        (Effect.castPrevote cast tally hon hsigner heligible hvoted hsafe hbuild hfile htally hcounted)
      cases cast with
      | false =>
        exact ⟨heffect node.tally (Or.inl rfl), hon.congr rfl rfl rfl rfl, hcounted.congr rfl rfl⟩
      | true =>
        refine countOwnPrevote_outcome cfg input start
          ⟨hon.congr rfl rfl rfl rfl, hcounted.congr rfl rfl⟩ ?_
        intro tally htally
        rcases htally with heq | ⟨hguard, heq⟩
        · exact heffect tally (Or.inl heq)
        · exact heffect tally (Or.inr ⟨rfl, hguard, heq⟩)
    · rw [hsave]
      exact ⟨effects_single hvisit
        (Effect.prevoteNotSaved hon hsigner heligible hvoted hsafe hbuild hfile),
        hon.congr rfl rfl rfl rfl, hcounted.congr rfl rfl⟩

theorem prevotePhase_outcome {registry : ValidatorRegistry} {candidate : PendingBlockCandidate}
    {node : Node} (hvoting : Voting cfg registry candidate node) :
    PhaseOutcome cfg input start (Voting cfg registry candidate) node
      (node.prevotePhase cfg registry input candidate) := by
  unfold prevotePhase
  cases hsigner : cfg.signer with
  | none => exact ⟨Relation.ReflTransGen.refl, hvoting⟩
  | some signer =>
    dsimp only
    by_cases hdue : (!node.votedPrevote && registry.isEligibleForConsensus signer.address) = true
    · rw [if_pos hdue]
      simp only [Bool.and_eq_true, Bool.not_eq_true'] at hdue
      by_cases hsafe : node.safeToVote cfg registry candidate = true
      · rw [if_pos hsafe]
        exact castPrevote_outcome cfg input start hvoting hsigner hdue.2 hdue.1 hsafe
      · rw [if_neg hsafe]
        exact ⟨Relation.ReflTransGen.refl, hvoting⟩
    · rw [if_neg hdue]
      split_ifs with htimeout heligible
      · -- not voted and eligible is the first branch
        simp only [Bool.and_eq_true, Bool.not_eq_true'] at htimeout hdue
        exact absurd ⟨htimeout.1, heligible⟩ hdue
      · exact ⟨Relation.ReflTransGen.refl, hvoting⟩
      · exact ⟨Relation.ReflTransGen.refl, hvoting⟩

/-- A PREVOTE that needs no save is cast. -/
theorem castPrevote_voted {registry : ValidatorRegistry} {candidate : PendingBlockCandidate}
    {signer : LocalSigner} {node node' : Node} (hpath : cfg.hasRecoveryPath = false)
    (h : node.castPrevote cfg registry signer input candidate = .ok node') :
    node'.votedPrevote = true := by
  cases hbuild : buildPrevote cfg registry candidate.block node.round input.now signer with
  | none =>
    unfold castPrevote at h
    rw [hbuild] at h
    cases h
  | some vote =>
    rw [castPrevote_of_build cfg input hbuild] at h
    have hsave : (node.withPrevote vote).saveRecoveryState cfg input.prevoteStorage
        = (true, node.withPrevote vote) := by
      rw [saveRecoveryState, if_pos (by simp [hpath])]
    obtain ⟨cast, hcast⟩ := exposePrevote_eq cfg
      { node.withPrevote vote with votedPrevote := true } vote
    rw [hsave] at h
    dsimp only at h
    rw [hcast] at h
    cases cast with
    | false =>
      cases h
      rfl
    | true =>
      unfold countOwnPrevote at h
      dsimp only at h
      split_ifs at h
      cases h
      rfl

theorem prevotePhase_abstained {registry : ValidatorRegistry} {candidate : PendingBlockCandidate}
    {node node' : Node} (h : node.prevotePhase cfg registry input candidate = .ok node') :
    Abstained cfg registry candidate node' := by
  intro hpath signer hsigner heligible hvoted
  unfold prevotePhase at h
  rw [hsigner] at h
  dsimp only at h
  by_cases hprevoted : node.votedPrevote = true
  · -- a flag that is set stays set
    simp only [hprevoted, Bool.not_true, Bool.false_and, Bool.false_eq_true, if_false] at h
    cases h
    rw [hprevoted] at hvoted
    cases hvoted
  · rw [if_pos (by simp [hprevoted, heligible])] at h
    by_cases hsafe : node.safeToVote cfg registry candidate = true
    · rw [if_pos hsafe] at h
      rw [castPrevote_voted cfg input hpath h] at hvoted
      cases hvoted
    · rw [if_neg hsafe] at h
      cases h
      simpa using hsafe

/-- The tick stands at the start of phase B. -/
structure AtPrecommit (point : PrecommitPoint) : Prop where
  reached : start.reachPrecommit cfg input = .ok point
  onCandidate : OnCandidate cfg point.registry point.candidate point.node
  counted : Counted point.registry point.candidate point.node
  required : RequiredOf cfg point.registry point.required
  abstained : Abstained cfg point.registry point.candidate point.node

/-- The cast of a PRECOMMIT that could be built. -/
theorem castPrecommit_of_build {registry : ValidatorRegistry} {signer : LocalSigner}
    {candidate : PendingBlockCandidate} {node : Node} {vote : ValidatorVoteRecord}
    (hbuild : buildPrecommit cfg registry candidate.block node.round input.now signer = some vote) :
    node.castPrecommit cfg registry signer input candidate =
      match (node.withPrecommit candidate.block.hash vote).saveRecoveryState cfg
          input.precommitStorage with
      | (false, saved) =>
        .ok { saved with
          lockedBlock := node.lockedBlock, lockedRound := node.lockedRound
          persistedPrecommit := none }
      | (true, saved) => .ok (exposePrecommit cfg vote { saved with votedPrecommit := true }) := by
  unfold castPrecommit
  rw [hbuild]
  rfl

theorem castPrecommit_outcome {point : PrecommitPoint} {signer : LocalSigner}
    (hpoint : AtPrecommit cfg input start point) (hsigner : cfg.signer = some signer)
    (heligible : point.registry.isEligibleForConsensus signer.address = true)
    (hprevoted : point.node.votedPrevote = true) (hvoted : point.node.votedPrecommit = false)
    (hquorum : point.required ≤ point.node.tally.weight) :
    PhaseOutcome cfg input start (OnCandidate cfg point.registry point.candidate) point.node
      (point.node.castPrecommit cfg point.registry signer input point.candidate) := by
  obtain ⟨hreached, hon, hcounted, hrequired, -⟩ := hpoint
  have hvisit : Visits cfg input start .precommit point.node := ⟨point, hreached, rfl⟩
  cases hbuild : buildPrecommit cfg point.registry point.candidate.block point.node.round input.now
    signer with
  | none =>
    unfold castPrecommit
    rw [hbuild]
    exact Relation.ReflTransGen.refl
  | some vote =>
    rw [castPrecommit_of_build cfg input hbuild]
    rcases saveRecoveryState_cases cfg input.precommitStorage
        (point.node.withPrecommit point.candidate.block.hash vote) with
      ⟨file, hfile, hsave⟩ | ⟨file, hfile, hsave⟩
    · rw [hsave]
      dsimp only
      obtain ⟨cast, hcast⟩ := exposePrecommit_eq cfg
        { point.node.withPrecommit point.candidate.block.hash vote with
          recoveryFile := file, votedPrecommit := true } vote
      rw [hcast]
      exact ⟨effects_single hvisit (Effect.castPrecommit cast hon hsigner heligible hprevoted
        hvoted hcounted hrequired hquorum hbuild hfile), hon.congr rfl rfl rfl rfl⟩
    · rw [hsave]
      exact ⟨effects_single hvisit (Effect.precommitNotSaved hon hsigner heligible hprevoted
        hvoted hcounted hrequired hquorum hbuild hfile), hon.congr rfl rfl rfl rfl⟩

theorem castNilPrecommit_effects {point : PrecommitPoint} {signer : LocalSigner}
    (hpoint : AtPrecommit cfg input start point) (hsigner : cfg.signer = some signer)
    (heligible : point.registry.isEligibleForConsensus signer.address = true)
    (hprevoted : point.node.votedPrevote = false) (hvoted : point.node.votedPrecommit = false)
    (htimeout : point.node.prevoteTimedOut cfg input.now = true) :
    Effects cfg input (Visits cfg input start) point.node
        (point.node.castNilPrecommit cfg signer input) ∧
      OnCandidate cfg point.registry point.candidate
        (point.node.castNilPrecommit cfg signer input) := by
  have hvisit : Visits cfg input start .nilPrecommitOnCandidate point.node :=
    ⟨point, hpoint.reached, rfl⟩
  have hon := hpoint.onCandidate
  unfold castNilPrecommit
  dsimp only
  obtain ⟨cast, hcast⟩ := submitAndBroadcastSignedVote_eq cfg point.node
    (point.node.nilVote signer input.now)
  rw [hcast]
  have heffect := effects_single hvisit (Effect.nilPrecommitOnCandidate cast hon hsigner heligible
    hprevoted hvoted htimeout hpoint.abstained)
  cases cast with
  | false =>
    exact ⟨heffect, hon.congr rfl rfl rfl rfl⟩
  | true =>
    dsimp only
    rw [saveRecoveryState_of_invalid (recoveryState_invalid_of_nil_precommit rfl rfl)]
    exact ⟨heffect, hon.congr rfl rfl rfl rfl⟩

theorem precommitPhase_outcome {point : PrecommitPoint}
    (hpoint : AtPrecommit cfg input start point) :
    PhaseOutcome cfg input start (OnCandidate cfg point.registry point.candidate) point.node
      (point.node.precommitPhase cfg point.registry input point.candidate point.required) := by
  have hon := hpoint.onCandidate
  unfold precommitPhase
  cases hsigner : cfg.signer with
  | none => exact ⟨Relation.ReflTransGen.refl, hon⟩
  | some signer =>
    dsimp only
    by_cases hdue : point.node.precommitDue
        (point.registry.isEligibleForConsensus signer.address) = true
    · rw [if_pos hdue]
      simp only [precommitDue, Bool.and_eq_true, Bool.not_eq_true'] at hdue
      by_cases hquorum : point.required ≤ point.node.tally.weight
      · rw [if_pos hquorum]
        exact castPrecommit_outcome cfg input start hpoint hsigner hdue.2 hdue.1.1 hdue.1.2
          hquorum
      · rw [if_neg hquorum]
        exact ⟨Relation.ReflTransGen.refl, hon⟩
    · rw [if_neg hdue]
      split_ifs with htimeout heligible
      · simp only [Bool.and_eq_true, Bool.not_eq_true'] at htimeout
        -- an eligible validator that has not precommitted has not prevoted either
        have hprevoted : point.node.votedPrevote = false := by
          simpa [precommitDue, htimeout.1, heligible] using hdue
        exact castNilPrecommit_effects cfg input start hpoint hsigner heligible hprevoted
          htimeout.1 htimeout.2
      · exact ⟨Relation.ReflTransGen.refl, hon⟩
      · exact ⟨Relation.ReflTransGen.refl, hon⟩

--
-- The whole tick
--

/-- The part of a tick between the candidate check and phase B. -/
theorem prepareVote_effects {registry : ValidatorRegistry} {candidate : PendingBlockCandidate}
    {node : Node} (hon : OnCandidate cfg registry candidate node) :
    (∀ node', node.prepareVote cfg registry input candidate = .error node' →
      Effects cfg input (Visits cfg input start) node node') ∧
    (∀ point, node.prepareVote cfg registry input candidate = .ok point →
      Effects cfg input (Visits cfg input start) node point.node ∧
      Voting cfg point.registry point.candidate point.node ∧
      RequiredOf cfg point.registry point.required ∧
      Abstained cfg point.registry point.candidate point.node) := by
  obtain ⟨hprevote, hround, hon⟩ := rebroadcastPrevote_effects cfg input start hon
  obtain ⟨hprecommit, hon⟩ := rebroadcastPrecommit_effects cfg input start hon
  rw [hround] at hprecommit hon
  have hsent := hprevote.trans hprecommit
  unfold prepareVote
  dsimp only
  generalize (node.rebroadcastPrevote cfg candidate.block node.round).rebroadcastPrecommit
    cfg candidate.block node.round = sent at hsent hon
  cases hcount : sent.countPrevotes cfg registry candidate with
  | none => exact ⟨fun node' h => by cases h; exact hsent, by simp⟩
  | some result =>
    obtain ⟨counted, required⟩ := result
    obtain ⟨hcounting, hon, hcounted, hrequired⟩ :=
      countPrevotes_effects cfg input start hon hcount
    have hphase := prevotePhase_outcome cfg input start ⟨hon, hcounted⟩
    dsimp only
    cases hprevotes : counted.prevotePhase cfg registry input candidate with
    | error node' =>
      rw [hprevotes] at hphase
      exact ⟨fun node' h => by cases h; exact (hsent.trans hcounting).trans hphase, by simp⟩
    | ok node' =>
      rw [hprevotes] at hphase
      refine ⟨by simp, ?_⟩
      intro point h
      cases h
      exact ⟨(hsent.trans hcounting).trans hphase.1, hphase.2, hrequired,
        prevotePhase_abstained cfg input hprevotes⟩

/-- `tick` up to phase B, whether it gets there or not. -/
theorem reachPrecommit_effects :
    (∀ node, start.reachPrecommit cfg input = .error node →
      Effects cfg input (Visits cfg input start) start node) ∧
    (∀ point, start.reachPrecommit cfg input = .ok point →
      Effects cfg input (Visits cfg input start) start point.node ∧
      AtPrecommit cfg input start point) := by
  obtain ⟨hended, hopened⟩ := openTick_effects cfg input start start
  cases hopen : start.openTick cfg input with
  | error node' =>
    have hreach : start.reachPrecommit cfg input = .error node' := by
      unfold reachPrecommit
      rw [hopen]
    rw [hreach]
    exact ⟨fun node h => by cases h; exact hended node' hopen, by simp⟩
  | ok opened =>
    obtain ⟨registry, opened⟩ := opened
    obtain ⟨hregistry, hsettled, hchain⟩ := hopened registry opened hopen
    cases hcandidate : opened.currentCandidate with
    | none =>
      have hreach : start.reachPrecommit cfg input
          = .error (opened.tickWithoutCandidate cfg registry input) := by
        unfold reachPrecommit
        rw [hopen]
        dsimp only
        rw [hcandidate]
      rw [hreach]
      refine ⟨fun node h => ?_, by simp⟩
      cases h
      exact hchain.trans (tickWithoutCandidate_effects cfg input start registry hcandidate hsettled)
    | some candidate =>
      have hreach : start.reachPrecommit cfg input
          = opened.prepareVote cfg registry input candidate := by
        unfold reachPrecommit
        rw [hopen]
        dsimp only
        rw [hcandidate]
      obtain ⟨hearly, hready⟩ := prepareVote_effects cfg input start
        ⟨hregistry, hcandidate, hsettled⟩
      refine ⟨?_, ?_⟩
      · intro node h
        exact hchain.trans (hearly node (hreach ▸ h))
      · intro point h
        obtain ⟨heffects, hvoting, hrequired, habstained⟩ := hready point (hreach ▸ h)
        exact ⟨hchain.trans heffects, h, hvoting.1, hvoting.2, hrequired, habstained⟩

theorem recordCertificate_effects {registry : ValidatorRegistry}
    {candidate : PendingBlockCandidate} {node : Node}
    (hon : OnCandidate cfg registry candidate node) :
    Effects cfg input (Visits cfg input start) node
        (node.recordCertificate cfg registry candidate) ∧
      OnCandidate cfg registry candidate (node.recordCertificate cfg registry candidate) := by
  unfold recordCertificate
  split
  · rename_i certificate hfinalized hcertificate
    have hvisit : Visits cfg input start .certify node := trivial
    exact ⟨effects_single hvisit (Effect.certify hon hcertificate), hon.congr rfl rfl rfl rfl⟩
  · exact ⟨Relation.ReflTransGen.refl, hon⟩

/-- `tick` up to the commit, whether it gets there or not. -/
theorem reachCommit_effects :
    (∀ node, start.reachCommit cfg input = .error node →
      Effects cfg input (Visits cfg input start) start node) ∧
    (∀ point, start.reachCommit cfg input = .ok point →
      Effects cfg input (Visits cfg input start) start point.node ∧
      OnCandidate cfg point.registry point.candidate point.node) := by
  obtain ⟨hended, hreached⟩ := reachPrecommit_effects cfg input start
  unfold reachCommit
  cases hreach : start.reachPrecommit cfg input with
  | error node' => exact ⟨fun node h => by cases h; exact hended node' hreach, by simp⟩
  | ok point =>
    obtain ⟨hchain, hpoint⟩ := hreached point hreach
    have hphase := precommitPhase_outcome cfg input start hpoint
    dsimp only
    cases hprecommit : point.node.precommitPhase cfg point.registry input point.candidate
      point.required with
    | error node' =>
      rw [hprecommit] at hphase
      exact ⟨fun node h => by cases h; exact hchain.trans hphase, by simp⟩
    | ok node' =>
      rw [hprecommit] at hphase
      refine ⟨by simp, ?_⟩
      intro point' h
      cases h
      obtain ⟨hrecord, hon⟩ := recordCertificate_effects cfg input start hphase.2
      exact ⟨(hchain.trans hphase.1).trans hrecord, hon⟩

theorem commitPhase_effects {point : PrecommitPoint}
    (hpoint : start.reachCommit cfg input = .ok point)
    (hon : OnCandidate cfg point.registry point.candidate point.node) :
    Effects cfg input (Visits cfg input start) point.node
      (point.node.commitPhase cfg point.registry input point.candidate) := by
  have hfinalize : Visits cfg input start .finalize point.node := ⟨point, hpoint, rfl⟩
  have hfailed : Visits cfg input start .commitFailed point.node := ⟨point, hpoint, rfl⟩
  unfold commitPhase
  split
  · rename_i record hfinalized
    split_ifs with hdirectory
    · exact effects_single hfinalize (Effect.finalize hon hfinalized (Or.inl rfl))
    · dsimp only
      by_cases hvalid : (point.node.nextHeightState cfg input.now).isValid
      · have hsave : recoverySave .written point.node.recoveryFile
            (point.node.nextHeightState cfg input.now)
            = (true, some (point.node.nextHeightState cfg input.now)) := by
          unfold recoverySave
          rw [if_neg (by simp [hvalid])]
        rw [hsave]
        cases hstorage : input.commitStorage with
        | persisted =>
          exact effects_single hfinalize (Effect.finalize hon hfinalized (Or.inr ⟨hvalid, rfl⟩))
        | failed replaced =>
          cases replaced with
          | true => exact effects_single hfailed (Effect.commitFailed hstorage hvalid)
          | false => exact Relation.ReflTransGen.refl
      · have hsave : recoverySave .written point.node.recoveryFile
            (point.node.nextHeightState cfg input.now) = (false, point.node.recoveryFile) := by
          unfold recoverySave
          rw [if_pos (by simpa using hvalid)]
        rw [hsave]
        split
        · exact Relation.ReflTransGen.refl
        · split_ifs <;> exact Relation.ReflTransGen.refl
  · exact Relation.ReflTransGen.refl

/-- **A tick is a chain of effects.** -/
theorem tick_effects :
    Effects cfg input (Visits cfg input start) start (start.tick cfg input) := by
  obtain ⟨hended, hreached⟩ := reachCommit_effects cfg input start
  unfold tick
  cases hreach : start.reachCommit cfg input with
  | error node' => exact hended node' hreach
  | ok point =>
    obtain ⟨hchain, hon⟩ := hreached point hreach
    have hcommit := commitPhase_effects cfg input start hreach hon
    exact (hchain.trans hcommit).trans
      (advanceRoundIfTimedOut_effects cfg input start _)

end Start

end Node

end Nodo.Model
