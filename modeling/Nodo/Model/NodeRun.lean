import Nodo.Model.TickEffects

/-!
# Nodo — runs of one node

What happens to a node over its life: ticks, imports that move the height from
outside the loop (`LocalArtifactImportService`, `PersistentBlockStateSync`) or
fail after their snapshot writer replaced the recovery file, and crashes, also
in the middle of a tick, followed by a restart through
`RuntimeStateLoader::loadFromDataDirectory` and `NodeOrchestrator::startConsensus`.

A `RunCondition` restricts the states in which a tick enters its last phases
and the imports of a run; `RunCondition.any` restricts nothing.

## Results

* `tick_admitted` — a tick that meets a condition is a chain of effects that do.
* `reachable_invariant` — an invariant is proved effect by effect, by
  each import and restart.
* `RunInvariant.and` — one invariant is proved on top of another.
-/

namespace Nodo.Model

--
-- Imports
--

/-- A block or snapshot import that moves the runtime to a higher height. An import
of blocks enters its heights in the finalization registry, a snapshot does not. -/
structure SyncMove where
  height : Nat
  finalized : List Nat
  startedAt : Int
  recoveryReplaced : Bool
  deriving DecidableEq, Repr

/-- What an import can look like at a node. -/
structure SyncMove.Admissible (move : SyncMove) (node : Node) : Prop where
  ahead : node.height < move.height
  finalized : ∀ height ∈ move.finalized, node.height ≤ height ∧ height < move.height
  startedAt : 0 < move.startedAt

namespace Node

/-- The vote-free first round of a height. -/
def firstRound (cfg : LoopConfig) (height : Nat) (startedAt : Int) : ConsensusRoundState :=
  ConsensusRoundState.fresh height 1 (cfg.selectProposer height 1) startedAt

/-- The runtime moves, the loop's own fields stay. -/
def sync (cfg : LoopConfig) (move : SyncMove) (node : Node) : Node :=
  { node with
    roundManager := node.roundManager.advanceToHeight cfg.crypto move.height 1
      (cfg.selectProposer move.height 1) move.startedAt
    finalizedHeights := move.finalized ++ node.finalizedHeights
    recoveryFile :=
      if move.recoveryReplaced then
        (recoverySave .written node.recoveryFile (firstRound cfg move.height move.startedAt)).2
      else node.recoveryFile }

/-- An import that failed after `writeRuntimeSnapshot` had saved the recovery
state of its height. -/
def replaceRecovery (cfg : LoopConfig) (height : Nat) (startedAt : Int) (node : Node) : Node :=
  { node with
    recoveryFile := (recoverySave .written node.recoveryFile (firstRound cfg height startedAt)).2 }

end Node

--
-- Restarts
--

/-- What the loader rebuilds from the block files. -/
structure Boot where
  /-- The height of the latest loaded block. -/
  tip : Nat
  /-- The rebuilt finalization registry. -/
  finalized : List Nat
  /-- `latestBlock().timestamp() + 1`. -/
  startedAt : Int
  finalized_le : ∀ height ∈ finalized, height ≤ tip
  startedAt_pos : 0 < startedAt

/-- The round that `loadFromDataDirectory` resumes: the one of the recovery file
if it is for the height after the tip, else the first of that height. -/
def resumedRound (cfg : LoopConfig) (boot : Boot) (file : Option ConsensusRoundState) :
    ConsensusRoundState :=
  match recoveryLoad file with
  | some stored =>
    if stored.height == boot.tip + 1 then
      ConsensusRoundState.fresh stored.height stored.round stored.proposerAddress
        stored.roundStartedAt
    else Node.firstRound cfg (boot.tip + 1) boot.startedAt
  | none => Node.firstRound cfg (boot.tip + 1) boot.startedAt

namespace Node

/-- `loadFromRecoveryState` on a fresh loop over a fresh runtime; the ghost lists
belong to the validator, not to the process. -/
def loadFromRecoveryState (state : ConsensusRoundState) (finalized : List Nat)
    (file : Option ConsensusRoundState) (node : Node) : Node :=
  { node with
    lockedBlock := state.lockedBlockHash, lockedRound := state.lockedRound
    votedPrevote := state.votedPrevote, votedPrecommit := state.votedPrecommit
    persistedPrevote := state.persistedPrevote, persistedPrecommit := state.persistedPrecommit
    rebroadcastedPrevote := false, rebroadcastedPrecommit := false
    lastProcessedHeight := state.height
    pendingCandidate := none
    bufferedProposals := [], bufferedProposalHeight := 0, bufferedProposalRound := 0
    roundManager :=
      ⟨ConsensusRoundState.fresh state.height state.round state.proposerAddress
        state.roundStartedAt, NetworkVoteCollector.init state.height state.round⟩
    finalizedHeights := finalized
    recoveryFile := file
    tally := ⟨0, 0, "", [], 0⟩ }

/-- `NodeOrchestrator::startConsensus`: the state to load and the recovery file
it leaves, or `none` where it refuses to start. -/
def startState (cfg : LoopConfig) (boot : Boot) (file : Option ConsensusRoundState) :
    Option (ConsensusRoundState × Option ConsensusRoundState) :=
  let current := resumedRound cfg boot file
  match recoveryLoad file with
  | none => none
  | some stored =>
    if stored.height < current.height then
      if !boot.finalized.contains stored.height || !current.isValid then none
      else some (current, some current)
    else some (stored, file)

def startConsensus (cfg : LoopConfig) (boot : Boot) (node : Node) : Option Node :=
  let current := resumedRound cfg boot node.recoveryFile
  match startState cfg boot node.recoveryFile with
  | none => none
  | some (recovery, file) =>
    if recovery.height != current.height || recovery.round != current.round
        || recovery.proposerAddress != current.proposerAddress
        || recovery.roundStartedAt != current.roundStartedAt
        || (cfg.validatorSets recovery.height).isNone then none
    else if (cfg.selectProposer recovery.height recovery.round).isEmpty
        || recovery.proposerAddress != cfg.selectProposer recovery.height recovery.round then none
    else some (node.loadFromRecoveryState recovery boot.finalized file)

end Node

--
-- Runs
--

/-- A condition on the steps of a run: on the state in which a tick enters its
PRECOMMIT phase or its commit, on imports, and on whether the node may crash. -/
structure RunCondition where
  precommit : TickInput → Node → Prop
  commit : TickInput → Node → Prop
  sync : SyncMove → Node → Prop
  importFailed : Node → Prop
  crash : Prop

/-- Every step is admitted. -/
def RunCondition.any : RunCondition where
  precommit _ _ := True
  commit _ _ := True
  sync _ _ := True
  importFailed _ := True
  crash := True

/-- The condition, branch by branch. -/
def RunCondition.admits (cond : RunCondition) (input : TickInput) : Branch → Node → Prop
  | .precommit, node | .nilPrecommitOnCandidate, node => cond.precommit input node
  | .finalize, node | .commitFailed, node => cond.commit input node
  | _, _ => True

/-- A tick from `node` meets the condition where it reaches the phases it names. -/
def RunCondition.TickMeets (cond : RunCondition) (cfg : LoopConfig) (input : TickInput)
    (node : Node) : Prop :=
  (∀ point, node.reachPrecommit cfg input = .ok point → cond.precommit input point.node) ∧
  (∀ point, node.reachCommit cfg input = .ok point → cond.commit input point.node)

/-- One step of a run. A crash may hit a tick between any two of its effects. -/
inductive Step (cfg : LoopConfig) (cond : RunCondition) : Node → Node → Prop
  | tick {node : Node} (input : TickInput) (hmeets : cond.TickMeets cfg input node) :
      Step cfg cond node (node.tick cfg input)
  | sync {node : Node} (move : SyncMove) (hadmissible : move.Admissible node)
      (hmeets : cond.sync move node) : Step cfg cond node (node.sync cfg move)
  | importFailed {node : Node} (height : Nat) (startedAt : Int) (hahead : node.height < height)
      (hmeets : cond.importFailed node) :
      Step cfg cond node (node.replaceRecovery cfg height startedAt)
  | restart {node crashed node' : Node} (input : TickInput) (boot : Boot) (hmeets : cond.crash)
      (hcrash : Effects cfg input (cond.admits input) node crashed)
      (hstart : crashed.startConsensus cfg boot = some node') : Step cfg cond node node'

/-- A validator that has not voted yet, at the vote-free state of its data
directory. -/
def Node.initial (state : ConsensusRoundState) (finalized : List Nat) : Node where
  lockedBlock := state.lockedBlockHash
  lockedRound := state.lockedRound
  votedPrevote := state.votedPrevote
  votedPrecommit := state.votedPrecommit
  persistedPrevote := state.persistedPrevote
  persistedPrecommit := state.persistedPrecommit
  rebroadcastedPrevote := false
  rebroadcastedPrecommit := false
  lastProcessedHeight := state.height
  pendingCandidate := none
  bufferedProposals := []
  bufferedProposalHeight := 0
  bufferedProposalRound := 0
  roundManager := ⟨state, NetworkVoteCollector.init state.height state.round⟩
  finalizedHeights := finalized
  recoveryFile := some state
  tally := ⟨0, 0, "", [], 0⟩
  handed := []
  broadcasts := []
  prevoteStates := []
  certified := []

/-- The nodes a run can start from. -/
inductive Initial (cfg : LoopConfig) : Node → Prop
  | intro (height round : Nat) (startedAt : Int) (finalized : List Nat)
      (hvalid : (ConsensusRoundState.fresh height round (cfg.selectProposer height round)
        startedAt).isValid = true)
      (hfinalized : ∀ k ∈ finalized, k < height) :
      Initial cfg (Node.initial (ConsensusRoundState.fresh height round
        (cfg.selectProposer height round) startedAt) finalized)

/-- The nodes that a run under a condition reaches. -/
inductive Reachable (cfg : LoopConfig) (cond : RunCondition) : Node → Prop
  | initial {node : Node} (h : Initial cfg node) : Reachable cfg cond node
  | step {node node' : Node} (hreach : Reachable cfg cond node) (hstep : Step cfg cond node node') :
      Reachable cfg cond node'

--
-- The invariant rule
--

/-- A tick that meets a condition only enters branches the condition admits. -/
theorem tick_admitted {cfg : LoopConfig} {cond : RunCondition} {input : TickInput} {node : Node}
    (hmeets : cond.TickMeets cfg input node) :
    Effects cfg input (cond.admits input) node (node.tick cfg input) := by
  refine effects_mono ?_ (Node.tick_effects cfg input node)
  intro branch mid hvisit
  cases branch with
  | precommit =>
    obtain ⟨point, hpoint, rfl⟩ := hvisit
    exact hmeets.1 point hpoint
  | nilPrecommitOnCandidate =>
    obtain ⟨point, hpoint, rfl⟩ := hvisit
    exact hmeets.1 point hpoint
  | finalize =>
    obtain ⟨point, hpoint, rfl⟩ := hvisit
    exact hmeets.2 point hpoint
  | commitFailed =>
    obtain ⟨point, hpoint, rfl⟩ := hvisit
    exact hmeets.2 point hpoint
  | inbox => trivial
  | reset => trivial
  | nilVote => trivial
  | rebroadcast => trivial
  | count => trivial
  | prevote => trivial
  | certify => trivial
  | advanceRound => trivial

/-- What the steps of a run must keep. -/
structure RunInvariant (cfg : LoopConfig) (cond : RunCondition) (P : Node → Prop) : Prop where
  initial : ∀ node, Initial cfg node → P node
  effect : ∀ input branch node node', cond.admits input branch node →
    Effect cfg input branch node node' → P node → P node'
  sync : ∀ move node, move.Admissible node → cond.sync move node → P node →
    P (node.sync cfg move)
  importFailed : ∀ height startedAt node, node.height < height → cond.importFailed node → P node →
    P (node.replaceRecovery cfg height startedAt)
  restart : ∀ boot node node', cond.crash → node.startConsensus cfg boot = some node' → P node →
    P node'

/-- **Invariants of a run.** -/
theorem reachable_invariant {cfg : LoopConfig} {cond : RunCondition} {P : Node → Prop}
    (hinv : RunInvariant cfg cond P) {node : Node} (h : Reachable cfg cond node) : P node := by
  induction h with
  | initial hinit => exact hinv.initial _ hinit
  | step _ hstep ih =>
    cases hstep with
    | tick input hmeets =>
      exact effects_invariant (fun branch a b => hinv.effect input branch a b)
        (tick_admitted hmeets) ih
    | sync move hadmissible hmeets => exact hinv.sync move _ hadmissible hmeets ih
    | importFailed height startedAt hahead hmeets =>
      exact hinv.importFailed height startedAt _ hahead hmeets ih
    | restart input boot hmeets hcrash hstart =>
      refine hinv.restart boot _ _ hmeets hstart ?_
      exact effects_invariant (fun branch a b => hinv.effect input branch a b) hcrash ih

/-- What the steps of a run must keep where `Q` is already known to hold. -/
structure RunInvariantUnder (cfg : LoopConfig) (cond : RunCondition) (Q P : Node → Prop) :
    Prop where
  initial : ∀ node, Initial cfg node → P node
  effect : ∀ input branch node node', cond.admits input branch node →
    Effect cfg input branch node node' → Q node → P node → P node'
  sync : ∀ move node, move.Admissible node → cond.sync move node → Q node → P node →
    P (node.sync cfg move)
  importFailed : ∀ height startedAt node, node.height < height → cond.importFailed node → Q node →
    P node → P (node.replaceRecovery cfg height startedAt)
  restart : ∀ boot node node', cond.crash → node.startConsensus cfg boot = some node' → Q node →
    P node → P node'

/-- One invariant proved on top of another. -/
theorem RunInvariant.and {cfg : LoopConfig} {cond : RunCondition} {Q P : Node → Prop}
    (hQ : RunInvariant cfg cond Q) (hP : RunInvariantUnder cfg cond Q P) :
    RunInvariant cfg cond (fun node => Q node ∧ P node) where
  initial node h := ⟨hQ.initial node h, hP.initial node h⟩
  effect input branch node node' hadmits heffect h :=
    ⟨hQ.effect input branch node node' hadmits heffect h.1,
      hP.effect input branch node node' hadmits heffect h.1 h.2⟩
  sync move node hadmissible hmeets h :=
    ⟨hQ.sync move node hadmissible hmeets h.1, hP.sync move node hadmissible hmeets h.1 h.2⟩
  importFailed height startedAt node hahead hmeets h :=
    ⟨hQ.importFailed height startedAt node hahead hmeets h.1,
      hP.importFailed height startedAt node hahead hmeets h.1 h.2⟩
  restart boot node node' hcrash hstart h :=
    ⟨hQ.restart boot node node' hcrash hstart h.1, hP.restart boot node node' hcrash hstart h.1 h.2⟩

--
-- A concrete validator
--

/-- The signer of one of the four validators. -/
def sampleSigner (name : String) : LocalSigner where
  address := name
  publicKey := sampleKey name
  sign payload :=
    [⟨.nodoCryptoSuiteV1, .validatorVote, .bls12381, sampleKey name, "00", payload.createdAt⟩]

/-- Validator `name` of the four, at every height. -/
def sampleLoop (name : String) : LoopConfig where
  crypto := sampleCrypto
  params := sampleParams
  validatorSets _ := some sampleRegistry
  validatorSets_valid := by
    rintro _ registry ⟨⟩
    decide +kernel
  lottery _ _ := 0
  blockBodyIsValid _ := true
  signer := some (sampleSigner name)
  hasRecoveryPath := true
  hasDataDirectory := true

/-- The proposal of a block for a round, without a justification. -/
def sampleProposal (block : Block) (round : Nat) : BlockProposal :=
  ⟨block.index, round, block.hash, "a", block, none⟩

/-- A tick on which all storage works and all checks pass. -/
def sampleTick (now : Int) (hnow : 0 < now) (votes : List ValidatorVoteRecord)
    (proposals : List BlockProposal) : TickInput where
  now := now
  now_pos := hnow
  chainEmpty := false
  votes := votes
  proposals := proposals
  check _ := ⟨true, true, true, true, true⟩
  prevoteStorage := .written
  precommitStorage := .written
  chainChecks := .allPass
  commitStorage := .persisted

-- The times of concrete ticks.
theorem sixth_pos : (0 : Int) < 6 := by decide

theorem twentyFirst_pos : (0 : Int) < 21 := by decide

/-- The validator before its first vote, at height 1. -/
def sampleStart : Node := Node.initial (ConsensusRoundState.fresh 1 1 "a" 1) []

theorem sampleStart_initial (name : String) : Initial (sampleLoop name) sampleStart := by
  have hproposer : (sampleLoop name).selectProposer 1 1 = "a" := by
    show ((some sampleRegistry).bind (fun registry => selectProposer registry 0)).getD "" = "a"
    decide +kernel
  have hinit := @Initial.intro (sampleLoop name) 1 1 1 []
    (by rw [hproposer]; decide +kernel) (by simp)
  rw [hproposer] at hinit
  exact hinit

/-- A tick of an unrestricted run. -/
theorem Reachable.tick {cfg : LoopConfig} {node : Node} (h : Reachable cfg .any node)
    (input : TickInput) : Reachable cfg .any (node.tick cfg input) :=
  h.step (Step.tick input ⟨fun _ _ => trivial, fun _ _ => trivial⟩)

/-- A crash between two ticks of an unrestricted run. -/
theorem Reachable.restart {cfg : LoopConfig} {node node' : Node} (h : Reachable cfg .any node)
    (input : TickInput) (boot : Boot) (hstart : node.startConsensus cfg boot = some node') :
    Reachable cfg .any node' :=
  h.step (Step.restart input boot trivial Relation.ReflTransGen.refl hstart)

end Nodo.Model
