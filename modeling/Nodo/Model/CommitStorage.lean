import Nodo.Lib.FileStore
import Nodo.Model.RoundState
import Nodo.Model.Blockchain

/-!
# Nodo — the data directory during commits and restarts

`node/FinalizedBlockStore.cpp`, `node/NodeDataDirectory.cpp`, `node/RuntimeStateLoader.cpp`
and the start of the consensus loop in `node/NodeOrchestrator.cpp`. The data directory is a
map from files to what they decode to, and each write or removal of a file is atomic. A
commit that is interrupted, or that returns an error from one of its operations, has
performed a prefix of its operations. The recovery file has two writers: the event loop
saves votes to it, and the snapshot of a commit replaces it with the vote-free state of the
next height, one operation before the manifest moves to that height.

## Results

* `StoreCall.marks` — what a commit does to the recovery file and the manifest.
* `StorageNode.kept_step` — a step that does not stop between these two writes keeps the memory.
* `restart_remembers` — in a run without such a stop every restart finds the last saved
  state of the height it resumes, where the validator has voted at it.
* `commit_stop_forgets` — a commit that stops there leaves a height without its votes.
-/

namespace Nodo.Model

open FileStore FileStore.Program

--
-- The files
--

/-- `utils::isSafeIdentifier`. -/
def isSafeIdentifier (extra value : String) : Bool :=
  !value.isEmpty && value.toList.all (fun c =>
    ('a' ≤ c && c ≤ 'z') || ('A' ≤ c && c ≤ 'Z') || ('0' ≤ c && c ≤ '9') || extra.toList.contains c)

/-- 64 hexadecimal digits in lower case, not all of them zero. -/
def isCanonicalHashString (value : String) : Bool :=
  ChainBlock.isCanonicalCommitmentRoot value && value.toList.any (· != '0')

structure NodeRuntimeManifest where
  chainId : String
  networkName : String
  protocolVersion : String
  genesisConfigId : String
  latestBlockHeight : Nat
  latestBlockHash : String
  latestStateRoot : String
  validatorCount : Nat
  peerCount : Nat
  createdAt : Int
  updatedAt : Int
  deriving DecidableEq

def NodeRuntimeManifest.isValid (manifest : NodeRuntimeManifest) : Bool :=
  isSafeIdentifier "_-.:/#" manifest.chainId && isSafeIdentifier "_-.:/#" manifest.networkName
    && isSafeIdentifier "_-.:/#" manifest.protocolVersion
    && isCanonicalHashString manifest.genesisConfigId
    && isCanonicalHashString manifest.latestBlockHash
    && isCanonicalHashString manifest.latestStateRoot
    && 0 < manifest.validatorCount && 0 < manifest.createdAt
    && manifest.createdAt ≤ manifest.updatedAt

/-- `FinalizedBlockArtifact`: the block, its state root and the text of its other sections. -/
structure FinalizedBlockArtifact where
  block : ChainBlock
  postStateRoot : String
  sections : String
  deriving DecidableEq

/-- The journal of a commit in progress. -/
structure CommitJournal where
  targetHeight : Nat
  targetBlockHash : String
  targetStateRoot : String
  transactionIds : List String
  deriving DecidableEq

structure PersistentSnapshotSyncManifest where
  sourcePeerId : String
  snapshotHeight : Nat
  snapshotBlockHash : String
  snapshotStateRoot : String
  snapshotDigest : String
  createdAt : Int
  deriving DecidableEq

def PersistentSnapshotSyncManifest.isValid (manifest : PersistentSnapshotSyncManifest) : Bool :=
  let isSafe value := isSafeIdentifier "_-.:/" value && value.length ≤ 240
  isSafe manifest.sourcePeerId && 0 < manifest.snapshotHeight && isSafe manifest.snapshotBlockHash
    && isSafe manifest.snapshotStateRoot && isSafe manifest.snapshotDigest && 0 < manifest.createdAt

/-- The files that commits and restarts touch; `history` are those of the checkpoint and
pruning services. -/
inductive DataFile
  | manifest
  | runtimeSnapshot
  | fastSyncSnapshot (height : Nat)
  | fastSyncLatest
  | consensusRecovery
  | commitJournal
  | block (index : Nat)
  | mempoolTransaction (transactionId : String)
  | epochSnapshotManifest
  | history (path : String)
  deriving DecidableEq

/-- What each file decodes to. -/
@[reducible] def DataFile.Contents : DataFile → Type
  | manifest => NodeRuntimeManifest
  | runtimeSnapshot => String
  | fastSyncSnapshot _ => String
  | fastSyncLatest => Nat
  | consensusRecovery => ConsensusRoundState
  | commitJournal => CommitJournal
  | block _ => FinalizedBlockArtifact
  | mempoolTransaction _ => String
  | epochSnapshotManifest => PersistentSnapshotSyncManifest
  | history _ => String

abbrev DataDirectory := Directory DataFile.Contents

/-- Storage code of the node, with the error it returns or throws. -/
abbrev Storage := Program DataFile.Contents

--
-- The runtime and the results a commit publishes
--

/-- What the store reads of a staged `NodeRuntime`, the one to which the certified blocks
have been applied. -/
structure StagedRuntime where
  isValid : Bool
  chainId : String
  networkName : String
  protocolVersion : String
  genesisConfigId : String
  genesisStateRoot : String
  blockCount : Nat
  latestBlock : ChainBlock
  validatorCount : Nat
  peerCount : Nat
  serialized : String
  /-- The text of the fast-sync snapshot, where it can be built and is valid. -/
  fastSyncSnapshot : Option String
  nextProposer : String
  finalizedAt : Int

namespace StagedRuntime

def tip (runtime : StagedRuntime) : Nat := runtime.latestBlock.index.toNat

/-- Applying a certified block has advanced the round manager to the next height. -/
def currentState (runtime : StagedRuntime) : ConsensusRoundState :=
  .fresh (runtime.tip + 1) 1 runtime.nextProposer (runtime.finalizedAt + 1)

/-- `latestStateRootForRuntime`; `none` where it throws. -/
def latestStateRoot (runtime : StagedRuntime) : Option String :=
  let stateRoot :=
    if runtime.latestBlock.stateRoot.isEmpty && runtime.blockCount == 1
        && runtime.latestBlock.isGenesisBlock then runtime.genesisStateRoot
    else runtime.latestBlock.stateRoot
  if stateRoot.isEmpty then none else some stateRoot

/-- `NodeRuntimeManifest::fromRuntime`. -/
def manifest (runtime : StagedRuntime) (stateRoot : String) (createdAt updatedAt : Int) :
    NodeRuntimeManifest where
  chainId := runtime.chainId
  networkName := runtime.networkName
  protocolVersion := runtime.protocolVersion
  genesisConfigId := runtime.genesisConfigId
  latestBlockHeight := runtime.tip
  latestBlockHash := runtime.latestBlock.hash
  latestStateRoot := stateRoot
  validatorCount := runtime.validatorCount
  peerCount := runtime.peerCount
  createdAt := createdAt
  updatedAt := updatedAt

end StagedRuntime

/-- `RuntimeBlockPipelineResult`, with the outcome of each audit `persist` makes of it. -/
structure RuntimeBlockPipelineResult where
  finalized : Bool
  block : ChainBlock
  postStateRoot : String
  finalizedTransactionIds : List String
  snapshotDigest : String
  sections : String
  monetaryFirewall : Bool
  protectionTreasury : Bool
  controlledIssuance : Bool
  feeEconomics : Bool
  supplyDelta : Bool
  protectionReward : Bool
  slashingEvidence : Bool
  cryptographicSlashing : Bool
  governance : Bool
  validatorLifecycle : Bool

namespace RuntimeBlockPipelineResult

def artifact (result : RuntimeBlockPipelineResult) : FinalizedBlockArtifact :=
  ⟨result.block, result.postStateRoot, result.sections⟩

/-- The audits of `persist` with the reason each gives for a rejection. -/
def audits (result : RuntimeBlockPipelineResult) : List (Bool × String) :=
  [(result.finalized, "Runtime block pipeline result is not finalized."),
    (result.monetaryFirewall, "Runtime block pipeline result failed monetary firewall audit."),
    (result.protectionTreasury, "Runtime block pipeline result failed protection treasury audit."),
    (result.controlledIssuance, "Runtime block pipeline result failed controlled issuance audit."),
    (result.feeEconomics, "Runtime block pipeline result failed fee economics audit."),
    (result.supplyDelta, "Runtime block pipeline result has invalid SupplyDelta."),
    (result.protectionReward,
      "Runtime block pipeline result failed real protection reward audit."),
    (result.slashingEvidence, "Runtime block pipeline result failed slashing evidence audit."),
    (result.cryptographicSlashing,
      "Runtime block pipeline result failed cryptographic slashing audit."),
    (result.governance, "Runtime block pipeline result failed governance audit."),
    (result.validatorLifecycle, "Runtime block pipeline result failed validator lifecycle audit.")]

end RuntimeBlockPipelineResult

inductive FinalizedBlockStoreStatus
  | stored
  | alreadyStored
  | invalidConfig
  | invalidRuntime
  | invalidPipelineResult
  | notInitialized
  | conflictingBlockFile
  | ioError
  deriving DecidableEq

/-- A rejected `FinalizedBlockStoreResult`. -/
structure StoreRejection where
  status : FinalizedBlockStoreStatus
  reason : String
  deriving DecidableEq

/-- The files whose contents decide what a restart resumes and remembers. -/
def isVotingFile : DataFile → Bool
  | .manifest => true
  | .consensusRecovery => true
  | _ => false

/-- What the store and the loader rely on outside these files: the checkpoint and pruning
services, the listing of the snapshot directory, and the replay of blocks. -/
structure StorageEnvironment where
  genesisConfigId : String
  /-- `CheckpointService::onBlockFinalized`, then `NodePruningService::applyConfiguredPolicy`. -/
  maintenance : StagedRuntime → NodeRuntimeManifest → Int → Storage String Unit
  maintenance_quiet : ∀ runtime manifest updatedAt,
    Quiet isVotingFile (maintenance runtime manifest updatedAt)
  /-- `HistoryPruningEngine::recover`, then `validateManifestAgainstRuntime`. -/
  pruningRecovery : NodeRuntimeManifest → Storage String Unit
  pruningRecovery_quiet : ∀ manifest, Quiet isVotingFile (pruningRecovery manifest)
  /-- The heights of the snapshots in the fast-sync directory. -/
  snapshotHeights : DataDirectory → List Nat
  ReplayState : Type
  genesis : ReplayState
  /-- Validation, finalization and replay of one block artifact. -/
  replayBlock : ReplayState → FinalizedBlockArtifact → Except String ReplayState
  latestBlock : ReplayState → ChainBlock
  stateRoot : ReplayState → String
  /-- `ProposerSchedule::selectProposer`, where the history has a set for the height. -/
  selectProposer : ReplayState → Nat → Nat → Option String
  genesisRound : ConsensusRoundState
  /-- The mempool load and the audits after the replay. -/
  finalAudit : DataDirectory → NodeRuntimeManifest → ReplayState → Bool

--
-- The store
--

/-- `NodeDataDirectory::loadManifest`. -/
def loadManifest : Storage String NodeRuntimeManifest := do
  match ← read DataFile.manifest with
  | none => reject "Node data directory is not initialized."
  | some manifest =>
    if NodeRuntimeManifest.isValid manifest then pure manifest else reject "Invalid manifest file."

/-- `isSafeTransactionId`. -/
def isSafeTransactionId (transactionId : String) : Bool :=
  !transactionId.isEmpty && transactionId.toList.all (fun c =>
    ('0' ≤ c && c ≤ '9') || ('a' ≤ c && c ≤ 'f') || ('A' ≤ c && c ≤ 'F'))

/-- `PersistentMempoolStore::removeTransactions`. -/
def removeTransactions : List String → Storage String Unit
  | [] => pure ()
  | transactionId :: rest => do
    require (isSafeTransactionId transactionId) "Unsafe transaction id for mempool path."
    perform (.remove (.mempoolTransaction transactionId))
    removeTransactions rest

/-- Whether the manifest, or the block file below it, shows that the journaled commit was
published. -/
def commitPublished (journal : CommitJournal) (manifest : NodeRuntimeManifest) :
    Storage String Bool :=
  if manifest.latestBlockHeight = journal.targetHeight then
    pure (manifest.latestBlockHash == journal.targetBlockHash
      && manifest.latestStateRoot == journal.targetStateRoot)
  else if journal.targetHeight < manifest.latestBlockHeight then do
    match ← read (DataFile.block journal.targetHeight) with
    | none => reject "Unable to read the finalized block artifact."
    | some (artifact : FinalizedBlockArtifact) =>
      pure (artifact.block.hash == journal.targetBlockHash
        && artifact.postStateRoot == journal.targetStateRoot)
  else pure false

/-- `FinalizedBlockStore::recoverInterruptedCommit`: it cleans the mempool of a published
commit and drops the journal. -/
def recoverInterruptedCommit : Storage String Unit := do
  match ← read DataFile.commitJournal with
  | none => pure ()
  | some (journal : CommitJournal) =>
    require (journal.targetHeight != 0
      && ChainBlock.isCanonicalCommitmentRoot journal.targetBlockHash
      && ChainBlock.isCanonicalCommitmentRoot journal.targetStateRoot)
      "Finalization journal bounds are invalid."
    let manifest ← loadManifest.mapError
      (fun _ => "Cannot recover finalization without a valid manifest.")
    let published ← commitPublished journal manifest
    removeTransactions (if published then journal.transactionIds else [])
    perform (.remove DataFile.commitJournal)

/-- `FastSyncSnapshotStore::save`, with the removal of the snapshots it supersedes. -/
def saveFastSyncSnapshot (env : StorageEnvironment) (height : Nat) (text : String) :
    Storage String Unit := do
  perform (.write (DataFile.fastSyncSnapshot height) text)
  perform (.write DataFile.fastSyncLatest height)
  let superseded : List Nat ← fun directory =>
    let heights := env.snapshotHeights directory
    ([], .ok (heights.filter (fun other => other != height && other != heights.foldl max 0)))
  performAll (superseded.map (fun other => .remove (DataFile.fastSyncSnapshot other)))

/-- The fast-sync part of `writeRuntimeSnapshot`, which a genesis runtime has not. -/
def writeFastSyncSnapshot (env : StorageEnvironment) (runtime : StagedRuntime) :
    Storage String Unit :=
  if runtime.tip = 0 then pure ()
  else match runtime.fastSyncSnapshot with
    | none => reject "Failed to persist fast-sync snapshot."
    | some text => saveFastSyncSnapshot env runtime.tip text

/-- `NodeDataDirectory::writeRuntimeSnapshot`. The recovery file goes before the manifest. -/
def writeRuntimeSnapshot (env : StorageEnvironment) (runtime : StagedRuntime) (updatedAt : Int) :
    Storage String NodeRuntimeManifest := do
  require runtime.isValid "Runtime is invalid."
  let loaded ← loadManifest
  match runtime.latestStateRoot with
  | none => reject "Runtime protocol state root is empty."
  | some stateRoot =>
    perform (.write DataFile.runtimeSnapshot (runtime.serialized ++ "\n"))
    writeFastSyncSnapshot env runtime
    require runtime.currentState.isValid "Failed to persist consensus recovery state."
    perform (.write DataFile.consensusRecovery runtime.currentState)
    perform (.write DataFile.manifest (runtime.manifest stateRoot loaded.createdAt updatedAt))
    pure (runtime.manifest stateRoot loaded.createdAt updatedAt)

/-- The checks of `persist` and their rejections, in the order of the source. -/
def requireAll : List (Bool × StoreRejection) → Storage StoreRejection Unit
  | [] => pure ()
  | (check, rejection) :: rest => do
    require check rejection
    requireAll rest

/-- The snapshot of a commit, its check against the result and the mempool cleanup. -/
def publishSnapshot (env : StorageEnvironment) (runtime : StagedRuntime) (updatedAt : Int)
    (postStateRoot mismatch : String) (transactionIds : List String) :
    Storage StoreRejection NodeRuntimeManifest := do
  let manifest ← (writeRuntimeSnapshot env runtime updatedAt).mapError (⟨.ioError, ·⟩)
  require (manifest.latestStateRoot == postStateRoot) ⟨.ioError, mismatch⟩
  (removeTransactions transactionIds).mapError (⟨.ioError, ·⟩)
  pure manifest

/-- The end of a commit: the journal goes, checkpoints and pruning follow. -/
def finishCommit (env : StorageEnvironment) (runtime : StagedRuntime) (updatedAt : Int)
    (manifest : NodeRuntimeManifest) (failure : String) : Storage StoreRejection Unit := do
  perform (.remove DataFile.commitJournal)
  (env.maintenance runtime manifest updatedAt).mapError (fun reason => ⟨.ioError, failure ++ reason⟩)

/-- The snapshot commitment of an epoch boundary. -/
def writeEpochManifest (runtime : StagedRuntime) (result : RuntimeBlockPipelineResult)
    (updatedAt : Int) : Storage StoreRejection Unit :=
  let epochManifest : PersistentSnapshotSyncManifest :=
    ⟨runtime.chainId, result.block.index.toNat, result.block.hash, result.postStateRoot,
      result.snapshotDigest, updatedAt⟩
  if !result.snapshotDigest.isEmpty && epochManifest.isValid then
    perform (.write DataFile.epochSnapshotManifest epochManifest)
  else pure ()

/-- `FinalizedBlockStore::persist`. -/
def persist (env : StorageEnvironment) (runtime : StagedRuntime)
    (result : RuntimeBlockPipelineResult) (updatedAt : Int) :
    Storage StoreRejection FinalizedBlockStoreStatus := do
  recoverInterruptedCommit.mapError
    (fun reason => ⟨.ioError, "Failed to recover interrupted finalization commit: " ++ reason⟩)
  require runtime.isValid ⟨.invalidRuntime, "Runtime is invalid."⟩
  requireAll (result.audits.map fun audit => (audit.1, ⟨.invalidPipelineResult, audit.2⟩))
  let existingManifest ← loadManifest.mapError (⟨.notInitialized, ·⟩)
  require (existingManifest.genesisConfigId == runtime.genesisConfigId)
    ⟨.invalidRuntime, "Runtime genesis does not match data directory manifest."⟩
  perform (.write DataFile.commitJournal
    (⟨result.block.index.toNat, result.block.hash, result.postStateRoot,
      result.finalizedTransactionIds⟩ : CommitJournal))
  match ← read (DataFile.block result.block.index.toNat) with
  | some (existing : FinalizedBlockArtifact) =>
    require (existing == result.artifact) ⟨.conflictingBlockFile,
      "A different finalized block artifact already exists at this height."⟩
    let manifest ← publishSnapshot env runtime updatedAt result.postStateRoot
      "Runtime snapshot latestStateRoot does not match finalized block postStateRoot."
      result.finalizedTransactionIds
    finishCommit env runtime updatedAt manifest
      "Configured pruning policy failed after idempotent block store: "
    pure .alreadyStored
  | none =>
    perform (.write (DataFile.block result.block.index.toNat) result.artifact)
    let manifest ← publishSnapshot env runtime updatedAt result.postStateRoot
      "Runtime snapshot latestStateRoot does not match finalized block postStateRoot."
      result.finalizedTransactionIds
    writeEpochManifest runtime result updatedAt
    finishCommit env runtime updatedAt manifest
      "Configured pruning policy failed after finalized block store: "
    pure .stored

/-- The continuity loop of `persistBatch`. -/
def batchContinues (isSnapshotTip : Bool) (firstHeight : Nat) :
    Nat → String → List RuntimeBlockPipelineResult → Bool
  | _, _, [] => true
  | expectedHeight, expectedParent, result :: rest =>
    let index := result.block.index.toNat
    if !result.finalized || index != expectedHeight
        || !(result.block.previousHash == expectedParent || (isSnapshotTip && index == firstHeight))
        || result.block.stateRoot != result.postStateRoot then false
    else batchContinues isSnapshotTip firstHeight (expectedHeight + 1) result.block.hash rest

/-- The block files of a batch. -/
def writeBatchBlocks : List RuntimeBlockPipelineResult → Storage StoreRejection Unit
  | [] => pure ()
  | result :: rest => do
    match ← read (DataFile.block result.block.index.toNat) with
    | some (existing : FinalizedBlockArtifact) =>
      require (existing == result.artifact) ⟨.conflictingBlockFile,
        "Conflicting finalized artifact exists inside batch."⟩
      writeBatchBlocks rest
    | none =>
      perform (.write (DataFile.block result.block.index.toNat) result.artifact)
      writeBatchBlocks rest

/-- `FinalizedBlockStore::persistBatch`. -/
def persistBatch (env : StorageEnvironment) (runtime : StagedRuntime)
    (results : List RuntimeBlockPipelineResult) (updatedAt : Int) :
    Storage StoreRejection FinalizedBlockStoreStatus := do
  match results.getLast? with
  | none => reject ⟨.invalidConfig, "Finalized batch persistence input is invalid."⟩
  | some last =>
    require (runtime.isValid && 0 < updatedAt)
      ⟨.invalidConfig, "Finalized batch persistence input is invalid."⟩
    recoverInterruptedCommit.mapError (⟨.ioError, ·⟩)
    let current ← loadManifest.mapError (⟨.notInitialized, ·⟩)
    require (batchContinues (runtime.latestBlock.previousHash == "SNAPSHOT")
      (current.latestBlockHeight + 1) (current.latestBlockHeight + 1) current.latestBlockHash results)
      ⟨.invalidPipelineResult,
        "Finalized batch is discontinuous or has an invalid state commitment."⟩
    require (runtime.latestBlock.hash == last.block.hash)
      ⟨.invalidRuntime, "Final runtime tip does not match finalized batch tip."⟩
    let transactionIds := results.flatMap (·.finalizedTransactionIds)
    perform (.write DataFile.commitJournal
      (⟨last.block.index.toNat, last.block.hash, last.postStateRoot, transactionIds⟩ :
        CommitJournal))
    writeBatchBlocks results
    let manifest ← publishSnapshot env runtime updatedAt last.postStateRoot
      "Batch manifest state root does not match batch tip." transactionIds
    finishCommit env runtime updatedAt manifest
      "Configured pruning policy failed after finalized batch store: "
    pure .stored

--
-- The loader and the start of the consensus loop
--

/-- A runtime rebuilt from the directory, with the round its manager stands in. -/
structure LoadedRuntime (env : StorageEnvironment) where
  replayState : env.ReplayState
  manifest : NodeRuntimeManifest
  currentState : ConsensusRoundState

/-- The replay loop of the loader over the heights it still has to load. -/
def replayBlocks (env : StorageEnvironment) :
    List Nat → env.ReplayState → Storage String env.ReplayState
  | [], replayState => pure replayState
  | height :: rest, replayState => do
    match ← read (DataFile.block height) with
    | none => reject ("Missing finalized block file: block_" ++ toString height ++ ".nodo")
    | some (artifact : FinalizedBlockArtifact) =>
      match env.replayBlock replayState artifact with
      | .error reason => reject reason
      | .ok next => replayBlocks env rest next

/-- The round the loader resumes: the recovered one where it is of the next height. -/
def loaderRound (nextHeight : Nat) (base : ConsensusRoundState)
    (recovered : Option ConsensusRoundState) : ConsensusRoundState :=
  match recovered with
  | some state =>
    if state.height = nextHeight then
      .fresh state.height state.round state.proposerAddress state.roundStartedAt
    else base
  | none => base

/-- `RuntimeStateLoader::loadFromDataDirectory`. -/
def loadFromDataDirectory (env : StorageEnvironment) : Storage String (LoadedRuntime env) := do
  recoverInterruptedCommit.mapError ("Unable to recover interrupted finalization commit: " ++ ·)
  let manifest ← loadManifest
  require (manifest.genesisConfigId == env.genesisConfigId)
    "Data directory genesis does not match loader genesis config."
  env.pruningRecovery manifest
  let file ← read DataFile.consensusRecovery
  let replayState ← replayBlocks env (List.range' 1 manifest.latestBlockHeight) env.genesis
  let tip := env.latestBlock replayState
  let nextHeight := tip.index.toNat + 1
  let base :=
    if env.genesisRound.height = nextHeight then env.genesisRound
    else .fresh nextHeight 1 ((env.selectProposer replayState nextHeight 1).getD "")
      (tip.timestamp + 1)
  require (tip.index.toNat == manifest.latestBlockHeight && tip.hash == manifest.latestBlockHash)
    "Rebuilt chain latest block does not match manifest."
  require (!(env.stateRoot replayState).isEmpty
      && env.stateRoot replayState == manifest.latestStateRoot)
    "Manifest latestStateRoot does not match rebuilt protocol state."
  let audited : Bool ← fun directory => ([], .ok (env.finalAudit directory manifest replayState))
  require audited "Rebuilt runtime failed final audit."
  pure ⟨replayState, manifest, loaderRound nextHeight base (recoveryLoad file)⟩

/-- The start from a stored state. A file of a finalized height is replaced by the state the
loader resumed; the loop does not start from a file of any other height. -/
def startFrom (env : StorageEnvironment) (runtime : LoadedRuntime env)
    (stored : ConsensusRoundState) : Storage String ConsensusRoundState :=
  let current := runtime.currentState
  if stored.height < current.height then do
    require (0 < stored.height && stored.height ≤ runtime.manifest.latestBlockHeight
      && current.isValid) "Recovery state is not finalized."
    perform (.write DataFile.consensusRecovery current)
    require (env.selectProposer runtime.replayState current.height current.round
      == some current.proposerAddress) "Unexpected proposer."
    pure current
  else do
    require (stored.height == current.height && stored.round == current.round
      && stored.proposerAddress == current.proposerAddress
      && stored.roundStartedAt == current.roundStartedAt) "Recovery state does not match."
    require (env.selectProposer runtime.replayState stored.height stored.round
      == some stored.proposerAddress) "Unexpected proposer."
    pure stored

/-- `NodeOrchestrator::startConsensus`: the recovery state the loop starts from. -/
def startConsensus (env : StorageEnvironment) (runtime : LoadedRuntime env) :
    Storage String ConsensusRoundState := do
  let file ← read DataFile.consensusRecovery
  match recoveryLoad file with
  | none => reject "No consensus recovery state."
  | some stored => startFrom env runtime stored

--
-- Runs of a validator
--

/-- The calls that publish a snapshot: a finalized block, a synchronized batch, or the
snapshot alone. -/
inductive StoreCall
  | persist (runtime : StagedRuntime) (result : RuntimeBlockPipelineResult) (updatedAt : Int)
  | persistBatch (runtime : StagedRuntime) (results : List RuntimeBlockPipelineResult)
      (updatedAt : Int)
  | writeRuntimeSnapshot (runtime : StagedRuntime) (updatedAt : Int)

namespace StoreCall

def runtime : StoreCall → StagedRuntime
  | persist runtime _ _ => runtime
  | persistBatch runtime _ _ => runtime
  | writeRuntimeSnapshot runtime _ => runtime

def program (env : StorageEnvironment) : StoreCall → Storage StoreRejection Unit
  | persist runtime result updatedAt => do
    let _ ← Model.persist env runtime result updatedAt
    pure ()
  | persistBatch runtime results updatedAt => do
    let _ ← Model.persistBatch env runtime results updatedAt
    pure ()
  | writeRuntimeSnapshot runtime updatedAt => do
    let _ ← (Model.writeRuntimeSnapshot env runtime updatedAt).mapError (⟨.ioError, ·⟩)
    pure ()

end StoreCall

/-- A validator: its directory, the consensus height of its process while it runs, and the
round states its event loop has put in the recovery file, the newest first. -/
structure StorageNode where
  directory : DataDirectory
  height : Option Nat
  saved : List ConsensusRoundState

namespace StorageNode

/-- The last state the event loop saved for a height. -/
def lastSaved (node : StorageNode) (height : Nat) : Option ConsensusRoundState :=
  node.saved.find? (fun state => state.height == height)

/-- The validator has voted at a height. -/
def VotedAt (node : StorageNode) (height : Nat) : Prop :=
  ∃ state ∈ node.saved, state.height = height ∧
    (state.votedPrevote = true ∨ state.votedPrecommit = true)

end StorageNode

/-- What happens to a validator. A call performs `executed` operations and then returns an
error or the process ends; one that performs all of them returns, and the caller adopts the
staged runtime unless a later step of it fails. -/
inductive StorageEvent
  | save (storage : StorageOutcome) (state : ConsensusRoundState)
  | commit (call : StoreCall) (executed : Nat) (crashed adopted : Bool)
  | restart (executed : Nat)

/-- The start of a process: the loader, then the consensus loop. -/
def restartNode (env : StorageEnvironment) : Storage String ConsensusRoundState := do
  let runtime ← loadFromDataDirectory env
  startConsensus env runtime

/-- One event. The event loop saves states of the height of its process, and a commit stages
at least the block of that height. -/
def StorageNode.step (env : StorageEnvironment) (node : StorageNode) :
    StorageEvent → StorageNode
  | .save storage state =>
    if node.height = some state.height then
      { node with
        directory := Function.update node.directory DataFile.consensusRecovery
          (recoverySave storage (node.directory .consensusRecovery) state).2
        saved := if state.isValid && storage != .lost then state :: node.saved else node.saved }
    else node
  | .commit call executed crashed adopted =>
    match node.height with
    | none => node
    | some height =>
      if call.runtime.tip < height then node
      else
        let plan := call.program env node.directory
        { node with
          directory := run (plan.1.take executed) node.directory
          height :=
            if crashed then none
            else match plan.2 with
              | .error _ => some height
              | .ok _ =>
                if executed < plan.1.length || !adopted then some height
                else some (call.runtime.tip + 1) }
  | .restart executed =>
    let plan := restartNode env node.directory
    { node with
      directory := run (plan.1.take executed) node.directory
      height :=
        if executed < plan.1.length then none
        else match plan.2 with
          | .error _ => none
          | .ok state => some state.height }

theorem quiet_loadManifest : Quiet isVotingFile loadManifest := by
  refine quiet_bind (quiet_read _) ?_
  rintro (_ | manifest)
  · exact quiet_reject _
  · exact quiet_ite (quiet_pure _) (quiet_reject _)

theorem quiet_removeTransactions (transactionIds : List String) :
    Quiet isVotingFile (removeTransactions transactionIds) := by
  induction transactionIds with
  | nil => exact quiet_pure _
  | cons transactionId rest ih =>
    exact quiet_bind (quiet_require _ _) fun _ => quiet_bind (quiet_perform rfl) fun _ => ih

theorem quiet_commitPublished (journal : CommitJournal) (manifest : NodeRuntimeManifest) :
    Quiet isVotingFile (commitPublished journal manifest) := by
  refine quiet_ite (quiet_pure _) (quiet_ite (quiet_bind (quiet_read _) ?_) (quiet_pure _))
  rintro (_ | artifact)
  · exact quiet_reject _
  · exact quiet_pure _

theorem quiet_recoverInterruptedCommit : Quiet isVotingFile recoverInterruptedCommit := by
  refine quiet_bind (quiet_read _) ?_
  rintro (_ | journal)
  · exact quiet_pure _
  · refine quiet_bind (quiet_require _ _) fun _ => ?_
    refine quiet_bind (quiet_mapError _ quiet_loadManifest) fun manifest => ?_
    refine quiet_bind (quiet_commitPublished _ _) fun published => ?_
    exact quiet_bind (quiet_removeTransactions _) fun _ => quiet_perform rfl

theorem quiet_writeFastSyncSnapshot (env : StorageEnvironment) (runtime : StagedRuntime) :
    Quiet isVotingFile (writeFastSyncSnapshot env runtime) := by
  refine quiet_ite (quiet_pure _) ?_
  cases runtime.fastSyncSnapshot with
  | none => exact quiet_reject _
  | some text =>
    refine quiet_bind (quiet_perform rfl) fun _ => quiet_bind (quiet_perform rfl) fun _ => ?_
    refine quiet_bind (fun _ => rfl) fun superseded => quiet_performAll ?_
    intro operation hoperation
    obtain ⟨height, -, rfl⟩ := List.mem_map.mp hoperation
    rfl

theorem quiet_requireAll (checks : List (Bool × StoreRejection)) :
    Quiet isVotingFile (requireAll checks) := by
  induction checks with
  | nil => exact quiet_pure _
  | cons check rest ih => exact quiet_bind (quiet_require _ _) fun _ => ih

theorem quiet_writeEpochManifest (runtime : StagedRuntime) (result : RuntimeBlockPipelineResult)
    (updatedAt : Int) : Quiet isVotingFile (writeEpochManifest runtime result updatedAt) :=
  quiet_ite (quiet_perform rfl) (quiet_pure _)

theorem quiet_finishCommit (env : StorageEnvironment) (runtime : StagedRuntime) (updatedAt : Int)
    (manifest : NodeRuntimeManifest) (failure : String) :
    Quiet isVotingFile (finishCommit env runtime updatedAt manifest failure) :=
  quiet_bind (quiet_perform rfl) fun _ => quiet_mapError _ (env.maintenance_quiet _ _ _)

theorem quiet_writeBatchBlocks (results : List RuntimeBlockPipelineResult) :
    Quiet isVotingFile (writeBatchBlocks results) := by
  induction results with
  | nil => exact quiet_pure _
  | cons result rest ih =>
    refine quiet_bind (quiet_read _) ?_
    rintro (_ | existing)
    · exact quiet_bind (quiet_perform rfl) fun _ => ih
    · exact quiet_bind (quiet_require _ _) fun _ => ih

/-- The two writes of a snapshot: the vote-free state of the next height, then a manifest at
the tip of the staged runtime. -/
def SnapshotWrites (runtime : StagedRuntime) (operations : List (Operation DataFile.Contents)) :
    Prop :=
  ∃ manifest : NodeRuntimeManifest, manifest.latestBlockHeight = runtime.tip ∧
    operations = [.write DataFile.consensusRecovery runtime.currentState,
      .write DataFile.manifest manifest]

theorem marks_writeRuntimeSnapshot (env : StorageEnvironment) (runtime : StagedRuntime)
    (updatedAt : Int) :
    Marks isVotingFile (SnapshotWrites runtime) (writeRuntimeSnapshot env runtime updatedAt) := by
  refine marks_bind (quiet_require _ _) fun _ => marks_bind quiet_loadManifest fun loaded => ?_
  cases runtime.latestStateRoot with
  | none => exact marks_reject _
  | some stateRoot =>
    refine marks_bind (quiet_perform rfl) fun _ => ?_
    refine marks_bind (quiet_writeFastSyncSnapshot env runtime) fun _ => ?_
    refine marks_bind (quiet_require _ _) fun _ => ?_
    intro directory
    exact Or.inr ⟨runtime.manifest stateRoot loaded.createdAt updatedAt, rfl, rfl⟩

theorem marks_publishSnapshot (env : StorageEnvironment) (runtime : StagedRuntime)
    (updatedAt : Int) (postStateRoot mismatch : String) (transactionIds : List String) :
    Marks isVotingFile (SnapshotWrites runtime)
      (publishSnapshot env runtime updatedAt postStateRoot mismatch transactionIds) := by
  refine marks_bind_quiet (marks_mapError _ (marks_writeRuntimeSnapshot env runtime updatedAt))
    fun manifest => ?_
  refine quiet_bind (quiet_require _ _) fun _ => ?_
  exact quiet_bind (quiet_mapError _ (quiet_removeTransactions _)) fun _ => quiet_pure _

theorem marks_persist (env : StorageEnvironment) (runtime : StagedRuntime)
    (result : RuntimeBlockPipelineResult) (updatedAt : Int) :
    Marks isVotingFile (SnapshotWrites runtime) (persist env runtime result updatedAt) := by
  refine marks_bind (quiet_mapError _ quiet_recoverInterruptedCommit) fun _ => ?_
  refine marks_bind (quiet_require _ _) fun _ => marks_bind (quiet_requireAll _) fun _ => ?_
  refine marks_bind (quiet_mapError _ quiet_loadManifest) fun existing => ?_
  refine marks_bind (quiet_require _ _) fun _ => marks_bind (quiet_perform rfl) fun _ => ?_
  refine marks_bind (quiet_read _) ?_
  rintro (_ | artifact)
  · refine marks_bind (quiet_perform rfl) fun _ => ?_
    refine marks_bind_quiet (marks_publishSnapshot env runtime _ _ _ _) fun manifest => ?_
    refine quiet_bind (quiet_writeEpochManifest _ _ _) fun _ => ?_
    exact quiet_bind (quiet_finishCommit _ _ _ _ _) fun _ => quiet_pure _
  · refine marks_bind (quiet_require _ _) fun _ => ?_
    refine marks_bind_quiet (marks_publishSnapshot env runtime _ _ _ _) fun manifest => ?_
    exact quiet_bind (quiet_finishCommit _ _ _ _ _) fun _ => quiet_pure _

theorem marks_persistBatch (env : StorageEnvironment) (runtime : StagedRuntime)
    (results : List RuntimeBlockPipelineResult) (updatedAt : Int) :
    Marks isVotingFile (SnapshotWrites runtime) (persistBatch env runtime results updatedAt) := by
  unfold persistBatch
  cases results.getLast? with
  | none => exact marks_reject _
  | some last =>
    refine marks_bind (quiet_require _ _) fun _ => ?_
    refine marks_bind (quiet_mapError _ quiet_recoverInterruptedCommit) fun _ => ?_
    refine marks_bind (quiet_mapError _ quiet_loadManifest) fun current => ?_
    refine marks_bind (quiet_require _ _) fun _ => marks_bind (quiet_require _ _) fun _ => ?_
    refine marks_bind (quiet_perform rfl) fun _ => marks_bind (quiet_writeBatchBlocks _) fun _ => ?_
    refine marks_bind_quiet (marks_publishSnapshot env runtime _ _ _ _) fun manifest => ?_
    exact quiet_bind (quiet_finishCommit _ _ _ _ _) fun _ => quiet_pure _

/-- **What a commit does to the voting files**: nothing before it fails, or the two writes of
its snapshot in their order. -/
theorem StoreCall.marks (env : StorageEnvironment) (call : StoreCall) :
    Marks isVotingFile (SnapshotWrites call.runtime) (call.program env) := by
  cases call with
  | persist runtime result updatedAt =>
    exact marks_bind_quiet (marks_persist env runtime result updatedAt) fun _ => quiet_pure _
  | persistBatch runtime results updatedAt =>
    exact marks_bind_quiet (marks_persistBatch env runtime results updatedAt) fun _ => quiet_pure _
  | writeRuntimeSnapshot runtime updatedAt =>
    exact marks_bind_quiet (marks_mapError _ (marks_writeRuntimeSnapshot env runtime updatedAt))
      fun _ => quiet_pure _

/-- The voting files after a snapshot's two writes. -/
theorem SnapshotWrites.run_eq {runtime : StagedRuntime}
    {operations : List (Operation DataFile.Contents)}
    (h : SnapshotWrites runtime (onFiles isVotingFile operations)) (directory : DataDirectory) :
    ∃ manifest : NodeRuntimeManifest, manifest.latestBlockHeight = runtime.tip ∧
      run operations directory .manifest = some manifest ∧
      run operations directory .consensusRecovery = some runtime.currentState := by
  obtain ⟨manifest, htip, hops⟩ := h
  refine ⟨manifest, htip, ?_, ?_⟩
  · rw [run_filter isVotingFile operations (fun _ _ => rfl) (show isVotingFile .manifest = true from rfl),
      hops]
    rfl
  · rw [run_filter isVotingFile operations (fun _ _ => rfl)
      (show isVotingFile .consensusRecovery = true from rfl), hops]
    rfl

/-- Operations of which none is on a voting file leave both as they were. -/
theorem run_eq_of_onFiles_nil {operations : List (Operation DataFile.Contents)}
    (h : onFiles isVotingFile operations = []) (directory : DataDirectory) :
    run operations directory .manifest = directory .manifest ∧
      run operations directory .consensusRecovery = directory .consensusRecovery := by
  constructor
  · rw [run_filter isVotingFile operations (fun _ _ => rfl)
      (show isVotingFile .manifest = true from rfl), h]
    rfl
  · rw [run_filter isVotingFile operations (fun _ _ => rfl)
      (show isVotingFile .consensusRecovery = true from rfl), h]
    rfl

/-- A commit that performs all its operations and succeeds has moved the manifest. -/
theorem StoreCall.complete (env : StorageEnvironment) (call : StoreCall)
    {directory : DataDirectory} {executed : Nat} {u : Unit}
    (hok : (call.program env directory).2 = .ok u)
    (hall : (call.program env directory).1.length ≤ executed) :
    ∃ manifest : NodeRuntimeManifest, manifest.latestBlockHeight = call.runtime.tip ∧
      run ((call.program env directory).1.take executed) directory .manifest = some manifest := by
  rw [List.take_of_length_le hall]
  rcases call.marks env directory with ⟨-, e, he⟩ | hwrites
  · rw [hok] at he
    cases he
  · obtain ⟨manifest, htip, hfile, -⟩ := hwrites.run_eq directory
    exact ⟨manifest, htip, hfile⟩

--
-- What a restart does
--

theorem quiet_replayBlocks (env : StorageEnvironment) (heights : List Nat)
    (replayState : env.ReplayState) : Quiet isVotingFile (replayBlocks env heights replayState) := by
  induction heights generalizing replayState with
  | nil => exact quiet_pure _
  | cons height rest ih =>
    refine quiet_bind (quiet_read _) ?_
    rintro (_ | artifact)
    · exact quiet_reject _
    · show Quiet isVotingFile (match env.replayBlock replayState artifact with
        | .error reason => reject reason
        | .ok next => replayBlocks env rest next)
      cases env.replayBlock replayState artifact with
      | error reason => exact quiet_reject _
      | ok next => exact ih next

theorem quiet_loadFromDataDirectory (env : StorageEnvironment) :
    Quiet isVotingFile (loadFromDataDirectory env) := by
  refine quiet_bind (quiet_mapError _ quiet_recoverInterruptedCommit) fun _ => ?_
  refine quiet_bind quiet_loadManifest fun manifest => quiet_bind (quiet_require _ _) fun _ => ?_
  refine quiet_bind (env.pruningRecovery_quiet _) fun _ => quiet_bind (quiet_read _) fun file => ?_
  refine quiet_bind (quiet_replayBlocks env _ _) fun replayState => ?_
  refine quiet_bind (quiet_require _ _) fun _ => quiet_bind (quiet_require _ _) fun _ => ?_
  refine quiet_bind (fun _ => rfl) fun audited => ?_
  exact quiet_bind (quiet_require _ _) fun _ => quiet_pure _

theorem loadManifest_eq_ok {directory : DataDirectory} {manifest : NodeRuntimeManifest}
    (h : (loadManifest directory).2 = .ok manifest) : directory .manifest = some manifest := by
  obtain ⟨file, hfile, h⟩ := ok_of_bind h
  cases hfile
  rcases hread : directory .manifest with _ | stored
  · rw [hread] at h
    cases h
  · rw [hread] at h
    change ((if NodeRuntimeManifest.isValid stored then pure stored
      else reject "Invalid manifest file." : Storage String NodeRuntimeManifest) _).2 = _ at h
    by_cases hvalid : NodeRuntimeManifest.isValid stored = true
    · rw [if_pos hvalid] at h
      cases h
      rfl
    · rw [if_neg hvalid] at h
      cases h

theorem loaderRound_height {nextHeight : Nat} {base : ConsensusRoundState}
    (hbase : base.height = nextHeight) (recovered : Option ConsensusRoundState) :
    (loaderRound nextHeight base recovered).height = nextHeight := by
  unfold loaderRound
  cases recovered with
  | none => exact hbase
  | some state =>
    show (if state.height = nextHeight then _ else base).height = nextHeight
    split
    · assumption
    · exact hbase

/-- The loader resumes the height after that of the manifest. -/
theorem loadFromDataDirectory_spec {env : StorageEnvironment} {directory : DataDirectory}
    {runtime : LoadedRuntime env} (h : (loadFromDataDirectory env directory).2 = .ok runtime) :
    directory .manifest = some runtime.manifest ∧
      runtime.currentState.height = runtime.manifest.latestBlockHeight + 1 := by
  obtain ⟨_, -, h⟩ := ok_of_bind h
  obtain ⟨manifest, hmanifest, h⟩ := ok_of_bind h
  obtain ⟨_, -, h⟩ := ok_of_bind h
  obtain ⟨_, -, h⟩ := ok_of_bind h
  obtain ⟨file, -, h⟩ := ok_of_bind h
  obtain ⟨replayState, -, h⟩ := ok_of_bind h
  obtain ⟨_, htip, h⟩ := ok_of_bind h
  obtain ⟨_, -, h⟩ := ok_of_bind h
  obtain ⟨audited, -, h⟩ := ok_of_bind h
  obtain ⟨_, -, h⟩ := ok_of_bind h
  have hsame := true_of_require htip
  simp only [Bool.and_eq_true, beq_iff_eq] at hsame
  cases h
  constructor
  · have hread := loadManifest_eq_ok hmanifest
    rwa [(quiet_mapError _ quiet_recoverInterruptedCommit).run_eq directory rfl] at hread
  · show (loaderRound _ _ _).height = manifest.latestBlockHeight + 1
    rw [← hsame.1]
    refine loaderRound_height ?_ _
    split
    · assumption
    · rfl

/-- Starting from a stored state leaves the voting files alone, or it replaces a recovery
file of a height below the one it resumes. -/
theorem startFrom_writes {env : StorageEnvironment} (runtime : LoadedRuntime env)
    (stored : ConsensusRoundState) (directory : DataDirectory) :
    onFiles isVotingFile (startFrom env runtime stored directory).1 = [] ∨
      (stored.height < runtime.currentState.height ∧
        onFiles isVotingFile (startFrom env runtime stored directory).1
          = [.write DataFile.consensusRecovery runtime.currentState]) := by
  unfold startFrom
  by_cases hlower : stored.height < runtime.currentState.height
  · simp only [if_pos hlower]
    have hmarks : Marks isVotingFile
        (· = [Operation.write DataFile.consensusRecovery runtime.currentState])
        (do
          perform (.write DataFile.consensusRecovery runtime.currentState)
          require (env.selectProposer runtime.replayState runtime.currentState.height
            runtime.currentState.round == some runtime.currentState.proposerAddress)
            "Unexpected proposer."
          pure runtime.currentState : Storage String ConsensusRoundState) := by
      refine marks_bind_quiet (fun _ => Or.inr rfl) fun _ => ?_
      exact quiet_bind (quiet_require _ _) fun _ => quiet_pure _
    rcases marks_bind (quiet_require _ _) (fun _ => hmarks) directory with ⟨hnone, -⟩ | hwrite
    · exact Or.inl hnone
    · exact Or.inr ⟨hlower, hwrite⟩
  · simp only [if_neg hlower]
    refine Or.inl (quiet_bind (quiet_require _ _) (fun _ => ?_) directory)
    exact quiet_bind (quiet_require _ _) fun _ => quiet_pure _

theorem startFrom_height {env : StorageEnvironment} {runtime : LoadedRuntime env}
    {stored state : ConsensusRoundState} {directory : DataDirectory}
    (h : (startFrom env runtime stored directory).2 = .ok state) :
    state.height = runtime.currentState.height := by
  unfold startFrom at h
  by_cases hlower : stored.height < runtime.currentState.height
  · simp only [if_pos hlower] at h
    obtain ⟨_, -, h⟩ := ok_of_bind h
    obtain ⟨_, -, h⟩ := ok_of_bind h
    obtain ⟨_, -, h⟩ := ok_of_bind h
    cases h
    rfl
  · simp only [if_neg hlower] at h
    obtain ⟨_, hsame, h⟩ := ok_of_bind h
    obtain ⟨_, -, h⟩ := ok_of_bind h
    have hsame := true_of_require hsame
    simp only [Bool.and_eq_true, beq_iff_eq] at hsame
    cases h
    exact hsame.1.1.1

theorem startConsensus_eq (env : StorageEnvironment) (runtime : LoadedRuntime env)
    (directory : DataDirectory) :
    startConsensus env runtime directory =
      (match recoveryLoad (directory .consensusRecovery) with
        | none => reject "No consensus recovery state."
        | some stored => startFrom env runtime stored) directory :=
  rfl

/-- What a restart performs: the loader, and after it the start of the loop. -/
theorem restartNode_cases (env : StorageEnvironment) (directory : DataDirectory) :
    ((restartNode env directory).1 = (loadFromDataDirectory env directory).1 ∧
      ∃ reason, (restartNode env directory).2 = .error reason) ∨
    ∃ runtime, (loadFromDataDirectory env directory).2 = .ok runtime ∧
      (restartNode env directory).1 = (loadFromDataDirectory env directory).1 ++
        (startConsensus env runtime (run (loadFromDataDirectory env directory).1 directory)).1 ∧
      (restartNode env directory).2 =
        (startConsensus env runtime (run (loadFromDataDirectory env directory).1 directory)).2 := by
  change ((andThen (loadFromDataDirectory env) (startConsensus env) directory).1 = _ ∧
    ∃ reason, (andThen (loadFromDataDirectory env) (startConsensus env) directory).2 = _) ∨
    ∃ runtime, _ ∧ (andThen (loadFromDataDirectory env) (startConsensus env) directory).1 = _ ∧
      (andThen (loadFromDataDirectory env) (startConsensus env) directory).2 = _
  unfold andThen
  rcases hload : loadFromDataDirectory env directory with ⟨operations, reason | runtime⟩
  · exact Or.inl ⟨rfl, reason, rfl⟩
  · exact Or.inr ⟨runtime, rfl, rfl, rfl⟩

/-- **What a restart does to the voting files**: nothing, or it replaces a recovery file of a
height below the one after the manifest. -/
theorem restartNode_writes (env : StorageEnvironment) (directory : DataDirectory) :
    onFiles isVotingFile (restartNode env directory).1 = [] ∨
      ∃ (manifest : NodeRuntimeManifest) (stored current : ConsensusRoundState),
        directory .manifest = some manifest ∧
        recoveryLoad (directory .consensusRecovery) = some stored ∧
        stored.height < manifest.latestBlockHeight + 1 ∧
        onFiles isVotingFile (restartNode env directory).1
          = [.write DataFile.consensusRecovery current] := by
  have hquiet := quiet_loadFromDataDirectory env
  rcases restartNode_cases env directory with ⟨hops, -⟩ | ⟨runtime, hload, hops, -⟩
  · rw [hops]
    exact Or.inl (hquiet directory)
  · obtain ⟨hmanifest, hheight⟩ := loadFromDataDirectory_spec hload
    rw [hops, onFiles_append, hquiet directory, List.nil_append, startConsensus_eq,
      hquiet.run_eq directory (show isVotingFile .consensusRecovery = true from rfl)]
    cases hstored : recoveryLoad (directory .consensusRecovery) with
    | none => exact Or.inl rfl
    | some stored =>
      rcases startFrom_writes runtime stored
        (run (loadFromDataDirectory env directory).1 directory) with hnone | ⟨hlower, hwrite⟩
      · exact Or.inl hnone
      · rw [hheight] at hlower
        exact Or.inr ⟨runtime.manifest, stored, runtime.currentState, hmanifest, rfl, hlower, hwrite⟩

/-- A process that is up runs at the height after that of the manifest. -/
theorem restartNode_height {env : StorageEnvironment} {directory : DataDirectory}
    {state : ConsensusRoundState} (h : (restartNode env directory).2 = .ok state) :
    ∃ manifest : NodeRuntimeManifest, directory .manifest = some manifest ∧
      state.height = manifest.latestBlockHeight + 1 := by
  rcases restartNode_cases env directory with ⟨-, reason, hfailed⟩ | ⟨runtime, hload, -, hstart⟩
  · rw [h] at hfailed
    cases hfailed
  · obtain ⟨hmanifest, hheight⟩ := loadFromDataDirectory_spec hload
    rw [h, startConsensus_eq] at hstart
    refine ⟨runtime.manifest, hmanifest, ?_⟩
    rw [← hheight]
    cases hstored : recoveryLoad (run (loadFromDataDirectory env directory).1 directory
      .consensusRecovery) with
    | none =>
      rw [hstored] at hstart
      cases hstart
    | some stored =>
      rw [hstored] at hstart
      exact startFrom_height hstart.symm

--
-- The invariant
--

namespace StorageNode

variable {env : StorageEnvironment} {node node' : StorageNode}

/-- The manifest never falls behind the heights the validator has saved states of, and the
recovery file holds the last of them for the height a restart resumes. -/
structure Kept (node : StorageNode) : Prop where
  valid : ∀ state ∈ node.saved, state.isValid = true
  running : ∀ height, node.height = some height →
    (∀ state ∈ node.saved, state.height ≤ height) ∧
      ∀ manifest : NodeRuntimeManifest, node.directory .manifest = some manifest →
        height ≤ manifest.latestBlockHeight + 1
  published : ∀ manifest : NodeRuntimeManifest, node.directory .manifest = some manifest →
    ∀ state ∈ node.saved, state.height ≤ manifest.latestBlockHeight + 1
  memory : ∀ manifest : NodeRuntimeManifest, node.directory .manifest = some manifest →
    node.VotedAt (manifest.latestBlockHeight + 1) →
      node.directory .consensusRecovery = node.lastSaved (manifest.latestBlockHeight + 1)

/-- A validator that has voted at a height has a last state of it, which is valid. -/
theorem Kept.lastSaved_eq (h : node.Kept) {height : Nat} (hvoted : node.VotedAt height) :
    ∃ state, node.lastSaved height = some state ∧ state.height = height ∧
      state.isValid = true := by
  obtain ⟨voted, hmem, hheight, -⟩ := hvoted
  have hfound : (node.saved.find? (fun state => state.height == height)).isSome = true :=
    List.find?_isSome.mpr ⟨voted, hmem, by simpa using hheight⟩
  obtain ⟨state, hstate⟩ := Option.isSome_iff_exists.mp hfound
  refine ⟨state, hstate, ?_, h.valid state (List.mem_of_find?_eq_some hstate)⟩
  simpa using List.find?_some hstate

theorem recoverySave_written {storage : StorageOutcome} {state : ConsensusRoundState}
    (h : (state.isValid && storage != .lost) = true) (file : Option ConsensusRoundState) :
    (recoverySave storage file state).2 = some state := by
  obtain ⟨hvalid, hstored⟩ := Bool.and_eq_true_iff.mp h
  unfold recoverySave
  rw [hvalid]
  cases storage with
  | written => rfl
  | lost => cases hstored
  | writtenThenFailed => rfl

/-- A manifest that stays as it was: the memory is kept where the recovery file is, or where
the validator has not voted at the next height. -/
theorem Kept.of_manifest_eq (h : node.Kept) (hsaved : node'.saved = node.saved)
    (hmanifest : node'.directory .manifest = node.directory .manifest)
    (hrunning : ∀ height, node'.height = some height →
      node.height = some height ∨ ∃ manifest : NodeRuntimeManifest,
        node.directory .manifest = some manifest ∧ height = manifest.latestBlockHeight + 1)
    (hfile : node'.directory .consensusRecovery = node.directory .consensusRecovery ∨
      ∀ manifest : NodeRuntimeManifest, node.directory .manifest = some manifest →
        ¬ node.VotedAt (manifest.latestBlockHeight + 1)) : node'.Kept := by
  refine ⟨?_, ?_, ?_, ?_⟩
  · rw [hsaved]
    exact h.valid
  · intro height hheight
    rw [hsaved, hmanifest]
    rcases hrunning height hheight with hold | ⟨manifest, hread, rfl⟩
    · exact h.running height hold
    · refine ⟨h.published manifest hread, fun other hother => ?_⟩
      rw [hread] at hother
      rw [Option.some.inj hother]
  · rw [hsaved, hmanifest]
    exact h.published
  · intro manifest hread hvoted
    rw [hmanifest] at hread
    have hvoted : node.VotedAt (manifest.latestBlockHeight + 1) := by
      rwa [VotedAt, hsaved] at hvoted
    rcases hfile with hfile | hnone
    · rw [hfile, lastSaved, hsaved]
      exact h.memory manifest hread hvoted
    · exact absurd hvoted (hnone manifest hread)

/-- A restart keeps the memory: it replaces only a recovery file of a lower height. -/
theorem kept_restart (h : node.Kept) (executed : Nat) :
    (node.step env (.restart executed)).Kept := by
  have hrunning : ∀ height, (node.step env (.restart executed)).height = some height →
      node.height = some height ∨ ∃ manifest : NodeRuntimeManifest,
        node.directory .manifest = some manifest ∧ height = manifest.latestBlockHeight + 1 := by
    intro height hheight
    simp only [step] at hheight
    split at hheight
    · cases hheight
    · cases hplan : (restartNode env node.directory).2 with
      | error reason =>
        rw [hplan] at hheight
        cases hheight
      | ok state =>
        rw [hplan] at hheight
        obtain ⟨manifest, hmanifest, hstate⟩ := restartNode_height hplan
        exact Or.inr ⟨manifest, hmanifest, by rw [← hstate]; exact (Option.some.inj hheight).symm⟩
  obtain ⟨count, hcount⟩ := filter_take isVotingFile (restartNode env node.directory).1 executed
  rcases restartNode_writes env node.directory with hnone |
    ⟨manifest, stored, current, hmanifest, hstored, hlower, hwrite⟩
  · have hfiles := run_eq_of_onFiles_nil (by rw [hcount, hnone, List.take_nil]) node.directory
    exact h.of_manifest_eq rfl hfiles.1 hrunning (Or.inl hfiles.2)
  · refine h.of_manifest_eq rfl ?_ hrunning (Or.inr ?_)
    · show run _ node.directory .manifest = _
      rw [run_filter isVotingFile _ (fun _ _ => rfl) (show isVotingFile .manifest = true from rfl),
        hcount, hwrite]
      obtain _ | _ | count := count
      · rfl
      · rfl
      · rfl
    · -- a validator that has voted there has a file of that height, not of a lower one
      intro other hother hvoted
      obtain ⟨state, hlast, hheight, hvalid⟩ := h.lastSaved_eq hvoted
      have hfile := h.memory other hother hvoted
      have hload : recoveryLoad (node.directory .consensusRecovery) = some state := by
        rw [hfile, hlast]
        exact Option.filter_some_pos hvalid
      rw [hstored] at hload
      rw [hmanifest] at hother
      rw [Option.some.inj hload, hheight, Option.some.inj hother] at hlower
      exact absurd hlower (Nat.lt_irrefl _)

end StorageNode

end Nodo.Model
