import Nodo.Model.CommitStorage

/-!
# Nodo — heights of blocks in synchronization

`core/Blockchain.cpp` with the ways a chain changes, `node/ChainSyncMessages.cpp`,
`node/SyncRecoveryPolicy.cpp`, and the planner and the beginning of the import in
`node/PersistentBlockStateSync.cpp`.

All of them take the height of a block for its place in the vector. That is right from the genesis
block on; a snapshot leaves a first block of any height. A read outside of the vector is undefined
in the source, the answer is `none` then.

## Results

* `Blockchain.CountsFromZero.serve`, `response`, `importing`, `target` — the functions take the
  blocks of the heights they are asked for, on chains that count from zero.
* `Blockchain.heights_right_iff` — a chain that can be reached counts from zero exactly where all
  lookups by height are right.
* `Blockchain.import_reads_outside` — where a chain is shorter than its height, an import reads
  outside of it.
-/

namespace Nodo.Model

--
-- How a chain changes
--

namespace Blockchain

variable (hashBytes : String → String)

/-- A vector holds at most as many elements as a difference of pointers can count; `push_back`
throws beyond. -/
def maxSize : Nat := 2 ^ 63 - 1

/-- `none` where `addGenesisBlock` throws. -/
def addGenesisBlock (chain : Blockchain) (block : ChainBlock) : Option Blockchain :=
  if !chain.blocks.isEmpty then none
  else if !isValidGenesisBlock hashBytes block then none
  else some { blocks := chain.blocks ++ [block] }

def canAppendBlock (chain : Blockchain) (block : ChainBlock) : Bool :=
  match chain.blocks.getLast? with
  | none => isValidGenesisBlock hashBytes block
  | some latest => isValidNextBlock hashBytes latest block false

/-- `none` where `addBlock` throws. -/
def addBlock (chain : Blockchain) (block : ChainBlock) : Option Blockchain :=
  if chain.blocks.isEmpty then none
  else if !chain.canAppendBlock hashBytes block then none
  else if maxSize ≤ chain.size then none
  else some { blocks := chain.blocks ++ [block] }

/-- `Block::createSnapshotDummy`. -/
def createSnapshotDummy (height : UInt64) (hash stateRoot : String) : ChainBlock where
  index := height
  previousHash := "SNAPSHOT"
  hash := hash
  records := []
  timestamp := 1
  stateRoot := stateRoot
  receiptsRoot := ""

def resetFromSnapshot (_chain : Blockchain) (height : UInt64) (hash stateRoot : String) :
    Blockchain :=
  { blocks := [createSnapshotDummy height hash stateRoot] }

def blockByHeight (chain : Blockchain) (height : UInt64) : Option ChainBlock :=
  if height.toNat < chain.size then chain.blocks[height.toNat]? else none

/-- The chains that these operations make. -/
inductive Reachable : Blockchain → Prop
  | empty : Reachable { blocks := [] }
  | genesis {chain next : Blockchain} {block : ChainBlock} : Reachable chain →
      chain.addGenesisBlock hashBytes block = some next → Reachable next
  | block {chain next : Blockchain} {block : ChainBlock} : Reachable chain →
      chain.addBlock hashBytes block = some next → Reachable next
  | reset {chain : Blockchain} (height : UInt64) (hash stateRoot : String) : Reachable chain →
      Reachable (chain.resetFromSnapshot height hash stateRoot)

end Blockchain

--
-- Messages
--

/-- `isSafeScalar` of the files of synchronization. -/
def isSafeSyncScalar (maxSize : Nat) (value : String) : Bool :=
  isSafeIdentifier "_-.:/" value && value.length ≤ maxSize

structure ChainStatusMessage where
  networkId : String
  chainId : String
  protocolVersion : String
  latestHeight : UInt64
  latestBlockHash : String
  finalizedHeight : UInt64
  finalizedBlockHash : String

def ChainStatusMessage.isValid (status : ChainStatusMessage) : Bool :=
  isSafeSyncScalar 200 status.networkId && isSafeSyncScalar 200 status.chainId
    && isSafeSyncScalar 200 status.protocolVersion && isSafeSyncScalar 200 status.latestBlockHash
    && isSafeSyncScalar 200 status.finalizedBlockHash
    && status.finalizedHeight ≤ status.latestHeight

structure BlockLocator where
  fromHeight : UInt64
  maxBlocks : UInt64
  knownAncestorHashes : List String

def BlockLocator.maxKnownAncestorHashes : Nat := 64

def BlockLocator.isValid (locator : BlockLocator) : Bool :=
  if locator.maxBlocks == 0 || locator.maxBlocks > 1024 || locator.knownAncestorHashes.isEmpty
      || locator.knownAncestorHashes.length > maxKnownAncestorHashes then false
  else locator.knownAncestorHashes.all (isSafeSyncScalar 200)

structure NetworkBlockSyncRequest where
  requesterNodeId : String
  locator : BlockLocator
  createdAt : Int

def NetworkBlockSyncRequest.isValid (request : NetworkBlockSyncRequest) : Bool :=
  isSafeSyncScalar 200 request.requesterNodeId && request.locator.isValid && 0 < request.createdAt

inductive PersistentSyncStatus
  | unknown
  | idle
  | syncing
  | complete
  | failed
  deriving DecidableEq

structure PersistentSyncCheckpoint where
  schemaVersion : String
  finalizedHeight : UInt64
  finalizedBlockHash : String
  finalizedStateRoot : String
  status : PersistentSyncStatus
  sourcePeerId : String
  updatedAt : Int

namespace PersistentSyncCheckpoint

def currentSchemaVersion : String := "NODO_PERSISTENT_SYNC_CHECKPOINT_V1"

def isValid (checkpoint : PersistentSyncCheckpoint) : Bool :=
  checkpoint.schemaVersion == currentSchemaVersion
    && isSafeSyncScalar 240 checkpoint.finalizedBlockHash
    && isSafeSyncScalar 240 checkpoint.finalizedStateRoot
    && isSafeSyncScalar 240 checkpoint.sourcePeerId
    && checkpoint.status != .unknown && 0 < checkpoint.updatedAt

end PersistentSyncCheckpoint

structure PersistentBlockSyncItem where
  height : UInt64
  blockHash : String
  previousBlockHash : String
  serializedBlock : String
  finalizedStateRoot : String
  createdAt : Int
  serializedFinalizedRecord : String

def PersistentBlockSyncItem.isValid (item : PersistentBlockSyncItem) : Bool :=
  item.height > 0 && ChainBlock.isCanonicalCommitmentRoot item.blockHash
    && ChainBlock.isCanonicalCommitmentRoot item.previousBlockHash
    && !item.serializedBlock.isEmpty
    && item.serializedBlock.length ≤ ChainBlock.maxSerializedBytes
    && ChainBlock.isCanonicalCommitmentRoot item.finalizedStateRoot
    && item.serializedFinalizedRecord.length ≤ ChainBlock.maxSerializedBytes
    && 0 < item.createdAt

structure PersistentBlockSyncBatch where
  sourcePeerId : String
  fromHeight : UInt64
  toHeight : UInt64
  items : List PersistentBlockSyncItem
  createdAt : Int

namespace PersistentBlockSyncBatch

/-- `NODO_PERSISTENT_SYNC_MAX_BLOCK_BATCH`. -/
def maxBlockBatch : UInt64 := 1

/-- The loop over the items: the place of the next one and the one before. -/
def itemsFollow (batch : PersistentBlockSyncBatch) :
    Nat → Option PersistentBlockSyncItem → List PersistentBlockSyncItem → Bool
  | _, _, [] => true
  | index, before, item :: rest =>
    if !item.isValid then false
    else if item.height != batch.fromHeight + UInt64.ofNat index then false
    else if item.createdAt > batch.createdAt then false
    else if before.any (fun before => item.previousBlockHash != before.blockHash) then false
    else itemsFollow batch (index + 1) (some item) rest

def isValid (batch : PersistentBlockSyncBatch) : Bool :=
  if !isSafeSyncScalar 240 batch.sourcePeerId || batch.fromHeight == 0
      || batch.toHeight < batch.fromHeight || batch.items.isEmpty
      || batch.items.length > maxBlockBatch.toNat || batch.createdAt ≤ 0 then false
  else if (batch.toHeight - batch.fromHeight + 1).toNat != batch.items.length then false
  else batch.itemsFollow 0 none batch.items

end PersistentBlockSyncBatch

--
-- Planning a request
--

inductive PersistentSyncPlan
  | notRequired (reason : String)
  | requestBlocks (reason : String) (request : NetworkBlockSyncRequest)
  | rejected (reason : String)

/-- The blocks a caller asks for at most; nothing or too many is the limit of the protocol. -/
def batchLimit (maxBlocks : UInt64) : UInt64 :=
  if maxBlocks == 0 || maxBlocks > PersistentBlockSyncBatch.maxBlockBatch then
    PersistentBlockSyncBatch.maxBlockBatch
  else maxBlocks

/-- The window behind the local checkpoint. -/
def plannedRequest (localCheckpoint : PersistentSyncCheckpoint) (remoteStatus : ChainStatusMessage)
    (localNodeId : String) (maxBlocksPerRequest : UInt64) (now : Int) : NetworkBlockSyncRequest where
  requesterNodeId := localNodeId
  locator :=
    { fromHeight := localCheckpoint.finalizedHeight + 1
      maxBlocks := min (remoteStatus.finalizedHeight - localCheckpoint.finalizedHeight)
        (batchLimit maxBlocksPerRequest)
      knownAncestorHashes := [localCheckpoint.finalizedBlockHash] }
  createdAt := now

def planFromRemoteStatus (localCheckpoint : PersistentSyncCheckpoint)
    (remoteStatus : ChainStatusMessage) (localNodeId sourcePeerId : String)
    (maxBlocksPerRequest : UInt64) (now : Int) : PersistentSyncPlan :=
  if !localCheckpoint.isValid then .rejected "Local persistent sync checkpoint is invalid."
  else if !remoteStatus.isValid then .rejected "Remote chain status is invalid."
  else if !isSafeSyncScalar 240 localNodeId || !isSafeSyncScalar 240 sourcePeerId || now ≤ 0 then
    .rejected "Sync planner identifiers or timestamp are invalid."
  else if remoteStatus.finalizedHeight ≤ localCheckpoint.finalizedHeight then
    .notRequired "Local checkpoint is already at or ahead of remote finalized state."
  else
    .requestBlocks "Remote peer is ahead; request the next validated block window."
      (plannedRequest localCheckpoint remoteStatus localNodeId maxBlocksPerRequest now)

--
-- Serving and receiving
--

inductive SyncServeDecision
  | accepted (fromHeight maxItems : UInt64) (expectedAncestorHash : String)
  | stale (reason : String)
  | rejected (reason : String)

inductive SyncBatchDecision
  | accepted (firstNewItemIndex : Nat)
  | stale (reason : String)
  | rejected (reason : String)

namespace SyncRecoveryPolicy

def evaluateServeRequest (request : NetworkBlockSyncRequest) (envelopeSenderNodeId : String)
    (localBlockchain : Blockchain) (maxBatchSize : UInt64) : Option SyncServeDecision :=
  if !request.isValid then some (.rejected "BLOCK_SYNC_REQUEST is structurally invalid.")
  else if request.requesterNodeId != envelopeSenderNodeId then
    some (.rejected "BLOCK_SYNC_REQUEST requesterNodeId does not match the envelope sender.")
  else
    match localBlockchain.blocks.getLast? with
    | none => some (.stale "Responder has no canonical blocks available for sync.")
    | some latestBlock =>
      let fromHeight := request.locator.fromHeight
      if fromHeight == 0 then
        some (.rejected "BLOCK_SYNC_REQUEST fromHeight must be greater than zero.")
      else if fromHeight > latestBlock.index then
        some (.stale "Responder is not ahead at the requested sync height.")
      else if localBlockchain.size ≤ fromHeight.toNat then
        some (.stale "Requested sync height is not present in the responder chain yet.")
      else
        match localBlockchain.blocks[(fromHeight - 1).toNat]? with
        | none => none
        | some ancestor =>
          if !request.locator.knownAncestorHashes.contains ancestor.hash then
            some (.rejected ("BLOCK_SYNC_REQUEST does not contain this responder's canonical " ++
              "ancestor hash at height " ++ toString (fromHeight - 1).toNat ++ "."))
          else
            let available := latestBlock.index - fromHeight + 1
            let requested := min request.locator.maxBlocks (batchLimit maxBatchSize)
            let maxItems := min available requested
            if maxItems == 0 then
              some (.stale "BLOCK_SYNC_REQUEST has no serveable block window.")
            else some (.accepted fromHeight maxItems ancestor.hash)

/-- The loop over the items that the chain has already: the place of the first new one, or why the
batch is refused. `missing` is the answer where a height is checked against the size of the
vector. -/
def overlap (missing : Option String) (conflict : UInt64 → String) (localBlocks : List ChainBlock)
    (tip : UInt64) : Nat → List PersistentBlockSyncItem → Option (Except String Nat)
  | index, [] => some (.ok index)
  | index, item :: rest =>
    if item.height > tip then some (.ok index)
    else
      match localBlocks[item.height.toNat]? with
      | none => missing.map .error
      | some localBlock =>
        if localBlock.hash != item.blockHash then some (.error (conflict item.height))
        else overlap missing conflict localBlocks tip (index + 1) rest

/-- The loop of `evaluateResponseBatch`. -/
def responseOverlap (localBlocks : List ChainBlock) (tip : UInt64)
    (items : List PersistentBlockSyncItem) : Option (Except String Nat) :=
  overlap (some ("BLOCK_SYNC_RESPONSE overlaps a height that is not present in the local " ++
      "canonical chain."))
    (fun height => "BLOCK_SYNC_RESPONSE conflicts with the local canonical chain at " ++
      "already-finalized height " ++ toString height.toNat ++ ".")
    localBlocks tip 0 items

def evaluateResponseBatch (batch : PersistentBlockSyncBatch) (envelopeSenderNodeId : String)
    (localCheckpoint : PersistentSyncCheckpoint) (localBlockchain : Blockchain) :
    Option SyncBatchDecision :=
  if !localCheckpoint.isValid then
    some (.rejected "Local persistent sync checkpoint is invalid.")
  else if !batch.isValid then
    some (.rejected "BLOCK_SYNC_RESPONSE batch is structurally invalid.")
  else if batch.sourcePeerId != envelopeSenderNodeId then
    some (.rejected "BLOCK_SYNC_RESPONSE sourcePeerId does not match the envelope sender.")
  else
    match localBlockchain.blocks.getLast? with
    | none => some (.rejected "Local blockchain is empty while applying a sync response.")
    | some localTip =>
      if localTip.index != localCheckpoint.finalizedHeight
          || localTip.hash != localCheckpoint.finalizedBlockHash then
        some (.rejected "Local persistent sync checkpoint does not match the canonical tip.")
      else if batch.fromHeight > localTip.index + 1 then
        some (.rejected "BLOCK_SYNC_RESPONSE starts after the next expected local height.")
      else
        match responseOverlap localBlockchain.blocks localTip.index batch.items with
        | none => none
        | some (.error reason) => some (.rejected reason)
        | some (.ok firstNewItemIndex) =>
          match batch.items[firstNewItemIndex]? with
          | none =>
            some (.stale "BLOCK_SYNC_RESPONSE contains only blocks already finalized locally.")
          | some firstNew =>
            if firstNew.height != localTip.index + 1 then
              some (.rejected "BLOCK_SYNC_RESPONSE first new block is not the next local height.")
            else if firstNew.previousBlockHash != localTip.hash then
              some (.rejected ("BLOCK_SYNC_RESPONSE first new block does not connect to the local " ++
                "canonical tip."))
            else some (.accepted firstNewItemIndex)

def targetReached (localBlockchain : Blockchain) (targetHeight : UInt64)
    (targetBlockHash : String) : Option Bool :=
  if targetHeight == 0 then some true
  else
    match localBlockchain.blocks.getLast? with
    | none => some true
    | some latestBlock =>
      if latestBlock.index < targetHeight then some false
      else if targetBlockHash.isEmpty then some true
      else if localBlockchain.size ≤ targetHeight.toNat then some false
      else (localBlockchain.blocks[targetHeight.toNat]?).map fun block => block.hash == targetBlockHash

end SyncRecoveryPolicy

--
-- The beginning of an import
--

/-- What `importFinalizedBatch` has found out before it looks at the new items. -/
inductive ImportOverlap
  | rejected (reason : String)
  | stale (reason : String)
  | threw (reason : String)
  | fresh (firstNewItemIndex : Nat)

/-- `importFinalizedBatch` up to the first new item; whether the runtime and the data directory are
valid is given. -/
def importOverlap (checkpoint : PersistentSyncCheckpoint) (batch : PersistentBlockSyncBatch)
    (runtimeIsValid directoryIsValid : Bool) (blockchain : Blockchain) (now : Int) :
    Option ImportOverlap :=
  if !checkpoint.isValid then
    some (.rejected "Sync checkpoint is invalid for finalized sync import.")
  else if !batch.isValid then some (.rejected "Finalized sync batch is structurally invalid.")
  else if !runtimeIsValid then
    some (.rejected "Runtime is invalid for finalized sync import.")
  else if !directoryIsValid || now ≤ 0 then
    some (.rejected ("Data directory or import timestamp is invalid for finalized " ++
      "sync import."))
  else if batch.createdAt > now + 300 then
    some (.rejected "Finalized sync batch timestamp is too far in the future.")
  else
    match blockchain.blocks.getLast? with
    | none => some (.threw "Blockchain has no blocks.")
    | some latestBlock =>
      if latestBlock.index != checkpoint.finalizedHeight
          || latestBlock.hash != checkpoint.finalizedBlockHash then
        some (.rejected "Sync checkpoint does not match the local canonical tip.")
      else if batch.fromHeight > checkpoint.finalizedHeight + 1 then
        some (.rejected ("Finalized sync batch starts at height " ++
          toString batch.fromHeight.toNat ++ " but the local finalized tip is at height " ++
          toString checkpoint.finalizedHeight.toNat ++ "."))
      else
        match SyncRecoveryPolicy.overlap none (fun height =>
            "Finalized sync batch disagrees with the local chain at already-finalized height " ++
              toString height.toNat ++ ".")
          blockchain.blocks checkpoint.finalizedHeight 0 batch.items with
        | none => none
        | some (.error reason) => some (.rejected reason)
        | some (.ok firstNewItemIndex) =>
          if firstNewItemIndex == batch.items.length then
            some (.stale ("Finalized sync batch is entirely behind the local tip; the " ++
              "local chain already contains every batch block."))
          else some (.fresh firstNewItemIndex)

--
-- What the heights should mean
--

namespace Blockchain

/-- The chain has a block of this height and hash. -/
def HeldAt (chain : Blockchain) (height : UInt64) (hash : String) : Prop :=
  ∃ block ∈ chain.blocks, block.index = height ∧ block.hash = hash

/-- Where the chain has a block of the height of an item, it is that of the item. -/
def Agrees (chain : Blockchain) (batch : PersistentBlockSyncBatch) : Prop :=
  ∀ item ∈ batch.items, ∀ block ∈ chain.blocks, block.index = item.height →
    block.hash = item.blockHash

/-- A request that the chain can answer. -/
def Serveable (chain : Blockchain) (request : NetworkBlockSyncRequest) (sender : String) : Prop :=
  request.isValid = true ∧ request.requesterNodeId = sender ∧ request.locator.fromHeight ≠ 0 ∧
    (∃ block ∈ chain.blocks, block.index = request.locator.fromHeight) ∧
    ∃ hash ∈ request.locator.knownAncestorHashes, chain.HeldAt (request.locator.fromHeight - 1) hash

/-- A batch that goes on from the tip or overlaps it, and is of the same chain. -/
structure Continues (chain : Blockchain) (checkpoint : PersistentSyncCheckpoint)
    (batch : PersistentBlockSyncBatch) (tip : ChainBlock) : Prop where
  saved : checkpoint.isValid = true
  wellFormed : batch.isValid = true
  latest : chain.blocks.getLast? = some tip
  height : tip.index = checkpoint.finalizedHeight
  hash : tip.hash = checkpoint.finalizedBlockHash
  begins : batch.fromHeight.toNat ≤ tip.index.toNat + 1
  agrees : chain.Agrees batch
  links : ∀ item ∈ batch.items, item.height.toNat = tip.index.toNat + 1 →
    item.previousBlockHash = tip.hash

open SyncRecoveryPolicy

/-- **Heights mean what they say**: a lookup finds the block of its height, and no function reads
outside of the chain or takes a block of another height. -/
structure HeightsRight (chain : Blockchain) : Prop where
  found : ∀ height block, chain.blockByHeight height = some block → block.index = height
  stored : ∀ block ∈ chain.blocks, chain.blockByHeight block.index = some block
  serve : ∀ request sender maxBatchSize, ∃ decision,
    evaluateServeRequest request sender chain maxBatchSize = some decision ∧
      ((∃ fromHeight maxItems hash, decision = .accepted fromHeight maxItems hash) ↔
        chain.Serveable request sender)
  response : ∀ batch sender checkpoint, ∃ decision,
    evaluateResponseBatch batch sender checkpoint chain = some decision ∧
      (∀ i, decision = .accepted i → chain.Agrees batch) ∧
      (∀ tip, chain.Continues checkpoint batch tip → batch.sourcePeerId = sender →
        ∀ reason, decision ≠ .rejected reason)
  importing : ∀ checkpoint batch runtimeIsValid directoryIsValid now, ∃ outcome,
    importOverlap checkpoint batch runtimeIsValid directoryIsValid chain now = some outcome ∧
      (∀ i, outcome = .fresh i → chain.Agrees batch) ∧
      (∀ tip, chain.Continues checkpoint batch tip → runtimeIsValid = true →
        directoryIsValid = true → 0 < now → batch.createdAt ≤ now + 300 →
          ∀ reason, outcome ≠ .rejected reason)
  target : ∀ height hash, ∃ reached, targetReached chain height hash = some reached ∧
    (height ≠ 0 → hash ≠ "" → (∃ block ∈ chain.blocks, block.index = height) →
      (reached = true ↔ chain.HeldAt height hash))

--
-- Chains that count from zero
--

/-- The place of every block is its height. -/
structure CountsFromZero (chain : Blockchain) : Prop where
  index : ∀ (i : Nat) (block : ChainBlock), chain.blocks[i]? = some block → block.index.toNat = i
  size_le : chain.size ≤ maxSize

variable {hashBytes : String → String} {chain : Blockchain}

theorem Reachable.size_le (h : Reachable hashBytes chain) : chain.size ≤ maxSize := by
  have hone : 1 ≤ maxSize := by decide
  induction h with
  | empty => exact Nat.zero_le _
  | genesis _ hadd _ =>
    unfold addGenesisBlock at hadd
    obtain ⟨hempty, hadd⟩ := Guards.some_of_ite_none hadd
    obtain ⟨-, hadd⟩ := Guards.some_of_ite_none hadd
    obtain rfl := Option.some.inj hadd
    rw [Bool.not_eq_true, Bool.not_eq_false', List.isEmpty_iff] at hempty
    rw [size, hempty]
    exact hone
  | block _ hadd _ =>
    unfold addBlock at hadd
    obtain ⟨-, hadd⟩ := Guards.some_of_ite_none hadd
    obtain ⟨-, hadd⟩ := Guards.some_of_ite_none hadd
    obtain ⟨hroom, hadd⟩ := Guards.some_of_ite_none hadd
    obtain rfl := Option.some.inj hadd
    rw [size] at hroom ⊢
    rw [List.length_append, List.length_singleton]
    omega
  | reset => exact hone

theorem index_of_single {first front block : ChainBlock} {i : Nat}
    (hfront : [first][0]? = some front) (hblock : [first][i]? = some block) :
    block.index.toNat = front.index.toNat + i := by
  rw [List.getElem?_singleton] at hblock
  split at hblock
  next hzero =>
    rw [hzero, ← Option.some.inj hfront, ← Option.some.inj hblock]
    rfl
  next => cases hblock

/-- The heights count up from that of the first block. -/
theorem Reachable.index_eq (h : Reachable hashBytes chain) {front : ChainBlock}
    (hfront : chain.blocks[0]? = some front) {i : Nat} {block : ChainBlock}
    (hblock : chain.blocks[i]? = some block) : block.index.toNat = front.index.toNat + i := by
  induction h generalizing front i block with
  | empty => cases hblock
  | genesis _ hadd _ =>
    unfold addGenesisBlock at hadd
    obtain ⟨hempty, hadd⟩ := Guards.some_of_ite_none hadd
    obtain ⟨-, hadd⟩ := Guards.some_of_ite_none hadd
    obtain rfl := Option.some.inj hadd
    rw [Bool.not_eq_true, Bool.not_eq_false', List.isEmpty_iff] at hempty
    rw [hempty, List.nil_append] at hfront hblock
    exact index_of_single hfront hblock
  | @block before next added hbefore hadd ih =>
    unfold addBlock at hadd
    obtain ⟨hsome, hadd⟩ := Guards.some_of_ite_none hadd
    obtain ⟨hfollows, hadd⟩ := Guards.some_of_ite_none hadd
    obtain ⟨-, hadd⟩ := Guards.some_of_ite_none hadd
    obtain rfl := Option.some.inj hadd
    rw [List.isEmpty_iff] at hsome
    have hpositive : 0 < before.blocks.length := List.length_pos_iff.mpr hsome
    rw [List.getElem?_append_left hpositive] at hfront
    rcases Nat.lt_or_ge i before.blocks.length with hlt | hge
    · rw [List.getElem?_append_left hlt] at hblock
      exact ih hfront hblock
    · -- The block that was added stands on the last one.
      rw [List.getElem?_append_right hge, List.getElem?_singleton] at hblock
      split at hblock
      next hend =>
        obtain rfl := Option.some.inj hblock
        have hlatest : before.blocks.getLast? = some before.blocks[before.blocks.length - 1] := by
          rw [List.getLast?_eq_getElem?, List.getElem?_eq_getElem]
        have hfollows : isValidNextBlock hashBytes before.blocks[before.blocks.length - 1] added
            false = true := by
          simpa only [canAppendBlock, hlatest, Bool.not_eq_true, Bool.not_eq_false'] using hfollows
        have hlast := ih hfront (List.getElem?_eq_getElem (show before.blocks.length - 1 < _ by omega))
        rw [(of_isValidNextBlock hfollows).2.2.1, hlast]
        omega
      next => cases hblock
  | reset height hash stateRoot _ _ => exact index_of_single hfront hblock

theorem Reachable.countsFromZero (h : Reachable hashBytes chain)
    (hfront : ∀ front, chain.blocks[0]? = some front → front.index = 0) : CountsFromZero chain where
  index := by
    intro i block hblock
    have hlt := (List.getElem?_eq_some_iff.mp hblock).1
    have hfirst : chain.blocks[0]? = some chain.blocks[0] := List.getElem?_eq_getElem (by omega)
    rw [h.index_eq hfirst hblock, hfront _ hfirst]
    exact Nat.zero_add i
  size_le := h.size_le

namespace CountsFromZero

theorem heldAt_iff (h : CountsFromZero chain) {height : UInt64} {hash : String} :
    chain.HeldAt height hash ↔
      ∃ block, chain.blocks[height.toNat]? = some block ∧ block.hash = hash := by
  constructor
  · rintro ⟨block, hmem, rfl, hhash⟩
    obtain ⟨i, hi⟩ := List.mem_iff_getElem?.mp hmem
    rw [h.index i block hi]
    exact ⟨block, hi, hhash⟩
  · rintro ⟨block, hblock, hhash⟩
    exact ⟨block, List.mem_of_getElem? hblock, UInt64.toNat_inj.mp (h.index _ _ hblock), hhash⟩

/-- The last block has the greatest height. -/
theorem latest (h : CountsFromZero chain) {tip : ChainBlock}
    (htip : chain.blocks.getLast? = some tip) :
    chain.blocks.length = tip.index.toNat + 1 ∧ tip.index.toNat + 1 < 2 ^ 64 := by
  have hsize := h.size_le
  rw [List.getLast?_eq_getElem?] at htip
  have hlt := (List.getElem?_eq_some_iff.mp htip).1
  have hindex := h.index _ _ htip
  have hmax : maxSize < 2 ^ 63 := by decide
  rw [Blockchain.size] at hsize
  omega

/-- A lookup by place in the chain. -/
theorem exists_block (h : CountsFromZero chain) {tip : ChainBlock}
    (htip : chain.blocks.getLast? = some tip) {height : Nat} (hle : height ≤ tip.index.toNat) :
    ∃ block, chain.blocks[height]? = some block := by
  obtain ⟨hlength, -⟩ := h.latest htip
  exact ⟨_, List.getElem?_eq_getElem (show height < chain.blocks.length by omega)⟩

theorem tip_succ (h : CountsFromZero chain) {tip : ChainBlock}
    (htip : chain.blocks.getLast? = some tip) : (tip.index + 1).toNat = tip.index.toNat + 1 := by
  obtain ⟨-, hbound⟩ := h.latest htip
  rw [UInt64.toNat_add, UInt64.toNat_one]
  exact Nat.mod_eq_of_lt hbound

end CountsFromZero

end Blockchain

--
-- Batches
--

namespace PersistentBlockSyncBatch

variable {batch : PersistentBlockSyncBatch}

/-- What the loop over the items says about each of them. -/
theorem of_itemsFollow {index : Nat} {before : Option PersistentBlockSyncItem}
    {items : List PersistentBlockSyncItem} (h : batch.itemsFollow index before items = true)
    {i : Nat} {item : PersistentBlockSyncItem} (hitem : items[i]? = some item) :
    item.isValid = true ∧ item.height = batch.fromHeight + UInt64.ofNat (index + i) := by
  induction items generalizing index before i with
  | nil => cases hitem
  | cons first rest ih =>
    rw [itemsFollow] at h
    obtain ⟨hvalid, h⟩ := Guards.true_of_ite_false h
    obtain ⟨hheight, h⟩ := Guards.true_of_ite_false h
    obtain ⟨-, h⟩ := Guards.true_of_ite_false h
    obtain ⟨-, h⟩ := Guards.true_of_ite_false h
    cases i with
    | zero =>
      obtain rfl := Option.some.inj hitem
      exact ⟨by simpa using hvalid, by simpa using hheight⟩
    | succ i =>
      rw [List.getElem?_cons_succ] at hitem
      have hrest := ih h hitem
      rwa [show index + 1 + i = index + (i + 1) by omega] at hrest

/-- **The heights of a valid batch** count up from its first. -/
theorem height_of_isValid (h : batch.isValid = true) {i : Nat} {item : PersistentBlockSyncItem}
    (hitem : batch.items[i]? = some item) :
    item.isValid = true ∧ item.height.toNat = batch.fromHeight.toNat + i := by
  unfold isValid at h
  obtain ⟨hbounds, h⟩ := Guards.true_of_ite_false h
  obtain ⟨hcount, h⟩ := Guards.true_of_ite_false h
  obtain ⟨hvalid, hheight⟩ := of_itemsFollow h hitem
  refine ⟨hvalid, ?_⟩
  simp only [Bool.or_eq_true, decide_eq_true_eq, not_or, UInt64.not_lt] at hbounds
  obtain ⟨⟨⟨⟨⟨-, hpositive⟩, horder⟩, -⟩, -⟩, -⟩ := hbounds
  rw [beq_iff_eq, ← UInt64.toNat_inj, UInt64.toNat_zero] at hpositive
  rw [UInt64.le_iff_toNat_le] at horder
  have hbound := batch.toHeight.toNat_lt
  have hdistance : (batch.toHeight - batch.fromHeight + 1).toNat =
      batch.toHeight.toNat - batch.fromHeight.toNat + 1 := by
    rw [UInt64.toNat_add, UInt64.toNat_one, UInt64.toNat_sub_of_le _ _
      (UInt64.le_iff_toNat_le.mpr horder)]
    exact Nat.mod_eq_of_lt (by omega)
  rw [bne_iff_ne, ne_eq, not_not, hdistance] at hcount
  have hlt := (List.getElem?_eq_some_iff.mp hitem).1
  rw [hheight, UInt64.toNat_add, UInt64.toNat_ofNat_of_lt' (by
    show 0 + i < 2 ^ 64
    omega), Nat.zero_add]
  exact Nat.mod_eq_of_lt (by omega)

end PersistentBlockSyncBatch

namespace Blockchain.CountsFromZero

open SyncRecoveryPolicy

variable {chain : Blockchain} {missing : Option String} {conflict : UInt64 → String}

/-- **The loop over the overlap** stops at the first item behind the tip, or at an item that is not
the block of its height. -/
theorem overlap_spec (h : CountsFromZero chain) {tip : ChainBlock}
    (htip : chain.blocks.getLast? = some tip) (index : Nat) (items : List PersistentBlockSyncItem) :
    (∃ count, overlap missing conflict chain.blocks tip.index index items =
        some (.ok (index + count)) ∧ count ≤ items.length ∧
      (∀ i item, i < count → items[i]? = some item → chain.HeldAt item.height item.blockHash) ∧
      ∀ item, items[count]? = some item → tip.index < item.height) ∨
    ∃ item ∈ items, overlap missing conflict chain.blocks tip.index index items =
        some (.error (conflict item.height)) ∧ item.height ≤ tip.index ∧
      ¬ chain.HeldAt item.height item.blockHash := by
  induction items generalizing index with
  | nil =>
    refine Or.inl ⟨0, rfl, Nat.le_refl _, fun i item hi => ?_, fun item hitem => ?_⟩
    · omega
    · cases hitem
  | cons item rest ih =>
    rw [overlap]
    by_cases hnew : item.height > tip.index
    · rw [if_pos hnew]
      refine Or.inl ⟨0, rfl, Nat.zero_le _, fun i other hi => ?_, fun other hother => ?_⟩
      · omega
      · obtain rfl := Option.some.inj hother
        exact hnew
    · rw [if_neg hnew]
      have hle : item.height ≤ tip.index := UInt64.not_lt.mp hnew
      obtain ⟨block, hblock⟩ := h.exists_block htip (UInt64.le_iff_toNat_le.mp hle)
      simp only [hblock]
      by_cases hother : block.hash = item.blockHash
      · rw [if_neg (by simpa using hother)]
        have hheld : chain.HeldAt item.height item.blockHash :=
          h.heldAt_iff.mpr ⟨block, hblock, hother⟩
        rcases ih (index + 1) with ⟨count, heq, hcount, hbefore, hafter⟩ |
            ⟨other, hmem, heq, hold, hdiffers⟩
        · refine Or.inl ⟨count + 1, ?_, ?_, ?_, ?_⟩
          · rw [heq, Nat.add_assoc, Nat.add_comm 1 count]
          · rw [List.length_cons]
            omega
          · intro i found hi hfound
            cases i with
            | zero =>
              obtain rfl := Option.some.inj hfound
              exact hheld
            | succ i => exact hbefore i found (by omega) hfound
          · intro found hfound
            exact hafter found hfound
        · exact Or.inr ⟨other, List.mem_cons_of_mem _ hmem, heq, hold, hdiffers⟩
      · rw [if_pos (by simpa using hother)]
        refine Or.inr ⟨item, List.mem_cons_self, rfl, hle, fun hheld => ?_⟩
        obtain ⟨block', hblock', hhash⟩ := h.heldAt_iff.mp hheld
        obtain rfl := Option.some.inj (hblock.symm.trans hblock')
        exact hother hhash

/-- What was found before the first new item is the chain's, what comes behind it is new. -/
theorem agrees_of_overlap (h : CountsFromZero chain) {tip : ChainBlock}
    (htip : chain.blocks.getLast? = some tip) {batch : PersistentBlockSyncBatch}
    (hvalid : batch.isValid = true) {count : Nat}
    (hbefore : ∀ i item, i < count → batch.items[i]? = some item →
      chain.HeldAt item.height item.blockHash)
    (hafter : ∀ item, batch.items[count]? = some item → tip.index < item.height) :
    chain.Agrees batch := by
  intro item hitem block hblock hsame
  obtain ⟨i, hi⟩ := List.mem_iff_getElem?.mp hitem
  obtain ⟨j, hj⟩ := List.mem_iff_getElem?.mp hblock
  have hplace := h.index j block hj
  rcases Nat.lt_or_ge i count with hlt | hge
  · obtain ⟨held, hheld, hhash⟩ := h.heldAt_iff.mp (hbefore i item hlt hi)
    rw [← hsame, hplace, hj] at hheld
    rw [Option.some.inj hheld, hhash]
  · -- An item behind the first new one has no block.
    have hlength := (List.getElem?_eq_some_iff.mp hi).1
    have hfirst := List.getElem?_eq_getElem (show count < batch.items.length by omega)
    have hnew := UInt64.lt_iff_toNat_lt.mp (hafter _ hfirst)
    rw [(batch.height_of_isValid hvalid hfirst).2] at hnew
    have hheight := (batch.height_of_isValid hvalid hi).2
    have hbound := (List.getElem?_eq_some_iff.mp hj).1
    obtain ⟨hblocks, -⟩ := h.latest htip
    rw [hsame] at hplace
    omega

end Blockchain.CountsFromZero

--
-- The functions on chains that count from zero
--

namespace Blockchain.CountsFromZero

open SyncRecoveryPolicy

variable {chain : Blockchain}

theorem blockByHeight_eq (chain : Blockchain) (height : UInt64) :
    chain.blockByHeight height = chain.blocks[height.toNat]? := by
  unfold blockByHeight
  split
  next => rfl
  next hout =>
    rw [List.getElem?_eq_none]
    exact Nat.le_of_not_lt hout

theorem found (h : CountsFromZero chain) {height : UInt64} {block : ChainBlock}
    (hfound : chain.blockByHeight height = some block) : block.index = height := by
  rw [blockByHeight_eq] at hfound
  exact UInt64.toNat_inj.mp (h.index _ _ hfound)

theorem stored (h : CountsFromZero chain) {block : ChainBlock} (hblock : block ∈ chain.blocks) :
    chain.blockByHeight block.index = some block := by
  obtain ⟨i, hi⟩ := List.mem_iff_getElem?.mp hblock
  rw [blockByHeight_eq, h.index i block hi]
  exact hi

/-- A block of a height is there as long as the tip is not below. -/
theorem exists_index_iff (h : CountsFromZero chain) {tip : ChainBlock}
    (htip : chain.blocks.getLast? = some tip) {height : UInt64} :
    (∃ block ∈ chain.blocks, block.index = height) ↔ height ≤ tip.index := by
  obtain ⟨hlength, -⟩ := h.latest htip
  rw [UInt64.le_iff_toNat_le]
  constructor
  · rintro ⟨block, hmem, rfl⟩
    obtain ⟨i, hi⟩ := List.mem_iff_getElem?.mp hmem
    have hlt := (List.getElem?_eq_some_iff.mp hi).1
    rw [h.index i block hi]
    omega
  · intro hle
    obtain ⟨block, hblock⟩ := h.exists_block htip hle
    exact ⟨block, List.mem_of_getElem? hblock, UInt64.toNat_inj.mp (h.index _ _ hblock)⟩

theorem batchLimit_pos (maxBlocks : UInt64) : 0 < (batchLimit maxBlocks).toNat := by
  unfold batchLimit
  split
  next => decide
  next hsome =>
    rw [Bool.or_eq_true, not_or, beq_iff_eq, ← UInt64.toNat_inj, UInt64.toNat_zero] at hsome
    omega

theorem toNat_min (a b : UInt64) : (min a b).toNat = min a.toNat b.toNat := by
  show (if a ≤ b then a else b).toNat = _
  split
  next hle =>
    rw [UInt64.le_iff_toNat_le] at hle
    omega
  next hgt =>
    rw [UInt64.le_iff_toNat_le] at hgt
    omega

/-- The blocks that are offered: those there are, as many as both sides allow. -/
def offered (request : NetworkBlockSyncRequest) (tip : ChainBlock) (maxBatchSize : UInt64) :
    UInt64 :=
  min (tip.index - request.locator.fromHeight + 1)
    (min request.locator.maxBlocks (batchLimit maxBatchSize))

theorem offered_toNat {request : NetworkBlockSyncRequest} {tip : ChainBlock} {maxBatchSize : UInt64}
    (hpositive : request.locator.fromHeight ≠ 0) (hle : request.locator.fromHeight ≤ tip.index) :
    (offered request tip maxBatchSize).toNat =
      min (tip.index.toNat - request.locator.fromHeight.toNat + 1)
        (min request.locator.maxBlocks.toNat (batchLimit maxBatchSize).toNat) := by
  rw [ne_eq, ← UInt64.toNat_inj, UInt64.toNat_zero] at hpositive
  have hbound := tip.index.toNat_lt
  rw [offered, toNat_min, toNat_min, UInt64.toNat_add, UInt64.toNat_one,
    UInt64.toNat_sub_of_le _ _ hle, Nat.mod_eq_of_lt (by omega)]

theorem maxBlocks_pos {request : NetworkBlockSyncRequest} (h : request.isValid = true) :
    0 < request.locator.maxBlocks.toNat := by
  unfold NetworkBlockSyncRequest.isValid at h
  rw [Bool.and_eq_true, Bool.and_eq_true] at h
  have hlocator := h.1.2
  unfold BlockLocator.isValid at hlocator
  obtain ⟨hbounds, -⟩ := Guards.true_of_ite_false hlocator
  simp only [Bool.or_eq_true, not_or, beq_iff_eq] at hbounds
  have hpositive := hbounds.1.1.1
  rw [← UInt64.toNat_inj, UInt64.toNat_zero] at hpositive
  omega

/-- **A request that the chain can answer** is served from its own ancestor. -/
theorem serve_accepted (h : CountsFromZero chain) {request : NetworkBlockSyncRequest}
    {sender : String} (maxBatchSize : UInt64) {tip : ChainBlock}
    (htip : chain.blocks.getLast? = some tip) (hserve : chain.Serveable request sender) :
    ∃ hash, evaluateServeRequest request sender chain maxBatchSize =
      some (.accepted request.locator.fromHeight (offered request tip maxBatchSize) hash) := by
  obtain ⟨hvalid, hsender, hzero, hthere, hash, hknown, hheld⟩ := hserve
  obtain ⟨hlength, -⟩ := h.latest htip
  have hle := (h.exists_index_iff htip).mp hthere
  have hheights := UInt64.le_iff_toNat_le.mp hle
  obtain ⟨ancestor, hancestor, hhash⟩ := h.heldAt_iff.mp hheld
  have hoffered := @offered_toNat request tip maxBatchSize hzero hle
  have hlimit := batchLimit_pos maxBatchSize
  have hmax := maxBlocks_pos hvalid
  have hsome : ¬ (offered request tip maxBatchSize == 0) = true := by
    rw [beq_iff_eq, ← UInt64.toNat_inj, UInt64.toNat_zero]
    omega
  refine ⟨ancestor.hash, ?_⟩
  unfold evaluateServeRequest
  rw [if_neg (by rw [hvalid]; decide), if_neg (by simpa using hsender), htip]
  simp only [beq_eq_false_iff_ne.mpr hzero, Bool.false_eq_true, if_false, hancestor]
  rw [if_neg (UInt64.not_lt.mpr hle), if_neg (by rw [Blockchain.size]; omega),
    if_neg (by simpa [hhash] using hknown)]
  exact if_neg hsome

/-- Other requests are not served. -/
theorem serve_refused (h : CountsFromZero chain) {request : NetworkBlockSyncRequest}
    {sender : String} (maxBatchSize : UInt64) (hserve : ¬ chain.Serveable request sender) :
    ∃ decision, evaluateServeRequest request sender chain maxBatchSize = some decision ∧
      ∀ fromHeight maxItems hash, decision ≠ .accepted fromHeight maxItems hash := by
  unfold evaluateServeRequest
  split
  next => exact ⟨_, rfl, fun _ _ _ => nofun⟩
  next hvalid =>
    split
    next => exact ⟨_, rfl, fun _ _ _ => nofun⟩
    next hsender =>
      split
      next => exact ⟨_, rfl, fun _ _ _ => nofun⟩
      next tip htip =>
        obtain ⟨hlength, -⟩ := h.latest htip
        dsimp only
        split
        next => exact ⟨_, rfl, fun _ _ _ => nofun⟩
        next hzero =>
          split
          next => exact ⟨_, rfl, fun _ _ _ => nofun⟩
          next hahead =>
            split
            next => exact ⟨_, rfl, fun _ _ _ => nofun⟩
            next hthere =>
              have hle := UInt64.not_lt.mp hahead
              have hheights := UInt64.le_iff_toNat_le.mp hle
              rw [beq_iff_eq] at hzero
              have hpositive : request.locator.fromHeight.toNat ≠ 0 := by
                rw [← UInt64.toNat_zero, ne_eq, UInt64.toNat_inj]
                exact hzero
              have hone : (request.locator.fromHeight - 1).toNat ≤ tip.index.toNat := by
                rw [UInt64.toNat_sub_of_le _ _ (UInt64.le_iff_toNat_le.mpr (by
                  rw [UInt64.toNat_one]
                  omega))]
                omega
              obtain ⟨ancestor, hancestor⟩ := h.exists_block htip hone
              simp only [hancestor]
              split
              next => exact ⟨_, rfl, fun _ _ _ => nofun⟩
              next hknown =>
                -- Nothing is left that a request could fail at.
                refine absurd ⟨by simpa using hvalid, by simpa using hsender, hzero, ?_, ?_⟩ hserve
                · exact (h.exists_index_iff htip).mpr hle
                · exact ⟨ancestor.hash, by simpa using hknown,
                    h.heldAt_iff.mpr ⟨ancestor, hancestor, rfl⟩⟩

/-- **A request is served** exactly where the chain can answer it. -/
theorem serve (h : CountsFromZero chain) (request : NetworkBlockSyncRequest) (sender : String)
    (maxBatchSize : UInt64) :
    ∃ decision, evaluateServeRequest request sender chain maxBatchSize = some decision ∧
      ((∃ fromHeight maxItems hash, decision = .accepted fromHeight maxItems hash) ↔
        chain.Serveable request sender) := by
  by_cases hserve : chain.Serveable request sender
  · obtain ⟨block, hmem, -⟩ := hserve.2.2.2.1
    obtain ⟨tip, htip⟩ := Option.ne_none_iff_exists'.mp
      (mt List.getLast?_eq_none_iff.mp (List.ne_nil_of_mem hmem))
    obtain ⟨hash, haccepted⟩ := h.serve_accepted maxBatchSize htip hserve
    exact ⟨_, haccepted, iff_of_true ⟨_, _, _, rfl⟩ hserve⟩
  · obtain ⟨decision, hdecision, hnone⟩ := h.serve_refused maxBatchSize hserve
    refine ⟨decision, hdecision, iff_of_false ?_ hserve⟩
    rintro ⟨fromHeight, maxItems, hash, heq⟩
    exact hnone fromHeight maxItems hash heq

variable {checkpoint : PersistentSyncCheckpoint} {batch : PersistentBlockSyncBatch} {tip : ChainBlock}

/-- The first new item of a batch that does not begin too far above is the next one. -/
theorem first_new_height (h : CountsFromZero chain) (htip : chain.blocks.getLast? = some tip)
    (hvalid : batch.isValid = true) (hbegins : batch.fromHeight.toNat ≤ tip.index.toNat + 1)
    {count : Nat}
    (hbefore : ∀ i item, i < count → batch.items[i]? = some item →
      chain.HeldAt item.height item.blockHash)
    {first : PersistentBlockSyncItem} (hfirst : batch.items[count]? = some first)
    (hnew : tip.index < first.height) : first.height.toNat = tip.index.toNat + 1 := by
  have hheight := (batch.height_of_isValid hvalid hfirst).2
  rw [UInt64.lt_iff_toNat_lt] at hnew
  cases count with
  | zero => omega
  | succ count =>
    have hlength := (List.getElem?_eq_some_iff.mp hfirst).1
    have hlast := List.getElem?_eq_getElem (show count < batch.items.length by omega)
    obtain ⟨block, hmem, hindex, -⟩ := hbefore count _ (Nat.lt_succ_self _) hlast
    have hle := (h.exists_index_iff htip).mp ⟨block, hmem, hindex⟩
    rw [UInt64.le_iff_toNat_le, (batch.height_of_isValid hvalid hlast).2] at hle
    omega

/-- No function reads outside of the chain, and what a response is accepted for agrees with it. -/
theorem response_agrees (h : CountsFromZero chain) (batch : PersistentBlockSyncBatch)
    (sender : String) (checkpoint : PersistentSyncCheckpoint) :
    ∃ decision, evaluateResponseBatch batch sender checkpoint chain = some decision ∧
      ∀ i, decision = .accepted i → chain.Agrees batch := by
  unfold evaluateResponseBatch
  split
  next => exact ⟨_, rfl, fun i => nofun⟩
  next =>
    split
    next => exact ⟨_, rfl, fun i => nofun⟩
    next hinvalid =>
      have hvalid : batch.isValid = true := by simpa using hinvalid
      split
      next => exact ⟨_, rfl, fun i => nofun⟩
      next =>
        split
        next => exact ⟨_, rfl, fun i => nofun⟩
        next tip htip =>
          split
          next => exact ⟨_, rfl, fun i => nofun⟩
          next =>
            split
            next => exact ⟨_, rfl, fun i => nofun⟩
            next =>
              unfold responseOverlap
              rcases h.overlap_spec htip 0 batch.items with
                ⟨count, heq, hcount, hbefore, hafter⟩ | ⟨item, hmem, heq, -⟩
              · rw [heq, Nat.zero_add]
                dsimp only
                split
                next => exact ⟨_, rfl, fun i => nofun⟩
                next =>
                  split
                  next => exact ⟨_, rfl, fun i => nofun⟩
                  next =>
                    split
                    next => exact ⟨_, rfl, fun i => nofun⟩
                    next => exact ⟨_, rfl, fun i _ => h.agrees_of_overlap htip hvalid hbefore hafter⟩
              · rw [heq]
                exact ⟨_, rfl, fun i => nofun⟩

/-- The loop over a batch that goes on from the tip or overlaps it. -/
theorem overlap_continues (h : CountsFromZero chain) {missing : Option String}
    {conflict : UInt64 → String} (hbatch : chain.Continues checkpoint batch tip) :
    ∃ count, overlap missing conflict chain.blocks tip.index 0 batch.items = some (.ok count) ∧
      count ≤ batch.items.length ∧
      (∀ first, batch.items[count]? = some first → first.height.toNat = tip.index.toNat + 1) ∧
      ∀ i item, i < count → batch.items[i]? = some item → item.height ≤ tip.index := by
  rcases h.overlap_spec hbatch.latest 0 batch.items with
    ⟨count, heq, hcount, hbefore, hafter⟩ | ⟨item, hmem, -, hold, hdiffers⟩
  · refine ⟨count, by rw [heq, Nat.zero_add], hcount, fun first hfirst => ?_, fun i item hi hitem => ?_⟩
    · exact h.first_new_height hbatch.latest hbatch.wellFormed hbatch.begins hbefore hfirst
        (hafter first hfirst)
    · obtain ⟨block, hmem, hindex, -⟩ := hbefore i item hi hitem
      exact (h.exists_index_iff hbatch.latest).mp ⟨block, hmem, hindex⟩
  · obtain ⟨block, hblock, hindex⟩ := (h.exists_index_iff hbatch.latest).mpr hold
    exact absurd ⟨block, hblock, hindex, hbatch.agrees item hmem block hblock hindex⟩ hdiffers

/-- **A response that goes on** is accepted from its first new item on, or is stale. -/
theorem response_continues (h : CountsFromZero chain)
    (hbatch : chain.Continues checkpoint batch tip) {sender : String}
    (hsender : batch.sourcePeerId = sender) :
    (∃ i first, evaluateResponseBatch batch sender checkpoint chain = some (.accepted i) ∧
      batch.items[i]? = some first ∧ first.height.toNat = tip.index.toNat + 1) ∨
    ∃ reason, evaluateResponseBatch batch sender checkpoint chain = some (.stale reason) ∧
      ∀ item ∈ batch.items, item.height ≤ tip.index := by
  have htip := hbatch.latest
  have hbegins : ¬ batch.fromHeight > tip.index + 1 := by
    rw [gt_iff_lt, UInt64.lt_iff_toNat_lt, h.tip_succ htip, Nat.not_lt]
    exact hbatch.begins
  obtain ⟨count, heq, hcount, hfirst, hbefore⟩ := @overlap_continues chain checkpoint batch tip h
    (some ("BLOCK_SYNC_RESPONSE overlaps a height that is not present in the local " ++
      "canonical chain."))
    (fun height => "BLOCK_SYNC_RESPONSE conflicts with the local canonical chain at " ++
      "already-finalized height " ++ toString height.toNat ++ ".") hbatch
  unfold evaluateResponseBatch
  rw [if_neg (by rw [hbatch.saved]; decide), if_neg (by rw [hbatch.wellFormed]; decide),
    if_neg (by simpa using hsender), htip]
  dsimp only
  rw [if_neg (by simp [hbatch.height, hbatch.hash]), if_neg hbegins, responseOverlap, heq]
  dsimp only
  cases hnew : batch.items[count]? with
  | none =>
    refine Or.inr ⟨_, rfl, fun item hitem => ?_⟩
    obtain ⟨i, hi⟩ := List.mem_iff_getElem?.mp hitem
    have hlt := (List.getElem?_eq_some_iff.mp hi).1
    have hend := List.getElem?_eq_none_iff.mp hnew
    exact hbefore i item (by omega) hi
  | some first =>
    have hheight := hfirst first hnew
    dsimp only
    rw [if_neg (by
        rw [bne_iff_ne, ne_eq, not_not, ← UInt64.toNat_inj, h.tip_succ htip, hheight]),
      if_neg (by simpa using hbatch.links first (List.mem_of_getElem? hnew) hheight)]
    exact Or.inl ⟨count, first, rfl, hnew, hheight⟩

/-- **A response** is judged by the blocks of its heights. -/
theorem response (h : CountsFromZero chain) (batch : PersistentBlockSyncBatch) (sender : String)
    (checkpoint : PersistentSyncCheckpoint) :
    ∃ decision, evaluateResponseBatch batch sender checkpoint chain = some decision ∧
      (∀ i, decision = .accepted i → chain.Agrees batch) ∧
      (∀ tip, chain.Continues checkpoint batch tip → batch.sourcePeerId = sender →
        ∀ reason, decision ≠ .rejected reason) := by
  obtain ⟨decision, hdecision, hagrees⟩ := h.response_agrees batch sender checkpoint
  refine ⟨decision, hdecision, hagrees, fun tip hbatch hsender reason hrejected => ?_⟩
  rw [hrejected] at hdecision
  rcases h.response_continues hbatch hsender with ⟨i, first, haccepted, -⟩ | ⟨why, hstale, -⟩
  · rw [hdecision] at haccepted
    cases haccepted
  · rw [hdecision] at hstale
    cases hstale

theorem importing_agrees (h : CountsFromZero chain) (checkpoint : PersistentSyncCheckpoint)
    (batch : PersistentBlockSyncBatch) (runtimeIsValid directoryIsValid : Bool) (now : Int) :
    ∃ outcome, importOverlap checkpoint batch runtimeIsValid directoryIsValid chain now =
        some outcome ∧ ∀ i, outcome = .fresh i → chain.Agrees batch := by
  unfold importOverlap
  split
  next => exact ⟨_, rfl, fun i => nofun⟩
  next =>
    split
    next => exact ⟨_, rfl, fun i => nofun⟩
    next hinvalid =>
      have hvalid : batch.isValid = true := by simpa using hinvalid
      split
      next => exact ⟨_, rfl, fun i => nofun⟩
      next =>
        split
        next => exact ⟨_, rfl, fun i => nofun⟩
        next =>
          split
          next => exact ⟨_, rfl, fun i => nofun⟩
          next =>
            split
            next => exact ⟨_, rfl, fun i => nofun⟩
            next tip htip =>
              split
              next => exact ⟨_, rfl, fun i => nofun⟩
              next hcurrent =>
                simp only [Bool.or_eq_true, bne_iff_ne, ne_eq, not_or, not_not] at hcurrent
                rw [← hcurrent.1]
                split
                next => exact ⟨_, rfl, fun i => nofun⟩
                next =>
                  rcases h.overlap_spec htip 0 batch.items with
                    ⟨count, heq, hcount, hbefore, hafter⟩ | ⟨item, hmem, heq, -⟩
                  · rw [heq, Nat.zero_add]
                    dsimp only
                    split
                    next => exact ⟨_, rfl, fun i => nofun⟩
                    next => exact ⟨_, rfl, fun i _ => h.agrees_of_overlap htip hvalid hbefore hafter⟩
                  · rw [heq]
                    exact ⟨_, rfl, fun i => nofun⟩

/-- **An import that goes on** is not refused for its overlap. -/
theorem importing_continues (h : CountsFromZero chain)
    (hbatch : chain.Continues checkpoint batch tip) {now : Int} (hnow : 0 < now)
    (hcreated : batch.createdAt ≤ now + 300) :
    (∃ i, importOverlap checkpoint batch true true chain now = some (.fresh i)) ∨
    ∃ reason, importOverlap checkpoint batch true true chain now = some (.stale reason) := by
  have htip := hbatch.latest
  have hbegins : ¬ batch.fromHeight > tip.index + 1 := by
    rw [gt_iff_lt, UInt64.lt_iff_toNat_lt, h.tip_succ htip, Nat.not_lt]
    exact hbatch.begins
  obtain ⟨count, heq, -⟩ := @overlap_continues chain checkpoint batch tip h none
    (fun height =>
      "Finalized sync batch disagrees with the local chain at already-finalized height " ++
        toString height.toNat ++ ".") hbatch
  unfold importOverlap
  rw [if_neg (by rw [hbatch.saved]; decide), if_neg (by rw [hbatch.wellFormed]; decide),
    if_neg (by decide), if_neg (by simpa using hnow), if_neg (by omega), htip]
  dsimp only
  rw [if_neg (by simp [hbatch.height, hbatch.hash]), ← hbatch.height, if_neg hbegins, heq]
  dsimp only
  split
  next => exact Or.inr ⟨_, rfl⟩
  next => exact Or.inl ⟨_, rfl⟩

/-- **An import** is judged by the blocks of its heights. -/
theorem importing (h : CountsFromZero chain) (checkpoint : PersistentSyncCheckpoint)
    (batch : PersistentBlockSyncBatch) (runtimeIsValid directoryIsValid : Bool) (now : Int) :
    ∃ outcome, importOverlap checkpoint batch runtimeIsValid directoryIsValid chain now =
        some outcome ∧
      (∀ i, outcome = .fresh i → chain.Agrees batch) ∧
      (∀ tip, chain.Continues checkpoint batch tip → runtimeIsValid = true →
        directoryIsValid = true → 0 < now → batch.createdAt ≤ now + 300 →
          ∀ reason, outcome ≠ .rejected reason) := by
  obtain ⟨outcome, houtcome, hagrees⟩ :=
    h.importing_agrees checkpoint batch runtimeIsValid directoryIsValid now
  refine ⟨outcome, houtcome, hagrees, ?_⟩
  rintro tip hbatch rfl rfl hnow hcreated reason hrejected
  rw [hrejected] at houtcome
  rcases h.importing_continues hbatch hnow hcreated with ⟨i, hfresh⟩ | ⟨why, hstale⟩
  · rw [houtcome] at hfresh
    cases hfresh
  · rw [houtcome] at hstale
    cases hstale

/-- **A target is reached** where the block of its height has its hash. -/
theorem target (h : CountsFromZero chain) (height : UInt64) (hash : String) :
    ∃ reached, targetReached chain height hash = some reached ∧
      (height ≠ 0 → hash ≠ "" → (∃ block ∈ chain.blocks, block.index = height) →
        (reached = true ↔ chain.HeldAt height hash)) := by
  unfold targetReached
  split
  next hzero => exact ⟨_, rfl, fun hpositive => absurd (beq_iff_eq.mp hzero) hpositive⟩
  next =>
    split
    next hempty =>
      refine ⟨_, rfl, ?_⟩
      rintro - - ⟨block, hmem, -⟩
      rw [List.getLast?_eq_none_iff.mp hempty] at hmem
      cases hmem
    next tip htip =>
      obtain ⟨hlength, -⟩ := h.latest htip
      split
      next hbelow =>
        refine ⟨_, rfl, fun _ _ hthere => ?_⟩
        exact absurd ((h.exists_index_iff htip).mp hthere) (UInt64.not_le.mpr hbelow)
      next hreached =>
        have hle := UInt64.le_iff_toNat_le.mp (UInt64.not_lt.mp hreached)
        split
        next hnone => exact ⟨_, rfl, fun _ hsome => absurd (String.isEmpty_iff.mp hnone) hsome⟩
        next =>
          rw [if_neg (by rw [Blockchain.size]; omega)]
          obtain ⟨block, hblock⟩ := h.exists_block htip hle
          refine ⟨block.hash == hash, by rw [hblock]; rfl, fun _ _ _ => ?_⟩
          rw [beq_iff_eq, h.heldAt_iff]
          constructor
          · exact fun heq => ⟨block, hblock, heq⟩
          · rintro ⟨block', hblock', heq⟩
            rwa [Option.some.inj (hblock.symm.trans hblock')]

theorem heightsRight (h : CountsFromZero chain) : chain.HeightsRight where
  found := fun _ _ => h.found
  stored := fun _ => h.stored
  serve := h.serve
  response := h.response
  importing := h.importing
  target := h.target

end Blockchain.CountsFromZero

namespace Blockchain

/-- **Heights mean what they say** exactly where the first block has height zero: the chain was not
reset from a snapshot of another height. -/
theorem heights_right_iff {hashBytes : String → String} {chain : Blockchain}
    (h : Reachable hashBytes chain) :
    chain.HeightsRight ↔ ∀ front, chain.blocks[0]? = some front → front.index = 0 := by
  constructor
  · intro hright front hfront
    have hfound : chain.blockByHeight 0 = some front := by
      rw [CountsFromZero.blockByHeight_eq]
      exact hfront
    exact hright.found 0 front hfound
  · exact fun hfront => (h.countsFromZero hfront).heightsRight

/-- **An import reads outside of the chain** where a batch begins between the number of blocks and
the height of the tip. -/
theorem import_reads_outside {chain : Blockchain} {checkpoint : PersistentSyncCheckpoint}
    {batch : PersistentBlockSyncBatch} {tip : ChainBlock} {now : Int}
    (hsaved : checkpoint.isValid = true) (hvalid : batch.isValid = true)
    (htip : chain.blocks.getLast? = some tip) (hheight : tip.index = checkpoint.finalizedHeight)
    (hhash : tip.hash = checkpoint.finalizedBlockHash) (hnow : 0 < now)
    (hcreated : batch.createdAt ≤ now + 300) (hout : chain.size ≤ batch.fromHeight.toNat)
    (hle : batch.fromHeight ≤ tip.index) (hroom : tip.index ≠ uint64Max) :
    importOverlap checkpoint batch true true chain now = none := by
  have hsome : batch.items ≠ [] := by
    intro hempty
    simp [PersistentBlockSyncBatch.isValid, hempty] at hvalid
  obtain ⟨first, rest, hitems⟩ := List.exists_cons_of_ne_nil hsome
  have hfirst : first.height = batch.fromHeight := by
    have hplace := (@PersistentBlockSyncBatch.height_of_isValid batch hvalid 0 first (by rw [hitems]; rfl)).2
    exact UInt64.toNat_inj.mp hplace
  have hbegins : ¬ batch.fromHeight > tip.index + 1 := by
    rw [gt_iff_lt, UInt64.lt_iff_toNat_lt, toNat_succ hroom]
    rw [UInt64.le_iff_toNat_le] at hle
    omega
  unfold importOverlap
  rw [if_neg (by rw [hsaved]; decide), if_neg (by rw [hvalid]; decide), if_neg (by decide),
    if_neg (by simpa using hnow), if_neg (by omega), htip]
  dsimp only
  rw [if_neg (by simp [hheight, hhash]), ← hheight, if_neg hbegins, hitems,
    SyncRecoveryPolicy.overlap, if_neg (by rw [hfirst]; exact UInt64.not_lt.mpr hle), hfirst,
    List.getElem?_eq_none hout]
  rfl

/-- A chain that was reset from a snapshot of height 5. -/
def snapshotChain : Blockchain := ({ blocks := [] } : Blockchain).resetFromSnapshot 5 "5a" "5b"

theorem heights_right_snapshot :
    snapshotChain.HeightsRight ↔ ∀ front, snapshotChain.blocks[0]? = some front → front.index = 0 :=
  @heights_right_iff id _ (.reset 5 "5a" "5b" .empty)

/-- **After a snapshot of height 5** the block at height 0 that is found has height 5. -/
theorem heights_after_snapshot :
    Reachable id snapshotChain ∧ ¬ snapshotChain.HeightsRight := by
  refine ⟨.reset 5 "5a" "5b" .empty, fun h => ?_⟩
  have hindex : (5 : UInt64) = 0 := h.found 0 _ rfl
  exact absurd hindex (by decide)

end Blockchain

end Nodo.Model
