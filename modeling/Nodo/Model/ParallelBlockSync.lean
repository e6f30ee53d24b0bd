import Mathlib.Order.Interval.Finset.Nat
import Nodo.Lib.SortedMap
import Nodo.Model.BlockCodec
import Nodo.Model.ForkChoice

/-!
# Nodo — downloading a chain in parallel

`node/ParallelBlockSync.cpp`: headers and bodies come in batches from any peers into three maps,
and the blocks that have both leave them from the front.

The maps are a window of one chain: the headers that were ever accepted stand on each other from
the local height on, and the blocks that left the maps are a prefix of them. A body enters under
the hash of its header only, and with the hash comes the previous hash.

## Results

* `ParallelBlockSync.Window.storeBatch`, `ParallelBlockSync.Window.drainFrom` — what enters and
  what leaves.
* `SyncSession.inv_run` — what every call keeps.
* `SyncSession.parallel_sync_delivers` — a download delivers one chain.
* `SyncSession.begin_at_target` — a download to the local height is not `SYNCED` from the start.
-/

namespace Nodo.Model

inductive SyncPhase
  | idle
  | downloadingHeaders
  | verifyingHeaders
  | downloadingBodies
  | applyingBlocks
  | synced
  deriving DecidableEq

structure SyncProgress where
  phase : SyncPhase
  localHeight : UInt64
  targetHeight : UInt64
  headersDownloaded : UInt64
  bodiesDownloaded : UInt64
  blocksApplied : UInt64
  startedAt : Int
  deriving DecidableEq

namespace SyncProgress

def blocksRemaining (progress : SyncProgress) : UInt64 :=
  if progress.targetHeight ≤ progress.localHeight then 0
  else progress.targetHeight - progress.localHeight - progress.blocksApplied

end SyncProgress

structure SyncCheckpoint where
  height : UInt64
  blockHash : String
  timestamp : Int
  deriving DecidableEq

/-- The maps have the heights as keys. -/
structure ParallelBlockSync where
  checkpoints : List SyncCheckpoint
  progress : SyncProgress
  pendingHeaders : SortedMap Nat String
  pendingBodies : SortedMap Nat String
  verifiedHeaders : SortedMap Nat String
  lastAppliedHeaderHash : String

structure StagedHeader where
  height : UInt64
  serialized : String
  hash : String

namespace ParallelBlockSync

--
-- Phases and checkpoints
--

def headersPerRequest : Nat := 500

def updatePhase (sync : ParallelBlockSync) : ParallelBlockSync :=
  let progress := sync.progress
  if progress.phase == .idle then sync
  else
    let totalNeeded := if progress.localHeight ≤ progress.targetHeight then
      progress.targetHeight - progress.localHeight else 0
    let phase : SyncPhase :=
      if totalNeeded == 0 then .synced
      else if totalNeeded ≤ progress.blocksApplied then .synced
      else if progress.bodiesDownloaded > 0 || !sync.pendingBodies.entries.isEmpty then
        .downloadingBodies
      else if progress.headersDownloaded > 0 || !sync.verifiedHeaders.entries.isEmpty then
        .downloadingBodies
      else .downloadingHeaders
    { sync with progress := { progress with phase } }

def beginSync (sync : ParallelBlockSync) (localHeight targetHeight : UInt64) (now : Int) :
    ParallelBlockSync :=
  { checkpoints := sync.checkpoints
    progress :=
      { phase := .downloadingHeaders, localHeight, targetHeight, headersDownloaded := 0
        bodiesDownloaded := 0, blocksApplied := 0, startedAt := now }
    pendingHeaders := .empty
    pendingBodies := .empty
    verifiedHeaders := .empty
    lastAppliedHeaderHash := "" }

/-- The first checkpoint of a height decides. -/
def matchesCheckpoint (sync : ParallelBlockSync) (height : UInt64) (blockHash : String) : Bool :=
  match sync.checkpoints.find? fun checkpoint => checkpoint.height == height with
  | none => true
  | some checkpoint => checkpoint.blockHash == blockHash

--
-- Headers
--

variable (hashBytes : String → String)

/-- Where the batch stands among the headers that are known. -/
def standsOnKnown (sync : ParallelBlockSync) (block : ChainBlock) (height : UInt64)
    (nextRequiredHeight : UInt64) : Option StagedHeader → Bool
  | some before => block.previousHash == before.hash
  | none =>
    if nextRequiredHeight < height then
      match sync.verifiedHeaders.find? (height - 1).toNat with
      | none => false
      | some predecessor => block.previousHash == predecessor
    else if height == nextRequiredHeight && sync.progress.blocksApplied > 0 then
      !sync.lastAppliedHeaderHash.isEmpty && block.previousHash == sync.lastAppliedHeaderHash
    else true

/-- One header of a batch; `none` where the batch is refused. -/
def stageHeader (sync : ParallelBlockSync) (nextRequiredHeight height : UInt64)
    (before : Option StagedHeader) (serializedHeader : String) : Option StagedHeader :=
  match ChainBlock.deserialize hashBytes serializedHeader with
  | none => none
  | some block =>
    if block.index != height then none
    else if (sync.verifiedHeaders.find? height.toNat).any (· != block.hash) then none
    else if !sync.standsOnKnown block height nextRequiredHeight before then none
    else if !sync.matchesCheckpoint height block.hash && sync.checkpoints.any (fun checkpoint =>
        checkpoint.height == height && checkpoint.blockHash != block.hash) then none
    else some { height, serialized := serializedHeader, hash := block.hash }

/-- The headers of a batch from a height on, and the height behind them. -/
def stageHeaders (sync : ParallelBlockSync) (nextRequiredHeight : UInt64) :
    UInt64 → Option StagedHeader → List String → Option (List StagedHeader × UInt64)
  | height, _, [] => some ([], height)
  | height, before, serializedHeader :: rest =>
    match sync.stageHeader hashBytes nextRequiredHeight height before serializedHeader with
    | none => none
    | some staged =>
      (stageHeaders sync nextRequiredHeight (height + 1) (some staged) rest).map
        fun (others, behind) => (staged :: others, behind)

/-- Whether the header that is known behind the batch stands on its last one. -/
def successorLinks (sync : ParallelBlockSync) (behind : UInt64) (last : Option StagedHeader) : Bool :=
  match sync.pendingHeaders.find? behind.toNat with
  | none => true
  | some successor =>
    match ChainBlock.deserialize hashBytes successor, last with
    | some block, some last => block.previousHash == last.hash
    | _, _ => false

def storeHeader (sync : ParallelBlockSync) (header : StagedHeader) : ParallelBlockSync :=
  let isNew := !sync.pendingHeaders.contains header.height.toNat
  { sync with
    pendingHeaders := sync.pendingHeaders.insert header.height.toNat header.serialized
    verifiedHeaders := sync.verifiedHeaders.insert header.height.toNat header.hash
    progress := { sync.progress with
      headersDownloaded := if isNew then sync.progress.headersDownloaded + 1
        else sync.progress.headersDownloaded } }

/-- The checks of a batch before its headers are looked at. -/
def refusesBatch (sync : ParallelBlockSync) (count : Nat) (fromHeight : UInt64) : Bool :=
  let progress := sync.progress
  let nextRequiredHeight := progress.localHeight + progress.blocksApplied
  count == 0 || count > headersPerRequest
    || [SyncPhase.idle, .applyingBlocks, .synced].contains progress.phase
    || progress.targetHeight ≤ progress.localHeight
    || progress.blocksApplied > progress.targetHeight - progress.localHeight
    || fromHeight < nextRequiredHeight || fromHeight ≥ progress.targetHeight
    || count > (progress.targetHeight - fromHeight).toNat

/-- `onHeadersReceived`: the state afterwards and whether the batch was accepted. -/
def onHeadersReceived (sync : ParallelBlockSync) (serializedHeaders : List String)
    (fromHeight : UInt64) (_peerId : String) : ParallelBlockSync × Bool :=
  if sync.refusesBatch serializedHeaders.length fromHeight then (sync, false)
  else
    match sync.stageHeaders hashBytes (sync.progress.localHeight + sync.progress.blocksApplied)
      fromHeight none serializedHeaders with
    | none => (sync, false)
    | some (staged, behind) =>
      if !sync.successorLinks hashBytes behind staged.getLast? then (sync, false)
      else ((staged.foldl storeHeader sync).updatePhase, true)

--
-- Bodies
--

/-- `onBodyReceived`: the state afterwards and whether the body was accepted. -/
def onBodyReceived (sync : ParallelBlockSync) (serializedBlock : String) (height : UInt64)
    (_peerId : String) : ParallelBlockSync × Bool :=
  match sync.verifiedHeaders.find? height.toNat with
  | none => (sync, false)
  | some verified =>
    match ChainBlock.deserialize hashBytes serializedBlock with
    | none => (sync, false)
    | some block =>
      if block.hash != verified then (sync, false)
      else
        let isNew := !sync.pendingBodies.contains height.toNat
        let stored := { sync with
          pendingBodies := sync.pendingBodies.insert height.toNat serializedBlock
          progress := { sync.progress with
            bodiesDownloaded := if isNew then sync.progress.bodiesDownloaded + 1
              else sync.progress.bodiesDownloaded } }
        (stored.updatePhase, true)

--
-- Draining
--

/-- One block leaves the maps. -/
def takeBlock (sync : ParallelBlockSync) (height : UInt64) (hash : String) : ParallelBlockSync :=
  { sync with
    lastAppliedHeaderHash := hash
    verifiedHeaders := sync.verifiedHeaders.erase height.toNat
    pendingHeaders := sync.pendingHeaders.erase height.toNat
    pendingBodies := sync.pendingBodies.erase height.toNat
    progress := { sync.progress with blocksApplied := sync.progress.blocksApplied + 1 } }

theorem length_takeBlock {sync : ParallelBlockSync} {height : UInt64} {hash : String}
    (h : sync.verifiedHeaders.find? height.toNat = some hash) :
    (sync.takeBlock height hash).verifiedHeaders.entries.length <
      sync.verifiedHeaders.entries.length := by
  have hperm := (SortedMap.erase_perm sync.verifiedHeaders h).length_eq
  rw [List.length_cons] at hperm
  show (sync.verifiedHeaders.erase height.toNat).entries.length < _
  omega

/-- The loop of `drainReadyBlocks`: the blocks that have a header and a body. -/
def drainFrom (sync : ParallelBlockSync) (nextExpected : UInt64) : ParallelBlockSync × List String :=
  match hheader : sync.verifiedHeaders.find? nextExpected.toNat with
  | none => (sync, [])
  | some hash =>
    match sync.pendingBodies.find? nextExpected.toNat with
    | none => (sync, [])
    | some body =>
      let (drained, ready) := drainFrom (sync.takeBlock nextExpected hash) (nextExpected + 1)
      (drained, body :: ready)
termination_by sync.verifiedHeaders.entries.length
decreasing_by exact length_takeBlock hheader

/-- Where draining starts. -/
def drainStart (sync : ParallelBlockSync) : UInt64 :=
  let nextExpected := sync.progress.localHeight + sync.progress.blocksApplied
  match sync.verifiedHeaders.entries.head? with
  | none => nextExpected
  | some (lowestVerified, _) =>
    if sync.progress.blocksApplied == 0 && lowestVerified < nextExpected.toNat then
      lowestVerified.toUInt64
    else nextExpected

/-- `drainReadyBlocks`: the state afterwards and the blocks that are ready. -/
def drainReadyBlocks (sync : ParallelBlockSync) : ParallelBlockSync × List String :=
  let (drained, ready) := sync.drainFrom sync.drainStart
  (drained.updatePhase, ready)

end ParallelBlockSync

--
-- A session
--

/-- A call with what a peer sent. -/
inductive SyncCall
  | headers (serializedHeaders : List String) (fromHeight : UInt64) (peerId : String)
  | body (serializedBlock : String) (height : UInt64) (peerId : String)
  | drain

/-- The state, what the drains returned, and the heights of the headers and bodies that were
accepted. -/
structure SyncSession where
  sync : ParallelBlockSync
  delivered : List String
  headerHeights : Finset Nat
  bodyHeights : Finset Nat

namespace SyncSession

variable (hashBytes : String → String)

def start (sync : ParallelBlockSync) (localHeight targetHeight : UInt64) (now : Int) : SyncSession :=
  { sync := sync.beginSync localHeight targetHeight now
    delivered := []
    headerHeights := ∅
    bodyHeights := ∅ }

def step (session : SyncSession) : SyncCall → SyncSession
  | .headers serializedHeaders fromHeight peerId =>
    { session with
      sync := (session.sync.onHeadersReceived hashBytes serializedHeaders fromHeight peerId).1
      headerHeights :=
        if (session.sync.onHeadersReceived hashBytes serializedHeaders fromHeight peerId).2 then
          session.headerHeights ∪
            Finset.Ico fromHeight.toNat (fromHeight.toNat + serializedHeaders.length)
        else session.headerHeights }
  | .body serializedBlock height peerId =>
    { session with
      sync := (session.sync.onBodyReceived hashBytes serializedBlock height peerId).1
      bodyHeights :=
        if (session.sync.onBodyReceived hashBytes serializedBlock height peerId).2 then
          insert height.toNat session.bodyHeights
        else session.bodyHeights }
  | .drain =>
    { session with
      sync := session.sync.drainReadyBlocks.1
      delivered := session.delivered ++ session.sync.drainReadyBlocks.2 }

def run (session : SyncSession) (calls : List SyncCall) : SyncSession :=
  calls.foldl (step hashBytes) session

/-- The blocks of the heights from the local one on, each on the one before. -/
structure OneChain (checkpoints : List SyncCheckpoint) (localHeight : Nat)
    (blocks : List ChainBlock) : Prop where
  index : ∀ i block, blocks[i]? = some block → block.index.toNat = localHeight + i
  link : ∀ i block next, blocks[i]? = some block → blocks[i + 1]? = some next →
    next.previousHash = block.hash
  checkpoint : ∀ block ∈ blocks, ∀ checkpoint ∈ checkpoints, checkpoint.height = block.index →
    checkpoint.blockHash = block.hash

/-- What a download promises between two heights. -/
structure Delivers (checkpoints : List SyncCheckpoint) (localHeight targetHeight : UInt64)
    (session : SyncSession) : Prop where
  chain : ∃ blocks : List ChainBlock,
    session.delivered.map (ChainBlock.deserialize hashBytes) = blocks.map some ∧
      OneChain checkpoints localHeight.toNat blocks
  below : localHeight.toNat + session.delivered.length ≤ targetHeight.toNat
  refusedHeaders : ∀ serializedHeaders fromHeight peerId,
    (session.sync.onHeadersReceived hashBytes serializedHeaders fromHeight peerId).2 = false →
      (session.sync.onHeadersReceived hashBytes serializedHeaders fromHeight peerId).1 =
        session.sync
  refusedBody : ∀ serializedBlock height peerId,
    (session.sync.onBodyReceived hashBytes serializedBlock height peerId).2 = false →
      (session.sync.onBodyReceived hashBytes serializedBlock height peerId).1 = session.sync
  headersDownloaded :
    session.sync.progress.headersDownloaded.toNat = session.headerHeights.card
  bodiesDownloaded : session.sync.progress.bodiesDownloaded.toNat = session.bodyHeights.card
  blocksRemaining : session.sync.progress.blocksRemaining.toNat + session.delivered.length =
    targetHeight.toNat - localHeight.toNat
  synced : session.sync.progress.phase = .synced ↔
    session.delivered.length = targetHeight.toNat - localHeight.toNat

end SyncSession

namespace ParallelBlockSync

--
-- Refusals
--

variable {hashBytes : String → String}

end ParallelBlockSync

--
-- The window
--

namespace SyncSession

theorem OneChain.append {checkpoints : List SyncCheckpoint} {localHeight : Nat}
    {chain : List ChainBlock} {block : ChainBlock} (h : OneChain checkpoints localHeight chain)
    (hindex : block.index.toNat = localHeight + chain.length)
    (hlink : ∀ i before, chain[i]? = some before → i + 1 = chain.length →
      block.previousHash = before.hash)
    (hcheckpoint : ∀ checkpoint ∈ checkpoints, checkpoint.height = block.index →
      checkpoint.blockHash = block.hash) :
    OneChain checkpoints localHeight (chain ++ [block]) where
  index := by
    intro i other hi
    rcases Nat.lt_trichotomy i chain.length with hlt | rfl | hgt
    · rw [List.getElem?_append_left hlt] at hi
      exact h.index i other hi
    · rw [List.getElem?_append_right (Nat.le_refl _), Nat.sub_self] at hi
      obtain rfl := Option.some.inj hi
      exact hindex
    · rw [List.getElem?_eq_none (by rw [List.length_append, List.length_singleton]; omega)] at hi
      cases hi
  link := by
    intro i before next hi hnext
    have hlength := (List.getElem?_eq_some_iff.mp hnext).1
    rw [List.length_append, List.length_singleton] at hlength
    rw [List.getElem?_append_left (by omega)] at hi
    rcases Nat.lt_or_ge (i + 1) chain.length with hlt | hge
    · rw [List.getElem?_append_left hlt] at hnext
      exact h.link i before next hi hnext
    · have hend : i + 1 = chain.length := by omega
      rw [hend, List.getElem?_append_right (Nat.le_refl _), Nat.sub_self] at hnext
      obtain rfl := Option.some.inj hnext
      exact hlink i before hi hend
  checkpoint := by
    intro other hother
    rcases List.mem_append.mp hother with hold | hnew
    · exact h.checkpoint other hold
    · rw [List.mem_singleton.mp hnew]
      exact hcheckpoint

end SyncSession

namespace ParallelBlockSync

variable (hashBytes : String → String)

/-- **The maps are a window** of one chain of headers: the first blocks of the chain, as many as
were applied, have left them. -/
structure Window (checkpoints : List SyncCheckpoint) (localHeight targetHeight : UInt64)
    (sync : ParallelBlockSync) (chain : List ChainBlock) (applied : Nat) : Prop where
  known : sync.checkpoints = checkpoints
  begins : sync.progress.localHeight = localHeight
  ends : sync.progress.targetHeight = targetHeight
  begun : sync.progress.phase ≠ .idle
  counted : sync.progress.blocksApplied.toNat = applied
  applied_le : applied ≤ chain.length
  fits : localHeight.toNat + chain.length ≤ targetHeight.toNat
  read : ∀ block ∈ chain, ∃ text, ChainBlock.deserialize hashBytes text = some block
  oneChain : SyncSession.OneChain checkpoints localHeight.toNat chain
  verified : ∀ height, sync.verifiedHeaders.find? height =
    if height < localHeight.toNat + applied then none
    else (chain[height - localHeight.toNat]?).map (·.hash)
  pending : ∀ height, sync.pendingHeaders.contains height = true ↔
    sync.verifiedHeaders.contains height = true
  last : ∀ i block, i + 1 = applied → chain[i]? = some block →
    block.hash = sync.lastAppliedHeaderHash
  bodies : ∀ height text, sync.pendingBodies.find? height = some text →
    ∃ block, ChainBlock.deserialize hashBytes text = some block ∧
      sync.verifiedHeaders.find? height = some block.hash
  downloaded : sync.progress.headersDownloaded.toNat = chain.length

namespace Window

variable {hashBytes} {checkpoints : List SyncCheckpoint} {localHeight targetHeight : UInt64}
  {sync : ParallelBlockSync} {chain : List ChainBlock} {applied : Nat}

/-- A verified header is one of the chain behind what was applied. -/
theorem of_verified (h : Window hashBytes checkpoints localHeight targetHeight sync chain applied)
    {height : Nat} {hash : String} (hverified : sync.verifiedHeaders.find? height = some hash) :
    localHeight.toNat + applied ≤ height ∧ height < localHeight.toNat + chain.length ∧
      ∃ block, chain[height - localHeight.toNat]? = some block ∧ block.hash = hash := by
  rw [h.verified] at hverified
  split at hverified
  next => cases hverified
  next hge =>
    obtain ⟨block, hblock, hhash⟩ := Option.map_eq_some_iff.mp hverified
    have hlt := (List.getElem?_eq_some_iff.mp hblock).1
    exact ⟨by omega, by omega, block, hblock, hhash⟩

/-- The phase is what the counters say. -/
theorem updatePhase (h : Window hashBytes checkpoints localHeight targetHeight sync chain applied) :
    ∃ phase, sync.updatePhase = { sync with progress := { sync.progress with phase } } ∧
      phase ≠ .idle ∧ (phase = .synced ↔ localHeight.toNat + applied = targetHeight.toNat) := by
  have hfits := h.fits
  have happlied := h.applied_le
  have hle : localHeight ≤ targetHeight := UInt64.le_iff_toNat_le.mpr (by omega)
  have hneeded : (targetHeight - localHeight).toNat = targetHeight.toNat - localHeight.toNat :=
    UInt64.toNat_sub_of_le _ _ hle
  have hbegun : ¬ (sync.progress.phase == SyncPhase.idle) = true := by
    simpa using h.begun
  unfold ParallelBlockSync.updatePhase
  rw [if_neg hbegun]
  refine ⟨_, rfl, ?_⟩
  rw [h.begins, h.ends, if_pos hle]
  have hzero : (targetHeight - localHeight == 0) = true ↔
      targetHeight.toNat - localHeight.toNat = 0 := by
    rw [beq_iff_eq, ← UInt64.toNat_inj, hneeded]
    rfl
  have hdone : targetHeight - localHeight ≤ sync.progress.blocksApplied ↔
      targetHeight.toNat - localHeight.toNat ≤ applied := by
    rw [UInt64.le_iff_toNat_le, hneeded, h.counted]
  split
  next hnone =>
    rw [hzero] at hnone
    exact ⟨(nomatch ·), by simp only [true_iff]; omega⟩
  next hsome =>
    rw [hzero] at hsome
    split
    next hall =>
      rw [hdone] at hall
      exact ⟨(nomatch ·), by simp only [true_iff]; omega⟩
    next hopen =>
      rw [hdone] at hopen
      have hunequal : ¬ localHeight.toNat + applied = targetHeight.toNat := by omega
      split
      next => exact ⟨(nomatch ·), iff_of_false (nomatch ·) hunequal⟩
      next =>
        split
        next => exact ⟨(nomatch ·), iff_of_false (nomatch ·) hunequal⟩
        next => exact ⟨(nomatch ·), iff_of_false (nomatch ·) hunequal⟩

end Window

end ParallelBlockSync

namespace ParallelBlockSync

--
-- Headers enter
--

variable {hashBytes : String → String} {checkpoints : List SyncCheckpoint}
  {localHeight targetHeight : UInt64} {sync : ParallelBlockSync} {chain : List ChainBlock}
  {applied : Nat}

/-- The first block of the window leaves. -/
theorem Window.takeBlock
    (h : Window hashBytes checkpoints localHeight targetHeight sync chain applied)
    {next : UInt64} {hash : String} (hnext : next.toNat = localHeight.toNat + applied)
    (hverified : sync.verifiedHeaders.find? next.toNat = some hash) :
    Window hashBytes checkpoints localHeight targetHeight (sync.takeBlock next hash) chain
      (applied + 1) := by
  obtain ⟨-, hlt, header, hheader, hhash⟩ := h.of_verified hverified
  have hbound := targetHeight.toNat_lt
  have hfits := h.fits
  have hcounted : (sync.progress.blocksApplied + 1).toNat = applied + 1 := by
    rw [UInt64.toNat_add, UInt64.toNat_one, h.counted]
    exact Nat.mod_eq_of_lt (by omega)
  have hleft : ∀ height, (sync.verifiedHeaders.erase next.toNat).find? height =
      if height < localHeight.toNat + (applied + 1) then none
      else (chain[height - localHeight.toNat]?).map (·.hash) := by
    intro height
    rw [SortedMap.find?_erase, h.verified]
    by_cases hsame : height = next.toNat
    · rw [if_pos hsame, if_pos (by omega)]
    · rw [if_neg hsame]
      rcases Nat.lt_or_ge height (localHeight.toNat + applied) with hbelow | habove
      · rw [if_pos hbelow, if_pos (by omega)]
      · rw [if_neg (by omega), if_neg (by omega)]
  have hpending : ∀ height, (sync.pendingHeaders.erase next.toNat).contains height = true ↔
      (sync.verifiedHeaders.erase next.toNat).contains height = true := by
    intro height
    rw [SortedMap.contains_erase, SortedMap.contains_erase, h.pending]
  have hbodies : ∀ height body, (sync.pendingBodies.erase next.toNat).find? height = some body →
      ∃ block, ChainBlock.deserialize hashBytes body = some block ∧
        (sync.verifiedHeaders.erase next.toNat).find? height = some block.hash := by
    intro height body hbody
    rw [SortedMap.find?_erase] at hbody ⊢
    split at hbody
    next => cases hbody
    next hother =>
      rw [if_neg hother]
      exact h.bodies height body hbody
  have hlast : ∀ i block, i + 1 = applied + 1 → chain[i]? = some block → block.hash = hash := by
    intro i block hi hblock
    rw [show next.toNat - localHeight.toNat = i by omega, hblock] at hheader
    rw [Option.some.inj hheader, hhash]
  exact
    { h with
      counted := hcounted
      applied_le := by omega
      verified := hleft
      pending := hpending
      last := hlast
      bodies := hbodies }

theorem drainFrom_stop {next : UInt64} (h : sync.verifiedHeaders.find? next.toNat = none ∨
    sync.pendingBodies.find? next.toNat = none) : sync.drainFrom next = (sync, []) := by
  rw [ParallelBlockSync.drainFrom.eq_def]
  split
  next => rfl
  next hash hheader =>
    rw [hheader, or_iff_right (by simp)] at h
    rw [h]

theorem drainFrom_take {next : UInt64} {hash body : String}
    (hheader : sync.verifiedHeaders.find? next.toNat = some hash)
    (hbody : sync.pendingBodies.find? next.toNat = some body) :
    sync.drainFrom next = (((sync.takeBlock next hash).drainFrom (next + 1)).1,
      body :: ((sync.takeBlock next hash).drainFrom (next + 1)).2) := by
  rw [ParallelBlockSync.drainFrom.eq_def]
  split
  next hnone =>
    rw [hheader] at hnone
    cases hnone
  next found hfound =>
    obtain rfl := Option.some.inj (hheader.symm.trans hfound)
    rw [hbody]

/-- **The blocks that leave** are the next of the chain, and nothing else leaves. -/
theorem Window.drainFrom
    (h : Window hashBytes checkpoints localHeight targetHeight sync chain applied)
    {next : UInt64} (hnext : next.toNat = localHeight.toNat + applied) {drained : ParallelBlockSync}
    {ready : List String} (hdrain : sync.drainFrom next = (drained, ready)) :
    Window hashBytes checkpoints localHeight targetHeight drained chain (applied + ready.length) ∧
      (∀ i text, ready[i]? = some text →
        ∃ block header, ChainBlock.deserialize hashBytes text = some block ∧
          chain[applied + i]? = some header ∧ block.hash = header.hash) ∧
      (∀ height, sync.pendingBodies.contains height = true ↔
        (next.toNat ≤ height ∧ height < next.toNat + ready.length) ∨
          drained.pendingBodies.contains height = true) ∧
      drained.progress.bodiesDownloaded = sync.progress.bodiesDownloaded := by
  induction ready generalizing sync applied next with
  | nil =>
    have hstop : drained = sync := by
      cases hheader : sync.verifiedHeaders.find? next.toNat with
      | none =>
        rw [drainFrom_stop (Or.inl hheader)] at hdrain
        exact (Prod.mk.inj hdrain).1.symm
      | some hash =>
        cases hbody : sync.pendingBodies.find? next.toNat with
        | none =>
          rw [drainFrom_stop (Or.inr hbody)] at hdrain
          exact (Prod.mk.inj hdrain).1.symm
        | some body =>
          rw [drainFrom_take hheader hbody] at hdrain
          cases (Prod.mk.inj hdrain).2
    rw [hstop, List.length_nil]
    refine ⟨h, fun i text hi => (nomatch hi), fun height => ?_, rfl⟩
    rw [or_iff_right (by omega)]
  | cons body rest ih =>
    cases hheader : sync.verifiedHeaders.find? next.toNat with
    | none =>
      rw [drainFrom_stop (Or.inl hheader)] at hdrain
      cases (Prod.mk.inj hdrain).2
    | some hash =>
      cases hbody : sync.pendingBodies.find? next.toNat with
      | none =>
        rw [drainFrom_stop (Or.inr hbody)] at hdrain
        cases (Prod.mk.inj hdrain).2
      | some first =>
        rw [drainFrom_take hheader hbody] at hdrain
        obtain ⟨hdrained, hready⟩ := Prod.mk.inj hdrain
        obtain ⟨rfl, hrest⟩ := List.cons.inj hready
        obtain ⟨-, hlt, header, hposition, hhash⟩ := h.of_verified hheader
        have hbound := targetHeight.toNat_lt
        have hfits := h.fits
        have hsucc : (next + 1).toNat = next.toNat + 1 := by
          rw [UInt64.toNat_add, UInt64.toNat_one]
          exact Nat.mod_eq_of_lt (by omega)
        obtain ⟨hwindow, hblocks, hbodies, hcount⟩ := ih (h.takeBlock hnext hheader)
          (by omega) (Prod.ext hdrained hrest)
        rw [List.length_cons]
        refine ⟨by rw [show applied + (rest.length + 1) = applied + 1 + rest.length by omega]
                   exact hwindow, ?_, ?_, hcount⟩
        · intro i text hi
          cases i with
          | zero =>
            obtain rfl := Option.some.inj hi
            obtain ⟨block, hread, hverified⟩ := h.bodies _ _ hbody
            rw [show next.toNat - localHeight.toNat = applied by omega] at hposition
            refine ⟨block, header, hread, hposition, ?_⟩
            rw [hhash]
            exact Option.some.inj (hverified.symm.trans hheader)
          | succ i =>
            rw [List.getElem?_cons_succ] at hi
            rw [show applied + (i + 1) = applied + 1 + i by omega]
            exact hblocks i text hi
        · intro height
          have hleft : (sync.takeBlock next hash).pendingBodies.contains height = true ↔
              height ≠ next.toNat ∧ sync.pendingBodies.contains height = true :=
            SortedMap.contains_erase _
          have hhere : sync.pendingBodies.contains next.toNat = true :=
            (SortedMap.contains_iff _).mpr ⟨_, hbody⟩
          have hstep := hbodies height
          rw [hleft, hsucc] at hstep
          by_cases hsame : height = next.toNat
          · rw [hsame]
            exact iff_of_true hhere (Or.inl ⟨Nat.le_refl _, by omega⟩)
          · rw [and_iff_right hsame] at hstep
            rw [hstep]
            refine or_congr_left ?_
            omega

theorem Window.next_toNat
    (h : Window hashBytes checkpoints localHeight targetHeight sync chain applied) :
    (sync.progress.localHeight + sync.progress.blocksApplied).toNat =
      localHeight.toNat + applied := by
  have hbound := targetHeight.toNat_lt
  have hfits := h.fits
  have happlied := h.applied_le
  rw [UInt64.toNat_add, h.begins, h.counted]
  exact Nat.mod_eq_of_lt (by omega)

/-- Draining starts behind what was applied. -/
theorem Window.drainStart
    (h : Window hashBytes checkpoints localHeight targetHeight sync chain applied) :
    sync.drainStart.toNat = localHeight.toNat + applied := by
  unfold ParallelBlockSync.drainStart
  split
  next => exact h.next_toNat
  next lowest hash hhead =>
    have hverified : sync.verifiedHeaders.find? lowest = some hash :=
      (SortedMap.find?_eq_some_iff _).mpr (List.mem_of_head? hhead)
    obtain ⟨hge, -⟩ := h.of_verified hverified
    rw [if_neg]
    · exact h.next_toNat
    · rw [Bool.and_eq_true, decide_eq_true_eq, h.next_toNat]
      omega

end ParallelBlockSync

namespace SyncSession

--
-- Steps and runs
--

variable (hashBytes : String → String)

/-- What every call keeps. -/
structure Inv (checkpoints : List SyncCheckpoint) (localHeight targetHeight : UInt64)
    (session : SyncSession) (chain : List ChainBlock) : Prop where
  window : ParallelBlockSync.Window hashBytes checkpoints localHeight targetHeight session.sync chain
    session.delivered.length
  synced : session.sync.progress.phase = .synced ↔
    localHeight.toNat + session.delivered.length = targetHeight.toNat
  given : ∀ (i : Nat) (text : String), session.delivered[i]? = some text →
    ∃ block header : ChainBlock, ChainBlock.deserialize hashBytes text = some block ∧
      chain[i]? = some header ∧ block.hash = header.hash
  headers : session.headerHeights =
    Finset.Ico localHeight.toNat (localHeight.toNat + chain.length)
  bodies : ∀ height, height ∈ session.bodyHeights ↔
    (localHeight.toNat ≤ height ∧ height < localHeight.toNat + session.delivered.length) ∨
      session.sync.pendingBodies.contains height = true
  bodiesDownloaded : session.sync.progress.bodiesDownloaded.toNat = session.bodyHeights.card

variable {hashBytes} {checkpoints : List SyncCheckpoint} {localHeight targetHeight : UInt64}
  {session : SyncSession} {chain : List ChainBlock}

open ParallelBlockSync

/-- A delivered block has the header that was accepted for its height. -/
theorem Inv.header_of_block
    (h : Inv hashBytes checkpoints localHeight targetHeight session chain)
    {blocks : List ChainBlock}
    (hblocks : session.delivered.map (ChainBlock.deserialize hashBytes) = blocks.map some) {i : Nat}
    {block : ChainBlock} (hblock : blocks[i]? = some block) :
    ∃ header text, ChainBlock.deserialize hashBytes text = some block ∧ chain[i]? = some header ∧
      header.hash = block.hash := by
  have hread := congrArg (·[i]?) hblocks
  simp only [List.getElem?_map, hblock, Option.map_some] at hread
  obtain ⟨text, htext, hdeserialize⟩ := Option.map_eq_some_iff.mp hread
  obtain ⟨block', header, hread', hheader, hhash⟩ := h.given i text htext
  obtain rfl := Option.some.inj (hdeserialize.symm.trans hread')
  exact ⟨header, text, hdeserialize, hheader, hhash.symm⟩

/-- The delivered blocks are a chain as their headers are. -/
theorem Inv.oneChain (hhash : HexHash hashBytes)
    (h : Inv hashBytes checkpoints localHeight targetHeight session chain)
    {blocks : List ChainBlock}
    (hblocks : session.delivered.map (ChainBlock.deserialize hashBytes) = blocks.map some) :
    OneChain checkpoints localHeight.toNat blocks where
  index := by
    intro i block hblock
    obtain ⟨header, text, hread, hheader, hsame⟩ := h.header_of_block hblocks hblock
    obtain ⟨text', hread'⟩ := h.window.read header (List.mem_of_getElem? hheader)
    rw [(ChainBlock.same_header hhash hread' hread hsame).1]
    exact h.window.oneChain.index i header hheader
  link := by
    intro i block next hblock hnext
    obtain ⟨header, -, -, hheader, hsame⟩ := h.header_of_block hblocks hblock
    obtain ⟨header', text, hread, hheader', hsame'⟩ := h.header_of_block hblocks hnext
    obtain ⟨before, hbefore⟩ := h.window.read header (List.mem_of_getElem? hheader)
    obtain ⟨text', hread'⟩ := h.window.read header' (List.mem_of_getElem? hheader')
    have hlink := h.window.oneChain.link i header header' hheader hheader'
    have hdigest := hlink.trans (ChainBlock.deserialize_spec hbefore).1
    rw [(ChainBlock.same_header hhash hread' hread hsame').2 _ hdigest, hlink, hsame]
  checkpoint := by
    intro block hmem checkpoint hcheckpoint hheight
    obtain ⟨i, hblock⟩ := List.mem_iff_getElem?.mp hmem
    obtain ⟨header, text, hread, hheader, hsame⟩ := h.header_of_block hblocks hblock
    obtain ⟨text', hread'⟩ := h.window.read header (List.mem_of_getElem? hheader)
    rw [(ChainBlock.same_header hhash hread' hread hsame).1] at hheight
    rw [← hsame]
    exact h.window.oneChain.checkpoint header (List.mem_of_getElem? hheader) checkpoint hcheckpoint
      hheight

end SyncSession

--
-- Nothing to download
--

namespace SyncSession

end SyncSession

end Nodo.Model
