import Nodo.Model.SyncRecovery

/-!
# Nodo — catching up with a peer

The planner of `node/PersistentBlockStateSync.cpp` asks, `node/SyncRecoveryPolicy.cpp` serves and
judges the answer, which `buildSyncResponseBatch` of `node/NodeOrchestrator.cpp` makes. Each of them
computes the window of heights anew.

A requester whose chain is the beginning of the responder's gets further with every exchange, also
where its chain has grown before the answer comes.

## Results

* `SyncRequester.exchange_spec` — what one exchange does.
* `SyncRequester.catchUp_grows` — exchange after exchange the chain grows.
* `honest_catch_up` — a node that follows an honest peer reaches its tip.
-/

namespace Nodo.Model

--
-- The answer
--

variable (hashBytes : String → String)

/-- The item of a block; the text of its finalized record comes from the block file. -/
def syncItem (records : UInt64 → String) (now : Int) (block : ChainBlock) :
    PersistentBlockSyncItem where
  height := block.index
  blockHash := block.hash
  previousBlockHash := block.previousHash
  serializedBlock := block.serialize hashBytes
  finalizedStateRoot :=
    if ChainBlock.isCanonicalCommitmentRoot block.stateRoot then block.stateRoot
    else "height-" ++ toString block.index.toNat
  createdAt := now
  serializedFinalizedRecord := records block.index

def buildSyncResponseBatch (blockchain : Blockchain) (records : UInt64 → String)
    (localPeerId : String) (fromHeight maxItems : UInt64) (now : Int) : PersistentBlockSyncBatch :=
  let items := ((blockchain.blocks.filter fun block => fromHeight ≤ block.index).take
    maxItems.toNat).map (syncItem hashBytes records now)
  match items.head?, items.getLast? with
  | some first, some last =>
    { sourcePeerId := localPeerId, fromHeight := first.height, toHeight := last.height, items
      createdAt := now }
  | _, _ => { sourcePeerId := "", fromHeight := 0, toHeight := 0, items := [], createdAt := 0 }

--
-- Exchanges
--

/-- A node that catches up. -/
structure SyncRequester where
  chain : Blockchain
  checkpoint : PersistentSyncCheckpoint

/-- What one exchange is made with: who asks whom, the limits of both sides and their clocks. -/
structure SyncExchange where
  localNodeId : String
  sourcePeerId : String
  maxBlocksPerRequest : UInt64
  maxBatchSize : UInt64
  now : Int
  servedAt : Int

namespace SyncRequester

/-- The blocks of the new items join the chain, and the checkpoint is that of the last one. -/
def importNew (requester : SyncRequester) (responder : Blockchain)
    (batch : PersistentBlockSyncBatch) (firstNewItemIndex : Nat) (now : Int) : SyncRequester :=
  match batch.items.getLast? with
  | none => requester
  | some last =>
    { chain :=
        { blocks := requester.chain.blocks ++ (batch.items.drop firstNewItemIndex).filterMap
            fun item => responder.blockByHeight item.height }
      checkpoint :=
        { schemaVersion := PersistentSyncCheckpoint.currentSchemaVersion
          finalizedHeight := last.height
          finalizedBlockHash := last.blockHash
          finalizedStateRoot := last.finalizedStateRoot
          status := .complete
          sourcePeerId := batch.sourcePeerId
          updatedAt := now } }

/-- A request, its answer and the import; a requester that is refused stays as it is. -/
def exchange (responder : Blockchain) (status : ChainStatusMessage) (records : UInt64 → String)
    (requester : SyncRequester) (round : SyncExchange) : SyncRequester :=
  match planFromRemoteStatus requester.checkpoint status round.localNodeId round.sourcePeerId
    round.maxBlocksPerRequest round.now with
  | .requestBlocks _ request =>
    match SyncRecoveryPolicy.evaluateServeRequest request round.localNodeId responder
      round.maxBatchSize with
    | some (.accepted fromHeight maxItems _) =>
      let batch := buildSyncResponseBatch hashBytes responder records round.sourcePeerId fromHeight
        maxItems round.servedAt
      match SyncRecoveryPolicy.evaluateResponseBatch batch round.sourcePeerId requester.checkpoint
        requester.chain with
      | some (.accepted firstNewItemIndex) =>
        requester.importNew responder batch firstNewItemIndex round.now
      | _ => requester
    | _ => requester
  | _ => requester

def catchUp (responder : Blockchain) (status : ChainStatusMessage) (records : UInt64 → String)
    (requester : SyncRequester) (rounds : List SyncExchange) : SyncRequester :=
  rounds.foldl (exchange hashBytes responder status records) requester

end SyncRequester

--
-- Honest chains
--

/-- The hasher prints 64 hexadecimal digits. -/
def PrintsDigests : Prop :=
  ∀ text, ChainBlock.isCanonicalCommitmentRoot (hashBytes text) = true

/-- A chain from the genesis block, with all commitments. -/
structure FinalizedChain (chain : Blockchain) : Prop where
  valid : chain.isValid hashBytes true = true
  genesis : ∀ front, chain.blocks[0]? = some front →
    Blockchain.isValidGenesisBlock hashBytes front = true
  size_le : chain.size ≤ Blockchain.maxSize

/-- What a peer reports of its chain. -/
structure Reports (responder : Blockchain) (status : ChainStatusMessage) (latest : ChainBlock) :
    Prop where
  wellFormed : status.isValid = true
  tip : responder.blocks.getLast? = some latest
  finalized : status.finalizedHeight = latest.index

/-- The checkpoint of a node is at the tip of its chain, which is the beginning of the responder's. -/
structure SyncRequester.Follows (responder : Blockchain) (requester : SyncRequester) : Prop where
  isPrefix : requester.chain.blocks <+: responder.blocks
  saved : requester.checkpoint.isValid = true
  tip : ∃ tip, requester.chain.blocks.getLast? = some tip ∧
    tip.index = requester.checkpoint.finalizedHeight ∧
    tip.hash = requester.checkpoint.finalizedBlockHash

/-- Names that may stand in an envelope, and clocks that run. -/
structure SyncExchange.IsValid (round : SyncExchange) : Prop where
  localNodeId : isSafeSyncScalar 160 round.localNodeId = true
  sourcePeerId : isSafeSyncScalar 160 round.sourcePeerId = true
  now : 0 < round.now
  servedAt : 0 < round.servedAt

open SyncRecoveryPolicy in
/-- **What an exchange does**: the request is planned and served from the height behind the tip, and
the answer is accepted with a new block at least. A node that has grown along the responder's chain
before the answer comes takes what is new to it, or finds the answer stale. -/
def SyncRequester.Progresses (responder : Blockchain) (status : ChainStatusMessage)
    (records : UInt64 → String) (requester : SyncRequester) (round : SyncExchange) : Prop :=
  ∃ reason request fromHeight maxItems hash batch,
    planFromRemoteStatus requester.checkpoint status round.localNodeId round.sourcePeerId
      round.maxBlocksPerRequest round.now = .requestBlocks reason request ∧
    evaluateServeRequest request round.localNodeId responder round.maxBatchSize =
      some (.accepted fromHeight maxItems hash) ∧
    buildSyncResponseBatch hashBytes responder records round.sourcePeerId fromHeight maxItems
      round.servedAt = batch ∧
    batch.items = ((responder.blocks.drop fromHeight.toNat).take maxItems.toNat).map
      (syncItem hashBytes records round.servedAt) ∧
    fromHeight.toNat = requester.chain.size ∧ 0 < maxItems.toNat ∧
    fromHeight.toNat + maxItems.toNat ≤ responder.size ∧
    ∀ later : SyncRequester, later.Follows responder →
      requester.chain.size ≤ later.chain.size →
      (∃ i, evaluateResponseBatch batch round.sourcePeerId later.checkpoint later.chain =
          some (.accepted i) ∧ fromHeight.toNat + i = later.chain.size ∧
          i < batch.items.length ∧ ∀ now, 0 < now →
            (later.importNew responder batch i now).Follows responder ∧
            (later.importNew responder batch i now).chain.size =
              fromHeight.toNat + maxItems.toNat) ∨
      ∃ reason, evaluateResponseBatch batch round.sourcePeerId later.checkpoint later.chain =
          some (.stale reason) ∧ fromHeight.toNat + maxItems.toNat ≤ later.chain.size

--
-- What a finalized chain is made of
--

variable {hashBytes : String → String}

theorem isSafeSyncScalar_mono {small large : Nat} {value : String} (hle : small ≤ large)
    (h : isSafeSyncScalar small value = true) : isSafeSyncScalar large value = true := by
  unfold isSafeSyncScalar at h ⊢
  rw [Bool.and_eq_true, decide_eq_true_eq] at h ⊢
  exact ⟨h.1, by omega⟩

/-- A digest may stand in a message. -/
theorem isSafeSyncScalar_digest {maxSize : Nat} {value : String} (hsize : 64 ≤ maxSize)
    (h : ChainBlock.isCanonicalCommitmentRoot value = true) :
    isSafeSyncScalar maxSize value = true := by
  unfold ChainBlock.isCanonicalCommitmentRoot at h
  obtain ⟨hlength, hdigits⟩ := Guards.true_of_ite_false h
  rw [ne_eq, not_not] at hlength
  have hsome : value.isEmpty = false := by
    rw [← Bool.not_eq_true, String.isEmpty_iff]
    rintro rfl
    cases hlength
  unfold isSafeSyncScalar isSafeIdentifier
  rw [hsome, Bool.not_false, Bool.true_and, Bool.and_eq_true, decide_eq_true_eq]
  refine ⟨?_, by omega⟩
  rw [List.all_eq_true] at hdigits ⊢
  intro c hc
  have hdigit := hdigits c hc
  simp only [Bool.or_eq_true, Bool.and_eq_true, decide_eq_true_eq] at hdigit ⊢
  rcases hdigit with hnumber | ⟨hlow, hhigh⟩
  · exact Or.inl (Or.inr hnumber)
  · exact Or.inl (Or.inl (Or.inl ⟨hlow, Nat.le_trans hhigh (by decide)⟩))

/-- What the checks of a block say about its sizes and roots. -/
theorem ChainBlock.of_isValid_committed {block : ChainBlock}
    (h : block.isValid hashBytes true = true) (hsnapshot : block.previousHash ≠ "SNAPSHOT") :
    block.hash = block.calculateHash hashBytes ∧
      (block.serialize hashBytes).length ≤ maxSerializedBytes ∧
      (block.index ≠ 0 → isCanonicalCommitmentRoot block.stateRoot = true) := by
  unfold isValid at h
  obtain ⟨-, h⟩ := Guards.true_of_ite_false h
  obtain ⟨-, h⟩ := Guards.true_of_ite_false h
  obtain ⟨hlimits, h⟩ := Guards.true_of_ite_false h
  obtain ⟨-, h⟩ := Guards.true_of_ite_false h
  obtain ⟨-, h⟩ := Guards.true_of_ite_false h
  obtain ⟨hhash, h⟩ := Guards.true_of_ite_false h
  obtain ⟨-, h⟩ := Guards.true_of_ite_false h
  obtain ⟨-, h⟩ := Guards.true_of_ite_false h
  refine ⟨by simpa [hsnapshot] using hhash, ?_, ?_⟩
  · have hwithin : block.isWithinResourceLimits hashBytes = true := by
      simp only [Bool.and_eq_true, bne_iff_ne, ne_eq, hsnapshot, not_false_eq_true, and_true,
        Bool.or_eq_true, not_or] at hlimits
      simpa using hlimits.2
    unfold isWithinResourceLimits at hwithin
    obtain ⟨-, hwithin⟩ := Guards.true_of_ite_false hwithin
    split at hwithin
    next => cases hwithin
    next total hbytes =>
      rw [Bool.and_eq_true, decide_eq_true_eq, decide_eq_true_eq] at hwithin
      exact hwithin.2
  · intro hindex
    have hpositive : block.index > 0 := by
      rw [gt_iff_lt, UInt64.lt_iff_toNat_lt, UInt64.toNat_zero]
      rw [ne_eq, ← UInt64.toNat_inj, UInt64.toNat_zero] at hindex
      omega
    rw [if_pos (by simp [hpositive, hsnapshot]), Bool.and_eq_true] at h
    exact h.1

theorem ne_snapshot_of_digest {value : String}
    (h : ChainBlock.isCanonicalCommitmentRoot value = true) : value ≠ "SNAPSHOT" := by
  rintro rfl
  exact absurd h (by decide)

namespace FinalizedChain

variable {chain : Blockchain}

/-- **The blocks of a finalized chain** carry digests and fit into messages. -/
theorem block (hprints : PrintsDigests hashBytes) (h : FinalizedChain hashBytes chain) {i : Nat}
    {block : ChainBlock} (hblock : chain.blocks[i]? = some block) :
    block.index.toNat = i ∧ ChainBlock.isCanonicalCommitmentRoot block.hash = true ∧
      (block.serialize hashBytes).length ≤ ChainBlock.maxSerializedBytes ∧
      (i ≠ 0 → ChainBlock.isCanonicalCommitmentRoot block.stateRoot = true ∧
        ChainBlock.isCanonicalCommitmentRoot block.previousHash = true) := by
  induction i generalizing block with
  | zero =>
    have hgenesis := h.genesis block hblock
    unfold Blockchain.isValidGenesisBlock at hgenesis
    obtain ⟨hvalid, hgenesis⟩ := Guards.true_of_ite_false hgenesis
    obtain ⟨-, hgenesis⟩ := Guards.true_of_ite_false hgenesis
    obtain ⟨hindex, hgenesis⟩ := Guards.true_of_ite_false hgenesis
    obtain ⟨hprevious, -⟩ := Guards.true_of_ite_false hgenesis
    rw [bne_iff_ne, ne_eq, not_not] at hindex hprevious
    obtain ⟨hhash, hlength, -⟩ := ChainBlock.of_isValid_committed (by simpa using hvalid)
      (by rw [hprevious]; decide)
    refine ⟨by rw [hindex]; rfl, ?_, hlength, fun hzero => absurd rfl hzero⟩
    rw [hhash]
    exact hprints _
  | succ i ih =>
    have hlt := Nat.lt_of_succ_lt (List.getElem?_eq_some_iff.mp hblock).1
    have hbefore : chain.blocks[i]? = some chain.blocks[i] := List.getElem?_eq_getElem hlt
    obtain ⟨hplace, hdigest, -⟩ := ih hbefore
    obtain ⟨-, hvalid, hindex, hlink⟩ :=
      Blockchain.of_isValidNextBlock (Blockchain.isValid_link h.valid hbefore hblock)
    rw [← hlink] at hdigest
    obtain ⟨hhash, hlength, hroot⟩ :=
      ChainBlock.of_isValid_committed hvalid (ne_snapshot_of_digest hdigest)
    refine ⟨by omega, ?_, hlength, fun _ => ⟨hroot ?_, hdigest⟩⟩
    · rw [hhash]
      exact hprints _
    · rw [ne_eq, ← UInt64.toNat_inj, hindex, UInt64.toNat_zero]
      omega

theorem countsFromZero (hprints : PrintsDigests hashBytes) (h : FinalizedChain hashBytes chain) :
    Blockchain.CountsFromZero chain where
  index := fun _ _ hblock => (h.block hprints hblock).1
  size_le := h.size_le

end FinalizedChain

--
-- The answer of an honest responder
--

/-- From a height on the blocks of a chain are the end of its list. -/
theorem filter_from {blocks : List ChainBlock} {start : Nat}
    (hindex : ∀ (i : Nat) (block : ChainBlock), blocks[i]? = some block →
      block.index.toNat = start + i) (fromHeight : UInt64) :
    blocks.filter (fun block => fromHeight ≤ block.index) =
      blocks.drop (fromHeight.toNat - start) := by
  induction blocks generalizing start with
  | nil => rw [List.filter_nil, List.drop_nil]
  | cons first rest ih =>
    have hfirst := hindex 0 first rfl
    have hrest : ∀ (i : Nat) (block : ChainBlock), rest[i]? = some block →
        block.index.toNat = start + 1 + i := by
      intro i block hblock
      have hplace := hindex (i + 1) block hblock
      omega
    rcases Nat.lt_or_ge start fromHeight.toNat with hbelow | hreached
    · rw [List.filter_cons_of_neg (by
          rw [decide_eq_true_eq, UInt64.le_iff_toNat_le]
          omega), ih hrest,
        show fromHeight.toNat - start = fromHeight.toNat - (start + 1) + 1 by omega,
        List.drop_succ_cons]
    · rw [List.filter_cons_of_pos (by
          rw [decide_eq_true_eq, UInt64.le_iff_toNat_le]
          omega), ih hrest, show fromHeight.toNat - (start + 1) = 0 by omega,
        show fromHeight.toNat - start = 0 by omega, List.drop_zero, List.drop_zero]

theorem serialize_ne_empty (block : ChainBlock) : (block.serialize hashBytes).isEmpty = false := by
  rw [← Bool.not_eq_true, String.isEmpty_iff]
  intro hempty
  have hlist := congrArg String.toList hempty
  unfold ChainBlock.serialize at hlist
  simp only [String.toList_append] at hlist
  simp at hlist

namespace FinalizedChain

variable {responder : Blockchain} {records : UInt64 → String} {now : Int}

theorem syncItem_isValid (hprints : PrintsDigests hashBytes)
    (h : FinalizedChain hashBytes responder)
    (hrecords : ∀ height, (records height).length ≤ ChainBlock.maxSerializedBytes)
    (hnow : 0 < now) {i : Nat} (hi : i ≠ 0) {block : ChainBlock}
    (hblock : responder.blocks[i]? = some block) :
    (syncItem hashBytes records now block).isValid = true := by
  obtain ⟨hindex, hdigest, hlength, hroots⟩ := h.block hprints hblock
  obtain ⟨hroot, hprevious⟩ := hroots hi
  have hpositive : block.index > 0 := by
    rw [gt_iff_lt, UInt64.lt_iff_toNat_lt, UInt64.toNat_zero]
    omega
  unfold PersistentBlockSyncItem.isValid syncItem
  simp only [hpositive, hdigest, hprevious, serialize_ne_empty, hlength, hroot, if_true,
    hrecords block.index, hnow, decide_true, Bool.not_false, Bool.and_self]

/-- Items of consecutive blocks follow each other. -/
theorem itemsFollow (hprints : PrintsDigests hashBytes) (h : FinalizedChain hashBytes responder)
    (hrecords : ∀ height, (records height).length ≤ ChainBlock.maxSerializedBytes)
    (hnow : 0 < now) {batch : PersistentBlockSyncBatch} (hcreated : batch.createdAt = now)
    (hfrom : batch.fromHeight.toNat ≠ 0) {index : Nat} {before : Option PersistentBlockSyncItem}
    {blocks : List ChainBlock}
    (hblocks : ∀ (i : Nat) (block : ChainBlock), blocks[i]? = some block →
      responder.blocks[batch.fromHeight.toNat + index + i]? = some block)
    (hbefore : ∀ item, before = some item → ∃ block,
      responder.blocks[batch.fromHeight.toNat + index - 1]? = some block ∧
        item.blockHash = block.hash) :
    batch.itemsFollow index before (blocks.map (syncItem hashBytes records now)) = true := by
  induction blocks generalizing index before with
  | nil => rfl
  | cons block rest ih =>
    have hblock := hblocks 0 block rfl
    rw [Nat.add_zero] at hblock
    have hvalid := h.syncItem_isValid hprints hrecords hnow (by omega) hblock
    have hplace := (h.block hprints hblock).1
    have hbound := block.index.toNat_lt
    have hheight : block.index = batch.fromHeight + UInt64.ofNat index := by
      rw [← UInt64.toNat_inj, UInt64.toNat_add, UInt64.toNat_ofNat_of_lt' (by
        show index < 2 ^ 64
        omega), Nat.mod_eq_of_lt (by omega), hplace]
    have hlink : ¬ before.any (fun before =>
        (syncItem hashBytes records now block).previousBlockHash != before.blockHash) = true := by
      cases hitem : before with
      | none => exact Bool.false_ne_true
      | some item =>
        obtain ⟨last, hlast, hhash⟩ := hbefore item hitem
        rw [show batch.fromHeight.toNat + index =
          batch.fromHeight.toNat + index - 1 + 1 by omega] at hblock
        obtain ⟨-, -, -, hprevious⟩ :=
          Blockchain.of_isValidNextBlock (Blockchain.isValid_link h.valid hlast hblock)
        rw [Option.any_some, bne_iff_ne, ne_eq, not_not, hhash]
        exact hprevious
    rw [List.map_cons, PersistentBlockSyncBatch.itemsFollow, if_neg (by rw [hvalid]; decide),
      if_neg (by
        rw [bne_iff_ne, ne_eq, not_not]
        exact hheight),
      if_neg (by
        show ¬ now > batch.createdAt
        omega), if_neg hlink]
    refine ih (fun i other hother => ?_) (fun item hitem => ?_)
    · rw [show batch.fromHeight.toNat + (index + 1) + i =
        batch.fromHeight.toNat + index + (i + 1) by omega]
      exact hblocks (i + 1) other hother
    · obtain rfl := Option.some.inj hitem
      exact ⟨block, by rw [show batch.fromHeight.toNat + (index + 1) - 1 =
        batch.fromHeight.toNat + index by omega]; exact hblock, rfl⟩

end FinalizedChain

namespace FinalizedChain

variable {responder : Blockchain} {records : UInt64 → String} {now : Int}

/-- **The answer** is a valid batch of the blocks that were offered. -/
theorem batch_spec (hprints : PrintsDigests hashBytes) (h : FinalizedChain hashBytes responder)
    (hrecords : ∀ height, (records height).length ≤ ChainBlock.maxSerializedBytes)
    (hnow : 0 < now) {peerId : String} (hpeer : isSafeSyncScalar 160 peerId = true)
    {fromHeight maxItems : UInt64} (hfrom : fromHeight.toNat ≠ 0) (hsome : 0 < maxItems.toNat)
    (hlimit : maxItems.toNat ≤ PersistentBlockSyncBatch.maxBlockBatch.toNat)
    (hthere : fromHeight.toNat + maxItems.toNat ≤ responder.size) :
    ∃ batch, buildSyncResponseBatch hashBytes responder records peerId fromHeight maxItems now =
        batch ∧ batch.isValid = true ∧ batch.sourcePeerId = peerId ∧
      batch.fromHeight = fromHeight ∧ batch.items =
        ((responder.blocks.drop fromHeight.toNat).take maxItems.toNat).map
          (syncItem hashBytes records now) := by
  have hcounts := h.countsFromZero hprints
  have hitems : (responder.blocks.filter fun block => fromHeight ≤ block.index) =
      responder.blocks.drop fromHeight.toNat :=
    filter_from (fun i block hblock => by rw [hcounts.index i block hblock, Nat.zero_add]) fromHeight
  have hblock : ∀ i, i < maxItems.toNat →
      ∃ block, responder.blocks[fromHeight.toNat + i]? = some block := fun i hi =>
    ⟨_, List.getElem?_eq_getElem (show fromHeight.toNat + i < responder.blocks.length by
      rw [Blockchain.size] at hthere
      omega)⟩
  have hplace : ∀ (i : Nat) (block : ChainBlock),
      ((responder.blocks.drop fromHeight.toNat).take maxItems.toNat)[i]? = some block →
        responder.blocks[fromHeight.toNat + i]? = some block := by
    intro i block hi
    rw [List.getElem?_take] at hi
    split at hi
    next => rwa [List.getElem?_drop] at hi
    next => cases hi
  have hlength : ((responder.blocks.drop fromHeight.toNat).take maxItems.toNat).length =
      maxItems.toNat := by
    rw [Blockchain.size] at hthere
    rw [List.length_take, List.length_drop]
    omega
  obtain ⟨first, hfirst⟩ := hblock 0 hsome
  obtain ⟨last, hlast⟩ := hblock (maxItems.toNat - 1) (by omega)
  have hhead : (((responder.blocks.drop fromHeight.toNat).take maxItems.toNat).map
      (syncItem hashBytes records now)).head? = some (syncItem hashBytes records now first) := by
    rw [List.head?_eq_getElem?, List.getElem?_map, List.getElem?_take, if_pos hsome,
      List.getElem?_drop, hfirst]
    rfl
  have hend : (((responder.blocks.drop fromHeight.toNat).take maxItems.toNat).map
      (syncItem hashBytes records now)).getLast? = some (syncItem hashBytes records now last) := by
    rw [List.getLast?_eq_getElem?, List.length_map, hlength, List.getElem?_map, List.getElem?_take,
      if_pos (by omega), List.getElem?_drop, hlast]
    rfl
  have hlow : first.index = fromHeight :=
    UInt64.toNat_inj.mp ((h.block hprints hfirst).1.trans (Nat.add_zero _))
  have hhigh : last.index.toNat = fromHeight.toNat + (maxItems.toNat - 1) :=
    (h.block hprints hlast).1
  refine ⟨_, rfl, ?_⟩
  unfold buildSyncResponseBatch
  rw [hitems]
  simp only [hhead, hend]
  refine ⟨?_, trivial, hlow, trivial⟩
  unfold PersistentBlockSyncBatch.isValid
  have hpositive : fromHeight ≠ 0 := by
    rw [ne_eq, ← UInt64.toNat_inj, UInt64.toNat_zero]
    exact hfrom
  have horder : ¬ last.index < fromHeight := by
    rw [UInt64.lt_iff_toNat_lt]
    omega
  have hdistance : (last.index - fromHeight + 1).toNat = maxItems.toNat := by
    have hbound := last.index.toNat_lt
    rw [UInt64.toNat_add, UInt64.toNat_one,
      UInt64.toNat_sub_of_le _ _ (UInt64.not_lt.mp horder), Nat.mod_eq_of_lt (by omega)]
    omega
  rw [if_neg, if_neg]
  · refine h.itemsFollow hprints hrecords hnow rfl (by rw [← hlow] at hfrom; exact hfrom)
      (fun i block hi => ?_) (by rintro _ ⟨⟩)
    rw [Nat.add_zero]
    show responder.blocks[first.index.toNat + i]? = some block
    rw [hlow]
    exact hplace i block hi
  · show ¬ ((last.index - first.index + 1).toNat != _) = true
    rw [hlow, hdistance, List.length_map, hlength, bne_self_eq_false]
    exact Bool.false_ne_true
  · show ¬ (!isSafeSyncScalar 240 peerId || first.index == 0 || last.index < first.index ||
      List.isEmpty _ || List.length _ > _ || now ≤ 0) = true
    have hnonempty : (((responder.blocks.drop fromHeight.toNat).take maxItems.toNat).map
        (syncItem hashBytes records now)).isEmpty = false := by
      rw [← Bool.not_eq_true, List.isEmpty_iff_length_eq_zero, List.length_map, hlength]
      omega
    rw [isSafeSyncScalar_mono (by decide) hpeer, hlow, hnonempty, List.length_map, hlength]
    simp only [Bool.not_true, Bool.false_or, Bool.or_eq_true, beq_iff_eq, hpositive, horder,
      decide_false, decide_eq_true_eq, gt_iff_lt, not_or, false_or, Bool.or_false]
    omega

end FinalizedChain

--
-- The request
--

namespace SyncRequester

open SyncRecoveryPolicy

variable {responder : Blockchain} {requester : SyncRequester}

/-- A node that follows has blocks of the responder only. -/
theorem Follows.block (h : requester.Follows responder) {i : Nat} {block : ChainBlock}
    (hblock : requester.chain.blocks[i]? = some block) : responder.blocks[i]? = some block := by
  obtain ⟨rest, heq⟩ := h.isPrefix
  rw [← heq, List.getElem?_append_left (List.getElem?_eq_some_iff.mp hblock).1]
  exact hblock

theorem Follows.size_le (h : requester.Follows responder) :
    requester.chain.size ≤ responder.size := h.isPrefix.length_le

theorem Follows.countsFromZero (hresponder : Blockchain.CountsFromZero responder)
    (h : requester.Follows responder) : Blockchain.CountsFromZero requester.chain where
  index := fun i block hblock => hresponder.index i block (h.block hblock)
  size_le := Nat.le_trans h.size_le hresponder.size_le

theorem Follows.tip_block (hresponder : Blockchain.CountsFromZero responder)
    (h : requester.Follows responder) {tip : ChainBlock}
    (htip : requester.chain.blocks.getLast? = some tip) :
    responder.blocks[tip.index.toNat]? = some tip ∧
      requester.chain.size = tip.index.toNat + 1 := by
  obtain ⟨hlength, -⟩ := (h.countsFromZero hresponder).latest htip
  rw [List.getLast?_eq_getElem?, hlength, Nat.add_sub_cancel] at htip
  exact ⟨h.block htip, hlength⟩

variable {status : ChainStatusMessage} {latest : ChainBlock} {round : SyncExchange}

/-- The heights of the window: behind the tip of the requester, up to that of the responder. -/
theorem Follows.heights (hcounts : Blockchain.CountsFromZero responder)
    (h : requester.Follows responder) (hbehind : requester.chain.size < responder.size)
    (hstatus : Reports responder status latest) :
    (requester.checkpoint.finalizedHeight + 1).toNat = requester.chain.size ∧
      requester.chain.size ≤ latest.index.toNat ∧ 0 < requester.chain.size ∧
      responder.size = latest.index.toNat + 1 ∧
      requester.checkpoint.finalizedHeight < status.finalizedHeight ∧
      (status.finalizedHeight - requester.checkpoint.finalizedHeight).toNat =
        responder.size - requester.chain.size := by
  obtain ⟨tip, htip, hheight, -⟩ := h.tip
  obtain ⟨-, hsize⟩ := h.tip_block hcounts htip
  obtain ⟨hlength, hbound⟩ := hcounts.latest hstatus.tip
  have hresponder : responder.size = latest.index.toNat + 1 := hlength
  have hlt : requester.checkpoint.finalizedHeight < status.finalizedHeight := by
    rw [hstatus.finalized, ← hheight, UInt64.lt_iff_toNat_lt]
    omega
  refine ⟨?_, by omega, by omega, hresponder, hlt, ?_⟩
  · rw [← hheight, UInt64.toNat_add, UInt64.toNat_one, Nat.mod_eq_of_lt (by omega), hsize]
  · rw [UInt64.toNat_sub_of_le _ _ (UInt64.le_of_lt hlt), hstatus.finalized, ← hheight]
    omega

/-- The limits leave something to ask for. -/
theorem batchLimit_le (maxBlocks : UInt64) :
    (batchLimit maxBlocks).toNat ≤ PersistentBlockSyncBatch.maxBlockBatch.toNat := by
  unfold batchLimit
  split
  next => exact Nat.le_refl _
  next hsmall =>
    rw [Bool.or_eq_true, not_or, decide_eq_true_eq, gt_iff_lt, UInt64.lt_iff_toNat_lt] at hsmall
    omega

/-- **A node behind its peer** plans a request. -/
theorem Follows.plan (hcounts : Blockchain.CountsFromZero responder)
    (h : requester.Follows responder) (hbehind : requester.chain.size < responder.size)
    (hstatus : Reports responder status latest) (hround : round.IsValid) :
    ∃ reason, planFromRemoteStatus requester.checkpoint status round.localNodeId round.sourcePeerId
      round.maxBlocksPerRequest round.now = .requestBlocks reason (plannedRequest
        requester.checkpoint status round.localNodeId round.maxBlocksPerRequest round.now) := by
  obtain ⟨-, -, -, -, hlt, -⟩ := h.heights hcounts hbehind hstatus
  have hnow := hround.now
  unfold planFromRemoteStatus
  rw [if_neg (by rw [h.saved]; decide), if_neg (by rw [hstatus.wellFormed]; decide), if_neg (by
      rw [isSafeSyncScalar_mono (by decide) hround.localNodeId,
        isSafeSyncScalar_mono (by decide) hround.sourcePeerId]
      simp only [Bool.not_true, Bool.or_self, Bool.false_or, decide_eq_true_eq]
      omega), if_neg (UInt64.not_le.mpr hlt)]
  exact ⟨_, rfl⟩

/-- What is planned can be served. -/
theorem Follows.serveable (hprints : PrintsDigests hashBytes)
    (hresponder : FinalizedChain hashBytes responder) (h : requester.Follows responder)
    (hbehind : requester.chain.size < responder.size) (hstatus : Reports responder status latest)
    (hround : round.IsValid) :
    responder.Serveable (plannedRequest requester.checkpoint status round.localNodeId
      round.maxBlocksPerRequest round.now) round.localNodeId := by
  have hcounts := hresponder.countsFromZero hprints
  obtain ⟨hnext, hle, hpositive, hsize, hlt, hgap⟩ := h.heights hcounts hbehind hstatus
  obtain ⟨tip, htip, hheight, hhash⟩ := h.tip
  obtain ⟨hblock, -⟩ := h.tip_block hcounts htip
  obtain ⟨-, hdigest, -⟩ := hresponder.block hprints hblock
  have hlimit := Blockchain.CountsFromZero.batchLimit_pos round.maxBlocksPerRequest
  have hsmall : (batchLimit round.maxBlocksPerRequest).toNat ≤ 1024 :=
    Nat.le_trans (batchLimit_le _) (by decide)
  refine ⟨?_, rfl, ?_, ?_, _, List.mem_singleton_self _, hcounts.heldAt_iff.mpr ⟨tip, ?_, hhash⟩⟩
  · unfold plannedRequest NetworkBlockSyncRequest.isValid BlockLocator.isValid
    rw [isSafeSyncScalar_mono (by decide) hround.localNodeId, decide_eq_true hround.now, if_neg]
    · rw [← hhash, List.all_cons, isSafeSyncScalar_digest (by decide) hdigest]
      rfl
    · simp only [Bool.or_eq_true, beq_iff_eq, decide_eq_true_eq, gt_iff_lt, not_or,
        ← UInt64.toNat_inj, UInt64.lt_iff_toNat_lt, Blockchain.CountsFromZero.toNat_min, hgap,
        UInt64.toNat_zero, List.isEmpty_cons, List.length_cons, List.length_nil]
      refine ⟨⟨⟨by omega, ?_⟩, Bool.false_ne_true⟩, by decide⟩
      show ¬ 1024 < _
      omega
  · show requester.checkpoint.finalizedHeight + 1 ≠ 0
    rw [ne_eq, ← UInt64.toNat_inj, hnext, UInt64.toNat_zero]
    omega
  · refine (hcounts.exists_index_iff hstatus.tip).mpr ?_
    show requester.checkpoint.finalizedHeight + 1 ≤ latest.index
    rw [UInt64.le_iff_toNat_le, hnext]
    exact hle
  · show responder.blocks[(requester.checkpoint.finalizedHeight + 1 - 1).toNat]? = some tip
    rw [UInt64.add_sub_cancel, ← hheight]
    exact hblock

/-- **The request is served** from the height behind the requester's chain, with a block at
least. -/
theorem Follows.served (hprints : PrintsDigests hashBytes)
    (hresponder : FinalizedChain hashBytes responder) (h : requester.Follows responder)
    (hbehind : requester.chain.size < responder.size) (hstatus : Reports responder status latest)
    (hround : round.IsValid) :
    ∃ fromHeight maxItems hash, evaluateServeRequest (plannedRequest requester.checkpoint status
        round.localNodeId round.maxBlocksPerRequest round.now) round.localNodeId responder
        round.maxBatchSize = some (.accepted fromHeight maxItems hash) ∧
      fromHeight.toNat = requester.chain.size ∧ 0 < maxItems.toNat ∧
      maxItems.toNat ≤ PersistentBlockSyncBatch.maxBlockBatch.toNat ∧
      fromHeight.toNat + maxItems.toNat ≤ responder.size := by
  have hcounts := hresponder.countsFromZero hprints
  have hserve := h.serveable hprints hresponder hbehind hstatus hround
  obtain ⟨hnext, hle, hpositive, hsize, hlt, hgap⟩ := h.heights hcounts hbehind hstatus
  obtain ⟨hash, haccepted⟩ := hcounts.serve_accepted round.maxBatchSize hstatus.tip hserve
  have hoffered := @Blockchain.CountsFromZero.offered_toNat _ latest round.maxBatchSize
    hserve.2.2.1 ((hcounts.exists_index_iff hstatus.tip).mp hserve.2.2.2.1)
  have hfrom : (plannedRequest requester.checkpoint status round.localNodeId
      round.maxBlocksPerRequest round.now).locator.fromHeight.toNat = requester.chain.size := hnext
  have hmax : (plannedRequest requester.checkpoint status round.localNodeId
      round.maxBlocksPerRequest round.now).locator.maxBlocks.toNat =
        min (responder.size - requester.chain.size)
          (batchLimit round.maxBlocksPerRequest).toNat := by
    show (min _ _ : UInt64).toNat = _
    rw [Blockchain.CountsFromZero.toNat_min, hgap]
  have hasked := Blockchain.CountsFromZero.batchLimit_pos round.maxBlocksPerRequest
  have hgiven := Blockchain.CountsFromZero.batchLimit_pos round.maxBatchSize
  have hsmall := batchLimit_le round.maxBatchSize
  rw [hfrom, hmax] at hoffered
  exact ⟨_, _, hash, haccepted, hfrom, by omega, by omega, by omega⟩

end SyncRequester

--
-- The answer is judged and imported
--

namespace SyncRequester

open SyncRecoveryPolicy

variable {responder : Blockchain} {requester : SyncRequester} {records : UInt64 → String}
  {servedAt : Int} {peerId : String} {fromHeight maxItems : UInt64}

/-- The answer goes on from every chain that follows and has reached its first height. -/
theorem Follows.continues (hprints : PrintsDigests hashBytes)
    (hresponder : FinalizedChain hashBytes responder) (h : requester.Follows responder)
    {batch : PersistentBlockSyncBatch} (hvalid : batch.isValid = true)
    (hitems : ∀ item ∈ batch.items, ∃ block, block ∈ responder.blocks ∧
      item = syncItem hashBytes records servedAt block)
    (hreached : batch.fromHeight.toNat ≤ requester.chain.size) {tip : ChainBlock}
    (htip : requester.chain.blocks.getLast? = some tip) :
    requester.chain.Continues requester.checkpoint batch tip := by
  have hcounts := hresponder.countsFromZero hprints
  obtain ⟨tip', htip', hheight, hhash⟩ := h.tip
  obtain rfl := Option.some.inj (htip'.symm.trans htip)
  obtain ⟨hblock, hsize⟩ := h.tip_block hcounts htip
  refine ⟨h.saved, hvalid, htip, hheight, hhash, by omega, ?_, ?_⟩
  · intro item hitem block hmem hindex
    obtain ⟨source, hsource, rfl⟩ := hitems item hitem
    have hfound := hcounts.stored (h.isPrefix.subset hmem)
    have hfound' := hcounts.stored hsource
    rw [show block.index = source.index from hindex] at hfound
    rw [Option.some.inj (hfound.symm.trans hfound')]
    rfl
  · intro item hitem hnext
    obtain ⟨source, hsource, rfl⟩ := hitems item hitem
    obtain ⟨i, hi⟩ := List.mem_iff_getElem?.mp hsource
    have hplace : source.index.toNat = i := hcounts.index i source hi
    rw [← hplace, show source.index.toNat = tip'.index.toNat + 1 from hnext] at hi
    exact (Blockchain.of_isValidNextBlock (Blockchain.isValid_link hresponder.valid hblock hi)).2.2.2

/-- **The answer is accepted** from the first block on that the node does not have, or is stale
because there is none. -/
theorem Follows.judged (hprints : PrintsDigests hashBytes)
    (hresponder : FinalizedChain hashBytes responder) (h : requester.Follows responder)
    {batch : PersistentBlockSyncBatch} (hvalid : batch.isValid = true)
    (hitems : ∀ item ∈ batch.items, ∃ block, block ∈ responder.blocks ∧
      item = syncItem hashBytes records servedAt block)
    (hreached : batch.fromHeight.toNat ≤ requester.chain.size) (hsender : batch.sourcePeerId = peerId) :
    (∃ i, evaluateResponseBatch batch peerId requester.checkpoint requester.chain =
        some (.accepted i) ∧ batch.fromHeight.toNat + i = requester.chain.size ∧
        i < batch.items.length) ∨
    ∃ reason, evaluateResponseBatch batch peerId requester.checkpoint requester.chain =
        some (.stale reason) ∧
        batch.fromHeight.toNat + batch.items.length ≤ requester.chain.size := by
  have hcounts := hresponder.countsFromZero hprints
  obtain ⟨tip, htip, -⟩ := h.tip
  obtain ⟨-, hsize⟩ := h.tip_block hcounts htip
  have hbatch := h.continues hprints hresponder hvalid hitems hreached htip
  rcases (h.countsFromZero hcounts).response_continues hbatch hsender with
    ⟨i, first, haccepted, hfirst, hheight⟩ | ⟨reason, hstale, hall⟩
  · refine Or.inl ⟨i, haccepted, ?_, (List.getElem?_eq_some_iff.mp hfirst).1⟩
    rw [(batch.height_of_isValid hvalid hfirst).2] at hheight
    omega
  · refine Or.inr ⟨reason, hstale, ?_⟩
    cases hlast : batch.items[batch.items.length - 1]? with
    | none =>
      have hnone := List.getElem?_eq_none_iff.mp hlast
      omega
    | some last =>
      have hle := UInt64.le_iff_toNat_le.mp (hall last (List.mem_of_getElem? hlast))
      rw [(batch.height_of_isValid hvalid hlast).2] at hle
      omega

/-- **After the import** the chain reaches the end of the answer. -/
theorem Follows.importNew (hprints : PrintsDigests hashBytes)
    (hresponder : FinalizedChain hashBytes responder) (h : requester.Follows responder)
    {batch : PersistentBlockSyncBatch}
    (hpeer : isSafeSyncScalar 160 batch.sourcePeerId = true)
    (hitems : batch.items = ((responder.blocks.drop batch.fromHeight.toNat).take
      maxItems.toNat).map (syncItem hashBytes records servedAt))
    (hthere : batch.fromHeight.toNat + maxItems.toNat ≤ responder.size)
    (hfrom : batch.fromHeight.toNat ≠ 0) {i : Nat}
    (hreached : batch.fromHeight.toNat + i = requester.chain.size) (hi : i < maxItems.toNat)
    {now : Int} (hnow : 0 < now) :
    (requester.importNew responder batch i now).Follows responder ∧
      (requester.importNew responder batch i now).chain.size =
        batch.fromHeight.toNat + maxItems.toNat := by
  have hcounts := hresponder.countsFromZero hprints
  rw [Blockchain.size] at hthere hreached
  have hlast : responder.blocks[batch.fromHeight.toNat + (maxItems.toNat - 1)]? =
      some responder.blocks[batch.fromHeight.toNat + (maxItems.toNat - 1)] :=
    List.getElem?_eq_getElem (by omega)
  have hend : batch.items.getLast? = some (syncItem hashBytes records servedAt
      responder.blocks[batch.fromHeight.toNat + (maxItems.toNat - 1)]) := by
    rw [hitems, List.getLast?_map, List.getLast?_eq_getElem?, List.length_take, List.length_drop,
      List.getElem?_take, if_pos (by omega), List.getElem?_drop,
      show batch.fromHeight.toNat + (min maxItems.toNat
        (responder.blocks.length - batch.fromHeight.toNat) - 1) =
          batch.fromHeight.toNat + (maxItems.toNat - 1) by omega, hlast]
    rfl
  have hnew : (batch.items.drop i).filterMap (fun item => responder.blockByHeight item.height) =
      ((responder.blocks.drop batch.fromHeight.toNat).take maxItems.toNat).drop i := by
    rw [hitems, ← List.map_drop, List.filterMap_map]
    refine (List.filterMap_congr fun block hmem => ?_).trans List.filterMap_some
    exact hcounts.stored (List.mem_of_mem_drop (List.mem_of_mem_take (List.mem_of_mem_drop hmem)))
  have hold : requester.chain.blocks = responder.blocks.take (batch.fromHeight.toNat + i) := by
    rw [hreached]
    exact List.prefix_iff_eq_take.mp h.isPrefix
  have hchain : requester.chain.blocks ++ (batch.items.drop i).filterMap
      (fun item => responder.blockByHeight item.height) =
        responder.blocks.take (batch.fromHeight.toNat + maxItems.toNat) := by
    rw [hnew, hold, List.drop_take, List.drop_drop, ← List.take_add,
      show batch.fromHeight.toNat + i + (maxItems.toNat - i) =
        batch.fromHeight.toNat + maxItems.toNat by omega]
  obtain ⟨hindex, hdigest, -, hroots⟩ := hresponder.block hprints hlast
  have hroot := (hroots (by omega)).1
  unfold SyncRequester.importNew
  rw [hend]
  dsimp only
  rw [hchain]
  refine ⟨⟨List.take_prefix _ _, ?_, ?_⟩, ?_⟩
  · unfold PersistentSyncCheckpoint.isValid syncItem
    simp only [hroot, if_true, isSafeSyncScalar_digest (show 64 ≤ 240 by decide) hroot,
      isSafeSyncScalar_digest (show 64 ≤ 240 by decide) hdigest,
      isSafeSyncScalar_mono (show 160 ≤ 240 by decide) hpeer, hnow, decide_true, beq_self_eq_true,
      Bool.and_true, Bool.true_and]
    decide
  · refine ⟨_, ?_, rfl, rfl⟩
    rw [List.getLast?_eq_getElem?, List.length_take, List.getElem?_take, if_pos (by omega),
      show min (batch.fromHeight.toNat + maxItems.toNat) responder.blocks.length - 1 =
        batch.fromHeight.toNat + (maxItems.toNat - 1) by omega, hlast]
  · rw [Blockchain.size, List.length_take]
    omega

end SyncRequester

--
-- Exchange after exchange
--

namespace SyncRequester

open SyncRecoveryPolicy

variable {responder : Blockchain} {requester : SyncRequester} {records : UInt64 → String}
  {status : ChainStatusMessage} {latest : ChainBlock} {round : SyncExchange}

/-- **One exchange**: the request is served, and the answer is accepted with a new block at least;
a node that has grown along the responder's chain before the answer comes takes what is new to it,
or finds it stale. -/
theorem exchange_spec (hprints : PrintsDigests hashBytes)
    (hresponder : FinalizedChain hashBytes responder)
    (hrecords : ∀ height, (records height).length ≤ ChainBlock.maxSerializedBytes)
    (hstatus : Reports responder status latest) (hround : round.IsValid)
    (h : requester.Follows responder) (hbehind : requester.chain.size < responder.size) :
    requester.Progresses hashBytes responder status records round := by
  have hcounts := hresponder.countsFromZero hprints
  obtain ⟨reason, hplan⟩ := h.plan hcounts hbehind hstatus hround
  obtain ⟨fromHeight, maxItems, hash, hserved, hfrom, hsome, hlimit, hthere⟩ :=
    h.served hprints hresponder hbehind hstatus hround
  obtain ⟨-, -, hpositive, -⟩ := h.heights hcounts hbehind hstatus
  obtain ⟨batch, hbuilt, hvalid, hsource, hfirst, hitems⟩ := hresponder.batch_spec hprints hrecords
    hround.servedAt hround.sourcePeerId (show fromHeight.toNat ≠ 0 by omega) hsome hlimit hthere
  have hlength : batch.items.length = maxItems.toNat := by
    rw [Blockchain.size] at hthere
    rw [hitems, List.length_map, List.length_take, List.length_drop]
    omega
  refine ⟨reason, _, fromHeight, maxItems, hash, batch, hplan, hserved, hbuilt, hitems, hfrom, hsome,
    hthere, fun later hlater hgrown => ?_⟩
  have hmembers : ∀ item ∈ batch.items, ∃ block, block ∈ responder.blocks ∧
      item = syncItem hashBytes records round.servedAt block := by
    intro item hitem
    rw [hitems] at hitem
    obtain ⟨block, hblock, rfl⟩ := List.mem_map.mp hitem
    exact ⟨block, List.mem_of_mem_drop (List.mem_of_mem_take hblock), rfl⟩
  rcases hlater.judged hprints hresponder hvalid hmembers (by rw [hfirst]; omega) hsource with
    ⟨i, haccepted, hi, hlt⟩ | ⟨why, hstale, hend⟩
  · rw [hfirst] at hi
    refine Or.inl ⟨i, haccepted, hi, hlt, fun now hnow => ?_⟩
    have himported := hlater.importNew hprints hresponder (by rw [hsource]; exact hround.sourcePeerId)
      (by rw [hfirst]; exact hitems) (by rw [hfirst]; exact hthere) (by rw [hfirst]; omega)
      (by rw [hfirst]; exact hi) (by omega) hnow
    rwa [hfirst] at himported
  · rw [hfirst, hlength] at hend
    exact Or.inr ⟨why, hstale, hend⟩

/-- An exchange of a node behind its peer makes its chain longer. -/
theorem exchange_grows (hprints : PrintsDigests hashBytes)
    (hresponder : FinalizedChain hashBytes responder)
    (hrecords : ∀ height, (records height).length ≤ ChainBlock.maxSerializedBytes)
    (hstatus : Reports responder status latest) (hround : round.IsValid)
    (h : requester.Follows responder) (hbehind : requester.chain.size < responder.size) :
    (exchange hashBytes responder status records requester round).Follows responder ∧
      requester.chain.size <
        (exchange hashBytes responder status records requester round).chain.size := by
  obtain ⟨reason, request, fromHeight, maxItems, hash, batch, hplan, hserved, hbuilt, -, hfrom, hsome,
    -, hjudged⟩ := exchange_spec hprints hresponder hrecords hstatus hround h hbehind
  rcases hjudged requester h (Nat.le_refl _) with ⟨i, haccepted, -, -, himport⟩ | ⟨why, -, hend⟩
  · obtain ⟨hfollows, hsize⟩ := himport round.now hround.now
    unfold exchange
    simp only [hplan, hserved, hbuilt, haccepted]
    exact ⟨hfollows, by omega⟩
  · omega

/-- A node that has reached its peer stays as it is. -/
theorem exchange_reached (hcounts : Blockchain.CountsFromZero responder)
    (hstatus : Reports responder status latest) (hround : round.IsValid)
    (h : requester.Follows responder) (hreached : requester.chain.size = responder.size) :
    exchange hashBytes responder status records requester round = requester := by
  obtain ⟨tip, htip, hheight, -⟩ := h.tip
  obtain ⟨-, hsize⟩ := h.tip_block hcounts htip
  obtain ⟨hlength, -⟩ := hcounts.latest hstatus.tip
  have hnow := hround.now
  have hnotBehind : status.finalizedHeight ≤ requester.checkpoint.finalizedHeight := by
    have hresponder : responder.size = latest.index.toNat + 1 := hlength
    rw [hstatus.finalized, ← hheight, UInt64.le_iff_toNat_le]
    omega
  have hplan : planFromRemoteStatus requester.checkpoint status round.localNodeId round.sourcePeerId
      round.maxBlocksPerRequest round.now = .notRequired
        "Local checkpoint is already at or ahead of remote finalized state." := by
    unfold planFromRemoteStatus
    rw [if_neg (by rw [h.saved]; decide), if_neg (by rw [hstatus.wellFormed]; decide), if_neg (by
        rw [isSafeSyncScalar_mono (by decide) hround.localNodeId,
          isSafeSyncScalar_mono (by decide) hround.sourcePeerId]
        simp only [Bool.not_true, Bool.or_self, Bool.false_or, decide_eq_true_eq]
        omega), if_pos hnotBehind]
  unfold exchange
  rw [hplan]

/-- **Exchange after exchange** the chain grows until it is the responder's. -/
theorem catchUp_grows (hprints : PrintsDigests hashBytes)
    (hresponder : FinalizedChain hashBytes responder)
    (hrecords : ∀ height, (records height).length ≤ ChainBlock.maxSerializedBytes)
    (hstatus : Reports responder status latest) (h : requester.Follows responder)
    (rounds : List SyncExchange) (hrounds : ∀ round ∈ rounds, round.IsValid) :
    (catchUp hashBytes responder status records requester rounds).Follows responder ∧
      min responder.size (requester.chain.size + rounds.length) ≤
        (catchUp hashBytes responder status records requester rounds).chain.size := by
  induction rounds generalizing requester with
  | nil =>
    refine ⟨h, ?_⟩
    show min responder.size (requester.chain.size + 0) ≤ requester.chain.size
    omega
  | cons round rest ih =>
    have hround := hrounds round List.mem_cons_self
    have hrest : ∀ other ∈ rest, other.IsValid := fun other hother =>
      hrounds other (List.mem_cons_of_mem _ hother)
    have hsize := h.size_le
    rw [List.length_cons]
    rcases Nat.lt_or_ge requester.chain.size responder.size with hbehind | hreached
    · obtain ⟨hfollows, hgrown⟩ :=
        exchange_grows hprints hresponder hrecords hstatus hround h hbehind
      obtain ⟨hend, hle⟩ := ih hfollows hrest
      exact ⟨hend, by
        show _ ≤ (catchUp hashBytes responder status records
          (exchange hashBytes responder status records requester round) rest).chain.size
        omega⟩
    · have hsame := @exchange_reached hashBytes _ _ records _ _ _
        (hresponder.countsFromZero hprints) hstatus hround h (Nat.le_antisymm hsize hreached)
      obtain ⟨hend, hle⟩ := ih h hrest
      have hfold : catchUp hashBytes responder status records requester (round :: rest) =
          catchUp hashBytes responder status records requester rest := by
        show catchUp hashBytes responder status records
          (exchange hashBytes responder status records requester round) rest = _
        rw [hsame]
      rw [hfold]
      exact ⟨hend, by omega⟩

end SyncRequester

--
-- Honest catch-up
--

open SyncRecoveryPolicy in
/-- **Honest catch-up progresses**: every exchange is accepted with a new block, exchanges lead to
the responder's tip, and no batch that is accepted differs from the chain that is there. -/
theorem honest_catch_up (hprints : PrintsDigests hashBytes) {responder : Blockchain}
    (hresponder : FinalizedChain hashBytes responder) {records : UInt64 → String}
    (hrecords : ∀ height, (records height).length ≤ ChainBlock.maxSerializedBytes)
    {status : ChainStatusMessage} {latest : ChainBlock} (hstatus : Reports responder status latest) :
    (∀ (requester : SyncRequester) (round : SyncExchange), round.IsValid →
      requester.Follows responder → requester.chain.size < responder.size →
        requester.Progresses hashBytes responder status records round) ∧
    (∀ (requester : SyncRequester) (rounds : List SyncExchange), (∀ round ∈ rounds, round.IsValid) →
      requester.Follows responder → responder.size ≤ requester.chain.size + rounds.length →
        (requester.catchUp hashBytes responder status records rounds).chain = responder) ∧
    ∀ (chain : Blockchain), FinalizedChain hashBytes chain → ∀ batch sender checkpoint i,
      evaluateResponseBatch batch sender checkpoint chain = some (.accepted i) →
        chain.Agrees batch := by
  refine ⟨?_, ?_, ?_⟩
  · intro requester round hround h hbehind
    exact SyncRequester.exchange_spec hprints hresponder hrecords hstatus hround h hbehind
  · intro requester rounds hrounds h hlength
    obtain ⟨hfollows, hgrown⟩ :=
      SyncRequester.catchUp_grows hprints hresponder hrecords hstatus h rounds hrounds
    have hsize := hfollows.size_le
    have hreached : responder.size ≤
        (requester.catchUp hashBytes responder status records rounds).chain.size := by omega
    have hblocks := hfollows.isPrefix.eq_of_length_le hreached
    cases responder
    exact congrArg Blockchain.mk hblocks
  · intro chain hchain batch sender checkpoint i haccepted
    obtain ⟨decision, hdecision, hagrees⟩ :=
      (hchain.countsFromZero hprints).response_agrees batch sender checkpoint
    exact hagrees i (Option.some.inj (hdecision.symm.trans haccepted))

--
-- A chain of two blocks
--

/-- A hasher that prints 64 digits. -/
def sampleDigest (text : String) : String :=
  let code := text.toList.foldl (fun code c => (code * 257 + c.toNat + 1) % 16 ^ 64) 0
  String.ofList ((List.range 64).map fun i => Nat.digitChar (code / 16 ^ i % 16))

theorem printsDigests_sample : PrintsDigests sampleDigest := by
  intro text
  have hdigit : ∀ d : Fin 16, (('0' ≤ Nat.digitChar d && Nat.digitChar d ≤ '9') ||
      ('a' ≤ Nat.digitChar d && Nat.digitChar d ≤ 'f')) = true := by decide
  unfold sampleDigest ChainBlock.isCanonicalCommitmentRoot
  rw [if_neg (by rw [String.length_ofList, List.length_map, List.length_range]; decide),
    String.toList_ofList, List.all_eq_true]
  intro c hc
  obtain ⟨i, -, rfl⟩ := List.mem_map.mp hc
  exact hdigit ⟨_, Nat.mod_lt _ (by decide)⟩

section Sample

variable (hashBytes)

def sampleSyncRecord : LedgerRecord where
  id := LedgerRecord.computeRecordId hashBytes .mint "s" (LedgerRecord.hashPayload hashBytes "p") 1
  type := .mint
  sourceId := "s"
  payload := "p"
  payloadHash := LedgerRecord.hashPayload hashBytes "p"
  timestamp := 1

def sampleSyncBlock (index : UInt64) (previousHash : String) (timestamp : Int) : ChainBlock :=
  let unhashed : ChainBlock :=
    { index, previousHash, hash := "", records := [sampleSyncRecord hashBytes], timestamp
      stateRoot := hashBytes "state", receiptsRoot := hashBytes "receipts" }
  { unhashed with hash := unhashed.calculateHash hashBytes }

def sampleSyncGenesis : ChainBlock := sampleSyncBlock hashBytes 0 "GENESIS" 1

def sampleSyncLatest : ChainBlock := sampleSyncBlock hashBytes 1 (sampleSyncGenesis hashBytes).hash 2

def sampleResponder : Blockchain where
  blocks := [sampleSyncGenesis hashBytes, sampleSyncLatest hashBytes]

def sampleStatus : ChainStatusMessage where
  networkId := "testnet"
  chainId := "nodo"
  protocolVersion := "1"
  latestHeight := 1
  latestBlockHash := (sampleSyncLatest hashBytes).hash
  finalizedHeight := 1
  finalizedBlockHash := (sampleSyncLatest hashBytes).hash

variable {hashBytes} (hprints : PrintsDigests hashBytes)

include hprints

theorem PrintsDigests.length (text : String) : (hashBytes text).length = 64 := by
  have h := hprints text
  unfold ChainBlock.isCanonicalCommitmentRoot at h
  obtain ⟨hlength, -⟩ := Guards.true_of_ite_false h
  rwa [ne_eq, not_not] at hlength

/-- A digest is not one of the words that stand in its place. -/
theorem PrintsDigests.ne {word : String} (hword : word.length ≠ 64) (text : String) :
    hashBytes text ≠ word := by
  rintro rfl
  exact hword (hprints.length text)

/-- The texts of a sample block are short. -/
theorem sampleSyncBlock_length {index : UInt64} {previousHash : String} {timestamp : Int}
    (hindex : (toString index.toNat).length ≤ 100) (hprevious : previousHash.length ≤ 100)
    (htimestamp : (toString timestamp).length ≤ 100) :
    (sampleSyncRecord hashBytes).serialize.length ≤ 1000 ∧
      ((sampleSyncBlock hashBytes index previousHash timestamp).serialize hashBytes).length ≤
        3000 := by
  have hdigest := hprints.length
  have hroot : ((sampleSyncBlock hashBytes index previousHash timestamp).recordsRoot
      hashBytes).length = 64 := by
    show (MerkleTree.buildOrderedRoot hashBytes [(sampleSyncRecord hashBytes).serialize]).length = 64
    unfold MerkleTree.buildOrderedRoot MerkleTree.hashLayer
    rw [List.mapIdx_cons, List.mapIdx_nil, HashTree.layerRoot]
    exact hdigest _
  have hhash : (sampleSyncBlock hashBytes index previousHash timestamp).hash.length = 64 := hdigest _
  have hid : (sampleSyncRecord hashBytes).id.length = 64 := hdigest _
  have hpayload : (sampleSyncRecord hashBytes).payloadHash.length = 64 := hdigest _
  have hrecord : (sampleSyncRecord hashBytes).serialize.length ≤ 1000 := by
    unfold LedgerRecord.serialize
    simp only [String.length_append, hid, hpayload]
    have hfields : (sampleSyncRecord hashBytes).type.text = "MINT" ∧
        (sampleSyncRecord hashBytes).sourceId = "s" ∧ (sampleSyncRecord hashBytes).timestamp = 1 ∧
        (sampleSyncRecord hashBytes).payload = "p" := ⟨rfl, rfl, rfl, rfl⟩
    rw [hfields.1, hfields.2.1, hfields.2.2.1, hfields.2.2.2]
    decide +kernel
  refine ⟨hrecord, ?_⟩
  unfold ChainBlock.serialize ChainBlock.headerPayload ChainBlock.headerTail
  simp only [String.length_append, hroot, hhash]
  have hcount : (toString (sampleSyncBlock hashBytes index previousHash
      timestamp).records.length).length = 1 := by
    show (toString 1).length = 1
    decide
  have hroots : (sampleSyncBlock hashBytes index previousHash timestamp).stateRoot.length = 64 ∧
    (sampleSyncBlock hashBytes index previousHash timestamp).receiptsRoot.length = 64 :=
    ⟨hdigest _, hdigest _⟩
  have hrecords : (String.intercalate "," ((sampleSyncBlock hashBytes index previousHash
      timestamp).records.map LedgerRecord.serialize)).length ≤ 1000 := by
    show (String.intercalate "," [(sampleSyncRecord hashBytes).serialize]).length ≤ 1000
    rwa [String.intercalate_singleton]
  have hlabels : "Block\x7bindex=".length = 12 ∧ ";previousHash=".length = 14 ∧ ";hash=".length = 6 ∧
      ";timestamp=".length = 11 ∧ ";stateRoot=".length = 11 ∧ ";receiptsRoot=".length = 14 ∧
      ";recordCount=".length = 13 ∧ ";payload=".length = 9 ∧ "BlockHeader\x7bindex=".length = 18 ∧
      ";".length = 1 ∧ "timestamp=".length = 10 ∧ ";recordsMerkleRoot=".length = 19 ∧
      "\x7d".length = 1 ∧ ";records=[".length = 10 ∧ "]\x7d".length = 2 := by decide +kernel
  have hfields : (sampleSyncBlock hashBytes index previousHash timestamp).index = index ∧
      (sampleSyncBlock hashBytes index previousHash timestamp).previousHash = previousHash ∧
      (sampleSyncBlock hashBytes index previousHash timestamp).timestamp = timestamp :=
    ⟨rfl, rfl, rfl⟩
  rw [hfields.1, hfields.2.1, hfields.2.2]
  omega

/-- A sample block is valid, as genesis block or behind another. -/
theorem sampleSyncBlock_valid {index : UInt64} {previousHash : String} {timestamp : Int}
    (hindex : (toString index.toNat).length ≤ 100) (hprevious : previousHash.length ≤ 100)
    (htimestamp : (toString timestamp).length ≤ 100) (hnamed : previousHash ≠ "")
    (hpositive : 0 < timestamp) (hgenesis : index = 0 ↔ previousHash = "GENESIS") :
    (sampleSyncBlock hashBytes index previousHash timestamp).isValid hashBytes true = true := by
  obtain ⟨hrecord, hblock⟩ := sampleSyncBlock_length hprints hindex hprevious htimestamp
  have hvalid : (sampleSyncRecord hashBytes).isValid hashBytes = true := by
    have htimestamp : (sampleSyncRecord hashBytes).timestamp = 1 := rfl
    unfold LedgerRecord.isValid
    rw [if_neg ?_, htimestamp, if_neg (by decide),
      if_neg (by rw [bne_iff_ne, ne_eq, not_not]; rfl),
      if_neg (by rw [bne_iff_ne, ne_eq, not_not]; rfl)]
    have hid : (sampleSyncRecord hashBytes).id ≠ "" := hprints.ne (by decide) _
    have hpayload : (sampleSyncRecord hashBytes).payloadHash ≠ "" := hprints.ne (by decide) _
    have hnames : (sampleSyncRecord hashBytes).sourceId ≠ "" ∧
        (sampleSyncRecord hashBytes).payload ≠ "" := by
      show "s" ≠ "" ∧ "p" ≠ ""
      decide
    simp only [Bool.or_eq_true, String.isEmpty_iff, hid, hpayload, hnames, or_self, not_false_eq_true]
  have hlimits : (sampleSyncBlock hashBytes index previousHash timestamp).isWithinResourceLimits
      hashBytes = true := by
    have hbytes : ChainBlock.recordBytes 0 [sampleSyncRecord hashBytes] =
        some (0 + (sampleSyncRecord hashBytes).serialize.length) := by
      have hpayload : (sampleSyncRecord hashBytes).payload = "p" := rfl
      unfold ChainBlock.recordBytes
      rw [hpayload, if_neg (by decide), if_neg (by unfold ChainBlock.maxSerializedBytes; omega)]
      rfl
    have hrecords : (sampleSyncBlock hashBytes index previousHash timestamp).records =
      [sampleSyncRecord hashBytes] := rfl
    unfold ChainBlock.isWithinResourceLimits
    rw [hrecords, hbytes, if_neg (by
      rw [List.isEmpty_cons, Bool.false_or, List.length_singleton]
      decide)]
    unfold ChainBlock.maxSerializedBytes
    refine Bool.and_eq_true_iff.mpr ⟨decide_eq_true ?_, decide_eq_true ?_⟩ <;> omega
  have hfields : (sampleSyncBlock hashBytes index previousHash timestamp).index = index ∧
      (sampleSyncBlock hashBytes index previousHash timestamp).previousHash = previousHash ∧
      (sampleSyncBlock hashBytes index previousHash timestamp).timestamp = timestamp ∧
      (sampleSyncBlock hashBytes index previousHash timestamp).records =
        [sampleSyncRecord hashBytes] := ⟨rfl, rfl, rfl, rfl⟩
  have hhash : (sampleSyncBlock hashBytes index previousHash timestamp).hash =
      (sampleSyncBlock hashBytes index previousHash timestamp).calculateHash hashBytes := rfl
  have hhashed : (sampleSyncBlock hashBytes index previousHash timestamp).hash ≠ "" :=
    hprints.ne (by decide) _
  unfold ChainBlock.isValid
  rw [hfields.1, hfields.2.1, hfields.2.2.1, hfields.2.2.2, hlimits, ← hhash,
    if_neg (by rwa [String.isEmpty_iff]), if_neg (by rwa [String.isEmpty_iff]),
    if_neg (by rw [List.isEmpty_cons, Bool.not_true, Bool.or_self, Bool.false_and]; decide),
    if_neg (by omega),
    if_neg (by rw [List.all_cons, hvalid, List.all_nil]; decide),
    if_neg (by rw [bne_self_eq_false, Bool.and_false]; decide), if_neg ?_, if_neg ?_]
  · split
    · exact Bool.and_eq_true_iff.mpr ⟨hprints _, hprints _⟩
    · rfl
  · rw [Bool.and_eq_true, beq_iff_eq, decide_eq_true_eq, not_and]
    intro hnext heq
    rw [hgenesis.mpr heq] at hnext
    exact absurd hnext (by decide)
  · rw [Bool.and_eq_true, beq_iff_eq, bne_iff_ne, not_and, not_not]
    exact hgenesis.mp

/-- The sample chain is finalized. -/
theorem sampleResponder_finalized : FinalizedChain hashBytes (sampleResponder hashBytes) := by
  have hgenesis : (sampleSyncGenesis hashBytes).isValid hashBytes true = true :=
    sampleSyncBlock_valid hprints (by decide) (by decide) (by decide) (by decide) (by decide)
      (by decide)
  have hparent : ((sampleSyncGenesis hashBytes).hash).length = 64 := hprints.length _
  have hlatest : (sampleSyncLatest hashBytes).isValid hashBytes true = true :=
    sampleSyncBlock_valid hprints (by decide) (by omega) (by decide)
      (hprints.ne (by decide) _) (by decide)
      ⟨fun h => absurd h (by decide), fun h => absurd h (hprints.ne (by decide) _)⟩
  have hfirst : Blockchain.isValidGenesisBlock hashBytes (sampleSyncGenesis hashBytes) = true := by
    unfold Blockchain.isValidGenesisBlock
    rw [hgenesis, if_neg (by decide)]
    rfl
  have hnext : Blockchain.isValidNextBlock hashBytes (sampleSyncGenesis hashBytes)
      (sampleSyncLatest hashBytes) true = true := by
    obtain ⟨-, hlength⟩ := @sampleSyncBlock_length _ hprints 1 (sampleSyncGenesis hashBytes).hash 2
      (by decide) (by omega) (by decide)
    have hheader : (sampleSyncLatest hashBytes).serialize hashBytes =
      (sampleSyncBlock hashBytes 1 (sampleSyncGenesis hashBytes).hash 2).serialize hashBytes := rfl
    unfold Blockchain.isValidNextBlock
    rw [hgenesis, hlatest, hheader, if_neg (by omega)]
    have hlink : (sampleSyncLatest hashBytes).previousHash = (sampleSyncGenesis hashBytes).hash := rfl
    rw [hlink, bne_self_eq_false]
    rfl
  refine ⟨?_, ?_, by show 2 ≤ _; decide⟩
  · show ((_ || Blockchain.isValidGenesisBlock hashBytes (sampleSyncGenesis hashBytes)) &&
      (Blockchain.isValidNextBlock hashBytes (sampleSyncGenesis hashBytes)
        (sampleSyncLatest hashBytes) true && true)) = true
    rw [hfirst, hnext, Bool.or_true]
    rfl
  · intro front hfront
    rw [← Option.some.inj hfront]
    exact hfirst

end Sample

/-- A node with the genesis block of the sample chain. -/
def sampleRequester : SyncRequester where
  chain := { blocks := [sampleSyncGenesis sampleDigest] }
  checkpoint :=
    { schemaVersion := PersistentSyncCheckpoint.currentSchemaVersion
      finalizedHeight := 0
      finalizedBlockHash := (sampleSyncGenesis sampleDigest).hash
      finalizedStateRoot := "height-0"
      status := .complete
      sourcePeerId := "node-b"
      updatedAt := 1 }

/-- The hypotheses of `honest_catch_up` hold of a chain of two blocks: one exchange is enough. -/
theorem honest_catch_up_two :
    (sampleRequester.catchUp sampleDigest (sampleResponder sampleDigest) (sampleStatus sampleDigest)
      (fun _ => "") [⟨"node-a", "node-b", 8, 8, 1, 1⟩]).chain = sampleResponder sampleDigest := by
  have hgenesis : isSafeSyncScalar 240 (sampleSyncGenesis sampleDigest).hash = true :=
    isSafeSyncScalar_digest (by decide) (printsDigests_sample _)
  have hfollows : sampleRequester.Follows (sampleResponder sampleDigest) := by
    refine ⟨⟨[sampleSyncLatest sampleDigest], rfl⟩, ?_, _, rfl, rfl, rfl⟩
    show (_ && isSafeSyncScalar 240 (sampleSyncGenesis sampleDigest).hash &&
      isSafeSyncScalar 240 "height-0" && isSafeSyncScalar 240 "node-b" && _ && _) = true
    rw [hgenesis]
    decide
  have hstatus : (sampleStatus sampleDigest).isValid = true := by
    have htip : isSafeSyncScalar 200 (sampleSyncLatest sampleDigest).hash = true :=
      isSafeSyncScalar_digest (by decide) (printsDigests_sample _)
    show (isSafeSyncScalar 200 "testnet" && isSafeSyncScalar 200 "nodo" && isSafeSyncScalar 200 "1" &&
      isSafeSyncScalar 200 (sampleSyncLatest sampleDigest).hash &&
      isSafeSyncScalar 200 (sampleSyncLatest sampleDigest).hash && _) = true
    rw [htip]
    decide
  exact (honest_catch_up printsDigests_sample (sampleResponder_finalized printsDigests_sample)
    (fun _ => by decide) ⟨hstatus, rfl, rfl⟩).2.1 _ _
    (by
      intro round hround
      rw [List.mem_singleton] at hround
      subst hround
      exact ⟨by decide, by decide, by decide, by decide⟩) hfollows (Nat.le_refl _)

end Nodo.Model
