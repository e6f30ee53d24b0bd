import Nodo.Model.ForkChoice
import Nodo.Model.SyncRecovery

/-!
# Nodo — finalizing a block

`consensus/BlockFinalizer.cpp` with the two objects it changes: the chain, to which it
appends the block, and the registry of finalized blocks, in which it registers the record.
The checks before are those of `finalizeBlock` over their outcomes; here the outcomes are
computed from the chain and the registry.

The registry answers after the append. A record of the block that is already there, from
gossip or from a reload, passes the check of conflicts and is reported as a duplicate, with
the block appended.

## Results

* `registerFinalizedBlock_spec` — what the registry answers to a record it can register.
* `BlockFinalizer.finalizeBlock_spec` — the outcomes of a call that passes the checks.
* `BlockFinalizer.allOrNothing_iff` — all or nothing, unless the record was there before.
-/

namespace Nodo.Model

--
-- Registering
--

inductive BlockFinalizationRegistryStatus
  | registered
  | duplicate
  | conflictingFinalization
  | invalidRecord
  | invalidRegistry
  deriving DecidableEq, Repr

/-- `BlockFinalizationRegistryResult`: a record with the first two statuses, a reason with
the others. -/
inductive BlockFinalizationRegistryResult
  | registered (record : FinalizedBlockRecord)
  | duplicate (record : FinalizedBlockRecord)
  | rejected (status : BlockFinalizationRegistryStatus) (reason : String)
  deriving DecidableEq

namespace BlockFinalizationRegistry

def isFinalizedBlock (registry : BlockFinalizationRegistry) (blockIndex : Nat)
    (blockHash : String) : Bool :=
  match registry.recordForHeight blockIndex with
  | none => false
  | some existing => existing.blockHash == blockHash

def canRegister (registry : BlockFinalizationRegistry) (record : FinalizedBlockRecord) : Bool :=
  if !record.isStructurallyValid then false
  else
    match registry.recordForHeight record.blockIndex with
    | none => true
    | some existing => existing.blockHash == record.blockHash

def registerFinalizedBlock (registry : BlockFinalizationRegistry) (record : FinalizedBlockRecord) :
    BlockFinalizationRegistryResult × BlockFinalizationRegistry :=
  if !record.isStructurallyValid then
    (.rejected .invalidRecord "Finalized block record is structurally invalid.", registry)
  else
    match registry.recordForHeight record.blockIndex with
    | some existing =>
      if !existing.isStructurallyValid then
        (.rejected .invalidRegistry "Existing finalized block record is invalid.", registry)
      else if existing.blockHash == record.blockHash then (.duplicate existing, registry)
      else
        (.rejected .conflictingFinalization
          "A different block hash is already finalized at this height.", registry)
    | none =>
      let added : BlockFinalizationRegistry :=
        ⟨registry.recordsByHeight.insert record.blockIndex record⟩
      if !added.isValid then
        (.rejected .invalidRegistry "Finalization registry failed post-registration audit.",
          ⟨added.recordsByHeight.erase record.blockIndex⟩)
      else (.registered record, added)

end BlockFinalizationRegistry

--
-- Finalizing
--

/-- `BlockFinalizationResult`. -/
inductive BlockFinalizationResult
  | finalized (record : FinalizedBlockRecord)
  | duplicate (record : FinalizedBlockRecord)
  | rejected (rejection : BlockFinalizationRejection)
  | registrationFailed (reason : String)
  deriving DecidableEq

/-- What consensus reads of a block of the chain. -/
def ChainBlock.toBlock (block : ChainBlock) : Block :=
  ⟨block.index.toNat, block.hash, block.previousHash, block.timestamp⟩

namespace BlockFinalizer

/-- The record that `finalizeBlock` makes of its arguments. -/
def recordOf (block : ChainBlock) (certificate : QuorumCertificate) (finalizedAt : Int) :
    FinalizedBlockRecord :=
  ⟨block.index.toNat, block.hash, block.previousHash, certificate.round, finalizedAt, certificate⟩

/-- The checks that read the chain and the registry. -/
def chainChecks (hashBytes : String → String) (chain : Blockchain) (block : ChainBlock)
    (registry : BlockFinalizationRegistry) (record : FinalizedBlockRecord) : ChainChecks where
  blockchainValid := !chain.blocks.isEmpty && chain.isValid hashBytes false
  registryValid := registry.isValid
  blockValid := block.isValid hashBytes false && !block.isGenesisBlock
  canAppend := chain.canAppendBlock hashBytes block
  canRegister := registry.canRegister record
  stateTransition := true

/-- `BlockFinalizer::finalizeBlock`, with the chain and the registry it leaves. There is no
result where `addBlock` throws. -/
def finalizeBlock (crypto : CryptoContext) (hashBytes : String → String) (chain : Blockchain)
    (block : ChainBlock) (certificate : QuorumCertificate) (validatorRegistry : ValidatorRegistry)
    (registry : BlockFinalizationRegistry) (finalizedAt : Int) :
    Option BlockFinalizationResult × Blockchain × BlockFinalizationRegistry :=
  match Nodo.Model.finalizeBlock crypto validatorRegistry
      (chainChecks hashBytes chain block registry (recordOf block certificate finalizedAt))
      block.toBlock certificate finalizedAt with
  | .error rejection => (some (.rejected rejection), chain, registry)
  | .ok record =>
    match chain.addBlock hashBytes block with
    | none => (none, chain, registry)
    | some appended =>
      match registry.registerFinalizedBlock record with
      | (.duplicate existing, after) => (some (.duplicate existing), appended, after)
      | (.rejected _ reason, after) => (some (.registrationFailed reason), appended, after)
      | (.registered record, after) => (some (.finalized record), appended, after)

end BlockFinalizer

--
-- What the registry answers
--

namespace BlockFinalizationRegistry

variable {registry : BlockFinalizationRegistry} {record : FinalizedBlockRecord}

theorem isValid_iff : registry.isValid = true ↔ ∀ entry ∈ registry.recordsByHeight.entries,
    entry.1 ≠ 0 ∧ entry.2.blockIndex = entry.1 ∧ entry.2.isStructurallyValid = true := by
  unfold isValid
  rw [List.all_eq_true]
  refine forall₂_congr (fun entry _ => ?_)
  simp only [Bool.not_or, Bool.and_eq_true, Bool.not_eq_true', beq_eq_false_iff_ne,
    bne_eq_false_iff_eq, Bool.not_not, and_assoc]

theorem blockIndex_ne_zero (h : record.isStructurallyValid = true) : record.blockIndex ≠ 0 := by
  unfold FinalizedBlockRecord.isStructurallyValid at h
  simp only [Bool.and_eq_true, bne_iff_ne] at h
  exact h.1.1.1.1.1.1.1.1.1

/-- The audit after a registration passes. -/
theorem isValid_insert (hvalid : registry.isValid = true)
    (hrecord : record.isStructurallyValid = true) :
    (BlockFinalizationRegistry.mk
      (registry.recordsByHeight.insert record.blockIndex record)).isValid = true := by
  rw [isValid_iff] at hvalid ⊢
  intro entry hentry
  rcases SortedMap.mem_insertEntry hentry with rfl | hold
  · exact ⟨blockIndex_ne_zero hrecord, rfl, hrecord⟩
  · exact hvalid entry hold

/-- **The registry's answers** to a record that it can register: the record is new and
registered, or one of the same block is there and nothing changes. -/
theorem registerFinalizedBlock_spec (hvalid : registry.isValid = true)
    (hcan : registry.canRegister record = true) :
    (registry.recordForHeight record.blockIndex = none ∧
      registry.registerFinalizedBlock record = (.registered record,
        ⟨registry.recordsByHeight.insert record.blockIndex record⟩)) ∨
    ∃ existing, registry.recordForHeight record.blockIndex = some existing ∧
      existing.blockHash = record.blockHash ∧
      registry.registerFinalizedBlock record = (.duplicate existing, registry) := by
  unfold canRegister at hcan
  obtain ⟨hstructure, hcan⟩ := Guards.true_of_ite_false hcan
  have hstructure : record.isStructurallyValid = true := by simpa using hstructure
  unfold registerFinalizedBlock
  rw [if_neg (by simp [hstructure])]
  cases hfind : registry.recordForHeight record.blockIndex with
  | none =>
    refine .inl ⟨rfl, ?_⟩
    dsimp only
    rw [if_neg (by simp [isValid_insert hvalid hstructure])]
  | some existing =>
    rw [hfind] at hcan
    have hmem := (registry.recordsByHeight.find?_eq_some_iff).mp hfind
    have hexisting := (isValid_iff.mp hvalid _ hmem).2.2
    refine .inr ⟨existing, rfl, eq_of_beq hcan, ?_⟩
    dsimp only
    rw [if_neg (by simp [hexisting]), if_pos hcan]

end BlockFinalizationRegistry

--
-- The outcomes of a call
--

namespace BlockFinalizer

/-- The chain and the registry of a call are as before, unless the block is `FINALIZED`:
then the chain has the block at its end and the registry has one record more, which is of
that block. -/
def AllOrNothing (chain : Blockchain) (block : ChainBlock) (registry : BlockFinalizationRegistry) :
    Option BlockFinalizationResult × Blockchain × BlockFinalizationRegistry → Prop
  | (some (.finalized record), chain', registry') =>
    chain' = ⟨chain.blocks ++ [block]⟩ ∧ record.blockHash = block.hash ∧
      record.blockIndex = block.index.toNat ∧ registry.recordForHeight record.blockIndex = none ∧
      registry' = ⟨registry.recordsByHeight.insert record.blockIndex record⟩
  | (_, chain', registry') => chain' = chain ∧ registry' = registry

/-- The checks of `finalizeBlock` and the room for one more block. -/
structure Finalizable (crypto : CryptoContext) (hashBytes : String → String) (chain : Blockchain)
    (block : ChainBlock) (certificate : QuorumCertificate) (validatorRegistry : ValidatorRegistry)
    (registry : BlockFinalizationRegistry) (finalizedAt : Int) : Prop where
  blockchain_nonempty : chain.blocks.isEmpty = false
  blockchain_valid : chain.isValid hashBytes false = true
  registry_valid : registry.isValid = true
  block_valid : block.isValid hashBytes false = true
  not_genesis : block.isGenesisBlock = false
  finalizedAt_pos : 0 < finalizedAt
  can_append : chain.canAppendBlock hashBytes block = true
  certificate_verified : certificate.verify crypto validatorRegistry = true
  certificate_matches : certificateMatchesBlock block.toBlock certificate = true
  record_matches : (recordOf block certificate finalizedAt).matchesBlock block.toBlock = true
  record_verified : (recordOf block certificate finalizedAt).verify crypto validatorRegistry = true
  can_register : registry.canRegister (recordOf block certificate finalizedAt) = true
  has_room : chain.size < Blockchain.maxSize

variable {crypto : CryptoContext} {hashBytes : String → String} {chain : Blockchain}
  {block : ChainBlock} {certificate : QuorumCertificate} {validatorRegistry : ValidatorRegistry}
  {registry : BlockFinalizationRegistry} {finalizedAt : Int} {record : FinalizedBlockRecord}

/-- The guards of a call that are passed. -/
theorem checks_of_ok (h : Nodo.Model.finalizeBlock crypto validatorRegistry
      (chainChecks hashBytes chain block registry (recordOf block certificate finalizedAt))
      block.toBlock certificate finalizedAt = .ok record) :
    record = recordOf block certificate finalizedAt ∧
      (chain.size < Blockchain.maxSize → Finalizable crypto hashBytes chain block certificate
        validatorRegistry registry finalizedAt) := by
  obtain ⟨hchain, h⟩ := Guards.ok_of_ite_error h
  obtain ⟨hregistry, h⟩ := Guards.ok_of_ite_error h
  obtain ⟨hblock, h⟩ := Guards.ok_of_ite_error h
  obtain ⟨htime, h⟩ := Guards.ok_of_ite_error h
  obtain ⟨happend, h⟩ := Guards.ok_of_ite_error h
  obtain ⟨hcertificate, h⟩ := Guards.ok_of_ite_error h
  obtain ⟨hmatches, h⟩ := Guards.ok_of_ite_error h
  obtain ⟨hrecord, h⟩ := Guards.ok_of_ite_error h
  obtain ⟨hverified, h⟩ := Guards.ok_of_ite_error h
  obtain ⟨hcan, h⟩ := Guards.ok_of_ite_error h
  refine ⟨(Except.ok.inj h).symm, fun hroom => ?_⟩
  simp only [chainChecks, Bool.not_eq_true', Bool.not_eq_false, Bool.and_eq_true]
    at hchain hregistry hblock happend hcertificate hmatches hrecord hverified hcan
  exact
    { blockchain_nonempty := hchain.1
      blockchain_valid := hchain.2
      registry_valid := hregistry
      block_valid := hblock.1
      not_genesis := hblock.2
      finalizedAt_pos := not_le.mp htime
      can_append := happend
      certificate_verified := hcertificate
      certificate_matches := hmatches
      record_matches := hrecord
      record_verified := hverified
      can_register := hcan
      has_room := hroom }

theorem Finalizable.ok (h : Finalizable crypto hashBytes chain block certificate validatorRegistry
      registry finalizedAt) :
    Nodo.Model.finalizeBlock crypto validatorRegistry
      (chainChecks hashBytes chain block registry (recordOf block certificate finalizedAt))
      block.toBlock certificate finalizedAt = .ok (recordOf block certificate finalizedAt) := by
  have hmatches := h.record_matches
  have hverified := h.record_verified
  have hcan := h.can_register
  unfold recordOf at hmatches hverified hcan
  unfold Nodo.Model.finalizeBlock chainChecks recordOf ChainBlock.toBlock
  dsimp only
  rw [if_neg (by simp [h.blockchain_nonempty, h.blockchain_valid]),
    if_neg (by simp [h.registry_valid]), if_neg (by simp [h.block_valid, h.not_genesis]),
    if_neg (not_le.mpr h.finalizedAt_pos), if_neg (by simp [h.can_append]),
    if_neg (by simp [h.certificate_verified]),
    if_neg (by simpa [ChainBlock.toBlock] using h.certificate_matches),
    if_neg (by simpa [ChainBlock.toBlock] using hmatches), if_neg (by simp [hverified]),
    if_neg (by simp [hcan])]

theorem Finalizable.addBlock (h : Finalizable crypto hashBytes chain block certificate
      validatorRegistry registry finalizedAt) :
    chain.addBlock hashBytes block = some ⟨chain.blocks ++ [block]⟩ := by
  unfold Blockchain.addBlock
  rw [if_neg (by simp [h.blockchain_nonempty]), if_neg (by simp [h.can_append]),
    if_neg (not_le.mpr h.has_room)]

theorem size_lt_of_addBlock {appended : Blockchain}
    (h : chain.addBlock hashBytes block = some appended) : chain.size < Blockchain.maxSize := by
  unfold Blockchain.addBlock at h
  obtain ⟨-, h⟩ := Guards.some_of_ite_none h
  obtain ⟨-, h⟩ := Guards.some_of_ite_none h
  exact not_le.mp (Guards.some_of_ite_none h).1

/-- A refused call changes nothing. -/
theorem finalizeBlock_of_not_finalizable (h : ¬ Finalizable crypto hashBytes chain block certificate
      validatorRegistry registry finalizedAt) :
    AllOrNothing chain block registry (finalizeBlock crypto hashBytes chain block certificate
      validatorRegistry registry finalizedAt) := by
  unfold finalizeBlock
  split
  · exact ⟨rfl, rfl⟩
  rename_i record hrecord
  split
  · exact ⟨rfl, rfl⟩
  rename_i appended happended
  exact absurd ((checks_of_ok hrecord).2 (size_lt_of_addBlock happended)) h

/-- **The outcomes of a call that passes the checks.** The block is appended in both: the
record is new, or one of that block was there and stays. -/
theorem finalizeBlock_spec (h : Finalizable crypto hashBytes chain block certificate
      validatorRegistry registry finalizedAt) :
    (registry.recordForHeight block.index.toNat = none ∧
      finalizeBlock crypto hashBytes chain block certificate validatorRegistry registry finalizedAt =
        (some (.finalized (recordOf block certificate finalizedAt)), ⟨chain.blocks ++ [block]⟩,
          ⟨registry.recordsByHeight.insert block.index.toNat
            (recordOf block certificate finalizedAt)⟩)) ∨
    ∃ existing, registry.recordForHeight block.index.toNat = some existing ∧
      existing.blockHash = block.hash ∧
      finalizeBlock crypto hashBytes chain block certificate validatorRegistry registry finalizedAt =
        (some (.duplicate existing), ⟨chain.blocks ++ [block]⟩, registry) := by
  unfold finalizeBlock
  rw [h.ok]
  dsimp only
  rw [h.addBlock]
  dsimp only
  rcases BlockFinalizationRegistry.registerFinalizedBlock_spec h.registry_valid h.can_register with
    ⟨hnew, hregistered⟩ | ⟨existing, hfound, hhash, hduplicate⟩
  · rw [hregistered]
    exact .inl ⟨hnew, rfl⟩
  · rw [hduplicate]
    exact .inr ⟨existing, hfound, hhash, rfl⟩

/-- **All or nothing**, unless the call passes the checks and the registry has a record of the
block already. -/
theorem allOrNothing_iff :
    AllOrNothing chain block registry (finalizeBlock crypto hashBytes chain block certificate
        validatorRegistry registry finalizedAt) ↔
      (registry.isFinalizedBlock block.index.toNat block.hash = false ∨
        ¬ Finalizable crypto hashBytes chain block certificate validatorRegistry registry
          finalizedAt) := by
  by_cases hchecks : Finalizable crypto hashBytes chain block certificate validatorRegistry registry
      finalizedAt
  · unfold BlockFinalizationRegistry.isFinalizedBlock
    rcases finalizeBlock_spec hchecks with ⟨hnew, houtcome⟩ | ⟨existing, hfound, hhash, houtcome⟩
    · rw [houtcome, hnew]
      exact iff_of_true ⟨rfl, rfl, rfl, hnew, rfl⟩ (.inl rfl)
    · rw [houtcome, hfound]
      refine iff_of_false (fun hall => ?_) ?_
      · -- the chain is one block longer
        have hblocks := congrArg (List.length ∘ Blockchain.blocks) hall.1
        simp only [Function.comp_apply, List.length_append, List.length_singleton] at hblocks
        omega
      · rintro (hother | hrefused)
        · simp [hhash] at hother
        · exact hrefused hchecks
  · exact iff_of_true (finalizeBlock_of_not_finalizable hchecks) (.inr hchecks)

--
-- A record that came first
--

def genesisOnly : Blockchain := ⟨[sampleChainBlock 0 "GENESIS" "3" 1]⟩

theorem finalizable_sample :
    Finalizable sampleCrypto (tableHash sampleTable) genesisOnly (sampleChainBlock 1 "3" "4" 2)
      sampleFinalized.quorumCertificate sampleRegistry oneFinalized 20 where
  blockchain_nonempty := rfl
  blockchain_valid := by
    have hgenesis : Blockchain.isValidGenesisBlock (tableHash sampleTable)
        (sampleChainBlock 0 "GENESIS" "3" 1) = true := by
      unfold Blockchain.isValidGenesisBlock
      rw [(isValid_samples true).1]
      rfl
    simp [genesisOnly, Blockchain.isValid, Blockchain.linked, hgenesis]
  registry_valid := by decide +kernel
  block_valid := (isValid_samples false).2.1
  not_genesis := by decide
  finalizedAt_pos := by decide
  can_append := isValidNextBlock_samples.1
  certificate_verified := by decide +kernel
  certificate_matches := by decide +kernel
  record_matches := by decide +kernel
  record_verified := by decide +kernel
  can_register := by decide +kernel
  has_room := by decide

/-- **The block without a result.** The record of the block is in the registry when the block
arrives: the status is `DUPLICATE_FINALIZATION`, and the chain has the block. -/
theorem duplicate_appends :
    finalizeBlock sampleCrypto (tableHash sampleTable) genesisOnly (sampleChainBlock 1 "3" "4" 2)
        sampleFinalized.quorumCertificate sampleRegistry oneFinalized 20 =
      (some (.duplicate sampleFinalized),
        ⟨[sampleChainBlock 0 "GENESIS" "3" 1, sampleChainBlock 1 "3" "4" 2]⟩, oneFinalized) ∧
    ¬ AllOrNothing genesisOnly (sampleChainBlock 1 "3" "4" 2) oneFinalized
      (finalizeBlock sampleCrypto (tableHash sampleTable) genesisOnly
        (sampleChainBlock 1 "3" "4" 2) sampleFinalized.quorumCertificate sampleRegistry
        oneFinalized 20) := by
  have houtcome : finalizeBlock sampleCrypto (tableHash sampleTable) genesisOnly
      (sampleChainBlock 1 "3" "4" 2) sampleFinalized.quorumCertificate sampleRegistry oneFinalized
      20 = (some (.duplicate sampleFinalized),
        ⟨[sampleChainBlock 0 "GENESIS" "3" 1, sampleChainBlock 1 "3" "4" 2]⟩, oneFinalized) := by
    have hstored : oneFinalized.recordForHeight 1 = some sampleFinalized := rfl
    rcases finalizeBlock_spec finalizable_sample with ⟨hnew, -⟩ | ⟨existing, hfound, -, houtcome⟩
    · exact nomatch hstored.symm.trans hnew
    · rw [houtcome, Option.some.inj (hfound.symm.trans hstored)]
      rfl
  refine ⟨houtcome, ?_⟩
  rw [houtcome]
  rintro ⟨hchain, -⟩
  have hblocks := congrArg (fun chain : Blockchain => chain.blocks.length) hchain
  simp [genesisOnly] at hblocks

end BlockFinalizer

end Nodo.Model
