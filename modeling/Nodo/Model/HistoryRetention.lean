import Mathlib.Data.Finset.Card
import Mathlib.Data.List.Sort
import Nodo.Model.CommitStorage
import Nodo.Model.V1Merkle

/-!
# Nodo — what a node may delete

`config/HistoryParameters.cpp` and `node/history/HistoryRetentionPolicy.cpp`. A plan gives a height
below which block bodies may go: the least of six floors, each computed by itself in 64 bits. An
interrupted run is rolled forward from an old plan, so that a height once released must stay
released.

## Results

* `released_of_lt` — every height below the floor of a plan is released by all six rules.
* `lt_of_released` — a height is below the floor if every height up to it is released.
* `Released.stays` — a released height is released at every later moment.
* `retention_monotone` — floors only rise, and what was needed is kept.
-/

namespace Nodo.Model

--
-- Parameters
--

structure ArchiveScarcityTier where
  minProvenReplicas : UInt32
  multiplierBasisPoints : UInt32
  deriving DecidableEq

structure HistoryParameters where
  networkName : String
  checkpointIntervalBlocks : UInt64
  checkpointConfirmationBlocks : UInt64
  weakSubjectivitySeconds : Int
  minimumPruningRetentionBlocks : UInt64
  minimumRetainedCheckpointSnapshots : UInt32
  maxSnapshotBytes : UInt64
  snapshotChunkBytes : UInt32
  archiveSegmentBlocks : UInt64
  archivePieceBytes : UInt32
  archiveChallengeIntervalBlocks : UInt64
  archiveChallengeResponseBlocks : UInt64
  archiveChallengeSamples : UInt32
  maxArchivalProofBytes : UInt64
  archiveReplicationTarget : UInt32
  archiveMinProvenReplicasBeforePrune : UInt32
  archiveProviderActivationDelayBlocks : UInt64
  archiveMinBondPerSlotRawUnits : UInt64
  archiveRewardShareBasisPoints : UInt32
  archiveMinAvailabilityBasisPoints : UInt32
  archiveReliabilityFloorBasisPoints : UInt32
  archiveReliabilityRampEpochs : UInt32
  archiveRemovalFailedEpochs : UInt32
  archiveFraudPenaltyBasisPoints : UInt32
  archiveScarcityTiers : List ArchiveScarcityTier
  deriving DecidableEq

namespace HistoryParameters

def kBasisPoints : UInt32 := 10000

def kMaxWeakSubjectivitySeconds : Int := 14 * 24 * 60 * 60

def kMaxCheckpointIntervalBlocks : UInt64 := 10000000

def kMinRetainedCheckpointSnapshots : UInt32 := 2

def kMinSnapshotChunkBytes : UInt32 := 4096

def kMaxSnapshotChunkBytes : UInt32 := 256 * 1024

def kMaxSnapshotBytes : UInt64 := 4 * 1024 * 1024 * 1024

def kMinArchivePieceBytes : UInt32 := 256

def kMaxArchivePieceBytes : UInt32 := 1024 * 1024

def kMaxChallengeSamples : UInt32 := 64

def kMaxReplicationTarget : UInt32 := 32

def kMaxArchiveRewardShareBasisPoints : UInt32 := 3000

def kMaxScarcityMultiplierBasisPoints : UInt32 := 50000

def kMaxScarcityTiers : Nat := 8

def kMaxArchivalProofBytes : UInt64 := 4 * 1024 * 1024

def kArchiveBlockFramingBytes : Nat := 12

/-- `ProtocolLimits::MAX_SERIALIZED_BLOCK_BYTES`. -/
def maxSerializedBlockBytes : Nat := 1024 * 1024

def maxSampleProofBytes (pieceBytes : UInt32) : UInt64 :=
  pieceBytes.toUInt64 + V1MerkleTree.kMaxProofSiblings.toUInt64 * 32 + 64

/-- The loop over the scarcity tiers, with the tier before. -/
def tierError : Option ArchiveScarcityTier → List ArchiveScarcityTier → String
  | _, [] => ""
  | previous, tier :: rest =>
    if tier.multiplierBasisPoints < kBasisPoints
        || tier.multiplierBasisPoints > kMaxScarcityMultiplierBasisPoints then
      "scarcity multiplier is out of range"
    else if previous.any fun before => tier.minProvenReplicas ≥ before.minProvenReplicas
        || tier.multiplierBasisPoints < before.multiplierBasisPoints then
      "scarcity tiers must lower replicas and never lower the multiplier"
    else tierError (some tier) rest

/-- The first rule that is violated; empty when there is none. -/
def validationError (v : HistoryParameters) : String :=
  if !(isSafeIdentifier "_-." v.networkName && v.networkName.utf8ByteSize ≤ 64) then
    "network name is not a safe identifier"
  else if v.checkpointIntervalBlocks == 0
      || v.checkpointIntervalBlocks > kMaxCheckpointIntervalBlocks then
    "checkpoint interval is out of range"
  else if v.weakSubjectivitySeconds ≤ 0
      || v.weakSubjectivitySeconds > kMaxWeakSubjectivitySeconds then
    "weak-subjectivity window must be positive and at most 14 days"
  else if v.minimumPruningRetentionBlocks < v.checkpointIntervalBlocks then
    "pruning retention must cover at least one checkpoint interval"
  else if v.minimumRetainedCheckpointSnapshots < kMinRetainedCheckpointSnapshots then
    "at least two checkpoint snapshots must be retained"
  else if v.snapshotChunkBytes < kMinSnapshotChunkBytes
      || v.snapshotChunkBytes > kMaxSnapshotChunkBytes then
    "snapshot chunk size is out of range"
  else if v.maxSnapshotBytes < v.snapshotChunkBytes.toUInt64
      || v.maxSnapshotBytes > kMaxSnapshotBytes
      || (v.maxSnapshotBytes + v.snapshotChunkBytes.toUInt64 - 1) / v.snapshotChunkBytes.toUInt64
        > V1MerkleTree.kMaxLeaves.toUInt64 then
    "maximum snapshot size is out of range"
  else if v.archiveSegmentBlocks == 0
      || v.checkpointIntervalBlocks % v.archiveSegmentBlocks != 0 then
    "checkpoint interval must be a multiple of the archive segment size"
  else if v.archivePieceBytes < kMinArchivePieceBytes
      || v.archivePieceBytes > kMaxArchivePieceBytes then
    "archive piece size is out of range"
  -- the worst segment is computed in 128 bits
  else if (v.archiveSegmentBlocks.toNat * (maxSerializedBlockBytes + kArchiveBlockFramingBytes)
      + v.archivePieceBytes.toNat - 1) / v.archivePieceBytes.toNat > V1MerkleTree.kMaxLeaves then
    "a full archive segment would exceed the v1 Merkle leaf limit"
  else if v.archiveChallengeIntervalBlocks == 0 || v.archiveChallengeResponseBlocks == 0
      || v.archiveChallengeResponseBlocks > v.archiveChallengeIntervalBlocks then
    "a challenge must be due before the next round is issued"
  else if v.archiveChallengeSamples == 0 || v.archiveChallengeSamples > kMaxChallengeSamples then
    "challenge sample count is out of range"
  else if v.maxArchivalProofBytes > kMaxArchivalProofBytes
      || v.maxArchivalProofBytes
        < v.archiveChallengeSamples.toUInt64 * maxSampleProofBytes v.archivePieceBytes then
    "archival proof cap cannot hold a worst-case proof"
  else if v.archiveReplicationTarget == 0 || v.archiveReplicationTarget > kMaxReplicationTarget
      || v.archiveMinProvenReplicasBeforePrune > v.archiveReplicationTarget then
    "archive replication target is out of range"
  else if v.archiveProviderActivationDelayBlocks == 0 then
    "provider activation delay must be positive"
  else if v.archiveMinBondPerSlotRawUnits == 0
      || v.archiveMinBondPerSlotRawUnits.toNat > 2 ^ 63 - 1 then
    "minimum archive bond is out of range"
  else if v.archiveRewardShareBasisPoints > kMaxArchiveRewardShareBasisPoints then
    "archival reward share exceeds the protocol bound"
  else if v.archiveMinAvailabilityBasisPoints == 0
      || v.archiveMinAvailabilityBasisPoints > kBasisPoints
      || v.archiveReliabilityFloorBasisPoints == 0
      || v.archiveReliabilityFloorBasisPoints > kBasisPoints
      || v.archiveFraudPenaltyBasisPoints > kBasisPoints then
    "archival basis-point parameter is out of range"
  else if v.archiveReliabilityRampEpochs == 0 || v.archiveRemovalFailedEpochs == 0 then
    "reliability ramp and removal epochs must be positive"
  else if v.archiveScarcityTiers.isEmpty || v.archiveScarcityTiers.length > kMaxScarcityTiers then
    "scarcity tier count is out of range"
  else if v.archiveScarcityTiers.head?.any (fun tier =>
        tier.minProvenReplicas != v.archiveReplicationTarget
          || tier.multiplierBasisPoints != kBasisPoints)
      || v.archiveScarcityTiers.getLast?.any (·.minProvenReplicas != 1) then
    "scarcity tiers must start at the target with 1.0x and end at one replica"
  else tierError none v.archiveScarcityTiers

def isValid (parameters : HistoryParameters) : Bool := parameters.validationError.isEmpty

def developmentLocal : HistoryParameters where
  networkName := "localnet"
  checkpointIntervalBlocks := 8
  checkpointConfirmationBlocks := 2
  weakSubjectivitySeconds := kMaxWeakSubjectivitySeconds
  minimumPruningRetentionBlocks := 16
  minimumRetainedCheckpointSnapshots := 2
  maxSnapshotBytes := 64 * 1024 * 1024
  snapshotChunkBytes := 16 * 1024
  archiveSegmentBlocks := 4
  archivePieceBytes := 512
  archiveChallengeIntervalBlocks := 4
  archiveChallengeResponseBlocks := 2
  archiveChallengeSamples := 4
  maxArchivalProofBytes := 1024 * 1024
  archiveReplicationTarget := 3
  archiveMinProvenReplicasBeforePrune := 0
  archiveProviderActivationDelayBlocks := 2
  archiveMinBondPerSlotRawUnits := 100000000
  archiveRewardShareBasisPoints := 1000
  archiveMinAvailabilityBasisPoints := 8000
  archiveReliabilityFloorBasisPoints := 5000
  archiveReliabilityRampEpochs := 4
  archiveRemovalFailedEpochs := 3
  archiveFraudPenaltyBasisPoints := 1000
  archiveScarcityTiers := [⟨3, 10000⟩, ⟨2, 15000⟩, ⟨1, 25000⟩]

variable (parameters : HistoryParameters)

def segmentIndexForHeight (height : UInt64) : Except String UInt64 :=
  if !parameters.isValid || height == 0 then .error "Archive segments start at height one."
  else .ok ((height - 1) / parameters.archiveSegmentBlocks)

def segmentLastHeight (segmentIndex : UInt64) : Except String UInt64 :=
  if !parameters.isValid then .error "Invalid history parameters."
  else if segmentIndex ≥ (2 ^ 64 - 1 : Nat).toUInt64 / parameters.archiveSegmentBlocks then
    .error "Archive segment index overflows height."
  else .ok ((segmentIndex + 1) * parameters.archiveSegmentBlocks)

def segmentFirstHeight (segmentIndex : UInt64) : Except String UInt64 := do
  let last ← parameters.segmentLastHeight segmentIndex
  .ok (last - parameters.archiveSegmentBlocks + 1)

end HistoryParameters

--
-- The plan
--

inductive NodeStorageMode
  | archive
  | normal
  | light
  deriving DecidableEq

inductive RetentionCategory
  | genesisAndIdentity
  | checkpointCommitments
  | headersAndQcs
  | blockBodies
  | checkpointSnapshots
  | legacyFastSyncSnapshots
  | validatorSetHistory
  | slashingEvidence
  | governanceInProgress
  | treasuryTimelocks
  | rewardSettlement
  | archiveSegments
  | mempoolAndOperational
  deriving DecidableEq

structure RetentionInputs where
  mode : NodeStorageMode
  tipHeight : UInt64
  retentionBlocks : UInt64
  retainedCheckpointSnapshots : UInt32
  verifiedCheckpointHeights : List UInt64
  checkpointSnapshotHeights : List UInt64
  legacyFastSyncSnapshotHeights : List UInt64
  earliestOpenGovernanceHeight : Option UInt64
  earliestTimelockedTreasuryHeight : Option UInt64
  provenReplicasBySegment : List UInt32
  checkpointBaseReloadSupported : Bool

structure RetentionRule where
  category : RetentionCategory
  permanent : Bool
  pruneBelowHeight : UInt64
  rule : String
  deriving DecidableEq

structure RetentionPlan where
  mode : NodeStorageMode
  tipHeight : UInt64
  baseCheckpointHeight : Option UInt64
  blockBodySafeBelowHeight : UInt64
  blockBodyPruningAllowed : Bool
  blockBodyBlockers : List String
  checkpointSnapshotsToPrune : List UInt64
  legacySnapshotsToPrune : List UInt64
  rules : List RetentionRule

namespace HistoryRetentionPolicy

def permanentRule (category : RetentionCategory) (rule : String) : RetentionRule :=
  ⟨category, true, 0, rule⟩

def windowRule (category : RetentionCategory) (pruneBelow : UInt64) (rule : String) :
    RetentionRule :=
  ⟨category, false, pruneBelow, rule⟩

def floorBelowWindow (tip window : UInt64) : UInt64 :=
  if tip > window then tip - window + 1 else 0

variable (parameters : HistoryParameters) (input : RetentionInputs)

/-- `retention`. -/
def retentionWindow : UInt64 :=
  match input.mode with
  | .light => parameters.minimumPruningRetentionBlocks
  | _ => max input.retentionBlocks parameters.minimumPruningRetentionBlocks

def keepSnapshots : UInt32 :=
  max input.retainedCheckpointSnapshots parameters.minimumRetainedCheckpointSnapshots

/-- The loop from the back: a checkpoint past the confirmation depth with its snapshot. -/
def baseCheckpoint : Option UInt64 :=
  input.verifiedCheckpointHeights.reverse.find? fun height =>
    height + parameters.checkpointConfirmationBlocks ≤ input.tipHeight
      && input.checkpointSnapshotHeights.contains height

def replayFloor : UInt64 :=
  match baseCheckpoint parameters input with
  | some base => base + 1
  | none => 0

def settlementFloor (tipHeight : UInt64) : Except String UInt64 :=
  if tipHeight == 0 then .ok 0
  else do
    let epochIndex ← ValidatorLifecycle.epochIndexForBlock (tipHeight + 1)
    ValidatorLifecycle.epochStartBlock epochIndex

/-- `std::min` with a height that may be missing. -/
def floorAt (safeBelow : UInt64) : Option UInt64 → UInt64
  | some height => min safeBelow height
  | none => safeBelow

/-- The loop over the segments from `segment` to `needed`: the first one that too few operators
have proven. -/
def firstUnproven (minReplicas : UInt32) (needed : UInt64) :
    UInt64 → List UInt32 → Option UInt64
  | segment, [] => if segment ≤ needed then some segment else none
  | segment, replicas :: rest =>
    if segment ≤ needed then
      if replicas < minReplicas then some segment
      else firstUnproven minReplicas needed (segment + 1) rest
    else none

def archiveFloor (safeBelow : UInt64) : Except String UInt64 :=
  if parameters.archiveMinProvenReplicasBeforePrune > 0 && safeBelow > 1 then do
    let needed ← parameters.segmentIndexForHeight (safeBelow - 1)
    match firstUnproven parameters.archiveMinProvenReplicasBeforePrune needed 0
        input.provenReplicasBySegment with
    | none => .ok safeBelow
    | some segment =>
      let first ← parameters.segmentFirstHeight segment
      .ok (min safeBelow first)
  else .ok safeBelow

/-- `checkpointSnapshotsToPrune` outside archive mode. -/
def snapshotsToPrune : List UInt64 :=
  let ordered := input.checkpointSnapshotHeights.dedup.insertionSort (· ≥ ·)
  ((ordered.drop (keepSnapshots parameters input).toNat).filter fun height =>
    baseCheckpoint parameters input != some height).insertionSort (· ≤ ·)

def plan : Except String RetentionPlan :=
  if !parameters.isValid then .error "Retention planning needs valid parameters."
  else do
    let archive := input.mode == .archive
    let retention := retentionWindow parameters input
    let base := baseCheckpoint parameters input
    let windowFloor := floorBelowWindow input.tipHeight retention
    let settlement ← settlementFloor input.tipHeight
    let settled := min (min windowFloor (replayFloor parameters input)) settlement
    let governed := floorAt settled input.earliestOpenGovernanceHeight
    let timelocked := floorAt governed input.earliestTimelockedTreasuryHeight
    let safeBelow ← archiveFloor parameters input timelocked
    let evidenceFloor := floorBelowWindow (input.tipHeight + 1) kEvidenceMaxAgeBlocks.toUInt64
    let bodyFloor := if archive then 0 else safeBelow
    let blockers :=
      (if archive then ["archive mode keeps every block"] else [])
      ++ (if base.isNone then ["no verified checkpoint is past the confirmation depth"] else [])
      ++ (if !input.checkpointBaseReloadSupported then
            ["the runtime still reloads by replaying from genesis; block bodies "
              ++ "stay until checkpoint-base reload lands (roadmap 3.17)"] else [])
      ++ (if bodyFloor ≤ 1 then ["no block is below every retention floor"] else [])
    let legacy := input.legacyFastSyncSnapshotHeights.insertionSort (· ≤ ·)
    .ok
      { mode := input.mode
        tipHeight := input.tipHeight
        baseCheckpointHeight := base
        blockBodySafeBelowHeight := bodyFloor
        blockBodyPruningAllowed := blockers.isEmpty
        blockBodyBlockers := blockers
        checkpointSnapshotsToPrune := if archive then [] else snapshotsToPrune parameters input
        legacySnapshotsToPrune :=
          if archive then [] else if legacy.length > 1 then legacy.dropLast else []
        rules :=
          [ permanentRule .genesisAndIdentity
              ("genesis document, network identity, protocol version and storage "
                ++ "schema are never pruned")
          , permanentRule .checkpointCommitments
              ("checkpoint records with their QCs and archive segment commitments are "
                ++ "small and never pruned")
          , permanentRule .headersAndQcs
              ("finalized headers and QCs stay so light clients and audits can follow "
                ++ "the finality chain")
          , windowRule .blockBodies windowFloor
              ("keep the last " ++ toString retention ++ " full blocks")
          , windowRule .rewardSettlement settlement
              "keep every block of the epoch whose settlement is still pending"
          , windowRule .governanceInProgress (input.earliestOpenGovernanceHeight.getD governed)
              "keep blocks from the creation of the oldest open proposal"
          , windowRule .treasuryTimelocks
              (input.earliestTimelockedTreasuryHeight.getD timelocked)
              "keep blocks of approved or queued treasury actions until executed"
          , windowRule .archiveSegments safeBelow
              ("drop block bodies only after "
                ++ toString parameters.archiveMinProvenReplicasBeforePrune
                ++ " distinct archive providers prove the segment")
          , windowRule .validatorSetHistory evidenceFloor
              "keep validator sets for the whole evidence admission window"
          , windowRule .slashingEvidence evidenceFloor
              "pending evidence is kept until included or older than the evidence window"
          , windowRule .mempoolAndOperational 0
              "mempool and runtime files are operational state, not history"
          , windowRule .checkpointSnapshots 0
              (if archive then "archive mode keeps every checkpoint snapshot"
                else "keep the newest " ++ toString (keepSnapshots parameters input)
                  ++ " checkpoint snapshots and the pruning base")
          , windowRule .legacyFastSyncSnapshots 0
              (if archive then "archive mode keeps every legacy snapshot"
                else "keep only the newest legacy fast-sync snapshot") ] }

end HistoryRetentionPolicy

--
-- The six rules
--

namespace HistoryRetentionPolicy

/-- A height that no rule holds back any more. -/
structure Released (parameters : HistoryParameters) (input : RetentionInputs) (height : Nat) :
    Prop where
  base : ∃ base, baseCheckpoint parameters input = some base ∧ height ≤ base.toNat
  window : retentionWindow parameters input < input.tipHeight ∧
    height + (retentionWindow parameters input).toNat ≤ input.tipHeight.toNat
  settlement : height < input.tipHeight.toNat / nodoValidatorEpochBlocks * nodoValidatorEpochBlocks + 1
  governance : ∀ opened, input.earliestOpenGovernanceHeight = some opened →
    height < opened.toNat
  treasury : ∀ opened, input.earliestTimelockedTreasuryHeight = some opened →
    height < opened.toNat
  archive : 1 ≤ height → parameters.archiveMinProvenReplicasBeforePrune
    ≤ input.provenReplicasBySegment[(height - 1) / parameters.archiveSegmentBlocks.toNat]?.getD 0

section Words

theorem lt_min_iff_toNat {height : Nat} {a b : UInt64} :
    height < (min a b).toNat ↔ height < a.toNat ∧ height < b.toNat := by
  have hmin : min a b = if a ≤ b then a else b := rfl
  rw [hmin]
  split
  · rename_i hle
    rw [UInt64.le_iff_toNat_le] at hle
    omega
  · rename_i hle
    rw [UInt64.le_iff_toNat_le] at hle
    omega

theorem lt_floorAt {height : Nat} {safeBelow : UInt64} {at? : Option UInt64} :
    height < (floorAt safeBelow at?).toNat ↔
      height < safeBelow.toNat ∧ ∀ opened, at? = some opened → height < opened.toNat := by
  cases at? with
  | none => simp [floorAt]
  | some opened =>
    unfold floorAt
    rw [lt_min_iff_toNat]
    simp

theorem toNat_succ {a : UInt64} (h : a.toNat + 1 < 2 ^ 64) : (a + 1).toNat = a.toNat + 1 := by
  rw [UInt64.toNat_add]
  exact Nat.mod_eq_of_lt h

theorem toNat_pred {a : UInt64} (h : 1 ≤ a.toNat) : (a - 1).toNat = a.toNat - 1 := by
  exact UInt64.toNat_sub_of_le _ _ (UInt64.le_iff_toNat_le.mpr h)

theorem lt_floorBelowWindow {height : Nat} {tip window : UInt64} (hwindow : 0 < window.toNat) :
    height < (floorBelowWindow tip window).toNat ↔
      window < tip ∧ height + window.toNat ≤ tip.toNat := by
  unfold floorBelowWindow
  by_cases hlt : tip > window
  · have hnat := UInt64.lt_iff_toNat_lt.mp hlt
    have hbound := UInt64.toNat_lt tip
    have hsub : (tip - window).toNat = tip.toNat - window.toNat :=
      UInt64.toNat_sub_of_le _ _ (UInt64.le_iff_toNat_le.mpr (by omega))
    rw [if_pos hlt, toNat_succ (by omega), hsub]
    constructor
    · intro h
      exact ⟨hlt, by omega⟩
    · intro h
      omega
  · rw [if_neg hlt]
    constructor
    · intro h
      exact absurd h (Nat.not_lt_zero _)
    · intro h
      exact absurd h.1 hlt

end Words

section Floors

variable {parameters : HistoryParameters} {input : RetentionInputs}

theorem empty_of_ite {p : Prop} [Decidable p] {message rest : String}
    (h : (if p then message else rest).isEmpty = true) (hmessage : message.isEmpty = false) :
    ¬ p ∧ rest.isEmpty = true := by
  by_cases hp : p
  · rw [if_pos hp, hmessage] at h
    cases h
  · rw [if_neg hp] at h
    exact ⟨hp, h⟩

/-- What valid parameters promise the plan. -/
theorem valid_bounds (h : parameters.isValid = true) :
    0 < parameters.minimumPruningRetentionBlocks.toNat ∧
      0 < parameters.archiveSegmentBlocks.toNat := by
  unfold HistoryParameters.isValid HistoryParameters.validationError at h
  obtain ⟨-, h⟩ := empty_of_ite h (by decide)
  obtain ⟨hinterval, h⟩ := empty_of_ite h (by decide)
  obtain ⟨-, h⟩ := empty_of_ite h (by decide)
  obtain ⟨hretention, h⟩ := empty_of_ite h (by decide)
  obtain ⟨-, h⟩ := empty_of_ite h (by decide)
  obtain ⟨-, h⟩ := empty_of_ite h (by decide)
  obtain ⟨-, h⟩ := empty_of_ite h (by decide)
  obtain ⟨hsegment, -⟩ := empty_of_ite h (by decide)
  have hinterval : parameters.checkpointIntervalBlocks ≠ 0 := by
    intro hzero
    exact hinterval (by simp [hzero])
  have hsegment : parameters.archiveSegmentBlocks ≠ 0 := by
    intro hzero
    exact hsegment (by simp [hzero])
  rw [UInt64.lt_iff_toNat_lt] at hretention
  have hpositive : ∀ a : UInt64, a ≠ 0 → 0 < a.toNat := by
    intro a ha
    refine Nat.pos_of_ne_zero (fun hzero => ha ?_)
    exact UInt64.toNat_inj.mp hzero
  have := hpositive _ hinterval
  exact ⟨by omega, hpositive _ hsegment⟩

/-- The settlement floor: the first height of the epoch after the tip. -/
theorem settlementFloor_ok {tip floor : UInt64} (h : settlementFloor tip = .ok floor) :
    (tip.toNat = 0 ∧ floor.toNat = 0) ∨ (0 < tip.toNat ∧ tip.toNat + 1 < 2 ^ 64 ∧
      floor.toNat = tip.toNat / nodoValidatorEpochBlocks * nodoValidatorEpochBlocks + 1) := by
  unfold settlementFloor at h
  by_cases hzero : (tip == 0) = true
  · rw [if_pos hzero] at h
    cases h
    exact .inl ⟨congrArg UInt64.toNat (eq_of_beq hzero), rfl⟩
  rw [if_neg hzero] at h
  obtain ⟨epoch, hepoch, h⟩ := Guards.ok_of_bind h
  obtain ⟨hnext, hepoch⟩ := Guards.ok_of_ite_error hepoch
  obtain ⟨-, h⟩ := Guards.ok_of_ite_error h
  cases hepoch
  cases h
  have hpositive : 0 < tip.toNat := by
    refine Nat.pos_of_ne_zero (fun h => hzero ?_)
    exact beq_iff_eq.mpr (UInt64.toNat_inj.mp h)
  have hbound := UInt64.toNat_lt tip
  have hroom : tip.toNat + 1 < 2 ^ 64 := by
    refine Nat.lt_of_le_of_ne (by omega) (fun h => hnext ?_)
    refine beq_iff_eq.mpr (UInt64.toNat_inj.mp ?_)
    rw [UInt64.toNat_add]
    show (tip.toNat + 1) % 2 ^ 64 = 0
    rw [h, Nat.mod_self]
  have hblocks : nodoValidatorEpochBlocks.toUInt64.toNat = nodoValidatorEpochBlocks := by decide
  have htip : tip + 1 - 1 = tip := by
    refine UInt64.toNat_inj.mp ?_
    rw [toNat_pred (by rw [toNat_succ hroom]; omega), toNat_succ hroom]
    rfl
  have hepochs : (tip / nodoValidatorEpochBlocks.toUInt64).toNat
      = tip.toNat / nodoValidatorEpochBlocks := by
    rw [UInt64.toNat_div, hblocks]
  have hle := Nat.div_mul_le_self tip.toNat nodoValidatorEpochBlocks
  have hepochle := Nat.div_le_self tip.toNat nodoValidatorEpochBlocks
  refine .inr ⟨hpositive, hroom, ?_⟩
  have hindex : (tip / nodoValidatorEpochBlocks.toUInt64 + 1 - 1).toNat
      = tip.toNat / nodoValidatorEpochBlocks := by
    rw [toNat_pred (by rw [toNat_succ (by omega)]; omega), toNat_succ (by omega), hepochs]
    rfl
  have hstart : ((tip / nodoValidatorEpochBlocks.toUInt64 + 1 - 1)
      * nodoValidatorEpochBlocks.toUInt64).toNat
        = tip.toNat / nodoValidatorEpochBlocks * nodoValidatorEpochBlocks := by
    rw [UInt64.toNat_mul, hindex, hblocks]
    exact Nat.mod_eq_of_lt (by omega)
  rw [htip, toNat_succ (by rw [hstart]; omega), hstart]

/-- What the loop over the segments found. -/
theorem firstUnproven_spec {minReplicas : UInt32} (hmin : 0 < minReplicas) {needed : UInt64}
    (hneeded : needed.toNat + 1 < 2 ^ 64) (replicas : List UInt32) (segment : UInt64)
    (hstart : segment.toNat ≤ needed.toNat + 1) :
    match firstUnproven minReplicas needed segment replicas with
    | none => ∀ index, segment.toNat + index ≤ needed.toNat →
        minReplicas ≤ replicas[index]?.getD 0
    | some found => segment.toNat ≤ found.toNat ∧ found.toNat ≤ needed.toNat ∧
        (∀ index, segment.toNat + index < found.toNat → minReplicas ≤ replicas[index]?.getD 0) ∧
        ¬ minReplicas ≤ replicas[found.toNat - segment.toNat]?.getD 0 := by
  induction replicas generalizing segment with
  | nil =>
    unfold firstUnproven
    by_cases hle : segment ≤ needed
    · rw [if_pos hle]
      refine ⟨le_refl _, UInt64.le_iff_toNat_le.mp hle, fun index hlt => ?_, ?_⟩
      · exact absurd hlt (by omega)
      · exact UInt32.not_le.mpr hmin
    · rw [if_neg hle]
      rw [UInt64.le_iff_toNat_le] at hle
      intro index hindex
      exact absurd hindex (by omega)
  | cons head rest ih =>
    unfold firstUnproven
    by_cases hle : segment ≤ needed
    · have hnat := UInt64.le_iff_toNat_le.mp hle
      rw [if_pos hle]
      by_cases hlow : head < minReplicas
      · rw [if_pos hlow]
        refine ⟨le_refl _, hnat, fun index hlt => absurd hlt (by omega), ?_⟩
        rw [Nat.sub_self]
        exact UInt32.not_le.mpr hlow
      · rw [if_neg hlow]
        have hnext := toNat_succ (show segment.toNat + 1 < 2 ^ 64 by omega)
        have hrest := ih (segment + 1) (by omega)
        rw [hnext] at hrest
        cases hfound : firstUnproven minReplicas needed (segment + 1) rest with
        | none =>
          rw [hfound] at hrest
          intro index hindex
          cases index with
          | zero => exact UInt32.not_lt.mp hlow
          | succ index => exact hrest index (by omega)
        | some found =>
          rw [hfound] at hrest
          obtain ⟨hafter, hwithin, hproven, hunproven⟩ := hrest
          refine ⟨by omega, hwithin, fun index hindex => ?_, ?_⟩
          · cases index with
            | zero => exact UInt32.not_lt.mp hlow
            | succ index => exact hproven index (by omega)
          · have hshift : found.toNat - segment.toNat = found.toNat - (segment.toNat + 1) + 1 := by
              omega
            rw [hshift, List.getElem?_cons_succ]
            exact hunproven
    · rw [if_neg hle]
      rw [UInt64.le_iff_toNat_le] at hle
      intro index hindex
      exact absurd hindex (by omega)

end Floors

end HistoryRetentionPolicy

namespace HistoryRetentionPolicy

section Archive

variable {parameters : HistoryParameters} {input : RetentionInputs}

/-- The first height of a segment, where it does not leave the range of heights. -/
theorem segmentFirstHeight_ok (hvalid : parameters.isValid = true) {segment first : UInt64}
    (h : parameters.segmentFirstHeight segment = .ok first) :
    first.toNat = segment.toNat * parameters.archiveSegmentBlocks.toNat + 1 := by
  obtain ⟨-, hsize⟩ := valid_bounds hvalid
  obtain ⟨last, hlast, h⟩ := Guards.ok_of_bind h
  unfold HistoryParameters.segmentLastHeight at hlast
  obtain ⟨-, hlast⟩ := Guards.ok_of_ite_error hlast
  obtain ⟨hroom, hlast⟩ := Guards.ok_of_ite_error hlast
  cases hlast
  cases h
  have hmax : ((2 ^ 64 - 1 : Nat).toUInt64).toNat = 2 ^ 64 - 1 := by decide
  have hroom : segment.toNat < (2 ^ 64 - 1) / parameters.archiveSegmentBlocks.toNat := by
    rw [ge_iff_le, UInt64.le_iff_toNat_le, UInt64.toNat_div, hmax] at hroom
    exact not_le.mp hroom
  have hmul : (segment.toNat + 1) * parameters.archiveSegmentBlocks.toNat ≤ 2 ^ 64 - 1 :=
    (Nat.le_div_iff_mul_le hsize).mp hroom
  have hsplit : (segment.toNat + 1) * parameters.archiveSegmentBlocks.toNat
      = segment.toNat * parameters.archiveSegmentBlocks.toNat
        + parameters.archiveSegmentBlocks.toNat := by
    rw [Nat.add_mul, Nat.one_mul]
  have hless : (2 ^ 64 - 1) / parameters.archiveSegmentBlocks.toNat ≤ 2 ^ 64 - 1 :=
    Nat.div_le_self _ _
  have hlast : ((segment + 1) * parameters.archiveSegmentBlocks).toNat
      = (segment.toNat + 1) * parameters.archiveSegmentBlocks.toNat := by
    rw [UInt64.toNat_mul, toNat_succ (by omega)]
    exact Nat.mod_eq_of_lt (by omega)
  have hsub : ((segment + 1) * parameters.archiveSegmentBlocks
      - parameters.archiveSegmentBlocks).toNat
        = segment.toNat * parameters.archiveSegmentBlocks.toNat := by
    rw [UInt64.toNat_sub_of_le _ _ (UInt64.le_iff_toNat_le.mpr (by omega)), hlast]
    omega
  rw [toNat_succ (by omega), hsub]

/-- A height whose segment is proven by enough operators. -/
def Proven (parameters : HistoryParameters) (input : RetentionInputs) (height : Nat) : Prop :=
  parameters.archiveMinProvenReplicasBeforePrune
    ≤ input.provenReplicasBySegment[(height - 1) / parameters.archiveSegmentBlocks.toNat]?.getD 0

/-- The archive floor: every height below it is in proven segments, and it is the highest such
floor. -/
theorem archiveFloor_ok (hvalid : parameters.isValid = true) {safeBelow floor : UInt64}
    (h : archiveFloor parameters input safeBelow = .ok floor) (height : Nat) :
    height < floor.toNat ↔ height < safeBelow.toNat ∧
      ∀ below, 1 ≤ below → below ≤ height → Proven parameters input below := by
  obtain ⟨-, hsize⟩ := valid_bounds hvalid
  unfold archiveFloor at h
  by_cases hchecked : (decide (parameters.archiveMinProvenReplicasBeforePrune > 0)
      && decide (safeBelow > 1)) = true
  · rw [if_pos hchecked] at h
    rw [Bool.and_eq_true, decide_eq_true_eq, decide_eq_true_eq] at hchecked
    obtain ⟨hmin, hsafe⟩ := hchecked
    have hsafe : 1 < safeBelow.toNat := UInt64.lt_iff_toNat_lt.mp hsafe
    have hbound := UInt64.toNat_lt safeBelow
    obtain ⟨needed, hneeded, h⟩ := Guards.ok_of_bind h
    unfold HistoryParameters.segmentIndexForHeight at hneeded
    obtain ⟨-, hneeded⟩ := Guards.ok_of_ite_error hneeded
    have hneededNat : needed.toNat
        = (safeBelow.toNat - 2) / parameters.archiveSegmentBlocks.toNat := by
      cases hneeded
      rw [UInt64.toNat_div, toNat_pred (by rw [toNat_pred (by omega)]; omega),
        toNat_pred (by omega), Nat.sub_sub]
    have hless := Nat.div_le_self (safeBelow.toNat - 2) parameters.archiveSegmentBlocks.toNat
    have hspec := firstUnproven_spec hmin (show needed.toNat + 1 < 2 ^ 64 by omega)
      input.provenReplicasBySegment 0 (Nat.zero_le _)
    cases hfound : firstUnproven parameters.archiveMinProvenReplicasBeforePrune needed 0
        input.provenReplicasBySegment with
    | none =>
      rw [hfound] at h hspec
      cases h
      refine ⟨fun hlt => ⟨hlt, fun below _ hbelow => ?_⟩, And.left⟩
      refine hspec _ ?_
      have hmono : (below - 1) / parameters.archiveSegmentBlocks.toNat
          ≤ (safeBelow.toNat - 2) / parameters.archiveSegmentBlocks.toNat :=
        Nat.div_le_div_right (by omega)
      rw [hneededNat]
      exact (Nat.zero_add _).symm ▸ hmono
    | some segment =>
      rw [hfound] at h hspec
      obtain ⟨-, -, hproven, hunproven⟩ := hspec
      obtain ⟨first, hfirst, h⟩ := Guards.ok_of_bind h
      cases h
      rw [lt_min_iff_toNat, segmentFirstHeight_ok hvalid hfirst]
      refine and_congr_right fun _ => ⟨fun hlt below hpositive hbelow => ?_, fun hall => ?_⟩
      · refine hproven _ ?_
        show 0 + _ < _
        rw [Nat.zero_add, Nat.div_lt_iff_lt_mul hsize]
        omega
      · -- the first height of the unproven segment would be among those below
        refine not_le.mp fun hle => hunproven ?_
        have hfirst := hall (segment.toNat * parameters.archiveSegmentBlocks.toNat + 1)
          (by omega) hle
        unfold Proven at hfirst
        rw [Nat.add_sub_cancel, Nat.mul_div_cancel _ hsize] at hfirst
        exact hfirst
  · rw [if_neg hchecked] at h
    cases h
    refine ⟨fun hlt => ⟨hlt, fun below hpositive hbelow => ?_⟩, And.left⟩
    rw [Bool.and_eq_true, decide_eq_true_eq, decide_eq_true_eq] at hchecked
    unfold Proven
    rw [UInt32.le_iff_toNat_le]
    by_cases hmin : parameters.archiveMinProvenReplicasBeforePrune > 0
    · have hsafe : ¬ 1 < safeBelow.toNat := fun hlt =>
        hchecked ⟨hmin, UInt64.lt_iff_toNat_lt.mpr hlt⟩
      omega
    · rw [gt_iff_lt, UInt32.lt_iff_toNat_lt] at hmin
      have hzero : (0 : UInt32).toNat = 0 := rfl
      omega

end Archive

section Plan

variable {parameters : HistoryParameters} {input : RetentionInputs} {plan : RetentionPlan}

/-- What a plan outside archive mode is made of. -/
theorem plan_ok (hmode : input.mode ≠ .archive)
    (h : HistoryRetentionPolicy.plan parameters input = .ok plan) :
    parameters.isValid = true ∧ plan.baseCheckpointHeight = baseCheckpoint parameters input ∧
      plan.checkpointSnapshotsToPrune = snapshotsToPrune parameters input ∧
      ∃ settlement, settlementFloor input.tipHeight = .ok settlement ∧
        archiveFloor parameters input (floorAt (floorAt
          (min (min (floorBelowWindow input.tipHeight (retentionWindow parameters input))
            (replayFloor parameters input)) settlement)
          input.earliestOpenGovernanceHeight) input.earliestTimelockedTreasuryHeight)
            = .ok plan.blockBodySafeBelowHeight := by
  unfold HistoryRetentionPolicy.plan at h
  obtain ⟨hvalid, h⟩ := Guards.ok_of_ite_error h
  obtain ⟨settlement, hsettlement, h⟩ := Guards.ok_of_bind h
  obtain ⟨safeBelow, hsafe, h⟩ := Guards.ok_of_bind h
  have hpruning : (input.mode == NodeStorageMode.archive) = false := beq_false_of_ne hmode
  rw [hpruning] at h
  cases h
  exact ⟨by simpa using hvalid, rfl, rfl, settlement, hsettlement, hsafe⟩

theorem retentionWindow_pos (hvalid : parameters.isValid = true) :
    0 < (retentionWindow parameters input).toNat := by
  obtain ⟨hretention, -⟩ := valid_bounds hvalid
  unfold retentionWindow
  split
  · exact hretention
  · have hmax : max input.retentionBlocks parameters.minimumPruningRetentionBlocks
        = if input.retentionBlocks ≤ parameters.minimumPruningRetentionBlocks
          then parameters.minimumPruningRetentionBlocks else input.retentionBlocks := rfl
    rw [hmax]
    split
    · exact hretention
    · rename_i hle
      rw [UInt64.le_iff_toNat_le] at hle
      omega

/-- **Every height below the floor is released** by every rule. -/
theorem released_of_lt (hmode : input.mode ≠ .archive)
    (h : HistoryRetentionPolicy.plan parameters input = .ok plan) {height : Nat}
    (hlt : height < plan.blockBodySafeBelowHeight.toNat) : Released parameters input height := by
  obtain ⟨hvalid, -, -, settlement, hsettlement, hsafe⟩ := plan_ok hmode h
  obtain ⟨hlt, harchive⟩ := (archiveFloor_ok hvalid hsafe height).mp hlt
  rw [lt_floorAt, lt_floorAt, lt_min_iff_toNat, lt_min_iff_toNat,
    lt_floorBelowWindow (retentionWindow_pos hvalid)] at hlt
  obtain ⟨⟨⟨⟨hwindow, hreplay⟩, hsettled⟩, hgovernance⟩, htreasury⟩ := hlt
  refine ⟨?_, hwindow, ?_, hgovernance, htreasury, fun hpositive => ?_⟩
  · unfold replayFloor at hreplay
    cases hbase : baseCheckpoint parameters input with
    | none =>
      rw [hbase] at hreplay
      exact absurd hreplay (Nat.not_lt_zero _)
    | some base =>
      rw [hbase] at hreplay
      refine ⟨base, rfl, ?_⟩
      have hnext : (base + 1).toNat ≤ base.toNat + 1 := by
        rw [UInt64.toNat_add]
        exact Nat.mod_le _ _
      show height ≤ base.toNat
      have : height < (base + 1).toNat := hreplay
      omega
  · obtain ⟨htip, hzero⟩ | ⟨-, -, hfloor⟩ := settlementFloor_ok hsettlement
    · exact absurd hsettled (by omega)
    · rw [hfloor] at hsettled
      exact hsettled
  · exact harchive height hpositive (le_refl _)

/-- **The floor is as high as the rules allow.** -/
theorem lt_of_released (hmode : input.mode ≠ .archive)
    (h : HistoryRetentionPolicy.plan parameters input = .ok plan)
    (hfinalized : ∀ base, baseCheckpoint parameters input = some base → base ≤ input.tipHeight)
    {height : Nat} (hreleased : ∀ below ≤ height, Released parameters input below) :
    height < plan.blockBodySafeBelowHeight.toNat := by
  obtain ⟨hvalid, -, -, settlement, hsettlement, hsafe⟩ := plan_ok hmode h
  have hself := hreleased height (le_refl _)
  refine (archiveFloor_ok hvalid hsafe height).mpr ⟨?_, fun below hpositive hbelow =>
    (hreleased below hbelow).archive hpositive⟩
  rw [lt_floorAt, lt_floorAt, lt_min_iff_toNat, lt_min_iff_toNat,
    lt_floorBelowWindow (retentionWindow_pos hvalid)]
  -- a plan for the last height of the range does not exist
  have htip : input.tipHeight.toNat + 1 < 2 ^ 64 ∧ height < settlement.toNat := by
    have hwindow := UInt64.lt_iff_toNat_lt.mp hself.window.1
    obtain ⟨htip, -⟩ | ⟨-, hroom, hfloor⟩ := settlementFloor_ok hsettlement
    · exact absurd hwindow (by omega)
    · exact ⟨hroom, hfloor ▸ hself.settlement⟩
  refine ⟨⟨⟨⟨hself.window, ?_⟩, htip.2⟩, hself.governance⟩, hself.treasury⟩
  obtain ⟨base, hbase, hheight⟩ := hself.base
  have hbelow := UInt64.le_iff_toNat_le.mp (hfinalized base hbase)
  unfold replayFloor
  rw [hbase]
  show height < (base + 1).toNat
  rw [toNat_succ (by omega)]
  omega

end Plan

end HistoryRetentionPolicy

--
-- Two moments of one node
--

namespace HistoryRetentionPolicy

variable {parameters : HistoryParameters} {earlier later : RetentionInputs} {plan : RetentionPlan}

/-- A later moment of the same node. What the plan of the earlier one did not release is still
there; checkpoints are verified once they are final, and are listed by height. -/
structure Later (earlier later : RetentionInputs) (plan : RetentionPlan) : Prop where
  pruning : earlier.mode ≠ .archive
  mode : later.mode = earlier.mode
  retentionBlocks : later.retentionBlocks = earlier.retentionBlocks
  tip : earlier.tipHeight ≤ later.tipHeight
  ascending : later.verifiedCheckpointHeights.Pairwise (· ≤ ·)
  finalized : ∀ height ∈ later.verifiedCheckpointHeights, height ≤ later.tipHeight
  verified : ∀ height ∈ earlier.verifiedCheckpointHeights,
    height ∉ plan.checkpointSnapshotsToPrune → height ∈ later.verifiedCheckpointHeights
  snapshots : ∀ height ∈ earlier.checkpointSnapshotHeights,
    height ∉ plan.checkpointSnapshotsToPrune → height ∈ later.checkpointSnapshotHeights
  governance : ∀ opened, later.earliestOpenGovernanceHeight = some opened →
    earlier.tipHeight < opened ∨
      ∃ before, earlier.earliestOpenGovernanceHeight = some before ∧ before ≤ opened
  treasury : ∀ opened, later.earliestTimelockedTreasuryHeight = some opened →
    earlier.tipHeight < opened ∨
      ∃ before, (earlier.earliestOpenGovernanceHeight = some before ∨
        earlier.earliestTimelockedTreasuryHeight = some before) ∧ before ≤ opened
  replicas : ∀ (segment : Nat) (proven : UInt32),
    earlier.provenReplicasBySegment[segment]? = some proven →
      ∃ proven', later.provenReplicasBySegment[segment]? = some proven' ∧ proven ≤ proven'

/-- From the back of an ascending list, the search stops at the last element that qualifies. -/
theorem find?_reverse_ge {l : List UInt64} {p : UInt64 → Bool} (hl : l.Pairwise (· ≤ ·))
    {a : UInt64} (hmem : a ∈ l) (hp : p a = true) :
    ∃ b, l.reverse.find? p = some b ∧ a ≤ b := by
  have hsome : (l.reverse.find? p).isSome := by
    rw [List.find?_isSome]
    exact ⟨a, List.mem_reverse.mpr hmem, hp⟩
  obtain ⟨b, hb⟩ := Option.isSome_iff_exists.mp hsome
  refine ⟨b, hb, ?_⟩
  obtain ⟨-, first, rest, hsplit, hfirst⟩ := List.find?_eq_some_iff_append.mp hb
  have hdescending : (first ++ b :: rest).Pairwise (· ≥ ·) := by
    rw [← hsplit, List.pairwise_reverse]
    exact hl
  have hplace : a ∈ first ++ b :: rest := hsplit ▸ List.mem_reverse.mpr hmem
  obtain hbefore | hafter := List.mem_append.mp hplace
  · have hnot := hfirst a hbefore
    rw [hp] at hnot
    cases hnot
  · obtain rfl | hafter := List.mem_cons.mp hafter
    · exact UInt64.le_refl _
    · exact (List.pairwise_cons.mp (List.pairwise_append.mp hdescending).2.1).1 a hafter

/-- The base is never released. -/
theorem base_not_pruned {input : RetentionInputs} {base : UInt64}
    (hbase : baseCheckpoint parameters input = some base) :
    base ∉ snapshotsToPrune parameters input := by
  intro hmem
  unfold snapshotsToPrune at hmem
  rw [List.mem_insertionSort, List.mem_filter, hbase] at hmem
  simp at hmem

/-- Nor are the newest snapshots. -/
theorem newest_not_pruned {input : RetentionInputs} {height : UInt64}
    (hpruned : height ∈ snapshotsToPrune parameters input) :
    (keepSnapshots parameters input).toNat
      ≤ (input.checkpointSnapshotHeights.toFinset.filter (height < ·)).card := by
  unfold snapshotsToPrune at hpruned
  rw [List.mem_insertionSort, List.mem_filter] at hpruned
  obtain ⟨hpruned, -⟩ := hpruned
  obtain ⟨ordered, hordered⟩ :
      ∃ ordered, ordered = input.checkpointSnapshotHeights.dedup.insertionSort (· ≥ ·) := ⟨_, rfl⟩
  rw [← hordered] at hpruned
  have hdescending : ordered.Pairwise (· ≥ ·) := by
    have : Std.Total (fun a b : UInt64 => a ≥ b) := ⟨fun a b => UInt64.le_total b a⟩
    have : IsTrans UInt64 (fun a b : UInt64 => a ≥ b) :=
      ⟨fun a b c hab hbc => UInt64.le_trans hbc hab⟩
    rw [hordered]
    exact List.pairwise_insertionSort (fun a b : UInt64 => a ≥ b) _
  have hperm : ordered.Perm input.checkpointSnapshotHeights.dedup := by
    rw [hordered]
    exact List.perm_insertionSort _ _
  have hnodup : ordered.Nodup := hperm.nodup_iff.mpr (List.nodup_dedup _)
  have hsplit := List.take_append_drop (keepSnapshots parameters input).toNat ordered
  rw [← hsplit, List.pairwise_append] at hdescending
  rw [← hsplit, List.nodup_append] at hnodup
  -- the kept ones are the first, all of them above
  have hlength : (ordered.take (keepSnapshots parameters input).toNat).toFinset.card
      = (keepSnapshots parameters input).toNat := by
    rw [List.toFinset_card_of_nodup hnodup.1, List.length_take]
    have hinside := List.length_pos_of_mem hpruned
    rw [List.length_drop] at hinside
    omega
  rw [← hlength]
  refine Finset.card_le_card (fun kept hkept => ?_)
  have hkept := List.mem_toFinset.mp hkept
  rw [Finset.mem_filter, List.mem_toFinset]
  refine ⟨List.mem_dedup.mp (hperm.subset (List.mem_of_mem_take hkept)), ?_⟩
  have hge := hdescending.2.2 kept hkept height hpruned
  have hne : kept ≠ height := hnodup.2.2 kept hkept height hpruned
  exact UInt64.lt_of_le_of_ne hge hne.symm

/-- **A released height stays released.** -/
theorem Released.stays (hlater : Later earlier later plan)
    (h : HistoryRetentionPolicy.plan parameters earlier = .ok plan) {height : Nat}
    (hreleased : Released parameters earlier height) : Released parameters later height := by
  obtain ⟨-, -, hpruned, -⟩ := plan_ok hlater.pruning h
  have htip := UInt64.le_iff_toNat_le.mp hlater.tip
  have hretention : retentionWindow parameters later = retentionWindow parameters earlier := by
    unfold retentionWindow
    rw [hlater.mode, hlater.retentionBlocks]
  have hbelow : height ≤ earlier.tipHeight.toNat := by
    have := hreleased.window.2
    omega
  refine ⟨?_, ?_, ?_, fun opened hopened => ?_, fun opened hopened => ?_, fun hpositive => ?_⟩
  · obtain ⟨base, hbase, hheight⟩ := hreleased.base
    have hkept := base_not_pruned hbase
    rw [← hpruned] at hkept
    unfold baseCheckpoint at hbase
    have hverified := List.mem_reverse.mp (List.mem_of_find?_eq_some hbase)
    have hchecked := List.find?_some hbase
    rw [Bool.and_eq_true, decide_eq_true_eq, List.contains_iff_mem] at hchecked
    have hqualifies : (decide (base + parameters.checkpointConfirmationBlocks ≤ later.tipHeight)
        && later.checkpointSnapshotHeights.contains base) = true := by
      rw [Bool.and_eq_true, decide_eq_true_eq, List.contains_iff_mem]
      exact ⟨UInt64.le_trans hchecked.1 hlater.tip, hlater.snapshots base hchecked.2 hkept⟩
    obtain ⟨newest, hnewest, hge⟩ := find?_reverse_ge (p := fun height =>
      decide (height + parameters.checkpointConfirmationBlocks ≤ later.tipHeight)
        && later.checkpointSnapshotHeights.contains height) hlater.ascending
      (hlater.verified base hverified hkept) hqualifies
    exact ⟨newest, hnewest, hheight.trans (UInt64.le_iff_toNat_le.mp hge)⟩
  · rw [hretention]
    exact ⟨UInt64.lt_of_lt_of_le hreleased.window.1 hlater.tip, hreleased.window.2.trans htip⟩
  · have hepoch : earlier.tipHeight.toNat / nodoValidatorEpochBlocks * nodoValidatorEpochBlocks
        ≤ later.tipHeight.toNat / nodoValidatorEpochBlocks * nodoValidatorEpochBlocks :=
      Nat.mul_le_mul_right _ (Nat.div_le_div_right htip)
    have := hreleased.settlement
    omega
  · obtain habove | ⟨before, hbefore, hle⟩ := hlater.governance opened hopened
    · rw [UInt64.lt_iff_toNat_lt] at habove
      omega
    · have := hreleased.governance before hbefore
      rw [UInt64.le_iff_toNat_le] at hle
      omega
  · obtain habove | ⟨before, hbefore, hle⟩ := hlater.treasury opened hopened
    · rw [UInt64.lt_iff_toNat_lt] at habove
      omega
    · have hheight : height < before.toNat :=
        hbefore.elim (hreleased.governance before) (hreleased.treasury before)
      rw [UInt64.le_iff_toNat_le] at hle
      omega
  · have hproven := hreleased.archive hpositive
    cases hearlier : earlier.provenReplicasBySegment[
        (height - 1) / parameters.archiveSegmentBlocks.toNat]? with
    | none =>
      rw [hearlier] at hproven
      rw [UInt32.le_iff_toNat_le] at hproven ⊢
      have hzero : ((none : Option UInt32).getD 0).toNat = 0 := rfl
      omega
    | some proven =>
      rw [hearlier] at hproven
      obtain ⟨proven', hlaterProven, hmore⟩ := hlater.replicas _ _ hearlier
      rw [hlaterProven]
      exact UInt32.le_trans hproven hmore

end HistoryRetentionPolicy

namespace HistoryRetentionPolicy

variable {parameters : HistoryParameters} {input : RetentionInputs}

theorem settlementFloor_total {tip : UInt64} (hroom : tip.toNat + 1 < 2 ^ 64) :
    ∃ settlement, settlementFloor tip = .ok settlement := by
  have hnonzero : ∀ a : UInt64, a.toNat + 1 < 2 ^ 64 → ¬ (a + 1 == 0) = true := by
    intro a ha hsucc
    have hnat := congrArg UInt64.toNat (eq_of_beq hsucc)
    rw [toNat_succ ha] at hnat
    cases hnat
  have hepochs := Nat.div_le_self (tip + 1 - 1).toNat nodoValidatorEpochBlocks
  have hsub : (tip + 1 - 1).toNat = tip.toNat := by
    rw [toNat_pred (by rw [toNat_succ hroom]; omega), toNat_succ hroom, Nat.add_sub_cancel]
  have hblocks : nodoValidatorEpochBlocks.toUInt64.toNat = nodoValidatorEpochBlocks := by decide
  unfold settlementFloor ValidatorLifecycle.epochIndexForBlock ValidatorLifecycle.epochStartBlock
  by_cases hzero : (tip == 0) = true
  · rw [if_pos hzero]
    exact ⟨_, rfl⟩
  · rw [if_neg hzero, if_neg (hnonzero _ hroom)]
    refine ⟨_, if_neg (hnonzero _ ?_)⟩
    rw [UInt64.toNat_div, hblocks]
    omega

theorem segmentFirstHeight_total (hvalid : parameters.isValid = true) {segment : UInt64}
    (hroom : (segment.toNat + 1) * parameters.archiveSegmentBlocks.toNat ≤ 2 ^ 64 - 1) :
    ∃ first, parameters.segmentFirstHeight segment = .ok first := by
  obtain ⟨-, hsize⟩ := valid_bounds hvalid
  have hmax : ((2 ^ 64 - 1 : Nat).toUInt64).toNat = 2 ^ 64 - 1 := by decide
  have hlast : parameters.segmentLastHeight segment
      = .ok ((segment + 1) * parameters.archiveSegmentBlocks) := by
    unfold HistoryParameters.segmentLastHeight
    rw [hvalid, if_neg (by simp), if_neg]
    rw [ge_iff_le, UInt64.le_iff_toNat_le, UInt64.toNat_div, hmax, not_le]
    exact (Nat.le_div_iff_mul_le hsize).mpr hroom
  unfold HistoryParameters.segmentFirstHeight
  rw [hlast]
  exact ⟨_, rfl⟩

theorem archiveFloor_total (hvalid : parameters.isValid = true) {safeBelow : UInt64}
    (hroom : safeBelow.toNat + parameters.archiveSegmentBlocks.toNat < 2 ^ 64) :
    ∃ floor, archiveFloor parameters input safeBelow = .ok floor := by
  obtain ⟨-, hsize⟩ := valid_bounds hvalid
  unfold archiveFloor
  by_cases hchecked : (decide (parameters.archiveMinProvenReplicasBeforePrune > 0)
      && decide (safeBelow > 1)) = true
  · rw [if_pos hchecked]
    rw [Bool.and_eq_true, decide_eq_true_eq, decide_eq_true_eq] at hchecked
    obtain ⟨hmin, hone⟩ := hchecked
    have hone : 1 < safeBelow.toNat := UInt64.lt_iff_toNat_lt.mp hone
    have hpred := toNat_pred (show 1 ≤ safeBelow.toNat by omega)
    have hneeded : parameters.segmentIndexForHeight (safeBelow - 1)
        = .ok ((safeBelow - 1 - 1) / parameters.archiveSegmentBlocks) := by
      unfold HistoryParameters.segmentIndexForHeight
      rw [hvalid, if_neg]
      intro hzero
      have hzero : (safeBelow - 1 == 0) = true := hzero
      have hnat := congrArg UInt64.toNat (eq_of_beq hzero)
      rw [hpred] at hnat
      have : (0 : UInt64).toNat = 0 := rfl
      omega
    have hneededNat : ((safeBelow - 1 - 1) / parameters.archiveSegmentBlocks).toNat
        = (safeBelow.toNat - 2) / parameters.archiveSegmentBlocks.toNat := by
      rw [UInt64.toNat_div, toNat_pred (by omega), hpred, Nat.sub_sub]
    have hless := Nat.div_le_self (safeBelow.toNat - 2) parameters.archiveSegmentBlocks.toNat
    have hspec := firstUnproven_spec hmin
      (show ((safeBelow - 1 - 1) / parameters.archiveSegmentBlocks).toNat + 1 < 2 ^ 64 by omega)
      input.provenReplicasBySegment 0 (Nat.zero_le _)
    rw [hneeded, Guards.ok_bind]
    cases hfound : firstUnproven parameters.archiveMinProvenReplicasBeforePrune
        ((safeBelow - 1 - 1) / parameters.archiveSegmentBlocks) 0
        input.provenReplicasBySegment with
    | none => exact ⟨_, rfl⟩
    | some segment =>
      rw [hfound] at hspec
      obtain ⟨-, hwithin, -, -⟩ := hspec
      rw [hneededNat, Nat.le_div_iff_mul_le hsize] at hwithin
      obtain ⟨first, hfirst⟩ := @segmentFirstHeight_total parameters hvalid segment (by
        rw [Nat.add_mul, Nat.one_mul]
        omega)
      simp only [hfirst, Guards.ok_bind]
      exact ⟨_, rfl⟩
  · rw [if_neg hchecked]
    exact ⟨_, rfl⟩

/-- A plan fails only for the last heights of the range. -/
theorem plan_total (hvalid : parameters.isValid = true)
    (hroom : input.tipHeight.toNat + parameters.archiveSegmentBlocks.toNat < 2 ^ 64) :
    ∃ plan, HistoryRetentionPolicy.plan parameters input = .ok plan := by
  obtain ⟨-, hsize⟩ := valid_bounds hvalid
  obtain ⟨settlement, hsettlement⟩ :=
    settlementFloor_total (show input.tipHeight.toNat + 1 < 2 ^ 64 by omega)
  -- the window alone keeps the floor at the tip
  have hbelow : (floorAt (floorAt
      (min (min (floorBelowWindow input.tipHeight (retentionWindow parameters input))
        (replayFloor parameters input)) settlement) input.earliestOpenGovernanceHeight)
      input.earliestTimelockedTreasuryHeight).toNat ≤ input.tipHeight.toNat := by
    refine not_lt.mp fun habove => ?_
    rw [lt_floorAt, lt_floorAt, lt_min_iff_toNat, lt_min_iff_toNat,
      lt_floorBelowWindow (retentionWindow_pos hvalid)] at habove
    have hwindow := habove.1.1.1.1.2
    have hpositive := @retentionWindow_pos parameters input hvalid
    omega
  obtain ⟨floor, hfloor⟩ := @archiveFloor_total parameters input hvalid _
    (lt_of_le_of_lt (Nat.add_le_add_right hbelow _) hroom)
  unfold HistoryRetentionPolicy.plan
  rw [hvalid, if_neg (by simp), hsettlement]
  simp only [Guards.ok_bind, hfloor]
  exact ⟨_, rfl⟩

/-- **Floors only rise.** For valid parameters and two moments of a node in a pruning mode, every
height below the floor of the earlier plan is below that of the later one. A height below a floor
is released by every rule, and neither the base nor one of the newest snapshots is given up. -/
theorem retention_monotone {parameters : HistoryParameters}
    (hvalid : parameters.isValid = true) :
    (∀ (earlier later : RetentionInputs) (plan plan' : RetentionPlan),
      HistoryRetentionPolicy.plan parameters earlier = .ok plan →
      HistoryRetentionPolicy.plan parameters later = .ok plan' →
      Later earlier later plan →
      ∀ height : UInt64, height < plan.blockBodySafeBelowHeight →
        height < plan'.blockBodySafeBelowHeight) ∧
    (∀ (input : RetentionInputs) (plan : RetentionPlan),
      HistoryRetentionPolicy.plan parameters input = .ok plan → input.mode ≠ .archive →
      (∀ height : UInt64, height < plan.blockBodySafeBelowHeight →
        Released parameters input height.toNat) ∧
      ∀ height ∈ plan.checkpointSnapshotsToPrune, plan.baseCheckpointHeight ≠ some height ∧
        (keepSnapshots parameters input).toNat
          ≤ (input.checkpointSnapshotHeights.toFinset.filter (height < ·)).card) ∧
    ∀ input : RetentionInputs,
      input.tipHeight.toNat + parameters.archiveSegmentBlocks.toNat < 2 ^ 64 →
      ∃ plan, HistoryRetentionPolicy.plan parameters input = .ok plan := by
  refine ⟨fun earlier later plan plan' hearlier hlater hmoments height hheight => ?_,
    fun input plan hplan hmode => ⟨fun height hheight => ?_, fun height hheight => ?_⟩,
    fun input hroom => plan_total hvalid hroom⟩
  · rw [UInt64.lt_iff_toNat_lt] at hheight ⊢
    have hmode : later.mode ≠ .archive := hmoments.mode ▸ hmoments.pruning
    refine lt_of_released hmode hlater (fun base hbase => ?_) (fun below hbelow => ?_)
    · exact hmoments.finalized base (List.mem_reverse.mp (List.mem_of_find?_eq_some hbase))
    · exact (released_of_lt hmoments.pruning hearlier (by omega)).stays hmoments hearlier
  · exact released_of_lt hmode hplan (UInt64.lt_iff_toNat_lt.mp hheight)
  · obtain ⟨-, hbase, hpruned, -⟩ := plan_ok hmode hplan
    rw [hpruned] at hheight
    rw [hbase]
    exact ⟨fun heq => base_not_pruned heq hheight, newest_not_pruned hheight⟩

/-- A normal node of a development network. -/
def normalNodeAt (tip : UInt64) (checkpoints snapshots : List UInt64) : RetentionInputs where
  mode := .normal
  tipHeight := tip
  retentionBlocks := 16
  retainedCheckpointSnapshots := 2
  verifiedCheckpointHeights := checkpoints
  checkpointSnapshotHeights := snapshots
  legacyFastSyncSnapshotHeights := []
  earliestOpenGovernanceHeight := none
  earliestTimelockedTreasuryHeight := none
  provenReplicasBySegment := []
  checkpointBaseReloadSupported := true

/-- Two moments an epoch apart: the first one released a whole epoch. -/
theorem retention_monotone_epoch :
    ∃ earlier later : RetentionPlan,
      plan HistoryParameters.developmentLocal
        (normalNodeAt 43300 [43296] [43280, 43288, 43296]) = .ok earlier ∧
      plan HistoryParameters.developmentLocal
        (normalNodeAt 86500 [43296, 86496] [43288, 43296, 86488, 86496]) = .ok later ∧
      earlier.blockBodySafeBelowHeight = 43201 ∧
      ∀ height : UInt64, height < 43201 → height < later.blockBodySafeBelowHeight := by
  have hvalid : HistoryParameters.developmentLocal.isValid = true := by decide +kernel
  obtain ⟨later, hlater⟩ := (retention_monotone hvalid).2.2
    (normalNodeAt 86500 [43296, 86496] [43288, 43296, 86488, 86496]) (by decide +kernel)
  refine ⟨_, later, rfl, hlater, by decide +kernel, ?_⟩
  refine (retention_monotone hvalid).1 (normalNodeAt 43300 [43296] [43280, 43288, 43296])
    _ _ _ rfl hlater ?_
  exact
    { pruning := by decide
      mode := rfl
      retentionBlocks := rfl
      tip := by decide +kernel
      ascending := by decide +kernel
      finalized := List.forall_mem_cons.mpr ⟨by decide +kernel,
        List.forall_mem_cons.mpr ⟨by decide +kernel, fun _ hmem => nomatch hmem⟩⟩
      verified := List.forall_mem_cons.mpr ⟨fun _ => by decide +kernel,
        fun _ hmem => nomatch hmem⟩
      -- the oldest snapshot is the one the earlier plan gives up
      snapshots := List.forall_mem_cons.mpr ⟨fun hkept => absurd (by decide +kernel) hkept,
        List.forall_mem_cons.mpr ⟨fun _ => by decide +kernel,
          List.forall_mem_cons.mpr ⟨fun _ => by decide +kernel, fun _ hmem => nomatch hmem⟩⟩⟩
      governance := fun _ hopened => (nomatch hopened)
      treasury := fun _ hopened => (nomatch hopened)
      replicas := fun _ _ hproven => (nomatch hproven) }

end HistoryRetentionPolicy

end Nodo.Model
