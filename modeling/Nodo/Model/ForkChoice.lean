import Nodo.Model.Blockchain
import Nodo.Model.Finalization
import Nodo.Model.StateRoot

/-!
# Nodo — fork choice

`consensus/ForkChoice.cpp` and `BlockFinalizationRegistry` of
`consensus/BlockFinalizer.cpp`: which of two chains a node keeps. A summary of a chain
holds its length and the checkpoint of its highest finalized block; a candidate must
contain the local checkpoint and is adopted for a higher checkpoint or more length.

The rule that a candidate must not be behind local finality compares two checkpoints.
A candidate without any is behind every finality and passes: it can win by length,
while its owner adopts the other chain for its checkpoint.

## Results

* `chooseBestChain_adopts_iff` — when a candidate is adopted, in terms of the two
  summaries.
* `never_both_adopt_iff` — two nodes adopt each other's chains exactly when one chain is
  longer, without a checkpoint, and contains the checkpoint of the other.
* `adoption_keeps_finality` — an adopted chain has the local hashes at every height up
  to a finalized one.
-/

namespace Nodo.Model

--
-- The finalization registry
--

/-- `m_recordsByHeight`. -/
structure BlockFinalizationRegistry where
  recordsByHeight : SortedMap Nat FinalizedBlockRecord
  deriving DecidableEq

namespace BlockFinalizationRegistry

def recordForHeight (registry : BlockFinalizationRegistry) (blockIndex : Nat) :
    Option FinalizedBlockRecord :=
  registry.recordsByHeight.find? blockIndex

/-- The last key, zero where there is none. -/
def highestFinalizedHeight (registry : BlockFinalizationRegistry) : Nat :=
  match registry.recordsByHeight.entries.getLast? with
  | none => 0
  | some entry => entry.1

def isValid (registry : BlockFinalizationRegistry) : Bool :=
  registry.recordsByHeight.entries.all (fun entry =>
    !(entry.1 == 0 || entry.2.blockIndex != entry.1 || !entry.2.isStructurallyValid))

/-- No finalized height is above the highest. -/
theorem le_highestFinalizedHeight {registry : BlockFinalizationRegistry} {height : Nat}
    {record : FinalizedBlockRecord} (h : registry.recordForHeight height = some record) :
    height ≤ registry.highestFinalizedHeight := by
  have hmem := (registry.recordsByHeight.find?_eq_some_iff).mp h
  have hsorted := registry.recordsByHeight.sorted
  unfold highestFinalizedHeight
  cases hlast : registry.recordsByHeight.entries.getLast? with
  | none =>
    rw [List.getLast?_eq_none_iff.mp hlast] at hmem
    cases hmem
  | some last =>
    obtain ⟨before, hentries⟩ := List.getLast?_eq_some_iff.mp hlast
    rw [hentries] at hmem hsorted
    rcases List.mem_append.mp hmem with hbefore | hend
    · exact Nat.le_of_lt ((List.pairwise_append.mp hsorted).2.2 _ hbefore last List.mem_cons_self)
    · rw [← List.mem_singleton.mp hend]

/-- Every registered height of a valid registry is positive. -/
theorem pos_of_recordForHeight {registry : BlockFinalizationRegistry}
    (hvalid : registry.isValid = true) {height : Nat} {record : FinalizedBlockRecord}
    (h : registry.recordForHeight height = some record) :
    0 < height ∧ record.blockIndex = height := by
  have hmem := (registry.recordsByHeight.find?_eq_some_iff).mp h
  have hentry := List.all_eq_true.mp hvalid _ hmem
  simp only [Bool.not_or, Bool.and_eq_true, Bool.not_eq_true', beq_eq_false_iff_ne,
    bne_eq_false_iff_eq] at hentry
  exact ⟨Nat.pos_of_ne_zero hentry.1.1, hentry.1.2⟩

end BlockFinalizationRegistry

--
-- Checkpoints and summaries
--

structure FinalizedCheckpoint where
  blockIndex : Nat
  blockHash : String
  previousHash : String
  round : Nat
  finalizedAt : Int
  deriving DecidableEq

namespace FinalizedCheckpoint

def isValid (checkpoint : FinalizedCheckpoint) : Bool :=
  0 < checkpoint.blockIndex && 0 < checkpoint.round && 0 < checkpoint.finalizedAt
    && isSafeScalar checkpoint.blockHash && isSafeScalar checkpoint.previousHash

/-- `checkpointFromRecord`. -/
def ofRecord (record : FinalizedBlockRecord) : FinalizedCheckpoint :=
  ⟨record.blockIndex, record.blockHash, record.previousHash, record.round, record.finalizedAt⟩

end FinalizedCheckpoint

/-- `finalizedCheckpoint` is there where `m_hasFinalizedCheckpoint` is set. -/
structure ChainForkSummary where
  chainSize : Nat
  latestBlockIndex : UInt64
  latestBlockHash : String
  finalizedCheckpoint : Option FinalizedCheckpoint
  deriving DecidableEq

namespace ChainForkSummary

/-- The summary of the default constructor. -/
def none : ChainForkSummary := ⟨0, 0, "", .none⟩

def isValid (summary : ChainForkSummary) : Bool :=
  if summary.chainSize == 0 || summary.latestBlockHash.isEmpty ||
      (summary.latestBlockIndex + 1).toNat != summary.chainSize then false
  else
    match summary.finalizedCheckpoint with
    | .none => true
    | .some checkpoint =>
      checkpoint.isValid && checkpoint.blockIndex ≤ summary.latestBlockIndex.toNat

end ChainForkSummary

--
-- The policy
--

inductive ForkChoiceDecision
  | keepLocal
  | adoptCandidate
  | equalChains
  | rejectCandidate
  deriving DecidableEq

inductive ForkChoiceRejectReason
  | none
  | invalidLocalChain
  | invalidCandidateChain
  | invalidLocalFinalizationRegistry
  | invalidCandidateFinalizationRegistry
  | candidateConflictsWithLocalFinality
  | candidateBehindLocalFinality
  | candidateFinalityConflict
  | candidateNotBetter
  deriving DecidableEq

structure ForkChoiceResult where
  decision : ForkChoiceDecision
  rejectReason : ForkChoiceRejectReason
  detail : String
  deriving DecidableEq

namespace ForkChoiceResult

def keepLocal (reason : String) : ForkChoiceResult := ⟨.keepLocal, .candidateNotBetter, reason⟩

def adoptCandidate (reason : String) : ForkChoiceResult := ⟨.adoptCandidate, .none, reason⟩

def equalChains (reason : String) : ForkChoiceResult := ⟨.equalChains, .none, reason⟩

def rejectCandidate (reason : ForkChoiceRejectReason) (detail : String) : ForkChoiceResult :=
  ⟨.rejectCandidate, reason, detail⟩

end ForkChoiceResult

namespace ForkChoicePolicy

variable (hashBytes : String → String)

def checkpointMatchesChain (chain : Blockchain) (checkpoint : FinalizedCheckpoint) : Bool :=
  if !checkpoint.isValid || chain.blocks.isEmpty || !chain.isValid hashBytes false then false
  else
    match chain.blocks[checkpoint.blockIndex]? with
    | none => false
    | some block =>
      block.hash == checkpoint.blockHash && block.previousHash == checkpoint.previousHash

def summarizeChain (chain : Blockchain) (registry : BlockFinalizationRegistry) :
    ChainForkSummary :=
  match chain.blocks.getLast? with
  | none => ChainForkSummary.none
  | some latestBlock =>
    if !chain.isValid hashBytes false || !registry.isValid then ChainForkSummary.none
    else if registry.highestFinalizedHeight == 0 then
      ⟨chain.size, latestBlock.index, latestBlock.hash, none⟩
    else
      match registry.recordForHeight registry.highestFinalizedHeight with
      | none => ChainForkSummary.none
      | some record =>
        if !record.isStructurallyValid then ChainForkSummary.none
        else if !checkpointMatchesChain hashBytes chain (.ofRecord record) then ChainForkSummary.none
        else ⟨chain.size, latestBlock.index, latestBlock.hash, some (.ofRecord record)⟩

def candidateContainsLocalFinality (candidateChain : Blockchain)
    (localSummary : ChainForkSummary) : Bool :=
  if !localSummary.isValid then false
  else
    match localSummary.finalizedCheckpoint with
    | none => true
    | some checkpoint => checkpointMatchesChain hashBytes candidateChain checkpoint

/-- The checks of two checkpoints; `none` where nothing is wrong. -/
def compareFinality (localCheckpoint candidateCheckpoint : FinalizedCheckpoint) :
    Option ForkChoiceResult :=
  if candidateCheckpoint.blockIndex < localCheckpoint.blockIndex then
    some (.rejectCandidate .candidateBehindLocalFinality
      "Candidate finalized checkpoint is behind local finality.")
  else if candidateCheckpoint.blockIndex == localCheckpoint.blockIndex &&
      candidateCheckpoint.blockHash != localCheckpoint.blockHash then
    some (.rejectCandidate .candidateFinalityConflict
      "Candidate finality conflicts with local finality at same height.")
  else none

/-- The candidate has a checkpoint, and the local one is lower or missing. -/
def higherFinality (localCheckpoint candidateCheckpoint : Option FinalizedCheckpoint) : Bool :=
  match localCheckpoint, candidateCheckpoint with
  | _, none => false
  | none, some _ => true
  | some localCheckpoint, some candidateCheckpoint =>
    candidateCheckpoint.blockIndex > localCheckpoint.blockIndex

/-- The choice between two chains with valid summaries. -/
def chooseBySummary (candidateChain : Blockchain) (localSummary candidateSummary : ChainForkSummary) :
    ForkChoiceResult :=
  if !candidateContainsLocalFinality hashBytes candidateChain localSummary then
    .rejectCandidate .candidateConflictsWithLocalFinality
      "Candidate chain does not contain local finalized checkpoint."
  else
    let conflict := do
      let localCheckpoint ← localSummary.finalizedCheckpoint
      let candidateCheckpoint ← candidateSummary.finalizedCheckpoint
      compareFinality localCheckpoint candidateCheckpoint
    match conflict with
    | some rejection => rejection
    | none =>
      if higherFinality localSummary.finalizedCheckpoint candidateSummary.finalizedCheckpoint then
        .adoptCandidate "Candidate has higher finalized checkpoint."
      else if candidateSummary.chainSize > localSummary.chainSize then
        .adoptCandidate "Candidate chain is longer and does not violate finality."
      else if candidateSummary.chainSize == localSummary.chainSize &&
          candidateSummary.latestBlockHash == localSummary.latestBlockHash then
        .equalChains "Candidate chain is identical at the latest block."
      else .keepLocal "Candidate is not better than local chain."

def chooseBestChain (localChain : Blockchain) (localRegistry : BlockFinalizationRegistry)
    (candidateChain : Blockchain) (candidateRegistry : BlockFinalizationRegistry) :
    ForkChoiceResult :=
  if localChain.blocks.isEmpty || !localChain.isValid hashBytes false then
    .rejectCandidate .invalidLocalChain "Local chain is empty or invalid."
  else if !localRegistry.isValid then
    .rejectCandidate .invalidLocalFinalizationRegistry "Local finalization registry is invalid."
  else if candidateChain.blocks.isEmpty || !candidateChain.isValid hashBytes false then
    .rejectCandidate .invalidCandidateChain "Candidate chain is empty or invalid."
  else if !candidateRegistry.isValid then
    .rejectCandidate .invalidCandidateFinalizationRegistry
      "Candidate finalization registry is invalid."
  else
    let localSummary := summarizeChain hashBytes localChain localRegistry
    let candidateSummary := summarizeChain hashBytes candidateChain candidateRegistry
    if !localSummary.isValid then
      .rejectCandidate .invalidLocalChain "Local chain summary is invalid."
    else if !candidateSummary.isValid then
      .rejectCandidate .invalidCandidateChain "Candidate chain summary is invalid."
    else chooseBySummary hashBytes candidateChain localSummary candidateSummary

end ForkChoicePolicy

--
-- Summaries
--

namespace ForkChoicePolicy

variable {hashBytes : String → String}

/-- A valid summary of a chain, with or without a checkpoint. -/
inductive Summarized (hashBytes : String → String) (chain : Blockchain)
    (registry : BlockFinalizationRegistry) (latestBlock : ChainBlock) : ChainForkSummary → Prop
  | unfinalized (h : registry.highestFinalizedHeight = 0) :
    Summarized hashBytes chain registry latestBlock
      ⟨chain.size, latestBlock.index, latestBlock.hash, none⟩
  | finalized (record : FinalizedBlockRecord)
    (h : registry.recordForHeight registry.highestFinalizedHeight = some record)
    (hmatches : checkpointMatchesChain hashBytes chain (.ofRecord record) = true) :
    Summarized hashBytes chain registry latestBlock
      ⟨chain.size, latestBlock.index, latestBlock.hash, some (.ofRecord record)⟩

theorem summarizeChain_spec {chain : Blockchain} {registry : BlockFinalizationRegistry}
    (h : (summarizeChain hashBytes chain registry).isValid = true) :
    ∃ latestBlock, chain.blocks.getLast? = some latestBlock ∧
      chain.isValid hashBytes false = true ∧ registry.isValid = true ∧
      Summarized hashBytes chain registry latestBlock (summarizeChain hashBytes chain registry) := by
  have hnone : ChainForkSummary.none.isValid = false := rfl
  unfold summarizeChain at h ⊢
  cases hlast : chain.blocks.getLast? with
  | none =>
    rw [hlast] at h
    exact absurd (hnone.symm.trans h) Bool.false_ne_true
  | some latestBlock =>
    rw [hlast] at h
    refine ⟨latestBlock, rfl, ?_⟩
    simp only at h ⊢
    split at h
    · exact absurd (hnone.symm.trans h) Bool.false_ne_true
    · rename_i hvalid
      rw [if_neg hvalid]
      simp only [Bool.or_eq_true, Bool.not_eq_true', not_or, Bool.not_eq_false] at hvalid
      refine ⟨hvalid.1, hvalid.2, ?_⟩
      split at h
      · rename_i hheight
        rw [if_pos hheight]
        exact .unfinalized (eq_of_beq hheight)
      · rename_i hheight
        rw [if_neg hheight]
        cases hrecord : registry.recordForHeight registry.highestFinalizedHeight with
        | none =>
          rw [hrecord] at h
          exact absurd (hnone.symm.trans h) Bool.false_ne_true
        | some record =>
          rw [hrecord] at h
          simp only at h ⊢
          split at h
          · exact absurd (hnone.symm.trans h) Bool.false_ne_true
          · rename_i hstructure
            rw [if_neg hstructure]
            split at h
            · exact absurd (hnone.symm.trans h) Bool.false_ne_true
            · rename_i hmatches
              rw [if_neg hmatches]
              exact .finalized record hrecord (by simpa using hmatches)

/-- The checkpoint of a valid summary is that of the highest finalized block, if any. -/
theorem summarizeChain_checkpoint {chain : Blockchain} {registry : BlockFinalizationRegistry}
    (h : (summarizeChain hashBytes chain registry).isValid = true) :
    (summarizeChain hashBytes chain registry).chainSize = chain.size ∧
      ((registry.highestFinalizedHeight = 0 ∧
          (summarizeChain hashBytes chain registry).finalizedCheckpoint = none) ∨
        ∃ record, registry.recordForHeight registry.highestFinalizedHeight = some record ∧
          checkpointMatchesChain hashBytes chain (.ofRecord record) = true ∧
          (summarizeChain hashBytes chain registry).finalizedCheckpoint = some (.ofRecord record)) := by
  obtain ⟨latestBlock, -, -, -, hsummary⟩ := summarizeChain_spec h
  generalize summarizeChain hashBytes chain registry = summary at hsummary
  cases hsummary with
  | unfinalized hheight => exact ⟨rfl, .inl ⟨hheight, rfl⟩⟩
  | finalized record hrecord hmatches => exact ⟨rfl, .inr ⟨record, hrecord, hmatches, rfl⟩⟩

theorem candidateContainsLocalFinality_iff {candidateChain : Blockchain}
    {localSummary : ChainForkSummary} (h : localSummary.isValid = true) :
    candidateContainsLocalFinality hashBytes candidateChain localSummary = true ↔
      ∀ checkpoint, localSummary.finalizedCheckpoint = some checkpoint →
        checkpointMatchesChain hashBytes candidateChain checkpoint = true := by
  unfold candidateContainsLocalFinality
  rw [if_neg (by rw [h]; decide)]
  cases localSummary.finalizedCheckpoint with
  | none => simp
  | some checkpoint => simp

theorem of_checkpointMatchesChain {chain : Blockchain} {checkpoint : FinalizedCheckpoint}
    (h : checkpointMatchesChain hashBytes chain checkpoint = true) :
    0 < checkpoint.blockIndex ∧ chain.isValid hashBytes false = true ∧
      ∃ block, chain.blocks[checkpoint.blockIndex]? = some block ∧
        block.hash = checkpoint.blockHash := by
  unfold checkpointMatchesChain at h
  obtain ⟨hguard, h⟩ := Guards.true_of_ite_false h
  simp only [Bool.or_eq_true, Bool.not_eq_true', not_or, Bool.not_eq_false] at hguard
  have hpos : 0 < checkpoint.blockIndex := by
    have hvalid := hguard.1.1
    simp only [FinalizedCheckpoint.isValid, Bool.and_eq_true, decide_eq_true_eq] at hvalid
    exact hvalid.1.1.1.1
  cases hblock : chain.blocks[checkpoint.blockIndex]? with
  | none =>
    rw [hblock] at h
    cases h
  | some block =>
    rw [hblock] at h
    exact ⟨hpos, hguard.2, block, rfl, eq_of_beq (Bool.and_eq_true_iff.mp h).1⟩

--
-- Adoption
--

/-- The candidate is adopted. -/
def Adopts (hashBytes : String → String) (localChain : Blockchain)
    (localRegistry : BlockFinalizationRegistry) (candidateChain : Blockchain)
    (candidateRegistry : BlockFinalizationRegistry) : Prop :=
  (chooseBestChain hashBytes localChain localRegistry candidateChain candidateRegistry).decision =
    .adoptCandidate

/-- No rejection comes from two checkpoints that are in order. -/
theorem compareFinality_eq_none {localCheckpoint candidateCheckpoint : FinalizedCheckpoint}
    (h : compareFinality localCheckpoint candidateCheckpoint = none) :
    localCheckpoint.blockIndex ≤ candidateCheckpoint.blockIndex := by
  unfold compareFinality at h
  split at h
  · cases h
  · rename_i hlt
    exact Nat.le_of_not_lt hlt

theorem chooseBySummary_adopts_iff {candidateChain : Blockchain}
    {localSummary candidateSummary : ChainForkSummary} :
    (chooseBySummary hashBytes candidateChain localSummary candidateSummary).decision =
        .adoptCandidate ↔
      candidateContainsLocalFinality hashBytes candidateChain localSummary = true ∧
      (∀ localCheckpoint candidateCheckpoint,
        localSummary.finalizedCheckpoint = some localCheckpoint →
        candidateSummary.finalizedCheckpoint = some candidateCheckpoint →
        compareFinality localCheckpoint candidateCheckpoint = none) ∧
      (higherFinality localSummary.finalizedCheckpoint candidateSummary.finalizedCheckpoint = true ∨
        localSummary.chainSize < candidateSummary.chainSize) := by
  have hrejects : ∀ {a b : FinalizedCheckpoint} {rejection : ForkChoiceResult},
      compareFinality a b = some rejection → rejection.decision ≠ .adoptCandidate := by
    intro a b rejection h
    unfold compareFinality at h
    split at h
    · rw [← Option.some.inj h]
      exact nofun
    · split at h
      · rw [← Option.some.inj h]
        exact nofun
      · cases h
  -- the last three answers
  have hlength : ∀ higher : Bool,
      (if higher = true then ForkChoiceResult.adoptCandidate "Candidate has higher finalized checkpoint."
        else if candidateSummary.chainSize > localSummary.chainSize then
          .adoptCandidate "Candidate chain is longer and does not violate finality."
        else if (candidateSummary.chainSize == localSummary.chainSize &&
            candidateSummary.latestBlockHash == localSummary.latestBlockHash) = true then
          .equalChains "Candidate chain is identical at the latest block."
        else .keepLocal "Candidate is not better than local chain.").decision = .adoptCandidate ↔
      higher = true ∨ localSummary.chainSize < candidateSummary.chainSize := by
    intro higher
    split
    · rename_i hhigher
      exact ⟨fun _ => .inl hhigher, fun _ => rfl⟩
    · rename_i hhigher
      split
      · rename_i hlonger
        exact ⟨fun _ => .inr hlonger, fun _ => rfl⟩
      · rename_i hlonger
        have hfalse : ¬ (higher = true ∨ localSummary.chainSize < candidateSummary.chainSize) :=
          not_or.mpr ⟨hhigher, hlonger⟩
        split <;> exact ⟨nofun, fun h => absurd h hfalse⟩
  unfold chooseBySummary
  by_cases hcontains : candidateContainsLocalFinality hashBytes candidateChain localSummary = true
  · rw [if_neg (by rw [hcontains]; decide)]
    simp only [hcontains, true_and]
    cases hlocal : localSummary.finalizedCheckpoint with
    | none => simpa using hlength _
    | some localCheckpoint =>
      cases hcandidate : candidateSummary.finalizedCheckpoint with
      | none => simpa using hlength _
      | some candidateCheckpoint =>
        simp only [Option.bind_eq_bind, Option.bind_some, Option.some.injEq]
        cases hcompare : compareFinality localCheckpoint candidateCheckpoint with
        | none => simpa [hcompare] using hlength _
        | some rejection => simpa [hcompare] using hrejects hcompare
  · rw [if_pos (by simpa using hcontains)]
    exact ⟨nofun, fun h => absurd h.1 hcontains⟩

/-- **When a candidate is adopted**, for valid chains and registries. -/
theorem chooseBestChain_adopts_iff {localChain candidateChain : Blockchain}
    {localRegistry candidateRegistry : BlockFinalizationRegistry} :
    Adopts hashBytes localChain localRegistry candidateChain candidateRegistry ↔
      (summarizeChain hashBytes localChain localRegistry).isValid = true ∧
      (summarizeChain hashBytes candidateChain candidateRegistry).isValid = true ∧
      (chooseBySummary hashBytes candidateChain (summarizeChain hashBytes localChain localRegistry)
        (summarizeChain hashBytes candidateChain candidateRegistry)).decision = .adoptCandidate := by
  have hguards : ∀ {chain : Blockchain} {registry : BlockFinalizationRegistry},
      (summarizeChain hashBytes chain registry).isValid = true →
      (chain.blocks.isEmpty || !chain.isValid hashBytes false) = false ∧ registry.isValid = true := by
    intro chain registry h
    obtain ⟨latestBlock, hlast, hvalid, hregistry, -⟩ := summarizeChain_spec h
    refine ⟨?_, hregistry⟩
    rw [hvalid]
    cases hblocks : chain.blocks with
    | nil =>
      rw [hblocks] at hlast
      cases hlast
    | cons front rest => rfl
  unfold Adopts chooseBestChain
  constructor
  · intro h
    split at h
    · cases h
    · split at h
      · cases h
      · split at h
        · cases h
        · split at h
          · cases h
          · simp only at h
            split at h
            · cases h
            · split at h
              · cases h
              · rename_i hlocal hcandidate
                exact ⟨by simpa using hlocal, by simpa using hcandidate, h⟩
  · rintro ⟨hlocal, hcandidate, h⟩
    rw [if_neg (by rw [(hguards hlocal).1]; decide), if_neg (by rw [(hguards hlocal).2]; decide),
      if_neg (by rw [(hguards hcandidate).1]; decide),
      if_neg (by rw [(hguards hcandidate).2]; decide)]
    simp only [hlocal, hcandidate]
    exact h

--
-- Two nodes with each other's chains
--

/-- The one chain has no finality and is longer; it contains the finality of the other. -/
structure LongerWithoutFinality (hashBytes : String → String) (long : Blockchain)
    (longRegistry : BlockFinalizationRegistry) (short : Blockchain)
    (shortRegistry : BlockFinalizationRegistry) : Prop where
  summarized : (summarizeChain hashBytes long longRegistry).isValid = true ∧
    (summarizeChain hashBytes short shortRegistry).isValid = true
  unfinalized : longRegistry.highestFinalizedHeight = 0
  contained : ∃ record,
    shortRegistry.recordForHeight shortRegistry.highestFinalizedHeight = some record ∧
      checkpointMatchesChain hashBytes long (.ofRecord record) = true
  longer : short.size < long.size

/-- The chain without a checkpoint is adopted for its length, the other for its
checkpoint. -/
theorem LongerWithoutFinality.adopts {long short : Blockchain}
    {longRegistry shortRegistry : BlockFinalizationRegistry}
    (h : LongerWithoutFinality hashBytes long longRegistry short shortRegistry) :
    Adopts hashBytes long longRegistry short shortRegistry ∧
      Adopts hashBytes short shortRegistry long longRegistry := by
  obtain ⟨hlong, hshort⟩ := h.summarized
  obtain ⟨record, hrecord, hcontained⟩ := h.contained
  have hpos : ∀ {chain : Blockchain} {registry : BlockFinalizationRegistry}
      {record : FinalizedBlockRecord}, (summarizeChain hashBytes chain registry).isValid = true →
      registry.recordForHeight registry.highestFinalizedHeight = some record →
      registry.highestFinalizedHeight ≠ 0 := by
    intro chain registry record hvalid hrecord
    obtain ⟨-, -, -, hregistry, -⟩ := summarizeChain_spec hvalid
    exact Nat.ne_of_gt (BlockFinalizationRegistry.pos_of_recordForHeight hregistry hrecord).1
  obtain ⟨hsize, ⟨-, hnone⟩ | ⟨other, hother, -⟩⟩ := summarizeChain_checkpoint hlong
  · obtain ⟨hsize', ⟨hzero, -⟩ | ⟨record', hrecord', -, hcheckpoint⟩⟩ :=
      summarizeChain_checkpoint hshort
    · exact absurd hzero (hpos hshort hrecord)
    · obtain rfl := Option.some.inj (hrecord.symm.trans hrecord')
      rw [chooseBestChain_adopts_iff, chooseBestChain_adopts_iff, chooseBySummary_adopts_iff,
        chooseBySummary_adopts_iff, candidateContainsLocalFinality_iff hlong,
        candidateContainsLocalFinality_iff hshort, hnone, hcheckpoint, hsize, hsize']
      refine ⟨⟨hlong, hshort, nofun, nofun, .inl rfl⟩, ⟨hshort, hlong, ?_, nofun, .inr h.longer⟩⟩
      intro checkpoint hsome
      rw [← Option.some.inj hsome]
      exact hcontained
  · exact absurd h.unfinalized (hpos hlong hother)

/-- Of two chains that adopt each other, one is longer and has no checkpoint. -/
theorem longerWithoutFinality_of_adopts {chain chain' : Blockchain}
    {registry registry' : BlockFinalizationRegistry}
    (h : Adopts hashBytes chain registry chain' registry')
    (h' : Adopts hashBytes chain' registry' chain registry) :
    LongerWithoutFinality hashBytes chain registry chain' registry' ∨
      LongerWithoutFinality hashBytes chain' registry' chain registry := by
  obtain ⟨hvalid, hvalid', h⟩ := chooseBestChain_adopts_iff.mp h
  obtain ⟨-, -, h'⟩ := chooseBestChain_adopts_iff.mp h'
  rw [chooseBySummary_adopts_iff, candidateContainsLocalFinality_iff hvalid] at h
  rw [chooseBySummary_adopts_iff, candidateContainsLocalFinality_iff hvalid'] at h'
  obtain ⟨hcontains, horder, hbetter⟩ := h
  obtain ⟨hcontains', horder', hbetter'⟩ := h'
  obtain ⟨hsize, hcheckpoint⟩ := summarizeChain_checkpoint hvalid
  obtain ⟨hsize', hcheckpoint'⟩ := summarizeChain_checkpoint hvalid'
  rw [hsize, hsize'] at hbetter hbetter'
  rcases hcheckpoint with ⟨hzero, hnone⟩ | ⟨record, hrecord, -, hsome⟩ <;>
    rcases hcheckpoint' with ⟨hzero', hnone'⟩ | ⟨record', hrecord', -, hsome'⟩
  · -- neither has a checkpoint: each would have to be longer than the other
    rw [hnone, hnone'] at hbetter hbetter'
    have hlonger := hbetter.resolve_left nofun
    have hlonger' := hbetter'.resolve_left nofun
    omega
  · rw [hsome', hnone] at hbetter'
    exact .inl ⟨⟨hvalid, hvalid'⟩, hzero, ⟨record', hrecord', hcontains' _ hsome'⟩,
      hbetter'.resolve_left nofun⟩
  · rw [hsome, hnone'] at hbetter
    exact .inr ⟨⟨hvalid', hvalid⟩, hzero', ⟨record, hrecord, hcontains _ hsome⟩,
      hbetter.resolve_left nofun⟩
  · -- both have one: they are at the same height, and again each would have to be longer
    have hle := compareFinality_eq_none (horder _ _ hsome hsome')
    have hle' := compareFinality_eq_none (horder' _ _ hsome' hsome)
    have hlevel : ∀ {a b : FinalizedCheckpoint}, b.blockIndex ≤ a.blockIndex →
        higherFinality (some a) (some b) ≠ true := by
      intro a b hab hhigher
      have hlt : a.blockIndex < b.blockIndex := of_decide_eq_true hhigher
      omega
    rw [hsome, hsome'] at hbetter hbetter'
    have hlonger := hbetter.resolve_left (hlevel hle')
    have hlonger' := hbetter'.resolve_left (hlevel hle)
    omega

/-- **Fork choice does not oscillate** between two chains, except where one is longer,
has no finality of its own and contains that of the other. -/
theorem never_both_adopt_iff (hashBytes : String → String) (chain chain' : Blockchain)
    (registry registry' : BlockFinalizationRegistry) :
    ¬ ((chooseBestChain hashBytes chain registry chain' registry').decision = .adoptCandidate ∧
        (chooseBestChain hashBytes chain' registry' chain registry).decision = .adoptCandidate) ↔
      ¬ LongerWithoutFinality hashBytes chain registry chain' registry' ∧
        ¬ LongerWithoutFinality hashBytes chain' registry' chain registry := by
  rw [← not_or]
  refine not_congr ⟨fun ⟨h, h'⟩ => longerWithoutFinality_of_adopts h h', ?_⟩
  rintro (hlonger | hlonger)
  · exact hlonger.adopts
  · exact hlonger.adopts.symm

--
-- Finality is kept
--

/-- A chain that contains a checkpoint, with a valid summary, goes back to index zero. -/
theorem fromGenesis_of_summary {chain : Blockchain} {registry : BlockFinalizationRegistry}
    {checkpoint : FinalizedCheckpoint}
    (h : (summarizeChain hashBytes chain registry).isValid = true)
    (hmatches : checkpointMatchesChain hashBytes chain checkpoint = true) :
    Blockchain.FromGenesis hashBytes chain := by
  obtain ⟨hpos, hvalid, block, hblock, -⟩ := of_checkpointMatchesChain hmatches
  obtain ⟨latestBlock, hlast, -, -, hsummary⟩ := summarizeChain_spec h
  have hsize : 1 < chain.size := by
    have hlt := (List.getElem?_eq_some_iff.mp hblock).1
    show 1 < chain.blocks.length
    omega
  refine ⟨hvalid, fun front hfront => ?_, hsize⟩
  have hindex : (latestBlock.index + 1).toNat = chain.size := by
    have hcases : ∀ {summary : ChainForkSummary}, summary.isValid = true →
        (summary.latestBlockIndex + 1).toNat = summary.chainSize := by
      intro summary hsummary
      obtain ⟨hguard, -⟩ := Guards.true_of_ite_false hsummary
      simp only [Bool.or_eq_true, bne_iff_ne, ne_eq, not_or, not_not] at hguard
      exact hguard.2
    have heq := hcases h
    generalize summarizeChain hashBytes chain registry = summary at heq hsummary
    cases hsummary <;> exact heq
  rw [List.getLast?_eq_getElem?] at hlast
  have hlatest := Blockchain.index_of_isValid hvalid hfront hlast
  have hsum : (latestBlock.index + 1).toNat = (latestBlock.index.toNat + 1) % 2 ^ 64 :=
    UInt64.toNat_add _ _
  have hbound := latestBlock.index.toNat_lt
  rw [hsum] at hindex
  apply UInt64.toNat_inj.mp
  show front.index.toNat = 0
  unfold Blockchain.size at hindex hsize
  omega

/-- **Fork choice keeps finality.** A candidate that is adopted has the local hashes at
every height up to a finalized one. -/
theorem adoption_keeps_finality (hhash : HexHash hashBytes) (localChain candidateChain : Blockchain)
    (localRegistry candidateRegistry : BlockFinalizationRegistry)
    (h : (chooseBestChain hashBytes localChain localRegistry candidateChain
      candidateRegistry).decision = .adoptCandidate) (finalizedHeight : Nat)
    (record : FinalizedBlockRecord)
    (hfinalized : localRegistry.recordForHeight finalizedHeight = some record) (height : Nat)
    (hheight : height ≤ finalizedHeight) :
    ∃ block block', localChain.blocks[height]? = some block ∧
      candidateChain.blocks[height]? = some block' ∧ block.hash = block'.hash := by
  obtain ⟨hvalid, hvalid', h⟩ := chooseBestChain_adopts_iff.mp h
  rw [chooseBySummary_adopts_iff, candidateContainsLocalFinality_iff hvalid] at h
  obtain ⟨-, -, -, hregistry, -⟩ := summarizeChain_spec hvalid
  have hhighest := BlockFinalizationRegistry.le_highestFinalizedHeight hfinalized
  have hpos := (BlockFinalizationRegistry.pos_of_recordForHeight hregistry hfinalized).1
  obtain ⟨-, ⟨hzero, -⟩ | ⟨highest, hrecord, hmatches, hcheckpoint⟩⟩ :=
    summarizeChain_checkpoint hvalid
  · omega
  · have hmatches' := h.1 _ hcheckpoint
    have hindex := (BlockFinalizationRegistry.pos_of_recordForHeight hregistry hrecord).2
    obtain ⟨-, -, block, hblock, hhashed⟩ := of_checkpointMatchesChain hmatches
    obtain ⟨-, -, block', hblock', hhashed'⟩ := of_checkpointMatchesChain hmatches'
    refine Blockchain.hash_eq_below hhash (fromGenesis_of_summary hvalid hmatches)
      (fromGenesis_of_summary hvalid' hmatches') hblock hblock' (hhashed.trans hhashed'.symm) ?_
    show height ≤ highest.blockIndex
    omega

end ForkChoicePolicy

--
-- Samples
--

/-- A hash that numbers the texts of a table and spells out every other text. -/
def tableHash (table : List String) (text : String) : String :=
  match table.idxOf? text with
  | some i => toString i
  | none => String.ofList ('f' :: SampleHash.code text.toList)

theorem tableHash_cases (table : List String) (text : String) :
    (∃ i : Nat, table[i]? = some text ∧ tableHash table text = toString i) ∨
      tableHash table text = String.ofList ('f' :: SampleHash.code text.toList) := by
  unfold tableHash
  cases hfind : table.idxOf? text with
  | none => exact .inr rfl
  | some i =>
    refine .inl ⟨i, ?_, rfl⟩
    obtain ⟨hlt, heq, -⟩ := List.findIdx?_eq_some_iff_getElem.mp hfind
    rw [List.getElem?_eq_getElem hlt, eq_of_beq heq]

theorem hexHash_tableHash (table : List String) : HexHash (tableHash table) where
  injective := by
    intro x y h
    have hdigit : ∀ {i : Nat} {rest : List Char}, toString i ≠ String.ofList ('f' :: rest) := by
      intro i rest heq
      have hmem : 'f' ∈ (toString i).toList := by
        rw [heq, String.toList_ofList]
        exact List.mem_cons_self
      exact Text.not_mem_toString rfl hmem
    rcases tableHash_cases table x with ⟨i, hi, hx⟩ | hx <;>
      rcases tableHash_cases table y with ⟨j, hj, hy⟩ | hy <;> rw [hx, hy] at h
    · obtain rfl := Text.toString_nat_inj h
      exact Option.some.inj (hi.symm.trans hj)
    · exact absurd h hdigit
    · exact absurd h.symm hdigit
    · have hcode := (List.cons.inj (String.ofList_injective h)).2
      exact String.toList_injective (SampleHash.code_inj (s := []) (t := []) (by rw [hcode]))
  digits := by
    intro text c hc
    rcases tableHash_cases table text with ⟨i, -, hx⟩ | hx
    · rw [hx] at hc
      have hdigit := Text.isDigit_of_mem_toString hc
      simp only [Char.isDigit, Bool.and_eq_true, decide_eq_true_eq] at hdigit
      exact .inl hdigit
    · rw [hx, String.toList_ofList] at hc
      rcases List.mem_cons.mp hc with rfl | hcode
      · decide
      · rcases SampleHash.mem_code hcode with rfl | rfl | rfl <;> decide

/-- The texts that the sample blocks hash. -/
def sampleTable : List String :=
  ["p", "LedgerRecordId\x7btype=MINT;sourceId=s;payloadHash=0;timestamp=1\x7d",
    "NODO_MERKLE_LEAF:NODO_BLOCK_RECORD_0.6:0:75:LedgerRecord\x7bid=1;type=MINT;sourceId=s;payloadHash=0;timestamp=1;payload=p\x7d",
    "BlockHeader\x7bindex=0;previousHash=GENESIS;timestamp=1;recordCount=1;recordsMerkleRoot=2;stateRoot=;receiptsRoot=\x7d",
    "BlockHeader\x7bindex=1;previousHash=3;timestamp=2;recordCount=1;recordsMerkleRoot=2;stateRoot=;receiptsRoot=\x7d",
    "BlockHeader\x7bindex=2;previousHash=4;timestamp=3;recordCount=1;recordsMerkleRoot=2;stateRoot=;receiptsRoot=\x7d"]

def sampleRecord : LedgerRecord := ⟨"1", .mint, "s", "p", "0", 1⟩

def sampleChainBlock (index : UInt64) (previousHash hash : String) (timestamp : Int) : ChainBlock :=
  ⟨index, previousHash, hash, [sampleRecord], timestamp, "", ""⟩

theorem recordsRoot_sample (index : UInt64) (previousHash hash : String) (timestamp : Int) :
    (sampleChainBlock index previousHash hash timestamp).recordsRoot (tableHash sampleTable) =
      "2" := by
  show MerkleTree.buildOrderedRoot (tableHash sampleTable) [sampleRecord.serialize] = "2"
  decide +kernel

/-- The limits are far away: a bound on the texts that vary is enough. -/
theorem length_serialize_sample {index : UInt64} {previousHash hash : String} {timestamp : Int}
    (hindex : (toString index.toNat).length ≤ 100) (hprevious : previousHash.length ≤ 100)
    (hhash : hash.length ≤ 100) (htimestamp : (toString timestamp).length ≤ 100) :
    ((sampleChainBlock index previousHash hash timestamp).serialize
      (tableHash sampleTable)).length ≤ 2000 := by
  have hrecord : sampleRecord.serialize.length = 75 := by decide +kernel
  have hroot := recordsRoot_sample index previousHash hash timestamp
  unfold ChainBlock.serialize ChainBlock.headerPayload ChainBlock.headerTail
  rw [hroot]
  simp only [sampleChainBlock, List.map_cons, List.map_nil, String.intercalate_singleton,
    String.length_append, hrecord]
  have hcount : (toString [sampleRecord].length).length = 1 := by decide +kernel
  have hlabels : "Block\x7bindex=".length = 12 ∧ ";previousHash=".length = 14 ∧ ";hash=".length = 6 ∧
      ";timestamp=".length = 11 ∧ ";stateRoot=".length = 11 ∧ ";receiptsRoot=".length = 14 ∧
      ";recordCount=".length = 13 ∧ ";payload=".length = 9 ∧ "BlockHeader\x7bindex=".length = 18 ∧
      ";".length = 1 ∧ "timestamp=".length = 10 ∧ ";recordsMerkleRoot=".length = 19 ∧
      "2".length = 1 ∧ "\x7d".length = 1 ∧ ";records=[".length = 10 ∧ "]\x7d".length = 2 ∧
      "".length = 0 := by decide +kernel
  omega

/-- A sample block with the hash of its header is valid. -/
theorem isValid_sample {index : UInt64} {previousHash hash : String} {timestamp : Int}
    (hindex : (toString index.toNat).length ≤ 100) (hprevious : previousHash.length ≤ 100)
    (hhash : hash.length ≤ 100) (htimestamp : (toString timestamp).length ≤ 100)
    (hpreviousHash : previousHash ≠ "") (hhash' : hash ≠ "") (hpositive : 0 < timestamp)
    (hheader : (sampleChainBlock index previousHash hash timestamp).calculateHash
      (tableHash sampleTable) = hash) (hgenesis : index = 0 ↔ previousHash = "GENESIS")
    {requireProtocolCommitments : Bool} (hrequire : requireProtocolCommitments = false ∨ index = 0) :
    (sampleChainBlock index previousHash hash timestamp).isValid (tableHash sampleTable)
      requireProtocolCommitments = true := by
  have hrecord : sampleRecord.isValid (tableHash sampleTable) = true := by decide +kernel
  have hbytes : ChainBlock.recordBytes 0 [sampleRecord] = some 75 := by decide +kernel
  have hlength := length_serialize_sample hindex hprevious hhash htimestamp
  have hrecords : (sampleChainBlock index previousHash hash timestamp).records = [sampleRecord] := rfl
  have hlimits : (sampleChainBlock index previousHash hash timestamp).isWithinResourceLimits
      (tableHash sampleTable) = true := by
    unfold ChainBlock.isWithinResourceLimits
    rw [hrecords, if_neg (by decide), hbytes]
    refine Bool.and_eq_true_iff.mpr ⟨by decide, decide_eq_true ?_⟩
    exact Nat.le_trans hlength (by decide)
  unfold ChainBlock.isValid
  rw [if_neg (by simpa [sampleChainBlock] using hpreviousHash),
    if_neg (by simpa [sampleChainBlock] using hhash'), hlimits, if_neg (by simp [sampleChainBlock]),
    if_neg (by simpa [sampleChainBlock] using hpositive),
    if_neg (by simpa [sampleChainBlock] using hrecord), hheader]
  rw [if_neg (by simp [sampleChainBlock]), if_neg (by simpa [sampleChainBlock] using hgenesis.mp),
    if_neg ?_, if_neg ?_]
  · simp only [sampleChainBlock, gt_iff_lt, Bool.and_eq_true, decide_eq_true_eq, not_and]
    intro hrequired
    rcases hrequire with rfl | rfl
    · exact absurd hrequired.1 (by decide)
    · exact absurd hrequired.2 (by decide)
  · simp only [sampleChainBlock, gt_iff_lt, Bool.and_eq_true, decide_eq_true_eq, beq_iff_eq, not_and]
    intro hpos heq
    rw [hgenesis.mpr heq] at hpos
    exact absurd hpos (by decide)

example : (sampleChainBlock 1 "" "4" 2).isValid (tableHash sampleTable) false = false := by
  decide +kernel

/-- The genesis block and two more. -/
def threeBlocks : Blockchain :=
  ⟨[sampleChainBlock 0 "GENESIS" "3" 1, sampleChainBlock 1 "3" "4" 2, sampleChainBlock 2 "4" "5" 3]⟩

/-- The genesis block and one more. -/
def twoBlocks : Blockchain :=
  ⟨[sampleChainBlock 0 "GENESIS" "3" 1, sampleChainBlock 1 "3" "4" 2]⟩

/-- The hash of a header whose text is known. -/
theorem calculateHash_sample {index : UInt64} {previousHash hash : String} {timestamp : Int}
    {header digest : String} (hprevious : '\x00' ∉ previousHash.toList)
    (htimestamp : '\x00' ∉ (toString timestamp).toList)
    (hheader : "BlockHeader\x7bindex=" ++ toString index.toNat ++ ";previousHash=" ++ previousHash ++
      ";" ++ ("timestamp=" ++ toString timestamp ++ ";recordCount=" ++ "1" ++
      ";recordsMerkleRoot=" ++ "2" ++ ";stateRoot=" ++ "" ++ ";receiptsRoot=" ++ "" ++ "\x7d") = header)
    (hdigest : tableHash sampleTable header = digest) :
    (sampleChainBlock index previousHash hash timestamp).calculateHash (tableHash sampleTable) =
      digest := by
  have hpayload : (sampleChainBlock index previousHash hash timestamp).headerPayload
      (tableHash sampleTable) = header := by
    have hcount : toString [sampleRecord].length = "1" := by decide +kernel
    unfold ChainBlock.headerPayload ChainBlock.headerTail
    rw [recordsRoot_sample, ← hheader]
    simp only [sampleChainBlock, hcount]
  have hnul : '\x00' ∉ header.toList := by
    have hnumber : '\x00' ∉ (toString index.toNat).toList := Text.not_mem_toString rfl
    have hlabels : '\x00' ∉ "BlockHeader\x7bindex=".toList ∧ '\x00' ∉ ";previousHash=".toList ∧
        '\x00' ∉ ";".toList ∧ '\x00' ∉ "timestamp=".toList ∧ '\x00' ∉ ";recordCount=".toList ∧
        '\x00' ∉ "1".toList ∧ '\x00' ∉ ";recordsMerkleRoot=".toList ∧ '\x00' ∉ "2".toList ∧
        '\x00' ∉ ";stateRoot=".toList ∧ '\x00' ∉ "".toList ∧ '\x00' ∉ ";receiptsRoot=".toList ∧
        '\x00' ∉ "\x7d".toList := by decide +kernel
    rw [← hheader]
    simp only [String.toList_append, List.mem_append, hlabels, hnumber, hprevious, htimestamp,
      or_self, not_false_eq_true]
  unfold ChainBlock.calculateHash
  rw [hpayload, ← hdigest, cString, List.takeWhile_eq_self_iff.mpr, String.ofList_toList]
  exact fun c hc => bne_iff_ne.mpr (fun heq => hnul (heq ▸ hc))

/-- The genesis block of the samples, the next one and the one after. -/
theorem isValid_samples (requireProtocolCommitments : Bool) :
    (sampleChainBlock 0 "GENESIS" "3" 1).isValid (tableHash sampleTable)
        requireProtocolCommitments = true ∧
      (sampleChainBlock 1 "3" "4" 2).isValid (tableHash sampleTable) false = true ∧
      (sampleChainBlock 2 "4" "5" 3).isValid (tableHash sampleTable) false = true :=
  ⟨isValid_sample (by decide) (by decide) (by decide) (by decide) (by decide) (by decide) (by decide)
      (calculateHash_sample (by decide) (by decide) rfl (by decide +kernel)) (by decide) (.inr rfl),
    isValid_sample (by decide) (by decide) (by decide) (by decide) (by decide) (by decide)
      (by decide) (calculateHash_sample (by decide) (by decide) rfl (by decide +kernel)) (by decide)
      (.inl rfl),
    isValid_sample (by decide) (by decide) (by decide) (by decide) (by decide) (by decide)
      (by decide) (calculateHash_sample (by decide) (by decide) rfl (by decide +kernel)) (by decide)
      (.inl rfl)⟩

theorem isValidNextBlock_samples :
    Blockchain.isValidNextBlock (tableHash sampleTable) (sampleChainBlock 0 "GENESIS" "3" 1)
        (sampleChainBlock 1 "3" "4" 2) false = true ∧
      Blockchain.isValidNextBlock (tableHash sampleTable) (sampleChainBlock 1 "3" "4" 2)
        (sampleChainBlock 2 "4" "5" 3) false = true := by
  obtain ⟨hgenesis, hfirst, hsecond⟩ := isValid_samples false
  have hlength : ((sampleChainBlock 1 "3" "4" 2).serialize (tableHash sampleTable)).length ≤ 2000 :=
    length_serialize_sample (by decide) (by decide) (by decide) (by decide)
  have hlength' : ((sampleChainBlock 2 "4" "5" 3).serialize (tableHash sampleTable)).length ≤ 2000 :=
    length_serialize_sample (by decide) (by decide) (by decide) (by decide)
  constructor
  · unfold Blockchain.isValidNextBlock
    rw [if_neg (by omega), hgenesis, hfirst]
    decide
  · unfold Blockchain.isValidNextBlock
    rw [if_neg (by omega), hfirst, hsecond]
    decide

theorem isValid_chains :
    threeBlocks.isValid (tableHash sampleTable) false = true ∧
      twoBlocks.isValid (tableHash sampleTable) false = true := by
  obtain ⟨hfirst, hsecond⟩ := isValidNextBlock_samples
  have hgenesis : Blockchain.isValidGenesisBlock (tableHash sampleTable)
      (sampleChainBlock 0 "GENESIS" "3" 1) = true := by
    unfold Blockchain.isValidGenesisBlock
    rw [(isValid_samples true).1]
    decide
  constructor
  · simp only [Blockchain.isValid, threeBlocks, Blockchain.linked, hgenesis, hfirst, hsecond,
      Bool.or_true, Bool.and_true]
  · simp only [Blockchain.isValid, twoBlocks, Blockchain.linked, hgenesis, hfirst, Bool.or_true,
      Bool.and_true]

def noFinality : BlockFinalizationRegistry := ⟨SortedMap.empty⟩

/-- The record of the block at height one. -/
def sampleFinalized : FinalizedBlockRecord :=
  ⟨1, "4", "3", 1, 20, ⟨1, "4", "3", 1, 2666667, 4000000, 3000000, "a,b,c,d",
    ["a", "b", "c"].map fun name => sampleVote name 1 "4" "3" 1 .precommit 10⟩⟩

def oneFinalized : BlockFinalizationRegistry :=
  ⟨⟨[(1, sampleFinalized)], List.pairwise_singleton _ _⟩⟩

/-- The longer chain has no finality and contains that of the other. -/
theorem longerWithoutFinality_samples :
    ForkChoicePolicy.LongerWithoutFinality (tableHash sampleTable) threeBlocks noFinality twoBlocks
      oneFinalized := by
  obtain ⟨hthree, htwo⟩ := isValid_chains
  have hstructure : sampleFinalized.isStructurallyValid = true := by decide +kernel
  have hregistry : oneFinalized.isValid = true := by decide +kernel
  have hmatches : ForkChoicePolicy.checkpointMatchesChain (tableHash sampleTable) threeBlocks
      (.ofRecord sampleFinalized) = true := by
    unfold ForkChoicePolicy.checkpointMatchesChain
    rw [hthree, if_neg (by decide)]
    decide
  have hmatches' : ForkChoicePolicy.checkpointMatchesChain (tableHash sampleTable) twoBlocks
      (.ofRecord sampleFinalized) = true := by
    unfold ForkChoicePolicy.checkpointMatchesChain
    rw [htwo, if_neg (by decide)]
    decide
  have hlong : ForkChoicePolicy.summarizeChain (tableHash sampleTable) threeBlocks noFinality =
      ⟨3, 2, "5", none⟩ := by
    unfold ForkChoicePolicy.summarizeChain
    rw [hthree]
    rfl
  have hshort : ForkChoicePolicy.summarizeChain (tableHash sampleTable) twoBlocks oneFinalized =
      ⟨2, 1, "4", some (.ofRecord sampleFinalized)⟩ := by
    have hrecord : oneFinalized.recordForHeight oneFinalized.highestFinalizedHeight =
        some sampleFinalized := rfl
    unfold ForkChoicePolicy.summarizeChain
    rw [htwo, hregistry, hrecord]
    simp only [hstructure, hmatches']
    rfl
  refine ⟨⟨?_, ?_⟩, rfl, ⟨sampleFinalized, rfl, hmatches⟩, by decide⟩
  · rw [hlong]
    decide
  · rw [hshort]
    decide

/-- **Two nodes that swap their chains.** Both chains and registries are valid; each
node adopts the chain of the other. -/
theorem both_adopt :
    threeBlocks.isValid (tableHash sampleTable) false = true ∧
    twoBlocks.isValid (tableHash sampleTable) false = true ∧
    noFinality.isValid = true ∧ oneFinalized.isValid = true ∧
    (ForkChoicePolicy.chooseBestChain (tableHash sampleTable) threeBlocks noFinality twoBlocks
      oneFinalized).decision = .adoptCandidate ∧
    (ForkChoicePolicy.chooseBestChain (tableHash sampleTable) twoBlocks oneFinalized threeBlocks
      noFinality).decision = .adoptCandidate :=
  ⟨isValid_chains.1, isValid_chains.2, rfl, by decide +kernel, longerWithoutFinality_samples.adopts⟩

/-- The longer chain keeps the finalized block at height one and the genesis block. -/
theorem adoption_keeps_finality_twoBlocks :
    ∃ block block', twoBlocks.blocks[0]? = some block ∧ threeBlocks.blocks[0]? = some block' ∧
      block.hash = block'.hash :=
  ForkChoicePolicy.adoption_keeps_finality (hexHash_tableHash sampleTable) twoBlocks threeBlocks
    oneFinalized noFinality longerWithoutFinality_samples.adopts.2 1 sampleFinalized rfl 0 (by decide)

namespace Blockchain

variable {hashBytes : String → String}

/-- **A block hash fixes the height and the history.** Where two chains from the genesis block hold
blocks of one hash, at whatever places, the places are the same and so are all hashes up to them. -/
theorem hash_fixes_history (hhash : HexHash hashBytes) {chain chain' : Blockchain}
    (h : FromGenesis hashBytes chain) (h' : FromGenesis hashBytes chain') {k k' : Nat}
    {block block' : ChainBlock} (hblock : chain.blocks[k]? = some block)
    (hblock' : chain'.blocks[k']? = some block') (hsame : block.hash = block'.hash) :
    k = k' ∧ (chain.blocks.take (k + 1)).map (·.hash) = (chain'.blocks.take (k + 1)).map (·.hash) := by
  obtain ⟨hown, hplace⟩ := h.own hhash hblock
  obtain ⟨hown', hplace'⟩ := h'.own hhash hblock'
  rw [hown, hown'] at hsame
  have hindex := (ChainBlock.header_eq_of_hash_eq hhash hsame).1
  obtain rfl : k = k' := hplace.symm.trans ((congrArg UInt64.toNat hindex).trans hplace')
  refine ⟨rfl, List.ext_getElem? fun i => ?_⟩
  rw [List.getElem?_map, List.getElem?_map, List.getElem?_take, List.getElem?_take]
  split_ifs with hi
  · obtain ⟨b, b', hb, hb', heq⟩ := hash_eq_below hhash h h' hblock hblock'
      (hown.trans (hsame.trans hown'.symm)) (Nat.le_of_lt_succ hi)
    rw [hb, hb', Option.map_some, Option.map_some, heq]
  · rfl

theorem hash_fixes_history_samples :
    (threeBlocks.blocks.take 2).map (·.hash) = (twoBlocks.blocks.take 2).map (·.hash) := by
  have hfront : ∀ front : ChainBlock, some (sampleChainBlock 0 "GENESIS" "3" 1) = some front →
      front.index = 0 := fun front hfront => Option.some.inj hfront ▸ rfl
  exact (hash_fixes_history (hexHash_tableHash sampleTable) ⟨isValid_chains.1, hfront, by decide⟩
    ⟨isValid_chains.2, hfront, by decide⟩ (show threeBlocks.blocks[1]? = _ from rfl)
    (show twoBlocks.blocks[1]? = _ from rfl) rfl).2

end Blockchain

end Nodo.Model
