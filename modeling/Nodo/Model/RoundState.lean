import Nodo.Model.VotePool

/-!
# Nodo — round state, round manager and recovery file

`consensus/ConsensusRoundManager.cpp`, `consensus/ProposerSchedule.cpp` and
`consensus/ConsensusRecoveryStore.cpp`: the per-round state of a validator, the
check it must pass to be written to the recovery file, the round manager that
owns the vote collector, and who proposes in a round. The file is modelled by
the state it decodes to; an atomic write may still report failure after the
rename, so a failed save can leave either content.

## Results

* `ConsensusRoundState.isValid_spec` — a valid state holds votes of its own
  height, round and phases only.
* `recoverySave_cases` — what a save can do to the file.
* `selectProposer_ne_empty` — a set with an eligible validator has a proposer.
-/

namespace Nodo.Model

structure ConsensusRoundState where
  height : Nat
  round : Nat
  proposerAddress : String
  roundStartedAt : Int
  lockedBlockHash : String
  lockedRound : Nat
  votedPrevote : Bool
  votedPrecommit : Bool
  persistedPrevote : Option ValidatorVoteRecord
  persistedPrecommit : Option ValidatorVoteRecord
  deriving DecidableEq, Repr

/-- `ConsensusRoundState(height, round, proposer, startedAt)`: no lock, no votes. -/
def ConsensusRoundState.fresh (height round : Nat) (proposerAddress : String)
    (roundStartedAt : Int) : ConsensusRoundState :=
  ⟨height, round, proposerAddress, roundStartedAt, "", 0, false, false, none, none⟩

/-- `isPersistedRoundVote(vote, height, round, decision)`. -/
def isPersistedRoundVote (vote : ValidatorVoteRecord) (height round : Nat)
    (decision : ValidatorVoteDecision) : Bool :=
  vote.blockIndex == height && vote.round == round && vote.decision == decision
    && !vote.blockHash.isEmpty && !vote.previousHash.isEmpty && !vote.validatorAddress.isEmpty

namespace ConsensusRoundState

def isValid (state : ConsensusRoundState) : Bool :=
  let hasLock := !state.lockedBlockHash.isEmpty
  if state.height == 0 || state.round == 0 || state.proposerAddress.isEmpty
      || state.roundStartedAt ≤ 0 then false
  else if hasLock != decide (0 < state.lockedRound) || state.round < state.lockedRound then false
  else if state.votedPrevote != state.persistedPrevote.isSome then false
  else if state.votedPrecommit != state.persistedPrecommit.isSome then false
  else if state.votedPrecommit && (!state.votedPrevote || !hasLock) then false
  else if state.persistedPrevote.any
      (fun vote => !isPersistedRoundVote vote state.height state.round .prevote) then false
  else if state.persistedPrecommit.any
      (fun vote => !isPersistedRoundVote vote state.height state.round .precommit
        || vote.blockHash != state.lockedBlockHash) then false
  else match state.persistedPrevote, state.persistedPrecommit with
    | some prevote, some precommit =>
      prevote.blockHash == precommit.blockHash && prevote.previousHash == precommit.previousHash
        && prevote.validatorAddress == precommit.validatorAddress
    | _, _ => true

end ConsensusRoundState

--
-- The recovery file
--

/-- What the storage below one `save` does: write and report success, write
nothing and fail, or fail after the rename has already replaced the file. -/
inductive StorageOutcome
  | written
  | lost
  | writtenThenFailed
  deriving DecidableEq, Repr

/-- `ConsensusRecoveryStore::save`: refuses an invalid state without touching the
file. Returns the reported success and the file afterwards. -/
def recoverySave (storage : StorageOutcome) (file : Option ConsensusRoundState)
    (state : ConsensusRoundState) : Bool × Option ConsensusRoundState :=
  if !state.isValid then (false, file)
  else match storage with
    | .written => (true, some state)
    | .lost => (false, file)
    | .writtenThenFailed => (false, some state)

/-- `ConsensusRecoveryStore::load`: a file is read back only if its state is
valid. -/
def recoveryLoad (file : Option ConsensusRoundState) : Option ConsensusRoundState :=
  file.filter (·.isValid)

--
-- The round manager
--

structure ConsensusRoundManager where
  state : ConsensusRoundState
  voteCollector : NetworkVoteCollector
  deriving DecidableEq

namespace ConsensusRoundManager

/-- `advanceToHeight`: the pool survives only a step to the next round of the
same height. -/
def advanceToHeight (crypto : CryptoContext) (manager : ConsensusRoundManager)
    (height round : Nat) (proposerAddress : String) (now : Int) : ConsensusRoundManager where
  state := ConsensusRoundState.fresh height round proposerAddress now
  voteCollector :=
    if manager.voteCollector.currentHeight == height
        && manager.voteCollector.currentRound != uint64Max.toNat
        && round == manager.voteCollector.currentRound + 1 then
      manager.voteCollector.setCurrentRound crypto height round
    else .init height round

/-- `advanceRound`. -/
def advanceRound (crypto : CryptoContext) (manager : ConsensusRoundManager) (newRound : Nat)
    (proposerAddress : String) (now : Int) : ConsensusRoundManager :=
  manager.advanceToHeight crypto manager.state.height newRound proposerAddress now

end ConsensusRoundManager

--
-- The proposer schedule
--

/-- `eligibleValidatorAddresses`. -/
def ValidatorRegistry.eligibleValidatorAddresses (registry : ValidatorRegistry) : List String :=
  (registry.entries.entries.filter (fun e => e.2.eligibleForConsensus)).map (·.1)

/-- The cursor loop of `selectProposer`: the first address whose cumulative
weight exceeds the ticket. The outer `none` stands for the `overflow_error`. -/
def walkSchedule (registry : ValidatorRegistry) (ticket : UInt64) :
    UInt64 → List String → Option (Option String)
  | _, [] => some none
  | cursor, address :: rest =>
    let weight := registry.consensusWeightFor address
    if weight == 0 then walkSchedule registry ticket cursor rest
    else if uint64Max - cursor < weight then none
    else if ticket < cursor + weight then some (some address)
    else walkSchedule registry ticket (cursor + weight) rest

/-- `ProposerSchedule::selectProposer`; `lottery` is the number read from the hash
of the selection key. `none` where it throws. -/
def selectProposer (registry : ValidatorRegistry) (lottery : UInt64) : Option String :=
  let addresses := registry.eligibleValidatorAddresses
  if addresses.isEmpty then some ""
  else match registry.totalConsensusWeight with
    | none => none
    | some totalWeight =>
      if totalWeight == 0 then some ""
      else (walkSchedule registry (lottery % totalWeight) 0 addresses).map
        (·.getD (addresses.getLastD ""))

--
-- What a valid state says
--

theorem isPersistedRoundVote_iff {vote : ValidatorVoteRecord} {height round : Nat}
    {decision : ValidatorVoteDecision} :
    isPersistedRoundVote vote height round decision = true ↔
      vote.blockIndex = height ∧ vote.round = round ∧ vote.decision = decision ∧
        vote.blockHash ≠ "" ∧ vote.previousHash ≠ "" ∧ vote.validatorAddress ≠ "" := by
  simp [isPersistedRoundVote, and_assoc]

/-- A valid state holds votes of its own height, round and phases only, and its
flags say which of them it holds. -/
theorem ConsensusRoundState.isValid_spec {state : ConsensusRoundState}
    (h : state.isValid = true) :
    state.votedPrevote = state.persistedPrevote.isSome ∧
      state.votedPrecommit = state.persistedPrecommit.isSome ∧
      (∀ vote, state.persistedPrevote = some vote →
        vote.blockIndex = state.height ∧ vote.round = state.round ∧ vote.decision = .prevote) ∧
      (∀ vote, state.persistedPrecommit = some vote →
        vote.blockIndex = state.height ∧ vote.round = state.round ∧
          vote.decision = .precommit ∧ vote.blockHash = state.lockedBlockHash) ∧
      state.lockedRound ≤ state.round := by
  obtain ⟨-, h⟩ := Guards.true_of_ite_false h
  obtain ⟨hlock, h⟩ := Guards.true_of_ite_false h
  obtain ⟨hprevoted, h⟩ := Guards.true_of_ite_false h
  obtain ⟨hprecommitted, h⟩ := Guards.true_of_ite_false h
  obtain ⟨-, h⟩ := Guards.true_of_ite_false h
  obtain ⟨hprevote, h⟩ := Guards.true_of_ite_false h
  obtain ⟨hprecommit, -⟩ := Guards.true_of_ite_false h
  refine ⟨by simpa using hprevoted, by simpa using hprecommitted, ?_, ?_, ?_⟩
  · intro vote hvote
    rw [hvote] at hprevote
    have hpersisted := isPersistedRoundVote_iff.mp (by simpa using hprevote)
    exact ⟨hpersisted.1, hpersisted.2.1, hpersisted.2.2.1⟩
  · intro vote hvote
    rw [hvote] at hprecommit
    simp only [Option.any_some, Bool.or_eq_true, not_or, bne_iff_ne, ne_eq, not_not,
      Bool.not_eq_true', Bool.not_eq_false] at hprecommit
    have hpersisted := isPersistedRoundVote_iff.mp hprecommit.1
    exact ⟨hpersisted.1, hpersisted.2.1, hpersisted.2.2.1, hprecommit.2⟩
  · simp only [Bool.or_eq_true, decide_eq_true_eq, not_or] at hlock
    omega

/-- A valid state that holds both votes holds them for one block. -/
theorem ConsensusRoundState.isValid_same_block {state : ConsensusRoundState}
    (h : state.isValid = true) {prevote precommit : ValidatorVoteRecord}
    (hprevote : state.persistedPrevote = some prevote)
    (hprecommit : state.persistedPrecommit = some precommit) :
    prevote.blockHash = precommit.blockHash := by
  iterate 7 obtain ⟨-, h⟩ := Guards.true_of_ite_false h
  rw [hprevote, hprecommit] at h
  simp only [Bool.and_eq_true, beq_iff_eq] at h
  exact h.1.1

/-- Header and lock of a valid state. -/
structure ConsensusRoundState.WellLocked (state : ConsensusRoundState) : Prop where
  height : state.height ≠ 0
  round : state.round ≠ 0
  proposer : state.proposerAddress ≠ ""
  startedAt : 0 < state.roundStartedAt
  lock_iff : state.lockedBlockHash ≠ "" ↔ 0 < state.lockedRound
  lock_le : state.lockedRound ≤ state.round

theorem ConsensusRoundState.isValid_wellLocked {state : ConsensusRoundState}
    (h : state.isValid = true) :
    state.WellLocked ∧
      (state.votedPrecommit = true → state.votedPrevote = true ∧ state.lockedBlockHash ≠ "") := by
  obtain ⟨hheader, h⟩ := Guards.true_of_ite_false h
  obtain ⟨hlock, h⟩ := Guards.true_of_ite_false h
  obtain ⟨-, h⟩ := Guards.true_of_ite_false h
  obtain ⟨-, h⟩ := Guards.true_of_ite_false h
  obtain ⟨hprecommit, -⟩ := Guards.true_of_ite_false h
  simp only [Bool.or_eq_true, beq_iff_eq, not_or, decide_eq_true_eq, String.isEmpty_iff,
    bne_iff_ne, ne_eq, not_not] at hheader hlock
  obtain ⟨⟨⟨hheight, hround⟩, hproposer⟩, hstarted⟩ := hheader
  refine ⟨⟨hheight, hround, hproposer, by omega, ?_, by omega⟩, ?_⟩
  · have hempty : state.lockedBlockHash.isEmpty = !decide (0 < state.lockedRound) := by
      simpa using hlock.1
    rw [ne_eq, ← String.isEmpty_iff, hempty]
    simp
  · intro hvoted
    simpa [hvoted] using hprecommit

/-- A well-locked state with a PREVOTE of its round in it and no PRECOMMIT. -/
theorem ConsensusRoundState.isValid_of_prevote {state : ConsensusRoundState}
    {vote : ValidatorVoteRecord} (hlocked : state.WellLocked)
    (hvoted : state.votedPrevote = true) (hprevote : state.persistedPrevote = some vote)
    (hround : isPersistedRoundVote vote state.height state.round .prevote = true)
    (hfree : state.votedPrecommit = false) (hprecommit : state.persistedPrecommit = none) :
    state.isValid = true := by
  obtain ⟨hheight, hround', hproposer, hstarted, hiff, hle⟩ := hlocked
  have hlock : (!state.lockedBlockHash.isEmpty) = decide (0 < state.lockedRound) := by
    by_cases hempty : state.lockedBlockHash = ""
    · simp only [hempty, ne_eq, not_true_eq_false, false_iff] at hiff
      simp [hempty, hiff]
    · simp [hempty, hiff.mp hempty]
  unfold isValid
  dsimp only
  rw [if_neg (by simp [hheight, hround', hproposer, hstarted]), if_neg (by simp [hlock, hle]),
    if_neg (by simp [hvoted, hprevote]), if_neg (by simp [hfree, hprecommit]),
    if_neg (by simp [hfree]), if_neg (by simp [hprevote, hround]), if_neg (by simp [hprecommit]),
    hprevote, hprecommit]

/-- What a save can do to the file. -/
theorem recoverySave_cases (storage : StorageOutcome) (file : Option ConsensusRoundState)
    (state : ConsensusRoundState) :
    (state.isValid = true ∧ recoverySave storage file state = (true, some state)) ∨
    (state.isValid = true ∧ recoverySave storage file state = (false, some state)) ∨
    recoverySave storage file state = (false, file) := by
  unfold recoverySave
  by_cases hvalid : state.isValid
  · rw [if_neg (by simp [hvalid])]
    cases storage with
    | written => exact Or.inl ⟨hvalid, rfl⟩
    | lost => exact Or.inr (Or.inr rfl)
    | writtenThenFailed => exact Or.inr (Or.inl ⟨hvalid, rfl⟩)
  · rw [if_pos (by simpa using hvalid)]
    exact Or.inr (Or.inr rfl)

--
-- A proposer is always found
--

theorem mem_eligibleValidatorAddresses {registry : ValidatorRegistry} {address : String} :
    address ∈ registry.eligibleValidatorAddresses ↔
      registry.isEligibleForConsensus address = true := by
  rw [ValidatorRegistry.eligibleValidatorAddresses, ValidatorRegistry.isEligibleForConsensus]
  constructor
  · intro hmem
    obtain ⟨⟨a, entry⟩, hfilter, rfl⟩ := List.mem_map.mp hmem
    obtain ⟨hin, hel⟩ := List.mem_filter.mp hfilter
    rw [registry.entries.find?_eq_some_iff.mpr hin]
    exact hel
  · intro hel
    split at hel
    · cases hel
    · rename_i entry hfind
      refine List.mem_map.mpr ⟨(address, entry), List.mem_filter.mpr ⟨?_, hel⟩, rfl⟩
      exact registry.entries.find?_eq_some_iff.mp hfind

/-- The walk ends at one of its addresses, or runs off the list. -/
theorem walkSchedule_mem {registry : ValidatorRegistry} {ticket cursor : UInt64}
    {addresses : List String} {address : String}
    (h : walkSchedule registry ticket cursor addresses = some (some address)) :
    address ∈ addresses := by
  induction addresses generalizing cursor with
  | nil => cases h
  | cons head rest ih =>
    rw [walkSchedule] at h
    split_ifs at h with hzero hguard hhit
    · exact List.mem_cons_of_mem _ (ih h)
    · rw [Option.some.inj (Option.some.inj h)]
      exact List.mem_cons_self
    · exact List.mem_cons_of_mem _ (ih h)

/-- The cursor never passes the sum of the weights, so it does not wrap. -/
theorem walkSchedule_isSome {registry : ValidatorRegistry} {ticket cursor : UInt64}
    {addresses : List String}
    (h : cursor.toNat + (addresses.map registry.weightOf).sum ≤ uint64Max.toNat) :
    (walkSchedule registry ticket cursor addresses).isSome = true := by
  induction addresses generalizing cursor with
  | nil => rfl
  | cons head rest ih =>
    simp only [List.map_cons, List.sum_cons] at h
    rw [walkSchedule]
    split_ifs with hzero hguard hhit
    · exact ih (by omega)
    · refine absurd hguard (not_guard_iff.mpr ?_)
      unfold ValidatorRegistry.weightOf at h
      omega
    · rfl
    · refine ih ?_
      rw [toNat_add_of_guard hguard]
      unfold ValidatorRegistry.weightOf at h
      unfold ValidatorRegistry.weightOf
      omega

/-- The eligible validators carry the whole weight of a registry. -/
theorem sum_eligible_eq_total {registry : ValidatorRegistry} {total : UInt64}
    (h : registry.totalConsensusWeight = some total) :
    (registry.eligibleValidatorAddresses.map registry.weightOf).sum = total.toNat := by
  have hsum := ValidatorRegistry.addWeights_toNat h
  rw [List.map_map, UInt64.toNat_zero, Nat.zero_add] at hsum
  rw [hsum, ValidatorRegistry.eligibleValidatorAddresses, List.map_map]
  have hentries : ∀ e ∈ registry.entries.entries,
      registry.weightOf e.1 = e.2.votingWeight.toNat := by
    rintro ⟨address, entry⟩ hmem
    rw [ValidatorRegistry.weightOf, ValidatorRegistry.consensusWeightFor_of_mem hmem]
  generalize registry.entries.entries = entries at hentries ⊢
  induction entries with
  | nil => rfl
  | cons e rest ih =>
    have hrest := ih (fun e he => hentries e (List.mem_cons_of_mem _ he))
    have hhead := hentries e List.mem_cons_self
    by_cases hel : e.2.eligibleForConsensus
    · simp [hel, hrest, hhead]
    · have hzero : e.2.votingWeight.toNat = 0 := by
        simp [ValidatorRegistryEntry.votingWeight, hel]
      simp [hel, hrest, hzero]

/-- An eligible validator of a valid set has an address. -/
theorem eligible_address_ne_empty {crypto : CryptoContext} {registry : ValidatorRegistry}
    {address : String} (hvalid : registry.isValid crypto = true)
    (hel : registry.isEligibleForConsensus address = true) : address ≠ "" := by
  rintro rfl
  obtain ⟨⟨b, entry⟩, hfilter, hempty⟩ :=
    List.mem_map.mp (mem_eligibleValidatorAddresses.mpr hel)
  have hscalar : isSafeScalar b = true :=
    ValidatorRegistry.isValid_address hvalid (List.mem_filter.mp hfilter).1
  rw [show b = "" from hempty] at hscalar
  exact absurd hscalar (by decide)

/-- A valid set with an eligible validator has a proposer with an address. -/
theorem selectProposer_ne_empty {crypto : CryptoContext} {registry : ValidatorRegistry}
    {address : String} (hvalid : registry.isValid crypto = true)
    (hel : registry.isEligibleForConsensus address = true) (lottery : UInt64) :
    ∃ proposer, selectProposer registry lottery = some proposer ∧ proposer ≠ "" := by
  have hmem := mem_eligibleValidatorAddresses.mpr hel
  have hsafe : ∀ a ∈ registry.eligibleValidatorAddresses, a ≠ "" := by
    intro a ha
    exact eligible_address_ne_empty hvalid (mem_eligibleValidatorAddresses.mp ha)
  obtain ⟨total, htotal⟩ := ValidatorRegistry.isValid_total hvalid
  have hsum := sum_eligible_eq_total htotal
  have hpos : total ≠ 0 := by
    rintro rfl
    have hweight : 0 < registry.weightOf address :=
      ValidatorRegistry.weightOf_pos_of_eligible hel
    have hle := List.single_le_sum (by simp) _ (List.mem_map_of_mem (f := registry.weightOf) hmem)
    rw [hsum] at hle
    simp at hle
    omega
  have hwalk : (walkSchedule registry (lottery % total) 0
      registry.eligibleValidatorAddresses).isSome = true := by
    refine walkSchedule_isSome ?_
    rw [hsum, UInt64.toNat_zero]
    have hlt := total.toNat_lt
    rw [uint64Max_toNat]
    omega
  obtain ⟨found, hfound⟩ := Option.isSome_iff_exists.mp hwalk
  have hne : registry.eligibleValidatorAddresses ≠ [] := List.ne_nil_of_mem hmem
  refine ⟨found.getD (registry.eligibleValidatorAddresses.getLastD ""), ?_, ?_⟩
  · unfold selectProposer
    rw [if_neg (by simpa using hne), htotal]
    simp [hpos, hfound]
  · cases hcase : found with
    | none =>
      rw [Option.getD_none, List.getLastD_eq_getLast?, List.getLast?_eq_getLast_of_ne_nil hne]
      exact hsafe _ (List.getLast_mem hne)
    | some proposer =>
      rw [hcase] at hfound
      exact hsafe _ (walkSchedule_mem hfound)

end Nodo.Model
