import Nodo.Model.Durability

/-!
# Nodo — persisted votes and the current round

The slots of the loop should only hold votes of the current round, so that the
state built for a fresh PREVOTE is one that `ConsensusRoundState::isValid`
accepts. A round timeout and the height reset empty the slots. The reset after
a finalization does not, and an import moves the height under them; a nil
PRECOMMIT in a round without a PREVOTE has the same effect on the next save.
Without these three the slots are current in every run.

## Results

* `roundVotes_effect` — one effect keeps the slots current and the built states
  valid.
* `persisted_votes_current` — so does every run that avoids the three paths.
* `finalization_keeps_stale_votes` — a finalization after which the next
  height's PREVOTE cannot be saved.
-/

namespace Nodo.Model

--
-- The runs that keep the slots current
--

/-- The commit of the tick succeeds, so the height moves. -/
def Node.finalizes (cfg : LoopConfig) (input : TickInput) (node : Node) : Bool :=
  match cfg.validatorSets node.height, node.currentCandidate with
  | some registry, some candidate =>
    match tryFinalize cfg.crypto cfg.params (node.hasFinalizedHeight node.height) (some registry)
        node.pool input.chainChecks candidate.block node.round input.now with
    | .ok _ => true
    | _ => false
  | _, _ => false

/-- Both slots are empty. -/
def Node.NoVotesHeld (node : Node) : Prop := ∀ phase, node.persisted phase = none

/-- The height only moves while no vote is held (and, by an import, while no lock
is held that the next tick would not clear), and no tick takes the
nil-PRECOMMIT branch with a candidate. -/
def movesWithoutVotes (cfg : LoopConfig) : RunCondition where
  precommit input node := ¬ NilPrecommitDue cfg input node
  commit input node := node.finalizes cfg input = true → node.NoVotesHeld
  sync move node := node.NoVotesHeld ∧
    (node.lockedBlock = "" ∨ (node.sync cfg move).resetPending = true)
  importFailed _ := True
  crash := True

--
-- The invariant
--

/-- Slots, round and lock fit together. -/
structure RoundVotes (cfg : LoopConfig) (node : Node) : Prop where
  current : ∀ phase vote, node.persisted phase = some vote → vote.At node.height node.round
  /-- A PRECOMMIT slot is only filled after the PREVOTE of the round. -/
  ordered : node.persistedPrecommit ≠ none → node.votedPrevote = true
  height : node.height ≠ 0
  round : node.round ≠ 0
  proposer : node.roundManager.state.proposerAddress = cfg.selectProposer node.height node.round
  startedAt : 0 < node.roundManager.state.roundStartedAt
  lock_iff : node.lockedBlock ≠ "" ↔ 0 < node.lockedRound
  lock_le : node.resetPending = true ∨ node.lockedRound ≤ node.round
  saved : ∀ state ∈ node.prevoteStates, state.isValid = true

namespace RoundVotes

variable {cfg : LoopConfig} {node node' : Node}

/-- The round and the lock stay, the slots only lose votes or gain current ones. -/
theorem frame (h : RoundVotes cfg node) (hstate : node'.roundManager.state = node.roundManager.state)
    (hlock : node'.lockedBlock = node.lockedBlock) (hlockRound : node'.lockedRound = node.lockedRound)
    (hreset : node'.resetPending = node.resetPending)
    (hsaved : node'.prevoteStates = node.prevoteStates)
    (hcurrent : ∀ phase vote, node'.persisted phase = some vote →
      node.persisted phase = some vote ∨ vote.At node.height node.round)
    (hordered : node'.persistedPrecommit ≠ none → node'.votedPrevote = true) :
    RoundVotes cfg node' := by
  have hheight : node'.height = node.height := by rw [Node.height, hstate, Node.height]
  have hround : node'.round = node.round := by rw [Node.round, hstate, Node.round]
  refine ⟨?_, hordered, ?_, ?_, ?_, ?_, ?_, ?_, ?_⟩
  · intro phase vote hvote
    rw [hheight, hround]
    rcases hcurrent phase vote hvote with hold | hnew
    · exact h.current phase vote hold
    · exact hnew
  · rw [hheight]
    exact h.height
  · rw [hround]
    exact h.round
  · rw [hstate, hheight, hround]
    exact h.proposer
  · rw [hstate]
    exact h.startedAt
  · rw [hlock, hlockRound]
    exact h.lock_iff
  · rw [hreset, hlockRound, hround]
    exact h.lock_le
  · rw [hsaved]
    exact h.saved

/-- A new round with empty slots. -/
theorem enter (h : RoundVotes cfg node) {height round : Nat} {startedAt : Int}
    (hheight : height ≠ 0) (hround : round ≠ 0) (hstarted : 0 < startedAt)
    (hstate : node'.roundManager.state
      = ConsensusRoundState.fresh height round (cfg.selectProposer height round) startedAt)
    (hempty : node'.NoVotesHeld) (hsaved : node'.prevoteStates = node.prevoteStates)
    (hiff : node'.lockedBlock ≠ "" ↔ 0 < node'.lockedRound)
    (hle : node'.resetPending = true ∨ node'.lockedRound ≤ round) : RoundVotes cfg node' := by
  have hheight' : node'.height = height := by rw [Node.height, hstate]; rfl
  have hround' : node'.round = round := by rw [Node.round, hstate]; rfl
  refine ⟨?_, ?_, hheight' ▸ hheight, hround' ▸ hround, ?_, ?_, hiff, hround' ▸ hle, ?_⟩
  · intro phase vote hvote
    rw [hempty phase] at hvote
    cases hvote
  · intro hheld
    exact absurd (hempty .precommit) hheld
  · rw [hstate, hheight', hround']
    rfl
  · rw [hstate]
    exact hstarted
  · rw [hsaved]
    exact h.saved

/-- No PRECOMMIT is held where no PREVOTE was cast. -/
theorem precommit_empty (h : RoundVotes cfg node) (hvoted : node.votedPrevote = false) :
    node.persistedPrecommit = none := by
  by_contra hheld
  rw [h.ordered hheld] at hvoted
  cases hvoted

/-- A fresh PREVOTE makes a valid state: this is where the whole invariant is
needed. -/
theorem prevote_valid (h : RoundVotes cfg node) {registry : ValidatorRegistry}
    {candidate : PendingBlockCandidate} {signer : LocalSigner} {vote : ValidatorVoteRecord}
    {now : Int} (hon : OnCandidate cfg registry candidate node)
    (heligible : registry.isEligibleForConsensus signer.address = true)
    (hvoted : node.votedPrevote = false)
    (hbuild : buildPrevote cfg registry candidate.block node.round now signer = some vote) :
    (node.withPrevote vote).recoveryState.isValid = true := by
  have hnone := h.precommit_empty hvoted
  have hregistry := cfg.validatorSets_valid _ _ hon.registry_eq
  obtain ⟨proposer, hselect, hnonempty⟩ :=
    selectProposer_ne_empty hregistry heligible (cfg.lottery node.height node.round)
  have hproposer : cfg.selectProposer node.height node.round = proposer := by
    unfold LoopConfig.selectProposer
    rw [hon.registry_eq, Option.bind_some, hselect, Option.getD_some]
  have hle : node.lockedRound ≤ node.round := by
    rcases h.lock_le with hpending | hle
    · rw [hon.settled] at hpending
      cases hpending
    · exact hle
  have hheld : (node.withPrevote vote).recoveryState.persistedPrevote = some vote := rfl
  refine ConsensusRoundState.isValid_of_prevote
    ⟨h.height, h.round, ?_, h.startedAt, h.lock_iff, hle⟩ rfl hheld ?_ ?_ hnone
  · show node.roundManager.state.proposerAddress ≠ ""
    rw [h.proposer, hproposer]
    exact hnonempty
  · obtain ⟨hat, hdecision⟩ := buildPrevote_at hon hbuild
    obtain ⟨hblock, -, rfl⟩ := buildPrevote_spec hbuild
    obtain ⟨hhash, hprevious⟩ := cfg.blockIsValid_hashes hblock
    have haddress := eligible_address_ne_empty hregistry heligible
    exact isPersistedRoundVote_iff.mpr
      ⟨hat.1, hat.2, hdecision, hhash, hprevious, haddress⟩
  · show node.persistedPrecommit.isSome = false
    rw [hnone]
    rfl

/-- A fresh PREVOTE is attempted: its state is added, nothing else changes but the
slot. -/
theorem attempt (h : RoundVotes cfg node) {vote : ValidatorVoteRecord}
    (hvalid : (node.withPrevote vote).recoveryState.isValid = true)
    (hat : vote.At node.height node.round) (hordered : node.persistedPrecommit = none) :
    RoundVotes cfg (node.withPrevote vote) := by
  refine ⟨?_, fun hheld => absurd hordered hheld, h.height, h.round, h.proposer, h.startedAt,
    h.lock_iff, h.lock_le, ?_⟩
  · intro phase other hother
    cases phase with
    | prevote =>
      cases hother
      exact hat
    | precommit => exact h.current .precommit other hother
  · intro state hstate
    rcases List.mem_append.mp hstate with hold | hnew
    · exact h.saved state hold
    · rw [List.mem_singleton.mp hnew]
      exact hvalid

end RoundVotes

/-- **Step lemma.** Every admitted effect keeps the slots current. -/
theorem roundVotes_effect {cfg : LoopConfig} {input : TickInput} {branch : Branch}
    {node node' : Node} (hadmits : (movesWithoutVotes cfg).admits input branch node)
    (h : Effect cfg input branch node node') (hvotes : RoundVotes cfg node) :
    RoundVotes cfg node' := by
  have hsame : ∀ phase vote, node.persisted phase = some vote →
      node.persisted phase = some vote ∨ vote.At node.height node.round :=
    fun _ _ hvote => Or.inl hvote
  cases h with
  | deliver hvote => exact hvotes.frame rfl rfl rfl rfl rfl hsame hvotes.ordered
  | adopt candidate buffered bufferedHeight bufferedRound hcandidate hbuffered =>
    exact hvotes.frame rfl rfl rfl rfl rfl hsame hvotes.ordered
  | reset =>
    unfold Node.resetForHeight
    split_ifs with hpending hzero
    · refine ⟨?_, fun hheld => absurd rfl hheld, hvotes.height, hvotes.round, hvotes.proposer,
        hvotes.startedAt, by simp, Or.inr (Nat.zero_le _), hvotes.saved⟩
      intro phase vote hvote
      cases phase <;> cases hvote
    · have hle := hvotes.lock_le.resolve_left hpending
      exact ⟨hvotes.current, hvotes.ordered, hvotes.height, hvotes.round, hvotes.proposer,
        hvotes.startedAt, hvotes.lock_iff, Or.inr hle, hvotes.saved⟩
    · exact hvotes
  | @nilPrevote _ signer hsigner hcandidate hsettled hvoted =>
    refine hvotes.frame rfl rfl rfl rfl rfl (fun phase vote hvote => ?_) (fun _ => rfl)
    cases phase with
    | prevote =>
      cases hvote
      exact Or.inr (nilVote_at node signer input.now)
    | precommit => exact Or.inl hvote
  | @nilPrecommit _ signer hsigner hcandidate hsettled hprevoted hvoted =>
    refine hvotes.frame rfl rfl rfl rfl rfl (fun phase vote hvote => ?_) (fun _ => hprevoted)
    cases phase with
    | prevote => exact Or.inl hvote
    | precommit =>
      cases hvote
      exact Or.inr (nilVote_at node signer input.now)
  | rebroadcastPrevote cast hon hpersisted hfresh hmatch =>
    exact hvotes.frame rfl rfl rfl rfl rfl hsame hvotes.ordered
  | rebroadcastPrecommit cast hon hpersisted hfresh hmatch =>
    exact hvotes.frame rfl rfl rfl rfl rfl hsame hvotes.ordered
  | count hon htally => exact hvotes.frame rfl rfl rfl rfl rfl hsame hvotes.ordered
  | @castPrevote _ registry candidate signer vote file cast tally hon hsigner heligible hvoted hsafe
      hbuild hfile htally hcounted =>
    obtain ⟨hat, -⟩ := buildPrevote_at hon hbuild
    have hattempt := hvotes.attempt (hvotes.prevote_valid hon heligible hvoted hbuild) hat
      (hvotes.precommit_empty hvoted)
    exact hattempt.frame rfl rfl rfl rfl rfl (fun phase _ hother => Or.inl hother) (fun _ => rfl)
  | @prevoteNotSaved _ registry candidate signer vote file hon hsigner heligible hvoted hsafe hbuild
      hfile =>
    obtain ⟨hat, -⟩ := buildPrevote_at hon hbuild
    have hattempt := hvotes.attempt (hvotes.prevote_valid hon heligible hvoted hbuild) hat
      (hvotes.precommit_empty hvoted)
    refine hattempt.frame rfl rfl rfl rfl rfl (fun phase other hother => ?_) hvotes.ordered
    cases phase with
    | prevote => cases hother
    | precommit => exact Or.inl hother
  | @castPrecommit _ registry candidate signer vote file required cast hon hsigner heligible
      hprevoted hvoted hcounted hrequired hquorum hbuild hfile =>
    obtain ⟨hat, -⟩ := buildPrecommit_at hon hbuild
    obtain ⟨hblock, -, -⟩ := buildPrecommit_spec hbuild
    have hhash := (cfg.blockIsValid_hashes hblock).1
    have hround := Nat.pos_of_ne_zero hvotes.round
    refine ⟨?_, fun _ => hprevoted, hvotes.height, hvotes.round, hvotes.proposer, hvotes.startedAt,
      iff_of_true hhash hround, Or.inr (Nat.le_refl _), hvotes.saved⟩
    intro phase other hother
    cases phase with
    | prevote => exact hvotes.current .prevote other hother
    | precommit =>
      cases hother
      exact hat
  | @precommitNotSaved _ registry candidate signer vote file required hon hsigner heligible hprevoted
      hvoted hcounted hrequired hquorum hbuild hfile =>
    refine hvotes.frame rfl rfl rfl rfl rfl (fun phase other hother => ?_) (fun hheld => ?_)
    · cases phase with
      | prevote => exact Or.inl hother
      | precommit => cases hother
    · exact absurd rfl hheld
  | @nilPrecommitOnCandidate _ registry _ signer cast hon hsigner heligible hprevoted hvoted
      htimeout habstained =>
    exact absurd ⟨hprevoted, hvoted, htimeout, registry, signer, hon.registry_eq, hsigner,
      heligible⟩ hadmits
  | certify hon hcertificate => exact hvotes.frame rfl rfl rfl rfl rfl hsame hvotes.ordered
  | finalize hon hfinalized hfile =>
    have hmoves : node.finalizes cfg input = true := by
      unfold Node.finalizes
      rw [hon.registry_eq, hon.candidate_eq]
      dsimp only
      rw [hfinalized]
    have hnow := input.now_pos
    refine hvotes.enter (Nat.succ_ne_zero node.height) Nat.one_ne_zero
      (show 0 < input.now + 1 by omega) rfl ?_ rfl (by simp [Node.moveToNextHeight])
      (Or.inr (Nat.zero_le _))
    intro phase
    have hempty := hadmits hmoves phase
    cases phase <;> exact hempty
  | commitFailed hstorage hvalid => exact hvotes.frame rfl rfl rfl rfl rfl hsame hvotes.ordered
  | advanceRound =>
    refine hvotes.enter hvotes.height (Nat.succ_ne_zero node.round) input.now_pos rfl ?_ rfl
      hvotes.lock_iff ?_
    · intro phase
      cases phase <;> rfl
    · rcases hvotes.lock_le with hpending | hle
      · exact Or.inl hpending
      · exact Or.inr (Nat.le_succ_of_le hle)

--
-- Whole runs
--

/-- The loop fields of a start agree with the valid state it loads. -/
theorem roundVotes_load {cfg : LoopConfig} {node node' : Node} {state : ConsensusRoundState}
    {finalized : List Nat} {file : Option ConsensusRoundState} (hvalid : state.isValid = true)
    (hproposer : state.proposerAddress = cfg.selectProposer state.height state.round)
    (hnode : node' = node.loadFromRecoveryState state finalized file)
    (hsaved : ∀ state ∈ node.prevoteStates, state.isValid = true) : RoundVotes cfg node' := by
  subst hnode
  obtain ⟨hlocked, hafter⟩ := ConsensusRoundState.isValid_wellLocked hvalid
  refine ⟨?_, ?_, hlocked.height, hlocked.round, hproposer, hlocked.startedAt, hlocked.lock_iff,
    Or.inr hlocked.lock_le, hsaved⟩
  · intro phase vote hvote
    refine ((ConsensusRoundState.isValid_slot hvalid phase).2 vote ?_).1
    cases phase <;> exact hvote
  · intro hheld
    have hvoted := (ConsensusRoundState.isValid_slot hvalid .precommit).1
    refine (hafter ?_).1
    exact hvoted.trans (Option.isSome_iff_ne_none.mpr hheld)

theorem roundVotes_invariant (cfg : LoopConfig) :
    RunInvariant cfg (movesWithoutVotes cfg) (RoundVotes cfg) := by
  refine ⟨?_, ?_, ?_, ?_, ?_⟩
  · rintro node ⟨height, round, startedAt, finalized, hvalid, -⟩
    obtain ⟨hlocked, -⟩ := ConsensusRoundState.isValid_wellLocked hvalid
    refine ⟨?_, fun hheld => absurd rfl hheld, hlocked.height, hlocked.round, rfl,
      hlocked.startedAt, hlocked.lock_iff, Or.inr hlocked.lock_le, by simp [Node.initial]⟩
    intro phase vote hvote
    cases phase <;> cases hvote
  · exact fun input branch node node' hadmits heffect hvotes =>
      roundVotes_effect hadmits heffect hvotes
  · rintro move node hadmissible ⟨hempty, hlock⟩ hvotes
    have hheight : move.height ≠ 0 := Nat.ne_of_gt (Nat.lt_of_le_of_lt (Nat.zero_le _)
      hadmissible.ahead)
    refine hvotes.enter hheight Nat.one_ne_zero hadmissible.startedAt rfl ?_ rfl hvotes.lock_iff ?_
    · intro phase
      have hnone := hempty phase
      cases phase <;> exact hnone
    · rcases hlock with hunlocked | hpending
      · have hzero : ¬ 0 < node.lockedRound := fun hpos => hvotes.lock_iff.mpr hpos hunlocked
        refine Or.inr ?_
        show node.lockedRound ≤ 1
        omega
      · exact Or.inl hpending
  · rintro height startedAt node - - hvotes
    exact hvotes.frame rfl rfl rfl rfl rfl (fun _ _ hvote => Or.inl hvote) hvotes.ordered
  · rintro boot node node' - hstart hvotes
    obtain ⟨stored, -, hvalid, hcase⟩ := startConsensus_cases hstart
    rcases hcase with ⟨-, hproposer, hnode⟩ | ⟨-, hfresh, hnode⟩
    · exact roundVotes_load hvalid hproposer hnode hvotes.saved
    · exact roundVotes_load hfresh rfl hnode hvotes.saved

/-- **Persisted votes belong to the current round.** In every run in which the
height only moves while no vote is held and no tick takes the nil-PRECOMMIT
branch with a candidate, a persisted vote is of the current height and round,
and the state built for a fresh PREVOTE is valid, so its save fails only where
the storage does. -/
theorem persisted_votes_current {cfg : LoopConfig} {node : Node}
    (h : Reachable cfg (movesWithoutVotes cfg) node) :
    (∀ phase vote, node.persisted phase = some vote → vote.At node.height node.round) ∧
    ∀ state ∈ node.prevoteStates, state.isValid = true ∧
      ∀ storage file, (recoverySave storage file state).1 = false → storage ≠ .written := by
  have hvotes := reachable_invariant (roundVotes_invariant cfg) h
  refine ⟨hvotes.current, ?_⟩
  intro state hstate
  have hvalid := hvotes.saved state hstate
  refine ⟨hvalid, ?_⟩
  rintro storage file hfailed rfl
  unfold recoverySave at hfailed
  rw [if_neg (by simp [hvalid])] at hfailed
  cases hfailed

/-- Validator `a` after its PREVOTE, in the condition of the theorem. -/
theorem persisted_votes_current_prevote :
    prevotedNode.prevoteStates.length = 1 ∧
      (∀ phase vote, prevotedNode.persisted phase = some vote →
        vote.At prevotedNode.height prevotedNode.round) ∧
      ∀ state ∈ prevotedNode.prevoteStates, state.isValid = true ∧
        ∀ storage file, (recoverySave storage file state).1 = false → storage ≠ .written := by
  have hprecommit : ((sampleStart.reachPrecommit (sampleLoop "a")
      (sampleTick 6 (by decide) [] [sampleProposal sampleBlock 1])).toOption.all
        fun point => point.node.votedPrevote) = true := by
    decide +kernel
  have hcommit : ((sampleStart.reachCommit (sampleLoop "a")
      (sampleTick 6 (by decide) [] [sampleProposal sampleBlock 1])).toOption.all
        fun point => !point.node.finalizes (sampleLoop "a")
          (sampleTick 6 (by decide) [] [sampleProposal sampleBlock 1])) = true := by
    decide +kernel
  have hreach : Reachable (sampleLoop "a") (movesWithoutVotes (sampleLoop "a")) prevotedNode := by
    refine (Reachable.initial (sampleStart_initial "a")).step (Step.tick _ ⟨?_, ?_⟩)
    · rintro point hok ⟨hprevoted, -⟩
      rw [hok] at hprecommit
      exact Bool.false_ne_true (hprevoted.symm.trans hprecommit)
    · rintro point hok hmoves
      rw [hok] at hcommit
      exact absurd hmoves (by simpa [Except.toOption] using hcommit)
  exact ⟨by decide +kernel, persisted_votes_current hreach⟩

/-- Validator `a` casts both votes for block `B` and finalizes it. -/
def committedNode : Node :=
  sampleStart.tick (sampleLoop "a") (sampleTick 6 sixth_pos
    [sampleVote "b" 1 "B" "G" 1 .prevote 6, sampleVote "c" 1 "B" "G" 1 .prevote 6,
      sampleVote "b" 1 "B" "G" 1 .precommit 6, sampleVote "c" 1 "B" "G" 1 .precommit 6]
    [sampleProposal sampleBlock 1])

/-- The next height's block is proposed to it. -/
def nextHeightNode : Node :=
  committedNode.tick (sampleLoop "a") (sampleTick 8 (by decide) []
    [sampleProposal ⟨2, "D", "B", 7⟩ 1])

/-- A finalization leaves the votes of height 1 in the slots of height 2. The
state built there for the fresh PREVOTE holds the stale PRECOMMIT, so the save
refuses it although the storage works, and nothing is handed out. -/
theorem finalization_keeps_stale_votes :
    (∃ node, Reachable (sampleLoop "a") .any node ∧ ∃ phase vote,
      node.persisted phase = some vote ∧ ¬ vote.At node.height node.round) ∧
    (∃ node, Reachable (sampleLoop "a") .any node ∧ ∃ state ∈ node.prevoteStates,
      state.height = 2 ∧ state.isValid = false) := by
  have hcommitted : Reachable (sampleLoop "a") .any committedNode :=
    (Reachable.initial (sampleStart_initial "a")).tick _
  refine ⟨⟨committedNode, hcommitted, .prevote, ?_⟩, ⟨nextHeightNode, hcommitted.tick _, ?_⟩⟩
  · have hheld : committedNode.height = 2 ∧
        committedNode.persistedPrevote.any (fun vote => vote.blockIndex == 1) = true := by
      decide +kernel
    obtain ⟨vote, hvote, hindex⟩ := (Option.any_eq_true _ _).mp hheld.2
    refine ⟨vote, hvote, ?_⟩
    rintro ⟨hheight, -⟩
    rw [hheld.1, beq_iff_eq.mp hindex] at hheight
    cases hheight
  · have hbuilt : nextHeightNode.prevoteStates.any
        (fun state => state.height == 2 && !state.isValid) = true := by
      decide +kernel
    obtain ⟨state, hstate, hfacts⟩ := List.any_eq_true.mp hbuilt
    simp only [Bool.and_eq_true, beq_iff_eq, Bool.not_eq_true'] at hfacts
    exact ⟨state, hstate, hfacts⟩

end Nodo.Model
