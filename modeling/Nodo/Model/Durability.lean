import Nodo.Model.VoteMemory

/-!
# Nodo — what the recovery file knows when a vote leaves

The loop saves a PREVOTE or PRECOMMIT before it broadcasts it, so the recovery
file holds the vote at that moment. Two paths break the rule: the nil PRECOMMIT
that a tick with a candidate broadcasts before a save that always refuses it,
and a rebroadcast after a failed commit or import has replaced the file by the
next height's state. Without them the rule is kept in every run.

## Results

* `durable_effect` — one effect keeps the file and the broadcasts in step.
* `broadcasts_durable` — in a run without the two paths every broadcast vote is
  in the file at the moment it leaves.
* `nil_precommit_not_durable` — a run that takes the first path.
-/

namespace Nodo.Model

/-- The recovery file at the moment of the broadcast loads to a state of the
vote's height and round that holds the vote. -/
def Broadcast.Durable (broadcast : Broadcast) : Prop :=
  ∃ state, recoveryLoad broadcast.file = some state ∧
    state.height = broadcast.vote.blockIndex ∧ state.round = broadcast.vote.round ∧
    (state.persistedPrevote = some broadcast.vote ∨ state.persistedPrecommit = some broadcast.vote)

/-- The rebroadcast flag of a phase. -/
def Node.rebroadcasted (node : Node) : Phase → Bool
  | .prevote => node.rebroadcastedPrevote
  | .precommit => node.rebroadcastedPrecommit

--
-- The runs that keep the rule
--

/-- An eligible validator without a PREVOTE in this round reaches the PRECOMMIT
phase after the prevote timeout: the branch that broadcasts a nil PRECOMMIT. -/
def NilPrecommitDue (cfg : LoopConfig) (input : TickInput) (node : Node) : Prop :=
  node.votedPrevote = false ∧ node.votedPrecommit = false ∧
    node.prevoteTimedOut cfg input.now = true ∧
    ∃ registry signer, cfg.validatorSets node.height = some registry ∧
      cfg.signer = some signer ∧ registry.isEligibleForConsensus signer.address = true

/-- No persisted vote of the current round waits to be sent again. -/
def NoRebroadcastDue (node : Node) : Prop :=
  ∀ phase vote, node.persisted phase = some vote → vote.decision = phase.decision →
    vote.At node.height node.round → node.rebroadcasted phase = true

/-- No tick takes the nil-PRECOMMIT branch with a candidate, and the recovery file
is replaced by a failed commit or import only when no rebroadcast is due. -/
def exposesAfterSave (cfg : LoopConfig) : RunCondition where
  precommit input node := ¬ NilPrecommitDue cfg input node
  commit input node := input.commitStorage = .failed true → NoRebroadcastDue node
  sync _ _ := True
  importFailed node := NoRebroadcastDue node
  crash := True

--
-- The invariant
--

/-- The file holds the vote of a phase, in a state that loads. -/
def Node.FileHolds (node : Node) (phase : Phase) (vote : ValidatorVoteRecord) : Prop :=
  ∃ state, node.recoveryFile = some state ∧ state.isValid = true ∧
    state.persisted phase = some vote

/-- What was broadcast was durable, and what may be broadcast again is. -/
structure DurableVotes (node : Node) : Prop where
  sent : ∀ broadcast ∈ node.broadcasts, broadcast.Durable
  due : ∀ phase vote, node.persisted phase = some vote → vote.decision = phase.decision →
    vote.At node.height node.round → node.rebroadcasted phase = false → node.FileHolds phase vote

/-- A file that holds a vote makes its broadcast durable. -/
theorem durable_of_fileHolds {node : Node} {phase : Phase} {vote : ValidatorVoteRecord}
    (h : node.FileHolds phase vote) : Broadcast.Durable ⟨vote, node.recoveryFile⟩ := by
  obtain ⟨state, hfile, hvalid, hheld⟩ := h
  obtain ⟨hat, -⟩ := (ConsensusRoundState.isValid_slot hvalid phase).2 vote hheld
  refine ⟨state, ?_, hat.1.symm, hat.2.symm, ?_⟩
  · show Option.filter _ node.recoveryFile = some state
    rw [hfile]
    exact Option.filter_some_pos hvalid
  · cases phase with
    | prevote => exact Or.inl hheld
    | precommit => exact Or.inr hheld

/-- The broadcasts of a node that hands out a vote its file holds. -/
theorem durable_handOut {node : Node} (cfg : LoopConfig) {phase : Phase}
    {vote : ValidatorVoteRecord} (cast : Bool)
    (hsent : ∀ broadcast ∈ node.broadcasts, broadcast.Durable)
    (hheld : node.FileHolds phase vote) :
    ∀ broadcast ∈ (node.handOut cfg vote cast).broadcasts, broadcast.Durable := by
  intro broadcast hbroadcast
  cases cast with
  | false => exact hsent broadcast hbroadcast
  | true =>
    rcases List.mem_append.mp hbroadcast with hold | hnew
    · exact hsent broadcast hold
    · rw [List.mem_singleton.mp hnew]
      exact durable_of_fileHolds hheld

namespace DurableVotes

variable {node node' : Node}

/-- Nothing sent, and nothing new that could be sent again. -/
theorem frame (h : DurableVotes node) (hsent : node'.broadcasts = node.broadcasts)
    (hheight : node'.height = node.height) (hround : node'.round = node.round)
    (hfile : node'.recoveryFile = node.recoveryFile)
    (hslot : ∀ phase vote, node'.persisted phase = some vote → vote.decision = phase.decision →
      node'.rebroadcasted phase = false →
      node.persisted phase = some vote ∧ node.rebroadcasted phase = false) :
    DurableVotes node' := by
  refine ⟨by rw [hsent]; exact h.sent, ?_⟩
  intro phase vote hvote hdecision hat hdue
  obtain ⟨hheld, hfresh⟩ := hslot phase vote hvote hdecision hdue
  rw [hheight, hround] at hat
  obtain ⟨state, hstate, hrest⟩ := h.due phase vote hheld hdecision hat hfresh
  exact ⟨state, hfile.trans hstate, hrest⟩

/-- A move to a round in which no slot holds a vote of its phase. -/
theorem move (h : DurableVotes node) (hsent : node'.broadcasts = node.broadcasts)
    (hstale : ∀ phase vote, node'.persisted phase = some vote →
      ¬ vote.At node'.height node'.round) : DurableVotes node' := by
  refine ⟨by rw [hsent]; exact h.sent, ?_⟩
  intro phase vote hvote _ hat
  exact absurd hat (hstale phase vote hvote)

/-- A replaced file where no rebroadcast is due. -/
theorem replace (h : DurableVotes node) (hnone : NoRebroadcastDue node)
    (hsent : node'.broadcasts = node.broadcasts)
    (hheight : node'.height = node.height) (hround : node'.round = node.round)
    (hpersisted : node'.persisted = node.persisted)
    (hflags : node'.rebroadcasted = node.rebroadcasted) : DurableVotes node' := by
  refine ⟨by rw [hsent]; exact h.sent, ?_⟩
  intro phase vote hvote hdecision hat hdue
  rw [hpersisted] at hvote
  rw [hheight, hround] at hat
  rw [hflags, hnone phase vote hvote hdecision hat] at hdue
  cases hdue

/-- Handing out the vote of a slot that the file holds. -/
theorem handOut (h : DurableVotes node) (cfg : LoopConfig) {phase : Phase}
    {vote : ValidatorVoteRecord} (cast : Bool) (hheld : node.FileHolds phase vote) :
    DurableVotes (node.handOut cfg vote cast) :=
  ⟨durable_handOut cfg cast h.sent hheld,
    fun phase' other hother hdecision hat hdue => h.due phase' other hother hdecision hat hdue⟩

end DurableVotes

/-- A state just written holds every slot of the node it was built from. -/
theorem fileHolds_of_saved {node node' : Node} (hvalid : node.recoveryState.isValid = true)
    (hfile : node'.recoveryFile = some node.recoveryState) {phase : Phase}
    {vote : ValidatorVoteRecord} (hvote : node.persisted phase = some vote) :
    node'.FileHolds phase vote :=
  ⟨_, hfile, hvalid, by cases phase <;> exact hvote⟩

/-- After a save of the state of `node`, everything in the slots is held. -/
theorem DurableVotes.saved {node node' : Node} (hvalid : node.recoveryState.isValid = true)
    (hfile : node'.recoveryFile = some node.recoveryState)
    (hsent : ∀ broadcast ∈ node'.broadcasts, broadcast.Durable)
    (hslot : ∀ phase vote, node'.persisted phase = some vote → node.persisted phase = some vote) :
    DurableVotes node' := by
  refine ⟨hsent, ?_⟩
  intro phase vote hvote _ _ _
  exact fileHolds_of_saved hvalid hfile (hslot phase vote hvote)

/-- **Step lemma.** Every admitted effect keeps file and broadcasts in step. -/
theorem durable_effect {cfg : LoopConfig} {input : TickInput} {branch : Branch}
    {node node' : Node} (hpath : cfg.hasRecoveryPath = true)
    (hadmits : (exposesAfterSave cfg).admits input branch node)
    (h : Effect cfg input branch node node') (hmem : VoteMemory node) (hdur : DurableVotes node) :
    DurableVotes node' := by
  cases h with
  | deliver hvote => exact hdur.frame rfl rfl rfl rfl (fun _ _ h _ hd => ⟨h, hd⟩)
  | adopt candidate buffered bufferedHeight bufferedRound hcandidate hbuffered =>
    exact hdur.frame rfl rfl rfl rfl (fun _ _ h _ hd => ⟨h, hd⟩)
  | reset =>
    unfold Node.resetForHeight
    split_ifs
    · refine hdur.move rfl (fun phase vote hvote => ?_)
      cases phase <;> cases hvote
    · exact hdur.frame rfl rfl rfl rfl (fun _ _ h _ hd => ⟨h, hd⟩)
    · exact hdur
  | @nilPrevote _ signer hsigner hcandidate hsettled hvoted =>
    refine hdur.frame rfl rfl rfl rfl (fun phase vote hvote hdecision hdue => ?_)
    cases phase with
    | prevote =>
      cases hvote
      exact absurd hdecision (nilVote_not_phase node signer input.now .prevote)
    | precommit => exact ⟨hvote, hdue⟩
  | @nilPrecommit _ signer hsigner hcandidate hsettled hprevoted hvoted =>
    refine hdur.frame rfl rfl rfl rfl (fun phase vote hvote hdecision hdue => ?_)
    cases phase with
    | prevote => exact ⟨hvote, hdue⟩
    | precommit =>
      cases hvote
      exact absurd hdecision (nilVote_not_phase node signer input.now .precommit)
  | rebroadcastPrevote cast hon hpersisted hfresh hmatch =>
    obtain ⟨hat, hdecision⟩ := persistedVoteMatchesCandidate_spec hon hmatch
    have hheld := hdur.due .prevote _ hpersisted hdecision hat hfresh
    refine (hdur.handOut cfg cast hheld).frame rfl rfl rfl rfl ?_
    intro phase vote hvote hdecision hdue
    refine ⟨hvote, ?_⟩
    cases phase with
    | prevote => exact hfresh
    | precommit => exact hdue
  | rebroadcastPrecommit cast hon hpersisted hfresh hmatch =>
    obtain ⟨hat, hdecision⟩ := persistedVoteMatchesCandidate_spec hon hmatch
    have hheld := hdur.due .precommit _ hpersisted hdecision hat hfresh
    refine (hdur.handOut cfg cast hheld).frame rfl rfl rfl rfl ?_
    intro phase vote hvote hdecision hdue
    refine ⟨hvote, ?_⟩
    cases phase with
    | prevote => exact hdue
    | precommit => exact hfresh
  | count hon htally => exact hdur.frame rfl rfl rfl rfl (fun _ _ h _ hd => ⟨h, hd⟩)
  | @castPrevote _ registry candidate signer vote file cast tally hon hsigner heligible hvoted hsafe
      hbuild hfile htally hcounted =>
    obtain ⟨hvalid, hwritten⟩ := hfile.written hpath
    refine DurableVotes.saved hvalid hwritten ?_ (fun phase _ h => by cases phase <;> exact h)
    have hheld : Node.FileHolds
        { node.withPrevote vote with recoveryFile := file, votedPrevote := true } .prevote vote :=
      fileHolds_of_saved hvalid hwritten rfl
    exact durable_handOut cfg cast hdur.sent hheld
  | @prevoteNotSaved _ registry candidate signer vote file hon hsigner heligible hvoted hsafe hbuild
      hfile =>
    rcases hfile.2 with hkept | ⟨hvalid, hwritten⟩
    · refine hdur.frame rfl rfl rfl hkept (fun phase other hother _ hdue => ?_)
      cases phase with
      | prevote => cases hother
      | precommit => exact ⟨hother, hdue⟩
    · refine DurableVotes.saved hvalid hwritten hdur.sent (fun phase _ h => ?_)
      cases phase with
      | prevote => cases h
      | precommit => exact h
  | @castPrecommit _ registry candidate signer vote file required cast hon hsigner heligible
      hprevoted hvoted hcounted hrequired hquorum hbuild hfile =>
    obtain ⟨hvalid, hwritten⟩ := hfile.written hpath
    refine DurableVotes.saved hvalid hwritten ?_ (fun phase _ h => by cases phase <;> exact h)
    have hheld : Node.FileHolds
        { node.withPrecommit candidate.block.hash vote with
          recoveryFile := file, votedPrecommit := true } .precommit vote :=
      fileHolds_of_saved hvalid hwritten rfl
    exact durable_handOut cfg cast hdur.sent hheld
  | @precommitNotSaved _ registry candidate signer vote file required hon hsigner heligible hprevoted
      hvoted hcounted hrequired hquorum hbuild hfile =>
    rcases hfile.2 with hkept | ⟨hvalid, hwritten⟩
    · refine hdur.frame rfl rfl rfl hkept (fun phase other hother _ hdue => ?_)
      cases phase with
      | prevote => exact ⟨hother, hdue⟩
      | precommit => cases hother
    · refine DurableVotes.saved hvalid hwritten hdur.sent (fun phase _ h => ?_)
      cases phase with
      | prevote => exact h
      | precommit => cases h
  | @nilPrecommitOnCandidate _ registry _ signer cast hon hsigner heligible hprevoted hvoted
      htimeout habstained =>
    exact absurd ⟨hprevoted, hvoted, htimeout, registry, signer, hon.registry_eq, hsigner,
      heligible⟩ hadmits
  | certify hon hcertificate => exact hdur.frame rfl rfl rfl rfl (fun _ _ h _ hd => ⟨h, hd⟩)
  | finalize hon hfinalized hfile =>
    refine hdur.move rfl (fun phase vote hvote hat => ?_)
    have hpast := hmem.persisted_past phase vote (by cases phase <;> exact hvote)
    have hindex : vote.blockIndex = node.height + 1 := hat.1
    unfold ValidatorVoteRecord.Before ValidatorVoteRecord.At at hpast
    omega
  | commitFailed hstorage hvalid =>
    exact hdur.replace (hadmits hstorage) rfl rfl rfl rfl rfl
  | advanceRound =>
    refine hdur.move rfl (fun phase vote hvote => ?_)
    cases phase <;> cases hvote

--
-- Whole runs
--

theorem durable_initial {cfg : LoopConfig} {node : Node} (h : Initial cfg node) :
    DurableVotes node := by
  obtain ⟨height, round, startedAt, finalized, hvalid, hfinalized⟩ := h
  refine ⟨?_, ?_⟩
  · intro broadcast hbroadcast
    cases hbroadcast
  · intro phase vote hvote
    cases phase <;> cases hvote

/-- An import moves past every vote the slots hold. -/
theorem durable_sync {cfg : LoopConfig} {move : SyncMove} {node : Node}
    (hadmissible : move.Admissible node) (hmem : VoteMemory node) (hdur : DurableVotes node) :
    DurableVotes (node.sync cfg move) := by
  refine hdur.move rfl (fun phase vote hvote hat => ?_)
  have hpast := hmem.persisted_past phase vote (by cases phase <;> exact hvote)
  have hahead := hadmissible.ahead
  have hindex : vote.blockIndex = move.height := hat.1
  unfold ValidatorVoteRecord.Before ValidatorVoteRecord.At at hpast
  omega

/-- A start fills the slots from the file. -/
theorem durable_restart {cfg : LoopConfig} {boot : Boot} {node node' : Node}
    (h : node.startConsensus cfg boot = some node') (hdur : DurableVotes node) :
    DurableVotes node' := by
  have hload : ∀ state, state.isValid = true → DurableVotes
      (node.loadFromRecoveryState state boot.finalized (some state)) := by
    intro state hvalid
    refine ⟨hdur.sent, ?_⟩
    intro phase vote hvote _ _ _
    exact ⟨state, rfl, hvalid, by cases phase <;> exact hvote⟩
  obtain ⟨stored, -, hvalid, hcase⟩ := startConsensus_cases h
  rcases hcase with ⟨-, -, rfl⟩ | ⟨-, hfresh, rfl⟩
  · exact hload stored hvalid
  · exact hload _ hfresh

/-- File and broadcasts stay in step wherever the voting memory holds. -/
theorem durable_invariant {cfg : LoopConfig} (hpath : cfg.hasRecoveryPath = true) :
    RunInvariantUnder cfg (exposesAfterSave cfg) (fun node => VoteMemory node ∧ FileGuard node)
      DurableVotes := by
  refine ⟨?_, ?_, ?_, ?_, ?_⟩
  · exact fun _ hinit => durable_initial hinit
  · rintro input branch node node' hadmits heffect ⟨hmem, -⟩ hdur
    exact durable_effect hpath hadmits heffect hmem hdur
  · rintro move node hadmissible - ⟨hmem, -⟩ hdur
    exact durable_sync hadmissible hmem hdur
  · rintro height startedAt node - hnone - hdur
    exact hdur.replace hnone rfl rfl rfl rfl rfl
  · rintro boot node node' - hstart - hdur
    exact durable_restart hstart hdur

/-- **Persist before expose.** In every run of a validator with a recovery path in
which no tick takes the nil-PRECOMMIT branch with a candidate, and a failed
commit or import replaces the recovery file only when no rebroadcast is due,
every broadcast vote is held by the file at the moment it leaves. -/
theorem broadcasts_durable {cfg : LoopConfig} {node : Node} (hpath : cfg.hasRecoveryPath = true)
    (h : Reachable cfg (exposesAfterSave cfg) node) :
    ∀ broadcast ∈ node.broadcasts, broadcast.Durable := by
  obtain ⟨-, hdur⟩ :=
    reachable_invariant ((voteMemory_invariant _ hpath).and (durable_invariant hpath)) h
  exact hdur.sent

/-- Validator `a` in the condition of `broadcasts_durable`, after its PREVOTE. -/
theorem broadcasts_durable_prevote :
    prevotedNode.broadcasts.length = 1 ∧
      ∀ broadcast ∈ prevotedNode.broadcasts, broadcast.Durable := by
  have hpoint : ((sampleStart.reachPrecommit (sampleLoop "a")
      (sampleTick 6 (by decide) [] [sampleProposal sampleBlock 1])).toOption.all
        fun point => point.node.votedPrevote) = true := by
    decide +kernel
  have hreach : Reachable (sampleLoop "a") (exposesAfterSave (sampleLoop "a")) prevotedNode := by
    refine (Reachable.initial (sampleStart_initial "a")).step (Step.tick _ ⟨?_, ?_⟩)
    · rintro point hok ⟨hprevoted, -⟩
      rw [hok] at hpoint
      exact Bool.false_ne_true (hprevoted.symm.trans hpoint)
    · rintro point - hfailed
      cases hfailed
  exact ⟨by decide +kernel, broadcasts_durable rfl hreach⟩

/-- The other block of height 1. -/
def rivalBlock : Block := ⟨1, "C", "G", 5⟩

/-- Validator `a` has locked block `B` in round 1, and round 1 has timed out. -/
def lockedNode : Node :=
  (sampleStart.tick (sampleLoop "a") (sampleTick 6 sixth_pos
    [sampleVote "b" 1 "B" "G" 1 .prevote 6, sampleVote "c" 1 "B" "G" 1 .prevote 6]
    [sampleProposal sampleBlock 1])).tick (sampleLoop "a") (sampleTick 21 twentyFirst_pos [] [])

/-- In round 2 another block is proposed, which it does not prevote. -/
def abstainedNode : Node :=
  lockedNode.tick (sampleLoop "a") (sampleTick 36 (by decide) [] [sampleProposal rivalBlock 2])

/-- A locked validator meets another block in round 2. After the prevote timeout
it broadcasts a nil PRECOMMIT, and the file knows nothing of it: it still holds
the votes of round 1. Every save works. -/
theorem nil_precommit_not_durable :
    ∃ node, Reachable (sampleLoop "a") .any node ∧
      ∃ broadcast ∈ node.broadcasts, broadcast.vote.decision = .reject ∧ ¬ broadcast.Durable := by
  have hreach : Reachable (sampleLoop "a") .any abstainedNode :=
    (((Reachable.initial (sampleStart_initial "a")).tick _).tick _).tick _
  have hlast : abstainedNode.broadcasts.getLast?.any (fun broadcast =>
      broadcast.vote.decision == .reject && broadcast.vote.round == 2 &&
        (recoveryLoad broadcast.file).all (fun state => state.round == 1)) = true := by
    decide +kernel
  obtain ⟨broadcast, hmem, hfacts⟩ := (Option.any_eq_true _ _).mp hlast
  simp only [Bool.and_eq_true, beq_iff_eq] at hfacts
  obtain ⟨⟨hnil, hround⟩, hfile⟩ := hfacts
  refine ⟨abstainedNode, hreach, broadcast, List.mem_of_getLast? hmem, hnil, ?_⟩
  rintro ⟨state, hload, -, hsame, -⟩
  rw [hload] at hfile
  simp only [Option.all_some, beq_iff_eq] at hfile
  omega

end Nodo.Model
