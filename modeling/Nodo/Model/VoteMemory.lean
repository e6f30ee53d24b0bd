import Nodo.Model.NodeRun

/-!
# Nodo — the voting memory of a node

Two flags, two optional persisted votes and the recovery file have to agree so
that a validator never signs twice. `VoteMemory` says what the fields of the
loop know about the votes handed out, `FileGuard` what the file knows; together
they survive every effect, import and restart.

## Results

* `effect_file` — what an effect can do to the known votes and the file.
* `voteMemory_effect`, `fileGuard_effect` — one effect keeps both.
* `voteMemory_run` — a whole run keeps both.
* `no_self_equivocation` — no two PREVOTEs and no two PRECOMMITs of one height
  and round with different blocks are ever handed out.
-/

namespace Nodo.Model

--
-- The two phases
--

inductive Phase
  | prevote
  | precommit
  deriving DecidableEq, Repr

def Phase.decision : Phase → ValidatorVoteDecision
  | .prevote => .prevote
  | .precommit => .precommit

/-- The flag of a phase. -/
def Node.voted (node : Node) : Phase → Bool
  | .prevote => node.votedPrevote
  | .precommit => node.votedPrecommit

/-- The persisted vote of a phase. -/
def Node.persisted (node : Node) : Phase → Option ValidatorVoteRecord
  | .prevote => node.persistedPrevote
  | .precommit => node.persistedPrecommit

/-- The persisted vote of a phase in a recovery state. -/
def ConsensusRoundState.persisted (state : ConsensusRoundState) :
    Phase → Option ValidatorVoteRecord
  | .prevote => state.persistedPrevote
  | .precommit => state.persistedPrecommit

/-- The flag of a phase in a recovery state. -/
def ConsensusRoundState.voted (state : ConsensusRoundState) : Phase → Bool
  | .prevote => state.votedPrevote
  | .precommit => state.votedPrecommit

/-- The vote is of this height and round. -/
def ValidatorVoteRecord.At (vote : ValidatorVoteRecord) (height round : Nat) : Prop :=
  vote.blockIndex = height ∧ vote.round = round

/-- The vote is of an earlier height, or of an earlier round of the height. -/
def ValidatorVoteRecord.Before (vote : ValidatorVoteRecord) (height round : Nat) : Prop :=
  vote.blockIndex < height ∨ (vote.blockIndex = height ∧ vote.round < round)

/-- The slot of a phase filled with a fresh vote. -/
def Node.fill (node : Node) (vote : ValidatorVoteRecord) : Phase → Node
  | .prevote => { node with persistedPrevote := some vote, votedPrevote := true }
  | .precommit => { node with persistedPrecommit := some vote, votedPrecommit := true }

/-- The slot of a phase emptied, its flag untouched. -/
def Node.clearSlot (node : Node) : Phase → Node
  | .prevote => { node with persistedPrevote := none }
  | .precommit => { node with persistedPrecommit := none }

/-- What a valid state says about the slot of a phase. -/
theorem ConsensusRoundState.isValid_slot {state : ConsensusRoundState}
    (h : state.isValid = true) (phase : Phase) :
    state.voted phase = (state.persisted phase).isSome ∧
      ∀ vote, state.persisted phase = some vote →
        vote.At state.height state.round ∧ vote.decision = phase.decision := by
  obtain ⟨hprevoted, hprecommitted, hprevote, hprecommit, -⟩ := isValid_spec h
  cases phase with
  | prevote =>
    refine ⟨hprevoted, ?_⟩
    intro vote hvote
    obtain ⟨hindex, hround, hdecision⟩ := hprevote vote hvote
    exact ⟨⟨hindex, hround⟩, hdecision⟩
  | precommit =>
    refine ⟨hprecommitted, ?_⟩
    intro vote hvote
    obtain ⟨hindex, hround, hdecision, -⟩ := hprecommit vote hvote
    exact ⟨⟨hindex, hround⟩, hdecision⟩

--
-- The invariant of the loop's fields
--

/-- What the fields of the loop know about the PREVOTEs and PRECOMMITs handed
out. Nil votes are not remembered by the file, so nothing is said about them. -/
structure VoteMemory (node : Node) : Prop where
  /-- None of them is ahead of the current round. -/
  handed_past : ∀ phase : Phase, ∀ vote ∈ node.handed, vote.decision = phase.decision →
    vote.Before node.height node.round ∨ vote.At node.height node.round
  /-- A vote of the current round is remembered. -/
  handed_kept : ∀ phase : Phase, ∀ vote ∈ node.handed, vote.decision = phase.decision →
    vote.At node.height node.round → node.voted phase = true ∧ node.persisted phase = some vote
  /-- No reset is due at a height with votes. -/
  handed_settled : ∀ phase : Phase, ∀ vote ∈ node.handed, vote.decision = phase.decision →
    vote.blockIndex = node.height → node.resetPending = false
  finalized_below : ∀ k ∈ node.finalizedHeights, k < node.height
  persisted_past : ∀ (phase : Phase) vote, node.persisted phase = some vote →
    vote.Before node.height node.round ∨ vote.At node.height node.round
  /-- A persisted vote of the current round and of its phase is flagged. -/
  persisted_voted : ∀ (phase : Phase) vote, node.persisted phase = some vote →
    vote.decision = phase.decision → vote.At node.height node.round → node.voted phase = true
  /-- One vote for a phase of a round. -/
  unique : ∀ phase : Phase, ∀ a ∈ node.handed, ∀ b ∈ node.handed, a.decision = phase.decision →
    b.decision = phase.decision → a.blockIndex = b.blockIndex → a.round = b.round → a = b

namespace VoteMemory

variable {cfg : LoopConfig} {node : Node} {vote : ValidatorVoteRecord} {phase : Phase}

/-- An unflagged phase has handed out nothing in the current round. -/
theorem not_handed (hmem : VoteMemory node) (hfree : node.voted phase = false)
    (hhanded : vote ∈ node.handed) (hdecision : vote.decision = phase.decision) :
    ¬ vote.At node.height node.round := by
  intro hat
  have hvoted := (hmem.handed_kept phase vote hhanded hdecision hat).1
  rw [hfree] at hvoted
  cases hvoted

/-- The memory reads these fields only. -/
theorem frame {node' : Node} (hmem : VoteMemory node)
    (hheight : node'.height = node.height) (hround : node'.round = node.round)
    (hhanded : node'.handed = node.handed) (hreset : node'.resetPending = node.resetPending)
    (hfinal : node'.finalizedHeights = node.finalizedHeights)
    (hvoted : node'.voted = node.voted) (hpersisted : node'.persisted = node.persisted) :
    VoteMemory node' := by
  obtain ⟨h1, h2, h3, h4, h5, h6, h7⟩ := hmem
  refine ⟨?_, ?_, ?_, ?_, ?_, ?_, ?_⟩
  · rwa [hhanded, hheight, hround]
  · rwa [hhanded, hheight, hround, hvoted, hpersisted]
  · rwa [hhanded, hheight, hreset]
  · rwa [hfinal, hheight]
  · rwa [hpersisted, hheight, hround]
  · rwa [hpersisted, hheight, hround, hvoted]
  · rwa [hhanded]

/-- A change to the slot of an unflagged phase: the new content, if any, is of the
current round, and flagged if it is a vote of the phase. -/
theorem change {node' : Node} (hmem : VoteMemory node) (phase : Phase)
    (hfree : node.voted phase = false)
    (hheight : node'.height = node.height) (hround : node'.round = node.round)
    (hhanded : node'.handed = node.handed) (hreset : node'.resetPending = node.resetPending)
    (hfinal : node'.finalizedHeights = node.finalizedHeights)
    (hother : ∀ p, p ≠ phase → node'.voted p = node.voted p ∧ node'.persisted p = node.persisted p)
    (hslot : ∀ vote, node'.persisted phase = some vote → vote.At node.height node.round ∧
      (vote.decision = phase.decision → node'.voted phase = true)) : VoteMemory node' := by
  refine ⟨?_, ?_, ?_, ?_, ?_, ?_, ?_⟩
  · rw [hhanded, hheight, hround]
    exact hmem.handed_past
  · rw [hhanded, hheight, hround]
    intro p vote hvote hdecision hcurrent
    by_cases hp : p = phase
    · subst hp
      exact absurd hcurrent (hmem.not_handed hfree hvote hdecision)
    · rw [(hother p hp).1, (hother p hp).2]
      exact hmem.handed_kept p vote hvote hdecision hcurrent
  · rw [hhanded, hheight, hreset]
    exact hmem.handed_settled
  · rw [hfinal, hheight]
    exact hmem.finalized_below
  · rw [hheight, hround]
    intro p vote hvote
    by_cases hp : p = phase
    · subst hp
      exact Or.inr (hslot vote hvote).1
    · rw [(hother p hp).2] at hvote
      exact hmem.persisted_past p vote hvote
  · rw [hheight, hround]
    intro p vote hvote hdecision hcurrent
    by_cases hp : p = phase
    · subst hp
      exact (hslot vote hvote).2 hdecision
    · rw [(hother p hp).2] at hvote
      rw [(hother p hp).1]
      exact hmem.persisted_voted p vote hvote hdecision hcurrent
  · rw [hhanded]
    exact hmem.unique

/-- Filling a free slot with a vote of the current round. -/
theorem fill (hmem : VoteMemory node) (phase : Phase) (hfree : node.voted phase = false)
    (hat : vote.At node.height node.round) : VoteMemory (node.fill vote phase) := by
  cases phase with
  | prevote =>
    refine hmem.change .prevote hfree rfl rfl rfl rfl rfl ?_ ?_
    · intro p hp
      cases p with
      | prevote => exact absurd rfl hp
      | precommit => exact ⟨rfl, rfl⟩
    · rintro other ⟨⟩
      exact ⟨hat, fun _ => rfl⟩
  | precommit =>
    refine hmem.change .precommit hfree rfl rfl rfl rfl rfl ?_ ?_
    · intro p hp
      cases p with
      | prevote => exact ⟨rfl, rfl⟩
      | precommit => exact absurd rfl hp
    · rintro other ⟨⟩
      exact ⟨hat, fun _ => rfl⟩

/-- Emptying the slot of an unflagged phase. -/
theorem clearSlot (hmem : VoteMemory node) (phase : Phase) (hfree : node.voted phase = false) :
    VoteMemory (node.clearSlot phase) := by
  cases phase with
  | prevote =>
    refine hmem.change .prevote hfree rfl rfl rfl rfl rfl ?_ ?_
    · intro p hp
      cases p with
      | prevote => exact absurd rfl hp
      | precommit => exact ⟨rfl, rfl⟩
    · rintro other ⟨⟩
  | precommit =>
    refine hmem.change .precommit hfree rfl rfl rfl rfl rfl ?_ ?_
    · intro p hp
      cases p with
      | prevote => exact ⟨rfl, rfl⟩
      | precommit => exact absurd rfl hp
    · rintro other ⟨⟩

/-- Handing out a vote of the current round that the slot of its phase holds. -/
theorem handOut (hmem : VoteMemory node) (cfg : LoopConfig) (cast : Bool) (hat : vote.At node.height node.round)
    (hsettled : node.resetPending = false)
    (hheld : ∀ phase : Phase, vote.decision = phase.decision →
      node.voted phase = true ∧ node.persisted phase = some vote) :
    VoteMemory (node.handOut cfg vote cast) := by
  have hcases : ∀ other, other ∈ (node.handOut cfg vote cast).handed →
      other ∈ node.handed ∨ other = vote := by
    intro other hother
    rcases List.mem_append.mp hother with hold | hnew
    · exact Or.inl hold
    · exact Or.inr (List.mem_singleton.mp hnew)
  refine ⟨?_, ?_, ?_, hmem.finalized_below, ?_, ?_, ?_⟩
  · intro phase other hother hdecision
    rcases hcases other hother with hold | rfl
    · exact hmem.handed_past phase other hold hdecision
    · exact Or.inr hat
  · intro phase other hother hdecision hcurrent
    rcases hcases other hother with hold | rfl
    · exact hmem.handed_kept phase other hold hdecision hcurrent
    · exact hheld phase hdecision
  · intro _ other _ _ _
    exact hsettled
  · exact hmem.persisted_past
  · exact hmem.persisted_voted
  · -- an old vote for the same phase of the current round is the one in the slot
    have hsame : ∀ phase : Phase, ∀ other ∈ node.handed, other.decision = phase.decision →
        vote.decision = phase.decision → other.blockIndex = vote.blockIndex →
        other.round = vote.round → other = vote := by
      intro phase other hother hdecision hvote hindex hround
      have hcurrent : other.At node.height node.round := ⟨hindex.trans hat.1, hround.trans hat.2⟩
      have hslot := (hmem.handed_kept phase other hother hdecision hcurrent).2
      rw [(hheld phase hvote).2] at hslot
      exact (Option.some.inj hslot).symm
    intro phase a ha b hb hda hdb hindex hround
    rcases hcases a ha with ha' | rfl
    · rcases hcases b hb with hb' | rfl
      · exact hmem.unique phase a ha' b hb' hda hdb hindex hround
      · exact hsame phase a ha' hda hdb hindex hround
    · rcases hcases b hb with hb' | rfl
      · exact (hsame phase b hb' hdb hda hindex.symm hround.symm).symm
      · rfl

/-- A later round or height with nothing handed out at it. The slots may be stale. -/
theorem advance {node' : Node} (hmem : VoteMemory node) (hhanded : node'.handed = node.handed)
    (hlater : node.height < node'.height ∨
      (node.height = node'.height ∧ node.round < node'.round ∧
        node'.resetPending = node.resetPending))
    (hfinal : ∀ k ∈ node'.finalizedHeights, k < node'.height)
    (hslot : ∀ phase vote, node'.persisted phase = some vote → node.persisted phase = some vote) :
    VoteMemory node' := by
  have hpast : ∀ vote : ValidatorVoteRecord,
      vote.Before node.height node.round ∨ vote.At node.height node.round →
      vote.Before node'.height node'.round := by
    intro vote hvote
    unfold ValidatorVoteRecord.Before ValidatorVoteRecord.At at *
    omega
  have hnotAt : ∀ vote : ValidatorVoteRecord,
      vote.Before node'.height node'.round → ¬ vote.At node'.height node'.round := by
    intro vote hbefore hat
    unfold ValidatorVoteRecord.Before ValidatorVoteRecord.At at *
    omega
  refine ⟨?_, ?_, ?_, hfinal, ?_, ?_, ?_⟩
  · rw [hhanded]
    intro phase vote hvote hdecision
    exact Or.inl (hpast vote (hmem.handed_past phase vote hvote hdecision))
  · rw [hhanded]
    intro phase vote hvote hdecision hat
    have hold := hmem.handed_past phase vote hvote hdecision
    exact absurd hat (hnotAt vote (hpast vote hold))
  · rw [hhanded]
    intro phase vote hvote hdecision hindex
    rcases hlater with hlt | ⟨heq, -, hreset⟩
    · have hle := hmem.handed_past phase vote hvote hdecision
      unfold ValidatorVoteRecord.Before ValidatorVoteRecord.At at hle
      omega
    · rw [hreset]
      exact hmem.handed_settled phase vote hvote hdecision (hindex.trans heq.symm)
  · intro phase vote hvote
    exact Or.inl (hpast vote (hmem.persisted_past phase vote (hslot phase vote hvote)))
  · intro phase vote hvote _ hat
    have hold := hmem.persisted_past phase vote (hslot phase vote hvote)
    exact absurd hat (hnotAt vote (hpast vote hold))
  · rw [hhanded]
    exact hmem.unique

/-- The height reset: it is only due where nothing was handed out. -/
theorem resetForHeight (hmem : VoteMemory node) : VoteMemory node.resetForHeight := by
  unfold Node.resetForHeight
  split_ifs with hpending hzero
  · have hnone : ∀ phase : Phase, ∀ vote ∈ node.handed, vote.decision = phase.decision →
        vote.blockIndex ≠ node.height := by
      intro phase vote hvote hdecision hindex
      rw [hmem.handed_settled phase vote hvote hdecision hindex] at hpending
      cases hpending
    refine ⟨hmem.handed_past, ?_, ?_, hmem.finalized_below, ?_, ?_, hmem.unique⟩
    · intro phase vote hvote hdecision hat
      exact absurd hat.1 (hnone phase vote hvote hdecision)
    · intro phase vote hvote hdecision hindex
      exact absurd hindex (hnone phase vote hvote hdecision)
    · intro phase vote hvote
      cases phase <;> cases hvote
    · intro phase vote hvote
      cases phase <;> cases hvote
  · refine ⟨hmem.handed_past, hmem.handed_kept, ?_, hmem.finalized_below, hmem.persisted_past,
      hmem.persisted_voted, hmem.unique⟩
    intro _ vote _ _ _
    simp [Node.resetPending, Node.height]
  · exact hmem

theorem moveToNextHeight (hmem : VoteMemory node) (now : Int) (file : Option ConsensusRoundState) :
    VoteMemory { node.moveToNextHeight cfg now with recoveryFile := file } := by
  refine hmem.advance rfl (Or.inl (Nat.lt_succ_self _)) ?_ (fun phase vote h => ?_)
  · intro k hk
    rcases List.mem_cons.mp hk with rfl | hold
    · exact Nat.lt_succ_self _
    · exact Nat.lt_succ_of_lt (hmem.finalized_below k hold)
  · cases phase <;> exact h

end VoteMemory

--
-- Effects on the loop's fields
--

theorem nilVote_at (node : Node) (signer : LocalSigner) (now : Int) :
    (node.nilVote signer now).At node.height node.round := ⟨rfl, rfl⟩

theorem nilVote_not_phase (node : Node) (signer : LocalSigner) (now : Int) (phase : Phase) :
    (node.nilVote signer now).decision ≠ phase.decision := by
  cases phase <;> exact fun h => by cases h

/-- A valid block has a hash and a previous hash. -/
theorem LoopConfig.blockIsValid_hashes (cfg : LoopConfig) {block : Block}
    (h : cfg.blockIsValid block = true) : block.hash ≠ "" ∧ block.previousHash ≠ "" := by
  obtain ⟨hheader, -⟩ := Guards.true_of_ite_false h
  simp only [Bool.or_eq_true, String.isEmpty_iff, not_or] at hheader
  exact ⟨hheader.1.2, hheader.1.1⟩

/-- A built PREVOTE is for its block and round. -/
theorem buildPrevote_spec {cfg : LoopConfig} {registry : ValidatorRegistry} {block : Block}
    {round : Nat} {now : Int} {signer : LocalSigner} {vote : ValidatorVoteRecord}
    (h : buildPrevote cfg registry block round now signer = some vote) :
    cfg.blockIsValid block = true ∧ round ≠ 0 ∧
      vote = signer.signValidatorVote block.index block.hash block.previousHash round .prevote
        "runtime-block-pipeline-prevote" now := by
  obtain ⟨hinput, h⟩ := Guards.some_of_ite_none h
  obtain ⟨-, h⟩ := Guards.some_of_ite_none h
  obtain ⟨-, h⟩ := Guards.some_of_ite_none h
  simp only [Bool.or_eq_true, Bool.not_eq_true', not_or, Bool.not_eq_false, beq_iff_eq] at hinput
  exact ⟨hinput.1.1, hinput.1.2, (Option.some.inj h).symm⟩

/-- A built PRECOMMIT is for its block and round. -/
theorem buildPrecommit_spec {cfg : LoopConfig} {registry : ValidatorRegistry} {block : Block}
    {round : Nat} {now : Int} {signer : LocalSigner} {vote : ValidatorVoteRecord}
    (h : buildPrecommit cfg registry block round now signer = some vote) :
    cfg.blockIsValid block = true ∧ round ≠ 0 ∧
      vote = signer.signValidatorVote block.index block.hash block.previousHash round .precommit
        "runtime-block-pipeline-precommit" now := by
  obtain ⟨hinput, h⟩ := Guards.some_of_ite_none h
  obtain ⟨-, h⟩ := Guards.some_of_ite_none h
  obtain ⟨-, h⟩ := Guards.some_of_ite_none h
  simp only [Bool.or_eq_true, Bool.not_eq_true', not_or, Bool.not_eq_false, beq_iff_eq] at hinput
  exact ⟨hinput.1.1, hinput.1.2, (Option.some.inj h).symm⟩

/-- A rebroadcast vote is of the current round and of its phase. -/
theorem persistedVoteMatchesCandidate_spec {cfg : LoopConfig} {registry : ValidatorRegistry}
    {candidate : PendingBlockCandidate} {node : Node} {vote : ValidatorVoteRecord}
    {decision : ValidatorVoteDecision} (hon : OnCandidate cfg registry candidate node)
    (h : Node.persistedVoteMatchesCandidate cfg vote candidate.block node.round decision = true) :
    vote.At node.height node.round ∧ vote.decision = decision := by
  simp only [Node.persistedVoteMatchesCandidate, Bool.and_eq_true, beq_iff_eq] at h
  obtain ⟨⟨⟨⟨⟨hindex, -⟩, -⟩, hround⟩, hdecision⟩, -⟩ := h
  exact ⟨⟨hindex.trans hon.index_eq, hround⟩, hdecision⟩

theorem buildPrevote_at {cfg : LoopConfig} {registry : ValidatorRegistry}
    {candidate : PendingBlockCandidate} {node : Node} {now : Int} {signer : LocalSigner}
    {vote : ValidatorVoteRecord} (hon : OnCandidate cfg registry candidate node)
    (h : buildPrevote cfg registry candidate.block node.round now signer = some vote) :
    vote.At node.height node.round ∧ vote.decision = .prevote := by
  obtain ⟨-, -, rfl⟩ := buildPrevote_spec h
  exact ⟨⟨hon.index_eq, rfl⟩, rfl⟩

theorem buildPrecommit_at {cfg : LoopConfig} {registry : ValidatorRegistry}
    {candidate : PendingBlockCandidate} {node : Node} {now : Int} {signer : LocalSigner}
    {vote : ValidatorVoteRecord} (hon : OnCandidate cfg registry candidate node)
    (h : buildPrecommit cfg registry candidate.block node.round now signer = some vote) :
    vote.At node.height node.round ∧ vote.decision = .precommit := by
  obtain ⟨-, -, rfl⟩ := buildPrecommit_spec h
  exact ⟨⟨hon.index_eq, rfl⟩, rfl⟩

/-- A fresh PREVOTE in its slot, flagged. -/
theorem VoteMemory.withPrevote {node : Node} {vote : ValidatorVoteRecord} (hmem : VoteMemory node)
    (hvoted : node.votedPrevote = false) (hat : vote.At node.height node.round)
    (file : Option ConsensusRoundState) :
    VoteMemory { node.withPrevote vote with recoveryFile := file, votedPrevote := true } :=
  (hmem.fill .prevote hvoted hat).frame rfl rfl rfl rfl rfl rfl rfl

/-- A fresh PRECOMMIT in its slot, flagged. -/
theorem VoteMemory.withPrecommit {node : Node} {vote : ValidatorVoteRecord}
    (hmem : VoteMemory node) (hvoted : node.votedPrecommit = false)
    (hat : vote.At node.height node.round) (blockHash : String)
    (file : Option ConsensusRoundState) :
    VoteMemory
      { node.withPrecommit blockHash vote with recoveryFile := file, votedPrecommit := true } :=
  (hmem.fill .precommit hvoted hat).frame rfl rfl rfl rfl rfl rfl rfl

/-- **Step lemma, fields.** Every effect keeps the voting memory. -/
theorem voteMemory_effect {cfg : LoopConfig} {input : TickInput} {branch : Branch}
    {node node' : Node} (h : Effect cfg input branch node node') (hmem : VoteMemory node) :
    VoteMemory node' := by
  cases h with
  | deliver hvote => exact hmem.frame rfl rfl rfl rfl rfl rfl rfl
  | adopt candidate buffered bufferedHeight bufferedRound hcandidate hbuffered =>
    exact hmem.frame rfl rfl rfl rfl rfl rfl rfl
  | reset => exact hmem.resetForHeight
  | @nilPrevote _ signer hsigner hcandidate hsettled hvoted =>
    have hat := nilVote_at node signer input.now
    have hout := (hmem.fill .prevote hvoted hat).handOut cfg false hat hsettled
      (fun phase h => absurd h (nilVote_not_phase node signer input.now phase))
    exact hout.frame rfl rfl rfl rfl rfl rfl rfl
  | @nilPrecommit _ signer hsigner hcandidate hsettled hprevoted hvoted =>
    have hat := nilVote_at node signer input.now
    have hout := (hmem.fill .precommit hvoted hat).handOut cfg false hat hsettled
      (fun phase h => absurd h (nilVote_not_phase node signer input.now phase))
    exact hout.frame rfl rfl rfl rfl rfl rfl rfl
  | rebroadcastPrevote cast hon hpersisted hfresh hmatch =>
    obtain ⟨hat, hdecision⟩ := persistedVoteMatchesCandidate_spec hon hmatch
    have hout := hmem.handOut cfg cast hat hon.settled (fun phase h => by
      cases phase with
      | prevote => exact ⟨hmem.persisted_voted .prevote _ hpersisted hdecision hat, hpersisted⟩
      | precommit => rw [hdecision] at h; cases h)
    exact hout.frame rfl rfl rfl rfl rfl rfl rfl
  | rebroadcastPrecommit cast hon hpersisted hfresh hmatch =>
    obtain ⟨hat, hdecision⟩ := persistedVoteMatchesCandidate_spec hon hmatch
    have hout := hmem.handOut cfg cast hat hon.settled (fun phase h => by
      cases phase with
      | prevote => rw [hdecision] at h; cases h
      | precommit => exact ⟨hmem.persisted_voted .precommit _ hpersisted hdecision hat, hpersisted⟩)
    exact hout.frame rfl rfl rfl rfl rfl rfl rfl
  | count hon htally => exact hmem.frame rfl rfl rfl rfl rfl rfl rfl
  | @castPrevote _ registry candidate signer vote file cast tally hon hsigner heligible hvoted hsafe
      hbuild hfile htally hcounted =>
    obtain ⟨hat, hdecision⟩ := buildPrevote_at hon hbuild
    have hout := (hmem.withPrevote hvoted hat file).handOut cfg cast hat hon.settled
      (fun phase h => by
        cases phase with
        | prevote => exact ⟨rfl, rfl⟩
        | precommit => rw [hdecision] at h; cases h)
    exact hout.frame rfl rfl rfl rfl rfl rfl rfl
  | prevoteNotSaved hon hsigner heligible hvoted hsafe hbuild hfile =>
    exact (hmem.clearSlot .prevote hvoted).frame rfl rfl rfl rfl rfl rfl rfl
  | @castPrecommit _ registry candidate signer vote file required cast hon hsigner heligible
      hprevoted hvoted hcounted hrequired hquorum hbuild hfile =>
    obtain ⟨hat, hdecision⟩ := buildPrecommit_at hon hbuild
    have hlocked := hmem.withPrecommit hvoted hat candidate.block.hash file
    have hout := hlocked.handOut cfg cast hat hon.settled
      (fun phase h => by
        cases phase with
        | prevote => rw [hdecision] at h; cases h
        | precommit => exact ⟨rfl, rfl⟩)
    exact hout.frame rfl rfl rfl rfl rfl rfl rfl
  | precommitNotSaved hon hsigner heligible hprevoted hvoted hcounted hrequired hquorum hbuild
      hfile =>
    exact (hmem.clearSlot .precommit hvoted).frame rfl rfl rfl rfl rfl rfl rfl
  | @nilPrecommitOnCandidate _ _ _ signer cast hon hsigner heligible hprevoted hvoted htimeout
      habstained =>
    have hat := nilVote_at node signer input.now
    have hnil := nilVote_not_phase node signer input.now
    cases cast with
    | false =>
      have hout := hmem.handOut cfg false hat hon.settled (fun phase h => absurd h (hnil phase))
      exact hout.frame rfl rfl rfl rfl rfl rfl rfl
    | true =>
      have hout := (hmem.fill .precommit hvoted hat).handOut cfg true hat hon.settled
        (fun phase h => absurd h (hnil phase))
      exact hout.frame rfl rfl rfl rfl rfl rfl rfl
  | certify hon hcertificate => exact hmem.frame rfl rfl rfl rfl rfl rfl rfl
  | finalize hon hfinalized hfile => exact hmem.moveToNextHeight input.now _
  | commitFailed hstorage hvalid => exact hmem.frame rfl rfl rfl rfl rfl rfl rfl
  | advanceRound =>
    refine hmem.advance rfl (Or.inr ⟨rfl, Nat.lt_succ_self _, rfl⟩) hmem.finalized_below ?_
    intro phase vote hvote
    cases phase <;> cases hvote

--
-- The recovery file
--

/-- A restart from the state cannot vote again where `vote` was: it is past, or
the state holds it. -/
def ConsensusRoundState.Covers (state : ConsensusRoundState) (phase : Phase)
    (vote : ValidatorVoteRecord) : Prop :=
  vote.Before state.height state.round ∨
    (vote.At state.height state.round ∧ state.persisted phase = some vote)

/-- The votes of a phase that the node has handed out or is about to. -/
def Node.Known (node : Node) (phase : Phase) (vote : ValidatorVoteRecord) : Prop :=
  (vote ∈ node.handed ∨ node.persisted phase = some vote) ∧ vote.decision = phase.decision

/-- No known vote is ahead of the current round. -/
theorem VoteMemory.known_past {node : Node} {phase : Phase} {vote : ValidatorVoteRecord}
    (hmem : VoteMemory node) (hknown : node.Known phase vote) :
    vote.Before node.height node.round ∨ vote.At node.height node.round := by
  obtain ⟨hhanded | hpersisted, hdecision⟩ := hknown
  · exact hmem.handed_past phase vote hhanded hdecision
  · exact hmem.persisted_past phase vote hpersisted

/-- The recovery file covers every known vote. -/
def FileGuard (node : Node) : Prop :=
  ∀ phase vote, node.Known phase vote → ∃ state,
    node.recoveryFile = some state ∧ state.isValid = true ∧ state.Covers phase vote

/-- Handing out the vote of a slot adds nothing to what is known. -/
theorem known_of_hand {node node' : Node} {vote : ValidatorVoteRecord}
    (hhanded : node'.handed = node.handed ++ [vote]) (hpersisted : node'.persisted = node.persisted)
    (hheld : ∀ phase : Phase, vote.decision = phase.decision → node.persisted phase = some vote)
    (phase : Phase) (other : ValidatorVoteRecord) (h : node'.Known phase other) :
    node.Known phase other := by
  obtain ⟨hwhere, hdecision⟩ := h
  rw [hpersisted, hhanded] at hwhere
  rcases hwhere with hin | hslot
  · rcases List.mem_append.mp hin with hold | hnew
    · exact ⟨Or.inl hold, hdecision⟩
    · have heq := List.mem_singleton.mp hnew
      exact ⟨Or.inr (heq ▸ hheld phase (heq ▸ hdecision)), hdecision⟩
  · exact ⟨Or.inr hslot, hdecision⟩

/-- A nil vote adds nothing to what is known of the two phases. -/
theorem known_of_nil {node node' : Node} {vote : ValidatorVoteRecord}
    (hnil : ∀ phase : Phase, vote.decision ≠ phase.decision)
    (hhanded : node'.handed = node.handed ++ [vote])
    (hslot : ∀ phase, node'.persisted phase = node.persisted phase ∨
      node'.persisted phase = some vote) (phase : Phase) (other : ValidatorVoteRecord)
    (h : node'.Known phase other) : node.Known phase other := by
  obtain ⟨hwhere, hdecision⟩ := h
  have hne : other ≠ vote := fun heq => hnil phase (heq ▸ hdecision)
  rcases hwhere with hin | hpersisted
  · rw [hhanded] at hin
    rcases List.mem_append.mp hin with hold | hnew
    · exact ⟨Or.inl hold, hdecision⟩
    · exact absurd (List.mem_singleton.mp hnew) hne
  · rcases hslot phase with hsame | hfilled
    · exact ⟨Or.inr (hsame ▸ hpersisted), hdecision⟩
    · rw [hfilled] at hpersisted
      exact absurd (Option.some.inj hpersisted).symm hne

namespace FileGuard

variable {node node' : Node}

/-- The same file, and nothing new known. -/
theorem frame (hguard : FileGuard node)
    (hknown : ∀ phase vote, node'.Known phase vote → node.Known phase vote)
    (hfile : node'.recoveryFile = node.recoveryFile) : FileGuard node' := by
  intro phase vote hvote
  rw [hfile]
  exact hguard phase vote (hknown phase vote hvote)

/-- The state that a node builds covers what the node knows. -/
theorem covers_recoveryState (hmem : VoteMemory node) {phase : Phase} {vote : ValidatorVoteRecord}
    (hknown : node.Known phase vote) : node.recoveryState.Covers phase vote := by
  obtain ⟨hwhere, hdecision⟩ := hknown
  rcases hwhere with hhanded | hpersisted
  · rcases hmem.handed_past phase vote hhanded hdecision with hbefore | hat
    · exact Or.inl hbefore
    · have hslot := (hmem.handed_kept phase vote hhanded hdecision hat).2
      refine Or.inr ⟨hat, ?_⟩
      cases phase <;> exact hslot
  · rcases hmem.persisted_past phase vote hpersisted with hbefore | hat
    · exact Or.inl hbefore
    · refine Or.inr ⟨hat, ?_⟩
      cases phase <;> exact hpersisted

/-- After a save of the state of `node`. -/
theorem saved (hmem : VoteMemory node) (hvalid : node.recoveryState.isValid = true)
    (hfile : node'.recoveryFile = some node.recoveryState)
    (hknown : ∀ phase vote, node'.Known phase vote → node.Known phase vote) : FileGuard node' := by
  intro phase vote hvote
  exact ⟨_, hfile, hvalid, covers_recoveryState hmem (hknown phase vote hvote)⟩

/-- After the file was replaced by a state of a height not voted at. -/
theorem raised {state : ConsensusRoundState} (hmem : VoteMemory node)
    (hvalid : state.isValid = true) (hahead : node.height < state.height)
    (hfile : node'.recoveryFile = some state)
    (hknown : ∀ phase vote, node'.Known phase vote → node.Known phase vote) : FileGuard node' := by
  intro phase vote hvote
  refine ⟨state, hfile, hvalid, Or.inl ?_⟩
  have hpast := hmem.known_past (hknown phase vote hvote)
  unfold ValidatorVoteRecord.Before ValidatorVoteRecord.At at *
  omega

end FileGuard

/-- What a save of a vote-free state can do. -/
theorem recoverySave_written (file : Option ConsensusRoundState) (state : ConsensusRoundState) :
    (recoverySave .written file state).2 = file ∨
      (state.isValid = true ∧ (recoverySave .written file state).2 = some state) := by
  rcases recoverySave_cases .written file state with ⟨hvalid, h⟩ | ⟨hvalid, h⟩ | h
  · exact Or.inr ⟨hvalid, by rw [h]⟩
  · exact Or.inr ⟨hvalid, by rw [h]⟩
  · exact Or.inl (by rw [h])

/-- The node at the moment it tries to save a fresh vote, flag included. -/
inductive Attempt (cfg : LoopConfig) (input : TickInput) (node : Node) : Node → Prop
  | prevote {registry : ValidatorRegistry} {candidate : PendingBlockCandidate}
      {signer : LocalSigner} {vote : ValidatorVoteRecord}
      (hon : OnCandidate cfg registry candidate node) (hsigner : cfg.signer = some signer)
      (hvoted : node.votedPrevote = false)
      (hsafe : node.safeToVote cfg registry candidate = true)
      (hbuild : buildPrevote cfg registry candidate.block node.round input.now signer
        = some vote) :
      Attempt cfg input node { node.withPrevote vote with votedPrevote := true }
  | precommit {registry : ValidatorRegistry} {candidate : PendingBlockCandidate}
      {signer : LocalSigner} {vote : ValidatorVoteRecord} {required : UInt64}
      (hon : OnCandidate cfg registry candidate node) (hsigner : cfg.signer = some signer)
      (hvoted : node.votedPrecommit = false) (hcounted : Counted registry candidate node)
      (hrequired : RequiredOf cfg registry required) (hquorum : required ≤ node.tally.weight)
      (hbuild : buildPrecommit cfg registry candidate.block node.round input.now signer
        = some vote) :
      Attempt cfg input node
        { node.withPrecommit candidate.block.hash vote with votedPrecommit := true }

/-- **What an effect can do to the known votes and the file.** Nothing new is
known, and the file stays or becomes the vote-free state of the next height; or
the state with a fresh vote was written, and no more than that is known. -/
theorem effect_file {cfg : LoopConfig} {input : TickInput} {branch : Branch} {node node' : Node}
    (hpath : cfg.hasRecoveryPath = true) (h : Effect cfg input branch node node') :
    ((∀ phase vote, node'.Known phase vote → node.Known phase vote) ∧
      (node'.recoveryFile = node.recoveryFile ∨
        ((node.nextHeightState cfg input.now).isValid = true ∧
          node'.recoveryFile = some (node.nextHeightState cfg input.now)))) ∨
    ∃ attempt, Attempt cfg input node attempt ∧ attempt.recoveryState.isValid = true ∧
      node'.recoveryFile = some attempt.recoveryState ∧
      ∀ phase vote, node'.Known phase vote → attempt.Known phase vote := by
  cases h with
  | deliver hvote => exact Or.inl ⟨fun _ _ h => h, Or.inl rfl⟩
  | adopt candidate buffered bufferedHeight bufferedRound hcandidate hbuffered =>
    exact Or.inl ⟨fun _ _ h => h, Or.inl rfl⟩
  | reset =>
    unfold Node.resetForHeight
    split_ifs
    · refine Or.inl ⟨fun phase vote hvote => ⟨?_, hvote.2⟩, Or.inl rfl⟩
      rcases hvote.1 with hhanded | hpersisted
      · exact Or.inl hhanded
      · cases phase <;> cases hpersisted
    · exact Or.inl ⟨fun _ _ h => h, Or.inl rfl⟩
    · exact Or.inl ⟨fun _ _ h => h, Or.inl rfl⟩
  | @nilPrevote _ signer hsigner hcandidate hsettled hvoted =>
    refine Or.inl ⟨known_of_nil (nilVote_not_phase node signer input.now) rfl ?_, Or.inl rfl⟩
    intro phase
    cases phase with
    | prevote => exact Or.inr rfl
    | precommit => exact Or.inl rfl
  | @nilPrecommit _ signer hsigner hcandidate hsettled hprevoted hvoted =>
    refine Or.inl ⟨known_of_nil (nilVote_not_phase node signer input.now) rfl ?_, Or.inl rfl⟩
    intro phase
    cases phase with
    | prevote => exact Or.inl rfl
    | precommit => exact Or.inr rfl
  | rebroadcastPrevote cast hon hpersisted hfresh hmatch =>
    obtain ⟨-, hdecision⟩ := persistedVoteMatchesCandidate_spec hon hmatch
    refine Or.inl ⟨known_of_hand rfl rfl (fun phase hphase => ?_), Or.inl rfl⟩
    cases phase with
    | prevote => exact hpersisted
    | precommit => rw [hdecision] at hphase; cases hphase
  | rebroadcastPrecommit cast hon hpersisted hfresh hmatch =>
    obtain ⟨-, hdecision⟩ := persistedVoteMatchesCandidate_spec hon hmatch
    refine Or.inl ⟨known_of_hand rfl rfl (fun phase hphase => ?_), Or.inl rfl⟩
    cases phase with
    | prevote => rw [hdecision] at hphase; cases hphase
    | precommit => exact hpersisted
  | count hon htally => exact Or.inl ⟨fun _ _ h => h, Or.inl rfl⟩
  | @castPrevote _ registry candidate signer vote file cast tally hon hsigner heligible hvoted hsafe
      hbuild hfile htally hcounted =>
    obtain ⟨-, hdecision⟩ := buildPrevote_at hon hbuild
    obtain ⟨hvalid, hwritten⟩ := hfile.written hpath
    refine Or.inr ⟨_, Attempt.prevote hon hsigner hvoted hsafe hbuild, hvalid, hwritten,
      known_of_hand rfl rfl (fun phase hphase => ?_)⟩
    cases phase with
    | prevote => rfl
    | precommit => rw [hdecision] at hphase; cases hphase
  | @prevoteNotSaved _ registry candidate signer vote file hon hsigner heligible hvoted hsafe hbuild
      hfile =>
    rcases hfile.2 with rfl | ⟨hvalid, hwritten⟩
    · refine Or.inl ⟨fun phase other hother => ?_, Or.inl rfl⟩
      cases phase with
      | prevote => exact ⟨Or.inl (hother.1.resolve_right (fun h => by cases h)), hother.2⟩
      | precommit => exact hother
    · refine Or.inr ⟨_, Attempt.prevote hon hsigner hvoted hsafe hbuild, hvalid, hwritten,
        fun phase other hother => ?_⟩
      cases phase with
      | prevote => exact ⟨Or.inl (hother.1.resolve_right (fun h => by cases h)), hother.2⟩
      | precommit => exact hother
  | @castPrecommit _ registry candidate signer vote file required cast hon hsigner heligible
      hprevoted hvoted hcounted hrequired hquorum hbuild hfile =>
    obtain ⟨-, hdecision⟩ := buildPrecommit_at hon hbuild
    obtain ⟨hvalid, hwritten⟩ := hfile.written hpath
    refine Or.inr ⟨_, Attempt.precommit hon hsigner hvoted hcounted hrequired hquorum hbuild,
      hvalid, hwritten, known_of_hand rfl rfl (fun phase hphase => ?_)⟩
    cases phase with
    | prevote => rw [hdecision] at hphase; cases hphase
    | precommit => rfl
  | @precommitNotSaved _ registry candidate signer vote file required hon hsigner heligible hprevoted
      hvoted hcounted hrequired hquorum hbuild hfile =>
    rcases hfile.2 with rfl | ⟨hvalid, hwritten⟩
    · refine Or.inl ⟨fun phase other hother => ?_, Or.inl rfl⟩
      cases phase with
      | prevote => exact hother
      | precommit => exact ⟨Or.inl (hother.1.resolve_right (fun h => by cases h)), hother.2⟩
    · refine Or.inr ⟨_, Attempt.precommit hon hsigner hvoted hcounted hrequired hquorum hbuild,
        hvalid, hwritten, fun phase other hother => ?_⟩
      cases phase with
      | prevote => exact hother
      | precommit => exact ⟨Or.inl (hother.1.resolve_right (fun h => by cases h)), hother.2⟩
  | @nilPrecommitOnCandidate _ _ _ signer cast hon hsigner heligible hprevoted hvoted htimeout
      habstained =>
    refine Or.inl ⟨known_of_nil (nilVote_not_phase node signer input.now) rfl ?_, Or.inl rfl⟩
    intro phase
    cases phase with
    | prevote => exact Or.inl rfl
    | precommit =>
      cases cast with
      | false => exact Or.inl rfl
      | true => exact Or.inr rfl
  | certify hon hcertificate => exact Or.inl ⟨fun _ _ h => h, Or.inl rfl⟩
  | finalize hon hfinalized hfile =>
    -- the votes of the old height stay in their slots
    exact Or.inl ⟨fun phase vote h => by cases phase <;> exact h, hfile⟩
  | commitFailed hstorage hvalid => exact Or.inl ⟨fun _ _ h => h, Or.inr ⟨hvalid, rfl⟩⟩
  | advanceRound =>
    refine Or.inl ⟨fun phase vote hvote => ⟨?_, hvote.2⟩, Or.inl rfl⟩
    rcases hvote.1 with hhanded | hpersisted
    · exact Or.inl hhanded
    · cases phase <;> cases hpersisted

/-- **What an effect can hand out.** Nothing, a nil vote, or the vote of the
current round in the slot of its phase. -/
theorem effect_handed {cfg : LoopConfig} {input : TickInput} {branch : Branch} {node node' : Node}
    (h : Effect cfg input branch node node') :
    node'.handed = node.handed ∨ ∃ vote, node'.handed = node.handed ++ [vote] ∧
      ((∀ phase : Phase, vote.decision ≠ phase.decision) ∨
        ∃ phase : Phase, vote.decision = phase.decision ∧ vote.At node'.height node'.round ∧
          node'.persisted phase = some vote) := by
  cases h with
  | deliver hvote => exact Or.inl rfl
  | adopt candidate buffered bufferedHeight bufferedRound hcandidate hbuffered => exact Or.inl rfl
  | reset =>
    unfold Node.resetForHeight
    split_ifs <;> exact Or.inl rfl
  | @nilPrevote _ signer hsigner hcandidate hsettled hvoted =>
    exact Or.inr ⟨_, rfl, Or.inl (nilVote_not_phase node signer input.now)⟩
  | @nilPrecommit _ signer hsigner hcandidate hsettled hprevoted hvoted =>
    exact Or.inr ⟨_, rfl, Or.inl (nilVote_not_phase node signer input.now)⟩
  | rebroadcastPrevote cast hon hpersisted hfresh hmatch =>
    obtain ⟨hat, hdecision⟩ := persistedVoteMatchesCandidate_spec hon hmatch
    exact Or.inr ⟨_, rfl, Or.inr ⟨.prevote, hdecision, hat, hpersisted⟩⟩
  | rebroadcastPrecommit cast hon hpersisted hfresh hmatch =>
    obtain ⟨hat, hdecision⟩ := persistedVoteMatchesCandidate_spec hon hmatch
    exact Or.inr ⟨_, rfl, Or.inr ⟨.precommit, hdecision, hat, hpersisted⟩⟩
  | count hon htally => exact Or.inl rfl
  | castPrevote cast tally hon hsigner heligible hvoted hsafe hbuild hfile htally hcounted =>
    obtain ⟨hat, hdecision⟩ := buildPrevote_at hon hbuild
    exact Or.inr ⟨_, rfl, Or.inr ⟨.prevote, hdecision, hat, rfl⟩⟩
  | prevoteNotSaved hon hsigner heligible hvoted hsafe hbuild hfile => exact Or.inl rfl
  | castPrecommit cast hon hsigner heligible hprevoted hvoted hcounted hrequired hquorum hbuild
      hfile =>
    obtain ⟨hat, hdecision⟩ := buildPrecommit_at hon hbuild
    exact Or.inr ⟨_, rfl, Or.inr ⟨.precommit, hdecision, hat, rfl⟩⟩
  | precommitNotSaved hon hsigner heligible hprevoted hvoted hcounted hrequired hquorum hbuild
      hfile => exact Or.inl rfl
  | @nilPrecommitOnCandidate _ _ _ signer cast hon hsigner heligible hprevoted hvoted htimeout
      habstained =>
    exact Or.inr ⟨_, rfl, Or.inl (nilVote_not_phase node signer input.now)⟩
  | certify hon hcertificate => exact Or.inl rfl
  | finalize hon hfinalized hfile => exact Or.inl rfl
  | commitFailed hstorage hvalid => exact Or.inl rfl
  | advanceRound => exact Or.inl rfl

/-- The memory of a node that tries to save. -/
theorem VoteMemory.attempt {cfg : LoopConfig} {input : TickInput} {node attempt : Node}
    (hmem : VoteMemory node) (h : Attempt cfg input node attempt) : VoteMemory attempt := by
  cases h with
  | prevote hon hsigner hvoted hsafe hbuild =>
    exact hmem.withPrevote hvoted (buildPrevote_at hon hbuild).1 node.recoveryFile
  | precommit hon hsigner hvoted hcounted hrequired hquorum hbuild =>
    exact hmem.withPrecommit hvoted (buildPrecommit_at hon hbuild).1 _ node.recoveryFile

/-- **Step lemma, file.** Every effect keeps the file ahead of the known votes. -/
theorem fileGuard_effect {cfg : LoopConfig} {input : TickInput} {branch : Branch}
    {node node' : Node} (hpath : cfg.hasRecoveryPath = true)
    (h : Effect cfg input branch node node') (hmem : VoteMemory node) (hguard : FileGuard node) :
    FileGuard node' := by
  rcases effect_file hpath h with ⟨hknown, hsame | ⟨hvalid, hnext⟩⟩ |
    ⟨attempt, hattempt, hvalid, hwritten, hknown⟩
  · exact hguard.frame hknown hsame
  · exact FileGuard.raised hmem hvalid (Nat.lt_succ_self _) hnext hknown
  · exact FileGuard.saved (hmem.attempt hattempt) hvalid hwritten hknown

--
-- Imports and restarts
--

theorem voteMemory_sync {cfg : LoopConfig} {move : SyncMove} {node : Node}
    (hadmissible : move.Admissible node) (hmem : VoteMemory node) :
    VoteMemory (node.sync cfg move) := by
  refine hmem.advance rfl (Or.inl hadmissible.ahead) ?_ (fun phase vote h => ?_)
  · intro k hk
    rcases List.mem_append.mp hk with hnew | hold
    · exact (hadmissible.finalized k hnew).2
    · exact Nat.lt_trans (hmem.finalized_below k hold) hadmissible.ahead
  · cases phase <;> exact h

/-- A file replaced by the first round of a height ahead still covers. -/
theorem fileGuard_replaced {cfg : LoopConfig} {height : Nat} {startedAt : Int}
    {node node' : Node} (hahead : node.height < height) (hmem : VoteMemory node)
    (hguard : FileGuard node)
    (hknown : ∀ phase vote, node'.Known phase vote → node.Known phase vote)
    (hfile : node'.recoveryFile = node.recoveryFile ∨ node'.recoveryFile
      = (recoverySave .written node.recoveryFile (Node.firstRound cfg height startedAt)).2) :
    FileGuard node' := by
  rcases hfile with hsame | hsaved
  · exact hguard.frame hknown hsame
  · rcases recoverySave_written node.recoveryFile (Node.firstRound cfg height startedAt) with
      hkept | ⟨hvalid, hwritten⟩
    · exact hguard.frame hknown (hsaved.trans hkept)
    · have hheight : node.height < (Node.firstRound cfg height startedAt).height := hahead
      exact FileGuard.raised hmem hvalid hheight (hsaved.trans hwritten) hknown

theorem fileGuard_sync {cfg : LoopConfig} {move : SyncMove} {node : Node}
    (hadmissible : move.Admissible node) (hmem : VoteMemory node) (hguard : FileGuard node) :
    FileGuard (node.sync cfg move) := by
  have hknown : ∀ phase vote, (node.sync cfg move).Known phase vote → node.Known phase vote := by
    intro phase vote h
    cases phase <;> exact h
  have hfile : (node.sync cfg move).recoveryFile = node.recoveryFile ∨
      (node.sync cfg move).recoveryFile = (recoverySave .written node.recoveryFile
        (Node.firstRound cfg move.height move.startedAt)).2 := by
    by_cases hreplaced : move.recoveryReplaced = true
    · exact Or.inr (if_pos hreplaced)
    · exact Or.inl (if_neg hreplaced)
  exact fileGuard_replaced hadmissible.ahead hmem hguard hknown hfile

/-- How a start ends: the loop is loaded from the file, whose state it resumes,
or from a vote-free state of a later height that it has just saved. -/
theorem startConsensus_cases {cfg : LoopConfig} {boot : Boot} {node node' : Node}
    (h : node.startConsensus cfg boot = some node') :
    ∃ stored, node.recoveryFile = some stored ∧ stored.isValid = true ∧
      ((stored.height = boot.tip + 1 ∧
          stored.proposerAddress = cfg.selectProposer stored.height stored.round ∧
          node' = node.loadFromRecoveryState stored boot.finalized (some stored)) ∨
        (stored.height < boot.tip + 1 ∧
          (Node.firstRound cfg (boot.tip + 1) boot.startedAt).isValid = true ∧
          node' = node.loadFromRecoveryState
            (Node.firstRound cfg (boot.tip + 1) boot.startedAt) boot.finalized
            (some (Node.firstRound cfg (boot.tip + 1) boot.startedAt)))) := by
  unfold Node.startConsensus at h
  dsimp only at h
  cases hload : recoveryLoad node.recoveryFile with
  | none =>
    have hstate : Node.startState cfg boot node.recoveryFile = none := by
      unfold Node.startState
      rw [hload]
    rw [hstate] at h
    cases h
  | some stored =>
    obtain ⟨hfile, hvalid⟩ := Option.filter_eq_some_iff.mp hload
    refine ⟨stored, hfile, hvalid, ?_⟩
    by_cases hnext : stored.height = boot.tip + 1
    · have hcurrent : resumedRound cfg boot node.recoveryFile
          = ConsensusRoundState.fresh stored.height stored.round stored.proposerAddress
            stored.roundStartedAt := by
        unfold resumedRound
        rw [hload]
        dsimp only
        rw [if_pos (by simpa using hnext)]
      have hstate : Node.startState cfg boot node.recoveryFile
          = some (stored, node.recoveryFile) := by
        unfold Node.startState
        rw [hload, hcurrent]
        exact if_neg (Nat.lt_irrefl _)
      rw [hstate] at h
      obtain ⟨-, h⟩ := Guards.some_of_ite_none h
      obtain ⟨hproposer, h⟩ := Guards.some_of_ite_none h
      rw [hfile] at h
      simp only [Bool.or_eq_true, not_or, bne_iff_ne, ne_eq, not_not] at hproposer
      exact Or.inl ⟨hnext, hproposer.2, (Option.some.inj h).symm⟩
    · have hcurrent : resumedRound cfg boot node.recoveryFile
          = Node.firstRound cfg (boot.tip + 1) boot.startedAt := by
        unfold resumedRound
        rw [hload]
        dsimp only
        rw [if_neg (by simpa using hnext)]
      have hheight : (resumedRound cfg boot node.recoveryFile).height = boot.tip + 1 := by
        rw [hcurrent]
        rfl
      by_cases hlower : stored.height < boot.tip + 1
      · have hstate : Node.startState cfg boot node.recoveryFile
            = if (!boot.finalized.contains stored.height
                || !(Node.firstRound cfg (boot.tip + 1) boot.startedAt).isValid) = true then none
              else some (Node.firstRound cfg (boot.tip + 1) boot.startedAt,
                some (Node.firstRound cfg (boot.tip + 1) boot.startedAt)) := by
          unfold Node.startState
          rw [hload]
          dsimp only
          rw [if_pos (by rw [hheight]; exact hlower), hcurrent]
        by_cases hrefused : (!boot.finalized.contains stored.height
            || !(Node.firstRound cfg (boot.tip + 1) boot.startedAt).isValid) = true
        · rw [hstate, if_pos hrefused] at h
          cases h
        · rw [hstate, if_neg hrefused] at h
          obtain ⟨-, h⟩ := Guards.some_of_ite_none h
          obtain ⟨-, h⟩ := Guards.some_of_ite_none h
          simp only [Bool.or_eq_true, not_or, Bool.not_eq_true', Bool.not_eq_false] at hrefused
          exact Or.inr ⟨hlower, hrefused.2, (Option.some.inj h).symm⟩
      · have hstate : Node.startState cfg boot node.recoveryFile
            = some (stored, node.recoveryFile) := by
          unfold Node.startState
          rw [hload]
          dsimp only
          rw [if_neg (by rw [hheight]; exact hlower)]
        rw [hstate] at h
        obtain ⟨hequal, -⟩ := Guards.some_of_ite_none h
        simp only [Bool.or_eq_true, not_or, bne_iff_ne, ne_eq, not_not] at hequal
        exact absurd (hequal.1.1.1.1.trans hheight) hnext

/-- A state whose file covers the votes handed out, loaded into a fresh loop. -/
theorem voteMemory_load {node : Node} {state : ConsensusRoundState} {finalized : List Nat}
    {file : Option ConsensusRoundState} (hvalid : state.isValid = true)
    (hfinal : ∀ k ∈ finalized, k < state.height)
    (hunique : ∀ phase : Phase, ∀ a ∈ node.handed, ∀ b ∈ node.handed, a.decision = phase.decision →
      b.decision = phase.decision → a.blockIndex = b.blockIndex → a.round = b.round → a = b)
    (hcovers : ∀ phase : Phase, ∀ vote ∈ node.handed, vote.decision = phase.decision →
      state.Covers phase vote) :
    VoteMemory (node.loadFromRecoveryState state finalized file) := by
  have hslot := fun phase => ConsensusRoundState.isValid_slot hvalid phase
  have hflag : ∀ (phase : Phase) vote, state.persisted phase = some vote →
      (node.loadFromRecoveryState state finalized file).voted phase = true := by
    intro phase vote hvote
    have hvoted := (hslot phase).1
    rw [hvote] at hvoted
    cases phase <;> exact hvoted
  refine ⟨?_, ?_, ?_, hfinal, ?_, ?_, hunique⟩
  · intro phase vote hvote hdecision
    rcases hcovers phase vote hvote hdecision with hbefore | ⟨hat, -⟩
    · exact Or.inl hbefore
    · exact Or.inr hat
  · intro phase vote hvote hdecision hat
    rcases hcovers phase vote hvote hdecision with hbefore | ⟨-, hheld⟩
    · have hat' : vote.At state.height state.round := hat
      unfold ValidatorVoteRecord.Before ValidatorVoteRecord.At at *
      omega
    · exact ⟨hflag phase vote hheld, by cases phase <;> exact hheld⟩
  · intro _ vote _ _ _
    show Node.resetPending (node.loadFromRecoveryState state finalized file) = false
    unfold Node.resetPending
    rw [Bool.and_eq_false_iff]
    exact Or.inl (decide_eq_false (Nat.lt_irrefl _))
  · intro phase vote hvote
    have hheld : state.persisted phase = some vote := by cases phase <;> exact hvote
    exact Or.inr ((hslot phase).2 vote hheld).1
  · intro phase vote hvote _ _
    have hheld : state.persisted phase = some vote := by cases phase <;> exact hvote
    exact hflag phase vote hheld

/-- A restart keeps memory and file together. -/
theorem voteMemory_restart {cfg : LoopConfig} {boot : Boot} {node node' : Node}
    (h : node.startConsensus cfg boot = some node') (hmem : VoteMemory node)
    (hguard : FileGuard node) : VoteMemory node' ∧ FileGuard node' := by
  obtain ⟨stored, hfile, hvalid, hcase⟩ := startConsensus_cases h
  -- the file read at the start is the one that covers the votes
  have hcovers : ∀ phase : Phase, ∀ vote ∈ node.handed, vote.decision = phase.decision →
      stored.Covers phase vote := by
    intro phase vote hvote hdecision
    obtain ⟨state, hstate, -, hcovers⟩ := hguard phase vote ⟨Or.inl hvote, hdecision⟩
    rw [hfile] at hstate
    cases hstate
    exact hcovers
  rcases hcase with ⟨hheight, -, rfl⟩ | ⟨hlower, hfresh, rfl⟩
  · refine ⟨voteMemory_load hvalid ?_ hmem.unique hcovers, ?_⟩
    · intro k hk
      have hle := boot.finalized_le k hk
      omega
    · intro phase vote hknown
      refine ⟨stored, rfl, hvalid, ?_⟩
      rcases hknown with ⟨hhanded | hpersisted, hdecision⟩
      · exact hcovers phase vote hhanded hdecision
      · have hheld : stored.persisted phase = some vote := by cases phase <;> exact hpersisted
        exact Or.inr ⟨((ConsensusRoundState.isValid_slot hvalid phase).2 vote hheld).1, hheld⟩
  · -- nothing was handed out at a height after the stored one
    have hbefore : ∀ phase : Phase, ∀ vote ∈ node.handed, vote.decision = phase.decision →
        vote.Before (boot.tip + 1) 1 := by
      intro phase vote hvote hdecision
      rcases hcovers phase vote hvote hdecision with hpast | ⟨hat, -⟩
      · unfold ValidatorVoteRecord.Before at *
        omega
      · unfold ValidatorVoteRecord.At at hat
        exact Or.inl (by omega)
    refine ⟨voteMemory_load hfresh ?_ hmem.unique ?_, ?_⟩
    · intro k hk
      exact Nat.lt_succ_of_le (boot.finalized_le k hk)
    · intro phase vote hvote hdecision
      exact Or.inl (hbefore phase vote hvote hdecision)
    · intro phase vote hknown
      refine ⟨_, rfl, hfresh, ?_⟩
      rcases hknown with ⟨hhanded | hpersisted, hdecision⟩
      · exact Or.inl (hbefore phase vote hhanded hdecision)
      · cases phase <;> cases hpersisted

--
-- Whole runs
--

theorem voteMemory_initial {cfg : LoopConfig} {node : Node} (h : Initial cfg node) :
    VoteMemory node := by
  obtain ⟨height, round, startedAt, finalized, hvalid, hfinalized⟩ := h
  refine ⟨by simp [Node.initial], by simp [Node.initial], by simp [Node.initial], hfinalized, ?_, ?_,
    by simp [Node.initial]⟩
  · intro phase vote hvote
    cases phase <;> cases hvote
  · intro phase vote hvote
    cases phase <;> cases hvote

theorem fileGuard_initial {cfg : LoopConfig} {node : Node} (h : Initial cfg node) :
    FileGuard node := by
  obtain ⟨height, round, startedAt, finalized, hvalid, hfinalized⟩ := h
  rintro phase vote ⟨hhanded | hpersisted, -⟩
  · cases hhanded
  · cases phase <;> cases hpersisted

/-- Memory and file agree at every step. -/
theorem voteMemory_invariant {cfg : LoopConfig} (cond : RunCondition)
    (hpath : cfg.hasRecoveryPath = true) :
    RunInvariant cfg cond (fun node => VoteMemory node ∧ FileGuard node) := by
  refine ⟨?_, ?_, ?_, ?_, ?_⟩
  · intro node hinit
    exact ⟨voteMemory_initial hinit, fileGuard_initial hinit⟩
  · rintro input branch node node' - heffect ⟨hmem, hguard⟩
    exact ⟨voteMemory_effect heffect hmem, fileGuard_effect hpath heffect hmem hguard⟩
  · rintro move node hadmissible - ⟨hmem, hguard⟩
    exact ⟨voteMemory_sync hadmissible hmem, fileGuard_sync hadmissible hmem hguard⟩
  · rintro height startedAt node hahead - ⟨hmem, hguard⟩
    refine ⟨hmem.frame rfl rfl rfl rfl rfl rfl rfl, ?_⟩
    exact fileGuard_replaced hahead hmem hguard (fun _ _ h => h) (Or.inr rfl)
  · rintro boot node node' - hstart ⟨hmem, hguard⟩
    exact voteMemory_restart hstart hmem hguard

/-- **Run lemma.** With a recovery path, memory and file agree in every state of
every run, through failed saves, imports and crashes at any point. -/
theorem voteMemory_run {cfg : LoopConfig} {cond : RunCondition} {node : Node}
    (hpath : cfg.hasRecoveryPath = true) (h : Reachable cfg cond node) :
    VoteMemory node ∧ FileGuard node :=
  reachable_invariant (voteMemory_invariant cond hpath) h

/-- **No self-equivocation.** In every run of a validator with a recovery path,
whatever arrives, times out, fails to be saved or crashes, two PREVOTEs or two
PRECOMMITs handed out for one height and round are for the same block. -/
theorem no_self_equivocation {cfg : LoopConfig} {node : Node}
    (hpath : cfg.hasRecoveryPath = true) (h : Reachable cfg .any node)
    {a b : ValidatorVoteRecord} (ha : a ∈ node.handed) (hb : b ∈ node.handed)
    (hdecision : a.decision = b.decision)
    (hphase : a.decision = .prevote ∨ a.decision = .precommit)
    (hheight : a.blockIndex = b.blockIndex) (hround : a.round = b.round) :
    a.blockHash = b.blockHash := by
  obtain ⟨hmem, -⟩ := voteMemory_run hpath h
  have hsame : a = b := by
    rcases hphase with hprevote | hprecommit
    · exact hmem.unique .prevote a ha b hb hprevote (hdecision ▸ hprevote) hheight hround
    · exact hmem.unique .precommit a ha b hb hprecommit (hdecision ▸ hprecommit) hheight hround
  rw [hsame]

/-- Validator `a` has prevoted block `B`. -/
def prevotedNode : Node :=
  sampleStart.tick (sampleLoop "a") (sampleTick 6 sixth_pos [] [sampleProposal sampleBlock 1])

/-- It has crashed and restarted from its recovery file. -/
def restartedNode : Node :=
  (prevotedNode.startConsensus (sampleLoop "a") ⟨0, [], 1, by simp, by decide⟩).getD prevotedNode

/-- It has handed the same PREVOTE out again. -/
def revotedNode : Node :=
  restartedNode.tick (sampleLoop "a") (sampleTick 7 (by decide) [] [sampleProposal sampleBlock 1])

/-- A PREVOTE, a crash, a restart from the file, and the same PREVOTE again. -/
theorem no_self_equivocation_restart :
    ∃ first second, revotedNode.handed = [first, second] ∧ first.decision = .prevote ∧
      second.decision = .prevote ∧ first.blockHash = second.blockHash := by
  have hstart : prevotedNode.startConsensus (sampleLoop "a") ⟨0, [], 1, by simp, by decide⟩
      = some restartedNode := by
    decide +kernel
  have hreach : Reachable (sampleLoop "a") .any revotedNode :=
    (((Reachable.initial (sampleStart_initial "a")).tick _).restart
      (sampleTick 6 (by decide) [] []) _ hstart).tick _
  have hhanded : revotedNode.handed.map
      (fun vote => (vote.decision, vote.blockIndex, vote.round, vote.blockHash))
      = [(.prevote, 1, 1, "B"), (.prevote, 1, 1, "B")] := by
    decide +kernel
  obtain ⟨first, rest, hsplit, hfirst, hrest⟩ := List.map_eq_cons_iff.mp hhanded
  obtain ⟨second, rest', hsplit', hsecond, hrest'⟩ := List.map_eq_cons_iff.mp hrest
  have hnil : rest' = [] := List.map_eq_nil_iff.mp hrest'
  subst hnil hsplit'
  simp only [Prod.mk.injEq] at hfirst hsecond
  refine ⟨first, second, hsplit, hfirst.1, hsecond.1, ?_⟩
  exact no_self_equivocation rfl hreach (by simp [hsplit]) (by simp [hsplit])
    (hfirst.1.trans hsecond.1.symm) (Or.inl hfirst.1) (hfirst.2.1.trans hsecond.2.1.symm)
    (hfirst.2.2.1.trans hsecond.2.2.1.symm)

end Nodo.Model
