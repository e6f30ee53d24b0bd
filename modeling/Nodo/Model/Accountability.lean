import Nodo.Model.Evidence
import Nodo.Model.VoteMemory

/-!
# Nodo — what an honest validator can be punished for

Evidence compares the whole target of two votes of one round, decision included.
The loop casts a PREVOTE and a PRECOMMIT in one round, so the two honest votes
are a conflict pair. In runs that never precommit where they have prevoted, all
votes that leave the node in one round have one target, and no evidence built
from them is accepted.

## Results

* `oneTarget_effect` — one effect keeps a single target in every round.
* `honest_votes_not_slashable` — in such runs no pair of broadcast votes is
  accepted as evidence, and no block that carries it has a successor state.
* `honest_votes_slashable` — a PREVOTE and a PRECOMMIT for one block are accepted.
-/

namespace Nodo.Model

--
-- The runs without a second vote
--

/-- The PRECOMMIT branch with a quorum is taken. -/
def PrecommitDue (cfg : LoopConfig) (node : Node) : Prop :=
  node.votedPrevote = true ∧ node.votedPrecommit = false ∧
    ∃ registry signer required, cfg.validatorSets node.height = some registry ∧
      cfg.signer = some signer ∧ registry.isEligibleForConsensus signer.address = true ∧
      RequiredOf cfg registry required ∧ required ≤ node.tally.weight

/-- The node holds its PREVOTE of the current round. -/
def Node.HoldsPrevote (node : Node) : Prop :=
  ∃ vote, node.persistedPrevote = some vote ∧ vote.decision = .prevote ∧
    vote.At node.height node.round

/-- Crash-free runs in which no tick precommits in a round it has prevoted in. -/
def singleVoteRounds (cfg : LoopConfig) : RunCondition where
  precommit _ node := PrecommitDue cfg node → ¬ node.HoldsPrevote
  commit _ _ := True
  sync _ _ := True
  importFailed _ := True
  crash := False

--
-- The invariant
--

theorem sameVoteTarget_iff {a b : ValidatorVoteRecord} :
    sameVoteTarget a b = true ↔ a.blockHash = b.blockHash ∧ a.previousHash = b.previousHash ∧
      a.decision = b.decision ∧ a.reasonHash = b.reasonHash := by
  simp [sameVoteTarget, and_assoc]

/-- A vote with the target of a nil vote. -/
def ValidatorVoteRecord.IsNil (vote : ValidatorVoteRecord) : Prop :=
  vote.blockHash = "nil" ∧ vote.previousHash = "nil" ∧ vote.decision = .reject ∧
    vote.reasonHash = "nil"

/-- The state in which a nil PRECOMMIT leaves the round: no PREVOTE can follow,
because the save refuses it, or, without a recovery path, because the candidate
stays and is not safe to vote for. -/
structure NilCast (cfg : LoopConfig) (node : Node) : Prop where
  prevoted : node.votedPrevote = false
  precommitted : node.votedPrecommit = true
  persisted : ∃ vote, node.persistedPrecommit = some vote ∧ vote.decision = .reject
  candidate : ∃ candidate, node.currentCandidate = some candidate ∧
    (cfg.hasRecoveryPath = false → ∀ registry, cfg.validatorSets node.height = some registry →
      node.safeToVote cfg registry candidate = false)

theorem NilCast.congr {cfg : LoopConfig} {node node' : Node} (h : NilCast cfg node)
    (hstate : node'.roundManager.state = node.roundManager.state)
    (hprevoted : node'.votedPrevote = node.votedPrevote)
    (hprecommitted : node'.votedPrecommit = node.votedPrecommit)
    (hpersisted : node'.persistedPrecommit = node.persistedPrecommit)
    (hpending : node'.pendingCandidate = node.pendingCandidate)
    (hlock : node'.lockedBlock = node.lockedBlock)
    (hlockRound : node'.lockedRound = node.lockedRound) : NilCast cfg node' := by
  obtain ⟨h1, h2, h3, candidate, hcandidate, hnotSafe⟩ := h
  refine ⟨hprevoted.trans h1, hprecommitted.trans h2, hpersisted ▸ h3, candidate, ?_, ?_⟩
  · unfold Node.currentCandidate Node.height Node.round at hcandidate ⊢
    rw [hstate, hpending]
    exact hcandidate
  · unfold Node.safeToVote Node.height Node.round at hnotSafe ⊢
    rw [hstate, hlock, hlockRound]
    exact hnotSafe

/-- All votes that left the node in one round have one target. -/
structure OneTarget (cfg : LoopConfig) (node : Node) : Prop where
  handed : ∀ b ∈ node.broadcasts, b.vote ∈ node.handed
  kind : ∀ b ∈ node.broadcasts, (∃ phase : Phase, b.vote.decision = phase.decision) ∨ b.vote.IsNil
  past : ∀ b ∈ node.broadcasts, b.vote.Before node.height node.round ∨
    b.vote.At node.height node.round
  settled : ∀ b ∈ node.broadcasts, b.vote.blockIndex = node.height → node.resetPending = false
  nilCast : ∀ b ∈ node.broadcasts, b.vote.decision = .reject → b.vote.At node.height node.round →
    NilCast cfg node
  /-- A PRECOMMIT of the round comes after a nil PREVOTE only. -/
  alone : ∀ vote, node.persistedPrecommit = some vote → vote.decision = .precommit →
    vote.At node.height node.round → node.votedPrevote = true ∧ ¬ node.HoldsPrevote
  unique : ∀ a ∈ node.broadcasts, ∀ b ∈ node.broadcasts, a.vote.blockIndex = b.vote.blockIndex →
    a.vote.round = b.vote.round → sameVoteTarget a.vote b.vote = true

namespace OneTarget

variable {cfg : LoopConfig} {node node' : Node}

/-- Nothing leaves, and the round stays. -/
theorem frame (h : OneTarget cfg node) (hsent : node'.broadcasts = node.broadcasts)
    (hhanded : ∀ vote ∈ node.handed, vote ∈ node'.handed)
    (hheight : node'.height = node.height) (hround : node'.round = node.round)
    (hreset : node.resetPending = false → node'.resetPending = false)
    (hnil : NilCast cfg node → NilCast cfg node')
    (halone : ∀ vote, node'.persistedPrecommit = some vote → vote.decision = .precommit →
      vote.At node.height node.round → node'.votedPrevote = true ∧ ¬ node'.HoldsPrevote) :
    OneTarget cfg node' := by
  refine ⟨?_, ?_, ?_, ?_, ?_, ?_, ?_⟩
  · intro b hb
    exact hhanded _ (h.handed b (hsent ▸ hb))
  · rw [hsent]
    exact h.kind
  · rw [hsent, hheight, hround]
    exact h.past
  · rw [hsent, hheight]
    exact fun b hb hindex => hreset (h.settled b hb hindex)
  · rw [hsent, hheight, hround]
    exact fun b hb hdecision hat => hnil (h.nilCast b hb hdecision hat)
  · rw [hheight, hround]
    exact halone
  · rw [hsent]
    exact h.unique

/-- What is among the broadcasts when a vote was handed out. -/
theorem mem_broadcasts {vote : ValidatorVoteRecord} {cast : Bool}
    {file : Option ConsensusRoundState}
    (hsent : node'.broadcasts
      = if cast then node.broadcasts ++ [⟨vote, file⟩] else node.broadcasts) :
    ∀ b ∈ node'.broadcasts, b ∈ node.broadcasts ∨ b.vote = vote := by
  intro b hb
  rw [hsent] at hb
  cases cast with
  | false => exact Or.inl hb
  | true =>
    rcases List.mem_append.mp hb with hold | hnew
    · exact Or.inl hold
    · rw [List.mem_singleton.mp hnew]
      exact Or.inr rfl

/-- A vote of the current round leaves, or stays in the pool. -/
theorem send (h : OneTarget cfg node) {vote : ValidatorVoteRecord} (cast : Bool)
    {file : Option ConsensusRoundState}
    (hcast : node'.broadcasts
      = if cast then node.broadcasts ++ [⟨vote, file⟩] else node.broadcasts)
    (hhanded : node'.handed = node.handed ++ [vote])
    (hheight : node'.height = node.height) (hround : node'.round = node.round)
    (hat : vote.At node.height node.round) (hsettled : node'.resetPending = false)
    (hkind : (∃ phase : Phase, vote.decision = phase.decision) ∨ vote.IsNil)
    (hcompatible : ∀ b ∈ node.broadcasts, b.vote.At node.height node.round →
      sameVoteTarget b.vote vote = true)
    (hnil : NilCast cfg node → NilCast cfg node')
    (hfresh : vote.decision = .reject → NilCast cfg node')
    (halone : ∀ vote, node'.persistedPrecommit = some vote → vote.decision = .precommit →
      vote.At node.height node.round → node'.votedPrevote = true ∧ ¬ node'.HoldsPrevote) :
    OneTarget cfg node' := by
  have hsent := mem_broadcasts hcast
  have hself : sameVoteTarget vote vote = true := sameVoteTarget_iff.mpr ⟨rfl, rfl, rfl, rfl⟩
  have hsymm : ∀ a b : ValidatorVoteRecord, sameVoteTarget a b = true →
      sameVoteTarget b a = true := by
    intro a b hab
    obtain ⟨h1, h2, h3, h4⟩ := sameVoteTarget_iff.mp hab
    exact sameVoteTarget_iff.mpr ⟨h1.symm, h2.symm, h3.symm, h4.symm⟩
  -- an older vote of the same height and round is of the current round
  have hround' : ∀ b ∈ node.broadcasts, b.vote.blockIndex = vote.blockIndex →
      b.vote.round = vote.round → sameVoteTarget b.vote vote = true := by
    intro b hb hindex hsame
    exact hcompatible b hb ⟨hindex.trans hat.1, hsame.trans hat.2⟩
  refine ⟨?_, ?_, ?_, ?_, ?_, ?_, ?_⟩
  · intro b hb
    rw [hhanded]
    rcases hsent b hb with hold | hnew
    · exact List.mem_append_left _ (h.handed b hold)
    · rw [hnew]
      exact List.mem_append_right _ (List.mem_singleton.mpr rfl)
  · intro b hb
    rcases hsent b hb with hold | hnew
    · exact h.kind b hold
    · rw [hnew]
      exact hkind
  · intro b hb
    rw [hheight, hround]
    rcases hsent b hb with hold | hnew
    · exact h.past b hold
    · rw [hnew]
      exact Or.inr hat
  · exact fun _ _ _ => hsettled
  · intro b hb hdecision hcurrent
    rcases hsent b hb with hold | hnew
    · rw [hheight, hround] at hcurrent
      exact hnil (h.nilCast b hold hdecision hcurrent)
    · exact hfresh (hnew ▸ hdecision)
  · rw [hheight, hround]
    exact halone
  · intro a ha b hb hindex hsame
    rcases hsent a ha with holdA | hnewA
    · rcases hsent b hb with holdB | hnewB
      · exact h.unique a holdA b holdB hindex hsame
      · rw [hnewB] at hindex hsame ⊢
        exact hround' a holdA hindex hsame
    · rw [hnewA] at hindex hsame ⊢
      rcases hsent b hb with holdB | hnewB
      · exact hsymm _ _ (hround' b holdB hindex.symm hsame.symm)
      · rw [hnewB]
        exact hself

/-- A later round or height, where nothing has left yet. -/
theorem move (h : OneTarget cfg node) (hsent : node'.broadcasts = node.broadcasts)
    (hhanded : node'.handed = node.handed)
    (hlater : node.height < node'.height ∨
      (node.height = node'.height ∧ node.round < node'.round ∧
        node'.resetPending = node.resetPending))
    (hstale : ∀ vote, node'.persistedPrecommit = some vote →
      ¬ vote.At node'.height node'.round) : OneTarget cfg node' := by
  have hbefore : ∀ b ∈ node.broadcasts, b.vote.Before node'.height node'.round := by
    intro b hb
    have hpast := h.past b hb
    unfold ValidatorVoteRecord.Before ValidatorVoteRecord.At at *
    omega
  refine ⟨?_, ?_, ?_, ?_, ?_, ?_, ?_⟩
  · rw [hsent, hhanded]
    exact h.handed
  · rw [hsent]
    exact h.kind
  · rw [hsent]
    exact fun b hb => Or.inl (hbefore b hb)
  · rw [hsent]
    intro b hb hindex
    rcases hlater with hlt | ⟨heq, -, hreset⟩
    · have hpast := h.past b hb
      unfold ValidatorVoteRecord.Before ValidatorVoteRecord.At at hpast
      omega
    · rw [hreset]
      exact h.settled b hb (hindex.trans heq.symm)
  · rw [hsent]
    intro b hb _ hat
    have hlt := hbefore b hb
    unfold ValidatorVoteRecord.Before ValidatorVoteRecord.At at *
    omega
  · intro vote hvote _ hat
    exact absurd hat (hstale vote hvote)
  · rw [hsent]
    exact h.unique

/-- The height reset is only due where nothing has left. -/
theorem resetForHeight (h : OneTarget cfg node) : OneTarget cfg node.resetForHeight := by
  unfold Node.resetForHeight
  split_ifs with hpending hzero
  · have hnone : ∀ b ∈ node.broadcasts, b.vote.blockIndex ≠ node.height := by
      intro b hb hindex
      rw [h.settled b hb hindex] at hpending
      cases hpending
    refine ⟨h.handed, h.kind, h.past, fun b hb hindex => absurd hindex (hnone b hb),
      fun b hb _ hat => absurd hat.1 (hnone b hb), ?_, h.unique⟩
    intro vote hvote
    cases hvote
  · refine h.frame rfl (fun _ hv => hv) rfl rfl (fun _ => by simp [Node.resetPending, Node.height])
      (fun hnil => hnil.congr rfl rfl rfl rfl rfl rfl rfl) h.alone
  · exact h

/-- What a vote that left in the current round says about the node. -/
theorem sent_now (h : OneTarget cfg node) (hmem : VoteMemory node) {b : Broadcast}
    (hb : b ∈ node.broadcasts) (hat : b.vote.At node.height node.round) :
    (node.votedPrevote = true ∧ node.persistedPrevote = some b.vote ∧
        b.vote.decision = .prevote) ∨
    (node.votedPrecommit = true ∧ node.persistedPrecommit = some b.vote ∧
        node.votedPrevote = true ∧ ¬ node.HoldsPrevote) ∨
    (NilCast cfg node ∧ b.vote.IsNil) := by
  rcases h.kind b hb with ⟨phase, hphase⟩ | hnil
  · obtain ⟨hvoted, hheld⟩ := hmem.handed_kept phase b.vote (h.handed b hb) hphase hat
    cases phase with
    | prevote => exact Or.inl ⟨hvoted, hheld, hphase⟩
    | precommit =>
      exact Or.inr (Or.inl ⟨hvoted, hheld, h.alone b.vote hheld hphase hat⟩)
  · exact Or.inr (Or.inr ⟨h.nilCast b hb hnil.2.2.1 hat, hnil⟩)

/-- Before the PREVOTE of a round only a nil PRECOMMIT can have left. -/
theorem nil_of_unvoted (h : OneTarget cfg node) (hmem : VoteMemory node)
    (hvoted : node.votedPrevote = false) {b : Broadcast} (hb : b ∈ node.broadcasts)
    (hat : b.vote.At node.height node.round) : NilCast cfg node ∧ b.vote.IsNil := by
  rcases h.sent_now hmem hb hat with ⟨hprevoted, -⟩ | ⟨-, -, hprevoted, -⟩ | hnil
  · rw [hvoted] at hprevoted
    cases hprevoted
  · rw [hvoted] at hprevoted
    cases hprevoted
  · exact hnil

end OneTarget

theorem NilCast.not_of_free {cfg : LoopConfig} {node : Node} (hvoted : node.votedPrecommit = false) :
    ¬ NilCast cfg node := by
  intro hnil
  rw [hnil.precommitted] at hvoted
  cases hvoted

/-- After a nil PRECOMMIT no PREVOTE is saved. -/
theorem NilCast.not_of_prevote {cfg : LoopConfig} {registry : ValidatorRegistry}
    {candidate : PendingBlockCandidate} {node : Node} {vote : ValidatorVoteRecord}
    {file : Option ConsensusRoundState} (hon : OnCandidate cfg registry candidate node)
    (hsafe : node.safeToVote cfg registry candidate = true)
    (hfile : Node.SavedAs cfg (node.withPrevote vote) file) : ¬ NilCast cfg node := by
  rintro ⟨-, -, ⟨nilVote, hheld, hreject⟩, current, hcurrent, hnotSafe⟩
  rcases hfile with ⟨-, hvalid, -⟩ | ⟨hpath, -⟩
  · have hinvalid : (node.withPrevote vote).recoveryState.isValid = false :=
      Node.recoveryState_invalid_of_nil_precommit hheld hreject
    rw [hinvalid] at hvalid
    cases hvalid
  · rw [hon.candidate_eq] at hcurrent
    cases hcurrent
    rw [hnotSafe hpath registry hon.registry_eq] at hsafe
    cases hsafe

/-- The two ways in which the loop asks for the current candidate agree. -/
theorem Node.hasCurrentCandidate_of_currentCandidate (node : Node)
    {candidate : PendingBlockCandidate} (h : node.currentCandidate = some candidate) :
    node.hasCurrentCandidate = true := by
  obtain ⟨hpending, hcurrent⟩ := Option.filter_eq_some_iff.mp h
  unfold hasCurrentCandidate
  rw [hpending, Option.any_some, Bool.and_comm]
  exact hcurrent

/-- **Step lemma.** Every admitted effect keeps one target a round. -/
theorem oneTarget_effect {cfg : LoopConfig} {input : TickInput} {branch : Branch}
    {node node' : Node} (hadmits : (singleVoteRounds cfg).admits input branch node)
    (h : Effect cfg input branch node node') (hmem : VoteMemory node) (hone : OneTarget cfg node) :
    OneTarget cfg node' := by
  cases h with
  | deliver hvote =>
    exact hone.frame rfl (fun _ hv => hv) rfl rfl (fun hr => hr)
      (fun hnil => hnil.congr rfl rfl rfl rfl rfl rfl rfl) hone.alone
  | adopt candidate buffered bufferedHeight bufferedRound hcandidate hbuffered =>
    refine hone.frame rfl (fun _ hv => hv) rfl rfl (fun hr => hr) (fun hnil => ?_) hone.alone
    rcases hcandidate with rfl | ⟨hfree, -⟩
    · exact hnil.congr rfl rfl rfl rfl rfl rfl rfl
    · obtain ⟨current, hcurrent, -⟩ := hnil.candidate
      rw [node.hasCurrentCandidate_of_currentCandidate hcurrent] at hfree
      cases hfree
  | reset => exact hone.resetForHeight
  | @nilPrevote _ signer hsigner hcandidate hsettled hvoted =>
    refine hone.frame rfl (fun _ hv => List.mem_append_left _ hv) rfl rfl (fun hr => hr) ?_ ?_
    · intro hnil
      obtain ⟨current, hcurrent, -⟩ := hnil.candidate
      rw [hcandidate] at hcurrent
      cases hcurrent
    · intro vote hvote hdecision hat
      rw [(hone.alone vote hvote hdecision hat).1] at hvoted
      cases hvoted
  | @nilPrecommit _ signer hsigner hcandidate hsettled hprevoted hvoted =>
    refine hone.frame rfl (fun _ hv => List.mem_append_left _ hv) rfl rfl (fun hr => hr) ?_ ?_
    · intro hnil
      exact absurd hnil (NilCast.not_of_free hvoted)
    · intro vote hvote hdecision
      cases hvote
      cases hdecision
  | @rebroadcastPrevote _ registry candidate vote cast hon hpersisted hfresh hmatch =>
    obtain ⟨hat, hdecision⟩ := persistedVoteMatchesCandidate_spec hon hmatch
    have hvoted : node.votedPrevote = true :=
      hmem.persisted_voted .prevote vote hpersisted hdecision hat
    refine hone.send cast rfl rfl rfl rfl hat hon.settled
      (Or.inl ⟨.prevote, hdecision⟩) ?_ (fun hnil => hnil.congr rfl rfl rfl rfl rfl rfl rfl) ?_
      hone.alone
    · intro b hb hcurrent
      rcases hone.sent_now hmem hb hcurrent with ⟨-, hheld, -⟩ | ⟨-, -, -, hfree⟩ | ⟨hnil, -⟩
      · rw [hpersisted] at hheld
        rw [← Option.some.inj hheld]
        exact sameVoteTarget_iff.mpr ⟨rfl, rfl, rfl, rfl⟩
      · exact absurd ⟨vote, hpersisted, hdecision, hat⟩ hfree
      · rw [hnil.prevoted] at hvoted
        cases hvoted
    · intro hreject
      rw [hdecision] at hreject
      cases hreject
  | @rebroadcastPrecommit _ registry candidate vote cast hon hpersisted hfresh hmatch =>
    obtain ⟨hat, hdecision⟩ := persistedVoteMatchesCandidate_spec hon hmatch
    refine hone.send cast rfl rfl rfl rfl hat hon.settled
      (Or.inl ⟨.precommit, hdecision⟩) ?_ (fun hnil => hnil.congr rfl rfl rfl rfl rfl rfl rfl) ?_
      hone.alone
    · intro b hb hcurrent
      rcases hone.sent_now hmem hb hcurrent with ⟨-, hheld, hprevote⟩ | ⟨-, hheld, -⟩ | ⟨hnil, -⟩
      · obtain ⟨-, hfree⟩ := hone.alone vote hpersisted hdecision hat
        exact absurd ⟨b.vote, hheld, hprevote, hcurrent⟩ hfree
      · rw [hpersisted] at hheld
        rw [← Option.some.inj hheld]
        exact sameVoteTarget_iff.mpr ⟨rfl, rfl, rfl, rfl⟩
      · obtain ⟨other, hother, hreject⟩ := hnil.persisted
        rw [hpersisted] at hother
        rw [← Option.some.inj hother, hdecision] at hreject
        cases hreject
    · intro hreject
      rw [hdecision] at hreject
      cases hreject
  | count hon htally =>
    exact hone.frame rfl (fun _ hv => hv) rfl rfl (fun hr => hr)
      (fun hnil => hnil.congr rfl rfl rfl rfl rfl rfl rfl) hone.alone
  | @castPrevote _ registry candidate signer vote file cast tally hon hsigner heligible hvoted hsafe
      hbuild hfile htally hcounted =>
    obtain ⟨hat, hdecision⟩ := buildPrevote_at hon hbuild
    have hnone : ¬ NilCast cfg node := NilCast.not_of_prevote hon hsafe hfile
    refine hone.send cast rfl rfl rfl rfl hat hon.settled
      (Or.inl ⟨.prevote, hdecision⟩) ?_ (fun hnil => absurd hnil hnone) ?_ ?_
    · intro b hb hcurrent
      exact absurd (hone.nil_of_unvoted hmem hvoted hb hcurrent).1 hnone
    · intro hreject
      rw [hdecision] at hreject
      cases hreject
    · intro other hother hprecommit hcurrent
      rw [(hone.alone other hother hprecommit hcurrent).1] at hvoted
      cases hvoted
  | @prevoteNotSaved _ registry candidate signer vote file hon hsigner heligible hvoted hsafe hbuild
      hfile =>
    refine hone.frame rfl (fun _ hv => hv) rfl rfl (fun hr => hr)
      (fun hnil => hnil.congr rfl rfl rfl rfl rfl rfl rfl) ?_
    intro other hother hprecommit hcurrent
    rw [(hone.alone other hother hprecommit hcurrent).1] at hvoted
    cases hvoted
  | @castPrecommit _ registry candidate signer vote file required cast hon hsigner heligible
      hprevoted hvoted hcounted hrequired hquorum hbuild hfile =>
    obtain ⟨hat, hdecision⟩ := buildPrecommit_at hon hbuild
    have hfree : ¬ node.HoldsPrevote := hadmits ⟨hprevoted, hvoted, registry, signer, required,
      hon.registry_eq, hsigner, heligible, hrequired, hquorum⟩
    refine hone.send cast rfl rfl rfl rfl hat hon.settled
      (Or.inl ⟨.precommit, hdecision⟩) ?_
      (fun hnil => absurd hnil (NilCast.not_of_free hvoted)) ?_ (fun _ _ _ _ => ⟨hprevoted, hfree⟩)
    · intro b hb hcurrent
      rcases hone.sent_now hmem hb hcurrent with
        ⟨-, hheld, hprevote⟩ | ⟨hprecommitted, -⟩ | ⟨hnil, -⟩
      · exact absurd ⟨b.vote, hheld, hprevote, hcurrent⟩ hfree
      · rw [hvoted] at hprecommitted
        cases hprecommitted
      · exact absurd hnil (NilCast.not_of_free hvoted)
    · intro hreject
      rw [hdecision] at hreject
      cases hreject
  | @precommitNotSaved _ registry candidate signer vote file required hon hsigner heligible hprevoted
      hvoted hcounted hrequired hquorum hbuild hfile =>
    refine hone.frame rfl (fun _ hv => hv) rfl rfl (fun hr => hr)
      (fun hnil => absurd hnil (NilCast.not_of_free hvoted)) ?_
    intro other hother
    cases hother
  | @nilPrecommitOnCandidate _ registry candidate signer cast hon hsigner heligible hprevoted hvoted
      htimeout habstained =>
    have hnone : ¬ NilCast cfg node := NilCast.not_of_free hvoted
    cases cast with
    | false =>
      exact hone.frame rfl (fun _ hv => List.mem_append_left _ hv) rfl rfl (fun hr => hr)
        (fun hnil => absurd hnil hnone) hone.alone
    | true =>
      have hnil : (node.nilVote signer input.now).IsNil := ⟨rfl, rfl, rfl, rfl⟩
      refine hone.send true rfl rfl rfl rfl
        (nilVote_at node signer input.now) hon.settled (Or.inr hnil) ?_
        (fun h => absurd h hnone) ?_ ?_
      · intro b hb hcurrent
        exact absurd (hone.nil_of_unvoted hmem hprevoted hb hcurrent).1 hnone
      · intro _
        refine ⟨hprevoted, rfl, ⟨_, rfl, rfl⟩, candidate, hon.candidate_eq, ?_⟩
        intro hpath other hother
        have hregistry : cfg.validatorSets node.height = some other := hother
        rw [hon.registry_eq] at hregistry
        cases hregistry
        exact habstained hpath signer hsigner heligible hprevoted
      · intro vote hvote hdecision
        cases hvote
        cases hdecision
  | certify hon hcertificate =>
    exact hone.frame rfl (fun _ hv => hv) rfl rfl (fun hr => hr)
      (fun hnil => hnil.congr rfl rfl rfl rfl rfl rfl rfl) hone.alone
  | finalize hon hfinalized hfile =>
    refine hone.move rfl rfl (Or.inl (Nat.lt_succ_self _)) (fun vote hvote hat => ?_)
    have hpast := hmem.persisted_past .precommit vote hvote
    have hindex : vote.blockIndex = node.height + 1 := hat.1
    unfold ValidatorVoteRecord.Before ValidatorVoteRecord.At at hpast
    omega
  | commitFailed hstorage hvalid =>
    exact hone.frame rfl (fun _ hv => hv) rfl rfl (fun hr => hr)
      (fun hnil => hnil.congr rfl rfl rfl rfl rfl rfl rfl) hone.alone
  | advanceRound =>
    refine hone.move rfl rfl (Or.inr ⟨rfl, Nat.lt_succ_self _, rfl⟩) (fun vote hvote => ?_)
    cases hvote

--
-- Whole runs
--

/-- The memory of the loop without its file: a run that does not crash needs no
recovery path. -/
theorem voteMemory_crashFree {cfg : LoopConfig} (cond : RunCondition) (hcrash : ¬ cond.crash) :
    RunInvariant cfg cond VoteMemory := by
  refine ⟨?_, ?_, ?_, ?_, ?_⟩
  · exact fun _ hinit => voteMemory_initial hinit
  · exact fun _ _ _ _ _ heffect hmem => voteMemory_effect heffect hmem
  · exact fun _ _ hadmissible _ hmem => voteMemory_sync hadmissible hmem
  · exact fun _ _ _ _ _ hmem => hmem.frame rfl rfl rfl rfl rfl rfl rfl
  · exact fun _ _ _ hmeets => absurd hmeets hcrash

theorem oneTarget_invariant (cfg : LoopConfig) :
    RunInvariantUnder cfg (singleVoteRounds cfg) VoteMemory (OneTarget cfg) := by
  refine ⟨?_, ?_, ?_, ?_, ?_⟩
  · rintro node ⟨height, round, startedAt, finalized, hvalid, -⟩
    refine ⟨?_, ?_, ?_, ?_, ?_, ?_, ?_⟩
    · intro b hb
      cases hb
    · intro b hb
      cases hb
    · intro b hb
      cases hb
    · intro b hb
      cases hb
    · intro b hb
      cases hb
    · intro vote hvote
      cases hvote
    · intro a ha
      cases ha
  · exact fun _ _ _ _ hadmits heffect hmem hone => oneTarget_effect hadmits heffect hmem hone
  · rintro move node hadmissible - hmem hone
    refine hone.move rfl rfl (Or.inl hadmissible.ahead) (fun vote hvote hat => ?_)
    have hpast := hmem.persisted_past .precommit vote hvote
    have hahead := hadmissible.ahead
    have hindex : vote.blockIndex = move.height := hat.1
    unfold ValidatorVoteRecord.Before ValidatorVoteRecord.At at hpast
    omega
  · rintro height startedAt node - - - hone
    exact hone.frame rfl (fun _ hv => hv) rfl rfl (fun hr => hr)
      (fun hnil => hnil.congr rfl rfl rfl rfl rfl rfl rfl) hone.alone
  · rintro boot node node' hcrash
    exact absurd hcrash id

/-- **Honest validators are not slashable**, in crash-free runs in which no tick
precommits in a round it has prevoted in: evidence built from two votes that
left the node is rejected, whoever verifies it and whenever it was detected, and
a block that carries it is not applied. -/
theorem honest_votes_not_slashable {cfg : LoopConfig} {node : Node}
    (h : Reachable cfg (singleVoteRounds cfg) node) {a b : Broadcast} (ha : a ∈ node.broadcasts)
    (hb : b ∈ node.broadcasts) (crypto : CryptoContext) (detectedAt : Int)
    (validatorSets : Nat → Option ValidatorRegistry) :
    (∀ maximumOffenseHeight, (verifyDoubleVoteEvidenceForHistory crypto
      (DoubleVoteEvidence.ofVotes crypto a.vote b.vote detectedAt) maximumOffenseHeight
      validatorSets).accepted = false) ∧
    ∀ (σ : Type) (rules : SlashingRules σ) blockHeight blockTimestamp chainId records state state',
      (∃ record ∈ records, record.evidence
        = .ok (.doubleVote (DoubleVoteEvidence.ofVotes crypto a.vote b.vote detectedAt))) →
      applyEvidenceRecords rules crypto validatorSets blockHeight blockTimestamp chainId records
        state ≠ .ok state' := by
  obtain ⟨-, hone⟩ := reachable_invariant
    ((voteMemory_crashFree (singleVoteRounds cfg) id).and (oneTarget_invariant cfg)) h
  have hrejected : ∀ maximumOffenseHeight, (verifyDoubleVoteEvidenceForHistory crypto
      (DoubleVoteEvidence.ofVotes crypto a.vote b.vote detectedAt) maximumOffenseHeight
      validatorSets).accepted = false := by
    intro maximumOffenseHeight
    by_contra haccepted
    rw [Bool.not_eq_false] at haccepted
    obtain ⟨hindex, hround, htarget⟩ :=
      DoubleVoteEvidence.ofVotes_conflict (verifyDoubleVoteEvidenceForHistory_conflict haccepted)
    rw [hone.unique a ha b hb hindex hround] at htarget
    cases htarget
  refine ⟨hrejected, ?_⟩
  rintro σ rules blockHeight blockTimestamp chainId records state state' ⟨record, hrecord, hparsed⟩
    happlied
  have hverified := applyEvidenceRecords_verified happlied record hrecord _ hparsed
  have hrejected' := hrejected (blockHeight - 1)
  rw [show (verifyDoubleVoteEvidenceForHistory crypto _ (blockHeight - 1) validatorSets).accepted
    = true from hverified] at hrejected'
  cases hrejected'

/-- Validator `a` prevotes block `B` in round 1, sees it time out, and prevotes it
again in round 2. -/
def twoRoundsNode : Node :=
  (prevotedNode.tick (sampleLoop "a") (sampleTick 21 twentyFirst_pos [] [])).tick (sampleLoop "a")
    (sampleTick 22 (by decide) [] [sampleProposal sampleBlock 2])

/-- The PREVOTE count stays below the quorum of the four validators. -/
def belowQuorum (name : String) (input : TickInput) (node : Node) : Bool :=
  match node.reachPrecommit (sampleLoop name) input with
  | .ok point => point.node.tally.weight < 2666667
  | .error _ => true

theorem Reachable.tick_belowQuorum {name : String} {node : Node} {input : TickInput}
    (h : Reachable (sampleLoop name) (singleVoteRounds (sampleLoop name)) node)
    (hlow : belowQuorum name input node = true) :
    Reachable (sampleLoop name) (singleVoteRounds (sampleLoop name))
      (node.tick (sampleLoop name) input) := by
  refine h.step (Step.tick input ⟨?_, fun _ _ => trivial⟩)
  rintro point hpoint ⟨-, -, registry, -, required, ⟨⟩, -, -, ⟨total, htotal, hrequired⟩, hquorum⟩
  have hweight : sampleRegistry.totalConsensusWeight = some 4000000 := by decide +kernel
  have hthreshold : requiredVotingWeight 4000000 sampleParams.quorumThresholdNumerator
      sampleParams.quorumThresholdDenominator = some 2666667 := by decide +kernel
  rw [hweight] at htotal
  cases htotal
  rw [show requiredVotingWeight 4000000 (sampleLoop name).params.quorumThresholdNumerator
    (sampleLoop name).params.quorumThresholdDenominator = some 2666667 from hthreshold] at hrequired
  cases hrequired
  unfold belowQuorum at hlow
  rw [hpoint] at hlow
  exact absurd (of_decide_eq_true hlow) (UInt64.not_lt.mpr hquorum)

/-- Its two votes are no offense. -/
theorem honest_votes_not_slashable_rounds :
    twoRoundsNode.broadcasts.map (fun b => (b.vote.round, b.vote.decision))
        = [(1, .prevote), (2, .prevote)] ∧
      ∀ a ∈ twoRoundsNode.broadcasts, ∀ b ∈ twoRoundsNode.broadcasts,
        (verifyDoubleVoteEvidenceForHistory sampleCrypto
          (DoubleVoteEvidence.ofVotes sampleCrypto a.vote b.vote 30) 1
          (fun _ => some sampleRegistry)).accepted = false := by
  have hstart : Reachable (sampleLoop "a") (singleVoteRounds (sampleLoop "a")) sampleStart :=
    Reachable.initial (sampleStart_initial "a")
  have hreach : Reachable (sampleLoop "a") (singleVoteRounds (sampleLoop "a")) twoRoundsNode :=
    ((hstart.tick_belowQuorum (by decide +kernel)).tick_belowQuorum
      (by decide +kernel)).tick_belowQuorum (by decide +kernel)
  refine ⟨by decide +kernel, ?_⟩
  intro a ha b hb
  exact (honest_votes_not_slashable hreach ha hb sampleCrypto 30 _).1 1

/-- Every run without crashes. -/
def crashFree : RunCondition := { RunCondition.any with crash := False }

/-- Validator `a` casts a PREVOTE and a PRECOMMIT for block `B`. -/
def bothVotesNode : Node :=
  sampleStart.tick (sampleLoop "a") (sampleTick 6 sixth_pos
    [sampleVote "b" 1 "B" "G" 1 .prevote 6, sampleVote "c" 1 "B" "G" 1 .prevote 6]
    [sampleProposal sampleBlock 1])

/-- The PREVOTE and the PRECOMMIT of an honest validator for one block are
accepted as evidence against it. -/
theorem honest_votes_slashable :
    ∃ node, Reachable (sampleLoop "a") crashFree node ∧
      ∃ a ∈ node.broadcasts, ∃ b ∈ node.broadcasts, a.vote.blockHash = b.vote.blockHash ∧
        (verifyDoubleVoteEvidenceForHistory sampleCrypto
          (DoubleVoteEvidence.ofVotes sampleCrypto a.vote b.vote 30) 1
          (fun _ => some sampleRegistry)).accepted = true := by
  have hreach : Reachable (sampleLoop "a") crashFree bothVotesNode :=
    (Reachable.initial (sampleStart_initial "a")).step
      (Step.tick _ ⟨fun _ _ => trivial, fun _ _ => trivial⟩)
  have haccepted : bothVotesNode.broadcasts.any (fun a => bothVotesNode.broadcasts.any (fun b =>
      a.vote.blockHash == b.vote.blockHash &&
        (verifyDoubleVoteEvidenceForHistory sampleCrypto
          (DoubleVoteEvidence.ofVotes sampleCrypto a.vote b.vote 30) 1
          (fun _ => some sampleRegistry)).accepted)) = true := by
    decide +kernel
  obtain ⟨a, ha, hinner⟩ := List.any_eq_true.mp haccepted
  obtain ⟨b, hb, hfacts⟩ := List.any_eq_true.mp hinner
  simp only [Bool.and_eq_true, beq_iff_eq] at hfacts
  exact ⟨bothVotesNode, hreach, a, ha, b, hb, hfacts⟩

end Nodo.Model
