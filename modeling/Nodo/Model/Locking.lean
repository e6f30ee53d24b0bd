import Nodo.Model.Network

/-!
# Nodo — locks across a network

The votes of the correct nodes at one height form a log in the order in which
they were handed out. This module says what a node knows of it: what it has
received and counted is backed by the log, and its lock stands up for every
PRECOMMIT it has given, in memory and in the recovery file.

## Results

* `Informed.prevoted` — a PREVOTE count at the threshold is a quorum in the log.
* `excused_of_safe` — the lock rule admits only a block with a quorum behind it
  in a round at least as high as the PRECOMMITs of the node, be it behind the
  lock or behind the certificate that justifies the proposal.
* `memoryKept_effect`, `fileKept_effect` — every effect keeps lock and file.
* `kept_restart` — the recovery file carries the lock over a crash.
-/

namespace Nodo.Model

open LockedVoting

/-- The votes of the correct nodes at one height, latest first. -/
abbrev VoteLog := List (Event String String)

/-- The logged form of a vote. -/
def Phase.event : Phase → String → Nat → String → Event String String
  | .prevote, voter, round, value => .prevote voter round value
  | .precommit, voter, round, value => .precommit voter round value

namespace Network

variable {ι : Type} (net : Network ι)

/-- The validators of the height. -/
def electorate : Electorate String := ⟨net.registry.weightOf, net.registry.members, net.faulty⟩

theorem electorate_minority :
    3 * Quorum.weight net.electorate.w (net.electorate.F ∩ net.electorate.U)
      < Quorum.weight net.electorate.w net.electorate.U :=
  net.minority

/-- A vote under the address of a correct validator is in the log if it is of the
height, and for a valid block in any case. -/
def Backed (log : VoteLog) (vote : ValidatorVoteRecord) : Prop :=
  ∀ i signer, (net.cfg i).signer = some signer → vote.validatorAddress = signer.address →
    ∀ phase : Phase, vote.decision = phase.decision →
      (vote.blockIndex = net.height →
        phase.event signer.address vote.round vote.blockHash ∈ log) ∧
      ∃ block, (net.cfg i).blockIsValid block = true ∧ block.index = vote.blockIndex ∧
        block.hash = vote.blockHash

/-- The verified votes of a proposal's certificate are backed. -/
def BackedProposal (crypto : CryptoContext) (log : VoteLog) (proposal : BlockProposal) : Prop :=
  ∀ certificate, proposal.justification = some certificate → ∀ vote ∈ certificate.votes,
    vote.verify crypto = true → net.Backed log vote

/-- The log has the votes of node `i`, and no others under its address. -/
structure Linked (i : ι) (log : VoteLog) (node : Node) : Prop where
  logged : ∀ signer, (net.cfg i).signer = some signer → ∀ phase : Phase, ∀ vote ∈ node.handed,
    vote.decision = phase.decision → vote.blockIndex = net.height →
      phase.event signer.address vote.round vote.blockHash ∈ log
  handed : ∀ signer, (net.cfg i).signer = some signer → ∀ (phase : Phase) round value,
    phase.event signer.address round value ∈ log → ∃ vote ∈ node.handed,
      vote.decision = phase.decision ∧ vote.blockIndex = net.height ∧ vote.round = round ∧
        vote.blockHash = value

/-- The votes of a pool are backed. -/
structure BackedPool (log : VoteLog) (pool : VotePool) : Prop where
  invariant : PoolInvariant pool
  backed : ∀ index hash round, ∀ vote ∈ pool.votesForBlock index hash round, net.Backed log vote

/-- What node `i` has received and counted is backed by the log. -/
structure Informed (i : ι) (log : VoteLog) (node : Node) : Prop where
  pool : net.BackedPool log node.pool
  candidate : ∀ candidate, node.pendingCandidate = some candidate →
    net.BackedProposal (net.cfg i).crypto log candidate.proposal
  buffered : ∀ proposal ∈ node.bufferedProposals,
    net.BackedProposal (net.cfg i).crypto log proposal
  tally : node.tally.height = net.height → node.tally.voters.Nodup ∧
    ∀ address ∈ node.tally.voters, ∀ j signer, (net.cfg j).signer = some signer →
      address = signer.address →
      Event.prevote address node.tally.round node.tally.blockHash ∈ log
  certified : ∀ certificate ∈ node.certified, certificate.blockIndex = net.height →
    net.electorate.Precommitted log certificate.round certificate.blockHash

/-- A lock, with the PREVOTE slot next to it, stands up for a PRECOMMIT: it is of
a round at least as high and has a quorum behind it, and so has the PREVOTE. -/
structure Covered (log : VoteLog) (vote : ValidatorVoteRecord) (lockedBlock : String)
    (lockedRound : Nat) (slot : ValidatorVoteRecord → Prop) : Prop where
  prevoted : net.electorate.Prevoted log vote.round vote.blockHash
  round_le : vote.round ≤ lockedRound
  locked : lockedBlock ≠ ""
  justified : net.electorate.Prevoted log lockedRound lockedBlock
  excused : ∀ prevote, slot prevote → ∃ excuse ≥ vote.round,
    net.electorate.Prevoted log excuse prevote.blockHash

/-- The lock of the loop covers the PRECOMMITs it knows. -/
def MemoryKept (log : VoteLog) (node : Node) : Prop :=
  node.height = net.height → ∀ vote, node.Known .precommit vote → vote.blockIndex = net.height →
    net.Covered log vote node.lockedBlock node.lockedRound (fun prevote =>
      node.persistedPrevote = some prevote ∧ prevote.decision = .prevote ∧
        prevote.At node.height node.round)

/-- So does the lock of the recovery file. -/
def FileKept (log : VoteLog) (node : Node) : Prop :=
  ∀ state, node.recoveryFile = some state → state.isValid = true → state.height = net.height →
    ∀ vote, (node.Known .precommit vote ∨ state.persistedPrecommit = some vote) →
      vote.blockIndex = net.height →
      net.Covered log vote state.lockedBlockHash state.lockedRound (fun prevote =>
        state.persistedPrevote = some prevote)

--
-- The log grows
--

variable {net}

theorem Backed.mono {log log' : VoteLog} {vote : ValidatorVoteRecord} (h : net.Backed log vote)
    (hlog : ∀ event ∈ log, event ∈ log') : net.Backed log' vote := by
  intro i signer hsigner haddress phase hdecision
  obtain ⟨hin, hblock⟩ := h i signer hsigner haddress phase hdecision
  exact ⟨fun hindex => hlog _ (hin hindex), hblock⟩

theorem BackedProposal.mono {crypto : CryptoContext} {log log' : VoteLog}
    {proposal : BlockProposal} (h : net.BackedProposal crypto log proposal)
    (hlog : ∀ event ∈ log, event ∈ log') : net.BackedProposal crypto log' proposal :=
  fun certificate hjustified vote hvote hverified =>
    (h certificate hjustified vote hvote hverified).mono hlog

theorem BackedPool.mono {log log' : VoteLog} {pool : VotePool} (h : net.BackedPool log pool)
    (hlog : ∀ event ∈ log, event ∈ log') : net.BackedPool log' pool :=
  ⟨h.invariant, fun index hash round vote hvote => (h.backed index hash round vote hvote).mono hlog⟩

theorem Covered.mono {log log' : VoteLog} {vote : ValidatorVoteRecord} {lockedBlock : String}
    {lockedRound : Nat} {slot slot' : ValidatorVoteRecord → Prop}
    (h : net.Covered log vote lockedBlock lockedRound slot)
    (hlog : ∀ event ∈ log, event ∈ log') (hslot : ∀ prevote, slot' prevote → slot prevote) :
    net.Covered log' vote lockedBlock lockedRound slot' := by
  refine ⟨h.prevoted.mono hlog, h.round_le, h.locked, h.justified.mono hlog, ?_⟩
  intro prevote hprevote
  obtain ⟨excuse, hge, hexcuse⟩ := h.excused prevote (hslot prevote hprevote)
  exact ⟨excuse, hge, hexcuse.mono hlog⟩

theorem Informed.mono {i : ι} {log log' : VoteLog} {node : Node} (h : net.Informed i log node)
    (hlog : ∀ event ∈ log, event ∈ log') : net.Informed i log' node := by
  refine ⟨h.pool.mono hlog, ?_, ?_, ?_, ?_⟩
  · exact fun candidate hcandidate => (h.candidate candidate hcandidate).mono hlog
  · exact fun proposal hproposal => (h.buffered proposal hproposal).mono hlog
  · intro hheight
    obtain ⟨hnodup, hvoters⟩ := h.tally hheight
    exact ⟨hnodup, fun address haddress j signer hsigner heq =>
      hlog _ (hvoters address haddress j signer hsigner heq)⟩
  · exact fun certificate hcertificate hindex =>
      (h.certified certificate hcertificate hindex).mono hlog

--
-- Quorums
--

theorem registry_eq {i : ι} {registry : ValidatorRegistry} {candidate : PendingBlockCandidate}
    {node : Node} (hon : OnCandidate (net.cfg i) registry candidate node)
    (hheight : node.height = net.height) : registry = net.registry := by
  have hset := hon.registry_eq
  rw [hheight, net.shared i] at hset
  exact (Option.some.inj hset).symm

/-- A tally that reaches the threshold has a quorum of PREVOTEs behind it. -/
theorem Informed.prevoted {i : ι} {log : VoteLog} {node : Node} (h : net.Informed i log node)
    (hheight : node.height = net.height) {registry : ValidatorRegistry}
    {candidate : PendingBlockCandidate} {required : UInt64}
    (hon : OnCandidate (net.cfg i) registry candidate node)
    (hcounted : Counted registry candidate node)
    (hrequired : RequiredOf (net.cfg i) registry required)
    (hquorum : required ≤ node.tally.weight) :
    net.electorate.Prevoted log node.round candidate.block.hash := by
  obtain rfl := registry_eq hon hheight
  obtain ⟨hnodup, hvoters⟩ := h.tally (hcounted.height.trans hheight)
  obtain ⟨total, htotal, hthreshold⟩ := hrequired
  obtain ⟨-, hthreshold⟩ := Guards.some_of_ite_none hthreshold
  refine ⟨node.tally.voters.toFinset ∩ net.registry.members, ?_, ?_⟩
  · show Quorum.IsQuorum net.registry.weightOf net.registry.members _
    have hweightless : ∀ a ∈ node.tally.voters.toFinset, a ∉ net.registry.members →
        net.registry.weightOf a = 0 := by
      intro a _ hout
      by_contra hweight
      refine hout (ValidatorRegistry.mem_members_of_weight_ne_zero (fun hzero => hweight ?_))
      rw [ValidatorRegistry.weightOf, hzero]
      rfl
    have hweight : Quorum.weight net.registry.weightOf node.tally.voters.toFinset
        = node.tally.weight.toNat := by
      rw [Quorum.weight, List.sum_toFinset _ hnodup, hcounted.weight]
    rw [Quorum.isQuorum_iff_floor_lt Finset.inter_subset_right, Quorum.weight_inter_eq hweightless,
      hweight, ← ValidatorRegistry.totalConsensusWeight_toNat htotal,
      ← requiredWeight_toNat hthreshold, ← UInt64.le_iff_toNat_le]
    exact hquorum
  · intro a ha hcorrect
    obtain ⟨hvoter, hmember⟩ := Finset.mem_inter.mp ha
    obtain ⟨j, signer, hsigner, haddress⟩ := net.correct a hmember hcorrect
    have hevent := hvoters a (List.mem_toFinset.mp hvoter) j signer hsigner haddress.symm
    rw [hcounted.round, hcounted.blockHash] at hevent
    exact hevent

section Certificates

variable {crypto : CryptoContext} {log : VoteLog} {certificate : QuorumCertificate}

/-- The vote of a correct member of a certificate. -/
theorem certificate_vote (hverified : certificate.Verified crypto net.registry)
    (hbacked : ∀ vote ∈ certificate.votes, vote.verify crypto = true → net.Backed log vote)
    {address : String} (hvoter : address ∈ certificate.voters.toFinset)
    (hcorrect : address ∉ net.faulty) :
    (certificate.blockIndex = net.height →
      Event.precommit address certificate.round certificate.blockHash ∈ log) ∧
    ∃ j block, (net.cfg j).blockIsValid block = true ∧ block.index = certificate.blockIndex ∧
      block.hash = certificate.blockHash := by
  have hmember := hverified.quorum.1 hvoter
  obtain ⟨vote, hvote, rfl⟩ := List.mem_map.mp (List.mem_toFinset.mp hvoter)
  have hcounted := hverified.counted vote hvote
  obtain ⟨hindex, hhash, hround⟩ := ValidatorVoteRecord.matchesBlock_iff.mp hcounted.matchesBlock
  obtain ⟨j, signer, hsigner, haddress⟩ := net.correct _ hmember hcorrect
  obtain ⟨hin, block, hblock, hblockIndex, hblockHash⟩ :=
    hbacked vote hvote hcounted.verified j signer hsigner haddress.symm .precommit
      hcounted.precommit
  rw [hindex] at hblockIndex hin
  rw [hhash] at hblockHash hin
  rw [hround, haddress] at hin
  exact ⟨hin, j, block, hblock, hblockIndex, hblockHash⟩

/-- A certificate of the height is a quorum of PRECOMMITs. -/
theorem certificate_precommitted (hverified : certificate.Verified crypto net.registry)
    (hbacked : ∀ vote ∈ certificate.votes, vote.verify crypto = true → net.Backed log vote)
    (hindex : certificate.blockIndex = net.height) :
    net.electorate.Precommitted log certificate.round certificate.blockHash :=
  ⟨_, hverified.quorum, fun _ hvoter hcorrect =>
    (certificate_vote hverified hbacked hvoter hcorrect).1 hindex⟩

/-- A certificate is for a block that some correct node found valid. -/
theorem certificate_block (hverified : certificate.Verified crypto net.registry)
    (hbacked : ∀ vote ∈ certificate.votes, vote.verify crypto = true → net.Backed log vote) :
    ∃ j block, (net.cfg j).blockIsValid block = true ∧ block.index = certificate.blockIndex ∧
      block.hash = certificate.blockHash := by
  obtain ⟨address, hvoter, -, -, hcorrect⟩ :=
    Quorum.exists_correct_of_quorums net.minority hverified.quorum hverified.quorum
  exact (certificate_vote hverified hbacked hvoter hcorrect).2

end Certificates

/-- **The lock rule.** A candidate that is safe to vote for has a quorum behind it
in a round at least as high as every PRECOMMIT the node knows. -/
theorem excused_of_safe {i : ι} {log : VoteLog} {node : Node} (hlawful : net.electorate.Lawful log)
    (hinformed : net.Informed i log node) (hkept : net.MemoryKept log node)
    (hheight : node.height = net.height) {registry : ValidatorRegistry}
    {candidate : PendingBlockCandidate} (hon : OnCandidate (net.cfg i) registry candidate node)
    (hblock : (net.cfg i).blockIsValid candidate.block = true)
    (hsafe : node.safeToVote (net.cfg i) registry candidate = true) {vote : ValidatorVoteRecord}
    (hknown : node.Known .precommit vote) (hindex : vote.blockIndex = net.height) :
    ∃ excuse ≥ vote.round, net.electorate.Prevoted log excuse candidate.block.hash := by
  obtain rfl := registry_eq hon hheight
  have hcovered := hkept hheight vote hknown hindex
  unfold Node.safeToVote at hsafe
  by_cases hlocked : candidate.block.hash = node.lockedBlock
  · exact ⟨node.lockedRound, hcovered.round_le, hlocked ▸ hcovered.justified⟩
  · rw [if_neg (by simp [hcovered.locked, hlocked])] at hsafe
    split_ifs at hsafe with hround
    unfold permitsUnlock at hsafe
    rw [if_neg (Nat.not_le.mpr hround)] at hsafe
    cases hjustified : candidate.proposal.justification with
    | none =>
      rw [hjustified] at hsafe
      cases hsafe
    | some certificate =>
      rw [hjustified] at hsafe
      simp only [Bool.and_eq_true, decide_eq_true_eq, beq_iff_eq] at hsafe
      obtain ⟨⟨⟨-, hverify⟩, hge⟩, hhash⟩ := hsafe
      have hverified := QuorumCertificate.verify_spec hverify
      have hpending := (Option.filter_eq_some_iff.mp hon.candidate_eq).1
      have hbacked := hinformed.candidate candidate hpending certificate hjustified
      -- the certificate is of this height, because the block is
      obtain ⟨j, block, hvalid, hblockIndex, hblockHash⟩ := certificate_block hverified hbacked
      have hsame := net.collisionFree j i block candidate.block hvalid hblock
        (hblockHash.trans hhash)
      have hcertified := certificate_precommitted hverified hbacked
        ((hblockIndex.symm.trans hsame).trans (hon.index_eq.trans hheight))
      rw [hhash] at hcertified
      have hprevoted := hlawful.prevoted_of_precommitted net.electorate_minority hcertified
      exact ⟨certificate.round, hcovered.round_le.trans hge, hprevoted⟩

--
-- The lock in memory
--

namespace MemoryKept

variable {i : ι} {log : VoteLog} {node node' : Node}

theorem mono {log' : VoteLog} (h : net.MemoryKept log node) (hlog : ∀ event ∈ log, event ∈ log') :
    net.MemoryKept log' node :=
  fun hheight vote hknown hindex => (h hheight vote hknown hindex).mono hlog (fun _ hslot => hslot)

/-- The lock stays, and neither PRECOMMITs nor a PREVOTE are new. -/
theorem frame (h : net.MemoryKept log node) (hheight : node'.height = node.height)
    (hblock : node'.lockedBlock = node.lockedBlock) (hround : node'.lockedRound = node.lockedRound)
    (hknown : ∀ phase vote, node'.Known phase vote → node.Known phase vote)
    (hslot : ∀ prevote, node'.persistedPrevote = some prevote → prevote.decision = .prevote →
      prevote.At node'.height node'.round →
        node.persistedPrevote = some prevote ∧ prevote.At node.height node.round) :
    net.MemoryKept log node' := by
  intro hnet vote hvote hindex
  rw [hblock, hround]
  refine (h (hheight.symm.trans hnet) vote (hknown .precommit vote hvote) hindex).mono
    (fun _ he => he) ?_
  rintro prevote ⟨hpersisted, hdecision, hat⟩
  obtain ⟨hold, hat'⟩ := hslot prevote hpersisted hdecision hat
  exact ⟨hold, hdecision, hat'⟩

/-- At a height above all known votes there is nothing to cover. -/
theorem later (hmem : VoteMemory node) (hahead : node.height < node'.height)
    (hknown : ∀ phase vote, node'.Known phase vote → node.Known phase vote) :
    net.MemoryKept log node' := by
  intro hnet vote hvote hindex
  have hpast := hmem.known_past (hknown .precommit vote hvote)
  unfold ValidatorVoteRecord.Before ValidatorVoteRecord.At at hpast
  omega

/-- The reset drops the lock only where no PRECOMMIT is known. -/
theorem resetForHeight (h : net.MemoryKept log node) (hmem : VoteMemory node) :
    net.MemoryKept log node.resetForHeight := by
  unfold Node.resetForHeight
  split_ifs with hpending hzero
  · intro hnet vote hvote hindex
    obtain ⟨hhanded | hslot, hdecision⟩ := hvote
    · have hsettled := hmem.handed_settled .precommit vote hhanded hdecision (hindex.trans hnet.symm)
      rw [hsettled] at hpending
      cases hpending
    · cases hslot
  · exact h
  · exact h

/-- A node that saves a PREVOTE has an excuse for it, and one that saves a
PRECOMMIT has moved its lock there. -/
theorem attempt (h : net.MemoryKept log node) (hlawful : net.electorate.Lawful log)
    (hinformed : net.Informed i log node) (hmem : VoteMemory node) {input : TickInput}
    {attempt : Node} (hattempt : Attempt (net.cfg i) input node attempt)
    (hvalid : attempt.recoveryState.isValid = true) : net.MemoryKept log attempt := by
  cases hattempt with
  | @prevote registry candidate signer fresh hon hsigner hvoted hsafe hbuild =>
    obtain ⟨hblock, -, hfresh⟩ := buildPrevote_spec hbuild
    intro hnet vote hvote hindex
    obtain ⟨hprevoted, hle, hlocked, hjustified, -⟩ := h hnet vote hvote hindex
    refine ⟨hprevoted, hle, hlocked, hjustified, ?_⟩
    rintro prevote ⟨hslot, -, -⟩
    obtain rfl : fresh = prevote := Option.some.inj hslot
    have hexcuse := excused_of_safe hlawful hinformed h hnet hon hblock hsafe hvote hindex
    rw [hfresh]
    exact hexcuse
  | @precommit registry candidate signer fresh required hon hsigner hvoted hcounted hrequired
      hquorum hbuild =>
    obtain ⟨hblock, -, hfresh⟩ := buildPrecommit_spec hbuild
    have hhash : fresh.blockHash = candidate.block.hash := by rw [hfresh]; rfl
    have hround : fresh.round = node.round := by rw [hfresh]; rfl
    intro hnet vote hvote hindex
    have hpolka := hinformed.prevoted hnet hon hcounted hrequired hquorum
    have hnonempty := ((net.cfg i).blockIsValid_hashes hblock).1
    -- the fresh vote is covered by the tally, the others by the old lock
    by_cases heq : vote = fresh
    · subst heq
      refine ⟨by rw [hround, hhash]; exact hpolka, hround.le, hnonempty, hpolka, ?_⟩
      rintro prevote ⟨hslot, -, -⟩
      refine ⟨node.round, hround.le, ?_⟩
      rw [ConsensusRoundState.isValid_same_block hvalid hslot rfl, hhash]
      exact hpolka
    · have hold : node.Known .precommit vote := by
        obtain ⟨hhanded | hslot, hdecision⟩ := hvote
        · exact ⟨Or.inl hhanded, hdecision⟩
        · exact absurd (Option.some.inj hslot).symm heq
      obtain ⟨hprevoted, -, -, -, hexcused⟩ := h hnet vote hold hindex
      have hpast := hmem.known_past hold
      have hheight : node.height = net.height := hnet
      have hle : vote.round ≤ node.round := by
        unfold ValidatorVoteRecord.Before ValidatorVoteRecord.At at hpast
        omega
      exact ⟨hprevoted, hle, hnonempty, hpolka, hexcused⟩

end MemoryKept

/-- **Step lemma, lock.** Every effect keeps the PRECOMMITs covered. -/
theorem memoryKept_effect {i : ι} {log : VoteLog} {input : TickInput} {branch : Branch}
    {node node' : Node} (h : Effect (net.cfg i) input branch node node')
    (hlawful : net.electorate.Lawful log) (hinformed : net.Informed i log node)
    (hmem : VoteMemory node) (hkept : net.MemoryKept log node) : net.MemoryKept log node' := by
  cases h with
  | deliver hvote => exact hkept.frame rfl rfl rfl (fun _ _ h => h) (fun _ h _ hat => ⟨h, hat⟩)
  | adopt candidate buffered bufferedHeight bufferedRound hcandidate hbuffered =>
    exact hkept.frame rfl rfl rfl (fun _ _ h => h) (fun _ h _ hat => ⟨h, hat⟩)
  | reset => exact hkept.resetForHeight hmem
  | @nilPrevote _ signer hsigner hcandidate hsettled hvoted =>
    refine hkept.frame rfl rfl rfl ?_ ?_
    · refine known_of_nil (nilVote_not_phase node signer input.now) rfl (fun phase => ?_)
      cases phase with
      | prevote => exact Or.inr rfl
      | precommit => exact Or.inl rfl
    · rintro prevote ⟨⟩ hdecision -
      cases hdecision
  | @nilPrecommit _ signer hsigner hcandidate hsettled hprevoted hvoted =>
    refine hkept.frame rfl rfl rfl ?_ (fun _ h _ hat => ⟨h, hat⟩)
    refine known_of_nil (nilVote_not_phase node signer input.now) rfl (fun phase => ?_)
    cases phase with
    | prevote => exact Or.inl rfl
    | precommit => exact Or.inr rfl
  | rebroadcastPrevote cast hon hpersisted hfresh hmatch =>
    obtain ⟨-, hdecision⟩ := persistedVoteMatchesCandidate_spec hon hmatch
    refine hkept.frame rfl rfl rfl ?_ (fun _ h _ hat => ⟨h, hat⟩)
    refine known_of_hand rfl rfl (fun phase hphase => ?_)
    cases phase with
    | prevote => exact hpersisted
    | precommit => rw [hdecision] at hphase; cases hphase
  | rebroadcastPrecommit cast hon hpersisted hfresh hmatch =>
    obtain ⟨-, hdecision⟩ := persistedVoteMatchesCandidate_spec hon hmatch
    refine hkept.frame rfl rfl rfl ?_ (fun _ h _ hat => ⟨h, hat⟩)
    refine known_of_hand rfl rfl (fun phase hphase => ?_)
    cases phase with
    | prevote => rw [hdecision] at hphase; cases hphase
    | precommit => exact hpersisted
  | count hon htally => exact hkept.frame rfl rfl rfl (fun _ _ h => h) (fun _ h _ hat => ⟨h, hat⟩)
  | @castPrevote _ registry candidate signer vote file cast tally hon hsigner heligible hvoted hsafe
      hbuild hfile htally hcounted =>
    obtain ⟨-, hdecision⟩ := buildPrevote_at hon hbuild
    have hattempt := hkept.attempt hlawful hinformed hmem
      (Attempt.prevote hon hsigner hvoted hsafe hbuild) (hfile.written (net.recovery i)).1
    refine hattempt.frame rfl rfl rfl ?_ (fun _ h _ hat => ⟨h, hat⟩)
    refine known_of_hand rfl rfl (fun phase hphase => ?_)
    cases phase with
    | prevote => rfl
    | precommit => rw [hdecision] at hphase; cases hphase
  | prevoteNotSaved hon hsigner heligible hvoted hsafe hbuild hfile =>
    refine hkept.frame rfl rfl rfl ?_ ?_
    · rintro phase vote ⟨hhanded | hslot, hdecision⟩
      · exact ⟨Or.inl hhanded, hdecision⟩
      · cases phase with
        | prevote => cases hslot
        | precommit => exact ⟨Or.inr hslot, hdecision⟩
    · rintro prevote ⟨⟩
  | @castPrecommit _ registry candidate signer vote file required cast hon hsigner heligible
      hprevoted hvoted hcounted hrequired hquorum hbuild hfile =>
    obtain ⟨-, hdecision⟩ := buildPrecommit_at hon hbuild
    have hattempt := hkept.attempt hlawful hinformed hmem
      (Attempt.precommit hon hsigner hvoted hcounted hrequired hquorum hbuild)
      (hfile.written (net.recovery i)).1
    refine hattempt.frame rfl rfl rfl ?_ (fun _ h _ hat => ⟨h, hat⟩)
    refine known_of_hand rfl rfl (fun phase hphase => ?_)
    cases phase with
    | prevote => rw [hdecision] at hphase; cases hphase
    | precommit => rfl
  | precommitNotSaved hon hsigner heligible hprevoted hvoted hcounted hrequired hquorum hbuild
      hfile =>
    refine hkept.frame rfl rfl rfl ?_ (fun _ h _ hat => ⟨h, hat⟩)
    rintro phase vote ⟨hhanded | hslot, hdecision⟩
    · exact ⟨Or.inl hhanded, hdecision⟩
    · cases phase with
      | prevote => exact ⟨Or.inr hslot, hdecision⟩
      | precommit => cases hslot
  | @nilPrecommitOnCandidate _ _ _ signer cast hon hsigner heligible hprevoted hvoted htimeout
      habstained =>
    refine hkept.frame rfl rfl rfl ?_ (fun _ h _ hat => ⟨h, hat⟩)
    refine known_of_nil (nilVote_not_phase node signer input.now) rfl (fun phase => ?_)
    cases phase with
    | prevote => exact Or.inl rfl
    | precommit =>
      cases cast with
      | false => exact Or.inl rfl
      | true => exact Or.inr rfl
  | certify hon hcertificate =>
    exact hkept.frame rfl rfl rfl (fun _ _ h => h) (fun _ h _ hat => ⟨h, hat⟩)
  | finalize hon hfinalized hfile =>
    exact .later hmem (Nat.lt_succ_self _) (fun phase vote h => by cases phase <;> exact h)
  | commitFailed hstorage hvalid =>
    exact hkept.frame rfl rfl rfl (fun _ _ h => h) (fun _ h _ hat => ⟨h, hat⟩)
  | advanceRound =>
    refine hkept.frame rfl rfl rfl ?_ ?_
    · rintro phase vote ⟨hhanded | hslot, hdecision⟩
      · exact ⟨Or.inl hhanded, hdecision⟩
      · cases phase <;> cases hslot
    · rintro prevote ⟨⟩

--
-- The lock in the file
--

namespace FileKept

variable {i : ι} {log : VoteLog} {node node' : Node}

theorem mono {log' : VoteLog} (h : net.FileKept log node) (hlog : ∀ event ∈ log, event ∈ log') :
    net.FileKept log' node :=
  fun state hstate hvalid hheight vote hvote hindex =>
    (h state hstate hvalid hheight vote hvote hindex).mono hlog (fun _ hslot => hslot)

/-- Nothing new is known, and the file stays or is replaced by a vote-free state of
a later height. -/
theorem frame (h : net.FileKept log node) (hmem : VoteMemory node)
    (hknown : ∀ phase vote, node'.Known phase vote → node.Known phase vote)
    (hfile : ∀ state, node'.recoveryFile = some state → node.recoveryFile = some state ∨
      (node.height < state.height ∧ state.persistedPrecommit = none)) : net.FileKept log node' := by
  intro state hstate hvalid hheight vote hvote hindex
  rcases hfile state hstate with hold | ⟨hahead, hempty⟩
  · exact h state hold hvalid hheight vote (hvote.imp_left (hknown .precommit vote)) hindex
  · rcases hvote with hvote | hslot
    · have hpast := hmem.known_past (hknown .precommit vote hvote)
      unfold ValidatorVoteRecord.Before ValidatorVoteRecord.At at hpast
      omega
    · rw [hempty] at hslot
      cases hslot

/-- The state of `node` was saved. -/
theorem saved (h : net.MemoryKept log node) (hvalid : node.recoveryState.isValid = true)
    (hknown : ∀ phase vote, node'.Known phase vote → node.Known phase vote)
    (hfile : node'.recoveryFile = some node.recoveryState) : net.FileKept log node' := by
  intro state hstate _ hheight vote hvote hindex
  rw [hfile] at hstate
  obtain rfl := Option.some.inj hstate
  have hslots := ConsensusRoundState.isValid_slot hvalid
  have hvote' : node.Known .precommit vote := by
    rcases hvote with hvote | hslot
    · exact hknown .precommit vote hvote
    · exact ⟨Or.inr hslot, ((hslots .precommit).2 vote hslot).2⟩
  refine (h hheight vote hvote' hindex).mono (fun _ he => he) ?_
  intro prevote hprevote
  obtain ⟨hat, hdecision⟩ := (hslots .prevote).2 prevote hprevote
  exact ⟨hprevote, hdecision, hat⟩

end FileKept

/-- **Step lemma, file.** -/
theorem fileKept_effect {i : ι} {log : VoteLog} {input : TickInput} {branch : Branch}
    {node node' : Node} (h : Effect (net.cfg i) input branch node node')
    (hlawful : net.electorate.Lawful log) (hinformed : net.Informed i log node)
    (hmem : VoteMemory node) (hkept : net.MemoryKept log node) (hfile : net.FileKept log node) :
    net.FileKept log node' := by
  rcases effect_file (net.recovery i) h with ⟨hknown, hsame | ⟨-, hnext⟩⟩ |
    ⟨attempt, hattempt, hvalid, hwritten, hknown⟩
  · exact hfile.frame hmem hknown (fun _ hstate => Or.inl (hsame ▸ hstate))
  · refine hfile.frame hmem hknown (fun state hstate => Or.inr ?_)
    obtain rfl := Option.some.inj (hnext.symm.trans hstate)
    exact ⟨Nat.lt_succ_self _, rfl⟩
  · exact .saved (hkept.attempt hlawful hinformed hmem hattempt hvalid) hvalid hknown hwritten

/-- A start takes the lock over from the file. -/
theorem kept_restart {i : ι} {log : VoteLog} {boot : Boot} {node node' : Node}
    (h : node.startConsensus (net.cfg i) boot = some node') (hguard : FileGuard node)
    (hfile : net.FileKept log node) : net.MemoryKept log node' ∧ net.FileKept log node' := by
  obtain ⟨stored, hstored, hvalid, hcase⟩ := startConsensus_cases h
  rcases hcase with ⟨-, -, rfl⟩ | ⟨hlower, -, rfl⟩
  · have hcovered : ∀ vote, (node.loadFromRecoveryState stored boot.finalized (some stored)).Known
        .precommit vote → node.Known .precommit vote ∨ stored.persistedPrecommit = some vote := by
      rintro vote ⟨hhanded | hslot, hdecision⟩
      · exact Or.inl ⟨Or.inl hhanded, hdecision⟩
      · exact Or.inr hslot
    refine ⟨?_, ?_⟩
    · intro hheight vote hvote hindex
      refine (hfile stored hstored hvalid hheight vote (hcovered vote hvote) hindex).mono
        (fun _ he => he) ?_
      rintro prevote ⟨hslot, -, -⟩
      exact hslot
    · rintro state ⟨⟩ - hheight vote hvote hindex
      exact hfile stored hstored hvalid hheight vote
        (hvote.elim (hcovered vote) Or.inr) hindex
  · -- all votes are of heights up to the one of the file
    have hnone : ∀ vote, (node.loadFromRecoveryState (Node.firstRound (net.cfg i) (boot.tip + 1)
        boot.startedAt) boot.finalized
        (some (Node.firstRound (net.cfg i) (boot.tip + 1) boot.startedAt))).Known .precommit vote →
        vote.blockIndex < boot.tip + 1 := by
      rintro vote ⟨hhanded | hslot, hdecision⟩
      · obtain ⟨state, hstate, -, hcovers⟩ := hguard .precommit vote ⟨Or.inl hhanded, hdecision⟩
        rw [hstored] at hstate
        cases hstate
        unfold ConsensusRoundState.Covers ValidatorVoteRecord.Before ValidatorVoteRecord.At
          at hcovers
        omega
      · cases hslot
    refine ⟨?_, ?_⟩
    · intro hheight vote hvote hindex
      have hheight' : boot.tip + 1 = net.height := hheight
      have hlt := hnone vote hvote
      omega
    · rintro state ⟨⟩ - hheight vote (hvote | hslot) hindex
      · have hheight' : boot.tip + 1 = net.height := hheight
        have hlt := hnone vote hvote
        omega
      · cases hslot

end Network

end Nodo.Model
