import Nodo.Model.Locking

/-!
# Nodo — agreement at one height

No two correct nodes of a network obtain certificates for different blocks of
one height. Every effect of a node extends the log of votes lawfully: a
PRECOMMIT needs a quorum of PREVOTEs of its round in the log, and a PREVOTE
after a PRECOMMIT needs a quorum for its block in a round at least as high.
Agreement is then a property of lawful logs.

## Results

* `effect_kept` — one effect extends the log lawfully and keeps what the node
  knows of it.
* `network_kept` — so does every run of the network.
* `agreement_at_height` — two certificates are for the same block.
-/

namespace Nodo.Model

open LockedVoting

theorem Phase.event_inj {phase phase' : Phase} {voter voter' value value' : String}
    {round round' : Nat} (h : phase.event voter round value = phase'.event voter' round' value') :
    phase = phase' ∧ voter = voter' ∧ round = round' ∧ value = value' := by
  cases phase <;> cases phase' <;> cases h <;> exact ⟨rfl, rfl, rfl, rfl⟩

namespace Network

variable {ι : Type} {net : Network ι} {i : ι} {log log' : VoteLog} {node node' : Node}

--
-- The log of one node
--

/-- Only node `i` has voted since. -/
structure Extends (net : Network ι) (i : ι) (log log' : VoteLog) : Prop where
  subset : ∀ event ∈ log, event ∈ log'
  own : ∀ j signer, j ≠ i → (net.cfg j).signer = some signer → ∀ (phase : Phase) round value,
    phase.event signer.address round value ∈ log' → phase.event signer.address round value ∈ log

theorem Extends.refl (i : ι) (log : VoteLog) : net.Extends i log log :=
  ⟨fun _ h => h, fun _ _ _ _ _ _ _ h => h⟩

theorem Extends.trans {log'' : VoteLog} (h : net.Extends i log log')
    (h' : net.Extends i log' log'') : net.Extends i log log'' := by
  refine ⟨fun event hevent => h'.subset event (h.subset event hevent), ?_⟩
  intro j signer hne hsigner phase round value hevent
  exact h.own j signer hne hsigner phase round value
    (h'.own j signer hne hsigner phase round value hevent)

/-- The log of another node is as before. -/
theorem Linked.other {j : ι} (h : net.Linked j log node) (hextends : net.Extends i log log')
    (hne : j ≠ i) : net.Linked j log' node := by
  refine ⟨?_, ?_⟩
  · intro signer hsigner phase vote hvote hdecision hindex
    exact hextends.subset _ (h.logged signer hsigner phase vote hvote hdecision hindex)
  · intro signer hsigner phase round value hevent
    exact h.handed signer hsigner phase round value
      (hextends.own j signer hne hsigner phase round value hevent)

/-- Nothing was handed out that the log has to have. -/
theorem Linked.frame (h : net.Linked i log node)
    (hold : ∀ vote ∈ node.handed, vote ∈ node'.handed)
    (hnew : ∀ phase : Phase, ∀ vote ∈ node'.handed, vote.decision = phase.decision →
      vote.blockIndex = net.height → vote ∈ node.handed) : net.Linked i log node' := by
  refine ⟨?_, ?_⟩
  · intro signer hsigner phase vote hvote hdecision hindex
    exact h.logged signer hsigner phase vote (hnew phase vote hvote hdecision hindex) hdecision
      hindex
  · intro signer hsigner phase round value hevent
    obtain ⟨vote, hvote, hrest⟩ := h.handed signer hsigner phase round value hevent
    exact ⟨vote, hold vote hvote, hrest⟩

/-- The votes a node has handed out are backed. -/
theorem Linked.backed (h : net.Linked i log node) (hsigned : SignedVotes (net.cfg i) node)
    {vote : ValidatorVoteRecord} (hvote : vote ∈ node.handed) : net.Backed log vote := by
  intro j signer hsigner haddress phase hdecision
  obtain ⟨⟨own, hown, haddress'⟩, hblock⟩ := hsigned.known phase vote ⟨Or.inl hvote, hdecision⟩
  obtain rfl := net.distinct i j own signer hown hsigner (haddress'.symm.trans haddress)
  exact ⟨h.logged signer hsigner phase vote hvote hdecision, hblock⟩

/-- The log admits a vote that the slot of its phase holds. -/
theorem Linked.admits (h : net.Linked i log node) (hmem : VoteMemory node')
    (hkept : net.MemoryKept log node') (hsub : ∀ vote ∈ node.handed, vote ∈ node'.handed)
    {signer : LocalSigner} (hsigner : (net.cfg i).signer = some signer) {phase : Phase}
    {vote : ValidatorVoteRecord} (hdecision : vote.decision = phase.decision)
    (hat : vote.At node'.height node'.round) (hslot : node'.persisted phase = some vote)
    (hindex : vote.blockIndex = net.height) :
    net.electorate.Admits log (phase.event signer.address vote.round vote.blockHash) := by
  have hheight : node'.height = net.height := hat.1.symm.trans hindex
  cases phase with
  | prevote =>
    refine ⟨?_, ?_⟩
    · intro value hevent
      obtain ⟨other, hother, hphase, hindex', hround, rfl⟩ :=
        h.handed signer hsigner .prevote _ _ hevent
      have hat' : other.At node'.height node'.round :=
        ⟨hindex'.trans hheight.symm, hround.trans hat.2⟩
      have hheld := (hmem.handed_kept .prevote other (hsub other hother) hphase hat').2
      rw [hslot] at hheld
      rw [Option.some.inj hheld]
    · intro round value hevent
      obtain ⟨other, hother, hphase, hindex', rfl, rfl⟩ :=
        h.handed signer hsigner .precommit _ _ hevent
      have hcovered := hkept hheight other ⟨Or.inl (hsub other hother), hphase⟩ hindex'
      exact hcovered.excused vote ⟨hslot, hdecision, hat⟩
  | precommit =>
    refine ⟨(hkept hheight vote ⟨Or.inr hslot, hdecision⟩ hindex).prevoted, ?_⟩
    intro round value hevent
    obtain ⟨other, hother, hphase, hindex', rfl, rfl⟩ :=
      h.handed signer hsigner .prevote _ _ hevent
    have hpast := hmem.handed_past .prevote other (hsub other hother) hphase
    obtain ⟨-, hround⟩ := hat
    unfold ValidatorVoteRecord.Before ValidatorVoteRecord.At at hpast
    omega

/-- Handing out the vote of a slot extends the log lawfully. -/
theorem Linked.hand (h : net.Linked i log node) (hlawful : net.electorate.Lawful log)
    (hmem : VoteMemory node') (hkept : net.MemoryKept log node')
    (hsigned : SignedVotes (net.cfg i) node') {phase : Phase} {vote : ValidatorVoteRecord}
    (hhanded : node'.handed = node.handed ++ [vote]) (hdecision : vote.decision = phase.decision)
    (hat : vote.At node'.height node'.round) (hslot : node'.persisted phase = some vote) :
    ∃ log', net.Extends i log log' ∧ net.electorate.Lawful log' ∧ net.Linked i log' node' := by
  have hsub : ∀ other ∈ node.handed, other ∈ node'.handed := by
    intro other hother
    rw [hhanded]
    exact List.mem_append_left _ hother
  have hcases : ∀ other ∈ node'.handed, other ∈ node.handed ∨ other = vote := by
    intro other hother
    rw [hhanded] at hother
    exact (List.mem_append.mp hother).imp_right List.mem_singleton.mp
  by_cases hindex : vote.blockIndex = net.height
  · obtain ⟨⟨signer, hsigner, haddress⟩, -⟩ :=
      hsigned.known phase vote ⟨Or.inr hslot, hdecision⟩
    have hadmits := h.admits hmem hkept hsub hsigner hdecision hat hslot hindex
    refine ⟨_, ⟨fun event hevent => List.mem_cons_of_mem _ hevent, ?_⟩, hlawful.cons hadmits, ?_, ?_⟩
    · intro j other hne hother phase' round value hevent
      rcases List.mem_cons.mp hevent with heq | hold
      · exact absurd (net.distinct j i other signer hother hsigner (Phase.event_inj heq).2.1) hne
      · exact hold
    · intro own hown phase' other hother hphase hindex'
      obtain rfl := Option.some.inj (hsigner.symm.trans hown)
      rcases hcases other hother with hold | rfl
      · exact List.mem_cons_of_mem _ (h.logged signer hown phase' other hold hphase hindex')
      · have hsame : phase' = phase := by
          rw [hdecision] at hphase
          cases phase <;> cases phase' <;> first | rfl | cases hphase
        rw [hsame]
        exact List.mem_cons_self
    · intro own hown phase' round value hevent
      obtain rfl := Option.some.inj (hsigner.symm.trans hown)
      rcases List.mem_cons.mp hevent with heq | hold
      · obtain ⟨rfl, -, rfl, rfl⟩ := Phase.event_inj heq
        refine ⟨vote, ?_, hdecision, hindex, rfl, rfl⟩
        rw [hhanded]
        exact List.mem_append_right _ (List.mem_singleton.mpr rfl)
      · obtain ⟨other, hother, hrest⟩ := h.handed signer hown phase' round value hold
        exact ⟨other, hsub other hother, hrest⟩
  · refine ⟨log, Extends.refl i log, hlawful, h.frame hsub ?_⟩
    intro _ other hother _ hindex'
    rcases hcases other hother with hold | rfl
    · exact hold
    · exact absurd hindex' hindex

/-- **Step lemma, log.** Every effect extends the log lawfully. -/
theorem linked_effect {input : TickInput} {branch : Branch}
    (h : Effect (net.cfg i) input branch node node') (hlawful : net.electorate.Lawful log)
    (hmem : VoteMemory node') (hkept : net.MemoryKept log node')
    (hsigned : SignedVotes (net.cfg i) node') (hlinked : net.Linked i log node) :
    ∃ log', net.Extends i log log' ∧ net.electorate.Lawful log' ∧ net.Linked i log' node' := by
  rcases effect_handed h with hsame | ⟨vote, hhanded, hnil | ⟨phase, hdecision, hat, hslot⟩⟩
  · exact ⟨log, Extends.refl i log, hlawful,
      hlinked.frame (by rw [hsame]; exact fun _ h => h) (by rw [hsame]; exact fun _ _ h _ _ => h)⟩
  · refine ⟨log, Extends.refl i log, hlawful, hlinked.frame ?_ ?_⟩
    · intro other hother
      rw [hhanded]
      exact List.mem_append_left _ hother
    · intro phase other hother hdecision _
      rw [hhanded] at hother
      rcases List.mem_append.mp hother with hold | hnew
      · exact hold
      · rw [List.mem_singleton.mp hnew] at hdecision
        exact absurd hdecision (hnil phase)
  · exact hlinked.hand hlawful hmem hkept hsigned hhanded hdecision hat hslot

--
-- What a node has received
--

/-- What reaches node `i` is backed. -/
structure BackedInput (net : Network ι) (i : ι) (log : VoteLog) (input : TickInput) : Prop where
  votes : ∀ vote ∈ input.votes,
    VotePool.isMinimallyValidVote (net.cfg i).crypto vote = true → net.Backed log vote
  proposals : ∀ proposal ∈ input.proposals, net.BackedProposal (net.cfg i).crypto log proposal

theorem BackedInput.mono {input : TickInput} (h : net.BackedInput i log input)
    (hlog : ∀ event ∈ log, event ∈ log') : net.BackedInput i log' input :=
  ⟨fun vote hvote hvalid => (h.votes vote hvote hvalid).mono hlog,
    fun proposal hproposal => (h.proposals proposal hproposal).mono hlog⟩

namespace BackedPool

theorem empty (log : VoteLog) : net.BackedPool log VotePool.empty :=
  ⟨poolInvariant_empty, fun _ _ _ vote hvote => by cases hvote⟩

theorem submit {crypto : CryptoContext} {collector : NetworkVoteCollector}
    {vote : ValidatorVoteRecord} (h : net.BackedPool log collector.pool)
    (hvote : VotePool.isMinimallyValidVote crypto vote = true → net.Backed log vote) :
    net.BackedPool log (collector.submitNetworkVote crypto vote).2.pool := by
  refine ⟨h.invariant.submitNetworkVote vote, ?_⟩
  intro index hash round other hother
  rcases NetworkVoteCollector.mem_submitNetworkVote hother with hold | ⟨rfl, hvalid⟩
  · exact h.backed index hash round other hold
  · exact hvote hvalid

/-- The pool of a new round or height is pruned or empty. -/
theorem advance {crypto : CryptoContext} {manager : ConsensusRoundManager}
    (h : net.BackedPool log manager.voteCollector.pool) (height round : Nat) (proposer : String)
    (now : Int) : net.BackedPool log
      (manager.advanceToHeight crypto height round proposer now).voteCollector.pool := by
  unfold ConsensusRoundManager.advanceToHeight
  dsimp only
  split_ifs
  · exact ⟨h.invariant.prune height, fun index hash round vote hvote =>
      h.backed index hash round vote (VotePool.mem_prune hvote)⟩
  · exact empty log

end BackedPool

namespace Informed

/-- Another pool, and the rest as before, though the candidate may be gone. -/
theorem frame (h : net.Informed i log node) (hpool : net.BackedPool log node'.pool)
    (hcandidate : ∀ candidate, node'.pendingCandidate = some candidate →
      node.pendingCandidate = some candidate)
    (hbuffered : node'.bufferedProposals = node.bufferedProposals)
    (htally : node'.tally = node.tally) (hcertified : node'.certified = node.certified) :
    net.Informed i log node' := by
  refine ⟨hpool, ?_, ?_, ?_, ?_⟩
  · exact fun candidate hpending => h.candidate candidate (hcandidate candidate hpending)
  · rw [hbuffered]
    exact h.buffered
  · rw [htally]
    exact h.tally
  · rw [hcertified]
    exact h.certified

theorem resetForHeight (h : net.Informed i log node) : net.Informed i log node.resetForHeight := by
  unfold Node.resetForHeight
  split_ifs
  · exact h.frame h.pool (fun _ hnone => by cases hnone) rfl rfl rfl
  · exact h.frame h.pool (fun _ hsome => hsome) rfl rfl rfl
  · exact h

/-- A candidate or a buffered proposal comes from what was received. -/
theorem adopt (h : net.Informed i log node) {input : TickInput}
    (hinput : net.BackedInput i log input) {candidate : Option PendingBlockCandidate}
    {buffered : List BlockProposal} {bufferedHeight bufferedRound : Nat}
    (hcandidate : candidate = node.pendingCandidate ∨ (node.hasCurrentCandidate = false ∧
      ∃ proposal ∈ node.bufferedProposals ++ input.proposals, proposal.block.index = node.height ∧
        candidate = some ⟨proposal.block, node.round, proposal⟩))
    (hbuffered : ∀ proposal ∈ buffered, proposal ∈ node.bufferedProposals ++ input.proposals) :
    net.Informed i log
      { node with
        pendingCandidate := candidate, bufferedProposals := buffered
        bufferedProposalHeight := bufferedHeight, bufferedProposalRound := bufferedRound } := by
  have hreceived : ∀ proposal ∈ node.bufferedProposals ++ input.proposals,
      net.BackedProposal (net.cfg i).crypto log proposal := by
    intro proposal hproposal
    rcases List.mem_append.mp hproposal with hold | hnew
    · exact h.buffered proposal hold
    · exact hinput.proposals proposal hnew
  refine ⟨h.pool, ?_, fun proposal hproposal => hreceived proposal (hbuffered proposal hproposal),
    h.tally, h.certified⟩
  intro adopted hadopted
  rcases hcandidate with rfl | ⟨-, proposal, hproposal, -, rfl⟩
  · exact h.candidate adopted hadopted
  · cases hadopted
    exact hreceived proposal hproposal

/-- The PREVOTEs counted from the pool are in the log. -/
theorem count (h : net.Informed i log node) {registry : ValidatorRegistry}
    {candidate : PendingBlockCandidate} {voters : List String} {weight : UInt64}
    (htally : Node.tallyPrevotes registry [] 0
      (node.pool.votesForBlock node.height candidate.block.hash node.round)
        = some (voters, weight)) :
    net.Informed i log { node with
      tally := ⟨node.height, node.round, candidate.block.hash, voters, weight⟩ } := by
  refine ⟨h.pool, h.candidate, h.buffered, ?_, h.certified⟩
  intro hheight
  obtain ⟨hnodup, -, hfrom⟩ := Node.tallyPrevotes_spec htally List.nodup_nil rfl
  refine ⟨hnodup, ?_⟩
  intro address haddress j signer hsigner heq
  rcases hfrom address haddress with hseen | ⟨vote, hvote, hdecision, hvoter⟩
  · cases hseen
  · obtain ⟨hindex, hhash, hround, -⟩ := h.pool.invariant.votesForBlock_indexed hvote
    have hevent := (h.pool.backed _ _ _ vote hvote j signer hsigner (hvoter.trans heq) .prevote
      hdecision).1 (hindex.trans hheight)
    rw [hround, hhash, ← heq] at hevent
    exact hevent

/-- Its own PREVOTE joins the count when the node casts it, and it was not
counted before. -/
theorem countOwn (h : net.Informed i log node) (hmem : VoteMemory node)
    (hlinked : net.Linked i log node) {registry : ValidatorRegistry}
    {candidate : PendingBlockCandidate} {signer : LocalSigner} {weight : UInt64}
    (hsigner : (net.cfg i).signer = some signer) (hvoted : node.votedPrevote = false)
    (hcounted : Counted registry candidate node) (hlog : ∀ event ∈ log, event ∈ log')
    (hevent : node.height = net.height →
      Event.prevote signer.address node.round candidate.block.hash ∈ log')
    {tally : PrevoteTally} (htally : tally = { node.tally with
      voters := signer.address :: node.tally.voters, weight := weight }) :
    tally.height = net.height → tally.voters.Nodup ∧
      ∀ address ∈ tally.voters, ∀ j signer, (net.cfg j).signer = some signer →
        address = signer.address → Event.prevote address tally.round tally.blockHash ∈ log' := by
  subst htally
  intro hheight
  have hnet : node.height = net.height := hcounted.height.symm.trans hheight
  obtain ⟨hnodup, hvoters⟩ := h.tally hheight
  refine ⟨List.nodup_cons.mpr ⟨?_, hnodup⟩, ?_⟩
  · intro hin
    -- a counted own PREVOTE was handed out, so the flag would be set
    have hold := hvoters signer.address hin i signer hsigner rfl
    obtain ⟨vote, hvote, hdecision, hindex, hround, -⟩ :=
      hlinked.handed signer hsigner .prevote _ _ hold
    have hfree : node.voted .prevote = false := hvoted
    exact hmem.not_handed hfree hvote hdecision
      ⟨hindex.trans hnet.symm, hround.trans hcounted.round⟩
  · intro address haddress j other hother heq
    rcases List.mem_cons.mp haddress with rfl | hold
    · show Event.prevote signer.address node.tally.round node.tally.blockHash ∈ log'
      rw [hcounted.round, hcounted.blockHash]
      exact hevent hnet
    · exact hlog _ (hvoters address hold j other hother heq)

/-- An assembled certificate is a quorum of PRECOMMITs. -/
theorem certify (h : net.Informed i log node) {registry : ValidatorRegistry}
    {candidate : PendingBlockCandidate} {certificate : QuorumCertificate}
    (hon : OnCandidate (net.cfg i) registry candidate node)
    (hcertificate : assembleCertificate (net.cfg i).crypto (net.cfg i).params registry node.pool
      candidate.block node.round = .ok certificate) :
    net.Informed i log { node with certified := node.certified ++ [certificate] } := by
  refine ⟨h.pool, h.candidate, h.buffered, h.tally, ?_⟩
  intro other hother hindex
  rcases List.mem_append.mp hother with hold | hnew
  · exact h.certified other hold hindex
  · obtain rfl := List.mem_singleton.mp hnew
    obtain ⟨hverify, hvotes, htarget, -⟩ := buildFromVotes_spec hcertificate
    have hheight : node.height = net.height :=
      (hon.index_eq.symm.trans htarget.symm).trans hindex
    obtain rfl := registry_eq hon hheight
    refine certificate_precommitted (QuorumCertificate.verify_spec hverify) ?_ hindex
    intro vote hvote _
    rw [hvotes] at hvote
    exact h.pool.backed _ _ _ vote (List.mem_filter.mp hvote).1

end Informed

/-- **Step lemma, information.** Every effect keeps what the node has received and
counted backed, given that the log has the votes the node hands out. -/
theorem informed_effect {input : TickInput} {branch : Branch}
    (h : Effect (net.cfg i) input branch node node') (hextends : net.Extends i log log')
    (hinput : net.BackedInput i log input) (hmem : VoteMemory node)
    (hlinked : net.Linked i log node) (hsigned : SignedVotes (net.cfg i) node')
    (hlinked' : net.Linked i log' node') (hinformed : net.Informed i log node) :
    net.Informed i log' node' := by
  have hinput' := hinput.mono hextends.subset
  have hold := hinformed.mono hextends.subset
  have hown : ∀ vote ∈ node'.handed, net.Backed log' vote :=
    fun _ hvote => hlinked'.backed hsigned hvote
  have hlast : ∀ (votes : List ValidatorVoteRecord) vote, vote ∈ votes ++ [vote] :=
    fun _ _ => List.mem_append_right _ (List.mem_singleton.mpr rfl)
  cases h with
  | deliver hvote =>
    exact hold.frame (hold.pool.submit (hinput'.votes _ hvote)) (fun _ h => h) rfl rfl rfl
  | adopt candidate buffered bufferedHeight bufferedRound hcandidate hbuffered =>
    exact hold.adopt hinput' hcandidate hbuffered
  | reset => exact hold.resetForHeight
  | nilPrevote hsigner hcandidate hsettled hvoted =>
    exact hold.frame (hold.pool.submit fun _ => hown _ (hlast _ _)) (fun _ h => h) rfl rfl rfl
  | nilPrecommit hsigner hcandidate hsettled hprevoted hvoted =>
    exact hold.frame (hold.pool.submit fun _ => hown _ (hlast _ _)) (fun _ h => h) rfl rfl rfl
  | rebroadcastPrevote cast hon hpersisted hfresh hmatch =>
    exact hold.frame (hold.pool.submit fun _ => hown _ (hlast _ _)) (fun _ h => h) rfl rfl rfl
  | rebroadcastPrecommit cast hon hpersisted hfresh hmatch =>
    exact hold.frame (hold.pool.submit fun _ => hown _ (hlast _ _)) (fun _ h => h) rfl rfl rfl
  | count hon htally => exact hold.count htally
  | @castPrevote _ registry candidate signer vote file cast tally hon hsigner heligible hvoted hsafe
      hbuild hfile htally hcounted =>
    obtain ⟨-, -, hvote⟩ := buildPrevote_spec hbuild
    refine ⟨hold.pool.submit fun _ => hown vote (hlast node.handed vote), hold.candidate,
      hold.buffered, ?_, hold.certified⟩
    rcases htally with rfl | ⟨-, -, htally⟩
    · exact hold.tally
    · refine hinformed.countOwn hmem hlinked hsigner hvoted hcounted hextends.subset ?_ htally
      intro hheight
      have hevent := hlinked'.logged signer hsigner .prevote vote (hlast node.handed vote)
        (buildPrevote_at hon hbuild).2 ((buildPrevote_at hon hbuild).1.1.trans hheight)
      rw [hvote] at hevent
      exact hevent
  | prevoteNotSaved hon hsigner heligible hvoted hsafe hbuild hfile =>
    exact hold.frame hold.pool (fun _ h => h) rfl rfl rfl
  | castPrecommit cast hon hsigner heligible hprevoted hvoted hcounted hrequired hquorum hbuild
      hfile =>
    exact hold.frame (hold.pool.submit fun _ => hown _ (hlast _ _)) (fun _ h => h) rfl rfl rfl
  | precommitNotSaved hon hsigner heligible hprevoted hvoted hcounted hrequired hquorum hbuild
      hfile => exact hold.frame hold.pool (fun _ h => h) rfl rfl rfl
  | nilPrecommitOnCandidate cast hon hsigner heligible hprevoted hvoted htimeout habstained =>
    exact hold.frame (hold.pool.submit fun _ => hown _ (hlast _ _)) (fun _ h => h) rfl rfl rfl
  | certify hon hcertificate => exact hold.certify hon hcertificate
  | finalize hon hfinalized hfile =>
    exact hold.frame (hold.pool.advance _ _ _ _) (fun _ hnone => by cases hnone) rfl rfl rfl
  | commitFailed hstorage hvalid => exact hold.frame hold.pool (fun _ h => h) rfl rfl rfl
  | advanceRound =>
    exact hold.frame (hold.pool.advance _ _ _ _) (fun _ hnone => by cases hnone) rfl rfl rfl

--
-- One node
--

/-- What holds of node `i` along a run of the network. -/
structure Kept (net : Network ι) (i : ι) (log : VoteLog) (node : Node) : Prop where
  memory : VoteMemory node
  guard : FileGuard node
  signed : SignedVotes (net.cfg i) node
  linked : net.Linked i log node
  informed : net.Informed i log node
  lock : net.MemoryKept log node
  file : net.FileKept log node

/-- **Step lemma.** -/
theorem effect_kept {input : TickInput} {branch : Branch}
    (h : Effect (net.cfg i) input branch node node') (hlawful : net.electorate.Lawful log)
    (hinput : net.BackedInput i log input) (hkept : net.Kept i log node) :
    ∃ log', net.Extends i log log' ∧ net.electorate.Lawful log' ∧ net.Kept i log' node' := by
  obtain ⟨hmem, hguard, hsigned, hlinked, hinformed, hlock, hfile⟩ := hkept
  have hmem' := voteMemory_effect h hmem
  have hsigned' := signed_effect (net.recovery i) h hsigned
  have hlock' := memoryKept_effect h hlawful hinformed hmem hlock
  have hfile' := fileKept_effect h hlawful hinformed hmem hlock hfile
  obtain ⟨log', hextends, hlawful', hlinked'⟩ :=
    linked_effect h hlawful hmem' hlock' hsigned' hlinked
  refine ⟨log', hextends, hlawful', hmem', fileGuard_effect (net.recovery i) h hmem hguard,
    hsigned', hlinked', ?_, hlock'.mono hextends.subset, hfile'.mono hextends.subset⟩
  exact informed_effect h hextends hinput hmem hlinked hsigned' hlinked' hinformed

theorem effects_kept {input : TickInput} {allowed : Branch → Node → Prop}
    (h : Effects (net.cfg i) input allowed node node') (hlawful : net.electorate.Lawful log)
    (hinput : net.BackedInput i log input) (hkept : net.Kept i log node) :
    ∃ log', net.Extends i log log' ∧ net.electorate.Lawful log' ∧ net.Kept i log' node' := by
  induction h with
  | refl => exact ⟨log, Extends.refl i log, hlawful, hkept⟩
  | tail _ hlast ih =>
    obtain ⟨branch, -, heffect⟩ := hlast
    obtain ⟨mid, hextends, hlawful', hkept'⟩ := ih
    obtain ⟨log', hextends', hrest⟩ :=
      effect_kept heffect hlawful' (hinput.mono hextends.subset) hkept'
    exact ⟨log', hextends.trans hextends', hrest⟩

theorem sync_kept {move : SyncMove} (hadmissible : move.Admissible node)
    (hkept : net.Kept i log node) : net.Kept i log (node.sync (net.cfg i) move) := by
  obtain ⟨hmem, hguard, hsigned, hlinked, hinformed, hlock, hfile⟩ := hkept
  have hknown : ∀ phase vote, (node.sync (net.cfg i) move).Known phase vote →
      node.Known phase vote := fun phase vote h => by cases phase <;> exact h
  refine ⟨voteMemory_sync hadmissible hmem, fileGuard_sync hadmissible hmem hguard, ?_,
    hlinked.frame (fun _ h => h) (fun _ _ h _ _ => h), ?_,
    .later hmem hadmissible.ahead hknown, ?_⟩
  · exact (signed_invariant .any (net.recovery i)).sync move node hadmissible trivial hsigned
  · exact hinformed.frame (hinformed.pool.advance _ _ _ _) (fun _ h => h) rfl rfl rfl
  · refine hfile.frame hmem hknown (fun state hstate => ?_)
    rcases Node.sync_file hstate with hold | ⟨rfl, -⟩
    · exact Or.inl hold
    · exact Or.inr ⟨hadmissible.ahead, rfl⟩

theorem importFailed_kept {height : Nat} {startedAt : Int} (hahead : node.height < height)
    (hkept : net.Kept i log node) :
    net.Kept i log (node.replaceRecovery (net.cfg i) height startedAt) := by
  obtain ⟨hmem, hguard, hsigned, hlinked, hinformed, hlock, hfile⟩ := hkept
  refine ⟨hmem.frame rfl rfl rfl rfl rfl rfl rfl,
    fileGuard_replaced hahead hmem hguard (fun _ _ h => h) (Or.inr rfl), ?_,
    hlinked.frame (fun _ h => h) (fun _ _ h _ _ => h),
    hinformed.frame hinformed.pool (fun _ h => h) rfl rfl rfl,
    hlock.frame rfl rfl rfl (fun _ _ h => h) (fun _ h _ hat => ⟨h, hat⟩), ?_⟩
  · exact (signed_invariant .any (net.recovery i)).importFailed height startedAt node hahead trivial
      hsigned
  · refine hfile.frame hmem (fun _ _ h => h) (fun state hstate => ?_)
    rcases recoverySave_firstRound hstate with hold | ⟨rfl, -⟩
    · exact Or.inl hold
    · exact Or.inr ⟨hahead, rfl⟩

theorem restart_kept {boot : Boot} (h : node.startConsensus (net.cfg i) boot = some node')
    (hkept : net.Kept i log node) : net.Kept i log node' := by
  obtain ⟨hmem, hguard, hsigned, hlinked, hinformed, hlock, hfile⟩ := hkept
  obtain ⟨hmem', hguard'⟩ := voteMemory_restart h hmem hguard
  obtain ⟨hlock', hfile'⟩ := kept_restart h hguard hfile
  have hload : ∀ state finalized file, net.Linked i log
      (node.loadFromRecoveryState state finalized file) ∧ net.Informed i log
      (node.loadFromRecoveryState state finalized file) := by
    intro state finalized file
    refine ⟨hlinked.frame (fun _ h => h) (fun _ _ h _ _ => h), .empty log, ?_, ?_, ?_,
      hinformed.certified⟩
    · rintro candidate ⟨⟩
    · rintro proposal hproposal
      cases hproposal
    · exact fun _ => ⟨List.nodup_nil, fun address haddress => by cases haddress⟩
  have hloaded : net.Linked i log node' ∧ net.Informed i log node' := by
    obtain ⟨stored, -, -, ⟨-, -, rfl⟩ | ⟨-, -, rfl⟩⟩ := startConsensus_cases h
    · exact hload _ _ _
    · exact hload _ _ _
  exact ⟨hmem', hguard',
    (signed_invariant .any (net.recovery i)).restart boot node node' trivial h hsigned,
    hloaded.1, hloaded.2, hlock', hfile'⟩

theorem initial_kept (h : Initial (net.cfg i) node) : net.Kept i [] node := by
  have hmemory := (voteMemory_invariant .any (net.recovery i)).initial node h
  have hsigned := (signed_invariant .any (net.recovery i)).initial node h
  obtain ⟨height, round, startedAt, finalized, hvalid, -⟩ := h
  refine ⟨hmemory.1, hmemory.2, hsigned, ⟨?_, ?_⟩, ⟨.empty [], ?_, ?_, ?_, ?_⟩, ?_, ?_⟩
  · intro signer hsigner phase vote hvote
    cases hvote
  · intro signer hsigner phase round value hevent
    cases hevent
  · rintro candidate ⟨⟩
  · intro proposal hproposal
    cases hproposal
  · exact fun _ => ⟨List.nodup_nil, fun address haddress => by cases haddress⟩
  · intro certificate hcertificate
    cases hcertificate
  · rintro hheight vote ⟨hhanded | hslot, -⟩
    · cases hhanded
    · cases hslot
  · rintro state ⟨⟩ - hheight vote (⟨hhanded | hslot, -⟩ | hslot)
    · cases hhanded
    · cases hslot
    · cases hslot

/-- The votes of another node leave a node as it is. -/
theorem Kept.other {j : ι} (h : net.Kept j log node) (hextends : net.Extends i log log')
    (hne : j ≠ i) : net.Kept j log' node :=
  ⟨h.memory, h.guard, h.signed, h.linked.other hextends hne, h.informed.mono hextends.subset,
    h.lock.mono hextends.subset, h.file.mono hextends.subset⟩

--
-- The network
--

/-- A vote with the content of one that a node has handed out is backed. -/
theorem Authentic.backed {nodes : ι → Node} {vote : ValidatorVoteRecord}
    (hkept : ∀ i, net.Kept i log (nodes i)) (h : net.Authentic nodes vote) :
    net.Backed log vote := by
  intro j signer hsigner haddress phase hdecision
  obtain ⟨own, hown, hpayload⟩ := h j signer hsigner haddress
  have hbacked := (hkept j).linked.backed (hkept j).signed hown
  have haddress' : own.validatorAddress = vote.validatorAddress :=
    congrArg VoteSigningPayload.validatorAddress hpayload
  have hdecision' : own.decision = vote.decision :=
    congrArg VoteSigningPayload.decision hpayload
  have hindex : own.blockIndex = vote.blockIndex :=
    congrArg VoteSigningPayload.blockIndex hpayload
  have hhash : own.blockHash = vote.blockHash := congrArg VoteSigningPayload.blockHash hpayload
  have hround : own.round = vote.round := congrArg VoteSigningPayload.round hpayload
  rw [← hindex, ← hhash, ← hround]
  exact hbacked j signer hsigner (haddress'.trans haddress) phase (hdecision'.trans hdecision)

theorem Delivers.backed {nodes : ι → Node} {input : TickInput}
    (hkept : ∀ i, net.Kept i log (nodes i)) (h : net.Delivers nodes i input) :
    net.BackedInput i log input := by
  refine ⟨?_, ?_⟩
  · intro vote hvote hvalid
    have hverified : vote.verify (net.cfg i).crypto = true := by
      cases hmode : (net.cfg i).crypto.developmentMode with
      | true => exact h.signed hmode vote hvote
      | false => exact VotePool.verify_of_isMinimallyValidVote hvalid hmode
    exact (h.votes vote hvote hverified).backed hkept
  · intro proposal hproposal certificate hjustified vote hvote hverified
    exact (h.justifications proposal hproposal certificate hjustified vote hvote hverified).backed
      hkept

theorem nodeStep_kept {nodes : ι → Node} (hlawful : net.electorate.Lawful log)
    (hkept : ∀ i, net.Kept i log (nodes i)) (h : net.NodeStep nodes i node') :
    ∃ log', net.Extends i log log' ∧ net.electorate.Lawful log' ∧ net.Kept i log' node' := by
  cases h with
  | tick input hinput =>
    exact effects_kept (Node.tick_effects (net.cfg i) input (nodes i)) hlawful
      (hinput.backed hkept) (hkept i)
  | sync move hadmissible =>
    exact ⟨log, Extends.refl i log, hlawful, sync_kept hadmissible (hkept i)⟩
  | importFailed height startedAt hahead =>
    exact ⟨log, Extends.refl i log, hlawful, importFailed_kept hahead (hkept i)⟩
  | restart input boot hinput hcrash hstart =>
    obtain ⟨log', hextends, hlawful', hcrashed⟩ :=
      effects_kept hcrash hlawful (hinput.backed hkept) (hkept i)
    exact ⟨log', hextends, hlawful', restart_kept hstart hcrashed⟩

variable [DecidableEq ι]

/-- **Run lemma.** Every reachable state of the network has a lawful log that its
nodes keep. -/
theorem network_kept {nodes : ι → Node} (h : net.NetReachable nodes) :
    ∃ log, net.electorate.Lawful log ∧ ∀ i, net.Kept i log (nodes i) := by
  induction h with
  | initial hinit => exact ⟨[], .nil, fun i => initial_kept (hinit i)⟩
  | step i _ hstep ih =>
    obtain ⟨log, hlawful, hkept⟩ := ih
    obtain ⟨log', hextends, hlawful', hkept'⟩ := nodeStep_kept hlawful hkept hstep
    refine ⟨log', hlawful', fun j => ?_⟩
    by_cases hj : j = i
    · subst hj
      rw [Function.update_self]
      exact hkept'
    · rw [Function.update_of_ne hj]
      exact (hkept j).other hextends hj

/-- **Agreement at one height.** Under every interleaving of ticks, deliveries,
timeouts, failed saves, imports and crashes, two certificates of the height that
correct nodes assemble are for the same block, whatever their rounds. -/
theorem agreement_at_height {nodes : ι → Node} (h : net.NetReachable nodes) :
    ∀ i j, ∀ c ∈ (nodes i).certified, ∀ c' ∈ (nodes j).certified,
      c.blockIndex = net.height → c'.blockIndex = net.height → c.blockHash = c'.blockHash := by
  intro i j c hc c' hc' hindex hindex'
  obtain ⟨log, hlawful, hkept⟩ := network_kept h
  exact hlawful.agreement net.electorate_minority
    ((hkept i).informed.certified c hc hindex) ((hkept j).informed.certified c' hc' hindex')

end Network

--
-- Three of four validators
--

/-- The correct validators among the four; `d` is Byzantine. -/
def sampleName : Fin 3 → String
  | 0 => "a"
  | 1 => "b"
  | 2 => "c"

theorem sampleName_inj : ∀ i j, sampleName i = sampleName j → i = j := by decide

/-- A node that finds one block valid. -/
def sampleMember (i : Fin 3) : LoopConfig :=
  { sampleLoop (sampleName i) with blockBodyIsValid := fun block => block == sampleBlock }

theorem sampleMember_block {i : Fin 3} {block : Block}
    (h : (sampleMember i).blockIsValid block = true) : block = sampleBlock := by
  obtain ⟨-, h⟩ := Guards.true_of_ite_false h
  obtain ⟨-, h⟩ := Guards.true_of_ite_false h
  obtain ⟨-, h⟩ := Guards.true_of_ite_false h
  exact beq_iff_eq.mp h

def sampleNetwork : Network (Fin 3) where
  cfg := sampleMember
  height := 1
  registry := sampleRegistry
  faulty := {"d"}
  recovery _ := rfl
  shared _ := rfl
  distinct := by
    rintro i j s t ⟨⟩ ⟨⟩ hname
    exact sampleName_inj i j hname
  correct := by
    have hall : ∀ address ∈ sampleRegistry.members, address ∉ ({"d"} : Finset String) →
        ∃ i, sampleName i = address := by
      decide +kernel
    intro address hmember hcorrect
    obtain ⟨i, hname⟩ := hall address hmember hcorrect
    exact ⟨i, _, rfl, hname⟩
  minority := by decide +kernel
  collisionFree := by
    intro i j b b' hb hb' _
    rw [sampleMember_block hb, sampleMember_block hb']

/-- Node `i` receives the block and votes of the others. -/
@[irreducible] def sampleTurn (i : Fin 3) (votes : List ValidatorVoteRecord) (node : Node) : Node :=
  node.tick (sampleMember i) (sampleTick 10 (by decide) votes [sampleProposal sampleBlock 1])

/-- The states of the three nodes. -/
def trio (a b c : Node) : Fin 3 → Node
  | 0 => a
  | 1 => b
  | 2 => c

/-- Changing one of the three. -/
theorem trio_update (a b c node : Node) :
    Function.update (trio a b c) 0 node = trio node b c ∧
      Function.update (trio a b c) 1 node = trio a node c ∧
      Function.update (trio a b c) 2 node = trio a b node := by
  refine ⟨?_, ?_, ?_⟩ <;>
    · funext i
      match i with
      | 0 => rfl
      | 1 => rfl
      | 2 => rfl

theorem sampleTurn_reachable {nodes : Fin 3 → Node} (h : sampleNetwork.NetReachable nodes)
    {i : Fin 3} {node : Node} (hnode : nodes i = node) {votes : List ValidatorVoteRecord}
    (hvotes : ∀ vote ∈ votes, vote.verify sampleCrypto = true ∧
      ∃ j, vote ∈ (nodes j).handed ∧ vote.validatorAddress = sampleName j) :
    sampleNetwork.NetReachable (Function.update nodes i (sampleTurn i votes node)) := by
  subst hnode
  unfold sampleTurn
  refine h.step i (.tick _ ⟨fun _ vote hvote => (hvotes vote hvote).1, ?_, ?_⟩)
  · rintro vote hvote - j signer ⟨⟩ haddress
    obtain ⟨-, k, hhanded, hname⟩ := hvotes vote hvote
    obtain rfl := sampleName_inj k j (hname.symm.trans haddress)
    exact ⟨vote, hhanded, rfl⟩
  · intro proposal hproposal certificate hjustified
    rw [List.mem_singleton.mp hproposal] at hjustified
    cases hjustified

/-- The vote that a node casts for the block in its turn. -/
def sampleBallot (i : Fin 3) : Phase → ValidatorVoteRecord
  | .prevote => (sampleSigner (sampleName i)).signValidatorVote 1 "B" "G" 1 .prevote
      "runtime-block-pipeline-prevote" 10
  | .precommit => (sampleSigner (sampleName i)).signValidatorVote 1 "B" "G" 1 .precommit
      "runtime-block-pipeline-precommit" 10

theorem sampleBallot_spec : ∀ i, ∀ phase : Phase,
    (sampleBallot i phase).verify sampleCrypto = true ∧
      (sampleBallot i phase).validatorAddress = sampleName i := by
  intro i phase
  match i, phase with
  | 0, .prevote | 1, .prevote | 2, .prevote => decide +kernel
  | 0, .precommit | 1, .precommit | 2, .precommit => decide +kernel

/-- `a` and `b` prevote. -/
def prevotedNodeOf (i : Fin 3) : Node := sampleTurn i [] sampleStart

/-- `c` sees both PREVOTEs when it prevotes, and precommits. -/
def precommittedC : Node :=
  sampleTurn 2 [sampleBallot 0 .prevote, sampleBallot 1 .prevote] sampleStart

/-- `a` precommits. -/
def precommittedA : Node :=
  sampleTurn 0 [sampleBallot 1 .prevote, sampleBallot 2 .prevote] (prevotedNodeOf 0)

/-- `b` precommits and has a certificate. -/
def certifiedB : Node :=
  sampleTurn 1 [sampleBallot 0 .prevote, sampleBallot 2 .prevote, sampleBallot 0 .precommit,
    sampleBallot 2 .precommit] (prevotedNodeOf 1)

/-- `a` has one too. -/
def certifiedA : Node :=
  sampleTurn 0 [sampleBallot 1 .precommit, sampleBallot 2 .precommit] precommittedA

/-- What the turns hand out and assemble. -/
theorem sampleTurns_outcome :
    (prevotedNodeOf 0).handed = [sampleBallot 0 .prevote] ∧
      (prevotedNodeOf 1).handed = [sampleBallot 1 .prevote] ∧
      precommittedC.handed = [sampleBallot 2 .prevote, sampleBallot 2 .precommit] ∧
      precommittedA.handed = [sampleBallot 0 .prevote, sampleBallot 0 .precommit] ∧
      certifiedB.handed = [sampleBallot 1 .prevote, sampleBallot 1 .precommit] ∧
      certifiedA.certified.length = 1 ∧ certifiedB.certified.length = 1 := by
  decide +kernel

/-- Ballots that were handed out can be relayed. -/
theorem relayed {nodes : Fin 3 → Node} {ballots : List (Fin 3 × Phase)}
    (h : ∀ ballot ∈ ballots, sampleBallot ballot.1 ballot.2 ∈ (nodes ballot.1).handed) :
    ∀ vote ∈ ballots.map (fun ballot => sampleBallot ballot.1 ballot.2),
      vote.verify sampleCrypto = true ∧
        ∃ j, vote ∈ (nodes j).handed ∧ vote.validatorAddress = sampleName j := by
  intro vote hvote
  obtain ⟨⟨i, phase⟩, hballot, rfl⟩ := List.mem_map.mp hvote
  obtain ⟨hverified, hname⟩ := sampleBallot_spec i phase
  exact ⟨hverified, i, h ⟨i, phase⟩ hballot, hname⟩

theorem certifiedTrio_reachable :
    sampleNetwork.NetReachable (trio certifiedA certifiedB precommittedC) := by
  obtain ⟨ha, hb, hc, ha', hb', -, -⟩ := sampleTurns_outcome
  have hstart : sampleNetwork.NetReachable (trio sampleStart sampleStart sampleStart) := by
    refine .initial (fun i => ?_)
    have hsame : trio sampleStart sampleStart sampleStart i = sampleStart := by
      match i with
      | 0 => rfl
      | 1 => rfl
      | 2 => rfl
    rw [hsame]
    obtain ⟨⟩ := sampleStart_initial (sampleName i)
    exact Initial.intro _ _ _ _ ‹_› ‹_›
  have h1 : sampleNetwork.NetReachable (trio (prevotedNodeOf 0) sampleStart sampleStart) := by
    rw [← (trio_update sampleStart sampleStart sampleStart _).1]
    exact sampleTurn_reachable hstart rfl (by rintro _ ⟨⟩)
  have h2 : sampleNetwork.NetReachable
      (trio (prevotedNodeOf 0) (prevotedNodeOf 1) sampleStart) := by
    rw [← (trio_update _ sampleStart sampleStart _).2.1]
    exact sampleTurn_reachable h1 rfl (by rintro _ ⟨⟩)
  have h3 : sampleNetwork.NetReachable
      (trio (prevotedNodeOf 0) (prevotedNodeOf 1) precommittedC) := by
    rw [← (trio_update _ _ sampleStart _).2.2]
    refine sampleTurn_reachable h2 rfl (@relayed _ [(0, .prevote), (1, .prevote)] ?_)
    simp [trio, ha, hb]
  have h4 : sampleNetwork.NetReachable (trio precommittedA (prevotedNodeOf 1) precommittedC) := by
    rw [← (trio_update (prevotedNodeOf 0) _ _ _).1]
    refine sampleTurn_reachable h3 rfl (@relayed _ [(1, .prevote), (2, .prevote)] ?_)
    simp [trio, hb, hc]
  have h5 : sampleNetwork.NetReachable (trio precommittedA certifiedB precommittedC) := by
    rw [← (trio_update _ (prevotedNodeOf 1) _ _).2.1]
    refine sampleTurn_reachable h4 rfl
      (@relayed _ [(0, .prevote), (2, .prevote), (0, .precommit), (2, .precommit)] ?_)
    simp [trio, hc, ha']
  rw [← (trio_update precommittedA _ _ _).1]
  refine sampleTurn_reachable h5 rfl (@relayed _ [(1, .precommit), (2, .precommit)] ?_)
  simp [trio, hc, hb']

/-- Two of the three correct validators assemble a certificate, in different ticks. -/
theorem agreement_at_height_trio :
    (certifiedA.certified.length = 1 ∧ certifiedB.certified.length = 1) ∧
      ∀ i j, ∀ c ∈ (trio certifiedA certifiedB precommittedC i).certified,
        ∀ c' ∈ (trio certifiedA certifiedB precommittedC j).certified,
          c.blockIndex = 1 → c'.blockIndex = 1 → c.blockHash = c'.blockHash :=
  ⟨sampleTurns_outcome.2.2.2.2.2, Network.agreement_at_height certifiedTrio_reachable⟩

end Nodo.Model
