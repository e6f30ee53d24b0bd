import Nodo.Lib.LockedVoting
import Nodo.Model.VoteMemory

/-!
# Nodo — a network of validators

Any number of correct nodes at one height of interest, with Byzantine validators
around them. What a node receives is arbitrary (lost, repeated, reordered,
addressed to some nodes only), except that a vote with a good signature under
the address of a correct validator was handed out by that validator. A step of the network is one step of one node: a tick, an import, a crash at any
point of a tick with a restart from the recovery file.

## Results

* `signed_invariant` — the votes in the hands of a correct node are its own and
  for valid blocks.
-/

namespace Nodo.Model

--
-- Nodes and assumptions
--

/-- The correct nodes of a network, and the assumptions about one height. -/
structure Network (ι : Type) where
  cfg : ι → LoopConfig
  height : Nat
  registry : ValidatorRegistry
  /-- The addresses of the Byzantine validators. -/
  faulty : Finset String
  recovery : ∀ i, (cfg i).hasRecoveryPath = true
  shared : ∀ i, (cfg i).validatorSets height = some registry
  /-- A validator runs one node. -/
  distinct : ∀ i j s t, (cfg i).signer = some s → (cfg j).signer = some t →
    s.address = t.address → i = j
  /-- A validator that is not Byzantine is one of the nodes. -/
  correct : ∀ address ∈ registry.members, address ∉ faulty →
    ∃ i s, (cfg i).signer = some s ∧ s.address = address
  /-- The Byzantine validators have less than a third of the weight. -/
  minority : 3 * Quorum.weight registry.weightOf (faulty ∩ registry.members)
    < Quorum.weight registry.weightOf registry.members
  /-- A block hash determines the block's height. -/
  collisionFree : ∀ i j b b', (cfg i).blockIsValid b = true → (cfg j).blockIsValid b' = true →
    b.hash = b'.hash → b.index = b'.index

namespace Network

variable {ι : Type} (net : Network ι)

/-- If the vote is under the address of a correct validator, that validator has
handed out a vote with the same signed content. -/
def Authentic (nodes : ι → Node) (vote : ValidatorVoteRecord) : Prop :=
  ∀ i signer, (net.cfg i).signer = some signer → vote.validatorAddress = signer.address →
    ∃ own ∈ (nodes i).handed, own.toVoteSigningPayload = vote.toVoteSigningPayload

/-- What node `i` may receive: signatures are not forged, neither on votes nor in
the certificates that justify proposals. In development mode, where the pool
checks none, what arrives is signed all the same. -/
structure Delivers (nodes : ι → Node) (i : ι) (input : TickInput) : Prop where
  signed : (net.cfg i).crypto.developmentMode = true →
    ∀ vote ∈ input.votes, vote.verify (net.cfg i).crypto = true
  votes : ∀ vote ∈ input.votes, vote.verify (net.cfg i).crypto = true → net.Authentic nodes vote
  justifications : ∀ proposal ∈ input.proposals, ∀ certificate,
    proposal.justification = some certificate → ∀ vote ∈ certificate.votes,
      vote.verify (net.cfg i).crypto = true → net.Authentic nodes vote

/-- One step of one node. -/
inductive NodeStep (nodes : ι → Node) (i : ι) : Node → Prop
  | tick (input : TickInput) (hinput : net.Delivers nodes i input) :
      NodeStep nodes i ((nodes i).tick (net.cfg i) input)
  | sync (move : SyncMove) (hadmissible : move.Admissible (nodes i)) :
      NodeStep nodes i ((nodes i).sync (net.cfg i) move)
  | importFailed (height : Nat) (startedAt : Int) (hahead : (nodes i).height < height) :
      NodeStep nodes i ((nodes i).replaceRecovery (net.cfg i) height startedAt)
  | restart {crashed node' : Node} (input : TickInput) (boot : Boot)
      (hinput : net.Delivers nodes i input)
      (hcrash : Effects (net.cfg i) input (fun _ _ => True) (nodes i) crashed)
      (hstart : crashed.startConsensus (net.cfg i) boot = some node') : NodeStep nodes i node'

variable [DecidableEq ι]

/-- The states of a network, under every interleaving. -/
inductive NetReachable : (ι → Node) → Prop
  | initial {nodes : ι → Node} (h : ∀ i, Initial (net.cfg i) (nodes i)) : NetReachable nodes
  | step {nodes : ι → Node} {node' : Node} (i : ι) (hreach : NetReachable nodes)
      (hstep : net.NodeStep nodes i node') : NetReachable (Function.update nodes i node')

end Network

--
-- What a correct node has signed
--

/-- A vote of the local validator for a valid block. -/
def Signed (cfg : LoopConfig) (vote : ValidatorVoteRecord) : Prop :=
  (∃ signer, cfg.signer = some signer ∧ vote.validatorAddress = signer.address) ∧
    ∃ block, cfg.blockIsValid block = true ∧ block.index = vote.blockIndex ∧
      block.hash = vote.blockHash

/-- The PREVOTEs and PRECOMMITs in the hands of the node and in its file. -/
structure SignedVotes (cfg : LoopConfig) (node : Node) : Prop where
  known : ∀ phase vote, node.Known phase vote → Signed cfg vote
  file : ∀ state, node.recoveryFile = some state → state.isValid = true →
    ∀ phase vote, state.persisted phase = some vote → Signed cfg vote

theorem buildPrevote_signed {cfg : LoopConfig} {registry : ValidatorRegistry} {block : Block}
    {round : Nat} {now : Int} {signer : LocalSigner} {vote : ValidatorVoteRecord}
    (hsigner : cfg.signer = some signer)
    (h : buildPrevote cfg registry block round now signer = some vote) : Signed cfg vote := by
  obtain ⟨hblock, -, rfl⟩ := buildPrevote_spec h
  exact ⟨⟨signer, hsigner, rfl⟩, block, hblock, rfl, rfl⟩

theorem buildPrecommit_signed {cfg : LoopConfig} {registry : ValidatorRegistry} {block : Block}
    {round : Nat} {now : Int} {signer : LocalSigner} {vote : ValidatorVoteRecord}
    (hsigner : cfg.signer = some signer)
    (h : buildPrecommit cfg registry block round now signer = some vote) : Signed cfg vote := by
  obtain ⟨hblock, -, rfl⟩ := buildPrecommit_spec h
  exact ⟨⟨signer, hsigner, rfl⟩, block, hblock, rfl, rfl⟩

namespace SignedVotes

variable {cfg : LoopConfig} {node node' : Node}

/-- Nothing new is known, and the file is as before or vote-free. -/
theorem frame (h : SignedVotes cfg node)
    (hknown : ∀ phase vote, node'.Known phase vote → node.Known phase vote)
    (hfile : ∀ state, node'.recoveryFile = some state → node.recoveryFile = some state ∨
      ∀ phase, state.persisted phase = none) : SignedVotes cfg node' := by
  refine ⟨fun phase vote hvote => h.known phase vote (hknown phase vote hvote), ?_⟩
  intro state hstate hvalid phase vote hvote
  rcases hfile state hstate with hold | hempty
  · exact h.file state hold hvalid phase vote hvote
  · rw [hempty phase] at hvote
    cases hvote

/-- A slot is filled with a signed vote. -/
theorem fill (h : SignedVotes cfg node) {vote : ValidatorVoteRecord} (hsigned : Signed cfg vote)
    (hknown : ∀ phase other, node'.Known phase other → node.Known phase other ∨ other = vote)
    (hfile : node'.recoveryFile = node.recoveryFile) : SignedVotes cfg node' := by
  refine ⟨?_, by rw [hfile]; exact h.file⟩
  intro phase other hother
  rcases hknown phase other hother with hold | rfl
  · exact h.known phase other hold
  · exact hsigned

/-- The state of `node` is saved. -/
theorem saved (h : SignedVotes cfg node) (hvalid : node.recoveryState.isValid = true)
    (hfile : node'.recoveryFile = some node.recoveryState)
    (hknown : ∀ phase vote, node'.Known phase vote → node.Known phase vote) :
    SignedVotes cfg node' := by
  refine ⟨fun phase vote hvote => h.known phase vote (hknown phase vote hvote), ?_⟩
  intro state hstate _ phase vote hvote
  rw [hfile] at hstate
  cases hstate
  obtain ⟨-, hdecision⟩ := (ConsensusRoundState.isValid_slot hvalid phase).2 vote hvote
  exact h.known phase vote ⟨Or.inr (by cases phase <;> exact hvote), hdecision⟩

/-- A fresh vote is in its slot. -/
theorem attempt (h : SignedVotes cfg node) {input : TickInput} {attempt : Node}
    (hattempt : Attempt cfg input node attempt) : SignedVotes cfg attempt := by
  cases hattempt with
  | prevote hon hsigner hvoted hsafe hbuild =>
    refine h.fill (buildPrevote_signed hsigner hbuild) (fun phase other hother => ?_) rfl
    obtain ⟨hhanded | hslot, hdecision⟩ := hother
    · exact Or.inl ⟨Or.inl hhanded, hdecision⟩
    · cases phase with
      | prevote =>
        cases hslot
        exact Or.inr rfl
      | precommit => exact Or.inl ⟨Or.inr hslot, hdecision⟩
  | precommit hon hsigner hvoted hcounted hrequired hquorum hbuild =>
    refine h.fill (buildPrecommit_signed hsigner hbuild) (fun phase other hother => ?_) rfl
    obtain ⟨hhanded | hslot, hdecision⟩ := hother
    · exact Or.inl ⟨Or.inl hhanded, hdecision⟩
    · cases phase with
      | prevote => exact Or.inl ⟨Or.inr hslot, hdecision⟩
      | precommit =>
        cases hslot
        exact Or.inr rfl

end SignedVotes

/-- **Step lemma.** Every effect keeps the votes of the node its own. -/
theorem signed_effect {cfg : LoopConfig} {input : TickInput} {branch : Branch} {node node' : Node}
    (hpath : cfg.hasRecoveryPath = true) (h : Effect cfg input branch node node')
    (hsigned : SignedVotes cfg node) : SignedVotes cfg node' := by
  rcases effect_file hpath h with ⟨hknown, hsame | ⟨-, hnext⟩⟩ |
    ⟨attempt, hattempt, hvalid, hwritten, hknown⟩
  · exact hsigned.frame hknown (fun _ hstate => Or.inl (hsame ▸ hstate))
  · refine hsigned.frame hknown (fun state hstate => Or.inr (fun phase => ?_))
    rw [hnext] at hstate
    cases hstate
    cases phase <;> rfl
  · exact (hsigned.attempt hattempt).saved hvalid hwritten hknown

/-- What the first round of a height, written over the file, holds. -/
theorem recoverySave_firstRound {cfg : LoopConfig} {height : Nat} {startedAt : Int}
    {file : Option ConsensusRoundState} {state : ConsensusRoundState}
    (h : (recoverySave .written file (Node.firstRound cfg height startedAt)).2 = some state) :
    file = some state ∨ (state = Node.firstRound cfg height startedAt ∧ state.isValid = true) := by
  rcases recoverySave_written file (Node.firstRound cfg height startedAt) with
    hkept | ⟨hvalid, hwritten⟩
  · exact Or.inl (hkept ▸ h)
  · rw [hwritten] at h
    cases h
    exact Or.inr ⟨rfl, hvalid⟩

theorem Node.sync_file {cfg : LoopConfig} {move : SyncMove} {node : Node}
    {state : ConsensusRoundState} (h : (node.sync cfg move).recoveryFile = some state) :
    node.recoveryFile = some state ∨
      (state = Node.firstRound cfg move.height move.startedAt ∧ state.isValid = true) := by
  by_cases hreplaced : move.recoveryReplaced = true
  · rw [show (node.sync cfg move).recoveryFile = _ from if_pos hreplaced] at h
    exact recoverySave_firstRound h
  · rw [show (node.sync cfg move).recoveryFile = _ from if_neg hreplaced] at h
    exact Or.inl h

theorem signed_invariant {cfg : LoopConfig} (cond : RunCondition)
    (hpath : cfg.hasRecoveryPath = true) : RunInvariant cfg cond (SignedVotes cfg) := by
  refine ⟨?_, ?_, ?_, ?_, ?_⟩
  · rintro node ⟨height, round, startedAt, finalized, hvalid, -⟩
    refine ⟨?_, ?_⟩
    · rintro phase vote ⟨hhanded | hslot, -⟩
      · cases hhanded
      · cases phase <;> cases hslot
    · rintro state ⟨⟩ - phase vote hvote
      cases phase <;> cases hvote
  · exact fun _ _ _ _ _ heffect hsigned => signed_effect hpath heffect hsigned
  · rintro move node - - hsigned
    refine hsigned.frame (fun phase vote h => by cases phase <;> exact h) ?_
    intro state hstate
    rcases Node.sync_file hstate with hold | ⟨rfl, -⟩
    · exact Or.inl hold
    · exact Or.inr (fun phase => by cases phase <;> rfl)
  · rintro height startedAt node - - hsigned
    refine hsigned.frame (fun _ _ h => h) ?_
    intro state hstate
    rcases recoverySave_firstRound hstate with hold | ⟨rfl, -⟩
    · exact Or.inl hold
    · exact Or.inr (fun phase => by cases phase <;> rfl)
  · rintro boot node node' - hstart hsigned
    have hload : ∀ state, state.isValid = true →
        (∀ phase vote, state.persisted phase = some vote → Signed cfg vote) →
        SignedVotes cfg (node.loadFromRecoveryState state boot.finalized (some state)) := by
      intro state hvalid hslots
      refine ⟨?_, ?_⟩
      · rintro phase vote ⟨hhanded | hslot, hdecision⟩
        · exact hsigned.known phase vote ⟨Or.inl hhanded, hdecision⟩
        · exact hslots phase vote (by cases phase <;> exact hslot)
      · rintro state' ⟨⟩ - phase vote hvote
        exact hslots phase vote hvote
    obtain ⟨stored, hfile, hvalid, hcase⟩ := startConsensus_cases hstart
    rcases hcase with ⟨-, -, rfl⟩ | ⟨-, hfresh, rfl⟩
    · exact hload stored hvalid (hsigned.file stored hfile hvalid)
    · refine hload _ hfresh (fun phase vote hvote => ?_)
      cases phase <;> cases hvote

end Nodo.Model
