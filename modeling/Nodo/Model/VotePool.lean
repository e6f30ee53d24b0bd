import Mathlib.Data.Prod.Lex
import Nodo.Model.Certificates
import Nodo.Model.Evidence

/-!
# Nodo — vote pool and network vote collector

`consensus/VotePool.cpp` and `consensus/NetworkVoteCollector.cpp`: the votes a
node has accepted, indexed by block and by (validator, height, round,
decision), and the height and round window in front of them. The pool checks a
vote in itself; it compares neither the previous hash nor the voter with a
block or a registry, and in development mode no signature either.

## Results

* `VotePool.submitVote_outcome` — a vote is admitted under a free key, recorded as
  a conflict with the vote of its key, or dropped.
* `PoolInvariant` — listed votes sit under their own block key and are the
  indexed votes, so one (validator, height, round, decision) is listed once;
  `PoolInvariant.submitVote` and `PoolInvariant.prune` keep it.
* `NetworkVoteCollector.submitNetworkVote_cases` — what the window lets through.
-/

namespace Nodo.Model

def validatorVoteDecisionToString : ValidatorVoteDecision → String
  | .reject => "REJECT"
  | .prevote => "PREVOTE"
  | .precommit => "PRECOMMIT"
  | .unknown => "UNKNOWN"

/-- `VotePoolBlockKey`, ordered by block index, then round, then hash. -/
abbrev VotePoolBlockKey := Nat ×ₗ (Nat ×ₗ String)

def votePoolBlockKey (blockIndex : Nat) (blockHash : String) (round : Nat) : VotePoolBlockKey :=
  toLex (blockIndex, toLex (round, blockHash))

/-- `VotePool::kMaxConflictingVotesPerKey`. -/
def kMaxConflictingVotesPerKey : Nat := 10

structure VotePool where
  votesByBlock : SortedMap VotePoolBlockKey (List ValidatorVoteRecord)
  voteByValidatorHeightRound : SortedMap String ValidatorVoteRecord
  voteIds : SortedMap String Unit
  conflictingVotes : List ValidatorVoteRecord
  conflictingVoteCounts : SortedMap String Nat
  deriving DecidableEq

inductive VotePoolStatus
  | accepted
  | duplicate
  | conflictingVote
  | invalidVote
  deriving DecidableEq, Repr

structure VotePoolResult where
  status : VotePoolStatus
  reason : String
  deriving DecidableEq, Repr

namespace VotePool

def empty : VotePool :=
  ⟨SortedMap.empty, SortedMap.empty, SortedMap.empty, [], SortedMap.empty⟩

/-- `validatorHeightRoundKey(vote)`. -/
def validatorHeightRoundKey (vote : ValidatorVoteRecord) : String :=
  vote.validatorAddress ++ "#" ++ toString vote.blockIndex ++ "#" ++ toString vote.round
    ++ "#" ++ validatorVoteDecisionToString vote.decision

/-- `sameVoteDecision(left, right)`. -/
def sameVoteDecision (left right : ValidatorVoteRecord) : Bool :=
  left.validatorAddress == right.validatorAddress && left.blockIndex == right.blockIndex
    && left.blockHash == right.blockHash && left.previousHash == right.previousHash
    && left.round == right.round && left.decision == right.decision

/-- `isMinimallyValidVote`: in development mode signatures are not checked. -/
def isMinimallyValidVote (crypto : CryptoContext) (vote : ValidatorVoteRecord) : Bool :=
  if vote.validatorAddress.isEmpty || vote.blockIndex == 0 || vote.blockHash.isEmpty
      || vote.previousHash.isEmpty || vote.round == 0 || vote.decision == .unknown
      || vote.createdAt ≤ 0 then false
  else if crypto.developmentMode then true
  else vote.verify crypto

def votesForBlock (pool : VotePool) (blockIndex : Nat) (blockHash : String) (round : Nat) :
    List ValidatorVoteRecord :=
  (pool.votesByBlock.find? (votePoolBlockKey blockIndex blockHash round)).getD []

/-- The accepting tail of `submitVote`. -/
def admitVote (crypto : CryptoContext) (pool : VotePool) (vote : ValidatorVoteRecord) : VotePool :=
  { pool with
    votesByBlock := pool.votesByBlock.insert
      (votePoolBlockKey vote.blockIndex vote.blockHash vote.round)
      (pool.votesForBlock vote.blockIndex vote.blockHash vote.round ++ [vote])
    voteByValidatorHeightRound :=
      pool.voteByValidatorHeightRound.insert (validatorHeightRoundKey vote) vote
    voteIds := pool.voteIds.insert (vote.deterministicId crypto) () }

/-- The conflict-recording branch of `submitVote`. -/
def recordConflict (pool : VotePool) (vote : ValidatorVoteRecord) : VotePool :=
  let key := validatorHeightRoundKey vote
  let count := (pool.conflictingVoteCounts.find? key).getD 0
  if kMaxConflictingVotesPerKey ≤ count then pool
  else
    { pool with
      conflictingVotes := pool.conflictingVotes ++ [vote]
      conflictingVoteCounts := pool.conflictingVoteCounts.insert key (count + 1) }

def submitVote (crypto : CryptoContext) (pool : VotePool) (vote : ValidatorVoteRecord) :
    VotePoolResult × VotePool :=
  if !isMinimallyValidVote crypto vote then
    (⟨.invalidVote, "Vote failed minimal pool validation."⟩, pool)
  else if (vote.deterministicId crypto).isEmpty then
    (⟨.invalidVote, "Vote deterministic id is empty."⟩, pool)
  else if pool.voteIds.contains (vote.deterministicId crypto) then
    (⟨.duplicate, "Validator vote id already exists in pool."⟩, pool)
  else
    match pool.voteByValidatorHeightRound.find? (validatorHeightRoundKey vote) with
    | some existing =>
      if sameVoteDecision existing vote then
        (⟨.duplicate, "Validator vote already exists in pool."⟩, pool)
      else
        (⟨.conflictingVote, "Validator submitted a conflicting vote."⟩, pool.recordConflict vote)
    | none => (⟨.accepted, "Vote accepted into pool."⟩, pool.admitVote crypto vote)

/-- `existingVoteConflictingWith(vote)`. -/
def existingVoteConflictingWith (pool : VotePool) (vote : ValidatorVoteRecord) :
    Option ValidatorVoteRecord :=
  match pool.voteByValidatorHeightRound.find? (validatorHeightRoundKey vote) with
  | none => none
  | some existing => if sameVoteDecision existing vote then none else some existing

end VotePool

--
-- Pruning
--

/-- The optional sign of a number. -/
def splitSign : List Char → Bool × List Char
  | '-' :: rest => (true, rest)
  | '+' :: rest => (false, rest)
  | rest => (false, rest)

/-- `std::stoull`: leading blanks, an optional sign, then the longest run of
digits; `none` where it throws. A minus sign negates modulo `2^64`. -/
def stoull (text : String) : Option Nat :=
  let trimmed := text.toList.dropWhile fun c =>
    [' ', '\t', '\n', '\x0b', '\x0c', '\r'].contains c
  let (negative, body) := splitSign trimmed
  let digits := body.takeWhile Char.isDigit
  let value := digits.foldl (fun acc c => acc * 10 + (c.toNat - '0'.toNat)) 0
  if digits.isEmpty || 2 ^ 64 ≤ value then none
  else some (if negative then (2 ^ 64 - value) % 2 ^ 64 else value)

/-- Whether `prune` keeps a conflict counter: the text between the first two
`#` of its key is read as a height, and a key that does not parse is dropped. -/
def keepsConflictCount (currentHeight : Nat) (key : String) : Bool :=
  match key.toList.dropWhile (· != '#') with
  | [] => true
  | _ :: rest =>
    if (rest.dropWhile (· != '#')).isEmpty then true
    else match stoull (String.ofList (rest.takeWhile (· != '#'))) with
      | some height => currentHeight ≤ height
      | none => false

/-- `VotePool::prune(currentHeight)`. -/
def VotePool.prune (crypto : CryptoContext) (pool : VotePool) (currentHeight : Nat) : VotePool :=
  let stale := pool.voteByValidatorHeightRound.filter (fun _ vote => vote.blockIndex < currentHeight)
  { votesByBlock := pool.votesByBlock.filter (fun key _ => currentHeight ≤ (ofLex key).1)
    voteByValidatorHeightRound :=
      pool.voteByValidatorHeightRound.filter (fun _ vote => currentHeight ≤ vote.blockIndex)
    voteIds := stale.entries.foldl (fun ids e => ids.erase (e.2.deterministicId crypto)) pool.voteIds
    conflictingVotes := pool.conflictingVotes.filter (fun vote => currentHeight ≤ vote.blockIndex)
    conflictingVoteCounts :=
      pool.conflictingVoteCounts.filter (fun key _ => keepsConflictCount currentHeight key) }

--
-- The collector in front of the pool
--

inductive VoteCollectStatus
  | accepted
  | rejectedStaleRound
  | rejectedReplay
  | rejectedConflicting
  | rejectedInvalid
  | rejectedNotEligible
  deriving DecidableEq, Repr

structure VoteCollectResult where
  status : VoteCollectStatus
  reason : String
  doubleVoteEvidence : Option DoubleVoteEvidence
  deriving DecidableEq, Repr

def VoteCollectResult.accepted (result : VoteCollectResult) : Bool := result.status == .accepted

/-- `NetworkVoteCollector`. The eligible list is empty in the consensus flow,
which turns that filter off. -/
structure NetworkVoteCollector where
  pool : VotePool
  currentHeight : Nat
  currentRound : Nat
  eligibleValidators : List String
  deriving DecidableEq

namespace NetworkVoteCollector

/-- `NetworkVoteCollector(currentHeight, currentRound)`. -/
def init (currentHeight currentRound : Nat) : NetworkVoteCollector :=
  ⟨VotePool.empty, currentHeight, currentRound, []⟩

/-- `setCurrentRound(height, round)`. -/
def setCurrentRound (crypto : CryptoContext) (collector : NetworkVoteCollector)
    (height round : Nat) : NetworkVoteCollector :=
  { collector with
    currentHeight := height, currentRound := round, pool := collector.pool.prune crypto height }

/-- `submitNetworkVote`: the window of heights and rounds, then the pool. -/
def submitNetworkVote (crypto : CryptoContext) (collector : NetworkVoteCollector)
    (vote : ValidatorVoteRecord) : VoteCollectResult × NetworkVoteCollector :=
  if !collector.eligibleValidators.isEmpty
      && !collector.eligibleValidators.contains vote.validatorAddress then
    (⟨.rejectedNotEligible,
      "Validator " ++ vote.validatorAddress ++ " is not eligible to vote.", none⟩, collector)
  else if vote.blockIndex < collector.currentHeight then
    (⟨.rejectedStaleRound, "Vote block index " ++ toString vote.blockIndex
      ++ " is below current height " ++ toString collector.currentHeight, none⟩, collector)
  else if vote.blockIndex == collector.currentHeight && vote.round < collector.currentRound then
    (⟨.rejectedStaleRound, "Vote round " ++ toString vote.round
      ++ " is below current round " ++ toString collector.currentRound
      ++ " for height " ++ toString collector.currentHeight, none⟩, collector)
  else if collector.currentHeight < vote.blockIndex then
    (⟨.rejectedInvalid, "Vote block index " ++ toString vote.blockIndex
      ++ " is above current height " ++ toString collector.currentHeight, none⟩, collector)
  else if collector.currentRound < vote.round
      && (collector.currentRound == uint64Max.toNat
        || vote.round != collector.currentRound + 1) then
    (⟨.rejectedInvalid, "Vote round " ++ toString vote.round
      ++ " is more than one round above current round " ++ toString collector.currentRound
      ++ " for height " ++ toString collector.currentHeight, none⟩, collector)
  else
    let (result, pool) := collector.pool.submitVote crypto vote
    let collector := { collector with pool := pool }
    match result.status with
    | .duplicate =>
      (⟨.rejectedReplay, "Duplicate vote detected: " ++ result.reason, none⟩, collector)
    | .conflictingVote =>
      (⟨.rejectedConflicting, "Conflicting vote detected: " ++ result.reason,
        (pool.existingVoteConflictingWith vote).map
          (fun existing => DoubleVoteEvidence.ofVotes crypto existing vote vote.createdAt)⟩,
        collector)
    | .invalidVote =>
      (⟨.rejectedInvalid, "Vote rejected by pool: " ++ result.reason, none⟩, collector)
    | .accepted => (⟨.accepted, "Vote accepted.", none⟩, collector)

end NetworkVoteCollector

--
-- The representation invariant
--

/-- Every listed vote sits under its own block key and is the vote indexed for
its (validator, height, round, decision); a list holds no such key twice. -/
structure PoolInvariant (pool : VotePool) : Prop where
  own_key : ∀ key votes, pool.votesByBlock.find? key = some votes → ∀ vote ∈ votes,
    key = votePoolBlockKey vote.blockIndex vote.blockHash vote.round
  indexed : ∀ key votes, pool.votesByBlock.find? key = some votes → ∀ vote ∈ votes,
    pool.voteByValidatorHeightRound.find? (VotePool.validatorHeightRoundKey vote) = some vote
  distinct : ∀ key votes, pool.votesByBlock.find? key = some votes →
    votes.Pairwise fun a b =>
      VotePool.validatorHeightRoundKey a ≠ VotePool.validatorHeightRoundKey b

/-- The votes a pool lists. -/
def VotePool.Lists (pool : VotePool) (vote : ValidatorVoteRecord) : Prop :=
  vote ∈ pool.votesForBlock vote.blockIndex vote.blockHash vote.round

theorem votePoolBlockKey_inj {i i' r r' : Nat} {h h' : String} :
    votePoolBlockKey i h r = votePoolBlockKey i' h' r' ↔ i = i' ∧ h = h' ∧ r = r' := by
  unfold votePoolBlockKey
  constructor
  · intro heq
    have hpair := Prod.mk.inj (toLex_inj.mp heq)
    have htail := Prod.mk.inj (toLex_inj.mp hpair.2)
    exact ⟨hpair.1, htail.2, htail.1⟩
  · rintro ⟨rfl, rfl, rfl⟩
    rfl

theorem VotePool.mem_votesForBlock {pool : VotePool} {i r : Nat} {h : String}
    {vote : ValidatorVoteRecord} :
    vote ∈ pool.votesForBlock i h r ↔
      ∃ votes, pool.votesByBlock.find? (votePoolBlockKey i h r) = some votes ∧ vote ∈ votes := by
  unfold VotePool.votesForBlock
  cases hfind : pool.votesByBlock.find? (votePoolBlockKey i h r) with
  | none => simp
  | some votes => simp

theorem VotePool.recordConflict_indexes (pool : VotePool) (vote : ValidatorVoteRecord) :
    (pool.recordConflict vote).votesByBlock = pool.votesByBlock ∧
      (pool.recordConflict vote).voteByValidatorHeightRound = pool.voteByValidatorHeightRound := by
  unfold VotePool.recordConflict
  dsimp only
  split_ifs
  · exact ⟨rfl, rfl⟩
  · exact ⟨rfl, rfl⟩

/-- What `submitVote` can do: nothing, admit the vote, whose id and key were free,
or record a conflict with the vote indexed under its key. -/
theorem VotePool.submitVote_outcome {crypto : CryptoContext} {pool pool' : VotePool}
    {vote : ValidatorVoteRecord} {result : VotePoolResult}
    (h : pool.submitVote crypto vote = (result, pool')) :
    (result.status ≠ .accepted ∧ pool' = pool) ∨
    (isMinimallyValidVote crypto vote = true ∧
      pool.voteIds.contains (vote.deterministicId crypto) = false ∧
      pool.voteByValidatorHeightRound.find? (validatorHeightRoundKey vote) = none ∧
      result.status = .accepted ∧ pool' = pool.admitVote crypto vote) ∨
    (∃ existing,
      pool.voteByValidatorHeightRound.find? (validatorHeightRoundKey vote) = some existing ∧
      sameVoteDecision existing vote = false ∧ result.status ≠ .accepted ∧
      pool' = pool.recordConflict vote) := by
  unfold VotePool.submitVote at h
  split_ifs at h with hvalid hempty hknown
  · obtain ⟨rfl, rfl⟩ := Prod.mk.inj h
    exact Or.inl ⟨by simp, rfl⟩
  · obtain ⟨rfl, rfl⟩ := Prod.mk.inj h
    exact Or.inl ⟨by simp, rfl⟩
  · obtain ⟨rfl, rfl⟩ := Prod.mk.inj h
    exact Or.inl ⟨by simp, rfl⟩
  · split at h
    · rename_i existing hfind
      split_ifs at h with hsame
      · obtain ⟨rfl, rfl⟩ := Prod.mk.inj h
        exact Or.inl ⟨by simp, rfl⟩
      · obtain ⟨rfl, rfl⟩ := Prod.mk.inj h
        exact Or.inr (Or.inr ⟨existing, hfind, by simpa using hsame, by simp, rfl⟩)
    · rename_i hfree
      obtain ⟨rfl, rfl⟩ := Prod.mk.inj h
      exact Or.inr (Or.inl ⟨by simpa using hvalid, by simpa using hknown, hfree, rfl, rfl⟩)

/-- On the listed and indexed votes, `submitVote` admits the vote or does nothing. -/
theorem VotePool.submitVote_cases {crypto : CryptoContext} {pool pool' : VotePool}
    {vote : ValidatorVoteRecord} {result : VotePoolResult}
    (h : pool.submitVote crypto vote = (result, pool')) :
    (isMinimallyValidVote crypto vote = true ∧
      pool.voteByValidatorHeightRound.find? (validatorHeightRoundKey vote) = none ∧
      result.status = .accepted ∧ pool' = pool.admitVote crypto vote) ∨
    (result.status ≠ .accepted ∧ pool'.votesByBlock = pool.votesByBlock ∧
      pool'.voteByValidatorHeightRound = pool.voteByValidatorHeightRound) := by
  rcases submitVote_outcome h with ⟨hstatus, rfl⟩ | ⟨hvalid, -, hfree, hstatus, rfl⟩ |
    ⟨_, -, -, hstatus, rfl⟩
  · exact Or.inr ⟨hstatus, rfl, rfl⟩
  · exact Or.inl ⟨hvalid, hfree, hstatus, rfl⟩
  · exact Or.inr ⟨hstatus, recordConflict_indexes pool vote⟩

theorem poolInvariant_empty : PoolInvariant VotePool.empty := by
  refine ⟨?_, ?_, ?_⟩ <;> · intro key votes h; cases h

/-- Outside development mode the pool checks the signature. -/
theorem VotePool.verify_of_isMinimallyValidVote {crypto : CryptoContext}
    {vote : ValidatorVoteRecord} (h : isMinimallyValidVote crypto vote = true)
    (hmode : crypto.developmentMode = false) : vote.verify crypto = true := by
  obtain ⟨-, h⟩ := Guards.true_of_ite_false h
  rw [if_neg (by simp [hmode])] at h
  exact h

/-- The lists after an admission: the vote joins the list of its own block. -/
theorem VotePool.find?_admit_votesByBlock (crypto : CryptoContext) (pool : VotePool)
    (vote : ValidatorVoteRecord) {key : VotePoolBlockKey} {votes : List ValidatorVoteRecord}
    (h : (pool.admitVote crypto vote).votesByBlock.find? key = some votes) :
    (key = votePoolBlockKey vote.blockIndex vote.blockHash vote.round ∧
      votes = pool.votesForBlock vote.blockIndex vote.blockHash vote.round ++ [vote]) ∨
    pool.votesByBlock.find? key = some votes := by
  unfold VotePool.admitVote at h
  rw [SortedMap.find?_insert] at h
  split_ifs at h with hkey
  · exact Or.inl ⟨hkey.symm, (Option.some.inj h).symm⟩
  · exact Or.inr h

theorem PoolInvariant.votesForBlock_indexed {pool : VotePool} (hInv : PoolInvariant pool)
    {i r : Nat} {h : String} {vote : ValidatorVoteRecord} (hmem : vote ∈ pool.votesForBlock i h r) :
    vote.blockIndex = i ∧ vote.blockHash = h ∧ vote.round = r ∧
      pool.voteByValidatorHeightRound.find? (VotePool.validatorHeightRoundKey vote) = some vote := by
  obtain ⟨votes, hfind, hin⟩ := VotePool.mem_votesForBlock.mp hmem
  have hkey := votePoolBlockKey_inj.mp (hInv.own_key _ _ hfind vote hin)
  exact ⟨hkey.1.symm, hkey.2.1.symm, hkey.2.2.symm, hInv.indexed _ _ hfind vote hin⟩

theorem PoolInvariant.votesForBlock_distinct {pool : VotePool} (hInv : PoolInvariant pool)
    (i r : Nat) (h : String) :
    (pool.votesForBlock i h r).Pairwise fun a b =>
      VotePool.validatorHeightRoundKey a ≠ VotePool.validatorHeightRoundKey b := by
  unfold VotePool.votesForBlock
  cases hfind : pool.votesByBlock.find? (votePoolBlockKey i h r) with
  | none => simp
  | some votes => exact hInv.distinct _ _ hfind

/-- Admission keeps the invariant when the vote's key is free. -/
theorem PoolInvariant.admitVote {crypto : CryptoContext} {pool : VotePool}
    {vote : ValidatorVoteRecord} (hInv : PoolInvariant pool)
    (hFree : pool.voteByValidatorHeightRound.find? (VotePool.validatorHeightRoundKey vote) = none) :
    PoolInvariant (pool.admitVote crypto vote) := by
  -- a listed vote is indexed, so its key differs from the free one
  have hOld : ∀ other, pool.voteByValidatorHeightRound.find?
      (VotePool.validatorHeightRoundKey other) = some other →
      VotePool.validatorHeightRoundKey vote ≠ VotePool.validatorHeightRoundKey other := by
    intro other hother heq
    rw [← heq, hFree] at hother
    cases hother
  have hIndex : ∀ other, pool.voteByValidatorHeightRound.find?
      (VotePool.validatorHeightRoundKey other) = some other →
      (pool.admitVote crypto vote).voteByValidatorHeightRound.find?
        (VotePool.validatorHeightRoundKey other) = some other := by
    intro other hother
    show (pool.voteByValidatorHeightRound.insert _ vote).find? _ = some other
    rw [SortedMap.find?_insert_of_ne _ _ (hOld other hother)]
    exact hother
  refine ⟨?_, ?_, ?_⟩
  · intro key votes hfind other hmem
    rcases VotePool.find?_admit_votesByBlock crypto pool vote hfind with ⟨rfl, rfl⟩ | hold
    · rcases List.mem_append.mp hmem with hprev | hnew
      · obtain ⟨h1, h2, h3, -⟩ := hInv.votesForBlock_indexed hprev
        rw [h1, h2, h3]
      · rw [List.mem_singleton.mp hnew]
    · exact hInv.own_key key votes hold other hmem
  · intro key votes hfind other hmem
    rcases VotePool.find?_admit_votesByBlock crypto pool vote hfind with ⟨rfl, rfl⟩ | hold
    · rcases List.mem_append.mp hmem with hprev | hnew
      · exact hIndex other (hInv.votesForBlock_indexed hprev).2.2.2
      · rw [List.mem_singleton.mp hnew]
        exact SortedMap.find?_insert_self _ _ _
    · exact hIndex other (hInv.indexed key votes hold other hmem)
  · intro key votes hfind
    rcases VotePool.find?_admit_votesByBlock crypto pool vote hfind with ⟨rfl, rfl⟩ | hold
    · rw [List.pairwise_append]
      refine ⟨hInv.votesForBlock_distinct _ _ _, by simp, ?_⟩
      intro other hother new hnew
      rw [List.mem_singleton.mp hnew]
      exact (hOld other (hInv.votesForBlock_indexed hother).2.2.2).symm
    · exact hInv.distinct key votes hold

/-- The invariant reads the two indexes only. -/
theorem PoolInvariant.congr {pool pool' : VotePool} (hInv : PoolInvariant pool)
    (hvotes : pool'.votesByBlock = pool.votesByBlock)
    (hindex : pool'.voteByValidatorHeightRound = pool.voteByValidatorHeightRound) :
    PoolInvariant pool' := by
  obtain ⟨h1, h2, h3⟩ := hInv
  refine ⟨?_, ?_, ?_⟩
  · rw [hvotes]; exact h1
  · rw [hvotes, hindex]; exact h2
  · rw [hvotes]; exact h3

theorem PoolInvariant.submitVote {crypto : CryptoContext} {pool : VotePool}
    (hInv : PoolInvariant pool) (vote : ValidatorVoteRecord) :
    PoolInvariant (pool.submitVote crypto vote).2 := by
  rcases VotePool.submitVote_cases (Prod.mk.eta (p := pool.submitVote crypto vote)).symm with
    ⟨-, hfree, -, heq⟩ | ⟨-, hvotes, hindex⟩
  · rw [heq]
    exact hInv.admitVote hfree
  · exact hInv.congr hvotes hindex

theorem PoolInvariant.prune {crypto : CryptoContext} {pool : VotePool}
    (hInv : PoolInvariant pool) (height : Nat) : PoolInvariant (pool.prune crypto height) := by
  refine ⟨?_, ?_, ?_⟩
  · intro key votes hfind
    exact hInv.own_key key votes ((SortedMap.find?_filter_eq_some _ _).mp hfind).1
  · intro key votes hfind vote hmem
    obtain ⟨hold, hkeep⟩ := (SortedMap.find?_filter_eq_some _ _).mp hfind
    refine (SortedMap.find?_filter_eq_some _ _).mpr ⟨hInv.indexed key votes hold vote hmem, ?_⟩
    rw [hInv.own_key key votes hold vote hmem] at hkeep
    exact hkeep
  · intro key votes hfind
    exact hInv.distinct key votes ((SortedMap.find?_filter_eq_some _ _).mp hfind).1

/-- What the collector can do with a vote: nothing to the pool, or one
`submitVote` of a vote of the current height in the current or the next round. -/
theorem NetworkVoteCollector.submitNetworkVote_cases (crypto : CryptoContext)
    (collector : NetworkVoteCollector) (vote : ValidatorVoteRecord) :
    ((collector.submitNetworkVote crypto vote).2 = collector ∧
      (collector.submitNetworkVote crypto vote).1.accepted = false) ∨
    (vote.blockIndex = collector.currentHeight ∧
      (vote.round = collector.currentRound ∨ vote.round = collector.currentRound + 1) ∧
      (collector.submitNetworkVote crypto vote).2
        = { collector with pool := (collector.pool.submitVote crypto vote).2 } ∧
      ((collector.submitNetworkVote crypto vote).1.accepted = true ↔
        (collector.pool.submitVote crypto vote).1.status = .accepted)) := by
  unfold NetworkVoteCollector.submitNetworkVote
  split_ifs with h1 h2 h3 h4 h5
  · exact Or.inl ⟨rfl, rfl⟩
  · exact Or.inl ⟨rfl, rfl⟩
  · exact Or.inl ⟨rfl, rfl⟩
  · exact Or.inl ⟨rfl, rfl⟩
  · exact Or.inl ⟨rfl, rfl⟩
  · have hheight : vote.blockIndex = collector.currentHeight := by omega
    have hround : vote.round = collector.currentRound ∨
        vote.round = collector.currentRound + 1 := by
      simp only [hheight, beq_self_eq_true, Bool.true_and, decide_eq_true_eq] at h3
      by_cases hnext : vote.round = collector.currentRound + 1
      · exact Or.inr hnext
      · simp [hnext] at h5
        omega
    refine Or.inr ⟨hheight, hround, ?_, ?_⟩
    · dsimp only
      split <;> rfl
    · dsimp only
      split <;> simp_all [VoteCollectResult.accepted]

/-- What a pool lists after a submission. -/
theorem NetworkVoteCollector.mem_submitNetworkVote {crypto : CryptoContext}
    {collector : NetworkVoteCollector} {vote other : ValidatorVoteRecord} {i r : Nat} {h : String}
    (hmem : other ∈ (collector.submitNetworkVote crypto vote).2.pool.votesForBlock i h r) :
    other ∈ collector.pool.votesForBlock i h r ∨
      (other = vote ∧ VotePool.isMinimallyValidVote crypto vote = true) := by
  rcases collector.submitNetworkVote_cases crypto vote with ⟨hsame, -⟩ | ⟨-, -, hsubmit, -⟩
  · rw [hsame] at hmem
    exact Or.inl hmem
  · rw [hsubmit] at hmem
    rcases VotePool.submitVote_cases (Prod.mk.eta (p := collector.pool.submitVote crypto vote)).symm
      with ⟨hvalid, -, -, hadmitted⟩ | ⟨-, hvotes, -⟩
    · rw [hadmitted] at hmem
      obtain ⟨votes, hfind, hin⟩ := VotePool.mem_votesForBlock.mp hmem
      rcases VotePool.find?_admit_votesByBlock crypto collector.pool vote hfind with
        ⟨hkey, rfl⟩ | hold
      · rcases List.mem_append.mp hin with hprev | hnew
        · obtain ⟨rfl, rfl, rfl⟩ := votePoolBlockKey_inj.mp hkey
          exact Or.inl hprev
        · exact Or.inr ⟨List.mem_singleton.mp hnew, hvalid⟩
      · exact Or.inl (VotePool.mem_votesForBlock.mpr ⟨votes, hold, hin⟩)
    · refine Or.inl ?_
      rw [VotePool.mem_votesForBlock] at hmem ⊢
      rw [hvotes] at hmem
      exact hmem

/-- Pruning lists nothing new. -/
theorem VotePool.mem_prune {crypto : CryptoContext} {pool : VotePool} {vote : ValidatorVoteRecord}
    {height i r : Nat} {h : String} (hmem : vote ∈ (pool.prune crypto height).votesForBlock i h r) :
    vote ∈ pool.votesForBlock i h r := by
  obtain ⟨votes, hfind, hin⟩ := VotePool.mem_votesForBlock.mp hmem
  exact VotePool.mem_votesForBlock.mpr
    ⟨votes, ((SortedMap.find?_filter_eq_some _ _).mp hfind).1, hin⟩

end Nodo.Model
