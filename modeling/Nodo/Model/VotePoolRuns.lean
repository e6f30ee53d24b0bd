import Nodo.Lib.Text
import Nodo.Model.VotePool

/-!
# Nodo — the containers of the vote pool

`VotePool` keeps five containers by hand: the lists by block, the index by
(validator, height, round, decision), the set of vote ids, the conflicting votes
and a counter for each of their keys. `PoolRepresentation` says how they agree
after any sequence of `submitVote` and `prune`.

`prune` reads the height of a counter back from the text of its key, between the
first two `#`. A validator address with a `#` in it, which the pool admits in
development mode, moves the cut: the counter goes while its conflicts stay.

## Results

* `validatorHeightRoundKey_inj` — a key stands for one (validator, height, round,
  decision), whatever the address.
* `keepsConflictCount_key` — without a `#` in the address, `prune` reads the
  height of a counter.
* `pool_representation` — the containers agree after every sequence of calls on
  such votes, and a prune is exact on all five.
* `hash_address_loses_counter` — a `#` in an address breaks the counters.
-/

namespace Nodo.Model

--
-- Keys as texts
--

/-- A printed number starts with a digit, so neither with a blank nor with a sign. -/
theorem splitSign_toString (n : Nat) :
    splitSign ((toString n).toList.dropWhile fun c =>
      [' ', '\t', '\n', '\x0b', '\x0c', '\r'].contains c) = (false, (toString n).toList) := by
  obtain ⟨first, rest, hcons⟩ := List.exists_cons_of_ne_nil (Text.toString_nat_ne_nil n)
  have hfirst : first.isDigit = true :=
    Text.isDigit_of_mem_toString (by rw [hcons]; exact List.mem_cons_self)
  have hnot : ∀ c : Char, c.isDigit = false → first ≠ c := by
    rintro c hc rfl
    rw [hfirst] at hc
    cases hc
  have hblank : ([' ', '\t', '\n', '\x0b', '\x0c', '\r'].contains first) = false := by
    simp only [List.contains_eq_mem, List.mem_cons, List.not_mem_nil, or_false,
      decide_eq_false_iff_not, not_or]
    exact ⟨hnot _ rfl, hnot _ rfl, hnot _ rfl, hnot _ rfl, hnot _ rfl, hnot _ rfl⟩
  rw [hcons, List.dropWhile_cons_of_neg (by rw [hblank]; decide)]
  unfold splitSign
  split
  · rename_i heq
    exact absurd (List.cons.inj heq).1 (hnot '-' rfl)
  · rename_i heq
    exact absurd (List.cons.inj heq).1 (hnot '+' rfl)
  · rfl

/-- `std::stoull` reads back what `std::to_string` writes. -/
theorem stoull_toString {n : Nat} (h : n < 2 ^ 64) : stoull (toString n) = some n := by
  have hdigits : (toString n).toList.takeWhile Char.isDigit = (toString n).toList := by
    rw [List.takeWhile_eq_self_iff]
    exact fun c hc => Text.isDigit_of_mem_toString hc
  unfold stoull
  dsimp only
  rw [splitSign_toString]
  dsimp only
  rw [hdigits, Text.foldl_digits_toString, if_neg (by simpa using h)]
  rfl

theorem validatorVoteDecisionToString_inj {a b : ValidatorVoteDecision}
    (h : validatorVoteDecisionToString a = validatorVoteDecisionToString b) : a = b := by
  cases a <;> cases b <;> first | rfl | (exact absurd h (by decide))

theorem hash_not_mem_decision (decision : ValidatorVoteDecision) :
    '#' ∉ (validatorVoteDecisionToString decision).toList := by
  cases decision <;> decide

theorem toList_validatorHeightRoundKey (vote : ValidatorVoteRecord) :
    (VotePool.validatorHeightRoundKey vote).toList = vote.validatorAddress.toList ++ '#' ::
      ((toString vote.blockIndex).toList ++ '#' :: ((toString vote.round).toList ++ '#' ::
        (validatorVoteDecisionToString vote.decision).toList)) := by
  simp [VotePool.validatorHeightRoundKey, String.toList_append]

/-- A key stands for one (validator, height, round, decision): reading it from the
right, every field but the address is free of `#`. -/
theorem validatorHeightRoundKey_inj {a b : ValidatorVoteRecord} :
    VotePool.validatorHeightRoundKey a = VotePool.validatorHeightRoundKey b ↔
      a.validatorAddress = b.validatorAddress ∧ a.blockIndex = b.blockIndex ∧ a.round = b.round ∧
        a.decision = b.decision := by
  constructor
  · intro h
    have hlist := congrArg String.toList h
    rw [toList_validatorHeightRoundKey, toList_validatorHeightRoundKey] at hlist
    have hassoc : ∀ w x y z : List Char, w ++ '#' :: (x ++ '#' :: (y ++ '#' :: z))
        = ((w ++ '#' :: x) ++ '#' :: y) ++ '#' :: z := by simp
    rw [hassoc, hassoc] at hlist
    obtain ⟨hlist, hdecision⟩ := Text.append_last_delimiter_inj (hash_not_mem_decision _)
      (hash_not_mem_decision _) hlist
    obtain ⟨hlist, hround⟩ := Text.append_last_delimiter_inj (Text.not_mem_toString rfl)
      (Text.not_mem_toString rfl) hlist
    obtain ⟨haddress, hindex⟩ := Text.append_last_delimiter_inj (Text.not_mem_toString rfl)
      (Text.not_mem_toString rfl) hlist
    exact ⟨String.toList_injective haddress, Text.toString_nat_inj (String.toList_injective hindex),
      Text.toString_nat_inj (String.toList_injective hround),
      validatorVoteDecisionToString_inj (String.toList_injective hdecision)⟩
  · rintro ⟨haddress, hindex, hround, hdecision⟩
    unfold VotePool.validatorHeightRoundKey
    rw [haddress, hindex, hround, hdecision]

/-- A vote of a 64-bit height whose address has no `#`. -/
structure Delimited (vote : ValidatorVoteRecord) : Prop where
  height : vote.blockIndex < 2 ^ 64
  address : '#' ∉ vote.validatorAddress.toList

/-- `prune` reads the height of a counter. -/
theorem keepsConflictCount_key {vote : ValidatorVoteRecord} (h : Delimited vote) (height : Nat) :
    keepsConflictCount height (VotePool.validatorHeightRoundKey vote)
      = decide (height ≤ vote.blockIndex) := by
  have hindex : '#' ∉ (toString vote.blockIndex).toList := Text.not_mem_toString rfl
  unfold keepsConflictCount
  rw [toList_validatorHeightRoundKey, Text.dropWhile_delimiter h.address]
  dsimp only
  rw [Text.dropWhile_delimiter hindex, Text.takeWhile_delimiter hindex, if_neg (by simp),
    String.ofList_toList, stoull_toString h.height]

--
-- The five containers
--

namespace VotePool

/-- The votes under `m_votesByBlock`. -/
def listed (pool : VotePool) : List ValidatorVoteRecord :=
  pool.votesByBlock.entries.flatMap (·.2)

/-- The values of `m_voteByValidatorHeightRound`. -/
def indexed (pool : VotePool) : List ValidatorVoteRecord :=
  pool.voteByValidatorHeightRound.entries.map (·.2)

/-- The recorded conflicts of a key. -/
def conflictsOf (pool : VotePool) (key : String) : List ValidatorVoteRecord :=
  pool.conflictingVotes.filter (fun vote => validatorHeightRoundKey vote == key)

theorem mem_indexed {pool : VotePool} {vote : ValidatorVoteRecord} :
    vote ∈ pool.indexed ↔ ∃ key, pool.voteByValidatorHeightRound.find? key = some vote := by
  unfold indexed
  rw [List.mem_map]
  constructor
  · rintro ⟨⟨key, other⟩, hentry, rfl⟩
    exact ⟨key, (SortedMap.find?_eq_some_iff _).mpr hentry⟩
  · rintro ⟨key, hfind⟩
    exact ⟨(key, vote), (SortedMap.find?_eq_some_iff _).mp hfind, rfl⟩

end VotePool

/-- How the containers of a pool agree. -/
structure PoolRepresentation (crypto : CryptoContext) (pool : VotePool) : Prop where
  /-- The listed votes are the indexed ones, each once. -/
  counted : pool.listed.Perm pool.indexed
  once : pool.listed.Nodup
  own_block : ∀ key votes, pool.votesByBlock.find? key = some votes → ∀ vote ∈ votes,
    key = votePoolBlockKey vote.blockIndex vote.blockHash vote.round
  own_ballot : ∀ key vote, pool.voteByValidatorHeightRound.find? key = some vote →
    key = VotePool.validatorHeightRoundKey vote
  single : ∀ a ∈ pool.listed, ∀ b ∈ pool.listed, a.validatorAddress = b.validatorAddress →
    a.blockIndex = b.blockIndex → a.round = b.round → a.decision = b.decision → a = b
  ids : ∀ id, pool.voteIds.contains id = true ↔
    ∃ vote ∈ pool.listed, vote.deterministicId crypto = id
  disjoint : ∀ vote ∈ pool.conflictingVotes, vote ∉ pool.listed
  bounded : ∀ key, (pool.conflictsOf key).length ≤ kMaxConflictingVotesPerKey
  counters : ∀ key,
    (pool.conflictingVoteCounts.find? key).getD 0 = (pool.conflictsOf key).length

/-- What a prune to `height` leaves in the five containers. -/
structure PruneExact (crypto : CryptoContext) (height : Nat) (pool pruned : VotePool) : Prop where
  lists : ∀ index hash round, pruned.votesForBlock index hash round
    = if height ≤ index then pool.votesForBlock index hash round else []
  index : ∀ vote, pruned.voteByValidatorHeightRound.find? (VotePool.validatorHeightRoundKey vote)
    = if height ≤ vote.blockIndex then
        pool.voteByValidatorHeightRound.find? (VotePool.validatorHeightRoundKey vote)
      else none
  ids : ∀ id, pruned.voteIds.contains id = true ↔
    ∃ vote ∈ pool.listed, height ≤ vote.blockIndex ∧ vote.deterministicId crypto = id
  conflicts : pruned.conflictingVotes
    = pool.conflictingVotes.filter (fun vote => height ≤ vote.blockIndex)
  counts : ∀ key count, pruned.conflictingVoteCounts.find? key = some count ↔
    pool.conflictingVoteCounts.find? key = some count ∧
      ∃ vote ∈ pool.conflictingVotes, height ≤ vote.blockIndex ∧
        VotePool.validatorHeightRoundKey vote = key

--
-- The invariant
--

/-- What one call needs to know of a pool and keeps. -/
structure PoolCore (crypto : CryptoContext) (pool : VotePool) : Prop where
  counted : pool.listed.Perm pool.indexed
  own_block : ∀ key votes, pool.votesByBlock.find? key = some votes → ∀ vote ∈ votes,
    key = votePoolBlockKey vote.blockIndex vote.blockHash vote.round
  own_ballot : ∀ key vote, pool.voteByValidatorHeightRound.find? key = some vote →
    key = VotePool.validatorHeightRoundKey vote
  ids : ∀ id, pool.voteIds.contains id = true ↔
    ∃ vote ∈ pool.listed, vote.deterministicId crypto = id
  /-- So erasing the id of a pruned vote takes no other vote's id. -/
  ids_distinct : ∀ a ∈ pool.listed, ∀ b ∈ pool.listed,
    a.deterministicId crypto = b.deterministicId crypto → a = b
  /-- A recorded conflict has a counted opponent. -/
  opposed : ∀ vote ∈ pool.conflictingVotes, ∃ existing,
    pool.voteByValidatorHeightRound.find? (VotePool.validatorHeightRoundKey vote) = some existing ∧
      VotePool.sameVoteDecision existing vote = false
  delimited : ∀ vote ∈ pool.conflictingVotes, Delimited vote
  bounded : ∀ key, (pool.conflictsOf key).length ≤ kMaxConflictingVotesPerKey
  counters : ∀ key,
    (pool.conflictingVoteCounts.find? key).getD 0 = (pool.conflictsOf key).length
  /-- A counter is never zero. -/
  positive : ∀ key count, pool.conflictingVoteCounts.find? key = some count → 0 < count

namespace PoolCore

variable {crypto : CryptoContext} {pool : VotePool}

/-- A counted vote is indexed under its own key. -/
theorem find?_key (h : PoolCore crypto pool) {vote : ValidatorVoteRecord}
    (hvote : vote ∈ pool.listed) :
    pool.voteByValidatorHeightRound.find? (VotePool.validatorHeightRoundKey vote) = some vote := by
  obtain ⟨key, hfind⟩ := VotePool.mem_indexed.mp (h.counted.mem_iff.mp hvote)
  rw [← h.own_ballot key vote hfind]
  exact hfind

theorem representation (h : PoolCore crypto pool) : PoolRepresentation crypto pool := by
  have hunique : ∀ a ∈ pool.listed, ∀ b ∈ pool.listed,
      VotePool.validatorHeightRoundKey a = VotePool.validatorHeightRoundKey b → a = b := by
    intro a ha b hb hkey
    have hfind := h.find?_key ha
    rw [hkey, h.find?_key hb] at hfind
    exact (Option.some.inj hfind).symm
  have hindexed : pool.indexed.Nodup := by
    refine List.Nodup.map_on ?_ (List.Nodup.of_map _ pool.voteByValidatorHeightRound.keys_nodup)
    rintro ⟨key, vote⟩ hentry ⟨key', vote'⟩ hentry' heq
    have hkey := h.own_ballot key vote ((SortedMap.find?_eq_some_iff _).mpr hentry)
    have hkey' := h.own_ballot key' vote' ((SortedMap.find?_eq_some_iff _).mpr hentry')
    dsimp only at heq
    rw [hkey, hkey', heq]
  refine ⟨h.counted, h.counted.nodup_iff.mpr hindexed, h.own_block, h.own_ballot, ?_, h.ids, ?_,
    h.bounded, h.counters⟩
  · intro a ha b hb haddress hindex hround hdecision
    exact hunique a ha b hb (validatorHeightRoundKey_inj.mpr ⟨haddress, hindex, hround, hdecision⟩)
  · intro vote hconflict hlisted
    obtain ⟨existing, hfind, hopposed⟩ := h.opposed vote hconflict
    rw [h.find?_key hlisted] at hfind
    cases hfind
    simp [VotePool.sameVoteDecision] at hopposed

theorem empty (crypto : CryptoContext) : PoolCore crypto .empty := by
  refine ⟨List.Perm.refl _, ?_, ?_, ?_, ?_, ?_, ?_, ?_, ?_, ?_⟩
  · intro key votes hfind
    cases hfind
  · intro key vote hfind
    cases hfind
  · intro id
    simp [VotePool.empty, VotePool.listed, SortedMap.contains, SortedMap.empty, SortedMap.find?]
  · intro a ha
    cases ha
  · intro vote hvote
    cases hvote
  · intro vote hvote
    cases hvote
  · intro key
    exact Nat.zero_le _
  · intro key
    rfl
  · intro key count hfind
    cases hfind

/-- An admitted vote joins the lists. -/
theorem listed_admitVote (crypto : CryptoContext) (pool : VotePool) (vote : ValidatorVoteRecord) :
    (pool.admitVote crypto vote).listed.Perm (vote :: pool.listed) := by
  have hold : pool.listed.Perm (pool.votesForBlock vote.blockIndex vote.blockHash vote.round ++
      (pool.votesByBlock.erase
        (votePoolBlockKey vote.blockIndex vote.blockHash vote.round)).entries.flatMap (·.2)) := by
    unfold VotePool.listed VotePool.votesForBlock
    cases hfind : pool.votesByBlock.find?
      (votePoolBlockKey vote.blockIndex vote.blockHash vote.round) with
    | none => rw [pool.votesByBlock.erase_of_find?_none hfind]; exact List.Perm.refl _
    | some votes => exact (pool.votesByBlock.erase_perm hfind).flatMap_right _
  have hnew := (pool.votesByBlock.insert_perm
    (votePoolBlockKey vote.blockIndex vote.blockHash vote.round)
    (pool.votesForBlock vote.blockIndex vote.blockHash vote.round ++ [vote])).flatMap_right (·.2)
  refine hnew.trans ?_
  rw [List.flatMap_cons, List.append_assoc, List.singleton_append]
  exact List.perm_middle.trans (List.Perm.cons vote hold.symm)

theorem mem_listed_admitVote {vote other : ValidatorVoteRecord} :
    other ∈ (pool.admitVote crypto vote).listed ↔ other = vote ∨ other ∈ pool.listed := by
  rw [(listed_admitVote crypto pool vote).mem_iff, List.mem_cons]

/-- Admission under a free id and key. -/
theorem admitVote (h : PoolCore crypto pool) {vote : ValidatorVoteRecord}
    (hid : pool.voteIds.contains (vote.deterministicId crypto) = false)
    (hfree : pool.voteByValidatorHeightRound.find? (VotePool.validatorHeightRoundKey vote) = none) :
    PoolCore crypto (pool.admitVote crypto vote) := by
  have hfresh : ∀ other ∈ pool.listed,
      other.deterministicId crypto ≠ vote.deterministicId crypto := by
    intro other hother heq
    have hin := (h.ids _).mpr ⟨other, hother, heq⟩
    rw [hid] at hin
    cases hin
  refine ⟨?_, ?_, ?_, ?_, ?_, ?_, h.delimited, h.bounded, h.counters, h.positive⟩
  · have hindexed : (pool.admitVote crypto vote).indexed.Perm (vote :: pool.indexed) := by
      have hentries := (pool.voteByValidatorHeightRound.insert_perm
        (VotePool.validatorHeightRoundKey vote) vote).map (·.2)
      rw [List.map_cons, pool.voteByValidatorHeightRound.erase_of_find?_none hfree] at hentries
      exact hentries
    exact ((listed_admitVote crypto pool vote).trans (h.counted.cons vote)).trans hindexed.symm
  · intro key votes hfind other hother
    rcases VotePool.find?_admit_votesByBlock crypto pool vote hfind with ⟨rfl, rfl⟩ | hold
    · rcases List.mem_append.mp hother with hprev | hnew
      · obtain ⟨votes, hvotes, hin⟩ := VotePool.mem_votesForBlock.mp hprev
        exact h.own_block _ votes hvotes other hin
      · rw [List.mem_singleton.mp hnew]
    · exact h.own_block key votes hold other hother
  · intro key other hfind
    have hcases := pool.voteByValidatorHeightRound.find?_insert
      (VotePool.validatorHeightRoundKey vote) key vote
    rw [show (pool.admitVote crypto vote).voteByValidatorHeightRound.find? key = _ from hcases] at hfind
    split_ifs at hfind with hkey
    · rw [← hkey, Option.some.inj hfind]
    · exact h.own_ballot key other hfind
  · intro id
    rw [show (pool.admitVote crypto vote).voteIds.contains id = true ↔ _ from
      pool.voteIds.contains_insert (), h.ids]
    constructor
    · rintro (rfl | ⟨other, hother, rfl⟩)
      · exact ⟨vote, mem_listed_admitVote.mpr (Or.inl rfl), rfl⟩
      · exact ⟨other, mem_listed_admitVote.mpr (Or.inr hother), rfl⟩
    · rintro ⟨other, hother, rfl⟩
      rcases mem_listed_admitVote.mp hother with rfl | hold
      · exact Or.inl rfl
      · exact Or.inr ⟨other, hold, rfl⟩
  · intro a ha b hb heq
    rcases mem_listed_admitVote.mp ha with rfl | hold
    · rcases mem_listed_admitVote.mp hb with rfl | hold'
      · rfl
      · exact absurd heq.symm (hfresh b hold')
    · rcases mem_listed_admitVote.mp hb with rfl | hold'
      · exact absurd heq (hfresh a hold)
      · exact h.ids_distinct a hold b hold' heq
  · intro other hother
    obtain ⟨existing, hfind, hopposed⟩ := h.opposed other hother
    refine ⟨existing, ?_, hopposed⟩
    have hne : VotePool.validatorHeightRoundKey vote ≠ VotePool.validatorHeightRoundKey other := by
      intro hkey
      rw [← hkey, hfree] at hfind
      cases hfind
    rw [← hfind]
    exact pool.voteByValidatorHeightRound.find?_insert_of_ne vote hne

/-- A conflict is recorded and counted, up to the bound. -/
theorem recordConflict (h : PoolCore crypto pool) {vote existing : ValidatorVoteRecord}
    (hvote : Delimited vote)
    (hfind : pool.voteByValidatorHeightRound.find? (VotePool.validatorHeightRoundKey vote)
      = some existing)
    (hopposed : VotePool.sameVoteDecision existing vote = false) :
    PoolCore crypto (pool.recordConflict vote) := by
  unfold VotePool.recordConflict
  dsimp only
  split_ifs with hfull
  · exact h
  · have hcount := h.counters (VotePool.validatorHeightRoundKey vote)
    have hof : ∀ key, (pool.conflictingVotes ++ [vote]).filter
        (fun v => VotePool.validatorHeightRoundKey v == key)
        = pool.conflictsOf key ++ if VotePool.validatorHeightRoundKey vote = key then [vote]
          else [] := by
      intro key
      rw [List.filter_append, VotePool.conflictsOf]
      congr 1
      by_cases hkey : VotePool.validatorHeightRoundKey vote = key <;> simp [hkey]
    refine ⟨h.counted, h.own_block, h.own_ballot, h.ids, h.ids_distinct, ?_, ?_, ?_, ?_, ?_⟩
    · intro other hother
      rcases List.mem_append.mp hother with hold | hnew
      · exact h.opposed other hold
      · rw [List.mem_singleton.mp hnew]
        exact ⟨existing, hfind, hopposed⟩
    · intro other hother
      rcases List.mem_append.mp hother with hold | hnew
      · exact h.delimited other hold
      · rw [List.mem_singleton.mp hnew]
        exact hvote
    · intro key
      show ((pool.conflictingVotes ++ [vote]).filter _).length ≤ _
      rw [hof key, List.length_append]
      split_ifs with hkey
      · subst hkey
        rw [← hcount, List.length_singleton]
        omega
      · simpa using h.bounded key
    · intro key
      show ((pool.conflictingVoteCounts.insert _ _).find? key).getD 0
        = ((pool.conflictingVotes ++ [vote]).filter _).length
      rw [hof key, List.length_append, SortedMap.find?_insert]
      split_ifs with hkey
      · subst hkey
        rw [Option.getD_some, hcount, List.length_singleton]
      · simpa using h.counters key
    · intro key count hcounted
      rw [SortedMap.find?_insert] at hcounted
      split_ifs at hcounted with hkey
      · cases hcounted
        exact Nat.succ_pos _
      · exact h.positive key count hcounted

theorem submitVote (h : PoolCore crypto pool) {vote : ValidatorVoteRecord}
    (hvote : Delimited vote) : PoolCore crypto (pool.submitVote crypto vote).2 := by
  rcases VotePool.submitVote_outcome (Prod.mk.eta (p := pool.submitVote crypto vote)).symm with
    ⟨-, hsame⟩ | ⟨-, hid, hfree, -, hadmitted⟩ | ⟨existing, hfind, hopposed, -, hrecord⟩
  · rw [hsame]
    exact h
  · rw [hadmitted]
    exact h.admitVote hid hfree
  · rw [hrecord]
    exact h.recordConflict hvote hfind hopposed

--
-- Pruning
--

theorem listed_prune (h : PoolCore crypto pool) (height : Nat) :
    (pool.prune crypto height).listed
      = pool.listed.filter (fun vote => height ≤ vote.blockIndex) := by
  show (pool.votesByBlock.entries.filter (fun e => decide (height ≤ (ofLex e.1).1))).flatMap (·.2)
    = (pool.votesByBlock.entries.flatMap (·.2)).filter (fun vote => height ≤ vote.blockIndex)
  have hblock : ∀ e ∈ pool.votesByBlock.entries, ∀ vote ∈ e.2,
      (ofLex e.1).1 = vote.blockIndex := by
    rintro ⟨key, votes⟩ hentry vote hvote
    have hkey := h.own_block key votes ((SortedMap.find?_eq_some_iff _).mpr hentry) vote hvote
    rw [hkey]
    rfl
  generalize pool.votesByBlock.entries = entries at hblock ⊢
  induction entries with
  | nil => rfl
  | cons e rest ih =>
    have hrest := ih (fun e' he' => hblock e' (List.mem_cons_of_mem _ he'))
    have hhead := hblock e List.mem_cons_self
    rw [List.flatMap_cons, List.filter_append, ← hrest]
    by_cases hkeep : height ≤ (ofLex e.1).1
    · have hall : e.2.filter (fun vote => decide (height ≤ vote.blockIndex)) = e.2 :=
        List.filter_eq_self.mpr (fun vote hvote => by simpa [← hhead vote hvote] using hkeep)
      rw [List.filter_cons_of_pos (by simpa using hkeep), List.flatMap_cons, hall]
    · have hnone : e.2.filter (fun vote => decide (height ≤ vote.blockIndex)) = [] :=
        List.filter_eq_nil_iff.mpr (fun vote hvote => by simpa [← hhead vote hvote] using hkeep)
      rw [List.filter_cons_of_neg (by simpa using hkeep), hnone]
      rfl

theorem mem_listed_prune (h : PoolCore crypto pool) {height : Nat} {vote : ValidatorVoteRecord} :
    vote ∈ (pool.prune crypto height).listed ↔
      vote ∈ pool.listed ∧ height ≤ vote.blockIndex := by
  rw [h.listed_prune, List.mem_filter, decide_eq_true_eq]

/-- The ids that a prune leaves. -/
theorem ids_prune (h : PoolCore crypto pool) (height : Nat) (id : String) :
    (pool.prune crypto height).voteIds.contains id = true ↔
      ∃ vote ∈ pool.listed, height ≤ vote.blockIndex ∧ vote.deterministicId crypto = id := by
  have hfold := SortedMap.contains_foldl_erase
    (fun e : String × ValidatorVoteRecord => e.2.deterministicId crypto)
    (pool.voteByValidatorHeightRound.filter
      (fun _ vote => decide (vote.blockIndex < height))).entries pool.voteIds (k := id)
  rw [show (pool.prune crypto height).voteIds.contains id = true ↔ _ from hfold, h.ids]
  constructor
  · rintro ⟨⟨vote, hvote, rfl⟩, hstale⟩
    refine ⟨vote, hvote, ?_, rfl⟩
    by_contra hlow
    refine hstale (VotePool.validatorHeightRoundKey vote, vote) (List.mem_filter.mpr ⟨?_, ?_⟩) rfl
    · exact (SortedMap.find?_eq_some_iff _).mp (h.find?_key hvote)
    · simpa using hlow
  · rintro ⟨vote, hvote, hkeep, rfl⟩
    refine ⟨⟨vote, hvote, rfl⟩, ?_⟩
    rintro ⟨key, other⟩ hentry heq
    obtain ⟨hin, hlow⟩ := List.mem_filter.mp hentry
    have hother : other ∈ pool.listed := h.counted.mem_iff.mpr
      (VotePool.mem_indexed.mpr ⟨key, (SortedMap.find?_eq_some_iff _).mpr hin⟩)
    rw [h.ids_distinct other hother vote hvote heq] at hlow
    simp only [decide_eq_true_eq] at hlow
    omega

theorem conflictsOf_prune (pool : VotePool) (height : Nat) (key : String) :
    (pool.prune crypto height).conflictsOf key
      = (pool.conflictsOf key).filter (fun vote => height ≤ vote.blockIndex) := by
  show (pool.conflictingVotes.filter _).filter _ = (pool.conflictingVotes.filter _).filter _
  rw [List.filter_filter, List.filter_filter]
  exact List.filter_congr (fun vote _ => Bool.and_comm _ _)

/-- A counter goes with all its conflicts or stays with all of them. -/
theorem keeps_counter (h : PoolCore crypto pool) {vote : ValidatorVoteRecord}
    (hvote : vote ∈ pool.conflictingVotes) (height : Nat) :
    keepsConflictCount height (VotePool.validatorHeightRoundKey vote)
      = decide (height ≤ vote.blockIndex) :=
  keepsConflictCount_key (h.delimited vote hvote) height

theorem find?_counts_prune (h : PoolCore crypto pool) (height : Nat) (key : String) (count : Nat) :
    (pool.prune crypto height).conflictingVoteCounts.find? key = some count ↔
      pool.conflictingVoteCounts.find? key = some count ∧
        ∃ vote ∈ pool.conflictingVotes, height ≤ vote.blockIndex ∧
          VotePool.validatorHeightRoundKey vote = key := by
  rw [show (pool.prune crypto height).conflictingVoteCounts.find? key = some count ↔ _ from
    SortedMap.find?_filter_eq_some _ _]
  refine and_congr_right (fun hcount => ?_)
  -- a counter has a conflict, whose height its key tells
  have hlength := h.counters key
  rw [hcount, Option.getD_some] at hlength
  obtain ⟨vote, hvote⟩ := List.exists_mem_of_length_pos
    (hlength ▸ h.positive key count hcount : 0 < (pool.conflictsOf key).length)
  obtain ⟨hconflict, hkey⟩ := List.mem_filter.mp hvote
  rw [beq_iff_eq] at hkey
  subst hkey
  constructor
  · intro hkeep
    rw [h.keeps_counter hconflict, decide_eq_true_eq] at hkeep
    exact ⟨vote, hconflict, hkeep, rfl⟩
  · rintro ⟨other, hother, hkeep, hkey⟩
    rw [← hkey, h.keeps_counter hother, decide_eq_true_eq]
    exact hkeep

theorem prune (h : PoolCore crypto pool) (height : Nat) :
    PoolCore crypto (pool.prune crypto height) := by
  refine ⟨?_, ?_, ?_, ?_, ?_, ?_, ?_, ?_, ?_, ?_⟩
  · have hindexed : (pool.prune crypto height).indexed
        = pool.indexed.filter (fun vote => height ≤ vote.blockIndex) := by
      show (pool.voteByValidatorHeightRound.entries.filter _).map _
        = (pool.voteByValidatorHeightRound.entries.map _).filter _
      rw [List.filter_map]
      rfl
    rw [h.listed_prune, hindexed]
    exact h.counted.filter _
  · intro key votes hfind
    exact h.own_block key votes ((SortedMap.find?_filter_eq_some _ _).mp hfind).1
  · intro key vote hfind
    exact h.own_ballot key vote ((SortedMap.find?_filter_eq_some _ _).mp hfind).1
  · intro id
    rw [h.ids_prune]
    constructor
    · rintro ⟨vote, hvote, hkeep, hid⟩
      exact ⟨vote, h.mem_listed_prune.mpr ⟨hvote, hkeep⟩, hid⟩
    · rintro ⟨vote, hvote, hid⟩
      obtain ⟨hvote, hkeep⟩ := h.mem_listed_prune.mp hvote
      exact ⟨vote, hvote, hkeep, hid⟩
  · intro a ha b hb heq
    exact h.ids_distinct a (h.mem_listed_prune.mp ha).1 b (h.mem_listed_prune.mp hb).1 heq
  · intro vote hvote
    obtain ⟨hvote, hkeep⟩ := List.mem_filter.mp hvote
    obtain ⟨existing, hfind, hopposed⟩ := h.opposed vote hvote
    refine ⟨existing, (SortedMap.find?_filter_eq_some _ _).mpr ⟨hfind, ?_⟩, hopposed⟩
    have hkey := validatorHeightRoundKey_inj.mp (h.own_ballot _ existing hfind)
    rw [← hkey.2.1]
    exact hkeep
  · exact fun vote hvote => h.delimited vote (List.mem_filter.mp hvote).1
  · intro key
    rw [conflictsOf_prune]
    exact (List.length_filter_le _ _).trans (h.bounded key)
  · intro key
    rw [conflictsOf_prune]
    have hcounters := h.counters key
    cases hfind : (pool.prune crypto height).conflictingVoteCounts.find? key with
    | some count =>
      obtain ⟨hcount, vote, hvote, hkeep, hkey⟩ := (h.find?_counts_prune height key count).mp hfind
      rw [hcount, Option.getD_some] at hcounters
      rw [Option.getD_some, hcounters, List.filter_eq_self.mpr]
      intro other hother
      obtain ⟨-, hkey'⟩ := List.mem_filter.mp hother
      rw [beq_iff_eq] at hkey'
      have hindex := (validatorHeightRoundKey_inj.mp (hkey'.trans hkey.symm)).2.1
      simpa [hindex] using hkeep
    | none =>
      rw [Option.getD_none, eq_comm, List.length_eq_zero_iff, List.filter_eq_nil_iff]
      intro vote hvote hkeep
      obtain ⟨hconflict, hkey⟩ := List.mem_filter.mp hvote
      rw [beq_iff_eq] at hkey
      have hpos : 0 < (pool.conflictingVoteCounts.find? key).getD 0 := by
        rw [hcounters]
        exact List.length_pos_of_mem hvote
      cases hcount : pool.conflictingVoteCounts.find? key with
      | none =>
        rw [hcount] at hpos
        exact absurd hpos (by simp)
      | some count =>
        have hsome := (h.find?_counts_prune height key count).mpr
          ⟨hcount, vote, hconflict, by simpa using hkeep, hkey⟩
        rw [hfind] at hsome
        cases hsome
  · intro key count hfind
    exact h.positive key count ((h.find?_counts_prune height key count).mp hfind).1

theorem prune_exact (h : PoolCore crypto pool) (height : Nat) :
    PruneExact crypto height pool (pool.prune crypto height) := by
  refine ⟨?_, ?_, h.ids_prune height, rfl, h.find?_counts_prune height⟩
  · intro index hash round
    unfold VotePool.votesForBlock
    rw [show (pool.prune crypto height).votesByBlock.find? _ = _ from
      pool.votesByBlock.find?_filter _ _]
    have hheight : (ofLex (votePoolBlockKey index hash round)).1 = index := rfl
    rw [hheight]
    by_cases hkeep : height ≤ index
    · rw [if_pos hkeep]
      cases hfind : pool.votesByBlock.find? (votePoolBlockKey index hash round) with
      | none => rfl
      | some votes =>
        rw [Option.filter_some_pos (by exact decide_eq_true hkeep)]
    · rw [if_neg hkeep]
      cases hfind : pool.votesByBlock.find? (votePoolBlockKey index hash round) with
      | none => rfl
      | some votes =>
        rw [Option.filter_some_neg (by exact decide_eq_false hkeep)]
        rfl
  · intro vote
    rw [show (pool.prune crypto height).voteByValidatorHeightRound.find? _ = _ from
      pool.voteByValidatorHeightRound.find?_filter _ _]
    cases hfind : pool.voteByValidatorHeightRound.find?
      (VotePool.validatorHeightRoundKey vote) with
    | none => simp
    | some existing =>
      have hindex := (validatorHeightRoundKey_inj.mp (h.own_ballot _ existing hfind)).2.1
      by_cases hkeep : height ≤ vote.blockIndex
      · rw [if_pos hkeep, Option.filter_some_pos (by simpa [← hindex] using hkeep)]
      · rw [if_neg hkeep, Option.filter_some_neg (by simpa [← hindex] using hkeep)]

end PoolCore

--
-- Runs
--

/-- The pools after any sequence of `submitVote` calls on votes of a kind and
`prune` calls. -/
inductive PoolReachable (crypto : CryptoContext) (kind : ValidatorVoteRecord → Prop) :
    VotePool → Prop
  | empty : PoolReachable crypto kind .empty
  | submit {pool : VotePool} (vote : ValidatorVoteRecord) (hvote : kind vote)
      (h : PoolReachable crypto kind pool) :
      PoolReachable crypto kind (pool.submitVote crypto vote).2
  | prune {pool : VotePool} (height : Nat) (h : PoolReachable crypto kind pool) :
      PoolReachable crypto kind (pool.prune crypto height)

theorem PoolReachable.core {crypto : CryptoContext} {pool : VotePool}
    (h : PoolReachable crypto Delimited pool) : PoolCore crypto pool := by
  induction h with
  | empty => exact .empty crypto
  | submit vote hvote _ ih => exact ih.submitVote hvote
  | prune height _ ih => exact ih.prune height

/-- **Vote pool representation.** After every sequence of calls on votes whose
addresses hold no `#`, the containers agree, and a prune is exact. -/
theorem pool_representation {crypto : CryptoContext} {pool : VotePool}
    (h : PoolReachable crypto Delimited pool) :
    PoolRepresentation crypto pool ∧
      ∀ height, PruneExact crypto height pool (pool.prune crypto height) :=
  ⟨h.core.representation, h.core.prune_exact⟩

/-- A pool with a vote of `a` at height 1 and two opposed ones at height 5. -/
def opposedPool (address : String) : VotePool :=
  (((VotePool.empty.submitVote sampleCrypto (sampleVote "a" 1 "B" "G" 1 .prevote 5)).2.submitVote
    sampleCrypto (sampleVote address 5 "B" "G" 1 .prevote 5)).2.submitVote
      sampleCrypto (sampleVote address 5 "C" "G" 1 .prevote 5)).2

theorem opposedPool_reachable {kind : ValidatorVoteRecord → Prop} {address : String}
    (h : ∀ name index hash, name = "a" ∨ name = address → index ≤ 5 →
      kind (sampleVote name index hash "G" 1 .prevote 5)) :
    PoolReachable sampleCrypto kind (opposedPool address) :=
  ((PoolReachable.empty.submit _ (h _ 1 "B" (Or.inl rfl) (by decide))).submit _
    (h _ 5 "B" (Or.inr rfl) (by decide))).submit _ (h _ 5 "C" (Or.inr rfl) (by decide))

/-- The pool of `b` counts one conflict, and pruning to 2 keeps it. -/
theorem pool_representation_opposed :
    ((opposedPool "b").conflictingVoteCounts.find? "b#5#1#PREVOTE" = some 1 ∧
      ((opposedPool "b").prune sampleCrypto 2).conflictingVoteCounts.find? "b#5#1#PREVOTE"
        = some 1) ∧
    PoolRepresentation sampleCrypto (opposedPool "b") ∧
      ∀ height, PruneExact sampleCrypto height (opposedPool "b")
        ((opposedPool "b").prune sampleCrypto height) := by
  refine ⟨by decide +kernel, pool_representation (opposedPool_reachable ?_)⟩
  rintro name index hash hname hindex
  refine ⟨Nat.lt_of_le_of_lt hindex (by decide), ?_⟩
  rcases hname with rfl | rfl
  · show '#' ∉ "a".toList
    decide
  · show '#' ∉ "b".toList
    decide

/-- The validator `b#1` of development mode: pruning to 2 reads the height of its
counter as 1, and the conflict of height 5 stays behind uncounted. -/
theorem hash_address_loses_counter :
    ∃ pool, PoolReachable sampleCrypto (fun vote => vote.blockIndex < 2 ^ 64) pool ∧
      ¬ PoolRepresentation sampleCrypto pool := by
  refine ⟨(opposedPool "b#1").prune sampleCrypto 2, .prune 2 (opposedPool_reachable ?_), ?_⟩
  · intro name index hash _ hindex
    exact Nat.lt_of_le_of_lt hindex (by decide)
  · intro h
    have hcounters := h.counters "b#1#5#1#PREVOTE"
    exact absurd hcounters (by decide +kernel)

end Nodo.Model
