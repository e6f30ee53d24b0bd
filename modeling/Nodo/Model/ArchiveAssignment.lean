import Nodo.Lib.Rendezvous
import Nodo.Model.ArchiveProviders
import Mathlib.Data.Prod.Lex

/-!
# Nodo — which provider keeps which segment

`archive/ArchiveAssignment.cpp`. For every segment and replica the eligible active provider with
the lowest hash wins the slot: it has a slot and the bytes left, and neither it nor its operator
holds a replica of the segment. The rank depends on the number of the replica, so that a newcomer
that wins one replica lets its former winner compete for the next.

## Results

* `findBest_spec` — the scan finds the least eligible provider, by rank and then by id.
* `Assigned.segment` — what the slots of one more segment keep.
* `archive_assignment` — the limits kept by a plan, and what a newcomer changes in it.
-/

namespace Nodo.Model

structure ArchiveSlot where
  segmentIndex : UInt64
  replica : UInt32
  providerId : String
  deriving DecidableEq

structure Budget where
  remainingBytes : UInt64
  remainingSlots : UInt64
  deriving DecidableEq

namespace ArchiveAssignmentPlanner

def rank (hashHex : String → String → String) (segmentIndex : UInt64) (replica : UInt32)
    (assignmentKey : String) : String :=
  hashHex "ARCHIVE/ASSIGN" (CanonicalWriter.writeUInt64 segmentIndex
    ++ CanonicalWriter.writeUInt32 replica.toNat ++ CanonicalWriter.writeText assignmentKey)

/-- `budgets[providerId]`. -/
def budgetOf (budgets : SortedMap String Budget) (providerId : String) : Budget :=
  (budgets.find? providerId).getD ⟨0, 0⟩

/-- The state of the loop over the replicas of a segment. -/
structure Round where
  budgets : SortedMap String Budget
  holders : List String
  operators : List String
  slots : List ArchiveSlot

/-- A provider that the scan does not skip. -/
def isEligible (segment : ArchiveSegmentCommitment) (state : Round)
    (provider : ArchiveProviderRecord) : Bool :=
  let budget := budgetOf state.budgets provider.providerId
  !(budget.remainingSlots == 0 || budget.remainingBytes < segment.totalBytes
    || state.holders.contains provider.providerId
    || state.operators.contains provider.operatorId)

/-- The scan of the providers for one replica. -/
def findBest (hashHex : String → String → String) (segment : ArchiveSegmentCommitment)
    (replica : UInt32) (state : Round) :
    Option (ArchiveProviderRecord × String) → List ArchiveProviderRecord →
      Option (ArchiveProviderRecord × String)
  | best, [] => best
  | best, provider :: rest =>
    if !isEligible segment state provider then findBest hashHex segment replica state best rest
    else
      let score := rank hashHex segment.segmentIndex replica provider.assignmentKey
      match best with
      | none => findBest hashHex segment replica state (some (provider, score)) rest
      | some (leader, bestRank) =>
        if score < bestRank || (score == bestRank && provider.providerId < leader.providerId) then
          findBest hashHex segment replica state (some (provider, score)) rest
        else findBest hashHex segment replica state (some (leader, bestRank)) rest

/-- The slot of a winner. -/
def Round.give (state : Round) (segment : ArchiveSegmentCommitment) (replica : UInt32)
    (best : ArchiveProviderRecord) : Round :=
  let budget := budgetOf state.budgets best.providerId
  { budgets := state.budgets.insert best.providerId
      ⟨budget.remainingBytes - segment.totalBytes, budget.remainingSlots - 1⟩
    holders := best.providerId :: state.holders
    operators := best.operatorId :: state.operators
    slots := state.slots ++ [⟨segment.segmentIndex, replica, best.providerId⟩] }

/-- The loop over the replicas, so many of them left. -/
def assignReplicas (hashHex : String → String → String) (providers : List ArchiveProviderRecord)
    (segment : ArchiveSegmentCommitment) : ℕ → ℕ → Round → Round
  | 0, _, state => state
  | remaining + 1, replica, state =>
    match findBest hashHex segment replica.toUInt32 state none providers with
    | none => state
    | some (best, _) =>
      assignReplicas hashHex providers segment remaining (replica + 1)
        (state.give segment replica.toUInt32 best)

/-- The loop over the segments. -/
def assignSegments (hashHex : String → String → String) (providers : List ArchiveProviderRecord)
    (target : ℕ) : List ArchiveSegmentCommitment → SortedMap String Budget → List ArchiveSlot →
      List ArchiveSlot
  | [], _, slots => slots
  | segment :: rest, budgets, slots =>
    let round := assignReplicas hashHex providers segment target 0 ⟨budgets, [], [], slots⟩
    assignSegments hashHex providers target rest round.budgets round.slots

/-- What every active provider starts with. -/
def initialBudgets (parameters : HistoryParameters) (providers : List ArchiveProviderRecord) :
    SortedMap String Budget :=
  providers.foldl (fun budgets provider =>
    budgets.insert provider.providerId ⟨provider.registration.fields.declaredCapacityBytes,
      provider.registration.maxSlots parameters⟩) .empty

def plan (hashHex : String → String → String) (parameters : HistoryParameters)
    (segments : List ArchiveSegmentCommitment) (registry : ArchiveProviderRegistry) :
    Except String (List ArchiveSlot) :=
  if !parameters.isValid || !ArchiveIndex.isContiguous segments then
    .error "Assignment needs contiguous sealed segments."
  else .ok (assignSegments hashHex registry.activeProviders
    parameters.archiveReplicationTarget.toNat segments
    (initialBudgets parameters registry.activeProviders) [])

--
-- The scan
--

/-- Rank and id of a provider: what the scan compares. -/
def keyOf (hashHex : String → String → String) (segment : ArchiveSegmentCommitment)
    (replica : UInt32) (provider : ArchiveProviderRecord) : String ×ₗ String :=
  toLex (rank hashHex segment.segmentIndex replica provider.assignmentKey, provider.providerId)

section Scan

variable {hashHex : String → String → String} {segment : ArchiveSegmentCommitment}
  {replica : UInt32} {state : Round} {providers : List ArchiveProviderRecord}
  {provider best leader : ArchiveProviderRecord} {score : String}

theorem keyOf_lt_iff : keyOf hashHex segment replica provider < keyOf hashHex segment replica leader ↔
    (rank hashHex segment.segmentIndex replica provider.assignmentKey
        < rank hashHex segment.segmentIndex replica leader.assignmentKey
      || (rank hashHex segment.segmentIndex replica provider.assignmentKey
          == rank hashHex segment.segmentIndex replica leader.assignmentKey
        && provider.providerId < leader.providerId)) = true := by
  unfold keyOf
  rw [Prod.Lex.toLex_lt_toLex]
  simp

/-- The scan from a leader on: a least one among it and the eligible providers. -/
theorem findBest_leader :
    ∃ best, findBest hashHex segment replica state
        (some (leader, rank hashHex segment.segmentIndex replica leader.assignmentKey)) providers
          = some (best, rank hashHex segment.segmentIndex replica best.assignmentKey) ∧
      (best = leader ∨ best ∈ providers ∧ isEligible segment state best = true) ∧
      keyOf hashHex segment replica best ≤ keyOf hashHex segment replica leader ∧
      ∀ provider ∈ providers, isEligible segment state provider = true →
        keyOf hashHex segment replica best ≤ keyOf hashHex segment replica provider := by
  induction providers generalizing leader with
  | nil => exact ⟨leader, rfl, Or.inl rfl, le_refl _, fun _ hmem => absurd hmem List.not_mem_nil⟩
  | cons first rest ih =>
    rw [findBest]
    by_cases heligible : isEligible segment state first = true
    · rw [heligible, Bool.not_true, if_neg Bool.false_ne_true]
      simp only
      by_cases hlower : keyOf hashHex segment replica first < keyOf hashHex segment replica leader
      · rw [if_pos (keyOf_lt_iff.mp hlower)]
        obtain ⟨best, hfind, hfrom, hle, hleast⟩ := @ih first
        refine ⟨best, hfind, Or.inr ?_, hle.trans hlower.le, ?_⟩
        · rcases hfrom with rfl | ⟨hmem, hbest⟩
          · exact ⟨List.mem_cons_self, heligible⟩
          · exact ⟨List.mem_cons_of_mem _ hmem, hbest⟩
        · intro provider hmem hprovider
          rcases List.mem_cons.mp hmem with rfl | hrest
          · exact hle
          · exact hleast provider hrest hprovider
      · rw [if_neg (mt keyOf_lt_iff.mpr hlower)]
        obtain ⟨best, hfind, hfrom, hle, hleast⟩ := @ih leader
        refine ⟨best, hfind, ?_, hle, ?_⟩
        · rcases hfrom with rfl | ⟨hmem, hbest⟩
          · exact Or.inl rfl
          · exact Or.inr ⟨List.mem_cons_of_mem _ hmem, hbest⟩
        · intro provider hmem hprovider
          rcases List.mem_cons.mp hmem with rfl | hrest
          · exact hle.trans (not_lt.mp hlower)
          · exact hleast provider hrest hprovider
    · rw [Bool.not_eq_true] at heligible
      rw [heligible, Bool.not_false, if_pos rfl]
      obtain ⟨best, hfind, hfrom, hle, hleast⟩ := @ih leader
      refine ⟨best, hfind, ?_, hle, ?_⟩
      · rcases hfrom with rfl | ⟨hmem, hbest⟩
        · exact Or.inl rfl
        · exact Or.inr ⟨List.mem_cons_of_mem _ hmem, hbest⟩
      · intro provider hmem hprovider
        rcases List.mem_cons.mp hmem with rfl | hrest
        · rw [heligible] at hprovider
          cases hprovider
        · exact hleast provider hrest hprovider

/-- **The scan finds the least eligible provider**, or none is eligible. -/
theorem findBest_spec :
    (findBest hashHex segment replica state none providers = none ∧
      ∀ provider ∈ providers, isEligible segment state provider = false) ∨
    ∃ best score, findBest hashHex segment replica state none providers = some (best, score) ∧
      best ∈ providers ∧ isEligible segment state best = true ∧
      ∀ provider ∈ providers, isEligible segment state provider = true →
        keyOf hashHex segment replica best ≤ keyOf hashHex segment replica provider := by
  induction providers with
  | nil => exact Or.inl ⟨rfl, fun _ hmem => absurd hmem List.not_mem_nil⟩
  | cons first rest ih =>
    rw [findBest]
    by_cases heligible : isEligible segment state first = true
    · rw [heligible, Bool.not_true, if_neg Bool.false_ne_true]
      obtain ⟨best, hfind, hfrom, hle, hleast⟩ :=
        @findBest_leader hashHex segment replica state rest first
      refine Or.inr ⟨best, _, hfind, ?_, ?_, ?_⟩
      · rcases hfrom with rfl | ⟨hmem, -⟩
        · exact List.mem_cons_self
        · exact List.mem_cons_of_mem _ hmem
      · rcases hfrom with rfl | ⟨-, hbest⟩
        · exact heligible
        · exact hbest
      · intro provider hmem hprovider
        rcases List.mem_cons.mp hmem with rfl | hrest
        · exact hle
        · exact hleast provider hrest hprovider
    · rw [Bool.not_eq_true] at heligible
      rw [heligible, Bool.not_false, if_pos rfl]
      rcases ih with ⟨hnone, hall⟩ | ⟨best, score, hfind, hmem, hbest, hleast⟩
      · exact Or.inl ⟨hnone, List.forall_mem_cons.mpr ⟨heligible, hall⟩⟩
      · refine Or.inr ⟨best, score, hfind, List.mem_cons_of_mem _ hmem, hbest, ?_⟩
        intro provider hprovider hok
        rcases List.mem_cons.mp hprovider with rfl | hrest
        · rw [heligible] at hok
          cases hok
        · exact hleast provider hrest hok

end Scan

--
-- What the slots say
--

def slotsFor (slots : List ArchiveSlot) (providerId : String) : List ArchiveSlot :=
  slots.filter (·.providerId == providerId)

/-- The slots of one segment. -/
def slotsOf (slots : List ArchiveSlot) (segmentIndex : UInt64) : List ArchiveSlot :=
  slots.filter (·.segmentIndex == segmentIndex)

/-- The size of the segment of a slot. -/
def bytesOf (segments : List ArchiveSegmentCommitment) (slot : ArchiveSlot) : ℕ :=
  (segments[slot.segmentIndex.toNat]?).elim 0 (·.totalBytes.toNat)

/-- The bytes a provider keeps. -/
def usedBytes (segments : List ArchiveSegmentCommitment) (slots : List ArchiveSlot)
    (providerId : String) : ℕ :=
  ((slotsFor slots providerId).map (bytesOf segments)).sum

/-- The operator behind a provider. -/
def operatorOf (registry : ArchiveProviderRegistry) (providerId : String) : String :=
  (registry.records.find? providerId).elim "" (·.operatorId)

/-- A provider that cannot take a slot of a segment, by the slots up to this segment. -/
def Barred (parameters : HistoryParameters) (segments : List ArchiveSegmentCommitment)
    (registry : ArchiveProviderRegistry) (slots : List ArchiveSlot)
    (segment : ArchiveSegmentCommitment) (record : ArchiveProviderRecord) : Prop :=
  let upTo := slots.filter (·.segmentIndex ≤ segment.segmentIndex)
  (record.registration.maxSlots parameters).toNat ≤ (slotsFor upTo record.providerId).length ∨
    record.registration.fields.declaredCapacityBytes.toNat
      < usedBytes segments upTo record.providerId + segment.totalBytes.toNat ∨
    record.providerId ∈ (slotsOf slots segment.segmentIndex).map (·.providerId) ∨
    record.operatorId ∈
      (slotsOf slots segment.segmentIndex).map fun slot => operatorOf registry slot.providerId

theorem slotsFor_append (slots later : List ArchiveSlot) (providerId : String) :
    slotsFor (slots ++ later) providerId = slotsFor slots providerId ++ slotsFor later providerId :=
  List.filter_append ..

theorem usedBytes_append (segments : List ArchiveSegmentCommitment)
    (slots later : List ArchiveSlot) (providerId : String) :
    usedBytes segments (slots ++ later) providerId
      = usedBytes segments slots providerId + usedBytes segments later providerId := by
  unfold usedBytes
  rw [slotsFor_append, List.map_append, List.sum_append]

theorem slotsFor_single (slot : ArchiveSlot) (providerId : String) :
    slotsFor [slot] providerId = if slot.providerId = providerId then [slot] else [] := by
  unfold slotsFor
  by_cases h : slot.providerId = providerId
  · rw [if_pos h, List.filter_cons_of_pos (by simpa using h), List.filter_nil]
  · rw [if_neg h, List.filter_cons_of_neg (by simpa using h), List.filter_nil]

theorem slotsFor_eq_nil {slots : List ArchiveSlot} {providerId : String}
    (h : providerId ∉ slots.map (·.providerId)) : slotsFor slots providerId = [] := by
  unfold slotsFor
  rw [List.filter_eq_nil_iff]
  intro slot hslot hsame
  exact h (List.mem_map.mpr ⟨slot, hslot, beq_iff_eq.mp hsame⟩)

/-- A provider with distinct slots has one of them at most. -/
theorem length_slotsFor_le {slots : List ArchiveSlot}
    (hnodup : (slots.map (·.providerId)).Nodup) (providerId : String) :
    (slotsFor slots providerId).length ≤ 1 := by
  have hcount := List.nodup_iff_count_le_one.mp hnodup providerId
  rw [List.count, List.countP_map, List.countP_eq_length_filter] at hcount
  exact hcount

section Registry

variable {registry : ArchiveProviderRegistry} {record : ArchiveProviderRecord}

theorem operatorOf_of_mem (h : record ∈ registry.activeProviders) :
    operatorOf registry record.providerId = record.operatorId := by
  obtain ⟨entry, hentry, rfl⟩ := List.mem_map.mp (List.mem_filter.mp h).1
  have hfind : registry.records.find? entry.1 = some entry.2 :=
    (SortedMap.find?_eq_some_iff _).mpr hentry
  unfold operatorOf
  rw [registry.keyed entry hentry, hfind]
  rfl

theorem eq_of_providerId {other : ArchiveProviderRecord} (h : record ∈ registry.activeProviders)
    (hother : other ∈ registry.activeProviders) (hsame : record.providerId = other.providerId) :
    record = other :=
  List.inj_on_of_nodup_map registry.nodup_activeProviders h hother hsame

end Registry

--
-- Budgets
--

theorem budgetOf_insert (budgets : SortedMap String Budget) (providerId other : String)
    (budget : Budget) :
    budgetOf (budgets.insert providerId budget) other
      = if other = providerId then budget else budgetOf budgets other := by
  unfold budgetOf
  rw [SortedMap.find?_insert]
  split_ifs with h1 h2 h2
  · rfl
  · exact absurd h1.symm h2
  · exact absurd h2.symm h1
  · rfl

/-- The budgets and the slots of the active providers add up to what they started with. -/
def Accounts (parameters : HistoryParameters) (segments : List ArchiveSegmentCommitment)
    (registry : ArchiveProviderRegistry) (budgets : SortedMap String Budget)
    (slots : List ArchiveSlot) : Prop :=
  ∀ record ∈ registry.activeProviders,
    (budgetOf budgets record.providerId).remainingSlots.toNat
        + (slotsFor slots record.providerId).length
      = (record.registration.maxSlots parameters).toNat ∧
    (budgetOf budgets record.providerId).remainingBytes.toNat
        + usedBytes segments slots record.providerId
      = record.registration.fields.declaredCapacityBytes.toNat

theorem budgetOf_initialBudgets {parameters : HistoryParameters}
    {providers : List ArchiveProviderRecord} {record : ArchiveProviderRecord}
    (hnodup : (providers.map (·.providerId)).Nodup) (hmem : record ∈ providers) :
    budgetOf (initialBudgets parameters providers) record.providerId
      = ⟨record.registration.fields.declaredCapacityBytes,
          record.registration.maxSlots parameters⟩ := by
  unfold initialBudgets
  -- the last of the records under an id decides
  suffices hfold : ∀ budgets, budgetOf (providers.foldl (fun budgets provider =>
      budgets.insert provider.providerId ⟨provider.registration.fields.declaredCapacityBytes,
        provider.registration.maxSlots parameters⟩) budgets) record.providerId
      = ⟨record.registration.fields.declaredCapacityBytes,
          record.registration.maxSlots parameters⟩ from hfold _
  have hkept : ∀ (rest : List ArchiveProviderRecord) (budgets : SortedMap String Budget),
      record.providerId ∉ rest.map (·.providerId) →
      budgetOf (rest.foldl (fun budgets provider =>
        budgets.insert provider.providerId ⟨provider.registration.fields.declaredCapacityBytes,
          provider.registration.maxSlots parameters⟩) budgets) record.providerId
        = budgetOf budgets record.providerId := by
    intro rest
    induction rest with
    | nil => exact fun _ _ => rfl
    | cons first rest ih =>
      intro budgets hnot
      rw [List.map_cons, List.mem_cons, not_or] at hnot
      rw [List.foldl_cons, ih _ hnot.2, budgetOf_insert, if_neg hnot.1]
  induction providers with
  | nil => exact absurd hmem List.not_mem_nil
  | cons first rest ih =>
    intro budgets
    rw [List.map_cons, List.nodup_cons] at hnodup
    rw [List.foldl_cons]
    rcases List.mem_cons.mp hmem with rfl | hrest
    · rw [hkept rest _ hnodup.1, budgetOf_insert, if_pos rfl]
    · exact ih hnodup.2 hrest _

theorem accounts_initial (parameters : HistoryParameters)
    (segments : List ArchiveSegmentCommitment) (registry : ArchiveProviderRegistry) :
    Accounts parameters segments registry
      (initialBudgets parameters registry.activeProviders) [] := by
  intro record hrecord
  rw [budgetOf_initialBudgets registry.nodup_activeProviders hrecord]
  exact ⟨rfl, rfl⟩

theorem isEligible_iff {segment : ArchiveSegmentCommitment} {state : Round}
    {provider : ArchiveProviderRecord} :
    isEligible segment state provider = true ↔
      0 < (budgetOf state.budgets provider.providerId).remainingSlots.toNat ∧
      segment.totalBytes.toNat ≤ (budgetOf state.budgets provider.providerId).remainingBytes.toNat ∧
      provider.providerId ∉ state.holders ∧ provider.operatorId ∉ state.operators := by
  unfold isEligible
  simp only [Bool.not_eq_true', Bool.or_eq_false_iff, beq_eq_false_iff_ne, decide_eq_false_iff_not,
    ne_eq, and_assoc, UInt64.lt_iff_toNat_lt, not_lt, List.contains_eq_mem]
  rw [← UInt64.toNat_inj, Nat.pos_iff_ne_zero]
  rfl

--
-- The replicas of one segment
--

section Rounds

variable {hashHex : String → String → String} {parameters : HistoryParameters}
  {segments : List ArchiveSegmentCommitment} {registry : ArchiveProviderRegistry}
  {segment : ArchiveSegmentCommitment} {before mine : List ArchiveSlot} {replica : ℕ}
  {state : Round} {best : ArchiveProviderRecord}

/-- What the loop over the replicas keeps: `mine` are the slots given in it. -/
structure RoundKept (parameters : HistoryParameters) (segments : List ArchiveSegmentCommitment)
    (registry : ArchiveProviderRegistry) (segment : ArchiveSegmentCommitment)
    (before mine : List ArchiveSlot) (replica : ℕ) (state : Round) : Prop where
  slots : state.slots = before ++ mine
  accounts : Accounts parameters segments registry state.budgets state.slots
  index : ∀ slot ∈ mine, slot.segmentIndex = segment.segmentIndex
  holders : state.holders = (mine.map (·.providerId)).reverse
  operators : state.operators = (mine.map fun slot => operatorOf registry slot.providerId).reverse
  active : ∀ slot ∈ mine, ∃ record ∈ registry.activeProviders, record.providerId = slot.providerId
  nodupProviders : (mine.map (·.providerId)).Nodup
  nodupOperators : (mine.map fun slot => operatorOf registry slot.providerId).Nodup
  replicas : mine.map (·.replica.toNat) = List.range replica

/-- A winner pays with a slot and the bytes of the segment. -/
theorem Accounts.give (h : Accounts parameters segments registry state.budgets state.slots)
    (hseg : segments[segment.segmentIndex.toNat]? = some segment)
    (hbest : best ∈ registry.activeProviders) (heligible : isEligible segment state best = true) :
    Accounts parameters segments registry (state.give segment replica.toUInt32 best).budgets
      (state.give segment replica.toUInt32 best).slots := by
  obtain ⟨hslots, hbytes, -, -⟩ := isEligible_iff.mp heligible
  intro record hrecord
  obtain ⟨hcount, hused⟩ := h record hrecord
  unfold Round.give
  simp only
  rw [budgetOf_insert, slotsFor_append, usedBytes_append]
  by_cases hsame : record.providerId = best.providerId
  · have heq := eq_of_providerId hrecord hbest hsame
    subst heq
    have hone : slotsFor [⟨segment.segmentIndex, replica.toUInt32, record.providerId⟩]
        record.providerId = [⟨segment.segmentIndex, replica.toUInt32, record.providerId⟩] := by
      rw [slotsFor_single, if_pos rfl]
    have hcost : usedBytes segments
        [⟨segment.segmentIndex, replica.toUInt32, record.providerId⟩] record.providerId
          = segment.totalBytes.toNat := by
      unfold usedBytes
      rw [hone]
      simp [bytesOf, hseg]
    have hleft : ((budgetOf state.budgets record.providerId).remainingSlots - 1).toNat
        = (budgetOf state.budgets record.providerId).remainingSlots.toNat - 1 :=
      UInt64.toNat_sub_of_le _ _ (UInt64.le_iff_toNat_le.mpr hslots)
    have hroom := UInt64.toNat_sub_of_le (budgetOf state.budgets record.providerId).remainingBytes
      segment.totalBytes (UInt64.le_iff_toNat_le.mpr hbytes)
    rw [if_pos rfl, hone, hcost, List.length_append, List.length_singleton]
    simp only
    rw [hleft, hroom]
    omega
  · have hnone : slotsFor [⟨segment.segmentIndex, replica.toUInt32, best.providerId⟩]
        record.providerId = [] := by
      rw [slotsFor_single, if_neg (Ne.symm hsame)]
    have hfree : usedBytes segments
        [⟨segment.segmentIndex, replica.toUInt32, best.providerId⟩] record.providerId = 0 := by
      unfold usedBytes
      rw [hnone]
      rfl
    rw [if_neg hsame, hnone, hfree, List.append_nil, Nat.add_zero]
    exact ⟨hcount, hused⟩

theorem RoundKept.start (haccounts : Accounts parameters segments registry state.budgets before)
    (hstate : state = ⟨state.budgets, [], [], before⟩) :
    RoundKept parameters segments registry segment before [] 0 state := by
  have hslots : state.slots = before := by rw [hstate]
  refine ⟨by rw [hslots, List.append_nil], by rwa [hslots], ?_, by rw [hstate]; rfl,
    by rw [hstate]; rfl, ?_, List.nodup_nil, List.nodup_nil, rfl⟩
  · exact fun _ hmem => absurd hmem List.not_mem_nil
  · exact fun _ hmem => absurd hmem List.not_mem_nil

/-- **A slot given to an eligible provider keeps the limits.** -/
theorem RoundKept.give
    (h : RoundKept parameters segments registry segment before mine replica state)
    (hseg : segments[segment.segmentIndex.toNat]? = some segment) (hreplica : replica < 2 ^ 32)
    (hbest : best ∈ registry.activeProviders) (heligible : isEligible segment state best = true) :
    RoundKept parameters segments registry segment before
      (mine ++ [⟨segment.segmentIndex, replica.toUInt32, best.providerId⟩]) (replica + 1)
      (state.give segment replica.toUInt32 best) := by
  obtain ⟨-, -, hholder, hoperator⟩ := isEligible_iff.mp heligible
  rw [h.holders, List.mem_reverse] at hholder
  rw [h.operators, List.mem_reverse] at hoperator
  have hnumber : replica.toUInt32.toNat = replica := UInt32.toNat_ofNat_of_lt' hreplica
  refine ⟨?_, h.accounts.give hseg hbest heligible, ?_, ?_, ?_, ?_, ?_, ?_, ?_⟩
  · show state.slots ++ _ = _
    rw [h.slots, List.append_assoc]
  · intro slot hslot
    rcases List.mem_append.mp hslot with hold | hnew
    · exact h.index slot hold
    · rw [List.mem_singleton.mp hnew]
  · show best.providerId :: state.holders = _
    rw [h.holders, List.map_append, List.reverse_append]
    rfl
  · show best.operatorId :: state.operators = _
    rw [h.operators, List.map_append, List.reverse_append, ← operatorOf_of_mem hbest]
    rfl
  · intro slot hslot
    rcases List.mem_append.mp hslot with hold | hnew
    · exact h.active slot hold
    · rw [List.mem_singleton.mp hnew]
      exact ⟨best, hbest, rfl⟩
  · rw [List.map_append, List.map_singleton]
    exact h.nodupProviders.append (List.nodup_singleton _) (by simpa using hholder)
  · rw [List.map_append, List.map_singleton]
    refine h.nodupOperators.append (List.nodup_singleton _) ?_
    rw [operatorOf_of_mem hbest]
    simpa using hoperator
  · rw [List.map_append, h.replicas, List.map_singleton, hnumber, List.range_succ]

/-- **A run over the replicas**: what every slot given keeps holds at its end, which comes before
the target only when no provider is left. -/
theorem assignReplicas_run {providers : List ArchiveProviderRecord} {P : ℕ → Round → Prop}
    {remaining : ℕ}
    (hgive : ∀ replica' state best, replica' < replica + remaining → P replica' state →
      best ∈ providers → isEligible segment state best = true →
      (∀ provider ∈ providers, isEligible segment state provider = true →
        keyOf hashHex segment replica'.toUInt32 best
          ≤ keyOf hashHex segment replica'.toUInt32 provider) →
      P (replica' + 1) (state.give segment replica'.toUInt32 best))
    (h : P replica state) :
    ∃ last ≤ replica + remaining,
      P last (assignReplicas hashHex providers segment remaining replica state) ∧
      (last < replica + remaining → ∀ provider ∈ providers, isEligible segment
        (assignReplicas hashHex providers segment remaining replica state) provider = false) := by
  induction remaining generalizing replica state with
  | zero => exact ⟨replica, Nat.le_refl _, h, fun hlt => absurd hlt (Nat.lt_irrefl _)⟩
  | succ remaining ih =>
    rw [assignReplicas]
    rcases @findBest_spec hashHex segment replica.toUInt32 state providers with
      ⟨hnone, hall⟩ | ⟨best, score, hsome, hmem, heligible, hleast⟩
    · rw [hnone]
      exact ⟨replica, Nat.le_add_right _ _, h, fun _ => hall⟩
    · rw [hsome]
      have hnext := hgive replica state best (by omega) h hmem heligible hleast
      obtain ⟨last, hlast, hkept, hdry⟩ :=
        ih (fun replica' state best hlt => hgive replica' state best (by omega)) hnext
      exact ⟨last, by omega, hkept, fun hlt => hdry (by omega)⟩

end Rounds

--
-- The segments
--

section Segments

variable {hashHex : String → String → String} {parameters : HistoryParameters}
  {segments : List ArchiveSegmentCommitment} {registry : ArchiveProviderRegistry}
  {segment : ArchiveSegmentCommitment} {before mine slots : List ArchiveSlot}
  {replica target done : ℕ} {state : Round} {budgets : SortedMap String Budget}

/-- What the loop over the segments keeps, with so many of them done. -/
structure Assigned (parameters : HistoryParameters) (segments : List ArchiveSegmentCommitment)
    (registry : ArchiveProviderRegistry) (target done : ℕ) (budgets : SortedMap String Budget)
    (slots : List ArchiveSlot) : Prop where
  accounts : Accounts parameters segments registry budgets slots
  below : ∀ slot ∈ slots, slot.segmentIndex.toNat < done
  active : ∀ slot ∈ slots, ∃ record ∈ registry.activeProviders, record.providerId = slot.providerId
  nodupProviders : (slots.map fun slot => (slot.segmentIndex, slot.providerId)).Nodup
  nodupOperators :
    (slots.map fun slot => (slot.segmentIndex, operatorOf registry slot.providerId)).Nodup
  numbered : ∀ index < done, ∀ segment, segments[index]? = some segment → ∃ count ≤ target,
    (slotsOf slots segment.segmentIndex).map (·.replica.toNat) = List.range count ∧
    (count < target → ∀ record ∈ registry.activeProviders,
      Barred parameters segments registry slots segment record)
  spread : ∀ providerId, (slotsFor slots providerId).length ≤ done ∧
    usedBytes segments slots providerId ≤ ((segments.take done).map (·.totalBytes.toNat)).sum

theorem slotsOf_append (slots later : List ArchiveSlot) (segmentIndex : UInt64) :
    slotsOf (slots ++ later) segmentIndex = slotsOf slots segmentIndex ++ slotsOf later segmentIndex :=
  List.filter_append ..

theorem slotsOf_eq_nil {segmentIndex : UInt64}
    (h : ∀ slot ∈ slots, slot.segmentIndex ≠ segmentIndex) : slotsOf slots segmentIndex = [] := by
  unfold slotsOf
  rw [List.filter_eq_nil_iff]
  exact fun slot hslot hsame => h slot hslot (beq_iff_eq.mp hsame)

theorem slotsOf_eq_self {segmentIndex : UInt64}
    (h : ∀ slot ∈ slots, slot.segmentIndex = segmentIndex) : slotsOf slots segmentIndex = slots := by
  unfold slotsOf
  rw [List.filter_eq_self]
  exact fun slot hslot => beq_iff_eq.mpr (h slot hslot)

/-- Slots of later segments change nothing about an earlier one. -/
theorem Barred.append {record : ArchiveProviderRecord}
    (h : Barred parameters segments registry slots segment record)
    (hlater : ∀ slot ∈ mine, segment.segmentIndex < slot.segmentIndex) :
    Barred parameters segments registry (slots ++ mine) segment record := by
  have hof : slotsOf (slots ++ mine) segment.segmentIndex = slotsOf slots segment.segmentIndex := by
    have hmine : slotsOf mine segment.segmentIndex = [] := by
      refine slotsOf_eq_nil fun slot hslot hsame => ?_
      have hlt := UInt64.lt_iff_toNat_lt.mp (hlater slot hslot)
      rw [hsame] at hlt
      exact Nat.lt_irrefl _ hlt
    rw [slotsOf_append, hmine, List.append_nil]
  have hupTo : (slots ++ mine).filter (·.segmentIndex ≤ segment.segmentIndex)
      = slots.filter (·.segmentIndex ≤ segment.segmentIndex) := by
    rw [List.filter_append, (List.filter_eq_nil_iff (l := mine)).mpr, List.append_nil]
    intro slot hslot hle
    have hlt := UInt64.lt_iff_toNat_lt.mp (hlater slot hslot)
    have hle' := UInt64.le_iff_toNat_le.mp (of_decide_eq_true hle)
    omega
  unfold Barred at h ⊢
  rw [hof, hupTo]
  exact h

/-- A provider that is skipped at the end of a segment. -/
theorem RoundKept.barred
    (h : RoundKept parameters segments registry segment before mine replica state)
    (hbefore : ∀ slot ∈ before, slot.segmentIndex < segment.segmentIndex)
    {record : ArchiveProviderRecord} (hrecord : record ∈ registry.activeProviders)
    (hskipped : isEligible segment state record = false) :
    Barred parameters segments registry state.slots segment record := by
  have hupTo : state.slots.filter (·.segmentIndex ≤ segment.segmentIndex) = state.slots := by
    rw [List.filter_eq_self, h.slots]
    intro slot hslot
    rw [decide_eq_true_eq, UInt64.le_iff_toNat_le]
    rcases List.mem_append.mp hslot with hold | hnew
    · exact Nat.le_of_lt (UInt64.lt_iff_toNat_lt.mp (hbefore slot hold))
    · rw [h.index slot hnew]
  have hof : slotsOf state.slots segment.segmentIndex = mine := by
    rw [h.slots, slotsOf_append, slotsOf_eq_nil, slotsOf_eq_self h.index, List.nil_append]
    intro slot hslot hsame
    have hlt := UInt64.lt_iff_toNat_lt.mp (hbefore slot hslot)
    rw [hsame] at hlt
    exact Nat.lt_irrefl _ hlt
  obtain ⟨hcount, hused⟩ := h.accounts record hrecord
  have hnot := mt isEligible_iff.mpr (by rw [hskipped]; exact Bool.false_ne_true)
  rw [h.holders, h.operators, List.mem_reverse, List.mem_reverse] at hnot
  unfold Barred
  simp only
  rw [hupTo, hof]
  by_cases hholder : record.providerId ∈ mine.map (·.providerId)
  · exact Or.inr (Or.inr (Or.inl hholder))
  by_cases hoperator :
      record.operatorId ∈ mine.map fun slot => operatorOf registry slot.providerId
  · exact Or.inr (Or.inr (Or.inr hoperator))
  by_cases hslots : 0 < (budgetOf state.budgets record.providerId).remainingSlots.toNat
  · have hbytes : ¬ segment.totalBytes.toNat
        ≤ (budgetOf state.budgets record.providerId).remainingBytes.toNat :=
      fun hbytes => hnot ⟨hslots, hbytes, hholder, hoperator⟩
    exact Or.inr (Or.inl (by omega))
  · exact Or.inl (by omega)

/-- **What the slots of one more segment keep.** -/
theorem Assigned.extend
    (h : Assigned parameters segments registry target done budgets before)
    (hcontiguous : ∀ (index : ℕ) (other : ArchiveSegmentCommitment), segments[index]? = some other →
      other.segmentIndex.toNat = index)
    (hget : segments[done]? = some segment)
    (hkept : RoundKept parameters segments registry segment before mine replica state)
    (hle : replica ≤ target)
    (hdry : replica < target → ∀ record ∈ registry.activeProviders,
      isEligible segment state record = false) :
    Assigned parameters segments registry target (done + 1) state.budgets state.slots := by
  have hindex := hcontiguous done segment hget
  have hbefore : ∀ slot ∈ before, slot.segmentIndex < segment.segmentIndex := by
    intro slot hslot
    rw [UInt64.lt_iff_toNat_lt, hindex]
    exact h.below slot hslot
  have hother : ∀ slot ∈ before, slot.segmentIndex ≠ segment.segmentIndex := by
    intro slot hslot hsame
    have hlt := UInt64.lt_iff_toNat_lt.mp (hbefore slot hslot)
    rw [hsame] at hlt
    exact Nat.lt_irrefl _ hlt
  have hdisjoint : ∀ {α : Type} (f : ArchiveSlot → α),
      (before.map fun slot => (slot.segmentIndex, f slot)).Disjoint
        (mine.map fun slot => (slot.segmentIndex, f slot)) := by
    intro α f pair hpair hpair'
    obtain ⟨slot, hslot, rfl⟩ := List.mem_map.mp hpair
    obtain ⟨slot', hslot', hsame⟩ := List.mem_map.mp hpair'
    exact hother slot hslot ((congrArg Prod.fst hsame).symm.trans (hkept.index slot' hslot'))
  refine ⟨hkept.accounts, ?_, ?_, ?_, ?_, ?_, ?_⟩
  · intro slot hslot
    rw [hkept.slots] at hslot
    rcases List.mem_append.mp hslot with hold | hnew
    · exact Nat.lt_succ_of_lt (h.below slot hold)
    · rw [hkept.index slot hnew, hindex]
      exact Nat.lt_succ_self done
  · intro slot hslot
    rw [hkept.slots] at hslot
    rcases List.mem_append.mp hslot with hold | hnew
    · exact h.active slot hold
    · exact hkept.active slot hnew
  · rw [hkept.slots, List.map_append]
    refine h.nodupProviders.append (List.Nodup.of_map Prod.snd ?_) (hdisjoint _)
    rw [List.map_map]
    exact hkept.nodupProviders
  · rw [hkept.slots, List.map_append]
    refine h.nodupOperators.append (List.Nodup.of_map Prod.snd ?_)
      (hdisjoint fun slot => operatorOf registry slot.providerId)
    rw [List.map_map]
    exact hkept.nodupOperators
  · intro index hlt earlier hearlier
    rcases Nat.lt_succ_iff_lt_or_eq.mp hlt with hold | rfl
    · obtain ⟨count, hcount, hrange, hbarred⟩ := h.numbered index hold earlier hearlier
      have hlater : ∀ slot ∈ mine, earlier.segmentIndex < slot.segmentIndex := by
        intro slot hslot
        rw [hkept.index slot hslot, UInt64.lt_iff_toNat_lt, hindex,
          hcontiguous index earlier hearlier]
        exact hold
      have hmine : slotsOf mine earlier.segmentIndex = [] := by
        refine slotsOf_eq_nil fun slot hslot hsame => ?_
        have hlt := UInt64.lt_iff_toNat_lt.mp (hlater slot hslot)
        rw [hsame] at hlt
        exact Nat.lt_irrefl _ hlt
      refine ⟨count, hcount, ?_, fun hlt record hrecord => ?_⟩
      · rw [hkept.slots, slotsOf_append, hmine, List.append_nil]
        exact hrange
      · rw [hkept.slots]
        exact (hbarred hlt record hrecord).append hlater
    · rw [hget] at hearlier
      cases hearlier
      refine ⟨replica, hle, ?_, fun hlt record hrecord =>
        hkept.barred hbefore hrecord (hdry hlt record hrecord)⟩
      rw [hkept.slots, slotsOf_append, slotsOf_eq_nil hother, slotsOf_eq_self hkept.index,
        List.nil_append]
      exact hkept.replicas
  · intro providerId
    obtain ⟨hcount, hused⟩ := h.spread providerId
    have hone := length_slotsFor_le hkept.nodupProviders providerId
    have hcost : usedBytes segments mine providerId ≤ segment.totalBytes.toNat := by
      have hbytes : ∀ slot ∈ slotsFor mine providerId, bytesOf segments slot = segment.totalBytes.toNat := by
        intro slot hslot
        unfold bytesOf
        rw [hkept.index slot (List.mem_filter.mp hslot).1, hindex, hget]
        rfl
      unfold usedBytes
      rw [List.map_congr_left hbytes, List.map_const', List.sum_replicate_nat]
      calc (slotsFor mine providerId).length * segment.totalBytes.toNat
          ≤ 1 * segment.totalBytes.toNat := Nat.mul_le_mul_right _ hone
        _ = segment.totalBytes.toNat := Nat.one_mul _
    have htake : segments.take (done + 1) = segments.take done ++ [segment] := by
      rw [List.take_add_one, hget]
      rfl
    rw [hkept.slots, slotsFor_append, usedBytes_append, List.length_append, htake, List.map_append,
      List.sum_append]
    simp only [List.map_singleton, List.sum_singleton]
    omega

end Segments

--
-- The draw of a segment
--

section Draw

open Rendezvous

variable {hashHex : String → String → String} {parameters : HistoryParameters}
  {segments : List ArchiveSegmentCommitment} {registry : ArchiveProviderRegistry}
  {segment : ArchiveSegmentCommitment} {before mine slots : List ArchiveSlot}
  {replica target done : ℕ} {state : Round} {budgets : SortedMap String Budget}
  {keys : String → String}

/-- The ids of the active providers. -/
def activeIds (registry : ArchiveProviderRegistry) : Set String :=
  {providerId | ∃ record ∈ registry.activeProviders, record.providerId = providerId}

/-- Who holds a segment. -/
def holdersOf (slots : List ArchiveSlot) (segmentIndex : UInt64) : Set String :=
  {providerId | ∃ slot ∈ slots, slot.segmentIndex = segmentIndex ∧ slot.providerId = providerId}

/-- What a replica of a segment is drawn by, the assignment keys given by provider id. -/
def drawKey (hashHex : String → String → String) (keys : String → String)
    (segment : ArchiveSegmentCommitment) (replica : ℕ) (providerId : String) :
    String ×ₗ String :=
  toLex (rank hashHex segment.segmentIndex replica.toUInt32 (keys providerId), providerId)

theorem drawKey_injective (hashHex : String → String → String) (keys : String → String)
    (segment : ArchiveSegmentCommitment) (replica : ℕ) :
    Function.Injective (drawKey hashHex keys segment replica) :=
  fun _ _ hsame => (Prod.mk.inj (toLex.injective hsame)).2

/-- Every provider has its own operator, and room for all segments. -/
structure Roomy (parameters : HistoryParameters) (segments : List ArchiveSegmentCommitment)
    (registry : ArchiveProviderRegistry) : Prop where
  operators : (registry.activeProviders.map (·.operatorId)).Nodup
  slots : ∀ record ∈ registry.activeProviders,
    segments.length ≤ (record.registration.maxSlots parameters).toNat
  bytes : ∀ record ∈ registry.activeProviders,
    (segments.map (·.totalBytes.toNat)).sum
      ≤ record.registration.fields.declaredCapacityBytes.toNat

/-- The assignment keys of the active providers. -/
def KeysOf (registry : ArchiveProviderRegistry) (keys : String → String) : Prop :=
  ∀ record ∈ registry.activeProviders, keys record.providerId = record.assignmentKey

/-- With room for all, a provider is eligible until it holds the segment. -/
theorem RoundKept.isEligible_iff_of_roomy
    (h : RoundKept parameters segments registry segment before mine replica state)
    (hassigned : Assigned parameters segments registry target done budgets before)
    (hget : segments[done]? = some segment) (hroomy : Roomy parameters segments registry)
    {record : ArchiveProviderRecord} (hrecord : record ∈ registry.activeProviders) :
    isEligible segment state record = true ↔ record.providerId ∉ state.holders := by
  rw [isEligible_iff]
  refine ⟨fun hok => hok.2.2.1, fun hnot => ?_⟩
  have hmine : record.providerId ∉ mine.map (·.providerId) := by
    rwa [h.holders, List.mem_reverse] at hnot
  obtain ⟨hcount, hused⟩ := h.accounts record hrecord
  obtain ⟨hspread, hbytes⟩ := hassigned.spread record.providerId
  have hnone := slotsFor_eq_nil hmine
  have hfree : usedBytes segments mine record.providerId = 0 := by
    unfold usedBytes
    rw [hnone]
    rfl
  rw [h.slots, slotsFor_append, hnone, List.append_nil] at hcount
  rw [h.slots, usedBytes_append, hfree, Nat.add_zero] at hused
  obtain ⟨hdone, -⟩ := List.getElem?_eq_some_iff.mp hget
  have hslots := hroomy.slots record hrecord
  have hcapacity := hroomy.bytes record hrecord
  have hsum : ((segments.take done).map (·.totalBytes.toNat)).sum + segment.totalBytes.toNat
      ≤ (segments.map (·.totalBytes.toNat)).sum := by
    have htake : segments.take (done + 1) = segments.take done ++ [segment] := by
      rw [List.take_add_one, hget]
      rfl
    have hsplit := congrArg (fun l => (l.map (·.totalBytes.toNat)).sum)
      (List.take_append_drop (done + 1) segments)
    simp only [htake, List.map_append, List.sum_append, List.map_singleton,
      List.sum_singleton] at hsplit
    omega
  refine ⟨by omega, by omega, hnot, ?_⟩
  intro hoperator
  rw [h.operators, List.mem_reverse] at hoperator
  obtain ⟨slot, hslot, hsame⟩ := List.mem_map.mp hoperator
  obtain ⟨holder, hholder, hid⟩ := h.active slot hslot
  rw [← hid, operatorOf_of_mem hholder] at hsame
  have hrecordEq := List.inj_on_of_nodup_map hroomy.operators hholder hrecord hsame
  exact hmine (List.mem_map.mpr ⟨slot, hslot, by rw [← hid, hrecordEq]⟩)

/-- **With room for all, a round of the draw takes the least provider left.** -/
theorem RoundKept.taken_give
    (h : RoundKept parameters segments registry segment before mine replica state)
    (hassigned : Assigned parameters segments registry target done budgets before)
    (hget : segments[done]? = some segment) (hroomy : Roomy parameters segments registry)
    (hkeys : KeysOf registry keys)
    (htaken : Taken (drawKey hashHex keys segment) (activeIds registry) replica
      {providerId | providerId ∈ state.holders})
    {best : ArchiveProviderRecord} (hbest : best ∈ registry.activeProviders)
    (heligible : isEligible segment state best = true)
    (hleast : ∀ provider ∈ registry.activeProviders, isEligible segment state provider = true →
      keyOf hashHex segment replica.toUInt32 best
        ≤ keyOf hashHex segment replica.toUInt32 provider) :
    Taken (drawKey hashHex keys segment) (activeIds registry) (replica + 1)
      {providerId | providerId ∈ (state.give segment replica.toUInt32 best).holders} := by
  have hkey : ∀ record ∈ registry.activeProviders,
      drawKey hashHex keys segment replica record.providerId
        = keyOf hashHex segment replica.toUInt32 record := by
    intro record hrecord
    unfold drawKey keyOf
    rw [hkeys record hrecord]
  have hset : {providerId | providerId ∈ (state.give segment replica.toUInt32 best).holders}
      = insert best.providerId {providerId | providerId ∈ state.holders} := by
    ext providerId
    exact List.mem_cons
  rw [hset]
  refine .pick htaken ⟨best, hbest, rfl⟩
    ((h.isEligible_iff_of_roomy hassigned hget hroomy hbest).mp heligible) ?_
  rintro providerId ⟨record, hrecord, rfl⟩ hfree
  rw [hkey best hbest, hkey record hrecord]
  exact hleast record hrecord
    ((h.isEligible_iff_of_roomy hassigned hget hroomy hrecord).mpr hfree)

/-- What a segment done by the planner says about its holders, with room for all. -/
def Drawn (hashHex : String → String → String) (parameters : HistoryParameters)
    (segments : List ArchiveSegmentCommitment) (registry : ArchiveProviderRegistry)
    (target done : ℕ) (slots : List ArchiveSlot) : Prop :=
  Roomy parameters segments registry → ∀ keys, KeysOf registry keys →
    ∀ index < done, ∀ segment, segments[index]? = some segment →
      Taken (drawKey hashHex keys segment) (activeIds registry) target
        (holdersOf slots segment.segmentIndex)

/-- **One segment**: the limits are kept, and with room for all its holders are drawn. -/
theorem assignReplicas_kept (hcontiguous : ∀ (index : ℕ) (other : ArchiveSegmentCommitment),
      segments[index]? = some other → other.segmentIndex.toNat = index)
    (hget : segments[done]? = some segment) (htarget : target < 2 ^ 32)
    (h : Assigned parameters segments registry target done budgets before)
    (hdrawn : Drawn hashHex parameters segments registry target done before) :
    let round := assignReplicas hashHex registry.activeProviders segment target 0
      ⟨budgets, [], [], before⟩
    Assigned parameters segments registry target (done + 1) round.budgets round.slots ∧
      Drawn hashHex parameters segments registry target (done + 1) round.slots := by
  intro round
  have hindex := hcontiguous done segment hget
  have hseg : segments[segment.segmentIndex.toNat]? = some segment := by rw [hindex, hget]
  obtain ⟨last, hlast, ⟨mine, hkept, htaken⟩, hdry⟩ := @assignReplicas_run hashHex segment 0
    ⟨budgets, [], [], before⟩ registry.activeProviders
    (fun replica state => ∃ mine,
      RoundKept parameters segments registry segment before mine replica state ∧
      (Roomy parameters segments registry → ∀ keys, KeysOf registry keys →
        Taken (drawKey hashHex keys segment) (activeIds registry) replica
          {providerId | providerId ∈ state.holders})) target
    (by
      rintro replica state best hlt ⟨mine, hkept, htaken⟩ hbest heligible hleast
      refine ⟨_, hkept.give hseg (by omega) hbest heligible, fun hroomy keys hkeys => ?_⟩
      exact hkept.taken_give h hget hroomy hkeys (htaken hroomy keys hkeys) hbest heligible hleast)
    ⟨[], RoundKept.start h.accounts rfl, fun _ _ _ => by
      rw [show {providerId | providerId ∈ ([] : List String)} = ∅ from
        Set.eq_empty_iff_forall_notMem.mpr fun _ => List.not_mem_nil]
      exact .start⟩
  rw [Nat.zero_add] at hlast hdry
  have hnext := h.extend hcontiguous hget hkept hlast hdry
  refine ⟨hnext, fun hroomy keys hkeys index hlt other hother => ?_⟩
  have hholders : ∀ segmentIndex, holdersOf round.slots segmentIndex
      = holdersOf before segmentIndex ∪ holdersOf mine segmentIndex := by
    intro segmentIndex
    ext providerId
    show (∃ slot ∈ (assignReplicas _ _ _ _ _ _).slots, _) ↔ _
    rw [hkept.slots]
    simp only [List.mem_append, or_and_right, exists_or]
    rfl
  rcases Nat.lt_succ_iff_lt_or_eq.mp hlt with hold | rfl
  · have hnone : holdersOf mine other.segmentIndex = ∅ := by
      rw [Set.eq_empty_iff_forall_notMem]
      rintro providerId ⟨slot, hslot, hsame, -⟩
      have hplace := hcontiguous index other hother
      rw [← hsame, hkept.index slot hslot, hindex] at hplace
      omega
    rw [hholders, hnone, Set.union_empty]
    exact hdrawn hroomy keys hkeys index hold other hother
  · rw [hget] at hother
    cases hother
    have hnone : holdersOf before segment.segmentIndex = ∅ := by
      rw [Set.eq_empty_iff_forall_notMem]
      rintro providerId ⟨slot, hslot, hsame, -⟩
      have hbelow := h.below slot hslot
      rw [hsame, hindex] at hbelow
      exact Nat.lt_irrefl _ hbelow
    have hmine : holdersOf mine segment.segmentIndex = {providerId | providerId ∈ round.holders} := by
      ext providerId
      show (∃ slot ∈ mine, _) ↔ providerId ∈ (assignReplicas _ _ _ _ _ _).holders
      rw [hkept.holders, List.mem_reverse, List.mem_map]
      exact ⟨fun ⟨slot, hslot, _, hid⟩ => ⟨slot, hslot, hid⟩,
        fun ⟨slot, hslot, hid⟩ => ⟨slot, hslot, hkept.index slot hslot, hid⟩⟩
    rw [hholders, hnone, hmine, Set.empty_union]
    have hrounds := htaken hroomy keys hkeys
    rcases Nat.lt_or_eq_of_le hlast with hearly | rfl
    · -- the loop stopped early: no provider is left for the other rounds
      refine hrounds.dry_to ?_ hlast
      rintro providerId ⟨record, hrecord, rfl⟩
      by_contra hfree
      have hskipped := hdry hearly record hrecord
      rw [(hkept.isEligible_iff_of_roomy h hget hroomy hrecord).mpr hfree] at hskipped
      cases hskipped
    · exact hrounds

/-- **A run over the segments.** -/
theorem assignSegments_kept (hcontiguous : ∀ (index : ℕ) (other : ArchiveSegmentCommitment),
      segments[index]? = some other → other.segmentIndex.toNat = index)
    (htarget : target < 2 ^ 32) {rest : List ArchiveSegmentCommitment}
    (hdone : done ≤ segments.length) (hrest : segments.drop done = rest)
    (h : Assigned parameters segments registry target done budgets before)
    (hdrawn : Drawn hashHex parameters segments registry target done before) :
    (∃ last, Assigned parameters segments registry target segments.length last
      (assignSegments hashHex registry.activeProviders target rest budgets before)) ∧
    Drawn hashHex parameters segments registry target segments.length
      (assignSegments hashHex registry.activeProviders target rest budgets before) := by
  induction rest generalizing done budgets before with
  | nil =>
    have hall : done = segments.length :=
      Nat.le_antisymm hdone (List.drop_eq_nil_iff.mp hrest)
    subst hall
    exact ⟨⟨budgets, h⟩, hdrawn⟩
  | cons segment rest ih =>
    have hget : segments[done]? = some segment := by
      rw [← List.head?_drop, hrest]
      rfl
    have hdrop : segments.drop (done + 1) = rest := by
      rw [← List.tail_drop, hrest]
      rfl
    obtain ⟨hnext, hdrawn'⟩ := assignReplicas_kept hcontiguous hget htarget h hdrawn
    rw [assignSegments]
    obtain ⟨hlt, -⟩ := List.getElem?_eq_some_iff.mp hget
    exact ih hlt hdrop hnext hdrawn'

end Draw

end ArchiveAssignmentPlanner

--
-- The plan
--

section Plan

open ArchiveAssignmentPlanner Rendezvous

variable {hashHex : String → String → String} {parameters : HistoryParameters}
  {segments : List ArchiveSegmentCommitment} {registry registry' : ArchiveProviderRegistry}
  {slots : List ArchiveSlot}

/-- The limits of a plan: distinct providers and operators for each segment, slots and bytes
within what a provider registered, and replicas without gaps up to the target or until nobody
could take the next one. -/
structure WithinLimits (parameters : HistoryParameters)
    (segments : List ArchiveSegmentCommitment) (registry : ArchiveProviderRegistry)
    (slots : List ArchiveSlot) : Prop where
  active : ∀ slot ∈ slots, slot.segmentIndex.toNat < segments.length ∧
    ∃ record ∈ registry.activeProviders, record.providerId = slot.providerId
  providers : (slots.map fun slot => (slot.segmentIndex, slot.providerId)).Nodup
  operators : (slots.map fun slot => (slot.segmentIndex, operatorOf registry slot.providerId)).Nodup
  slotLimit : ∀ record ∈ registry.activeProviders,
    (slotsFor slots record.providerId).length ≤ (record.registration.maxSlots parameters).toNat
  byteLimit : ∀ record ∈ registry.activeProviders, usedBytes segments slots record.providerId
    ≤ record.registration.fields.declaredCapacityBytes.toNat
  numbered : ∀ segment ∈ segments, ∃ count ≤ parameters.archiveReplicationTarget.toNat,
    (slotsOf slots segment.segmentIndex).map (·.replica.toNat) = List.range count ∧
    (count < parameters.archiveReplicationTarget.toNat → ∀ record ∈ registry.activeProviders,
      Barred parameters segments registry slots segment record)

/-- What a plan of contiguous segments keeps. -/
theorem plan_kept (hvalid : parameters.isValid = true)
    (hcontiguous : ArchiveIndex.isContiguous segments = true) :
    ∃ slots, plan hashHex parameters segments registry = .ok slots ∧
      WithinLimits parameters segments registry slots ∧
      Drawn hashHex parameters segments registry parameters.archiveReplicationTarget.toNat
        segments.length slots := by
  have hplace : ∀ (index : ℕ) (other : ArchiveSegmentCommitment), segments[index]? = some other →
      other.segmentIndex.toNat = index := fun _ _ hget =>
    ArchiveIndex.isContiguous_spec hcontiguous hget
  have hstart : Assigned parameters segments registry parameters.archiveReplicationTarget.toNat 0
      (initialBudgets parameters registry.activeProviders) [] := by
    refine ⟨accounts_initial parameters segments registry, ?_, ?_, List.nodup_nil, List.nodup_nil,
      ?_, fun _ => ⟨Nat.le_refl _, Nat.le_refl _⟩⟩
    · exact fun _ hmem => absurd hmem List.not_mem_nil
    · exact fun _ hmem => absurd hmem List.not_mem_nil
    · exact fun _ hlt => absurd hlt (Nat.not_lt_zero _)
  obtain ⟨⟨last, hkept⟩, hdrawn⟩ := @assignSegments_kept hashHex parameters segments registry []
    parameters.archiveReplicationTarget.toNat 0 _ hplace (UInt32.toNat_lt _) segments
    (Nat.zero_le _) rfl hstart (fun _ _ _ _ hlt => absurd hlt (Nat.not_lt_zero _))
  refine ⟨_, ?_, ⟨fun slot hslot => ⟨hkept.below slot hslot, hkept.active slot hslot⟩,
    hkept.nodupProviders, hkept.nodupOperators, ?_, ?_, ?_⟩, hdrawn⟩
  · unfold plan
    rw [hvalid, hcontiguous]
    rfl
  · intro record hrecord
    have hcount := (hkept.accounts record hrecord).1
    omega
  · intro record hrecord
    have hused := (hkept.accounts record hrecord).2
    omega
  · intro segment hsegment
    obtain ⟨index, hlt, hget⟩ := List.mem_iff_getElem.mp hsegment
    exact hkept.numbered index hlt segment (List.getElem?_eq_some_iff.mpr ⟨hlt, hget⟩)

/-- Room for all is room for fewer. -/
theorem ArchiveAssignmentPlanner.Roomy.of_perm {newcomer : ArchiveProviderRecord}
    (hperm : registry'.activeProviders.Perm (newcomer :: registry.activeProviders))
    (h : Roomy parameters segments registry') : Roomy parameters segments registry := by
  have hmem : ∀ record ∈ registry.activeProviders, record ∈ registry'.activeProviders :=
    fun record hrecord => hperm.mem_iff.mpr (List.mem_cons_of_mem _ hrecord)
  refine ⟨?_, fun record hrecord => h.slots record (hmem record hrecord),
    fun record hrecord => h.bytes record (hmem record hrecord)⟩
  have hnodup := (hperm.map (·.operatorId)).nodup_iff.mp h.operators
  exact (List.nodup_cons.mp hnodup).2

/-- **A newcomer changes the holders of a segment by joining them, at the cost of one of them at
most**, if there is room for all. -/
theorem newcomer_displaces_one {newcomer : ArchiveProviderRecord} {slots' : List ArchiveSlot}
    (hperm : registry'.activeProviders.Perm (newcomer :: registry.activeProviders))
    (hroomy : Roomy parameters segments registry')
    (hdrawn : Drawn hashHex parameters segments registry
      parameters.archiveReplicationTarget.toNat segments.length slots)
    (hdrawn' : Drawn hashHex parameters segments registry'
      parameters.archiveReplicationTarget.toNat segments.length slots')
    {segment : ArchiveSegmentCommitment} (hsegment : segment ∈ segments) :
    Displaced newcomer.providerId (activeIds registry) (holdersOf slots segment.segmentIndex)
      (holdersOf slots' segment.segmentIndex) := by
  obtain ⟨index, hlt, hget⟩ := List.mem_iff_getElem.mp hsegment
  have hget' := List.getElem?_eq_some_iff.mpr ⟨hlt, hget⟩
  let keys : String → String := fun providerId =>
    (registry'.activeProviders.find? (·.providerId == providerId)).elim "" (·.assignmentKey)
  have hkeys' : KeysOf registry' keys := by
    intro record hrecord
    have hfind : registry'.activeProviders.find? (·.providerId == record.providerId)
        = some record := by
      cases hfound : registry'.activeProviders.find? (·.providerId == record.providerId) with
      | none => exact absurd (beq_self_eq_true _) (List.find?_eq_none.mp hfound record hrecord)
      | some other =>
        have hid : other.providerId = record.providerId := by simpa using List.find?_some hfound
        rw [eq_of_providerId (List.mem_of_find?_eq_some hfound) hrecord hid]
    show (registry'.activeProviders.find? (·.providerId == record.providerId)).elim ""
      (·.assignmentKey) = record.assignmentKey
    rw [hfind]
    rfl
  have hkeys : KeysOf registry keys := fun record hrecord =>
    hkeys' record (hperm.mem_iff.mpr (List.mem_cons_of_mem _ hrecord))
  have hpool : activeIds registry' = insert newcomer.providerId (activeIds registry) := by
    ext providerId
    rw [Set.mem_insert_iff]
    constructor
    · rintro ⟨record, hrecord, rfl⟩
      rcases List.mem_cons.mp (hperm.mem_iff.mp hrecord) with rfl | hold
      · exact Or.inl rfl
      · exact Or.inr ⟨record, hold, rfl⟩
    · rintro (rfl | ⟨record, hrecord, rfl⟩)
      · exact ⟨newcomer, hperm.mem_iff.mpr List.mem_cons_self, rfl⟩
      · exact ⟨record, hperm.mem_iff.mpr (List.mem_cons_of_mem _ hrecord), rfl⟩
  have hnew : newcomer.providerId ∉ activeIds registry := by
    rintro ⟨record, hrecord, hid⟩
    have hnodup := (hperm.map (·.providerId)).nodup_iff.mp registry'.nodup_activeProviders
    exact (List.nodup_cons.mp hnodup).1 (List.mem_map.mpr ⟨record, hrecord, hid⟩)
  have hold := hdrawn (hroomy.of_perm hperm) keys hkeys index hlt segment hget'
  have hjoined := hdrawn' hroomy keys hkeys' index hlt segment hget'
  rw [hpool] at hjoined
  exact hold.newcomer (drawKey_injective hashHex keys segment) hnew hjoined

/-- **A plan keeps the limits, and a newcomer costs a segment one holder at most.** -/
theorem archive_assignment (hashHex : String → String → String) (parameters : HistoryParameters)
    (segments : List ArchiveSegmentCommitment) (hvalid : parameters.isValid = true)
    (hcontiguous : ArchiveIndex.isContiguous segments = true) :
    (∀ registry, ∃ slots, plan hashHex parameters segments registry = .ok slots ∧
      WithinLimits parameters segments registry slots) ∧
    (∀ registry registry' newcomer slots slots',
      registry'.activeProviders.Perm (newcomer :: registry.activeProviders) →
      Roomy parameters segments registry' →
      plan hashHex parameters segments registry = .ok slots →
      plan hashHex parameters segments registry' = .ok slots' →
      ∀ segment ∈ segments,
        let holders := holdersOf slots segment.segmentIndex
        let holders' := holdersOf slots' segment.segmentIndex
        holders' = holders ∨ holders' = insert newcomer.providerId holders ∨
          ∃ lost ∈ holders, holders' = insert newcomer.providerId (holders \ {lost})) := by
  refine ⟨fun registry => ?_, ?_⟩
  · obtain ⟨slots, hplan, hlimits, -⟩ := @plan_kept hashHex _ _ registry hvalid hcontiguous
    exact ⟨slots, hplan, hlimits⟩
  · intro registry registry' newcomer slots slots' hperm hroomy hplan hplan' segment hsegment
    obtain ⟨old, hold, -, hdrawn⟩ := @plan_kept hashHex _ _ registry hvalid hcontiguous
    obtain ⟨new, hnew, -, hdrawn'⟩ := @plan_kept hashHex _ _ registry' hvalid hcontiguous
    rw [hold] at hplan
    rw [hnew] at hplan'
    cases hplan
    cases hplan'
    have hdisplaced := newcomer_displaces_one hperm hroomy hdrawn hdrawn' hsegment
    intro holders holders'
    change Displaced newcomer.providerId (activeIds registry) holders holders' at hdisplaced
    generalize holders' = after at hdisplaced ⊢
    cases hdisplaced with
    | same => exact Or.inl rfl
    | joined => exact Or.inr (Or.inl rfl)
    | swapped hlost => exact Or.inr (Or.inr ⟨_, hlost, rfl⟩)

/-- A sealed segment of two blocks. -/
def sampleSegment : ArchiveSegmentCommitment where
  chainId := "c"
  segmentIndex := 0
  firstHeight := 1
  lastHeight := 2
  pieceBytes := 512
  totalBytes := 600
  pieceCount := 2
  pieceRoot := String.ofList (List.replicate 64 'a')
  lastBlockHash := String.ofList (List.replicate 64 'b')

/-- An active provider with the bond for two slots. -/
def sampleProvider (providerId operatorId : String) : ArchiveProviderRecord where
  registration := ⟨⟨"c", providerId, "", operatorId, 200000000, 1000, 1⟩,
    ⟨.nodoCryptoSuiteV1, .archivalProof, .classicEd25519, ⟨.classicEd25519, ""⟩, "", 1⟩⟩
  status := .active
  activationHeight := 3
  assignmentKey := providerId
  successfulEpochStreak := 0
  consecutiveFailedEpochs := 0
  removedAtHeight := 0
  removalReason := ""

def sampleProviders : ArchiveProviderRegistry :=
  ((ArchiveProviderRegistry.empty "c").put (sampleProvider "p" "o")).put (sampleProvider "q" "r")

/-- The segment goes to both providers: their plan keeps the limits. -/
theorem archive_assignment_sample :
    ∃ slots, plan (fun _ bytes => bytes) .developmentLocal [sampleSegment] sampleProviders
        = .ok slots ∧
      WithinLimits .developmentLocal [sampleSegment] sampleProviders slots :=
  (archive_assignment (fun _ bytes => bytes) .developmentLocal [sampleSegment]
    (by decide +kernel) (by decide +kernel)).1 sampleProviders

end Plan

end Nodo.Model
