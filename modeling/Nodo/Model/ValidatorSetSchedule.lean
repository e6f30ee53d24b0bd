import Mathlib.Algebra.Order.BigOperators.Group.List
import Mathlib.Data.Nat.Dist
import Nodo.Model.Certificates

/-!
# Nodo — bounded validator-set churn

`ValidatorSetSchedule::project` of `node/ValidatorSetSchedule.hpp` chooses the set that
votes in the next epoch. It moves from the previous set towards the set of the
economic state and spends a budget of changed weight: reductions and removals
first, then increases and new keys, both in address order. What the budget does not
reach stays as it was.

## Results

* `reduce_invariant`, `grow_invariant` — what the two passes keep: the budget is the
  unspent rest plus the weight moved so far, and each entry chosen lies between the
  two sets.
* `restoreEntries_eq` — the entries chosen build a registry exactly when their weights
  add up in 64 bits.
* `project_bounded` — what `project` returns, and the one case in which it throws.
-/

namespace Nodo.Model

--
-- Restoring entries (core/ValidatorRegistry.cpp)
--

namespace ValidatorRegistry

def empty : ValidatorRegistry := ⟨SortedMap.empty⟩

def hasValidator (registry : ValidatorRegistry) (address : String) : Bool :=
  registry.entries.contains address

/-- `validatorAddresses`: the keys in address order. -/
def validatorAddresses (registry : ValidatorRegistry) : List String := registry.entries.keys

/-- `restoreEntry`; `none` stands for `false`, which leaves the registry as it was. -/
def restoreEntry (crypto : CryptoContext) (registry : ValidatorRegistry)
    (entry : ValidatorRegistryEntry) : Option ValidatorRegistry :=
  if !entry.isValid crypto then none
  else
    let address := entry.registrationRecord.validatorAddress
    if !isSafeScalar address || registry.entries.contains address then none
    else
      let restored : ValidatorRegistry := ⟨registry.entries.insert address entry⟩
      if !restored.isValid crypto then none else some restored

/-- The loop that restores a list of entries one by one, up to the first refusal. -/
def restoreEntries (crypto : CryptoContext) (registry : ValidatorRegistry)
    (entries : List ValidatorRegistryEntry) : Option ValidatorRegistry :=
  entries.foldlM (restoreEntry crypto) registry

end ValidatorRegistry

--
-- The projection (node/ValidatorSetSchedule.hpp)
--

namespace ValidatorSetSchedule

/-- `kMaxChurnBasisPoints`. -/
def maxChurnBasisPoints : Nat := 3333

/-- The weight that may change; the product is taken in 128 bits. -/
def churnBudget (total : UInt64) : UInt64 :=
  UInt64.ofNat (total.toNat * maxChurnBasisPoints / 10000)

/-- `withStake`: the same validator at another stake. -/
def withStake (entry : ValidatorRegistryEntry) (stake : UInt64) : ValidatorRegistryEntry :=
  { entry with stakeAmount := stake }

/-- The two variables of the passes: the entries `selected` so far and the weight
`remaining` in the budget. -/
structure Plan where
  selected : SortedMap String ValidatorRegistryEntry
  remaining : UInt64

/-- `selected.emplace(address, entry)`: a present key keeps its entry. -/
def Plan.emplace (plan : Plan) (address : String) (entry : ValidatorRegistryEntry) :
    SortedMap String ValidatorRegistryEntry :=
  if plan.selected.contains address then plan.selected else plan.selected.insert address entry

/-- The set of addresses of either registry, in order. -/
def allAddresses (previous target : ValidatorRegistry) : List String :=
  ((previous.validatorAddresses ++ target.validatorAddresses).foldl
    (fun (set : SortedMap String Unit) address => set.insert address ()) SortedMap.empty).keys

/-- Some new key of this owner may not vote yet. -/
def replacementIsImmature (previous target : ValidatorRegistry) (effectiveEpoch : Nat)
    (ownerAddress : String) : Bool :=
  target.entries.entries.any fun (newAddress, replacement) =>
    !previous.hasValidator newAddress && replacement.eligibleForConsensus
      && replacement.ownerAddress == ownerAddress
      && effectiveEpoch < replacement.registrationRecord.activationEpoch

/-- A key of this owner has left the target but votes on in the selected set. -/
def oldKeyStillLive (target : ValidatorRegistry)
    (selected : SortedMap String ValidatorRegistryEntry) (ownerAddress : String) : Bool :=
  selected.entries.any fun (oldAddress, entry) =>
    !target.hasValidator oldAddress && entry.eligibleForConsensus
      && entry.ownerAddress == ownerAddress

/-- One address of the first pass: removals and reductions. -/
def reduceStep (previous target : ValidatorRegistry) (effectiveEpoch : Nat) (plan : Plan)
    (address : String) : Plan :=
  let oldWeight := previous.consensusWeightFor address
  let nextWeight := target.consensusWeightFor address
  if oldWeight == 0 || oldWeight ≤ nextWeight then plan
  else match previous.entries.find? address with
    | none => plan
    | some old =>
      if (target.entries.find? address).isNone
          && replacementIsImmature previous target effectiveEpoch old.ownerAddress then
        { plan with selected := plan.emplace address old }
      else if oldWeight - nextWeight ≤ plan.remaining then
        { selected := match target.entries.find? address with
            | none => plan.selected
            | some next => if nextWeight == 0 then plan.selected else plan.emplace address next
          remaining := plan.remaining - (oldWeight - nextWeight) }
      else
        -- A reduction that the budget only reaches in part, never below the minimum stake.
        let projectedWeight := max minValidatorStakeRawUnits (oldWeight - plan.remaining)
        { selected := plan.emplace address (withStake old projectedWeight)
          remaining := plan.remaining - (oldWeight - projectedWeight) }

/-- One address of the second pass: unchanged weights, increases and new keys. -/
def growStep (previous target : ValidatorRegistry) (effectiveEpoch : Nat) (plan : Plan)
    (address : String) : Plan :=
  if plan.selected.contains address then plan
  else
    let oldWeight := previous.consensusWeightFor address
    let nextWeight := target.consensusWeightFor address
    if nextWeight < oldWeight then plan
    else match target.entries.find? address with
      | none => plan
      | some next =>
        let old := previous.entries.find? address
        if nextWeight == 0 then plan
        else if old.isNone && effectiveEpoch < next.registrationRecord.activationEpoch then plan
        else if old.isNone && oldKeyStillLive target plan.selected next.ownerAddress then plan
        else if nextWeight - oldWeight ≤ plan.remaining then
          { selected := plan.emplace address next
            remaining := plan.remaining - (nextWeight - oldWeight) }
        else if minValidatorStakeRawUnits ≤ oldWeight + plan.remaining then
          { selected := plan.emplace address (withStake next (oldWeight + plan.remaining))
            remaining := 0 }
        else match old with
          | none => plan
          | some entry => { plan with selected := plan.emplace address entry }

/-- The plan after the first pass over `addresses`. -/
def reducePass (previous target : ValidatorRegistry) (effectiveEpoch : Nat) (budget : UInt64)
    (addresses : List String) : Plan :=
  addresses.foldl (reduceStep previous target effectiveEpoch) ⟨SortedMap.empty, budget⟩

/-- Both passes. -/
def plan (previous target : ValidatorRegistry) (effectiveEpoch : Nat) (budget : UInt64) : Plan :=
  (allAddresses previous target).foldl (growStep previous target effectiveEpoch)
    (reducePass previous target effectiveEpoch budget (allAddresses previous target))

/-- `changedWeight`, summed in 128 bits. -/
def changedWeight (previous projected : ValidatorRegistry) (addresses : List String) : Nat :=
  (addresses.map fun address =>
    let before := previous.consensusWeightFor address
    let after := projected.consensusWeightFor address
    if after < before then (before - after).toNat else (after - before).toNat).sum

/-- `project`; an error is the text of the exception. -/
def project (crypto : CryptoContext) (previous target : ValidatorRegistry)
    (effectiveEpoch : Nat) : Except String ValidatorRegistry :=
  if !previous.isValid crypto || !target.isValid crypto then
    .error "Invalid validator-set projection input."
  else match previous.totalConsensusWeight with
    | none => .error "Validator consensus weight overflow."
    | some total =>
      if total == 0 || effectiveEpoch == 0 then
        .error "Invalid validator-set projection input."
      else
        let budget := churnBudget total
        let selected := (plan previous target effectiveEpoch budget).selected
        match ValidatorRegistry.empty.restoreEntries crypto (selected.entries.map (·.2)) with
        | none => .error "Bounded validator-set projection is invalid."
        | some projected =>
          match projected.totalConsensusWeight with
          | none => .error "Validator consensus weight overflow."
          | some projectedTotal =>
            if projectedTotal == 0 then
              .error "Validator-set projection would remove all voting weight."
            else if budget.toNat
                < changedWeight previous projected (allAddresses previous target) then
              .error "Validator-set projection exceeded the churn budget."
            else .ok projected

end ValidatorSetSchedule

--
-- What makes a registry valid
--

namespace ValidatorRegistry

/-- An entry that a registry may hold under `address`. -/
structure EntryOk (crypto : CryptoContext) (address : String)
    (entry : ValidatorRegistryEntry) : Prop where
  valid : entry.isValid crypto = true
  bound : entry.registrationRecord.validatorAddress = address

/-- The voting weight of a list of entries. -/
def entriesWeight (entries : List (String × ValidatorRegistryEntry)) : Nat :=
  (entries.map fun e => e.2.votingWeight.toNat).sum

theorem isSafeScalar_of_entryOk {crypto : CryptoContext} {address : String}
    {entry : ValidatorRegistryEntry} (h : EntryOk crypto address entry) :
    isSafeScalar address = true := by
  obtain ⟨hvalid, rfl⟩ := h
  simp only [ValidatorRegistryEntry.isValid, ValidatorRegistrationRecord.isValid,
    Bool.and_eq_true] at hvalid
  exact hvalid.1.1.1.1.1.1.1.1.1.1.1

/-- **The audit, in one line.** Every entry is sound and sits under its own address, and
the running total of the weights never leaves 64 bits. -/
theorem auditEntries_iff {crypto : CryptoContext} {total : UInt64}
    {entries : List (String × ValidatorRegistryEntry)} :
    auditEntries crypto total entries = true ↔
      (∀ e ∈ entries, EntryOk crypto e.1 e.2) ∧
        total.toNat + entriesWeight entries ≤ uint64Max.toNat := by
  induction entries generalizing total with
  | nil =>
    have hle := UInt64.le_iff_toNat_le.mp (le_uint64Max total)
    simpa [auditEntries, entriesWeight] using hle
  | cons e rest ih =>
    obtain ⟨address, entry⟩ := e
    by_cases hok : EntryOk crypto address entry
    · have hsafe := isSafeScalar_of_entryOk hok
      obtain ⟨hvalid, hbound⟩ := hok
      rw [auditEntries, if_neg (by simp [hsafe]), if_neg (by simp [hvalid]),
        if_neg (by simp [hbound])]
      by_cases hel : entry.eligibleForConsensus = true
      · have hweight : entry.votingWeight = entry.consensusWeight := by
          simp [ValidatorRegistryEntry.votingWeight, hel]
        rw [if_pos hel]
        by_cases hguard : uint64Max - entry.consensusWeight < total
        · rw [if_pos hguard]
          have hover := not_guard_iff.not.mp (not_not.mpr hguard)
          simp only [Bool.false_eq_true, entriesWeight, List.map_cons, List.sum_cons, hweight,
            false_iff, not_and]
          intro _
          omega
        · rw [if_neg hguard, ih]
          have hguard' : ¬ uint64Max - total < entry.consensusWeight := by
            rw [not_guard_iff] at hguard ⊢
            omega
          rw [toNat_add_of_guard hguard']
          simp only [entriesWeight, List.map_cons, List.sum_cons, hweight, List.forall_mem_cons,
            Nat.add_assoc]
          exact ⟨fun h => ⟨⟨⟨hvalid, hbound⟩, h.1⟩, h.2⟩, fun h => ⟨h.1.2, h.2⟩⟩
      · have hweight : entry.votingWeight = 0 := by
          simp [ValidatorRegistryEntry.votingWeight, hel]
        rw [if_neg hel, ih]
        simp only [entriesWeight, List.map_cons, List.sum_cons, hweight, List.forall_mem_cons,
          UInt64.toNat_zero, Nat.zero_add]
        exact ⟨fun h => ⟨⟨⟨hvalid, hbound⟩, h.1⟩, h.2⟩, fun h => ⟨h.1.2, h.2⟩⟩
    · constructor
      · intro haudit
        rw [auditEntries] at haudit
        obtain ⟨-, haudit⟩ := Guards.true_of_ite_false haudit
        obtain ⟨hvalid, haudit⟩ := Guards.true_of_ite_false haudit
        obtain ⟨hbound, -⟩ := Guards.true_of_ite_false haudit
        exact absurd ⟨by simpa using hvalid, by simpa using hbound⟩ hok
      · rintro ⟨hall, -⟩
        exact absurd (hall _ List.mem_cons_self) hok

theorem isValid_iff {crypto : CryptoContext} {registry : ValidatorRegistry} :
    registry.isValid crypto = true ↔
      (∀ e ∈ registry.entries.entries, EntryOk crypto e.1 e.2) ∧
        entriesWeight registry.entries.entries ≤ uint64Max.toNat := by
  have h := @auditEntries_iff crypto 0 registry.entries.entries
  rw [UInt64.toNat_zero, Nat.zero_add] at h
  exact h

theorem entryOk_of_find? {crypto : CryptoContext} {registry : ValidatorRegistry}
    {address : String} {entry : ValidatorRegistryEntry} (h : registry.isValid crypto = true)
    (hfind : registry.entries.find? address = some entry) : EntryOk crypto address entry :=
  (isValid_iff.mp h).1 (address, entry) (registry.entries.find?_eq_some_iff.mp hfind)

private theorem insertEntry_last {κ ν : Type} [LinearOrder κ] {k : κ} {v : ν} {l : List (κ × ν)}
    (h : ∀ e ∈ l, e.1 < k) : SortedMap.insertEntry k v l = l ++ [(k, v)] := by
  induction l with
  | nil => rfl
  | cons hd rest ih =>
    have hlt := h hd List.mem_cons_self
    rw [SortedMap.insertEntry, if_neg (not_lt.mpr hlt.le), if_neg (ne_of_gt hlt),
      ih (fun e he => h e (List.mem_cons_of_mem _ he)), List.cons_append]

/-- One restored entry beyond the last address. -/
theorem restoreEntry_last {crypto : CryptoContext}
    {done : List (String × ValidatorRegistryEntry)} {address : String}
    {entry : ValidatorRegistryEntry}
    (hdone : done.Pairwise (fun a b => a.1 < b.1))
    (hnew : (done ++ [(address, entry)]).Pairwise (fun a b => a.1 < b.1))
    (hok : ∀ e ∈ done ++ [(address, entry)], EntryOk crypto e.1 e.2) :
    (entriesWeight (done ++ [(address, entry)]) ≤ uint64Max.toNat →
      restoreEntry crypto ⟨⟨done, hdone⟩⟩ entry = some ⟨⟨done ++ [(address, entry)], hnew⟩⟩) ∧
    (uint64Max.toNat < entriesWeight (done ++ [(address, entry)]) →
      restoreEntry crypto ⟨⟨done, hdone⟩⟩ entry = none) := by
  have hentry : EntryOk crypto address entry := hok (address, entry) (by simp)
  have hbefore : ∀ e ∈ done, e.1 < address := fun e he =>
    (List.pairwise_append.mp hnew).2.2 e he _ List.mem_cons_self
  have hinsert : (⟨done, hdone⟩ : SortedMap String ValidatorRegistryEntry).insert address entry
      = ⟨done ++ [(address, entry)], hnew⟩ := by
    simp only [SortedMap.insert, insertEntry_last hbefore]
  have habsent : (⟨done, hdone⟩ : SortedMap String ValidatorRegistryEntry).contains address
      = false := by
    rw [SortedMap.contains, Option.isSome_eq_false_iff, Option.isNone_iff_eq_none,
      SortedMap.find?_eq_none_iff]
    exact fun e he => ne_of_lt (hbefore e he)
  have hrun : restoreEntry crypto ⟨⟨done, hdone⟩⟩ entry =
      if !isValid crypto ⟨⟨done ++ [(address, entry)], hnew⟩⟩ then none
      else some ⟨⟨done ++ [(address, entry)], hnew⟩⟩ := by
    rw [restoreEntry, if_neg (by simp [hentry.valid])]
    simp only [hentry.bound, isSafeScalar_of_entryOk hentry, habsent, hinsert, Bool.not_true,
      Bool.or_self, Bool.false_eq_true, if_false]
  rw [hrun]
  constructor
  · intro hfits
    have hvalid : isValid crypto ⟨⟨done ++ [(address, entry)], hnew⟩⟩ = true :=
      isValid_iff.mpr ⟨hok, hfits⟩
    rw [hvalid]
    rfl
  · intro hover
    have hinvalid : isValid crypto ⟨⟨done ++ [(address, entry)], hnew⟩⟩ = false := by
      rw [← Bool.not_eq_true]
      intro hvalid
      exact absurd (isValid_iff.mp hvalid).2 (Nat.not_le.mpr hover)
    rw [hinvalid]
    rfl

theorem restoreEntries_cons_none {crypto : CryptoContext} {registry : ValidatorRegistry}
    {entry : ValidatorRegistryEntry} {rest : List ValidatorRegistryEntry}
    (h : registry.restoreEntry crypto entry = none) :
    registry.restoreEntries crypto (entry :: rest) = none := by
  rw [restoreEntries, List.foldlM_cons, h, Option.bind_eq_bind, Option.bind_none]

theorem restoreEntries_cons_some {crypto : CryptoContext} {registry restored : ValidatorRegistry}
    {entry : ValidatorRegistryEntry} {rest : List ValidatorRegistryEntry}
    (h : registry.restoreEntry crypto entry = some restored) :
    registry.restoreEntries crypto (entry :: rest) = restored.restoreEntries crypto rest := by
  rw [restoreEntries, List.foldlM_cons, h, Option.bind_eq_bind, Option.bind_some, restoreEntries]

/-- **Restoring a list of entries.** Sound entries in address order build the registry that
holds them, unless their weights leave 64 bits. -/
theorem restoreEntries_append {crypto : CryptoContext}
    {done todo : List (String × ValidatorRegistryEntry)}
    (hsorted : (done ++ todo).Pairwise (fun a b => a.1 < b.1))
    (hdone : done.Pairwise (fun a b => a.1 < b.1))
    (hok : ∀ e ∈ done ++ todo, EntryOk crypto e.1 e.2)
    (hdoneFits : entriesWeight done ≤ uint64Max.toNat) :
    (entriesWeight (done ++ todo) ≤ uint64Max.toNat →
      restoreEntries crypto ⟨⟨done, hdone⟩⟩ (todo.map (·.2)) = some ⟨⟨done ++ todo, hsorted⟩⟩) ∧
    (uint64Max.toNat < entriesWeight (done ++ todo) →
      restoreEntries crypto ⟨⟨done, hdone⟩⟩ (todo.map (·.2)) = none) := by
  induction todo generalizing done with
  | nil =>
    simp only [List.append_nil]
    exact ⟨fun _ => rfl, fun hover => absurd hdoneFits (Nat.not_le.mpr hover)⟩
  | cons e rest ih =>
    obtain ⟨address, entry⟩ := e
    have hsplit : done ++ (address, entry) :: rest = (done ++ [(address, entry)]) ++ rest := by
      simp
    simp only [hsplit] at hsorted hok ⊢
    have hnew := (List.pairwise_append.mp hsorted).1
    obtain ⟨hfit, hover⟩ := restoreEntry_last hdone hnew
      (fun e he => hok e (List.mem_append_left _ he))
    rcases Nat.lt_or_ge uint64Max.toNat (entriesWeight (done ++ [(address, entry)])) with hw | hw
    · have hall : uint64Max.toNat < entriesWeight (done ++ [(address, entry)] ++ rest) := by
        refine Nat.lt_of_lt_of_le hw ?_
        simp only [entriesWeight, List.map_append, List.sum_append]
        exact Nat.le_add_right _ _
      refine ⟨fun hle => absurd hle (Nat.not_le.mpr hall), fun _ => ?_⟩
      exact restoreEntries_cons_none (hover hw)
    · rw [List.map_cons, restoreEntries_cons_some (hfit hw)]
      exact ih hsorted hnew hok hw

theorem restoreEntries_eq {crypto : CryptoContext}
    {selected : SortedMap String ValidatorRegistryEntry}
    (hok : ∀ e ∈ selected.entries, EntryOk crypto e.1 e.2) :
    (entriesWeight selected.entries ≤ uint64Max.toNat →
      empty.restoreEntries crypto (selected.entries.map (·.2)) = some ⟨selected⟩) ∧
    (uint64Max.toNat < entriesWeight selected.entries →
      empty.restoreEntries crypto (selected.entries.map (·.2)) = none) := by
  have h := @restoreEntries_append crypto [] selected.entries selected.sorted List.Pairwise.nil hok
    (Nat.zero_le _)
  exact h

end ValidatorRegistry
--
-- Weights of entries
--

namespace ValidatorSetSchedule

open ValidatorRegistry

/-- The weight an address has among the selected entries. -/
def selectedWeight (selected : SortedMap String ValidatorRegistryEntry) (address : String) : Nat :=
  match selected.find? address with
  | none => 0
  | some entry => entry.votingWeight.toNat

theorem selectedWeight_of_find? {selected : SortedMap String ValidatorRegistryEntry}
    {address : String} {entry : ValidatorRegistryEntry}
    (h : selected.find? address = some entry) :
    selectedWeight selected address = entry.votingWeight.toNat := by
  rw [selectedWeight, h]

theorem selectedWeight_of_find?_none {selected : SortedMap String ValidatorRegistryEntry}
    {address : String} (h : selected.find? address = none) :
    selectedWeight selected address = 0 := by
  rw [selectedWeight, h]

theorem weightOf_eq_selectedWeight (registry : ValidatorRegistry) (address : String) :
    registry.weightOf address = selectedWeight registry.entries address := by
  rw [weightOf, consensusWeightFor, selectedWeight]
  cases registry.entries.find? address with
  | none => rfl
  | some entry => rfl

theorem weightOf_of_find? {registry : ValidatorRegistry} {address : String}
    {entry : ValidatorRegistryEntry} (h : registry.entries.find? address = some entry) :
    registry.weightOf address = entry.votingWeight.toNat := by
  rw [weightOf_eq_selectedWeight, selectedWeight_of_find? h]

theorem weightOf_of_find?_none {registry : ValidatorRegistry} {address : String}
    (h : registry.entries.find? address = none) : registry.weightOf address = 0 := by
  rw [weightOf_eq_selectedWeight, selectedWeight_of_find?_none h]

/-- An address with weight has an active entry at the minimum stake or above, and its weight
is its stake. -/
theorem entry_of_weightOf_pos {registry : ValidatorRegistry} {address : String}
    (h : 0 < registry.weightOf address) :
    ∃ entry, registry.entries.find? address = some entry ∧ entry.status = .active ∧
      minValidatorStakeRawUnits.toNat ≤ entry.stakeAmount.toNat ∧
      registry.weightOf address = entry.stakeAmount.toNat := by
  cases hfind : registry.entries.find? address with
  | none =>
    rw [weightOf_of_find?_none hfind] at h
    exact absurd h (Nat.lt_irrefl _)
  | some entry =>
    have hweight := weightOf_of_find? hfind
    rw [ValidatorRegistryEntry.votingWeight] at hweight
    split_ifs at hweight with hel
    · simp only [ValidatorRegistryEntry.eligibleForConsensus, Bool.and_eq_true, beq_iff_eq,
        decide_eq_true_eq] at hel
      exact ⟨entry, rfl, hel.1.1, UInt64.le_iff_toNat_le.mp hel.1.2, hweight⟩
    · rw [hweight] at h
      exact absurd h (Nat.lt_irrefl _)

/-- The weight of a validator moved to a stake at the minimum or above. -/
theorem votingWeight_withStake {entry : ValidatorRegistryEntry} {stake : UInt64}
    (hstatus : entry.status = .active)
    (hmin : minValidatorStakeRawUnits.toNat ≤ stake.toNat) :
    (withStake entry stake).votingWeight = stake := by
  have hpos : (0 : UInt64) < stake := by
    rw [UInt64.lt_iff_toNat_lt]
    exact Nat.lt_of_lt_of_le (by decide) hmin
  have hel : (withStake entry stake).eligibleForConsensus = true := by
    simp only [ValidatorRegistryEntry.eligibleForConsensus, withStake, hstatus, Bool.and_eq_true,
      decide_eq_true_eq]
    exact ⟨⟨rfl, UInt64.le_iff_toNat_le.mpr hmin⟩, hpos⟩
  rw [ValidatorRegistryEntry.votingWeight, if_pos hel]
  rfl

theorem entryOk_withStake {crypto : CryptoContext} {address : String}
    {entry : ValidatorRegistryEntry} {stake : UInt64} (h : EntryOk crypto address entry)
    (hle : stake.toNat ≤ entry.stakeAmount.toNat) :
    EntryOk crypto address (withStake entry stake) := by
  obtain ⟨hvalid, hbound⟩ := h
  refine ⟨?_, hbound⟩
  simp only [ValidatorRegistryEntry.isValid, Bool.and_eq_true, decide_eq_true_eq] at hvalid ⊢
  exact ⟨hvalid.1, UInt64.le_iff_toNat_le.mpr
    (hle.trans (UInt64.le_iff_toNat_le.mp hvalid.2))⟩

theorem emplace_of_absent {plan : Plan} {address : String} {entry : ValidatorRegistryEntry}
    (h : plan.selected.find? address = none) :
    plan.emplace address entry = plan.selected.insert address entry := by
  rw [Plan.emplace, if_neg]
  rw [SortedMap.contains, h]
  simp

--
-- One step of the first pass
--

variable {crypto : CryptoContext} {previous target : ValidatorRegistry} {effectiveEpoch : Nat}

/-- An entry the first pass keeps for an address whose weight falls. -/
structure Reduced (crypto : CryptoContext) (previous target : ValidatorRegistry)
    (address : String) (entry : ValidatorRegistryEntry) : Prop where
  ok : EntryOk crypto address entry
  falls : target.weightOf address < previous.weightOf address
  lower : target.weightOf address ≤ entry.votingWeight.toNat
  upper : entry.votingWeight.toNat ≤ previous.weightOf address
  owner : target.entries.find? address = none →
    ∃ old, previous.entries.find? address = some old ∧ entry.ownerAddress = old.ownerAddress

/-- **The first pass at one address.** It passes over an address whose weight does not fall;
else it keeps an entry and spends what that entry lost, or drops the address at the
price of its whole weight. -/
theorem reduceStep_cases (effectiveEpoch : Nat) {plan : Plan} {address : String}
    (hprevious : previous.isValid crypto = true) (htarget : target.isValid crypto = true)
    (habsent : plan.selected.find? address = none) :
    (¬ target.weightOf address < previous.weightOf address ∧
      reduceStep previous target effectiveEpoch plan address = plan) ∨
    (∃ entry, Reduced crypto previous target address entry ∧
      (reduceStep previous target effectiveEpoch plan address).selected
        = plan.selected.insert address entry ∧
      (reduceStep previous target effectiveEpoch plan address).remaining.toNat
        + (previous.weightOf address - entry.votingWeight.toNat) = plan.remaining.toNat) ∨
    (target.weightOf address < previous.weightOf address ∧ target.weightOf address = 0 ∧
      (reduceStep previous target effectiveEpoch plan address).selected = plan.selected ∧
      (reduceStep previous target effectiveEpoch plan address).remaining.toNat
        + previous.weightOf address = plan.remaining.toNat) := by
  by_cases hfalls : target.weightOf address < previous.weightOf address
  swap
  · refine Or.inl ⟨hfalls, ?_⟩
    rw [reduceStep, if_pos]
    simp only [Bool.or_eq_true, decide_eq_true_eq]
    exact Or.inr (UInt64.le_iff_toNat_le.mpr (Nat.not_lt.mp hfalls))
  obtain ⟨old, hold, hstatus, hmin, hweight⟩ :=
    entry_of_weightOf_pos (Nat.lt_of_le_of_lt (Nat.zero_le _) hfalls)
  have hok := entryOk_of_find? hprevious hold
  have hvoting := weightOf_of_find? hold
  have howner : ∃ old', previous.entries.find? address = some old' ∧
      old.ownerAddress = old'.ownerAddress := ⟨old, hold, rfl⟩
  have hguard : ¬ (previous.consensusWeightFor address == 0
      || decide (previous.consensusWeightFor address ≤ target.consensusWeightFor address)) = true := by
    simp only [Bool.or_eq_true, beq_iff_eq, decide_eq_true_eq, not_or, UInt64.le_iff_toNat_le]
    refine ⟨fun hzero => ?_, Nat.not_le.mpr hfalls⟩
    rw [weightOf, weightOf, hzero] at hfalls
    exact absurd hfalls (Nat.not_lt_zero _)
  have hle : target.consensusWeightFor address ≤ previous.consensusWeightFor address :=
    UInt64.le_iff_toNat_le.mpr hfalls.le
  have hdiff : (previous.consensusWeightFor address - target.consensusWeightFor address).toNat
      = previous.weightOf address - target.weightOf address := UInt64.toNat_sub_of_le _ _ hle
  simp only [reduceStep, hold, emplace_of_absent habsent]
  rw [if_neg hguard]
  by_cases himmature : ((target.entries.find? address).isNone
      && replacementIsImmature previous target effectiveEpoch old.ownerAddress) = true
  · -- The replacement cannot vote yet, so the old key stays as it is.
    rw [if_pos himmature]
    refine Or.inr (Or.inl ⟨old, ⟨hok, hfalls, ?_, ?_, fun _ => howner⟩, rfl, ?_⟩)
    · rw [← hvoting]
      exact hfalls.le
    · rw [hvoting]
    · rw [hvoting, Nat.sub_self, Nat.add_zero]
  rw [if_neg himmature]
  by_cases hreach : previous.consensusWeightFor address - target.consensusWeightFor address
      ≤ plan.remaining
  · -- The whole reduction fits.
    rw [if_pos hreach]
    have hrest : (plan.remaining
          - (previous.consensusWeightFor address - target.consensusWeightFor address)).toNat
        + (previous.weightOf address - target.weightOf address) = plan.remaining.toNat := by
      rw [UInt64.toNat_sub_of_le _ _ hreach, hdiff]
      exact Nat.sub_add_cancel (hdiff ▸ UInt64.le_iff_toNat_le.mp hreach)
    cases hnext : target.entries.find? address with
    | none =>
      have hzero := weightOf_of_find?_none hnext
      rw [hzero, Nat.sub_zero] at hrest
      exact Or.inr (Or.inr ⟨hfalls, hzero, rfl, hrest⟩)
    | some next =>
      have hnextWeight := weightOf_of_find? hnext
      by_cases hzero : target.consensusWeightFor address = 0
      · have hzero' : target.weightOf address = 0 := by rw [weightOf, hzero]; rfl
        rw [hzero', Nat.sub_zero] at hrest
        refine Or.inr (Or.inr ⟨hfalls, hzero', ?_, hrest⟩)
        simp [hzero]
      · refine Or.inr (Or.inl ⟨next, ⟨entryOk_of_find? htarget hnext, hfalls, ?_, ?_, ?_⟩, ?_, ?_⟩)
        · rw [hnextWeight]
        · rw [← hnextWeight]
          exact hfalls.le
        · intro hnone
          rw [hnext] at hnone
          cases hnone
        · simp [hzero]
        · rw [← hnextWeight]
          exact hrest
  · -- Only a part of the reduction fits.
    rw [if_neg hreach]
    have hshort : plan.remaining.toNat < previous.weightOf address - target.weightOf address := by
      rw [← hdiff]
      exact Nat.not_le.mp (fun h => hreach (UInt64.le_iff_toNat_le.mpr h))
    have hpart : (previous.consensusWeightFor address - plan.remaining).toNat
        = previous.weightOf address - plan.remaining.toNat := by
      refine UInt64.toNat_sub_of_le _ _ (UInt64.le_iff_toNat_le.mpr ?_)
      show plan.remaining.toNat ≤ previous.weightOf address
      omega
    obtain ⟨projected, hdef⟩ : ∃ projected,
        projected = max minValidatorStakeRawUnits
          (previous.consensusWeightFor address - plan.remaining) := ⟨_, rfl⟩
    have hprojected : projected.toNat = max minValidatorStakeRawUnits.toNat
        (previous.weightOf address - plan.remaining.toNat) := by
      rw [hdef, ← hpart]
      exact UInt64.toNat_max _ _
    rw [← hdef]
    have hbelow : projected.toNat ≤ previous.weightOf address := by omega
    have hnew : (withStake old projected).votingWeight = projected :=
      votingWeight_withStake hstatus (by omega)
    refine Or.inr (Or.inl ⟨withStake old projected,
      ⟨entryOk_withStake hok (by omega), hfalls, ?_, ?_, fun _ => howner⟩, rfl, ?_⟩)
    · rw [hnew]
      omega
    · rw [hnew]
      exact hbelow
    · have hspent : (previous.consensusWeightFor address - projected).toNat
          = previous.weightOf address - projected.toNat :=
        UInt64.toNat_sub_of_le _ _ (UInt64.le_iff_toNat_le.mpr hbelow)
      have hfits : previous.consensusWeightFor address - projected ≤ plan.remaining := by
        rw [UInt64.le_iff_toNat_le, hspent]
        omega
      rw [hnew, UInt64.toNat_sub_of_le _ _ hfits, hspent]
      rw [UInt64.le_iff_toNat_le, hspent] at hfits
      omega

--
-- The first pass
--

/-- The weight that `address` loses in the first pass. -/
def fall (previous target : ValidatorRegistry)
    (selected : SortedMap String ValidatorRegistryEntry) (address : String) : Nat :=
  if target.weightOf address < previous.weightOf address then
    previous.weightOf address - selectedWeight selected address
  else 0

/-- What the first pass keeps after the addresses `done`. -/
structure ReduceInv (crypto : CryptoContext) (previous target : ValidatorRegistry)
    (budget : UInt64) (done : List String) (plan : Plan) : Prop where
  chosen : ∀ {address entry}, plan.selected.find? address = some entry →
    address ∈ done ∧ Reduced crypto previous target address entry
  dropped : ∀ address ∈ done, target.weightOf address < previous.weightOf address →
    plan.selected.find? address = none → target.weightOf address = 0
  spent : (done.map (fall previous target plan.selected)).sum + plan.remaining.toNat
    = budget.toNat

theorem selectedWeight_insert_of_ne {selected : SortedMap String ValidatorRegistryEntry}
    {address address' : String} (entry : ValidatorRegistryEntry) (h : address ≠ address') :
    selectedWeight (selected.insert address entry) address' = selectedWeight selected address' := by
  rw [selectedWeight, selectedWeight, SortedMap.find?_insert_of_ne _ _ h]

/-- Entries at new addresses do not change what the old addresses lost. -/
theorem map_fall_insert {selected : SortedMap String ValidatorRegistryEntry} {address : String}
    (entry : ValidatorRegistryEntry) {done : List String} (h : address ∉ done) :
    done.map (fall previous target (selected.insert address entry))
      = done.map (fall previous target selected) := by
  refine List.map_congr_left (fun address' hmem => ?_)
  have hne : address ≠ address' := fun heq => h (heq ▸ hmem)
  rw [fall, fall, selectedWeight_insert_of_ne entry hne]

theorem reduceInv_step {budget : UInt64} {done : List String} {plan : Plan} {address : String}
    (hprevious : previous.isValid crypto = true) (htarget : target.isValid crypto = true)
    (hfresh : address ∉ done) (h : ReduceInv crypto previous target budget done plan) :
    ReduceInv crypto previous target budget (done ++ [address])
      (reduceStep previous target effectiveEpoch plan address) := by
  have habsent : plan.selected.find? address = none := by
    cases hfind : plan.selected.find? address with
    | none => rfl
    | some entry => exact absurd (h.chosen hfind).1 hfresh
  have hspent := h.spent
  rcases reduceStep_cases effectiveEpoch hprevious htarget habsent with
    ⟨hsteady, hplan⟩ | ⟨entry, hreduced, hselected, hremaining⟩ |
      ⟨hfalls, hzero, hselected, hremaining⟩
  · rw [hplan]
    refine ⟨fun hfind => ?_, fun other hmem hless hnone => ?_, ?_⟩
    · exact ⟨List.mem_append_left _ (h.chosen hfind).1, (h.chosen hfind).2⟩
    · rcases List.mem_append.mp hmem with hmem | hmem
      · exact h.dropped other hmem hless hnone
      · rw [List.mem_singleton.mp hmem] at hless
        exact absurd hless hsteady
    · rw [List.map_append, List.sum_append, List.map_singleton, List.sum_singleton, fall,
        if_neg hsteady, Nat.add_zero]
      exact hspent
  · refine ⟨fun hfind => ?_, fun other hmem hless hnone => ?_, ?_⟩
    · rw [hselected, SortedMap.find?_insert] at hfind
      split_ifs at hfind with heq
      · subst heq
        cases hfind
        exact ⟨List.mem_append_right _ List.mem_cons_self, hreduced⟩
      · exact ⟨List.mem_append_left _ (h.chosen hfind).1, (h.chosen hfind).2⟩
    · rw [hselected, SortedMap.find?_insert] at hnone
      split_ifs at hnone with heq
      rcases List.mem_append.mp hmem with hmem | hmem
      · exact h.dropped other hmem hless hnone
      · exact absurd (List.mem_singleton.mp hmem).symm heq
    · rw [hselected, List.map_append, List.sum_append, List.map_singleton, List.sum_singleton,
        map_fall_insert entry hfresh, fall, if_pos hreduced.falls,
        selectedWeight_of_find? (SortedMap.find?_insert_self _ _ _)]
      omega
  · refine ⟨fun hfind => ?_, fun other hmem hless hnone => ?_, ?_⟩
    · rw [hselected] at hfind
      exact ⟨List.mem_append_left _ (h.chosen hfind).1, (h.chosen hfind).2⟩
    · rw [hselected] at hnone
      rcases List.mem_append.mp hmem with hmem | hmem
      · exact h.dropped other hmem hless hnone
      · rw [List.mem_singleton.mp hmem]
        exact hzero
    · rw [hselected, List.map_append, List.sum_append, List.map_singleton, List.sum_singleton,
        fall, if_pos hfalls, selectedWeight_of_find?_none habsent]
      omega

/-- **The first pass**, by induction over the addresses. -/
theorem reduce_invariant (effectiveEpoch : Nat) (budget : UInt64) {addresses : List String}
    (hprevious : previous.isValid crypto = true) (htarget : target.isValid crypto = true)
    (hnodup : addresses.Nodup) :
    ReduceInv crypto previous target budget addresses
      (reducePass previous target effectiveEpoch budget addresses) := by
  have hrun : ∀ (todo done : List String) (plan : Plan), (done ++ todo).Nodup →
      ReduceInv crypto previous target budget done plan →
      ReduceInv crypto previous target budget (done ++ todo)
        (todo.foldl (reduceStep previous target effectiveEpoch) plan) := by
    intro todo
    induction todo with
    | nil =>
      intro done plan _ h
      simpa using h
    | cons address rest ih =>
      intro done plan hnodup h
      have hfresh : address ∉ done := fun hmem =>
        (List.nodup_append.mp hnodup).2.2 address hmem address List.mem_cons_self rfl
      have hsplit : done ++ address :: rest = (done ++ [address]) ++ rest := by simp
      rw [hsplit] at hnodup ⊢
      exact ih _ _ hnodup (reduceInv_step hprevious htarget hfresh h)
  refine hrun addresses [] _ hnodup ⟨fun hfind => ?_, fun _ hmem => ?_, ?_⟩
  · cases hfind
  · cases hmem
  · simp

--
-- One step of the second pass
--

/-- An entry the second pass admits for an address whose weight does not fall, given the
entries `selected` before. A key that the previous set does not know is mature, and no key of
its owner votes on beside it. -/
structure Grown (crypto : CryptoContext) (previous target : ValidatorRegistry)
    (effectiveEpoch : Nat) (selected : SortedMap String ValidatorRegistryEntry)
    (address : String) (entry : ValidatorRegistryEntry) : Prop where
  ok : EntryOk crypto address entry
  steady : ¬ target.weightOf address < previous.weightOf address
  lower : previous.weightOf address ≤ entry.votingWeight.toNat
  upper : entry.votingWeight.toNat ≤ target.weightOf address
  fresh : previous.entries.find? address = none →
    ∃ next, target.entries.find? address = some next ∧
      next.registrationRecord.activationEpoch ≤ effectiveEpoch ∧
      entry.ownerAddress = next.ownerAddress ∧
      oldKeyStillLive target selected next.ownerAddress = false

/-- **The second pass at one address.** It leaves the plan as it is where the address is
settled or has no weight yet; else it admits an entry and spends what the entry gained. -/
theorem growStep_cases (effectiveEpoch : Nat) (plan : Plan) (address : String)
    (hprevious : previous.isValid crypto = true) (htarget : target.isValid crypto = true) :
    (growStep previous target effectiveEpoch plan address = plan ∧
      ((∃ entry, plan.selected.find? address = some entry) ∨
        target.weightOf address < previous.weightOf address ∨ previous.weightOf address = 0)) ∨
    (∃ entry, plan.selected.find? address = none ∧
      Grown crypto previous target effectiveEpoch plan.selected address entry ∧
      (growStep previous target effectiveEpoch plan address).selected
        = plan.selected.insert address entry ∧
      (growStep previous target effectiveEpoch plan address).remaining.toNat
        + (entry.votingWeight.toNat - previous.weightOf address) = plan.remaining.toNat) := by
  rw [growStep]
  by_cases hcontains : plan.selected.contains address = true
  · rw [if_pos hcontains]
    exact Or.inl ⟨rfl, Or.inl (plan.selected.contains_iff.mp hcontains)⟩
  have habsent : plan.selected.find? address = none := by
    rw [SortedMap.contains, Option.not_isSome_iff_eq_none] at hcontains
    exact hcontains
  simp only [emplace_of_absent habsent]
  rw [if_neg hcontains]
  by_cases hfalls : target.weightOf address < previous.weightOf address
  · rw [if_pos (UInt64.lt_iff_toNat_lt.mpr hfalls)]
    exact Or.inl ⟨rfl, Or.inr (Or.inl hfalls)⟩
  rw [if_neg (fun h => hfalls (UInt64.lt_iff_toNat_lt.mp h))]
  have hle : previous.consensusWeightFor address ≤ target.consensusWeightFor address :=
    UInt64.le_iff_toNat_le.mpr (Nat.not_lt.mp hfalls)
  have hdiff : (target.consensusWeightFor address - previous.consensusWeightFor address).toNat
      = target.weightOf address - previous.weightOf address := UInt64.toNat_sub_of_le _ _ hle
  cases hnext : target.entries.find? address with
  | none =>
    have hzero := weightOf_of_find?_none hnext
    exact Or.inl ⟨rfl, Or.inr (Or.inr (by omega))⟩
  | some next =>
    have hnextWeight := weightOf_of_find? hnext
    have hnextOk := entryOk_of_find? htarget hnext
    simp only
    by_cases hzero : target.weightOf address = 0
    · have hcode : (target.consensusWeightFor address == 0) = true :=
        beq_iff_eq.mpr (UInt64.toNat_inj.mp hzero)
      rw [if_pos hcode]
      exact Or.inl ⟨rfl, Or.inr (Or.inr (by omega))⟩
    have hcode : ¬ (target.consensusWeightFor address == 0) = true := by
      rw [beq_iff_eq]
      intro heq
      exact hzero (by rw [weightOf, heq]; rfl)
    rw [if_neg hcode]
    have hnoweight : (previous.entries.find? address).isNone = true →
        previous.weightOf address = 0 := fun hnone =>
      weightOf_of_find?_none (Option.isNone_iff_eq_none.mp hnone)
    by_cases himmature : ((previous.entries.find? address).isNone
        && decide (effectiveEpoch < next.registrationRecord.activationEpoch)) = true
    · rw [if_pos himmature]
      exact Or.inl ⟨rfl, Or.inr (Or.inr (hnoweight (Bool.and_eq_true_iff.mp himmature).1))⟩
    rw [if_neg himmature]
    by_cases hlive : ((previous.entries.find? address).isNone
        && oldKeyStillLive target plan.selected next.ownerAddress) = true
    · rw [if_pos hlive]
      exact Or.inl ⟨rfl, Or.inr (Or.inr (hnoweight (Bool.and_eq_true_iff.mp hlive).1))⟩
    rw [if_neg hlive]
    have hfresh : ∀ {entry : ValidatorRegistryEntry}, entry.ownerAddress = next.ownerAddress →
        previous.entries.find? address = none →
        ∃ next, target.entries.find? address = some next ∧
          next.registrationRecord.activationEpoch ≤ effectiveEpoch ∧
          entry.ownerAddress = next.ownerAddress ∧
          oldKeyStillLive target plan.selected next.ownerAddress = false := by
      intro entry howner hnone
      rw [hnone, Option.isNone_none, Bool.true_and] at himmature hlive
      exact ⟨next, hnext, by simpa using himmature, howner, by simpa using hlive⟩
    by_cases hreach : target.consensusWeightFor address - previous.consensusWeightFor address
        ≤ plan.remaining
    · -- The whole increase fits.
      rw [if_pos hreach]
      refine Or.inr ⟨next, habsent, ⟨hnextOk, hfalls, ?_, ?_, hfresh rfl⟩, rfl, ?_⟩
      · omega
      · omega
      · rw [← hnextWeight, UInt64.toNat_sub_of_le _ _ hreach, hdiff]
        exact Nat.sub_add_cancel (hdiff ▸ UInt64.le_iff_toNat_le.mp hreach)
    rw [if_neg hreach]
    have hshort : plan.remaining.toNat < target.weightOf address - previous.weightOf address := by
      rw [← hdiff]
      exact Nat.not_le.mp (fun h => hreach (UInt64.le_iff_toNat_le.mpr h))
    obtain ⟨next', hnext', hstatus, hmin, hstake⟩ :=
      entry_of_weightOf_pos (Nat.pos_of_ne_zero hzero)
    obtain rfl : next = next' := Option.some.inj (hnext.symm.trans hnext')
    have hsum : (previous.consensusWeightFor address + plan.remaining).toNat
        = previous.weightOf address + plan.remaining.toNat := by
      have hlt := (target.consensusWeightFor address).toNat_lt
      rw [UInt64.toNat_add]
      refine Nat.mod_eq_of_lt ?_
      show previous.weightOf address + plan.remaining.toNat < 2 ^ 64
      have : target.weightOf address < 2 ^ 64 := hlt
      omega
    by_cases hentry : minValidatorStakeRawUnits
        ≤ previous.consensusWeightFor address + plan.remaining
    · -- A part of the increase fits, and it reaches the minimum stake.
      rw [if_pos hentry]
      have hnew := votingWeight_withStake hstatus (UInt64.le_iff_toNat_le.mp hentry)
      refine Or.inr ⟨withStake next (previous.consensusWeightFor address + plan.remaining), habsent,
        ⟨entryOk_withStake hnextOk (by omega), hfalls, ?_, ?_, hfresh rfl⟩, rfl, ?_⟩
      · rw [hnew]
        omega
      · rw [hnew]
        omega
      · rw [hnew, hsum, UInt64.toNat_zero]
        omega
    rw [if_neg hentry]
    -- Nothing useful fits: a known validator keeps its entry, which has no weight.
    have hbelow : previous.weightOf address = 0 := by
      by_contra hpos
      obtain ⟨old, -, -, holdMin, hold⟩ := entry_of_weightOf_pos (Nat.pos_of_ne_zero hpos)
      rw [UInt64.le_iff_toNat_le, hsum] at hentry
      omega
    cases hold : previous.entries.find? address with
    | none => exact Or.inl ⟨rfl, Or.inr (Or.inr hbelow)⟩
    | some old =>
      have holdWeight := weightOf_of_find? hold
      refine Or.inr ⟨old, habsent, ⟨entryOk_of_find? hprevious hold, hfalls, ?_, ?_, ?_⟩, rfl, ?_⟩
      · omega
      · omega
      · intro hnone
        rw [hold] at hnone
        cases hnone
      · show plan.remaining.toNat + _ = _
        omega

--
-- The second pass
--

/-- The weight that `address` gains in the second pass. -/
def rise (previous target : ValidatorRegistry)
    (selected : SortedMap String ValidatorRegistryEntry) (address : String) : Nat :=
  if target.weightOf address < previous.weightOf address then 0
  else selectedWeight selected address - previous.weightOf address

/-- What the second pass keeps after the addresses `done`, from the plan `base` of the first. -/
structure GrowInv (crypto : CryptoContext) (previous target : ValidatorRegistry)
    (effectiveEpoch : Nat) (base : Plan) (done : List String) (plan : Plan) : Prop where
  kept : ∀ {address entry}, base.selected.find? address = some entry →
    plan.selected.find? address = some entry
  chosen : ∀ {address entry}, plan.selected.find? address = some entry →
    base.selected.find? address = some entry ∨
      (address ∈ done ∧ Grown crypto previous target effectiveEpoch base.selected address entry)
  skipped : ∀ address ∈ done, ¬ target.weightOf address < previous.weightOf address →
    plan.selected.find? address = none → previous.weightOf address = 0
  spent : (done.map (rise previous target plan.selected)).sum + plan.remaining.toNat
    = base.remaining.toNat

theorem map_rise_insert {selected : SortedMap String ValidatorRegistryEntry} {address : String}
    (entry : ValidatorRegistryEntry) {done : List String} (h : address ∉ done) :
    done.map (rise previous target (selected.insert address entry))
      = done.map (rise previous target selected) := by
  refine List.map_congr_left (fun address' hmem => ?_)
  have hne : address ≠ address' := fun heq => h (heq ▸ hmem)
  rw [rise, rise, selectedWeight_insert_of_ne entry hne]

/-- A key that waits for no entry of a larger selection waits for none of a smaller one. -/
theorem oldKeyStillLive_mono {small large : SortedMap String ValidatorRegistryEntry}
    {ownerAddress : String}
    (hsub : ∀ {address entry}, small.find? address = some entry →
      large.find? address = some entry)
    (h : oldKeyStillLive target large ownerAddress = false) :
    oldKeyStillLive target small ownerAddress = false := by
  rw [oldKeyStillLive, List.any_eq_false] at h ⊢
  rintro ⟨address, entry⟩ hmem
  exact h (address, entry)
    (large.find?_eq_some_iff.mp (hsub (small.find?_eq_some_iff.mpr hmem)))

theorem growInv_step {base plan : Plan} {done : List String} {address : String}
    (hprevious : previous.isValid crypto = true) (htarget : target.isValid crypto = true)
    (hbase : ∀ {address entry}, base.selected.find? address = some entry →
      Reduced crypto previous target address entry)
    (hfresh : address ∉ done)
    (h : GrowInv crypto previous target effectiveEpoch base done plan) :
    GrowInv crypto previous target effectiveEpoch base (done ++ [address])
      (growStep previous target effectiveEpoch plan address) := by
  have hspent := h.spent
  rcases growStep_cases effectiveEpoch plan address hprevious htarget with ⟨hplan, hwhy⟩ | ⟨entry, habsent, hgrown, hselected, hremaining⟩
  · rw [hplan]
    refine ⟨h.kept, fun hfind => ?_, fun other hmem hsteady hnone => ?_, ?_⟩
    · rcases h.chosen hfind with hbase | ⟨hmem, hgrown⟩
      · exact Or.inl hbase
      · exact Or.inr ⟨List.mem_append_left _ hmem, hgrown⟩
    · rcases List.mem_append.mp hmem with hmem | hmem
      · exact h.skipped other hmem hsteady hnone
      · rw [List.mem_singleton.mp hmem] at hsteady hnone ⊢
        rcases hwhy with ⟨entry, hsome⟩ | hfalls | hzero
        · rw [hnone] at hsome
          cases hsome
        · exact absurd hfalls hsteady
        · exact hzero
    · have hnothing : rise previous target plan.selected address = 0 := by
        rw [rise]
        split_ifs with hfalls
        · rfl
        · cases hfind : plan.selected.find? address with
          | none => rw [selectedWeight_of_find?_none hfind, Nat.zero_sub]
          | some entry =>
            -- An entry already there comes from the first pass, where weights fall.
            rcases h.chosen hfind with hold | ⟨hmem, -⟩
            · exact absurd (hbase hold).falls hfalls
            · exact absurd hmem hfresh
      rw [List.map_append, List.sum_append, List.map_singleton, List.sum_singleton, hnothing,
        Nat.add_zero]
      exact hspent
  · refine ⟨fun {other old} hfind => ?_, fun {other old} hfind => ?_,
      fun other hmem hsteady hnone => ?_, ?_⟩
    · have hne : address ≠ other := by
        rintro rfl
        rw [h.kept hfind] at habsent
        cases habsent
      rw [hselected, SortedMap.find?_insert_of_ne _ _ hne]
      exact h.kept hfind
    · rw [hselected, SortedMap.find?_insert] at hfind
      split_ifs at hfind with heq
      · subst heq
        cases hfind
        refine Or.inr ⟨List.mem_append_right _ List.mem_cons_self, hgrown.ok, hgrown.steady,
          hgrown.lower, hgrown.upper, fun hnone => ?_⟩
        obtain ⟨next, hnext, hmature, howner, hlive⟩ := hgrown.fresh hnone
        exact ⟨next, hnext, hmature, howner, oldKeyStillLive_mono h.kept hlive⟩
      · rcases h.chosen hfind with hbase | ⟨hmem, hgrown⟩
        · exact Or.inl hbase
        · exact Or.inr ⟨List.mem_append_left _ hmem, hgrown⟩
    · rw [hselected, SortedMap.find?_insert] at hnone
      split_ifs at hnone with heq
      rcases List.mem_append.mp hmem with hmem | hmem
      · exact h.skipped other hmem hsteady hnone
      · exact absurd (List.mem_singleton.mp hmem).symm heq
    · rw [hselected, List.map_append, List.sum_append, List.map_singleton, List.sum_singleton,
        map_rise_insert entry hfresh, rise, if_neg hgrown.steady,
        selectedWeight_of_find? (SortedMap.find?_insert_self _ _ _)]
      omega

/-- **The second pass**, by induction over the addresses. -/
theorem grow_invariant (effectiveEpoch : Nat) {base : Plan} {addresses : List String}
    (hprevious : previous.isValid crypto = true) (htarget : target.isValid crypto = true)
    (hbase : ∀ {address entry}, base.selected.find? address = some entry →
      Reduced crypto previous target address entry)
    (hnodup : addresses.Nodup) :
    GrowInv crypto previous target effectiveEpoch base addresses
      (addresses.foldl (growStep previous target effectiveEpoch) base) := by
  have hrun : ∀ (todo done : List String) (plan : Plan), (done ++ todo).Nodup →
      GrowInv crypto previous target effectiveEpoch base done plan →
      GrowInv crypto previous target effectiveEpoch base (done ++ todo)
        (todo.foldl (growStep previous target effectiveEpoch) plan) := by
    intro todo
    induction todo with
    | nil =>
      intro done plan _ h
      simpa using h
    | cons address rest ih =>
      intro done plan hnodup h
      have hfresh : address ∉ done := fun hmem =>
        (List.nodup_append.mp hnodup).2.2 address hmem address List.mem_cons_self rfl
      have hsplit : done ++ address :: rest = (done ++ [address]) ++ rest := by simp
      rw [hsplit] at hnodup ⊢
      exact ih _ _ hnodup (growInv_step hprevious htarget hbase hfresh h)
  refine hrun addresses [] base hnodup ⟨id, fun hfind => Or.inl hfind, fun _ hmem => ?_, ?_⟩
  · cases hmem
  · simp

--
-- The plan
--

theorem mem_allAddresses {address : String} :
    address ∈ allAddresses previous target ↔
      address ∈ previous.entries.keys ∨ address ∈ target.entries.keys := by
  have hfold : ∀ (addresses : List String) (set : SortedMap String Unit),
      address ∈ (addresses.foldl (fun set address => set.insert address ()) set).keys ↔
        address ∈ set.keys ∨ address ∈ addresses := by
    intro addresses
    induction addresses with
    | nil => intro set; simp
    | cons first rest ih =>
      intro set
      have hinsert : address ∈ (set.insert first ()).keys ↔ first = address ∨ address ∈ set.keys := by
        simp only [SortedMap.mem_keys_iff, ← SortedMap.find?_eq_some_iff]
        rw [← SortedMap.contains_iff, ← SortedMap.contains_iff, SortedMap.contains_insert]
      rw [List.foldl_cons, ih, hinsert, List.mem_cons]
      constructor
      · rintro ((rfl | hset) | hrest)
        · exact Or.inr (Or.inl rfl)
        · exact Or.inl hset
        · exact Or.inr (Or.inr hrest)
      · rintro (hset | rfl | hrest)
        · exact Or.inl (Or.inr hset)
        · exact Or.inl (Or.inl rfl)
        · exact Or.inr hrest
  rw [allAddresses, hfold, List.mem_append]
  simp [SortedMap.keys, SortedMap.empty, validatorAddresses]

theorem allAddresses_nodup (previous target : ValidatorRegistry) :
    (allAddresses previous target).Nodup := SortedMap.keys_nodup _

/-- What both passes select. -/
structure PlanSpec (crypto : CryptoContext) (previous target : ValidatorRegistry)
    (effectiveEpoch : Nat) (budget : UInt64)
    (selected : SortedMap String ValidatorRegistryEntry) : Prop where
  ok : ∀ e ∈ selected.entries, EntryOk crypto e.1 e.2
  known : ∀ {address entry}, selected.find? address = some entry →
    address ∈ allAddresses previous target
  between : ∀ address,
    min (previous.weightOf address) (target.weightOf address) ≤ selectedWeight selected address ∧
      selectedWeight selected address
        ≤ max (previous.weightOf address) (target.weightOf address)
  churn : ((allAddresses previous target).map fun address =>
      Nat.dist (previous.weightOf address) (selectedWeight selected address)).sum ≤ budget.toNat
  mature : ∀ {address entry}, selected.find? address = some entry →
    previous.entries.find? address = none →
    ∃ next, target.entries.find? address = some next ∧
      next.registrationRecord.activationEpoch ≤ effectiveEpoch
  single : ∀ {old new oldEntry selectedEntry newEntry},
    previous.entries.find? old = some oldEntry → target.entries.find? old = none →
    selected.find? old = some selectedEntry → selectedEntry.eligibleForConsensus = true →
    previous.entries.find? new = none → selected.find? new = some newEntry →
    newEntry.ownerAddress ≠ oldEntry.ownerAddress

/-- A selected weight is the weight lost in the first pass or gained in the second. -/
theorem dist_eq_fall_add_rise {base final : Plan} {addresses : List String} {address : String}
    (hreduce : ∀ {address entry}, base.selected.find? address = some entry →
      Reduced crypto previous target address entry)
    (hgrow : GrowInv crypto previous target effectiveEpoch base addresses final)
    (hmem : address ∈ addresses) :
    Nat.dist (previous.weightOf address) (selectedWeight final.selected address)
      = fall previous target base.selected address
        + rise previous target final.selected address := by
  by_cases hfalls : target.weightOf address < previous.weightOf address
  · have hsame : selectedWeight final.selected address
        = selectedWeight base.selected address := by
      cases hfind : base.selected.find? address with
      | some entry =>
        rw [selectedWeight_of_find? (hgrow.kept hfind), selectedWeight_of_find? hfind]
      | none =>
        cases hfinal : final.selected.find? address with
        | none => rw [selectedWeight_of_find?_none hfinal, selectedWeight_of_find?_none hfind]
        | some entry =>
          rcases hgrow.chosen hfinal with hbase | ⟨-, hgrown⟩
          · rw [hfind] at hbase
            cases hbase
          · exact absurd hfalls hgrown.steady
    have hle : selectedWeight base.selected address ≤ previous.weightOf address := by
      cases hfind : base.selected.find? address with
      | none => rw [selectedWeight_of_find?_none hfind]; exact Nat.zero_le _
      | some entry =>
        rw [selectedWeight_of_find? hfind]
        exact (hreduce hfind).upper
    rw [fall, if_pos hfalls, rise, if_pos hfalls, hsame, Nat.dist]
    omega
  · have hle : previous.weightOf address ≤ selectedWeight final.selected address := by
      cases hfind : final.selected.find? address with
      | none => rw [hgrow.skipped address hmem hfalls hfind]; exact Nat.zero_le _
      | some entry =>
        rw [selectedWeight_of_find? hfind]
        rcases hgrow.chosen hfind with hbase | ⟨-, hgrown⟩
        · exact absurd (hreduce hbase).falls hfalls
        · exact hgrown.lower
    rw [fall, if_neg hfalls, rise, if_neg hfalls, Nat.dist]
    omega

/-- **The plan.** Its entries are sound, lie between the two sets and cost no more than the
budget; new keys are mature, and none stands beside an old key of its owner. -/
theorem plan_spec (effectiveEpoch : Nat) (budget : UInt64)
    (hprevious : previous.isValid crypto = true) (htarget : target.isValid crypto = true) :
    PlanSpec crypto previous target effectiveEpoch budget
      (plan previous target effectiveEpoch budget).selected := by
  have hreduce := reduce_invariant effectiveEpoch budget hprevious htarget
    (allAddresses_nodup previous target)
  have hgrow := grow_invariant effectiveEpoch hprevious htarget
    (fun hfind => (hreduce.chosen hfind).2) (allAddresses_nodup previous target)
  rw [← plan] at hgrow
  refine ⟨?_, ?_, ?_, ?_, ?_, ?_⟩
  · rintro ⟨address, entry⟩ hmem
    rcases hgrow.chosen (SortedMap.find?_eq_some_iff _ |>.mpr hmem) with hbase | ⟨-, hgrown⟩
    · exact (hreduce.chosen hbase).2.ok
    · exact hgrown.ok
  · intro address entry hfind
    rcases hgrow.chosen hfind with hbase | ⟨hmem, -⟩
    · exact (hreduce.chosen hbase).1
    · exact hmem
  · intro address
    cases hfind : (plan previous target effectiveEpoch budget).selected.find? address with
    | some entry =>
      rw [selectedWeight_of_find? hfind]
      rcases hgrow.chosen hfind with hbase | ⟨-, hgrown⟩
      · have hkept := (hreduce.chosen hbase).2
        exact ⟨min_le_of_right_le hkept.lower, le_max_of_le_left hkept.upper⟩
      · exact ⟨min_le_of_left_le hgrown.lower, le_max_of_le_right hgrown.upper⟩
    | none =>
      rw [selectedWeight_of_find?_none hfind]
      refine ⟨?_, Nat.zero_le _⟩
      by_cases hmem : address ∈ allAddresses previous target
      · by_cases hfalls : target.weightOf address < previous.weightOf address
        · have hbase : (reducePass previous target effectiveEpoch budget
              (allAddresses previous target)).selected.find? address = none := by
            by_contra hsome
            obtain ⟨entry, hentry⟩ := Option.ne_none_iff_exists'.mp hsome
            rw [hgrow.kept hentry] at hfind
            cases hfind
          rw [hreduce.dropped address hmem hfalls hbase]
          exact min_le_right _ _
        · rw [hgrow.skipped address hmem hfalls hfind]
          exact min_le_left _ _
      · have habsent : previous.entries.find? address = none := by
          by_contra hsome
          obtain ⟨entry, hentry⟩ := Option.ne_none_iff_exists'.mp hsome
          exact hmem (mem_allAddresses.mpr (Or.inl (previous.entries.mem_keys_iff.mpr
            ⟨entry, previous.entries.find?_eq_some_iff.mp hentry⟩)))
        rw [weightOf_of_find?_none habsent]
        exact min_le_left _ _
  · have hsum : (allAddresses previous target).map (fun address =>
        Nat.dist (previous.weightOf address)
          (selectedWeight (plan previous target effectiveEpoch budget).selected address))
        = (allAddresses previous target).map (fun address =>
            fall previous target (reducePass previous target effectiveEpoch budget
              (allAddresses previous target)).selected address
            + rise previous target (plan previous target effectiveEpoch budget).selected address) :=
      List.map_congr_left (fun address hmem =>
        dist_eq_fall_add_rise (fun hfind => (hreduce.chosen hfind).2) hgrow hmem)
    have hfall := hreduce.spent
    have hrise := hgrow.spent
    rw [hsum, List.sum_map_add]
    omega
  · intro address entry hfind hnone
    rcases hgrow.chosen hfind with hbase | ⟨-, hgrown⟩
    · have hfalls := (hreduce.chosen hbase).2.falls
      rw [weightOf_of_find?_none hnone] at hfalls
      exact absurd hfalls (Nat.not_lt_zero _)
    · obtain ⟨next, hnext, hmature, -, -⟩ := hgrown.fresh hnone
      exact ⟨next, hnext, hmature⟩
  · intro old new oldEntry selectedEntry newEntry hprev hleft hold heligible hnone hnew
    have hbaseOld : (reducePass previous target effectiveEpoch budget
        (allAddresses previous target)).selected.find? old = some selectedEntry := by
      rcases hgrow.chosen hold with hbase | ⟨-, hgrown⟩
      · exact hbase
      · -- What has left the target and is not falling has no weight to vote with.
        have hzero := weightOf_of_find?_none hleft
        have hupper := hgrown.upper
        have hpos : 0 < selectedEntry.votingWeight.toNat := by
          rw [ValidatorRegistryEntry.votingWeight, if_pos heligible]
          simp only [ValidatorRegistryEntry.eligibleForConsensus, Bool.and_eq_true,
            decide_eq_true_eq] at heligible
          exact UInt64.lt_iff_toNat_lt.mp heligible.2
        omega
    obtain ⟨oldEntry', hprev', hownerOld⟩ := (hreduce.chosen hbaseOld).2.owner hleft
    obtain rfl : oldEntry = oldEntry' := Option.some.inj (hprev.symm.trans hprev')
    rcases hgrow.chosen hnew with hbase | ⟨-, hgrown⟩
    · have hfalls := (hreduce.chosen hbase).2.falls
      rw [weightOf_of_find?_none hnone] at hfalls
      exact absurd hfalls (Nat.not_lt_zero _)
    · obtain ⟨next, -, -, howner, hlive⟩ := hgrown.fresh hnone
      intro heq
      rw [oldKeyStillLive, List.any_eq_false] at hlive
      refine hlive (old, selectedEntry) ((SortedMap.find?_eq_some_iff _).mp hbaseOld) ?_
      have hgone : target.hasValidator old = false := by
        rw [hasValidator, SortedMap.contains, hleft]
        rfl
      rw [← howner, heq, ← hownerOld]
      simp [hgone, heligible]

--
-- The projection
--

/-- What a projected set promises: it is a valid registry; the weight it moved is within
the churn limit; each weight lies between the previous and the target one; a new key is
mature; and a new key has no owner whose old key left the target and still votes. -/
structure BoundedChurn (crypto : CryptoContext) (previous target : ValidatorRegistry)
    (effectiveEpoch : Nat) (total : UInt64) (result : ValidatorRegistry) : Prop where
  valid : result.isValid crypto = true
  churn : ∑ address ∈ previous.members ∪ result.members,
      Nat.dist (previous.weightOf address) (result.weightOf address)
    ≤ 3333 * total.toNat / 10000
  between : ∀ address,
    min (previous.weightOf address) (target.weightOf address) ≤ result.weightOf address ∧
      result.weightOf address ≤ max (previous.weightOf address) (target.weightOf address)
  mature : ∀ {address entry}, result.entries.find? address = some entry →
    previous.entries.find? address = none →
    ∃ next, target.entries.find? address = some next ∧
      next.registrationRecord.activationEpoch ≤ effectiveEpoch
  single : ∀ {old new oldEntry newEntry},
    previous.entries.find? old = some oldEntry → target.entries.find? old = none →
    result.isEligibleForConsensus old = true →
    previous.entries.find? new = none → result.entries.find? new = some newEntry →
    newEntry.ownerAddress ≠ oldEntry.ownerAddress

theorem churnBudget_toNat (total : UInt64) :
    (churnBudget total).toNat = 3333 * total.toNat / 10000 := by
  have hlt := total.toNat_lt
  rw [churnBudget, maxChurnBasisPoints, Nat.mul_comm, UInt64.toNat_ofNat']
  exact Nat.mod_eq_of_lt (by omega)

theorem allAddresses_toFinset :
    (allAddresses previous target).toFinset = previous.members ∪ target.members := by
  ext address
  rw [List.mem_toFinset, mem_allAddresses, Finset.mem_union, members, members,
    List.mem_toFinset, List.mem_toFinset]

/-- The loop over all addresses measures the distance of the two sets. -/
theorem changedWeight_eq (projected : ValidatorRegistry) (addresses : List String) :
    changedWeight previous projected addresses
      = (addresses.map fun address =>
          Nat.dist (previous.weightOf address) (projected.weightOf address)).sum := by
  refine congrArg List.sum (List.map_congr_left (fun address _ => ?_))
  simp only [weightOf, Nat.dist]
  split_ifs with hless
  · have hlt := UInt64.lt_iff_toNat_lt.mp hless
    rw [UInt64.toNat_sub_of_le _ _ (UInt64.le_iff_toNat_le.mpr hlt.le)]
    omega
  · have hle := Nat.not_lt.mp (fun h => hless (UInt64.lt_iff_toNat_lt.mpr h))
    rw [UInt64.toNat_sub_of_le _ _ (UInt64.le_iff_toNat_le.mpr hle)]
    omega

/-- The members of the result are members of one of the two sets. -/
theorem members_subset {budget : UInt64}
    {selected : SortedMap String ValidatorRegistryEntry}
    (hspec : PlanSpec crypto previous target effectiveEpoch budget selected) :
    previous.members ∪ (⟨selected⟩ : ValidatorRegistry).members
      ⊆ (allAddresses previous target).toFinset := by
  intro address hmem
  rw [List.mem_toFinset]
  rcases Finset.mem_union.mp hmem with hprevious | hresult
  · exact mem_allAddresses.mpr (Or.inl (List.mem_toFinset.mp hprevious))
  · obtain ⟨entry, hentry⟩ := (SortedMap.mem_keys_iff _).mp (List.mem_toFinset.mp hresult)
    exact hspec.known ((SortedMap.find?_eq_some_iff _).mpr hentry)

theorem churn_of_planSpec {budget : UInt64}
    {selected : SortedMap String ValidatorRegistryEntry}
    (hspec : PlanSpec crypto previous target effectiveEpoch budget selected) :
    ∑ address ∈ previous.members ∪ (⟨selected⟩ : ValidatorRegistry).members,
      Nat.dist (previous.weightOf address) ((⟨selected⟩ : ValidatorRegistry).weightOf address)
    ≤ budget.toNat := by
  refine (Finset.sum_le_sum_of_subset (members_subset hspec)).trans ?_
  rw [List.sum_toFinset _ (allAddresses_nodup previous target)]
  simp only [weightOf_eq_selectedWeight (⟨selected⟩ : ValidatorRegistry)]
  exact hspec.churn

/-- The weights chosen add up to no more than the larger weights of the two sets. -/
theorem entriesWeight_le {budget : UInt64}
    {selected : SortedMap String ValidatorRegistryEntry}
    (hspec : PlanSpec crypto previous target effectiveEpoch budget selected) :
    entriesWeight selected.entries ≤ ∑ address ∈ previous.members ∪ target.members,
      max (previous.weightOf address) (target.weightOf address) := by
  have hkeys : entriesWeight selected.entries
      = (selected.keys.map (selectedWeight selected)).sum := by
    rw [entriesWeight, SortedMap.keys, List.map_map]
    refine congrArg List.sum (List.map_congr_left ?_)
    rintro ⟨address, entry⟩ hmem
    exact (selectedWeight_of_find? ((SortedMap.find?_eq_some_iff _).mpr hmem)).symm
  calc entriesWeight selected.entries
      = ∑ address ∈ selected.keys.toFinset, selectedWeight selected address := by
        rw [hkeys, List.sum_toFinset _ selected.keys_nodup]
    _ ≤ ∑ address ∈ selected.keys.toFinset,
          max (previous.weightOf address) (target.weightOf address) :=
        Finset.sum_le_sum (fun address _ => (hspec.between address).2)
    _ ≤ ∑ address ∈ previous.members ∪ target.members,
          max (previous.weightOf address) (target.weightOf address) := by
        refine Finset.sum_le_sum_of_subset (fun address hmem => ?_)
        rw [← allAddresses_toFinset, List.mem_toFinset]
        obtain ⟨entry, hentry⟩ := (SortedMap.mem_keys_iff _).mp (List.mem_toFinset.mp hmem)
        exact hspec.known ((SortedMap.find?_eq_some_iff _).mpr hentry)

/-- A set within the churn limit of a set with weight has weight. -/
theorem total_ne_zero {budget total projectedTotal : UInt64}
    {selected : SortedMap String ValidatorRegistryEntry}
    (hspec : PlanSpec crypto previous target effectiveEpoch budget selected)
    (htotal : previous.totalConsensusWeight = some total) (hpos : total ≠ 0)
    (hbudget : budget.toNat = 3333 * total.toNat / 10000)
    (hprojected : (⟨selected⟩ : ValidatorRegistry).totalConsensusWeight = some projectedTotal) :
    projectedTotal ≠ 0 := by
  rintro rfl
  have hzero := totalConsensusWeight_toNat hprojected
  rw [UInt64.toNat_zero, Quorum.weight] at hzero
  have hnone : ∀ address, (⟨selected⟩ : ValidatorRegistry).weightOf address = 0 := by
    intro address
    by_contra hne
    have hmem : address ∈ (⟨selected⟩ : ValidatorRegistry).members :=
      mem_members_of_weight_ne_zero (fun h => hne (by rw [weightOf, h]; rfl))
    exact hne (Finset.sum_eq_zero_iff.mp hzero.symm address hmem)
  have hchurn := churn_of_planSpec hspec
  have hall : total.toNat ≤ ∑ address ∈ previous.members ∪ (⟨selected⟩ : ValidatorRegistry).members,
      Nat.dist (previous.weightOf address) ((⟨selected⟩ : ValidatorRegistry).weightOf address) := by
    rw [totalConsensusWeight_toNat htotal, Quorum.weight]
    calc ∑ address ∈ previous.members, previous.weightOf address
        = ∑ address ∈ previous.members, Nat.dist (previous.weightOf address)
            ((⟨selected⟩ : ValidatorRegistry).weightOf address) := by
          refine Finset.sum_congr rfl (fun address _ => ?_)
          rw [hnone, Nat.dist_zero_right]
      _ ≤ _ := Finset.sum_le_sum_of_subset Finset.subset_union_left
  have hposNat := toNat_pos_of_ne_zero hpos
  omega

section

variable {total : UInt64} (hprevious : previous.isValid crypto = true)
  (htarget : target.isValid crypto = true)
  (htotal : previous.totalConsensusWeight = some total) (hpos : total ≠ 0)
  (hepoch : effectiveEpoch ≠ 0)
include hprevious htarget htotal hpos hepoch

/-- **The one exception.** The entries chosen do not add up. -/
theorem project_of_overflow
    (hover : uint64Max.toNat < entriesWeight
      (plan previous target effectiveEpoch (churnBudget total)).selected.entries) :
    project crypto previous target effectiveEpoch
      = .error "Bounded validator-set projection is invalid." := by
  have hspec := plan_spec effectiveEpoch (churnBudget total) hprevious htarget
  have hrefuse := (restoreEntries_eq hspec.ok).2 hover
  rw [project, hprevious, htarget, htotal]
  simp only [Bool.not_true, Bool.or_self, Bool.false_eq_true, if_false]
  rw [if_neg (by simp [hpos, hepoch])]
  simp only [hrefuse]

/-- **The projected set.** It holds the entries chosen; the audits behind the passes accept. -/
theorem project_of_fits
    (hfits : entriesWeight
      (plan previous target effectiveEpoch (churnBudget total)).selected.entries
        ≤ uint64Max.toNat) :
    project crypto previous target effectiveEpoch
      = .ok ⟨(plan previous target effectiveEpoch (churnBudget total)).selected⟩ := by
  have hspec := plan_spec effectiveEpoch (churnBudget total) hprevious htarget
  have hbuild := (restoreEntries_eq hspec.ok).1 hfits
  have hvalid : isValid crypto
      ⟨(plan previous target effectiveEpoch (churnBudget total)).selected⟩ = true :=
    isValid_iff.mpr ⟨hspec.ok, hfits⟩
  obtain ⟨projectedTotal, hprojected⟩ := isValid_total hvalid
  have hnonzero := total_ne_zero hspec htotal hpos (churnBudget_toNat total) hprojected
  have hwithin : ¬ (churnBudget total).toNat < changedWeight previous
      ⟨(plan previous target effectiveEpoch (churnBudget total)).selected⟩
      (allAddresses previous target) := by
    rw [changedWeight_eq]
    simp only [weightOf_eq_selectedWeight
      ⟨(plan previous target effectiveEpoch (churnBudget total)).selected⟩]
    exact Nat.not_lt.mpr hspec.churn
  rw [project, hprevious, htarget, htotal]
  simp only [Bool.not_true, Bool.or_self, Bool.false_eq_true, if_false]
  rw [if_neg (by simp [hpos, hepoch])]
  simp only [hbuild, hprojected]
  rw [if_neg (by simpa using hnonzero), if_neg hwithin]

/-- **Bounded churn.** From valid sets and a previous set with weight, `project` returns a set
within all its bounds whenever the weights it selected add up in 64 bits, and throws
otherwise; they do add up when the larger of the two weights of every address does. -/
theorem project_bounded :
    (entriesWeight (plan previous target effectiveEpoch (churnBudget total)).selected.entries
        ≤ uint64Max.toNat →
      ∃ result, project crypto previous target effectiveEpoch = .ok result ∧
        result.entries = (plan previous target effectiveEpoch (churnBudget total)).selected ∧
        BoundedChurn crypto previous target effectiveEpoch total result) ∧
    (uint64Max.toNat < entriesWeight
        (plan previous target effectiveEpoch (churnBudget total)).selected.entries →
      project crypto previous target effectiveEpoch
        = .error "Bounded validator-set projection is invalid.") ∧
    (∑ address ∈ previous.members ∪ target.members,
        max (previous.weightOf address) (target.weightOf address) ≤ uint64Max.toNat →
      entriesWeight (plan previous target effectiveEpoch (churnBudget total)).selected.entries
        ≤ uint64Max.toNat) := by
  have hspec := plan_spec effectiveEpoch (churnBudget total) hprevious htarget
  refine ⟨fun hfits => ?_, project_of_overflow hprevious htarget htotal hpos hepoch,
    fun hfits => (entriesWeight_le hspec).trans hfits⟩
  refine ⟨_, project_of_fits hprevious htarget htotal hpos hepoch hfits, rfl,
    isValid_iff.mpr ⟨hspec.ok, hfits⟩, ?_, ?_, hspec.mature, ?_⟩
  · rw [← churnBudget_toNat]
    exact churn_of_planSpec hspec
  · intro address
    rw [weightOf_eq_selectedWeight
      ⟨(plan previous target effectiveEpoch (churnBudget total)).selected⟩]
    exact hspec.between address
  · intro old new oldEntry newEntry hold hleft hlive hnone hnew
    rw [isEligibleForConsensus] at hlive
    split at hlive
    · cases hlive
    · rename_i entry hentry
      exact hspec.single hold hleft hentry hlive hnone hnew

end

/-- An active validator of the owner `owner` that may vote from `activationEpoch` on. -/
def ownedEntry (name owner : String) (stake : UInt64) (activationEpoch : Nat) :
    String × ValidatorRegistryEntry :=
  (name, ⟨⟨name, sampleKey name, activationEpoch, "meta", 1⟩, .active, 1, stake, 0, 0, owner⟩)

/-- Owner `o` votes with `a` beside `b` and `c`. -/
def beforeRotation : ValidatorRegistry where
  entries :=
    ⟨[ownedEntry "a" "o" 4000000 1, ownedEntry "b" "b" 4000000 1, ownedEntry "c" "c" 4000000 1],
      by decide⟩

/-- Owner `o` has moved its stake from `a` to `d`. -/
def afterRotation : ValidatorRegistry where
  entries :=
    ⟨[ownedEntry "b" "b" 4000000 1, ownedEntry "c" "c" 4000000 1, ownedEntry "d" "o" 4000000 2],
      by decide⟩

/-- A rotation under way: the old key votes on with the minimum stake, the new one waits. -/
theorem project_bounded_rotation :
    ∃ result, project sampleCrypto beforeRotation afterRotation 2 = .ok result ∧
      result.entries.keys = ["a", "b", "c"] ∧
      BoundedChurn sampleCrypto beforeRotation afterRotation 2 12000000 result := by
  have hfits : entriesWeight
      (plan beforeRotation afterRotation 2 (churnBudget 12000000)).selected.entries
        ≤ uint64Max.toNat := by decide +kernel
  obtain ⟨result, hproject, hentries, hbounded⟩ :=
    (project_bounded (show beforeRotation.isValid sampleCrypto = true by decide +kernel)
      (show afterRotation.isValid sampleCrypto = true by decide +kernel) (by decide +kernel)
      (by decide) (by decide)).1 hfits
  refine ⟨result, hproject, ?_, hbounded⟩
  rw [hentries]
  decide +kernel

/-- Two validators with all the weight that 64 bits hold. -/
def fullWeight : ValidatorRegistry where
  entries := ⟨[ownedEntry "a" "o" int64Max 1, ownedEntry "b" "b" int64Max 1], by decide⟩

/-- Owner `o` moves to `c`, which may not vote yet, and `d` joins. -/
def fullWeightTarget : ValidatorRegistry where
  entries :=
    ⟨[ownedEntry "b" "b" int64Max 1, ownedEntry "c" "o" 1000000 9, ownedEntry "d" "d" 1000000 1],
      by decide⟩

/-- **Two valid sets with no projection.** The old key waits for its replacement at full
weight, so the weight of the validator that joins no longer fits. -/
theorem project_throws :
    fullWeight.isValid sampleCrypto = true ∧ fullWeightTarget.isValid sampleCrypto = true ∧
      fullWeight.totalConsensusWeight = some 18446744073709551614 ∧
      project sampleCrypto fullWeight fullWeightTarget 2
        = .error "Bounded validator-set projection is invalid." := by
  refine ⟨by decide +kernel, by decide +kernel, by decide +kernel, ?_⟩
  have hover : uint64Max.toNat < entriesWeight
      (plan fullWeight fullWeightTarget 2 (churnBudget 18446744073709551614)).selected.entries := by
    decide +kernel
  exact project_of_overflow (by decide +kernel) (by decide +kernel) (by decide +kernel)
    (by decide) (by decide) hover

end ValidatorSetSchedule

end Nodo.Model
