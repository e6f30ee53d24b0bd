import Mathlib.Algebra.BigOperators.Group.List.Basic
import Mathlib.Algebra.BigOperators.Group.Finset.Basic
import Nodo.Lib.Guards
import Nodo.Lib.Quorum
import Nodo.Lib.SortedMap
import Nodo.Model.Crypto

/-!
# Nodo — validator registry and consensus weight

`core/ValidatorRegistry.cpp` and `consensus/QuorumThreshold.hpp`: who may vote
in a validator set, with which key and with which weight. Weights are `uint64`
as in the source, so the running sums can in principle wrap; `isValid` is the
audit that keeps them from doing so.

## Results

* `totalConsensusWeight_toNat` — the total of a valid registry is the exact sum
  of its members' weights.
* `requiredWeight_toNat` — the overflow-free threshold is `⌊2W/3⌋ + 1` for
  every positive `uint64`.
-/

namespace Nodo.Model

/-- `std::numeric_limits<std::uint64_t>::max()`. -/
def uint64Max : UInt64 := 18446744073709551615

/-- `std::numeric_limits<std::int64_t>::max()`. -/
def int64Max : UInt64 := 9223372036854775807

@[simp] theorem uint64Max_toNat : uint64Max.toNat = 18446744073709551615 := rfl

@[simp] theorem int64Max_toNat : int64Max.toNat = 9223372036854775807 := rfl

theorem toNat_pos_of_ne_zero {a : UInt64} (h : a ≠ 0) : 0 < a.toNat := by
  rcases Nat.eq_zero_or_pos a.toNat with hzero | hpos
  · exact absurd (UInt64.toNat_inj.mp (by simpa using hzero)) h
  · exact hpos

theorem toNat_succ {a : UInt64} (h : a ≠ uint64Max) :
    (a + 1).toNat = a.toNat + 1 := by
  have hlt := a.toNat_lt
  have hne : a.toNat ≠ uint64Max.toNat := fun heq => h (UInt64.toNat_inj.mp heq)
  rw [uint64Max_toNat] at hne
  rw [UInt64.toNat_add, UInt64.toNat_one]
  omega

--
-- Registration records and their weight
--

/-- The address must be derived from the key it is registered with. -/
def ValidatorRegistrationRecord.isValid (crypto : CryptoContext)
    (record : ValidatorRegistrationRecord) : Bool :=
  isSafeScalar record.validatorAddress && isSafeScalar record.metadataHash
    && crypto.publicKeyIsValid record.validatorPublicKey
    && isSafeScalar record.validatorPublicKey.keyMaterial
    && record.activationEpoch != 0 && 0 < record.registeredAt
    && crypto.addressIsValid record.validatorAddress
    && crypto.verifyAddressForPublicKey record.validatorAddress record.validatorPublicKey

/-- `ConsensusWeight::weightFromStake`: one unit of stake is one unit of weight. -/
def weightFromStake (lockedAmount : UInt64) : UInt64 := lockedAmount

/-- `ValidatorRegistry::MIN_VALIDATOR_STAKE_RAW_UNITS`. -/
def minValidatorStakeRawUnits : UInt64 := 1000000

namespace ValidatorRegistryEntry

def consensusWeight (entry : ValidatorRegistryEntry) : UInt64 :=
  weightFromStake entry.stakeAmount

def active (entry : ValidatorRegistryEntry) : Bool := entry.status == .active

def eligibleForConsensus (entry : ValidatorRegistryEntry) : Bool :=
  entry.status == .active && minValidatorStakeRawUnits ≤ entry.stakeAmount
    && 0 < entry.consensusWeight

def isValid (crypto : CryptoContext) (entry : ValidatorRegistryEntry) : Bool :=
  entry.registrationRecord.isValid crypto && entry.status != .unknown
    && 0 < entry.lastUpdatedAt && entry.registrationRecord.registeredAt ≤ entry.lastUpdatedAt
    && entry.stakeAmount ≤ int64Max

/-- The weight an entry contributes to quorums: zero unless eligible. -/
def votingWeight (entry : ValidatorRegistryEntry) : UInt64 :=
  if entry.eligibleForConsensus then entry.consensusWeight else 0

end ValidatorRegistryEntry

--
-- The registry
--

/-- `ValidatorRegistry::m_entries`. -/
structure ValidatorRegistry where
  entries : SortedMap String ValidatorRegistryEntry

namespace ValidatorRegistry

/-- `verifyValidatorIdentity(address, key)`. -/
def verifyValidatorIdentity (crypto : CryptoContext) (registry : ValidatorRegistry)
    (address : String) (key : PublicKey) : Bool :=
  match registry.entries.find? address with
  | none => false
  | some entry =>
    entry.active && crypto.publicKeyIsValid key
      && crypto.fingerprint entry.registrationRecord.validatorPublicKey == crypto.fingerprint key
      && crypto.verifyAddressForPublicKey address key

def isEligibleForConsensus (registry : ValidatorRegistry) (address : String) : Bool :=
  match registry.entries.find? address with
  | none => false
  | some entry => entry.eligibleForConsensus

def consensusWeightFor (registry : ValidatorRegistry) (address : String) : UInt64 :=
  match registry.entries.find? address with
  | none => 0
  | some entry => if entry.eligibleForConsensus then entry.consensusWeight else 0

/-- The running sum of `totalConsensusWeight`; `none` stands for the
`overflow_error` it throws. -/
def addWeights : UInt64 → List ValidatorRegistryEntry → Option UInt64
  | total, [] => some total
  | total, entry :: rest =>
    if !entry.eligibleForConsensus then addWeights total rest
    else if uint64Max - total < entry.consensusWeight then none
    else addWeights (total + entry.consensusWeight) rest

def totalConsensusWeight (registry : ValidatorRegistry) : Option UInt64 :=
  addWeights 0 (registry.entries.entries.map (·.2))

/-- The audit loop of `isValid`, with its own running total. -/
def auditEntries (crypto : CryptoContext) :
    UInt64 → List (String × ValidatorRegistryEntry) → Bool
  | _, [] => true
  | total, (address, entry) :: rest =>
    if !isSafeScalar address then false
    else if !entry.isValid crypto then false
    else if entry.registrationRecord.validatorAddress != address then false
    else if entry.eligibleForConsensus then
      if uint64Max - entry.consensusWeight < total then false
      else auditEntries crypto (total + entry.consensusWeight) rest
    else auditEntries crypto total rest

def isValid (crypto : CryptoContext) (registry : ValidatorRegistry) : Bool :=
  auditEntries crypto 0 registry.entries.entries

/-- `validatorSetRoot`: the hash of the serialized registry, which throws where
`totalConsensusWeight` does. -/
def validatorSetRoot (crypto : CryptoContext) (registry : ValidatorRegistry) : Option String :=
  registry.totalConsensusWeight.map fun _ => crypto.registryDigest registry.entries.entries

end ValidatorRegistry

--
-- The quorum threshold
--

/-- `QuorumThreshold::requiredWeight`; `none` stands for the exception at zero. -/
def requiredWeight (totalWeight : UInt64) : Option UInt64 :=
  if totalWeight == 0 then none else some (totalWeight - (totalWeight - 1) / 3)

/-- **The threshold formula.** It is `⌊2W/3⌋ + 1` at every residue, up to
`2^64 - 1`, with no wrap on the way. -/
theorem requiredWeight_toNat {total required : UInt64}
    (h : requiredWeight total = some required) :
    required.toNat = 2 * total.toNat / 3 + 1 := by
  unfold requiredWeight at h
  split at h
  · cases h
  · rename_i hne
    have hpos : total ≠ 0 := by simpa using hne
    have hposNat : 0 < total.toNat := toNat_pos_of_ne_zero hpos
    have hone : (1 : UInt64) ≤ total := by
      rw [UInt64.le_iff_toNat_le]
      exact hposNat
    have hdiv : ((total - 1) / 3).toNat = (total.toNat - 1) / 3 := by
      rw [UInt64.toNat_div, UInt64.toNat_sub_of_le _ _ hone]
      rfl
    have hle : (total - 1) / 3 ≤ total := by
      rw [UInt64.le_iff_toNat_le, hdiv]
      omega
    rw [← Option.some.inj h, UInt64.toNat_sub_of_le _ _ hle, hdiv]
    omega

--
-- Exact sums
--

theorem le_uint64Max (a : UInt64) : a ≤ uint64Max := by
  have hlt := a.toNat_lt
  rw [UInt64.le_iff_toNat_le, uint64Max_toNat]
  omega

/-- The guard in front of a `uint64` addition, over the naturals. -/
theorem not_guard_iff {a b : UInt64} :
    ¬ uint64Max - a < b ↔ a.toNat + b.toNat ≤ uint64Max.toNat := by
  have hle := UInt64.le_iff_toNat_le.mp (le_uint64Max a)
  rw [UInt64.lt_iff_toNat_lt, UInt64.toNat_sub_of_le _ _ (le_uint64Max a)]
  omega

/-- A guarded `uint64` addition is the addition of naturals. -/
theorem toNat_add_of_guard {a b : UInt64} (h : ¬ uint64Max - a < b) :
    (a + b).toNat = a.toNat + b.toNat := by
  have hfits := not_guard_iff.mp h
  rw [uint64Max_toNat] at hfits
  rw [UInt64.toNat_add]
  exact Nat.mod_eq_of_lt (by omega)

namespace ValidatorRegistry

/-- The weight of a validator as a natural number. -/
def weightOf (registry : ValidatorRegistry) (address : String) : Nat :=
  (registry.consensusWeightFor address).toNat

/-- The addresses of the registry. -/
def members (registry : ValidatorRegistry) : Finset String := registry.entries.keys.toFinset

theorem addWeights_toNat {total result : UInt64} {entries : List ValidatorRegistryEntry}
    (h : addWeights total entries = some result) :
    result.toNat = total.toNat + (entries.map (fun e => e.votingWeight.toNat)).sum := by
  induction entries generalizing total with
  | nil =>
    simp only [addWeights, Option.some.injEq] at h
    simp [h]
  | cons entry rest ih =>
    rw [addWeights] at h
    by_cases hel : entry.eligibleForConsensus
    · simp only [hel, Bool.not_true, Bool.false_eq_true, if_false] at h
      split at h
      · cases h
      · rename_i hguard
        rw [ih h, toNat_add_of_guard hguard]
        simp [ValidatorRegistryEntry.votingWeight, hel, Nat.add_assoc]
    · simp only [hel, Bool.not_false, if_true] at h
      rw [ih h]
      simp [ValidatorRegistryEntry.votingWeight, hel]

theorem consensusWeightFor_of_mem {registry : ValidatorRegistry} {address : String}
    {entry : ValidatorRegistryEntry} (h : (address, entry) ∈ registry.entries.entries) :
    registry.consensusWeightFor address = entry.votingWeight := by
  rw [consensusWeightFor, registry.entries.find?_eq_some_iff.mpr h]
  rfl

/-- **Exact total.** The total of a registry is the sum of its members' weights. -/
theorem totalConsensusWeight_toNat {registry : ValidatorRegistry} {total : UInt64}
    (h : registry.totalConsensusWeight = some total) :
    total.toNat = Quorum.weight registry.weightOf registry.members := by
  have hsum := addWeights_toNat h
  have hweights : registry.entries.entries.map (fun e => e.2.votingWeight.toNat)
      = registry.entries.keys.map registry.weightOf := by
    rw [SortedMap.keys, List.map_map]
    refine List.map_congr_left ?_
    rintro ⟨address, entry⟩ hmem
    simp [weightOf, consensusWeightFor_of_mem hmem]
  rw [hsum, List.map_map, Quorum.weight, members,
    List.sum_toFinset _ registry.entries.keys_nodup, ← hweights]
  simp [Function.comp_def]

/-- A voter with weight is a member. -/
theorem mem_members_of_weight_ne_zero {registry : ValidatorRegistry} {address : String}
    (h : registry.consensusWeightFor address ≠ 0) : address ∈ registry.members := by
  rw [consensusWeightFor] at h
  split at h
  · exact absurd rfl h
  · rename_i entry hfind
    have hmem := registry.entries.find?_eq_some_iff.mp hfind
    rw [members, List.mem_toFinset, registry.entries.mem_keys_iff]
    exact ⟨entry, hmem⟩

theorem weightOf_pos_of_eligible {registry : ValidatorRegistry} {address : String}
    (h : registry.isEligibleForConsensus address = true) : 0 < registry.weightOf address := by
  rw [isEligibleForConsensus] at h
  rw [weightOf, consensusWeightFor]
  split at h
  · cases h
  · simp only [h, if_true]
    simp only [ValidatorRegistryEntry.eligibleForConsensus, Bool.and_eq_true,
      decide_eq_true_eq] at h
    exact UInt64.lt_iff_toNat_lt.mp h.2

--
-- What the audit guarantees
--

/-- One round of the audit: the address is safe text, the running total of the
eligible weights fits, and the rest passes too. -/
theorem auditEntries_cons {crypto : CryptoContext} {total : UInt64} {address : String}
    {entry : ValidatorRegistryEntry} {rest : List (String × ValidatorRegistryEntry)}
    (h : auditEntries crypto total ((address, entry) :: rest) = true) :
    isSafeScalar address = true ∧ entry.isValid crypto = true ∧
      ((entry.eligibleForConsensus = true ∧ ¬ uint64Max - entry.consensusWeight < total ∧
          auditEntries crypto (total + entry.consensusWeight) rest = true) ∨
        (entry.eligibleForConsensus = false ∧ auditEntries crypto total rest = true)) := by
  obtain ⟨hsafe, h⟩ := Guards.true_of_ite_false h
  obtain ⟨hvalid, h⟩ := Guards.true_of_ite_false h
  obtain ⟨-, h⟩ := Guards.true_of_ite_false h
  refine ⟨by simpa using hsafe, by simpa using hvalid, ?_⟩
  cases hel : entry.eligibleForConsensus with
  | false =>
    rw [hel] at h
    exact Or.inr ⟨rfl, h⟩
  | true =>
    rw [hel, if_pos rfl] at h
    obtain ⟨hguard, h⟩ := Guards.true_of_ite_false h
    exact Or.inl ⟨rfl, hguard, h⟩

theorem auditEntries_address {crypto : CryptoContext} {total : UInt64}
    {entries : List (String × ValidatorRegistryEntry)}
    (h : auditEntries crypto total entries = true) :
    ∀ e ∈ entries, isSafeScalar e.1 = true := by
  induction entries generalizing total with
  | nil => simp
  | cons e rest ih =>
    obtain ⟨hsafe, -, hrest⟩ := auditEntries_cons h
    intro e' he'
    rcases List.mem_cons.mp he' with rfl | hmem
    · exact hsafe
    · rcases hrest with ⟨-, -, hrest⟩ | ⟨-, hrest⟩
      · exact ih hrest e' hmem
      · exact ih hrest e' hmem

/-- The audit's guard is the guard of the sum, the other way round. -/
theorem auditEntries_addWeights {crypto : CryptoContext} {total : UInt64}
    {entries : List (String × ValidatorRegistryEntry)}
    (h : auditEntries crypto total entries = true) :
    ∃ result, addWeights total (entries.map (·.2)) = some result := by
  induction entries generalizing total with
  | nil => exact ⟨total, rfl⟩
  | cons e rest ih =>
    obtain ⟨-, -, hrest⟩ := auditEntries_cons h
    rw [List.map_cons, addWeights]
    rcases hrest with ⟨hel, hguard, hrest⟩ | ⟨hel, hrest⟩
    · have hfits : ¬ uint64Max - total < e.2.consensusWeight := by
        rw [not_guard_iff] at hguard ⊢
        omega
      rw [if_neg (by simp [hel]), if_neg hfits]
      exact ih hrest
    · rw [if_pos (by simp [hel])]
      exact ih hrest

theorem isValid_address {crypto : CryptoContext} {registry : ValidatorRegistry}
    {e : String × ValidatorRegistryEntry} (h : registry.isValid crypto = true)
    (he : e ∈ registry.entries.entries) : isSafeScalar e.1 = true :=
  auditEntries_address h e he

/-- The total of a valid registry does not overflow. -/
theorem isValid_total {crypto : CryptoContext} {registry : ValidatorRegistry}
    (h : registry.isValid crypto = true) :
    ∃ total, registry.totalConsensusWeight = some total :=
  auditEntries_addWeights h

end ValidatorRegistry

end Nodo.Model
