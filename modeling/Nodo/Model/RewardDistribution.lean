import Mathlib.Algebra.Ring.Nat
import Nodo.Lib.SortedMap
import Nodo.Model.CoinLotTransfer

/-!
# Nodo — the rewards of a block

`node/RewardDistribution.cpp`. The validators' part of the fees of a block is shared by the signers
of its certificate, a tenth of each share locked. Every node builds the shares again when it checks
a block, from the votes as they stand in the certificate it has.

## Results

* `sum_distributions` — the shares add up.
* `rewards_paid_exactly` — what the signers are paid, and that the order of the votes does not count.
-/

namespace Nodo.Model

structure RewardDistribution where
  validatorAddress : String
  blockHeight : UInt64
  totalReward : Amount
  liquidReward : Amount
  lockedReward : Amount
  reason : String
  deriving DecidableEq

namespace RewardDistribution

def isValid (distribution : RewardDistribution) : Bool :=
  if distribution.validatorAddress.isEmpty || distribution.blockHeight == 0
      || (distribution.reason != "BLOCK_FINALIZATION_FEE"
        && distribution.reason != "EPOCH_PROTECTION_REWARD")
      || !distribution.totalReward.isPositive then false
  else match distribution.liquidReward.plus distribution.lockedReward with
    | .error _ => false
    | .ok sum => sum == distribution.totalReward

end RewardDistribution

namespace RewardDistributionCalculator

theorem lockedPortion_inRange (total : Amount) : total.rawUnits * 1 / 10 ≤ maxRawUnits := by
  have hrange := total.inRange
  omega

def lockedPortion (totalReward : Amount) : Amount :=
  ⟨totalReward.rawUnits * 1 / 10, lockedPortion_inRange totalReward⟩

/-- One round of the loop over the addresses. -/
def insertAddress (uniqueAddresses : SortedMap String Unit) (address : String) :
    Except String (SortedMap String Unit) :=
  if address.isEmpty then .error "Reward distribution validator address is empty."
  else .ok (uniqueAddresses.insert address ())

/-- The addresses of a `std::set`. -/
def canonicalValidatorAddresses (validatorAddresses : List String) : Except String (List String) :=
  (validatorAddresses.foldlM insertAddress .empty).map SortedMap.keys

theorem share_inRange (total : Amount) (recipients index : ℕ) :
    total.rawUnits / recipients + (if index < total.rawUnits % recipients then 1 else 0)
      ≤ maxRawUnits := by
  refine le_trans ?_ total.inRange
  have hmod := Nat.div_add_mod total.rawUnits recipients
  split_ifs with hindex
  · rcases Nat.eq_zero_or_pos recipients with rfl | hpos
    · rw [Nat.mod_zero] at hindex
      rw [Nat.div_zero]
      omega
    · have hle : total.rawUnits / recipients ≤ recipients * (total.rawUnits / recipients) :=
        Nat.le_mul_of_pos_left _ hpos
      omega
  · exact Nat.div_le_self total.rawUnits recipients

/-- What the recipient at a place gets. -/
def share (totalReward : Amount) (recipients index : ℕ) : Amount :=
  ⟨_, share_inRange totalReward recipients index⟩

/-- What a recipient is paid; `none` where nothing is left for it. -/
def distribution? (totalReward : Amount) (recipients : ℕ) (blockHeight : UInt64)
    (recipient : String × ℕ) : Option RewardDistribution :=
  let total := share totalReward recipients recipient.2
  if total.rawUnits = 0 then none
  else some {
    validatorAddress := recipient.1
    blockHeight
    totalReward := total
    liquidReward := total.less (lockedPortion total)
    lockedReward := lockedPortion total
    reason := "BLOCK_FINALIZATION_FEE" }

def buildForVoters (totalReward : Amount) (validatorAddresses : List String)
    (blockHeight : UInt64) : Except String (List RewardDistribution) :=
  if totalReward.isNegative then .error "Cannot distribute a negative validator reward."
  else if totalReward.isZero then .ok []
  else if blockHeight == 0 then
    .error "Cannot distribute validator rewards for genesis height."
  else do
    let recipients ← canonicalValidatorAddresses validatorAddresses
    if recipients.isEmpty then
      .error "Cannot distribute validator rewards without recipients."
    else .ok (recipients.zipIdx.filterMap
      (distribution? totalReward recipients.length blockHeight))

/-- `totalReward`. -/
def sumRewards (distributions : List RewardDistribution) : Except String Amount :=
  distributions.foldlM (fun total distribution =>
    if !distribution.isValid then .error "Cannot sum invalid reward distribution."
    else total.plus distribution.totalReward) .zero

--
-- The set of the signers
--

/-- The set holds what went in, however often. -/
theorem insertAll_ok {addresses : List String} (hnamed : "" ∉ addresses)
    (unique : SortedMap String Unit) :
    ∃ set, addresses.foldlM insertAddress unique = .ok set
      ∧ ∀ address, set.contains address = true
        ↔ unique.contains address = true ∨ address ∈ addresses := by
  induction addresses generalizing unique with
  | nil => exact ⟨unique, rfl, fun address => by simp⟩
  | cons first rest ih =>
    obtain ⟨hfirst, hrest⟩ := not_or.mp (mt List.mem_cons.mpr hnamed)
    obtain ⟨set, hset, hholds⟩ := ih hrest (unique.insert first ())
    refine ⟨set, ?_, fun address => ?_⟩
    · have hfirst' : ¬ first.isEmpty = true := fun h => hfirst (String.isEmpty_iff.mp h).symm
      rw [List.foldlM_cons, insertAddress, if_neg hfirst', Guards.ok_bind, hset]
    · rw [hholds, SortedMap.contains_insert, List.mem_cons, @or_comm (first = address),
        or_assoc, @eq_comm _ first]

theorem contains_iff_mem_keys {set : SortedMap String Unit} {address : String} :
    set.contains address = true ↔ address ∈ set.keys := by
  rw [set.contains_iff, set.mem_keys_iff]
  exact exists_congr fun _ => set.find?_eq_some_iff

theorem canonical_spec {addresses : List String} (hnamed : "" ∉ addresses) :
    ∃ set : SortedMap String Unit,
      canonicalValidatorAddresses addresses = .ok set.keys
        ∧ ∀ address, address ∈ set.keys ↔ address ∈ addresses := by
  obtain ⟨set, hset, hholds⟩ := insertAll_ok hnamed .empty
  refine ⟨set, by rw [canonicalValidatorAddresses, hset]; rfl, fun address => ?_⟩
  rw [← contains_iff_mem_keys, hholds]
  exact or_iff_right (by rw [SortedMap.contains, SortedMap.find?_empty]; simp)

/-- The same addresses make the same set. -/
theorem canonical_congr {addresses addresses' : List String} (hnamed : "" ∉ addresses)
    (hsame : ∀ address, address ∈ addresses' ↔ address ∈ addresses) :
    canonicalValidatorAddresses addresses' = canonicalValidatorAddresses addresses := by
  obtain ⟨set, hset, hholds⟩ := canonical_spec hnamed
  obtain ⟨set', hset', hholds'⟩ := canonical_spec (mt (hsame "").mp hnamed)
  have heq : set' = set := by
    refine SortedMap.eq_of_mem_iff fun ⟨address, ()⟩ => ?_
    have hkeys : ∀ m : SortedMap String Unit, (address, ()) ∈ m.entries ↔ address ∈ m.keys :=
      fun m => by rw [m.mem_keys_iff]; exact ⟨fun h => ⟨(), h⟩, fun ⟨_, h⟩ => h⟩
    rw [hkeys, hkeys, hholds', hholds, hsame]
  rw [hset, hset', heq]

--
-- What the places are paid
--

variable {totalReward : Amount} {n : ℕ} {blockHeight : UInt64}

theorem share_rawUnits (index : ℕ) : (share totalReward n index).rawUnits
    = totalReward.rawUnits / n + if index < totalReward.rawUnits % n then 1 else 0 := rfl

/-- The places from `first` on get the floor each, and a unit more while the remainder lasts. -/
theorem sum_distributions (recipients : List String) (first : ℕ) :
    (((recipients.zipIdx first).filterMap (distribution? totalReward n blockHeight)).map
        (·.totalReward.rawUnits)).sum
      = recipients.length * (totalReward.rawUnits / n)
        + (min (totalReward.rawUnits % n) (first + recipients.length)
          - min (totalReward.rawUnits % n) first) := by
  induction recipients generalizing first with
  | nil => simp
  | cons recipient rest ih =>
    have hshare := @share_rawUnits totalReward n first
    have hrest := ih (first + 1)
    have hadd : (rest.length + 1) * (totalReward.rawUnits / n)
        = rest.length * (totalReward.rawUnits / n) + totalReward.rawUnits / n := Nat.succ_mul _ _
    rw [List.zipIdx_cons, List.length_cons, hadd, List.filterMap_cons, distribution?]
    by_cases hnothing : (share totalReward n first).rawUnits = 0
    · rw [if_pos hnothing, hrest]
      split_ifs at hshare with hmore <;> omega
    · rw [if_neg hnothing, List.map_cons, List.sum_cons, hrest]
      show (share totalReward n first).rawUnits + _ = _
      split_ifs at hshare with hmore <;> omega

/-- What one recipient is paid. -/
theorem distribution?_spec {recipient : String × ℕ} {distribution : RewardDistribution}
    (h : distribution? totalReward n blockHeight recipient = some distribution) :
    distribution.validatorAddress = recipient.1
      ∧ distribution.totalReward = share totalReward n recipient.2
      ∧ distribution.totalReward.rawUnits ≠ 0
      ∧ distribution.lockedReward.rawUnits = distribution.totalReward.rawUnits / 10
      ∧ (recipient.1 ≠ "" → blockHeight ≠ 0 → distribution.isValid = true) := by
  unfold distribution? at h
  obtain ⟨hsome, h⟩ := Guards.some_of_ite_none h
  cases h
  generalize share totalReward n recipient.2 = total at hsome ⊢
  have hlocked : (lockedPortion total).rawUnits = total.rawUnits / 10 := by
    show total.rawUnits * 1 / 10 = _
    rw [Nat.mul_one]
  have hsplit : (total.less (lockedPortion total)).rawUnits + (lockedPortion total).rawUnits
      = total.rawUnits := by
    rw [Amount.less_rawUnits]
    omega
  refine ⟨rfl, rfl, hsome, hlocked, fun hnamed hheight => ?_⟩
  obtain ⟨sum, hsum, hsumIs⟩ := Amount.plus_ok (hsplit.trans_le total.inRange)
  have hwhole : sum = total := Amount.ext (hsumIs.trans hsplit)
  have hpositive : total.isPositive = true :=
    Amount.isPositive_iff.mpr (Nat.pos_of_ne_zero hsome)
  have hheight' : (blockHeight == 0) = false := beq_eq_false_iff_ne.mpr hheight
  have hnamed' : recipient.1.isEmpty = false :=
    Bool.eq_false_iff.mpr fun h => hnamed (String.isEmpty_iff.mp h)
  simp only [RewardDistribution.isValid, hnamed', hheight', hpositive, hsum, hwhole]
  simp

/-- Valid rewards whose sum is an amount are summed without a throw. -/
theorem sumRewards_ok {distributions : List RewardDistribution}
    (hvalid : ∀ distribution ∈ distributions, distribution.isValid = true) {whole : Amount}
    (hsum : (distributions.map (·.totalReward.rawUnits)).sum = whole.rawUnits) :
    sumRewards distributions = .ok whole := by
  suffices hloop : ∀ (rest : List RewardDistribution) (total : Amount),
      (∀ distribution ∈ rest, distribution.isValid = true) →
      total.rawUnits + (rest.map (·.totalReward.rawUnits)).sum = whole.rawUnits →
      rest.foldlM (fun total distribution =>
        if !distribution.isValid then .error "Cannot sum invalid reward distribution."
        else total.plus distribution.totalReward) total = (.ok whole : Except String Amount) from
    hloop distributions .zero hvalid ((Nat.zero_add _).trans hsum)
  intro rest
  induction rest with
  | nil =>
    intro total _ hwhole
    exact congrArg Except.ok (Amount.ext ((Nat.add_zero _).symm.trans hwhole))
  | cons distribution rest ih =>
    intro total hvalid hwhole
    rw [List.map_cons, List.sum_cons, ← Nat.add_assoc] at hwhole
    obtain ⟨next, hnext, hnextIs⟩ := @Amount.plus_ok total distribution.totalReward
      (le_trans (Nat.le_add_right _ _) (hwhole.le.trans whole.inRange))
    rw [List.foldlM_cons, hvalid distribution List.mem_cons_self, Bool.not_true,
      if_neg Bool.false_ne_true, hnext, Guards.ok_bind]
    exact ih next (fun d hd => hvalid d (List.mem_cons_of_mem _ hd)) (by rw [hnextIs, hwhole])

/-- What the signers of a block are paid. -/
structure PaidTo (totalReward : Amount) (signers : List String)
    (distributions : List RewardDistribution) : Prop where
  whole : sumRewards distributions = .ok totalReward
  signed : ∀ distribution ∈ distributions, distribution.validatorAddress ∈ signers
  ordered : distributions.Pairwise fun one other =>
    one.validatorAddress < other.validatorAddress
      ∧ other.totalReward.rawUnits ≤ one.totalReward.rawUnits
      ∧ one.totalReward.rawUnits ≤ other.totalReward.rawUnits + 1
  unpaid : ∀ address ∈ signers, (∃ distribution ∈ distributions,
    distribution.validatorAddress = address)
      ∨ ∀ distribution ∈ distributions, distribution.totalReward.rawUnits = 1
  valid : ∀ distribution ∈ distributions, distribution.isValid = true
  locked : ∀ distribution ∈ distributions,
    distribution.lockedReward.rawUnits = distribution.totalReward.rawUnits / 10

/-- **The signers share the reward to the unit.** The shares add up to the reward and differ by one
unit at most, the larger ones first in the order of the addresses; who is left out could only have
had nothing. A tenth of each share is locked. The order of the votes and a vote shown twice change
nothing. -/
theorem rewards_paid_exactly (totalReward : Amount) {signers : List String}
    (hsome : signers ≠ []) (hnamed : "" ∉ signers) {blockHeight : UInt64}
    (hheight : blockHeight ≠ 0) :
    ∃ distributions, PaidTo totalReward signers distributions
      ∧ ∀ votes : List String, (∀ address, address ∈ votes ↔ address ∈ signers) →
        buildForVoters totalReward votes blockHeight = .ok distributions := by
  obtain ⟨set, hset, hholds⟩ := canonical_spec hnamed
  have hheight' : ¬ (blockHeight == 0) = true := by simpa using hheight
  obtain ⟨one, hone⟩ := List.exists_mem_of_ne_nil signers hsome
  have hpos : 0 < set.keys.length := List.length_pos_of_mem ((hholds one).mpr hone)
  set distributions := set.keys.zipIdx.filterMap
    (distribution? totalReward set.keys.length blockHeight) with hdistributions
  have hsum : (distributions.map (·.totalReward.rawUnits)).sum = totalReward.rawUnits := by
    rw [hdistributions, sum_distributions, Nat.zero_add, Nat.min_eq_left (Nat.mod_lt _ hpos).le,
      Nat.min_zero, Nat.sub_zero]
    exact Nat.div_add_mod _ _
  have hspec : ∀ distribution ∈ distributions, ∃ recipient ∈ set.keys.zipIdx,
      distribution? totalReward set.keys.length blockHeight recipient = some distribution :=
    fun distribution hmem => List.mem_filterMap.mp hmem
  have hsigned : ∀ distribution ∈ distributions, distribution.validatorAddress ∈ signers := by
    intro distribution hmem
    obtain ⟨recipient, hplace, hbuilt⟩ := hspec distribution hmem
    rw [(distribution?_spec hbuilt).1]
    exact (hholds _).mp (List.fst_mem_of_mem_zipIdx hplace)
  have hvalid : ∀ distribution ∈ distributions, distribution.isValid = true := by
    intro distribution hmem
    obtain ⟨recipient, hplace, hbuilt⟩ := hspec distribution hmem
    obtain ⟨haddress, -, -, -, hvalid⟩ := distribution?_spec hbuilt
    exact hvalid (haddress ▸ fun h => hnamed (h ▸ hsigned distribution hmem)) hheight
  have hplaces : set.keys.zipIdx.Pairwise fun one other => one.1 < other.1 ∧ one.2 < other.2 := by
    refine List.Pairwise.and (List.pairwise_map.mp ?_) (List.pairwise_map.mp ?_)
    · rw [List.zipIdx_map_fst]
      exact List.pairwise_map.mpr set.sorted
    · rw [List.zipIdx_map_snd]
      exact List.pairwise_lt_range'
  refine ⟨distributions, ⟨sumRewards_ok hvalid hsum, hsigned, ?_, ?_, hvalid, ?_⟩,
    fun votes hsame => ?_⟩
  · refine List.pairwise_filterMap.mpr (hplaces.imp fun {one other} hplace d hd d' hd' => ?_)
    obtain ⟨haddress, htotal, -⟩ := distribution?_spec hd
    obtain ⟨haddress', htotal', -⟩ := distribution?_spec hd'
    rw [haddress, haddress', htotal, htotal', share_rawUnits, share_rawUnits]
    refine ⟨hplace.1, ?_⟩
    split_ifs <;> omega
  · intro address hmem
    obtain ⟨i, hi⟩ := List.mem_iff_getElem?.mp ((hholds address).mpr hmem)
    have hplace : (address, i) ∈ set.keys.zipIdx := List.mk_mem_zipIdx_iff_getElem?.mpr hi
    by_cases hnothing : (share totalReward set.keys.length i).rawUnits = 0
    · -- Its place was given nothing, so no place was given more than one unit.
      refine .inr fun distribution hmem => ?_
      obtain ⟨recipient, -, hbuilt⟩ := hspec distribution hmem
      obtain ⟨-, htotal, hsome, -⟩ := distribution?_spec hbuilt
      rw [htotal, share_rawUnits, (Nat.add_eq_zero_iff.mp hnothing).1] at hsome ⊢
      split_ifs at hsome ⊢ <;> omega
    · refine .inl ⟨_, List.mem_filterMap.mpr ⟨(address, i), hplace, if_neg hnothing⟩, rfl⟩
  · intro distribution hmem
    obtain ⟨recipient, -, hbuilt⟩ := hspec distribution hmem
    exact (distribution?_spec hbuilt).2.2.2.1
  · by_cases hzero : totalReward.isZero = true
    · have hunits : totalReward.rawUnits = 0 := by
        rwa [Amount.isZero, beq_iff_eq] at hzero
      have hnone : distributions = [] := by
        refine List.filterMap_eq_nil_iff.mpr fun recipient _ => if_pos ?_
        rw [share_rawUnits, hunits, Nat.zero_div, Nat.zero_mod, if_neg (Nat.not_lt_zero _)]
      rw [buildForVoters, Amount.isNegative_eq, if_neg Bool.false_ne_true, if_pos hzero, hnone]
    · have hrecipients : ¬ set.keys.isEmpty = true := fun h => by
        rw [List.isEmpty_iff.mp h] at hpos
        exact absurd hpos (Nat.lt_irrefl 0)
      rw [buildForVoters, Amount.isNegative_eq, if_neg Bool.false_ne_true, if_neg hzero,
        if_neg hheight', canonical_congr hnamed hsame, hset, Guards.ok_bind,
        if_neg hrecipients]

theorem rewards_paid_exactly_nine : ∃ distributions,
    PaidTo ⟨9, Amount.nine_inRange⟩ ["a", "b"] distributions
      ∧ buildForVoters ⟨9, Amount.nine_inRange⟩ ["b", "a", "b"] 1 = .ok distributions := by
  obtain ⟨distributions, hpaid, hbuilt⟩ := @rewards_paid_exactly ⟨9, Amount.nine_inRange⟩ ["a", "b"]
    (by decide) (by decide) 1 (by decide)
  exact ⟨distributions, hpaid, hbuilt _ (by simp [or_comm])⟩

end RewardDistributionCalculator

end Nodo.Model
