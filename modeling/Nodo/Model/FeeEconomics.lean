import Nodo.Model.CoinLotTransfer

/-!
# Nodo — the fees of a block

`node/FeeEconomics.cpp`. The fees of a block are split between its validators, the treasury and a
burn. Every node splits them again when it checks a block.

## Results

* `basisPointShare_eq` — a share is the floor of the exact one, and no step of it overflows.
* `fee_split_spec` — what a split gives each side.
-/

namespace Nodo.Model

/-- `basisPointShare`; its second test asks whether the two parts exceed the largest amount. -/
def basisPointShare (total : Amount) (basisPoints : UInt32) : Except String Amount :=
  if total.isNegative then .error "Cannot split a negative fee amount."
  else if basisPoints == 0 || total.isZero then .ok .zero
  else
    let whole := total.rawUnits / 10000
    let remainder := total.rawUnits % 10000
    if whole > maxRawUnits / basisPoints.toNat then .error "Fee split overflow."
    else if h : whole * basisPoints.toNat + remainder * basisPoints.toNat / 10000 ≤ maxRawUnits then
      .ok ⟨_, h⟩
    else .error "Fee split overflow."

structure FeeSplitPolicy where
  validatorRewardBasisPoints : UInt32
  treasuryBasisPoints : UInt32
  burnBasisPoints : UInt32
  policyId : String
  reason : String

namespace FeeSplitPolicy

variable (policy : FeeSplitPolicy)

def isValid : Bool :=
  !policy.policyId.isEmpty && policy.reason == "FEE_SPLIT_POLICY_V1"
    && policy.validatorRewardBasisPoints + policy.treasuryBasisPoints + policy.burnBasisPoints
      == 10000

/-- `deterministicId` and `serialize`. -/
def serialize : String :=
  "FeeSplitPolicy\x7bvalidatorRewardBasisPoints=" ++ toString policy.validatorRewardBasisPoints
    ++ ";treasuryBasisPoints=" ++ toString policy.treasuryBasisPoints
    ++ ";burnBasisPoints=" ++ toString policy.burnBasisPoints
    ++ ";policyId=" ++ policy.policyId ++ ";reason=" ++ policy.reason ++ "\x7d"

def protocolDefault : FeeSplitPolicy where
  validatorRewardBasisPoints := 5000
  treasuryBasisPoints := 3000
  burnBasisPoints := 2000
  policyId := "NODO_FEE_SPLIT_POLICY_V1"
  reason := "FEE_SPLIT_POLICY_V1"

end FeeSplitPolicy

structure FeeEconomicBalance where
  status : String
  blockHeight : UInt64
  totalFee : Amount
  validatorRewardAmount : Amount
  treasuryAmount : Amount
  burnAmount : Amount
  policyId : String
  reason : String
  deriving DecidableEq

namespace FeeEconomicBalance

variable (balance : FeeEconomicBalance)

/-- `isValid`; the sum it checks may throw. -/
def isValid : Except String Bool :=
  if balance.status == "NOT_EVALUATED" then
    .ok (balance.blockHeight == 0 && balance.totalFee.isZero
      && balance.validatorRewardAmount.isZero && balance.treasuryAmount.isZero
      && balance.burnAmount.isZero && balance.policyId.isEmpty
      && balance.reason == "FEE_ECONOMICS_NOT_EVALUATED")
  else if balance.status != "ACTIVE" || balance.blockHeight == 0 then .ok false
  else do
    let paid ← balance.validatorRewardAmount.plus balance.treasuryAmount
    let sum ← paid.plus balance.burnAmount
    .ok (sum == balance.totalFee
      && balance.policyId == FeeSplitPolicy.protocolDefault.serialize
      && balance.reason == "FEE_ECONOMIC_BALANCE")

end FeeEconomicBalance

namespace FeeEconomics

def buildFeeEconomicBalance (blockHeight : UInt64) (totalFee : Amount) :
    Except String FeeEconomicBalance :=
  if blockHeight == 0 then .error "Cannot build fee economic balance at genesis height."
  else if totalFee.isNegative then
    .error "Cannot build fee economic balance from negative total fee."
  else
    let policy := FeeSplitPolicy.protocolDefault
    if !policy.isValid then .error "Default fee split policy is invalid."
    else do
      let validatorReward ← basisPointShare totalFee policy.validatorRewardBasisPoints
      let treasuryAmount ← basisPointShare totalFee policy.treasuryBasisPoints
      let rest ← totalFee.minus validatorReward
      let burnAmount ← rest.minus treasuryAmount
      .ok {
        status := "ACTIVE"
        blockHeight
        totalFee
        validatorRewardAmount := validatorReward
        treasuryAmount
        burnAmount
        policyId := policy.serialize
        reason := "FEE_ECONOMIC_BALANCE" }

end FeeEconomics

/-- **A share is the floor of the exact one**, for a part of the whole. -/
theorem basisPointShare_eq (total : Amount) {basisPoints : UInt32}
    (hpart : basisPoints.toNat ≤ 10000) :
    ∃ share, basisPointShare total basisPoints = .ok share
      ∧ share.rawUnits = total.rawUnits * basisPoints.toNat / 10000 := by
  have hrange := total.inRange
  have hmax : maxRawUnits = 9223372036854775807 := rfl
  have hcut := Nat.div_add_mod total.rawUnits 10000
  have hexact : total.rawUnits * basisPoints.toNat / 10000
      = total.rawUnits / 10000 * basisPoints.toNat
        + total.rawUnits % 10000 * basisPoints.toNat / 10000 := by
    conv_lhs => rw [← hcut, Nat.add_mul, Nat.mul_assoc]
    exact Nat.mul_add_div (Nat.succ_pos _) _ _
  unfold basisPointShare
  rw [Amount.isNegative_eq, if_neg Bool.false_ne_true]
  by_cases hnothing : (basisPoints == 0 || total.isZero) = true
  · rw [if_pos hnothing]
    refine ⟨.zero, rfl, ?_⟩
    rw [Bool.or_eq_true, beq_iff_eq, Amount.isZero, beq_iff_eq] at hnothing
    rcases hnothing with rfl | hzero
    · exact (Nat.zero_div _).symm
    · rw [hzero, Nat.zero_mul]
      rfl
  · rw [if_neg hnothing]
    have hpoints : 0 < basisPoints.toNat := by
      rw [Bool.or_eq_true, beq_iff_eq, not_or] at hnothing
      exact Nat.pos_of_ne_zero fun h => hnothing.1 (UInt32.toNat_inj.mp h)
    have hwhole : total.rawUnits / 10000 * basisPoints.toNat ≤ total.rawUnits / 10000 * 10000 :=
      Nat.mul_le_mul_left _ hpart
    have hremainder : total.rawUnits % 10000 * basisPoints.toNat
        ≤ total.rawUnits % 10000 * 10000 := Nat.mul_le_mul_left _ hpart
    have hfits : total.rawUnits / 10000 ≤ maxRawUnits / basisPoints.toNat := by
      rw [Nat.le_div_iff_mul_le hpoints]
      omega
    rw [if_neg (by omega), dif_pos (by omega)]
    exact ⟨_, rfl, hexact.symm⟩

/-- What a split gives each side. -/
structure SplitOf (totalFee : Amount) (balance : FeeEconomicBalance) : Prop where
  fee : balance.totalFee = totalFee
  validators : balance.validatorRewardAmount.rawUnits = totalFee.rawUnits * 5000 / 10000
  treasury : balance.treasuryAmount.rawUnits = totalFee.rawUnits * 3000 / 10000
  whole : balance.validatorRewardAmount.rawUnits + balance.treasuryAmount.rawUnits
    + balance.burnAmount.rawUnits = totalFee.rawUnits
  burnLow : totalFee.rawUnits * 2000 ≤ balance.burnAmount.rawUnits * 10000
  burnHigh : balance.burnAmount.rawUnits * 10000 < totalFee.rawUnits * 2000 + 20000
  valid : balance.isValid = .ok true

/-- **A fee is split without a loss.** Above the genesis the split never throws; validators and
treasury get the floors of their parts, and the burn takes its own part and what the floors left
over, less than two units. -/
theorem fee_split_spec {blockHeight : UInt64} (hheight : blockHeight ≠ 0) (totalFee : Amount) :
    ∃ balance, FeeEconomics.buildFeeEconomicBalance blockHeight totalFee = .ok balance
      ∧ SplitOf totalFee balance := by
  obtain ⟨validators, hvalidators, hvalidatorsAre⟩ :=
    @basisPointShare_eq totalFee 5000 (by decide)
  obtain ⟨treasury, htreasury, htreasuryIs⟩ := @basisPointShare_eq totalFee 3000 (by decide)
  have hfive : (5000 : UInt32).toNat = 5000 := rfl
  have hthree : (3000 : UInt32).toNat = 3000 := rfl
  rw [hfive] at hvalidatorsAre
  rw [hthree] at htreasuryIs
  have hrange := totalFee.inRange
  obtain ⟨rest, hrest, hrestIs⟩ := @Amount.minus_ok totalFee validators (by omega)
  obtain ⟨burn, hburn, hburnIs⟩ := @Amount.minus_ok rest treasury (by omega)
  obtain ⟨paid, hpaid, hpaidIs⟩ := @Amount.plus_ok validators treasury (by omega)
  obtain ⟨sum, hsum, hsumIs⟩ := @Amount.plus_ok paid burn (by omega)
  have hwhole : sum = totalFee := Amount.ext (by omega)
  subst hwhole
  have hbuilt : FeeEconomics.buildFeeEconomicBalance blockHeight sum = .ok
      ⟨"ACTIVE", blockHeight, sum, validators, treasury, burn,
        FeeSplitPolicy.protocolDefault.serialize, "FEE_ECONOMIC_BALANCE"⟩ := by
    unfold FeeEconomics.buildFeeEconomicBalance
    have hpolicy : FeeSplitPolicy.protocolDefault.isValid = true := by decide
    rw [if_neg (by simpa using hheight), Amount.isNegative_eq, if_neg Bool.false_ne_true]
    show (if (!FeeSplitPolicy.protocolDefault.isValid) = true then _ else
      basisPointShare sum 5000 >>= fun validatorReward => _) = _
    rw [hpolicy, if_neg (by simp), hvalidators, Guards.ok_bind]
    show (basisPointShare sum 3000 >>= fun treasuryAmount => _) = _
    rw [htreasury, Guards.ok_bind, hrest, Guards.ok_bind, hburn, Guards.ok_bind]
  refine ⟨_, hbuilt, ⟨rfl, hvalidatorsAre, htreasuryIs, ?_, ?_, ?_, ?_⟩⟩
  · show validators.rawUnits + treasury.rawUnits + burn.rawUnits = _
    omega
  · show _ ≤ burn.rawUnits * 10000
    omega
  · show burn.rawUnits * 10000 < _
    omega
  · have hheight' : (blockHeight == 0) = false := by simpa using hheight
    unfold FeeEconomicBalance.isValid
    simp only [hheight', hpaid, hsum, Guards.ok_bind, beq_self_eq_true, Bool.and_self]
    rfl

theorem fee_split_spec_nine : ∃ balance,
    FeeEconomics.buildFeeEconomicBalance 1 ⟨9, Amount.nine_inRange⟩ = .ok balance
      ∧ SplitOf ⟨9, Amount.nine_inRange⟩ balance :=
  fee_split_spec (by decide) _

end Nodo.Model
