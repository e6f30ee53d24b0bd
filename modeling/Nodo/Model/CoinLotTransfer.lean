import Mathlib.Algebra.BigOperators.Group.List.Basic
import Mathlib.Algebra.GroupWithZero.Nat
import Nodo.Lib.Guards
import Nodo.Model.CoinLots

/-!
# Nodo — transfers of coin lots

`core/CoinLotTransactionValidator.cpp` and `core/CoinLotTransferPlan.cpp`. A transfer
spends whole lots of the sender and splits them, in order, into lots for the
recipient, the fee pool and the sender's change. Every output keeps the origin of the
input it is cut from. The plan is built and checked first; then the inputs are marked
as spent and the outputs added.

A function that throws is an `Except`; `applyTransfer` also returns the registry it
leaves behind, so that what an exception leaves undone can be seen.

## Results

* `splitInput_spec` — one input is cut into outputs of its own origin, and what the
  recipient and the fee pool were still owed falls by what they got.
* `buildTransferPlan_spec` — what an accepted plan spends and creates.
* `applyTransfer_effect` — the effect of a transfer, or none.
-/

namespace Nodo.Model

--
-- Transactions (core/Transaction.hpp)
--

inductive TransactionType
  | transfer
  | burn
  | stakeDeposit
  | stakeUnlock
  | stakeWithdraw
  | stakeTopUp
  | validatorRegister
  | validatorExitRequest
  | validatorUnjailRequest
  | validatorKeyRotate
  | governancePropose
  | governanceVote
  | governanceExecute
  deriving DecidableEq

/-- The fields of a transaction that execution reads. -/
structure Transaction where
  id : String
  type : TransactionType
  fromAddress : String
  toAddress : String
  amount : Amount
  fee : Amount
  nonce : UInt64
  timestamp : Int
  inputCoinLotIds : List String
  data : String

def Transaction.hasExplicitInputCoinLotIds (transaction : Transaction) : Bool :=
  !transaction.inputCoinLotIds.isEmpty

/-- `operator+` with the text of its exception. -/
def Amount.plus (a b : Amount) : Except String Amount :=
  match a.add b with
  | none => .error "Amount addition overflow."
  | some sum => .ok sum

/-- `operator-` with the text of its exception. -/
def Amount.minus (a b : Amount) : Except String Amount :=
  match a.sub b with
  | none => .error "Amount subtraction would create negative value."
  | some difference => .ok difference

/-- `operator-` where the second amount is no larger, so that it does not throw. -/
def Amount.less (a b : Amount) : Amount :=
  ⟨a.rawUnits - b.rawUnits, a.sub_inRange b⟩

--
-- The registry's own operations (core/CoinLotRegistry.cpp)
--

/-- `CoinLot::isSpendable`. -/
def CoinLot.isSpendable (lot : CoinLot) : Bool := lot.status == .available

/-- `CoinLot::markSpent`. -/
def CoinLot.markSpent (lot : CoinLot) : Except String CoinLot :=
  if !lot.isSpendable then .error "Only spendable coin lots can be marked as spent."
  else .ok { lot with status := .spent, lockedUntilBlock := 0 }

/-- `State::feePoolAddress`. -/
def feePoolAddress : String := "nodo_fee_pool"

namespace CoinLotRegistry

def hasLot (registry : CoinLotRegistry) (lotId : String) : Bool := registry.lots.contains lotId

/-- `lot(lotId)`. -/
def lot (registry : CoinLotRegistry) (lotId : String) : Except String CoinLot :=
  match registry.lots.find? lotId with
  | none => .error "CoinLot was not found in registry."
  | some lot => .ok lot

/-- `verifySpendable`, with `verifyExists` in front; `some reason` is a refusal. -/
def verifySpendable (registry : CoinLotRegistry) (lotId expectedOwner : String) : Option String :=
  if lotId.isEmpty then some "CoinLot id is empty."
  else match registry.lots.find? lotId with
    | none => some "CoinLot does not exist."
    | some lot =>
      if !lot.isValid then some "CoinLot exists but is invalid."
      else if expectedOwner.isEmpty then some "Expected owner is empty."
      else if lot.ownerAddress != expectedOwner then some "CoinLot owner mismatch."
      else if !lot.isSpendable then some "CoinLot is not spendable."
      else none

/-- `markSpent`. -/
def markSpent (registry : CoinLotRegistry) (lotId expectedOwner : String) :
    Except String CoinLotRegistry :=
  match registry.verifySpendable lotId expectedOwner with
  | some reason => .error ("CoinLot cannot be marked spent: " ++ reason)
  | none => do
    let lot ← registry.lot lotId
    let spent ← lot.markSpent
    return ⟨registry.lots.insert lotId spent⟩

/-- `addLot`, with `assertLotCanBeAdded` in front. -/
def addLot (registry : CoinLotRegistry) (lot : CoinLot) : Except String CoinLotRegistry :=
  if !lot.isValid then .error "Invalid CoinLot cannot be added to registry."
  else if lot.id.isEmpty then .error "CoinLot id cannot be empty."
  else if registry.hasLot lot.id then .error "CoinLot id already exists in registry."
  else .ok ⟨registry.lots.insert lot.id lot⟩

end CoinLotRegistry

--
-- The plan (core/CoinLotTransferPlan.cpp)
--

structure CoinLotTransferPlan where
  transactionId : String
  senderAddress : String
  recipientAddress : String
  inputLotIds : List String
  outputLots : List CoinLot
  transferAmount : Amount
  feeAmount : Amount
  changeAmount : Amount
  totalInputAmount : Amount

namespace CoinLotTransferPlan

def totalOutputAmount (plan : CoinLotTransferPlan) : Except String Amount :=
  plan.outputLots.foldlM (fun total lot => total.plus lot.amount) Amount.zero

/-- `isValid`; its sums may throw. The two loops with a set are the tests for repeated ids. -/
def isValid (plan : CoinLotTransferPlan) : Except String Bool := do
  if plan.transactionId.isEmpty then return false
  if plan.senderAddress.isEmpty || plan.recipientAddress.isEmpty then return false
  if plan.senderAddress == plan.recipientAddress then return false
  if plan.inputLotIds.isEmpty then return false
  if plan.outputLots.isEmpty then return false
  if !plan.transferAmount.isPositive then return false
  if plan.feeAmount.isNegative then return false
  if plan.changeAmount.isNegative then return false
  if !plan.totalInputAmount.isPositive then return false
  let totalDebit ← plan.transferAmount.plus plan.feeAmount
  let accounted ← totalDebit.plus plan.changeAmount
  if accounted != plan.totalInputAmount then return false
  let totalOutput ← plan.totalOutputAmount
  if totalOutput != plan.totalInputAmount then return false
  if plan.inputLotIds.any String.isEmpty || !decide plan.inputLotIds.Nodup then return false
  return plan.outputLots.all (fun lot => lot.isValid && lot.isAvailable)
    && decide (plan.outputLots.map (·.id)).Nodup

end CoinLotTransferPlan

--
-- Selecting inputs (core/CoinLotTransactionValidator.cpp)
--

namespace CoinLotTransactionValidator

/-- The explicit mode of `selectInputLots`: the declared lots, in their order. -/
def selectExplicit (registry : CoinLotRegistry) (fromAddress : String) :
    List String → List String → Amount → Except String (List CoinLot × Amount)
  | [], _, collected => .ok ([], collected)
  | inputLotId :: rest, seen, collected =>
    if seen.contains inputLotId then .error "Duplicate explicit input CoinLot id rejected."
    else match registry.verifySpendable inputLotId fromAddress with
      | some reason => .error ("Explicit input CoinLot is not spendable: " ++ reason)
      | none => do
        let inputLot ← registry.lot inputLotId
        let sum ← collected.plus inputLot.amount
        let (lots, total) ← selectExplicit registry fromAddress rest (inputLotId :: seen) sum
        return (inputLot :: lots, total)

/-- The implicit mode: spendable lots of the sender in map order, until they cover the debit. -/
def selectImplicit (fromAddress : String) (totalDebit : Amount) :
    List CoinLot → Amount → Except String (List CoinLot × Amount)
  | [], collected => .ok ([], collected)
  | lot :: rest, collected =>
    if lot.ownerAddress != fromAddress || !lot.isSpendable then
      selectImplicit fromAddress totalDebit rest collected
    else do
      let sum ← collected.plus lot.amount
      if totalDebit.rawUnits ≤ sum.rawUnits then return ([lot], sum)
      let (lots, total) ← selectImplicit fromAddress totalDebit rest sum
      return (lot :: lots, total)

def selectInputLots (transaction : Transaction) (registry : CoinLotRegistry)
    (totalDebit : Amount) : Except String (List CoinLot) :=
  if transaction.hasExplicitInputCoinLotIds then do
    let (lots, collected) ← selectExplicit registry transaction.fromAddress
      transaction.inputCoinLotIds [] Amount.zero
    if collected.rawUnits < totalDebit.rawUnits then
      throw "Explicit input CoinLots do not cover transfer amount plus fee."
    return lots
  else do
    let (lots, collected) ← selectImplicit transaction.fromAddress totalDebit
      (registry.lots.entries.map (·.2)) Amount.zero
    if collected.rawUnits < totalDebit.rawUnits then
      throw "Insufficient spendable CoinLot balance for transfer."
    return lots

/-- The loop of `validateSelectedInputLots`; `some reason` is a refusal. -/
def validateInputs (fromAddress : String) :
    List CoinLot → List String → Amount → Except String (Option String × Amount)
  | [], _, collected => .ok (none, collected)
  | inputLot :: rest, seen, collected =>
    if !inputLot.isValid then .ok (some "Selected input CoinLot is invalid.", collected)
    else if inputLot.ownerAddress != fromAddress then
      .ok (some "Selected input CoinLot owner mismatch.", collected)
    else if !inputLot.isSpendable then
      .ok (some "Selected input CoinLot is not spendable.", collected)
    else if seen.contains inputLot.id then
      .ok (some "Duplicate selected input CoinLot id rejected.", collected)
    else do
      let sum ← collected.plus inputLot.amount
      validateInputs fromAddress rest (inputLot.id :: seen) sum

def validateSelectedInputLots (transaction : Transaction) (selectedInputLots : List CoinLot)
    (totalDebit : Amount) : Except String (Option String) :=
  if selectedInputLots.isEmpty then .ok (some "Transfer has no selected input CoinLots.")
  else do
    let (refusal, collected) ←
      validateInputs transaction.fromAddress selectedInputLots [] Amount.zero
    match refusal with
    | some reason => return some reason
    | none =>
      if collected.rawUnits < totalDebit.rawUnits then
        return some "Selected input CoinLots do not cover transfer amount plus fee."
      else return none

/-- `validateTransferTransaction`; `some reason` is a refusal. Only the sum of amount and fee
throws; what selection throws becomes a refusal. -/
def validateTransferTransaction (transaction : Transaction) (registry : CoinLotRegistry) :
    Except String (Option String) :=
  if transaction.type != .transfer then
    .ok (some "Only TRANSFER transactions can be validated against CoinLotRegistry.")
  else if transaction.id.isEmpty then .ok (some "Transaction id is empty.")
  else if transaction.fromAddress.isEmpty || transaction.toAddress.isEmpty then
    .ok (some "Transfer addresses cannot be empty.")
  else if transaction.fromAddress == transaction.toAddress then
    .ok (some "Transfer sender and recipient cannot be the same.")
  else if !transaction.amount.isPositive then .ok (some "Transfer amount must be positive.")
  else if transaction.fee.isNegative then .ok (some "Transfer fee cannot be negative.")
  else if transaction.nonce == 0 then .ok (some "Transfer nonce must be positive.")
  else if transaction.timestamp ≤ 0 then .ok (some "Transfer timestamp must be positive.")
  else if !registry.isValid then .ok (some "CoinLotRegistry is invalid.")
  else do
    let totalDebit ← transaction.amount.plus transaction.fee
    if !totalDebit.isPositive then return some "Transfer total debit must be positive."
    match selectInputLots transaction registry totalDebit with
    | .error reason => return some reason
    | .ok selectedInputLots =>
      match validateSelectedInputLots transaction selectedInputLots totalDebit with
      | .error reason => return some reason
      | .ok verdict => return verdict

--
-- Building the plan
--

/-- The variables of the planning loop. -/
structure Allocation where
  outputLots : List CoinLot
  remainingRecipientAmount : Amount
  remainingFeeAmount : Amount
  outputIndex : Nat

def createTransferOutputCoinLotId (transaction : Transaction) (inputLot : CoinLot)
    (outputKind : String) (outputIndex : Nat) : String :=
  "coinlot_from_tx_" ++ transaction.id ++ "_input_" ++ inputLot.id ++ "_" ++ outputKind ++ "_"
    ++ toString outputIndex

def outputIdAlreadyExistsInRegistryOrPending (registry : CoinLotRegistry)
    (pendingOutputs : List CoinLot) (outputLotId : String) : Bool :=
  registry.hasLot outputLotId || pendingOutputs.any (·.id == outputLotId)

/-- The lambda `createOutput`. -/
def createOutput (transaction : Transaction) (registry : CoinLotRegistry)
    (currentBlockIndex : UInt64) (inputLot : CoinLot) (allocation : Allocation)
    (ownerAddress : String) (amount : Amount) (outputKind : String) : Except String Allocation :=
  if !amount.isPositive then .ok allocation
  else
    let outputLotId :=
      createTransferOutputCoinLotId transaction inputLot outputKind allocation.outputIndex
    if outputIdAlreadyExistsInRegistryOrPending registry allocation.outputLots outputLotId then
      .error "Generated transfer output CoinLot id already exists."
    else
      let outputLot : CoinLot := ⟨outputLotId, inputLot.originMintRecordId, ownerAddress, amount,
        .available, currentBlockIndex, 0, transaction.timestamp⟩
      if !outputLot.isValid then .error "Generated transfer output CoinLot is invalid."
      else .ok { allocation with
        outputLots := allocation.outputLots ++ [outputLot]
        outputIndex := allocation.outputIndex + 1 }

/-- `minAmount`. -/
def minAmount (left right : Amount) : Amount :=
  if left.rawUnits ≤ right.rawUnits then left else right

/-- The `while` loop over one input: first what the recipient is owed, then the fee, then
change. -/
def splitInput (transaction : Transaction) (registry : CoinLotRegistry)
    (currentBlockIndex : UInt64) (inputLot : CoinLot) (remainingInputAmount : Amount)
    (allocation : Allocation) : Except String Allocation :=
  let create := createOutput transaction registry currentBlockIndex inputLot allocation
  if _hinput : remainingInputAmount.isPositive then
    if _hrecipient : allocation.remainingRecipientAmount.isPositive then
      let outputAmount := minAmount remainingInputAmount allocation.remainingRecipientAmount
      match create transaction.toAddress outputAmount "recipient" with
      | .error reason => .error reason
      | .ok created =>
        splitInput transaction registry currentBlockIndex inputLot
          (Amount.less remainingInputAmount outputAmount)
          { created with
            remainingRecipientAmount :=
              Amount.less allocation.remainingRecipientAmount outputAmount }
    else if _hfee : allocation.remainingFeeAmount.isPositive then
      let outputAmount := minAmount remainingInputAmount allocation.remainingFeeAmount
      match create feePoolAddress outputAmount "fee" with
      | .error reason => .error reason
      | .ok created =>
        splitInput transaction registry currentBlockIndex inputLot
          (Amount.less remainingInputAmount outputAmount)
          { created with
            remainingFeeAmount := Amount.less allocation.remainingFeeAmount outputAmount }
    else create transaction.fromAddress remainingInputAmount "change"
  else .ok allocation
termination_by remainingInputAmount.rawUnits
decreasing_by
  all_goals
    simp only [Amount.isPositive, decide_eq_true_eq] at *
    simp only [Amount.less, minAmount]
    split <;> omega

/-- The loop over the inputs, with the amount `collected`. -/
def allocateInputs (transaction : Transaction) (registry : CoinLotRegistry)
    (currentBlockIndex : UInt64) :
    List CoinLot → Amount → Allocation → Except String (Amount × Allocation)
  | [], collected, allocation => .ok (collected, allocation)
  | inputLot :: rest, collected, allocation => do
    let sum ← collected.plus inputLot.amount
    let split ← splitInput transaction registry currentBlockIndex inputLot inputLot.amount allocation
    allocateInputs transaction registry currentBlockIndex rest sum split

def buildTransferPlan (transaction : Transaction) (registry : CoinLotRegistry)
    (currentBlockIndex : UInt64) : Except String CoinLotTransferPlan := do
  let validation ← validateTransferTransaction transaction registry
  match validation with
  | some reason => throw ("Cannot build CoinLotTransferPlan: " ++ reason)
  | none =>
    let totalDebit ← transaction.amount.plus transaction.fee
    let selectedInputLots ← selectInputLots transaction registry totalDebit
    let (collected, allocation) ← allocateInputs transaction registry currentBlockIndex
      selectedInputLots Amount.zero ⟨[], transaction.amount, transaction.fee, 0⟩
    if collected.rawUnits < totalDebit.rawUnits then
      .error "CoinLotTransferPlan collected less than required debit."
    else if allocation.remainingRecipientAmount.isPositive
        || allocation.remainingFeeAmount.isPositive then
      .error "CoinLotTransferPlan output allocation failed."
    else do
      let changeAmount ← collected.minus totalDebit
      let plan : CoinLotTransferPlan := ⟨transaction.id, transaction.fromAddress,
        transaction.toAddress, selectedInputLots.map (·.id), allocation.outputLots,
        transaction.amount, transaction.fee, changeAmount, collected⟩
      let valid ← plan.isValid
      if !valid then .error "Generated CoinLotTransferPlan is invalid." else return plan

--
-- Applying the plan
--

/-- A loop of mutations: it stops at the first exception and leaves what it has done. -/
def mutateAll {α : Type} (mutate : CoinLotRegistry → α → Except String CoinLotRegistry) :
    List α → CoinLotRegistry → Except String Unit × CoinLotRegistry
  | [], registry => (.ok (), registry)
  | item :: rest, registry =>
    match mutate registry item with
    | .error reason => (.error reason, registry)
    | .ok mutated => mutateAll mutate rest mutated

/-- The two loops of checks before the first mutation. -/
def checkBeforeApplication (registry : CoinLotRegistry) (fromAddress : String)
    (plan : CoinLotTransferPlan) : Except String Unit := do
  plan.inputLotIds.forM fun inputLotId =>
    match registry.verifySpendable inputLotId fromAddress with
    | some reason =>
      throw ("Input CoinLot became invalid before transfer application: " ++ reason)
    | none => pure ()
  plan.outputLots.forM fun outputLot =>
    if !outputLot.isValid then throw "Transfer output lot is invalid before application."
    else if registry.hasLot outputLot.id then
      throw "Transfer output lot already exists before application."
    else pure ()

/-- `applyTransfer`: how it ends, and the registry it leaves. -/
def applyTransfer (registry : CoinLotRegistry) (transaction : Transaction)
    (currentBlockIndex : UInt64) : Except String Unit × CoinLotRegistry :=
  match buildTransferPlan transaction registry currentBlockIndex with
  | .error reason => (.error reason, registry)
  | .ok plan =>
    match checkBeforeApplication registry transaction.fromAddress plan with
    | .error reason => (.error reason, registry)
    | .ok () =>
      match mutateAll (fun registry inputLotId =>
          registry.markSpent inputLotId transaction.fromAddress) plan.inputLotIds registry with
      | (.error reason, left) => (.error reason, left)
      | (.ok (), spent) => mutateAll CoinLotRegistry.addLot plan.outputLots spent

end CoinLotTransactionValidator

--
-- Amounts of lots
--

theorem Amount.plus_eq_ok {a b c : Amount} (h : a.plus b = .ok c) :
    c.rawUnits = a.rawUnits + b.rawUnits := by
  unfold Amount.plus at h
  split at h
  · cases h
  · rename_i sum hsum
    cases h
    exact Amount.add_eq_some hsum

theorem Amount.minus_eq_ok {a b c : Amount} (h : a.minus b = .ok c) :
    b.rawUnits ≤ a.rawUnits ∧ c.rawUnits = a.rawUnits - b.rawUnits := by
  unfold Amount.minus at h
  split at h
  · cases h
  · rename_i difference hdifference
    cases h
    exact Amount.sub_eq_some hdifference

theorem Amount.plus_ok {a b : Amount} (h : a.rawUnits + b.rawUnits ≤ maxRawUnits) :
    ∃ sum, a.plus b = .ok sum ∧ sum.rawUnits = a.rawUnits + b.rawUnits := by
  refine ⟨⟨a.rawUnits + b.rawUnits, h⟩, ?_, rfl⟩
  rw [Amount.plus, Amount.add, dif_pos h]

theorem Amount.minus_ok {a b : Amount} (h : b.rawUnits ≤ a.rawUnits) :
    ∃ difference, a.minus b = .ok difference ∧ difference.rawUnits = a.rawUnits - b.rawUnits := by
  refine ⟨⟨a.rawUnits - b.rawUnits, Nat.le_trans (Nat.sub_le _ _) a.inRange⟩, ?_, rfl⟩
  rw [Amount.minus, Amount.sub, if_neg (Nat.not_lt.mpr h)]

@[simp] theorem Amount.less_rawUnits (a b : Amount) :
    (a.less b).rawUnits = a.rawUnits - b.rawUnits := rfl

theorem Amount.isPositive_iff {a : Amount} : a.isPositive = true ↔ 0 < a.rawUnits := by
  rw [Amount.isPositive, decide_eq_true_eq]

/-- The amount of the lots that are counted. -/
def amountWhere (counted : CoinLot → Bool) (lots : List CoinLot) : Nat :=
  (lots.map fun lot => if counted lot then lot.amount.rawUnits else 0).sum

@[simp] theorem amountWhere_nil (counted : CoinLot → Bool) : amountWhere counted [] = 0 := rfl

@[simp] theorem amountWhere_cons (counted : CoinLot → Bool) (lot : CoinLot) (rest : List CoinLot) :
    amountWhere counted (lot :: rest)
      = (if counted lot then lot.amount.rawUnits else 0) + amountWhere counted rest := rfl

@[simp] theorem amountWhere_append (counted : CoinLot → Bool) (lots lots' : List CoinLot) :
    amountWhere counted (lots ++ lots') = amountWhere counted lots + amountWhere counted lots' := by
  simp [amountWhere]

namespace CoinLotRegistry

/-- The amount of the registry's lots that are counted. -/
def amountWhere (registry : CoinLotRegistry) (counted : CoinLot → Bool) : Nat :=
  Model.amountWhere counted (registry.lots.entries.map (·.2))

/-- The live amount of an origin: its available and its locked lots. -/
def liveOfOrigin (registry : CoinLotRegistry) (originMintRecordId : String) : Nat :=
  registry.amountWhere fun lot =>
    (lot.isAvailable || lot.isLockedForSecurity) && lot.originMintRecordId == originMintRecordId

/-- The available balance of an owner, as a number that does not overflow. -/
def availableOf (registry : CoinLotRegistry) (ownerAddress : String) : Nat :=
  registry.amountWhere fun lot => lot.ownerAddress == ownerAddress && lot.isAvailable

/-- `availableBalanceForOwner`; `none` where the addition throws. -/
def availableBalanceForOwner (registry : CoinLotRegistry) (ownerAddress : String) :
    Option Amount :=
  registry.totalWhere fun lot => lot.ownerAddress == ownerAddress && lot.isAvailable

variable {registry : CoinLotRegistry}

/-- A sum that the code can take is the amount of the lots. -/
theorem totalWhere_rawUnits {counted : CoinLot → Bool} {total : Amount}
    (h : registry.totalWhere counted = some total) :
    total.rawUnits = registry.amountWhere counted := by
  have hfold : ∀ (entries : List (String × CoinLot)) (start total : Amount),
      entries.foldlM (fun total entry =>
          if counted entry.2 then total.add entry.2.amount else some total) start = some total →
        total.rawUnits = start.rawUnits + Model.amountWhere counted (entries.map (·.2)) := by
    intro entries
    induction entries with
    | nil =>
      intro start total h
      cases h
      rfl
    | cons entry rest ih =>
      intro start total h
      rw [List.foldlM_cons] at h
      obtain ⟨sum, hsum, h⟩ := Option.bind_eq_some_iff.mp h
      rw [ih sum total h, List.map_cons, amountWhere_cons]
      split_ifs at hsum ⊢ with hcounted
      · rw [Amount.add_eq_some hsum, Nat.add_assoc]
      · cases hsum
        omega
  rw [hfold _ _ _ h]
  exact Nat.zero_add _

theorem availableBalanceForOwner_rawUnits {ownerAddress : String} {balance : Amount}
    (h : registry.availableBalanceForOwner ownerAddress = some balance) :
    balance.rawUnits = registry.availableOf ownerAddress :=
  totalWhere_rawUnits h

private theorem amountWhere_eq_of_perm {counted : CoinLot → Bool}
    {entries entries' : List (String × CoinLot)} (h : entries.Perm entries') :
    Model.amountWhere counted (entries.map (·.2))
      = Model.amountWhere counted (entries'.map (·.2)) := by
  simp only [Model.amountWhere, List.map_map]
  exact List.Perm.sum_eq (h.map _)

/-- Replacing a lot changes an amount by the new lot less the old one. -/
theorem amountWhere_replace {id : String} {old : CoinLot} (new : CoinLot)
    (h : registry.lots.find? id = some old) (counted : CoinLot → Bool) :
    (CoinLotRegistry.mk (registry.lots.insert id new)).amountWhere counted
        + (if counted old then old.amount.rawUnits else 0)
      = registry.amountWhere counted + (if counted new then new.amount.rawUnits else 0) := by
  rw [amountWhere, amountWhere, amountWhere_eq_of_perm (registry.lots.insert_perm id new),
    amountWhere_eq_of_perm (registry.lots.erase_perm h)]
  simp only [List.map_cons, amountWhere_cons]
  omega

/-- A new lot adds itself. -/
theorem amountWhere_new {id : String} (new : CoinLot) (h : registry.lots.find? id = none)
    (counted : CoinLot → Bool) :
    (CoinLotRegistry.mk (registry.lots.insert id new)).amountWhere counted
      = registry.amountWhere counted + (if counted new then new.amount.rawUnits else 0) := by
  rw [amountWhere, amountWhere, amountWhere_eq_of_perm (registry.lots.insert_perm id new),
    registry.lots.erase_of_find?_none h]
  simp only [List.map_cons, amountWhere_cons]
  omega

theorem isValid_iff :
    registry.isValid = true ↔
      ∀ {id lot}, registry.lots.find? id = some lot →
        id.isEmpty = false ∧ id = lot.id ∧ lot.isValid = true := by
  rw [isValid, List.all_eq_true]
  constructor
  · intro h id lot hfind
    have hentry := h (id, lot) (registry.lots.find?_eq_some_iff.mp hfind)
    obtain ⟨hempty, hentry⟩ := Guards.true_of_ite_false hentry
    obtain ⟨hid, hlot⟩ := Guards.true_of_ite_false hentry
    exact ⟨by simpa using hempty, by simpa using hid, hlot⟩
  · rintro h ⟨id, lot⟩ hmem
    obtain ⟨hempty, hid, hlot⟩ := h (registry.lots.find?_eq_some_iff.mpr hmem)
    subst hid
    simp [hempty, hlot]

/-- What a lot that may be spent is. -/
theorem verifySpendable_eq_none {id owner : String}
    (h : registry.verifySpendable id owner = none) :
    ∃ lot, registry.lots.find? id = some lot ∧ lot.isValid = true ∧ lot.ownerAddress = owner ∧
      lot.isAvailable = true := by
  rw [verifySpendable] at h
  split at h
  · cases h
  · split at h
    · cases h
    · rename_i lot hfind
      split_ifs at h with hvalid howner hmismatch hspendable
      exact ⟨lot, hfind, by simpa using hvalid, by simpa using hmismatch, by
        simpa [CoinLot.isSpendable, CoinLot.isAvailable] using hspendable⟩

/-- The lot after `markSpent`. -/
def spentLot (lot : CoinLot) : CoinLot := { lot with status := .spent, lockedUntilBlock := 0 }

theorem markSpent_ok {id owner : String} {lot : CoinLot}
    (h : registry.verifySpendable id owner = none) (hfind : registry.lots.find? id = some lot) :
    registry.markSpent id owner = .ok ⟨registry.lots.insert id (spentLot lot)⟩ := by
  obtain ⟨lot', hfind', -, -, havailable⟩ := verifySpendable_eq_none h
  obtain rfl : lot = lot' := Option.some.inj (hfind.symm.trans hfind')
  have hspendable : lot.isSpendable = true := havailable
  have hspent : lot.markSpent = .ok (spentLot lot) := by
    rw [CoinLot.markSpent, hspendable]
    rfl
  rw [markSpent, h]
  simp only [CoinLotRegistry.lot, hfind]
  show (lot.markSpent >>= fun spent => pure (CoinLotRegistry.mk (registry.lots.insert id spent)))
    = _
  rw [hspent]
  rfl

theorem addLot_ok {lot : CoinLot} (hvalid : lot.isValid = true)
    (hfresh : registry.lots.find? lot.id = none) :
    registry.addLot lot = .ok ⟨registry.lots.insert lot.id lot⟩ := by
  have hid : lot.id.isEmpty = false := by
    unfold CoinLot.isValid at hvalid
    exact by simpa using (Guards.true_of_ite_false hvalid).1
  have hnone : registry.hasLot lot.id = false := by
    rw [hasLot, SortedMap.contains, hfresh]
    rfl
  rw [addLot, hvalid, hid, hnone]
  rfl

end CoinLotRegistry
namespace CoinLotTransactionValidator

variable {transaction : Transaction} {registry : CoinLotRegistry} {currentBlockIndex : UInt64}

--
-- Cutting the inputs
--

/-- The lots of one owner. -/
def ofOwner (ownerAddress : String) (lot : CoinLot) : Bool := lot.ownerAddress == ownerAddress

/-- The lots of one origin. -/
def ofOrigin (originMintRecordId : String) (lot : CoinLot) : Bool :=
  lot.originMintRecordId == originMintRecordId

/-- `amount` where the owner is the one named. -/
def owed (ownerAddress named : String) (amount : Nat) : Nat :=
  if named = ownerAddress then amount else 0

/-- What a run of the planning loop over inputs worth `consumed` (by origin) adds: lots of the
same origins, worth as much in all; what the recipient and the pool get is no longer
owed; the rest is change for the sender. -/
structure Cut (transaction : Transaction) (consumed : String → Nat) (total : Nat)
    (before after : Allocation) : Prop where
  added : ∃ lots change,
    after.outputLots = before.outputLots ++ lots ∧
    (∀ origin, amountWhere (ofOrigin origin) lots = consumed origin) ∧
    (∀ owner, amountWhere (ofOwner owner) lots
        + owed owner transaction.toAddress after.remainingRecipientAmount.rawUnits
        + owed owner feePoolAddress after.remainingFeeAmount.rawUnits
      = owed owner transaction.toAddress before.remainingRecipientAmount.rawUnits
        + owed owner feePoolAddress before.remainingFeeAmount.rawUnits
        + owed owner transaction.fromAddress change) ∧
    total + after.remainingRecipientAmount.rawUnits + after.remainingFeeAmount.rawUnits
      = before.remainingRecipientAmount.rawUnits + before.remainingFeeAmount.rawUnits + change

theorem Cut.refl (allocation : Allocation) :
    Cut transaction (fun _ => 0) 0 allocation allocation :=
  ⟨[], 0, by simp, fun _ => rfl, fun owner => by simp [owed], by omega⟩

theorem owed_add (owner named : String) (a b : Nat) :
    owed owner named (a + b) = owed owner named a + owed owner named b := by
  unfold owed
  split <;> omega

/-- One stretch of the loop after another. -/
theorem Cut.trans {consumed consumed' : String → Nat} {total total' : Nat}
    {first second third : Allocation} (h : Cut transaction consumed total first second)
    (h' : Cut transaction consumed' total' second third) :
    Cut transaction (fun origin => consumed origin + consumed' origin) (total + total')
      first third := by
  obtain ⟨lots, change, houtputs, horigin, howner, htotal⟩ := h
  obtain ⟨lots', change', houtputs', horigin', howner', htotal'⟩ := h'
  refine ⟨lots ++ lots', change + change', ?_, fun origin => ?_, fun owner => ?_, by omega⟩
  · rw [houtputs', houtputs, List.append_assoc]
  · rw [amountWhere_append, horigin, horigin']
  · have hone := howner owner
    have htwo := howner' owner
    rw [amountWhere_append, owed_add]
    omega

/-- A created output: a new lot of the input's origin. -/
theorem createOutput_ok {inputLot : CoinLot} {allocation created : Allocation}
    {ownerAddress outputKind : String} {amount : Amount} (hpositive : amount.isPositive = true)
    (h : createOutput transaction registry currentBlockIndex inputLot allocation ownerAddress amount
      outputKind = .ok created) :
    ∃ lot, lot.originMintRecordId = inputLot.originMintRecordId ∧
      lot.ownerAddress = ownerAddress ∧ lot.amount = amount ∧
      created.outputLots = allocation.outputLots ++ [lot] ∧
      created.remainingRecipientAmount = allocation.remainingRecipientAmount ∧
      created.remainingFeeAmount = allocation.remainingFeeAmount := by
  rw [createOutput, if_neg (by simp [hpositive])] at h
  obtain ⟨-, h⟩ := Guards.ok_of_ite_error h
  obtain ⟨-, h⟩ := Guards.ok_of_ite_error h
  rw [← Except.ok.inj h]
  exact ⟨⟨createTransferOutputCoinLotId transaction inputLot outputKind allocation.outputIndex,
    inputLot.originMintRecordId, ownerAddress, amount, .available, currentBlockIndex, 0,
    transaction.timestamp⟩, rfl, rfl, rfl, rfl, rfl, rfl⟩

theorem minAmount_rawUnits (left right : Amount) :
    (minAmount left right).rawUnits = min left.rawUnits right.rawUnits := by
  unfold minAmount
  split <;> omega

/-- One output, charged to what the recipient or the pool is owed, or to the change. -/
theorem Cut.output {lot : CoinLot} {origin : String} {before after : Allocation} (change : Nat)
    (horigin : lot.originMintRecordId = origin)
    (houtputs : after.outputLots = before.outputLots ++ [lot])
    (howner : ∀ owner, owed owner lot.ownerAddress lot.amount.rawUnits
        + owed owner transaction.toAddress after.remainingRecipientAmount.rawUnits
        + owed owner feePoolAddress after.remainingFeeAmount.rawUnits
      = owed owner transaction.toAddress before.remainingRecipientAmount.rawUnits
        + owed owner feePoolAddress before.remainingFeeAmount.rawUnits
        + owed owner transaction.fromAddress change)
    (htotal : lot.amount.rawUnits + after.remainingRecipientAmount.rawUnits
        + after.remainingFeeAmount.rawUnits
      = before.remainingRecipientAmount.rawUnits + before.remainingFeeAmount.rawUnits + change) :
    Cut transaction (fun origin' => owed origin' origin lot.amount.rawUnits) lot.amount.rawUnits
      before after := by
  refine ⟨[lot], change, houtputs, fun origin' => ?_, fun owner => ?_, htotal⟩
  · simp [ofOrigin, owed, horigin]
  · have hlot : amountWhere (ofOwner owner) [lot]
        = owed owner lot.ownerAddress lot.amount.rawUnits := by
      simp [ofOwner, owed]
    rw [hlot]
    exact howner owner

/-- **One input** is cut into outputs of its own origin, worth what was left of it. -/
theorem splitInput_spec {inputLot : CoinLot} {remaining : Amount} {allocation final : Allocation}
    (h : splitInput transaction registry currentBlockIndex inputLot remaining allocation
      = .ok final) :
    Cut transaction (fun origin => owed origin inputLot.originMintRecordId remaining.rawUnits)
      remaining.rawUnits allocation final := by
  -- Induction on what is left of the input: every round takes a positive part of it.
  induction hsize : remaining.rawUnits using Nat.strong_induction_on
    generalizing remaining allocation with
  | _ size ih =>
    subst hsize
    -- One round, and the rounds that follow it.
    have hthen : ∀ {part : Nat} {next : Allocation}, 0 < part → part ≤ remaining.rawUnits →
        Cut transaction (fun origin => owed origin inputLot.originMintRecordId part) part
          allocation next →
        Cut transaction
          (fun origin => owed origin inputLot.originMintRecordId (remaining.rawUnits - part))
          (remaining.rawUnits - part) next final →
        Cut transaction (fun origin => owed origin inputLot.originMintRecordId remaining.rawUnits)
          remaining.rawUnits allocation final := by
      intro part next _ hle hone hrest
      have hboth := hone.trans hrest
      simp only [← owed_add, Nat.add_sub_cancel' hle] at hboth
      exact hboth
    rw [splitInput] at h
    by_cases hinput : remaining.isPositive = true
    swap
    · rw [dif_neg hinput] at h
      cases h
      have hzero : remaining.rawUnits = 0 := by
        rw [Amount.isPositive_iff] at hinput
        omega
      have hnone : (fun origin => owed origin inputLot.originMintRecordId 0) = fun _ => 0 := by
        funext origin
        simp [owed]
      rw [hzero, hnone]
      exact Cut.refl _
    rw [dif_pos hinput] at h
    have hpos := Amount.isPositive_iff.mp hinput
    by_cases hrecipient : allocation.remainingRecipientAmount.isPositive = true
    · rw [dif_pos hrecipient] at h
      have hrecipientPos := Amount.isPositive_iff.mp hrecipient
      have hmin := minAmount_rawUnits remaining allocation.remainingRecipientAmount
      simp only at h
      split at h
      · cases h
      · rename_i created hcreate
        obtain ⟨lot, horigin, howner, hamount, houtputs, hrecipientLeft, hfeeLeft⟩ :=
          createOutput_ok (Amount.isPositive_iff.mpr (by omega)) hcreate
        have hrest := ih _ (by rw [Amount.less_rawUnits]; omega) h rfl
        rw [Amount.less_rawUnits] at hrest
        refine hthen (by omega) (by omega) ?_ hrest
        rw [← hamount] at hmin ⊢
        refine Cut.output 0 horigin houtputs (fun owner => ?_) ?_
        · simp only [howner, hfeeLeft, Amount.less_rawUnits]
          unfold owed
          split_ifs <;> omega
        · simp only [hfeeLeft, Amount.less_rawUnits]
          omega
    rw [dif_neg hrecipient] at h
    by_cases hfee : allocation.remainingFeeAmount.isPositive = true
    · rw [dif_pos hfee] at h
      have hfeePos := Amount.isPositive_iff.mp hfee
      have hmin := minAmount_rawUnits remaining allocation.remainingFeeAmount
      simp only at h
      split at h
      · cases h
      · rename_i created hcreate
        obtain ⟨lot, horigin, howner, hamount, houtputs, hrecipientLeft, hfeeLeft⟩ :=
          createOutput_ok (Amount.isPositive_iff.mpr (by omega)) hcreate
        have hrest := ih _ (by rw [Amount.less_rawUnits]; omega) h rfl
        rw [Amount.less_rawUnits] at hrest
        refine hthen (by omega) (by omega) ?_ hrest
        rw [← hamount] at hmin ⊢
        refine Cut.output 0 horigin houtputs (fun owner => ?_) ?_
        · simp only [howner, hrecipientLeft, Amount.less_rawUnits]
          unfold owed
          split_ifs <;> omega
        · simp only [hrecipientLeft, Amount.less_rawUnits]
          omega
    · rw [dif_neg hfee] at h
      obtain ⟨lot, horigin, howner, hamount, houtputs, hrecipientLeft, hfeeLeft⟩ :=
        createOutput_ok hinput h
      rw [← hamount]
      refine Cut.output lot.amount.rawUnits horigin houtputs (fun owner => ?_) ?_
      · simp only [howner, hrecipientLeft, hfeeLeft]
        omega
      · simp only [hrecipientLeft, hfeeLeft]
        omega

/-- **All inputs**, one after the other. -/
theorem allocateInputs_spec {inputs : List CoinLot} {collected total : Amount}
    {allocation final : Allocation}
    (h : allocateInputs transaction registry currentBlockIndex inputs collected allocation
      = .ok (total, final)) :
    total.rawUnits = collected.rawUnits + amountWhere (fun _ => true) inputs ∧
      Cut transaction (fun origin => amountWhere (ofOrigin origin) inputs)
        (amountWhere (fun _ => true) inputs) allocation final := by
  induction inputs generalizing collected allocation with
  | nil =>
    cases h
    exact ⟨rfl, Cut.refl _⟩
  | cons inputLot rest ih =>
    rw [allocateInputs] at h
    obtain ⟨sum, hsum, h⟩ := Guards.ok_of_bind h
    obtain ⟨split, hsplit, h⟩ := Guards.ok_of_bind h
    obtain ⟨htotal, hrest⟩ := ih h
    have hfirst := splitInput_spec hsplit
    refine ⟨?_, ?_⟩
    · rw [htotal, Amount.plus_eq_ok hsum, amountWhere_cons, if_pos rfl, Nat.add_assoc]
    · have hboth := hfirst.trans hrest
      have hconsumed : (fun origin => amountWhere (ofOrigin origin) (inputLot :: rest))
          = fun origin => owed origin inputLot.originMintRecordId inputLot.amount.rawUnits
              + amountWhere (ofOrigin origin) rest := by
        funext origin
        simp [ofOrigin, owed]
      rw [hconsumed, amountWhere_cons, if_pos rfl]
      exact hboth

--
-- The selected inputs
--

/-- A lot that the sender may spend. -/
structure Spendable (registry : CoinLotRegistry) (fromAddress : String) (lot : CoinLot) : Prop where
  found : registry.lots.find? lot.id = some lot
  available : lot.isAvailable = true
  owner : lot.ownerAddress = fromAddress

theorem selectExplicit_spec (hvalid : registry.isValid = true) {fromAddress : String}
    {ids seen : List String} {collected total : Amount} {lots : List CoinLot}
    (h : selectExplicit registry fromAddress ids seen collected = .ok (lots, total)) :
    ∀ lot ∈ lots, Spendable registry fromAddress lot := by
  induction ids generalizing seen collected lots total with
  | nil =>
    cases h
    intro lot hlot
    cases hlot
  | cons id rest ih =>
    rw [selectExplicit] at h
    obtain ⟨-, h⟩ := Guards.ok_of_ite_error h
    split at h
    · cases h
    · rename_i hspendable
      obtain ⟨first, hfirst, h⟩ := Guards.ok_of_bind h
      obtain ⟨sum, -, h⟩ := Guards.ok_of_bind h
      obtain ⟨⟨others, total'⟩, hothers, h⟩ := Guards.ok_of_bind h
      cases h
      obtain ⟨found, hfound, -, howner, havailable⟩ :=
        CoinLotRegistry.verifySpendable_eq_none hspendable
      obtain rfl : found = first := by
        rw [CoinLotRegistry.lot, hfound] at hfirst
        exact Except.ok.inj hfirst
      obtain ⟨-, hid, -⟩ := CoinLotRegistry.isValid_iff.mp hvalid hfound
      subst hid
      intro lot hlot
      rcases List.mem_cons.mp hlot with rfl | hlot
      · exact ⟨hfound, havailable, howner⟩
      · exact ih hothers lot hlot

theorem selectImplicit_spec {fromAddress : String} {totalDebit : Amount} {all : List CoinLot}
    {collected total : Amount} {lots : List CoinLot}
    (h : selectImplicit fromAddress totalDebit all collected = .ok (lots, total)) :
    ∀ lot ∈ lots, lot ∈ all ∧ lot.isAvailable = true ∧ lot.ownerAddress = fromAddress := by
  induction all generalizing collected lots total with
  | nil =>
    cases h
    intro lot hlot
    cases hlot
  | cons first rest ih =>
    rw [selectImplicit] at h
    split at h
    · intro lot hlot
      obtain ⟨hmem, hlot⟩ := ih h lot hlot
      exact ⟨List.mem_cons_of_mem _ hmem, hlot⟩
    · rename_i hskip
      simp only [Bool.or_eq_true, bne_iff_ne, ne_eq, not_or, not_not, Bool.not_eq_true',
        Bool.not_eq_false] at hskip
      obtain ⟨sum, -, h⟩ := Guards.ok_of_bind h
      have hfirst : first ∈ first :: rest ∧ first.isAvailable = true ∧
          first.ownerAddress = fromAddress :=
        ⟨List.mem_cons_self, hskip.2, hskip.1⟩
      split at h
      · cases h
        intro lot hlot
        obtain rfl := List.mem_singleton.mp hlot
        exact hfirst
      · obtain ⟨⟨others, total'⟩, hothers, h⟩ := Guards.ok_of_bind h
        cases h
        intro lot hlot
        rcases List.mem_cons.mp hlot with rfl | hlot
        · exact hfirst
        · obtain ⟨hmem, hlot⟩ := ih hothers lot hlot
          exact ⟨List.mem_cons_of_mem _ hmem, hlot⟩

/-- **Selected lots** are spendable lots of the sender, in either mode. -/
theorem selectInputLots_spec (hvalid : registry.isValid = true) {totalDebit : Amount}
    {selected : List CoinLot} (h : selectInputLots transaction registry totalDebit = .ok selected) :
    ∀ lot ∈ selected, Spendable registry transaction.fromAddress lot := by
  rw [selectInputLots] at h
  split at h
  · obtain ⟨⟨lots, collected⟩, hlots, h⟩ := Guards.ok_of_bind h
    have hspec := selectExplicit_spec hvalid hlots
    simp only at h
    split at h
    · cases h
    · cases h
      exact hspec
  · obtain ⟨⟨lots, collected⟩, hlots, h⟩ := Guards.ok_of_bind h
    have hspec := selectImplicit_spec hlots
    simp only at h
    split at h
    · cases h
    · cases h
      intro lot hlot
      obtain ⟨hmem, havailable, howner⟩ := hspec lot hlot
      obtain ⟨⟨id, lot'⟩, hentry, rfl⟩ := List.mem_map.mp hmem
      have hfind := registry.lots.find?_eq_some_iff.mpr hentry
      obtain ⟨-, hid, -⟩ := CoinLotRegistry.isValid_iff.mp hvalid hfind
      subst hid
      exact ⟨hfind, havailable, howner⟩

/-- A check that would have ended the function with another answer was passed. -/
theorem passed_check {α : Type} {c : Prop} [Decidable c] {a b : α} {rest : Except String α}
    (hne : a ≠ b) (h : (if c then pure a else rest) = .ok b) : ¬ c ∧ rest = .ok b := by
  by_cases hc : c
  · rw [if_pos hc] at h
    exact absurd (Except.ok.inj h) hne
  · rw [if_neg hc] at h
    exact ⟨hc, h⟩

theorem isValid_of_validateTransferTransaction
    (h : validateTransferTransaction transaction registry = .ok none) :
    registry.isValid = true := by
  unfold validateTransferTransaction at h
  iterate 8 obtain ⟨-, h⟩ := passed_check (Option.some_ne_none _) h
  obtain ⟨hvalid, -⟩ := passed_check (Option.some_ne_none _) h
  simpa using hvalid

/-- What the plan's own test establishes. -/
theorem of_plan_isValid {plan : CoinLotTransferPlan} (h : plan.isValid = .ok true) :
    plan.inputLotIds.Nodup ∧ (plan.outputLots.map (·.id)).Nodup ∧
      ∀ lot ∈ plan.outputLots, lot.isValid = true ∧ lot.isAvailable = true := by
  unfold CoinLotTransferPlan.isValid at h
  iterate 9 obtain ⟨-, h⟩ := passed_check Bool.false_ne_true h
  obtain ⟨totalDebit, -, h⟩ := Guards.ok_of_bind h
  obtain ⟨accounted, -, h⟩ := Guards.ok_of_bind h
  obtain ⟨-, h⟩ := passed_check Bool.false_ne_true h
  obtain ⟨totalOutput, -, h⟩ := Guards.ok_of_bind h
  obtain ⟨-, h⟩ := passed_check Bool.false_ne_true h
  obtain ⟨hinputs, h⟩ := passed_check Bool.false_ne_true h
  have houtputs := Except.ok.inj h
  simp only [Bool.or_eq_true, Bool.not_eq_true', decide_eq_false_iff_not, not_or,
    not_not] at hinputs
  simp only [Bool.and_eq_true, List.all_eq_true, decide_eq_true_eq] at houtputs
  exact ⟨hinputs.2, houtputs.2, houtputs.1⟩

/-- **An accepted plan.** It spends distinct spendable lots of the sender, and creates distinct
available lots: of the same origins, with the amount for the recipient, the fee for
the pool and the rest for the sender. -/
theorem buildTransferPlan_spec {plan : CoinLotTransferPlan}
    (h : buildTransferPlan transaction registry currentBlockIndex = .ok plan) :
    registry.isValid = true ∧
    ∃ totalDebit selected change,
      transaction.amount.plus transaction.fee = .ok totalDebit ∧
      selectInputLots transaction registry totalDebit = .ok selected ∧
      (∀ lot ∈ selected, Spendable registry transaction.fromAddress lot) ∧
      plan.inputLotIds = selected.map (·.id) ∧ plan.inputLotIds.Nodup ∧
      (plan.outputLots.map (·.id)).Nodup ∧
      (∀ lot ∈ plan.outputLots, lot.isValid = true ∧ lot.isAvailable = true) ∧
      (∀ origin, amountWhere (ofOrigin origin) plan.outputLots
        = amountWhere (ofOrigin origin) selected) ∧
      (∀ owner, amountWhere (ofOwner owner) plan.outputLots
        = owed owner transaction.toAddress transaction.amount.rawUnits
          + owed owner feePoolAddress transaction.fee.rawUnits
          + owed owner transaction.fromAddress change) ∧
      amountWhere (fun _ => true) selected
        = transaction.amount.rawUnits + transaction.fee.rawUnits + change := by
  rw [buildTransferPlan] at h
  obtain ⟨validation, hvalidation, h⟩ := Guards.ok_of_bind h
  cases validation with
  | some reason => cases h
  | none =>
    have hvalid := isValid_of_validateTransferTransaction hvalidation
    obtain ⟨totalDebit, hdebit, h⟩ := Guards.ok_of_bind h
    obtain ⟨selected, hselected, h⟩ := Guards.ok_of_bind h
    obtain ⟨⟨collected, allocation⟩, hallocate, h⟩ := Guards.ok_of_bind h
    simp only at h
    obtain ⟨-, h⟩ := Guards.ok_of_ite_error h
    obtain ⟨hallocated, h⟩ := Guards.ok_of_ite_error h
    obtain ⟨changeAmount, -, h⟩ := Guards.ok_of_bind h
    obtain ⟨valid, hplan, h⟩ := Guards.ok_of_bind h
    obtain ⟨haccepted, h⟩ := Guards.ok_of_ite_error h
    obtain rfl : valid = true := by simpa using haccepted
    cases h
    obtain ⟨hinputs, houtputs, hlots⟩ := of_plan_isValid hplan
    obtain ⟨-, ⟨lots, change, hadded, horigin, howner, htotal⟩⟩ := allocateInputs_spec hallocate
    rw [List.nil_append] at hadded
    simp only [Bool.or_eq_true, Amount.isPositive_iff, not_or, Nat.not_lt, Nat.le_zero]
      at hallocated
    obtain ⟨hrecipient, hfee⟩ := hallocated
    refine ⟨hvalid, totalDebit, selected, change, hdebit, hselected,
      selectInputLots_spec hvalid hselected, rfl, hinputs, houtputs, hlots, ?_, ?_, ?_⟩
    · intro origin
      rw [hadded]
      exact horigin origin
    · intro owner
      have hone := howner owner
      rw [hrecipient, hfee] at hone
      rw [hadded]
      simpa [owed] using hone
    · rw [hrecipient, hfee] at htotal
      exact htotal

--
-- The two mutation loops
--

theorem verifySpendable_congr {registry' : CoinLotRegistry} {id owner : String}
    (h : registry.lots.find? id = registry'.lots.find? id) :
    registry.verifySpendable id owner = registry'.verifySpendable id owner := by
  rw [CoinLotRegistry.verifySpendable, CoinLotRegistry.verifySpendable, h]

/-- The registry after the inputs were marked: they are spent, the rest is as it was. -/
structure MarkedSpent (registry : CoinLotRegistry) (selected : List CoinLot)
    (spent : CoinLotRegistry) : Prop where
  frame : ∀ {id}, id ∉ selected.map (·.id) → spent.lots.find? id = registry.lots.find? id
  marked : ∀ lot ∈ selected, spent.lots.find? lot.id = some (CoinLotRegistry.spentLot lot)
  amount : ∀ counted : CoinLot → Bool, (∀ lot, counted (CoinLotRegistry.spentLot lot) = false) →
    spent.amountWhere counted + amountWhere counted selected = registry.amountWhere counted

/-- **The first loop does not throw** on distinct lots that were checked before it. -/
theorem markSpent_all {owner : String} {selected : List CoinLot}
    (hnodup : (selected.map (·.id)).Nodup)
    (hspendable : ∀ lot ∈ selected, registry.lots.find? lot.id = some lot ∧
      registry.verifySpendable lot.id owner = none) :
    ∃ spent, mutateAll (fun registry id => registry.markSpent id owner) (selected.map (·.id)) registry
        = (.ok (), spent) ∧ MarkedSpent registry selected spent := by
  induction selected generalizing registry with
  | nil => exact ⟨registry, rfl, fun _ => rfl, by simp, by simp⟩
  | cons lot rest ih =>
    obtain ⟨hfind, hverify⟩ := hspendable lot List.mem_cons_self
    rw [List.map_cons] at hnodup
    obtain ⟨hfresh, hnodup⟩ := List.nodup_cons.mp hnodup
    have hother : ∀ other ∈ rest, lot.id ≠ other.id := fun other hmem heq =>
      hfresh (heq ▸ List.mem_map_of_mem hmem)
    have hkept : ∀ other ∈ rest,
        (registry.lots.insert lot.id (CoinLotRegistry.spentLot lot)).find? other.id
          = registry.lots.find? other.id := fun other hmem =>
      registry.lots.find?_insert_of_ne _ (hother other hmem)
    obtain ⟨spent, hrun, hspent⟩ :=
      @ih ⟨registry.lots.insert lot.id (CoinLotRegistry.spentLot lot)⟩ hnodup (by
        intro other hmem
        obtain ⟨hfound, hcheck⟩ := hspendable other (List.mem_cons_of_mem _ hmem)
        refine ⟨by rw [hkept other hmem, hfound], ?_⟩
        rw [← hcheck]
        exact verifySpendable_congr (hkept other hmem))
    refine ⟨spent, ?_, ⟨fun {id} hid => ?_, fun other hmem => ?_, fun counted hcounted => ?_⟩⟩
    · rw [List.map_cons, mutateAll, CoinLotRegistry.markSpent_ok hverify hfind]
      exact hrun
    · rw [List.map_cons, List.mem_cons, not_or] at hid
      rw [hspent.frame hid.2]
      exact registry.lots.find?_insert_of_ne _ (Ne.symm hid.1)
    · rcases List.mem_cons.mp hmem with rfl | hmem
      · rw [hspent.frame hfresh]
        exact registry.lots.find?_insert_self _ _
      · exact hspent.marked other hmem
    · have hstep := CoinLotRegistry.amountWhere_replace (CoinLotRegistry.spentLot lot) hfind counted
      rw [hcounted lot, if_neg Bool.false_ne_true] at hstep
      have hrest := hspent.amount counted hcounted
      rw [amountWhere_cons]
      omega

/-- The registry after the outputs were added. -/
structure Added (registry : CoinLotRegistry) (outputs : List CoinLot)
    (final : CoinLotRegistry) : Prop where
  frame : ∀ {id}, id ∉ outputs.map (·.id) → final.lots.find? id = registry.lots.find? id
  added : ∀ lot ∈ outputs, final.lots.find? lot.id = some lot
  amount : ∀ counted, final.amountWhere counted
    = registry.amountWhere counted + amountWhere counted outputs

/-- **The second loop does not throw** on valid lots with new and distinct ids. -/
theorem addLot_all {outputs : List CoinLot} (hnodup : (outputs.map (·.id)).Nodup)
    (hnew : ∀ lot ∈ outputs, lot.isValid = true ∧ registry.lots.find? lot.id = none) :
    ∃ final, mutateAll CoinLotRegistry.addLot outputs registry = (.ok (), final) ∧
      Added registry outputs final := by
  induction outputs generalizing registry with
  | nil => exact ⟨registry, rfl, fun _ => rfl, by simp, by simp⟩
  | cons lot rest ih =>
    obtain ⟨hvalid, hfind⟩ := hnew lot List.mem_cons_self
    rw [List.map_cons] at hnodup
    obtain ⟨hfresh, hnodup⟩ := List.nodup_cons.mp hnodup
    have hother : ∀ other ∈ rest, lot.id ≠ other.id := fun other hmem heq =>
      hfresh (heq ▸ List.mem_map_of_mem hmem)
    obtain ⟨final, hrun, hadded⟩ := @ih ⟨registry.lots.insert lot.id lot⟩ hnodup (by
      intro other hmem
      obtain ⟨hother', hnone⟩ := hnew other (List.mem_cons_of_mem _ hmem)
      exact ⟨hother', by rw [registry.lots.find?_insert_of_ne _ (hother other hmem), hnone]⟩)
    refine ⟨final, ?_, ⟨fun {id} hid => ?_, fun other hmem => ?_, fun counted => ?_⟩⟩
    · rw [mutateAll, CoinLotRegistry.addLot_ok hvalid hfind]
      exact hrun
    · rw [List.map_cons, List.mem_cons, not_or] at hid
      rw [hadded.frame hid.2]
      exact registry.lots.find?_insert_of_ne _ (Ne.symm hid.1)
    · rcases List.mem_cons.mp hmem with rfl | hmem
      · rw [hadded.frame hfresh]
        exact registry.lots.find?_insert_self _ _
      · exact hadded.added other hmem
    · rw [hadded.amount, CoinLotRegistry.amountWhere_new lot hfind, amountWhere_cons]
      omega

/-- What the checks before the mutations establish. -/
theorem of_checkBeforeApplication {fromAddress : String} {plan : CoinLotTransferPlan}
    (h : checkBeforeApplication registry fromAddress plan = .ok ()) :
    (∀ id ∈ plan.inputLotIds, registry.verifySpendable id fromAddress = none) ∧
      ∀ lot ∈ plan.outputLots, registry.lots.find? lot.id = none := by
  rw [checkBeforeApplication] at h
  obtain ⟨_, hinputs, houtputs⟩ := Guards.ok_of_bind h
  refine ⟨fun id hmem => ?_, fun lot hmem => ?_⟩
  · have hcheck := Guards.forM_eq_ok.mp hinputs id hmem
    split at hcheck
    · cases hcheck
    · assumption
  · have hcheck := Guards.forM_eq_ok.mp houtputs lot hmem
    obtain ⟨-, hcheck⟩ := Guards.ok_of_ite_error hcheck
    obtain ⟨hnone, -⟩ := Guards.ok_of_ite_error hcheck
    rw [CoinLotRegistry.hasLot, SortedMap.contains, Option.not_isSome_iff_eq_none] at hnone
    exact hnone

--
-- The transfer
--

/-- What a transfer that spends the lots `selected` does to a registry. -/
structure TransferEffect (registry : CoinLotRegistry) (transaction : Transaction)
    (selected : List CoinLot) (final : CoinLotRegistry) : Prop where
  spendable : ∀ lot ∈ selected, Spendable registry transaction.fromAddress lot
  liveByOrigin : ∀ origin, final.liveOfOrigin origin = registry.liveOfOrigin origin
  balances : ∀ owner, final.availableOf owner
      + owed owner transaction.fromAddress (transaction.amount.rawUnits + transaction.fee.rawUnits)
    = registry.availableOf owner + owed owner transaction.toAddress transaction.amount.rawUnits
      + owed owner feePoolAddress transaction.fee.rawUnits
  newlySpent : ∀ id, id ∈ selected.map (·.id) ↔
    ∃ lot lot', registry.lots.find? id = some lot ∧ lot.isSpent = false ∧
      final.lots.find? id = some lot' ∧ lot'.isSpent = true
  frame : ∀ {id lot}, registry.lots.find? id = some lot → id ∉ selected.map (·.id) →
    final.lots.find? id = some lot
  valid : final.isValid = true

/-- A predicate on owner or origin counts an available lot as the plain one does. -/
theorem amountWhere_congr {counted counted' : CoinLot → Bool} {lots : List CoinLot}
    (h : ∀ lot ∈ lots, counted lot = counted' lot) :
    amountWhere counted lots = amountWhere counted' lots := by
  unfold amountWhere
  exact congrArg List.sum (List.map_congr_left (fun lot hmem => by rw [h lot hmem]))

/-- A transfer that ran to its end: the lots `selected` were spendable and are now `spent`, the
`outputs` are new lots of the same origins, with `change` for the sender. -/
structure TransferRun (registry : CoinLotRegistry) (transaction : Transaction)
    (selected : List CoinLot) (change : Nat) (outputs : List CoinLot)
    (spent final : CoinLotRegistry) : Prop where
  valid : registry.isValid = true
  spendable : ∀ lot ∈ selected, Spendable registry transaction.fromAddress lot
  outputsOk : ∀ lot ∈ outputs, lot.isValid = true ∧ lot.isAvailable = true
  fresh : ∀ lot ∈ outputs, registry.lots.find? lot.id = none
  origin : ∀ origin, amountWhere (ofOrigin origin) outputs
    = amountWhere (ofOrigin origin) selected
  owner : ∀ owner, amountWhere (ofOwner owner) outputs
    = owed owner transaction.toAddress transaction.amount.rawUnits
      + owed owner feePoolAddress transaction.fee.rawUnits
      + owed owner transaction.fromAddress change
  total : amountWhere (fun _ => true) selected
    = transaction.amount.rawUnits + transaction.fee.rawUnits + change
  marked : MarkedSpent registry selected spent
  added : Added spent outputs final

/-- What a transfer that ran to its end did to the registry. -/
theorem transferEffect_of_run {selected outputs : List CoinLot} {change : Nat}
    {spent final : CoinLotRegistry}
    (h : TransferRun registry transaction selected change outputs spent final) :
    TransferEffect registry transaction selected final := by
  obtain ⟨hvalid, hspendable, houtputs, hfresh, horigin, howner, htotal, hspent, hadded⟩ := h
  have hselectedKey : ∀ {id}, id ∈ selected.map (·.id) → id ∉ outputs.map (·.id) := by
    intro id hid hout
    obtain ⟨lot, hlot, rfl⟩ := List.mem_map.mp hid
    obtain ⟨output, houtput, heq⟩ := List.mem_map.mp hout
    have hnone := hfresh output houtput
    rw [heq, (hspendable lot hlot).found] at hnone
    cases hnone
  have hspentFind : ∀ lot ∈ selected,
      final.lots.find? lot.id = some (CoinLotRegistry.spentLot lot) := by
    intro lot hlot
    rw [hadded.frame (hselectedKey (List.mem_map_of_mem hlot))]
    exact hspent.marked lot hlot
  have hframe : ∀ {id lot}, registry.lots.find? id = some lot → id ∉ selected.map (·.id) →
      final.lots.find? id = some lot := by
    intro id lot hfind hid
    have hout : id ∉ outputs.map (·.id) := by
      intro hout
      obtain ⟨output, houtput, rfl⟩ := List.mem_map.mp hout
      rw [hfresh output houtput] at hfind
      cases hfind
    rw [hadded.frame hout, hspent.frame hid]
    exact hfind
  refine ⟨hspendable, fun origin => ?_, fun owner => ?_, fun id => ⟨fun hid => ?_, ?_⟩, hframe, ?_⟩
  · -- Spent lots are not live, so the selected lots leave the count and the outputs enter it.
    have hout := hspent.amount (fun lot =>
      (lot.isAvailable || lot.isLockedForSecurity) && lot.originMintRecordId == origin)
      (fun lot => rfl)
    have hselected : amountWhere (fun lot => (lot.isAvailable || lot.isLockedForSecurity)
        && lot.originMintRecordId == origin) selected = amountWhere (ofOrigin origin) selected :=
      amountWhere_congr (fun lot hlot => by simp [(hspendable lot hlot).available, ofOrigin])
    have hcreated : amountWhere (fun lot => (lot.isAvailable || lot.isLockedForSecurity)
        && lot.originMintRecordId == origin) outputs
        = amountWhere (ofOrigin origin) outputs :=
      amountWhere_congr (fun lot hlot => by simp [(houtputs lot hlot).2, ofOrigin])
    rw [hselected] at hout
    rw [CoinLotRegistry.liveOfOrigin, CoinLotRegistry.liveOfOrigin, hadded.amount, hcreated,
      horigin]
    exact hout
  · have hout := hspent.amount (fun lot => lot.ownerAddress == owner && lot.isAvailable)
      (fun lot => by simp [CoinLotRegistry.spentLot, CoinLot.isAvailable])
    have hselected : amountWhere (fun lot => lot.ownerAddress == owner && lot.isAvailable) selected
        = owed owner transaction.fromAddress (amountWhere (fun _ => true) selected) := by
      unfold owed
      split_ifs with heq
      · exact amountWhere_congr (fun lot hlot => by
          simp [(hspendable lot hlot).available, (hspendable lot hlot).owner, heq])
      · have hnone : amountWhere (fun lot => lot.ownerAddress == owner && lot.isAvailable) selected
            = amountWhere (fun _ => false) selected :=
          amountWhere_congr (fun lot hlot => by simp [(hspendable lot hlot).owner, heq])
        rw [hnone]
        simp [amountWhere]
    have hcreated : amountWhere (fun lot => lot.ownerAddress == owner && lot.isAvailable)
        outputs = amountWhere (ofOwner owner) outputs :=
      amountWhere_congr (fun lot hlot => by simp [(houtputs lot hlot).2, ofOwner])
    rw [hselected, htotal, owed_add] at hout
    rw [CoinLotRegistry.availableOf, CoinLotRegistry.availableOf, hadded.amount, hcreated, howner]
    omega
  · obtain ⟨lot, hlot, rfl⟩ := List.mem_map.mp hid
    refine ⟨lot, _, (hspendable lot hlot).found, ?_, hspentFind lot hlot, rfl⟩
    have havailable := (hspendable lot hlot).available
    simp only [CoinLot.isAvailable, beq_iff_eq] at havailable
    simp [CoinLot.isSpent, havailable]
  · rintro ⟨lot, lot', hfind, hlive, hfinal, hgone⟩
    by_contra hid
    rw [hframe hfind hid] at hfinal
    cases hfinal
    rw [hlive] at hgone
    cases hgone
  · rw [CoinLotRegistry.isValid_iff]
    intro id lot hfind
    by_cases hout : id ∈ outputs.map (·.id)
    · obtain ⟨output, houtput, rfl⟩ := List.mem_map.mp hout
      obtain rfl : output = lot := Option.some.inj ((hadded.added output houtput).symm.trans hfind)
      have hok := (houtputs output houtput).1
      refine ⟨?_, rfl, hok⟩
      unfold CoinLot.isValid at hok
      simpa using (Guards.true_of_ite_false hok).1
    · rw [hadded.frame hout] at hfind
      by_cases hid : id ∈ selected.map (·.id)
      · obtain ⟨old, hold, rfl⟩ := List.mem_map.mp hid
        obtain rfl := Option.some.inj ((hspent.marked old hold).symm.trans hfind)
        obtain ⟨hempty, -, hok⟩ := CoinLotRegistry.isValid_iff.mp hvalid (hspendable old hold).found
        refine ⟨hempty, rfl, ?_⟩
        simp only [CoinLot.isValid, CoinLotRegistry.spentLot] at hok ⊢
        grind
      · rw [hspent.frame hid] at hfind
        exact CoinLotRegistry.isValid_iff.mp hvalid hfind

/-- A plan that passes the checks is carried out. -/
theorem applyTransfer_of_checked {plan : CoinLotTransferPlan}
    (hbuild : buildTransferPlan transaction registry currentBlockIndex = .ok plan)
    (hcheck : checkBeforeApplication registry transaction.fromAddress plan = .ok ()) :
    ∃ totalDebit selected change outputs spent final,
      applyTransfer registry transaction currentBlockIndex = (.ok (), final) ∧
      transaction.amount.plus transaction.fee = .ok totalDebit ∧
      selectInputLots transaction registry totalDebit = .ok selected ∧
      TransferRun registry transaction selected change outputs spent final := by
  obtain ⟨hvalid, totalDebit, selected, change, hdebit, hselected, hspendable, hids, hnodup,
    hnodupOut, houtputs, horigin, howner, htotal⟩ := buildTransferPlan_spec hbuild
  obtain ⟨hinputs, hfresh⟩ := of_checkBeforeApplication hcheck
  rw [hids] at hinputs hnodup
  obtain ⟨spent, hrunSpent, hspent⟩ := markSpent_all hnodup (fun lot hlot =>
    ⟨(hspendable lot hlot).found, hinputs lot.id (List.mem_map_of_mem hlot)⟩)
  obtain ⟨final, hrunAdded, hadded⟩ := @addLot_all spent plan.outputLots hnodupOut (by
    intro lot hlot
    refine ⟨(houtputs lot hlot).1, ?_⟩
    rw [hspent.frame]
    · exact hfresh lot hlot
    · intro hid
      obtain ⟨input, hinput, heq⟩ := List.mem_map.mp hid
      have hnone := hfresh lot hlot
      rw [← heq, (hspendable input hinput).found] at hnone
      cases hnone)
  refine ⟨totalDebit, selected, change, plan.outputLots, spent, final, ?_, hdebit, hselected,
    hvalid, hspendable, houtputs, hfresh, horigin, howner, htotal, hspent, hadded⟩
  rw [applyTransfer, hbuild]
  simp only [hcheck, hids, hrunSpent]
  exact hrunAdded

/-- **How a transfer ends.** It throws before its first mutation, or runs to its end. -/
theorem applyTransfer_run (registry : CoinLotRegistry) (transaction : Transaction)
    (currentBlockIndex : UInt64) :
    (∃ reason, applyTransfer registry transaction currentBlockIndex = (.error reason, registry)) ∨
    (∃ totalDebit selected change outputs spent final,
      applyTransfer registry transaction currentBlockIndex = (.ok (), final) ∧
      transaction.amount.plus transaction.fee = .ok totalDebit ∧
      selectInputLots transaction registry totalDebit = .ok selected ∧
      TransferRun registry transaction selected change outputs spent final) := by
  cases hbuild : buildTransferPlan transaction registry currentBlockIndex with
  | error reason =>
    rw [applyTransfer, hbuild]
    exact Or.inl ⟨reason, rfl⟩
  | ok plan =>
    cases hcheck : checkBeforeApplication registry transaction.fromAddress plan with
    | error reason =>
      rw [applyTransfer, hbuild]
      simp only [hcheck]
      exact Or.inl ⟨reason, rfl⟩
    | ok => exact Or.inr (applyTransfer_of_checked hbuild hcheck)

/-- **A transfer.** Either it throws and the registry is as it was, or it spends exactly the
selected lots: every origin keeps its live amount, the sender pays amount and fee, the
recipient gets the amount and the pool the fee, and every other lot stays. -/
theorem applyTransfer_effect (registry : CoinLotRegistry) (transaction : Transaction)
    (currentBlockIndex : UInt64) :
    (∃ reason, applyTransfer registry transaction currentBlockIndex = (.error reason, registry)) ∨
    (∃ totalDebit selected final,
      applyTransfer registry transaction currentBlockIndex = (.ok (), final) ∧
      transaction.amount.plus transaction.fee = .ok totalDebit ∧
      selectInputLots transaction registry totalDebit = .ok selected ∧
      TransferEffect registry transaction selected final) := by
  rcases applyTransfer_run registry transaction currentBlockIndex with hthrows |
    ⟨totalDebit, selected, change, outputs, spent, final, hrun, hdebit, hselected, htransfer⟩
  · exact Or.inl hthrows
  · exact Or.inr ⟨totalDebit, selected, final, hrun, hdebit, hselected,
      transferEffect_of_run htransfer⟩

/-- The fee pool sends three units to `bob` for a fee of one. -/
def poolTransfer : Transaction :=
  ⟨"tx", .transfer, feePoolAddress, "bob", ⟨3, by decide⟩, ⟨1, by decide⟩, 1, 10, [], ""⟩

/-- **The pool as a sender.** Its fee returns to it, so it pays the amount only. -/
theorem pool_pays_no_fee :
    (CoinLotRegistry.oneLot feePoolAddress).isValid = true ∧
      (applyTransfer (CoinLotRegistry.oneLot feePoolAddress) poolTransfer 3).1.toBool = true ∧
      (applyTransfer (CoinLotRegistry.oneLot feePoolAddress) poolTransfer 3).2.availableOf
            poolTransfer.fromAddress
          + (poolTransfer.amount.rawUnits + poolTransfer.fee.rawUnits)
        ≠ (CoinLotRegistry.oneLot feePoolAddress).availableOf poolTransfer.fromAddress := by
  refine ⟨by decide, by decide +kernel, by decide +kernel⟩

end CoinLotTransactionValidator

end Nodo.Model
