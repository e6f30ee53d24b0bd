import Mathlib.Algebra.BigOperators.Group.Finset.Piecewise
import Nodo.Lib.ThrowingState
import Nodo.Model.CoinLotTransfer
import Nodo.Model.Validators

/-!
# Nodo — the ledger state and its supply

`core/State.cpp`, `core/Account.cpp` and the records that create coins
(`economics/MintRecord.cpp`, `economics/GenesisRewardRecord.cpp`). The state holds the
supply, the accounts, the records, the coin lots and the applied transaction ids in
separate fields; every operation on lots goes through a registry that is rebuilt from
them and written back.

An operation is a method that may throw and leaves what it has written. A run is a list of
calls; a call that throws is skipped.

## Results

* `Audited` — the invariant that ties the fields together.
* `applyMintRecord_audited` and its siblings — each operation keeps it.
* `run_audited` — it holds after every run.
* `state_auditable` — what the invariant says about the state's own queries.
-/

namespace Nodo.Model

open ThrowingState

--
-- Accounts (core/Account.cpp)
--

structure Account where
  address : String
  nextNonce : UInt64
  createdAtBlock : UInt64
  lastUpdatedAtBlock : UInt64

namespace Account

def create (address : String) (createdAtBlock : UInt64) : Account :=
  ⟨address, 1, createdAtBlock, createdAtBlock⟩

def isValid (account : Account) : Bool :=
  if account.address.isEmpty then false
  else if account.nextNonce == 0 then false
  else if account.lastUpdatedAtBlock < account.createdAtBlock then false
  else true

def canApplyNonce (account : Account) (nonce : UInt64) : Bool :=
  if nonce == 0 then false else nonce == account.nextNonce

def markTransactionApplied (account : Account) (nonce blockIndex : UInt64) :
    Except String Account :=
  if !account.canApplyNonce nonce then .error "Invalid account nonce rejected."
  else if account.nextNonce == uint64Max then .error "Account nonce overflow."
  else if blockIndex < account.lastUpdatedAtBlock then
    .error "Account update cannot move backwards in block history."
  else .ok { account with
    nextNonce := account.nextNonce + 1
    lastUpdatedAtBlock := blockIndex }

end Account

--
-- Records that create coins (economics/)
--

/-- The fields of a `MintRecord`; its reason and epoch are not read here. -/
structure MintRecord where
  id : String
  authorizationId : String
  recipientAddress : String
  amount : Amount
  sourceBlockHash : String
  timestamp : Int

/-- `rejectionReason().empty()`. -/
def MintRecord.isValid (record : MintRecord) : Bool :=
  if record.id.isEmpty then false
  else if record.authorizationId.isEmpty then false
  else if record.recipientAddress.isEmpty then false
  else if !record.amount.isPositive then false
  else if record.sourceBlockHash.isEmpty then false
  else if record.timestamp ≤ 0 then false
  else true

inductive GenesisRewardReason
  | unknown
  | networkProtection
  | bootstrapProtection
  | storageProtection
  | challengeResponse
  deriving DecidableEq

def genesisRewardReasonToString : GenesisRewardReason → String
  | .unknown => "UNKNOWN"
  | .networkProtection => "NETWORK_PROTECTION"
  | .bootstrapProtection => "BOOTSTRAP_PROTECTION"
  | .storageProtection => "STORAGE_PROTECTION"
  | .challengeResponse => "CHALLENGE_RESPONSE"

structure GenesisRewardRecord where
  epoch : UInt64
  validatorAddress : String
  amount : Amount
  reason : GenesisRewardReason
  workSummaryHash : String
  policyVersion : String
  acceptedBlockHash : String
  timestamp : Int

namespace GenesisRewardRecord

def isValid (record : GenesisRewardRecord) : Bool :=
  if record.epoch == 0 then false
  else if record.validatorAddress.isEmpty then false
  else if !record.amount.isPositive then false
  else if record.reason == .unknown then false
  else if record.workSummaryHash.isEmpty then false
  else if record.policyVersion.isEmpty then false
  else if record.acceptedBlockHash.isEmpty then false
  else if record.timestamp ≤ 0 then false
  else true

def serialize (record : GenesisRewardRecord) : String :=
  "GenesisRewardRecord\x7bepoch=" ++ toString record.epoch
    ++ ";validator=" ++ record.validatorAddress
    ++ ";amountRaw=" ++ toString record.amount.rawUnits
    ++ ";reason=" ++ genesisRewardReasonToString record.reason
    ++ ";workSummaryHash=" ++ record.workSummaryHash
    ++ ";policyVersion=" ++ record.policyVersion
    ++ ";acceptedBlockHash=" ++ record.acceptedBlockHash
    ++ ";timestamp=" ++ toString record.timestamp ++ "\x7d"

variable (hashBytes : String → String)

/-- `deterministicId`: the hash of the tagged text, as a C string. -/
def deterministicId (record : GenesisRewardRecord) : Except String String :=
  if !record.isValid then .error "Invalid GenesisRewardRecord has no deterministic id."
  else .ok (hashBytes (cString ("NODO_GENESIS_REWARD_RECORD_V1|" ++ record.serialize)))

def createRewardCoinLot (record : GenesisRewardRecord) (createdAtBlock : UInt64) :
    Except String CoinLot :=
  if !record.isValid then .error "Invalid GenesisRewardRecord cannot create a coin lot."
  else do
    let rewardId ← record.deterministicId hashBytes
    return ⟨"reward_lot_" ++ rewardId, rewardId, record.validatorAddress, record.amount,
      .available, createdAtBlock, 0, record.timestamp⟩

end GenesisRewardRecord

--
-- Lots outside a registry
--

namespace CoinLot

/-- `unlockIfMature`. -/
def unlockIfMature (lot : CoinLot) (currentBlock : UInt64) : CoinLot :=
  if lot.status != .lockedForSecurity then lot
  else if lot.lockedUntilBlock ≤ currentBlock then
    { lot with status := .available, lockedUntilBlock := 0 }
  else lot

/-- `lockForSecurity`. -/
def lockForSecurity (lot : CoinLot) (lockedUntilBlock : UInt64) : Except String CoinLot :=
  if !lot.isAvailable then .error "Only available coin lots can be locked."
  else if lockedUntilBlock ≤ lot.createdAtBlock then
    .error "Lock expiration block must be greater than creation block."
  else .ok { lot with
    status := .lockedForSecurity
    lockedUntilBlock := lockedUntilBlock }

/-- The lots that count as supply. -/
def isLive (lot : CoinLot) : Bool := lot.isAvailable || lot.isLockedForSecurity

end CoinLot

namespace CoinLotRegistry

def fromCoinLots (lots : List CoinLot) : Except String CoinLotRegistry :=
  lots.foldlM addLot ⟨SortedMap.empty⟩

/-- `lockForSecurity`. -/
def lockForSecurity (registry : CoinLotRegistry) (lotId expectedOwner : String)
    (lockedUntilBlock : UInt64) : Except String CoinLotRegistry :=
  match registry.verifySpendable lotId expectedOwner with
  | some reason => .error ("CoinLot cannot be locked: " ++ reason)
  | none => do
    let lot ← registry.lot lotId
    let locked ← lot.lockForSecurity lockedUntilBlock
    return ⟨registry.lots.insert lotId locked⟩

end CoinLotRegistry

--
-- The state (core/State.cpp)
--

structure State where
  currentBlockIndex : UInt64
  totalSupply : Amount
  accounts : List Account
  mintRecords : List MintRecord
  genesisRewardRecords : List GenesisRewardRecord
  coinLots : List CoinLot
  appliedTransactionIds : List String

namespace State

/-- `State()`. -/
def empty : State := ⟨0, Amount.zero, [], [], [], [], []⟩

/-- A method of the state. -/
abbrev Method := EStateM String State

def findAccount (state : State) (address : String) : Option Account :=
  state.accounts.find? (·.address == address)

def isTransactionAlreadyApplied (state : State) (transactionId : String) : Bool :=
  state.appliedTransactionIds.any (· == transactionId)

def hasLegacyMintRecord (state : State) (mintRecordId : String) : Bool :=
  state.mintRecords.any (·.id == mintRecordId)

/-- `balanceOf`. -/
def balanceOf (state : State) (ownerAddress : String) : Except String Amount :=
  state.coinLots.foldlM (fun balance lot =>
    if lot.ownerAddress != ownerAddress then .ok balance
    else if lot.isLive then balance.plus lot.amount
    else .ok balance) Amount.zero

/-- The sum over records that `isSupplyAuditable` takes; it refuses an invalid record. -/
def addRecords {α : Type} (isValid : α → Bool) (amount : α → Amount) :
    List α → Amount → Except String (Option Amount)
  | [], total => .ok (some total)
  | record :: rest, total =>
    if !isValid record then .ok none
    else do
      let sum ← total.plus (amount record)
      addRecords isValid amount rest sum

/-- The sum over the live lots, which refuses an invalid lot. -/
def addLots : List CoinLot → Amount → Except String (Option Amount)
  | [], total => .ok (some total)
  | lot :: rest, total =>
    if !lot.isValid then .ok none
    else if lot.isLive then do
      let sum ← total.plus lot.amount
      addLots rest sum
    else addLots rest total

def isSupplyAuditable (state : State) : Except String Bool := do
  match ← addRecords MintRecord.isValid MintRecord.amount state.mintRecords Amount.zero with
  | none => return false
  | some minted =>
    match ← addRecords GenesisRewardRecord.isValid GenesisRewardRecord.amount
        state.genesisRewardRecords minted with
    | none => return false
    | some created =>
      if created != state.totalSupply then return false
      else if !state.accounts.all Account.isValid then return false
      else match ← addLots state.coinLots Amount.zero with
        | none => return false
        | some active => return active == state.totalSupply

variable (hashBytes : String → String)

/-- `hasGenesisRewardRecord`; every record held is valid, so its id does not throw. -/
def hasGenesisRewardRecord (state : State) (genesisRewardId : String) : Except String Bool :=
  state.genesisRewardRecords.foldlM (fun found record =>
    if found then .ok true
    else do
      let id ← record.deterministicId hashBytes
      return id == genesisRewardId) false

def advanceBlock : Method Unit :=
  modify fun state =>
    { state with
      currentBlockIndex := state.currentBlockIndex + 1
      coinLots := state.coinLots.map (·.unlockIfMature (state.currentBlockIndex + 1)) }

def ensureAccountExists (address : String) : Method Unit := do
  refuseIf address.isEmpty "Account address cannot be empty."
  let state ← get
  match state.findAccount address with
  | some _ => return ()
  | none =>
    let account := Account.create address state.currentBlockIndex
    refuseIf (!account.isValid) "Generated Account is invalid."
    set { state with accounts := state.accounts ++ [account] }

def coinLotRegistry : Method CoinLotRegistry := do
  let state ← get
  call (CoinLotRegistry.fromCoinLots state.coinLots)

def replaceCoinLotsFromRegistry (registry : CoinLotRegistry) : Method Unit := do
  refuseIf (!registry.isValid) "Cannot replace State CoinLots from invalid registry."
  modify fun state => { state with coinLots := registry.lots.entries.map (·.2) }

/-- The part that both creations of coins share: account, lot, registry. -/
def createCoinLot (ownerAddress : String) (lot : CoinLot) : Method Unit := do
  ensureAccountExists ownerAddress
  let registry ← coinLotRegistry
  let extended ← call (registry.addLot lot)
  replaceCoinLotsFromRegistry extended

def applyMintRecord (mintRecord : MintRecord) : Method Unit := do
  refuseIf (!mintRecord.isValid) "Invalid MintRecord rejected by State."
  let state ← get
  refuseIf (state.hasLegacyMintRecord mintRecord.id) "Duplicated MintRecord id rejected."
  let coinLot : CoinLot := ⟨"coinlot_from_" ++ mintRecord.id, mintRecord.id,
    mintRecord.recipientAddress, mintRecord.amount, .available, state.currentBlockIndex, 0,
    mintRecord.timestamp⟩
  refuseIf (!coinLot.isValid) "Generated legacy mint CoinLot is invalid."
  createCoinLot mintRecord.recipientAddress coinLot
  modify fun state => { state with mintRecords := state.mintRecords ++ [mintRecord] }
  let state ← get
  let supply ← call (state.totalSupply.plus mintRecord.amount)
  set { state with totalSupply := supply }

def applyGenesisRewardRecord (record : GenesisRewardRecord) : Method Unit := do
  refuseIf (!record.isValid) "Invalid GenesisRewardRecord rejected by State."
  let rewardId ← call (record.deterministicId hashBytes)
  let state ← get
  let duplicate ← call (state.hasGenesisRewardRecord hashBytes rewardId)
  refuseIf duplicate "Duplicated GenesisRewardRecord id rejected."
  let rewardLot ← call (record.createRewardCoinLot hashBytes state.currentBlockIndex)
  refuseIf (!rewardLot.isValid) "Generated GenesisReward CoinLot is invalid."
  refuseIf (rewardLot.originMintRecordId != rewardId)
    "Generated GenesisReward CoinLot origin mismatch."
  createCoinLot record.validatorAddress rewardLot
  modify fun state =>
    { state with genesisRewardRecords := state.genesisRewardRecords ++ [record] }
  let state ← get
  let supply ← call (state.totalSupply.plus record.amount)
  set { state with totalSupply := supply }

/-- The first account of this address, updated in its place. -/
def updateAccount (updated : Account) : List Account → List Account
  | [] => []
  | account :: rest =>
    if account.address == updated.address then updated :: rest
    else account :: updateAccount updated rest

/-- The accounts that a transfer pays into. -/
def ensureReceivers (transaction : Transaction) : Method Unit := do
  ensureAccountExists transaction.toAddress
  if transaction.fee.isPositive then ensureAccountExists feePoolAddress else pure ()

/-- The rest of a transfer once the lots have moved: accounts, nonce, lots, id. -/
def recordTransfer (transaction : Transaction) (transferred : CoinLotRegistry) : Method Unit := do
  ensureReceivers transaction
  let state ← get
  match state.findAccount transaction.fromAddress with
  | none => throw "Sender account disappeared during transfer application."
  | some senderAccount =>
    let updated ← call
      (senderAccount.markTransactionApplied transaction.nonce state.currentBlockIndex)
    set { state with accounts := updateAccount updated state.accounts }
    replaceCoinLotsFromRegistry transferred
    modify fun state =>
      { state with appliedTransactionIds := state.appliedTransactionIds ++ [transaction.id] }

/-- `applyTransferTransaction`, which is `applyTransferTransactionUsingRegistry`. -/
def applyTransferTransaction (transaction : Transaction) : Method Unit := do
  refuseIf (transaction.type != .transfer)
    "Only TRANSFER transactions can be applied by this method."
  refuseIf transaction.id.isEmpty "Transaction id cannot be empty."
  refuseIf (transaction.fromAddress.isEmpty || transaction.toAddress.isEmpty)
    "Transfer addresses cannot be empty."
  refuseIf (transaction.fromAddress == transaction.toAddress)
    "Transfer sender and recipient cannot be the same."
  refuseIf (!transaction.amount.isPositive) "Transfer amount must be positive."
  refuseIf transaction.fee.isNegative "Transfer fee cannot be negative."
  refuseIf (transaction.nonce == 0) "Transfer nonce must be positive."
  let state ← get
  refuseIf (state.isTransactionAlreadyApplied transaction.id)
    "Duplicate transaction application rejected."
  match state.findAccount transaction.fromAddress with
  | none => throw "Sender account does not exist."
  | some senderAccount =>
    refuseIf (!senderAccount.canApplyNonce transaction.nonce) "Invalid sender nonce rejected."
    let registry ← coinLotRegistry
    let validation ← call
      (CoinLotTransactionValidator.validateTransferTransaction transaction registry)
    match validation with
    | some reason => throw ("Transfer rejected by CoinLotRegistry: " ++ reason)
    | none =>
      let (outcome, transferred) := CoinLotTransactionValidator.applyTransfer registry transaction
        state.currentBlockIndex
      call outcome
      recordTransfer transaction transferred

def lockCoinLotForSecurity (coinLotId : String) (lockedUntilBlock : UInt64) : Method Unit := do
  let registry ← coinLotRegistry
  let targetLot ← call (registry.lot coinLotId)
  let locked ← call
    (registry.lockForSecurity coinLotId targetLot.ownerAddress lockedUntilBlock)
  replaceCoinLotsFromRegistry locked

--
-- Runs
--

/-- The operations of the state. -/
inductive Operation
  | applyMintRecord (mintRecord : MintRecord)
  | applyGenesisRewardRecord (record : GenesisRewardRecord)
  | applyTransferTransaction (transaction : Transaction)
  | lockCoinLotForSecurity (coinLotId : String) (lockedUntilBlock : UInt64)
  | advanceBlock

def Operation.method : Operation → Method Unit
  | .applyMintRecord mintRecord => State.applyMintRecord mintRecord
  | .applyGenesisRewardRecord record => State.applyGenesisRewardRecord hashBytes record
  | .applyTransferTransaction transaction => State.applyTransferTransaction transaction
  | .lockCoinLotForSecurity coinLotId lockedUntilBlock =>
    State.lockCoinLotForSecurity coinLotId lockedUntilBlock
  | .advanceBlock => State.advanceBlock

/-- The transfer of a call, if it is one. -/
def Operation.transfers : Operation → List Transaction
  | .applyTransferTransaction transaction => [transaction]
  | _ => []

/-- One call of a run: the state and the transfers applied so far. A call that throws is
skipped. -/
def performOrSkip (run : State × List Transaction) (operation : Operation) : State × List Transaction :=
  match operation.method hashBytes run.1 with
  | .ok _ state => (state, run.2 ++ operation.transfers)
  | .error _ _ => run

/-- A run from the empty state. -/
def runOperations (operations : List Operation) : State × List Transaction :=
  operations.foldl (performOrSkip hashBytes) (empty, [])

end State

--
-- Amounts by key
--

/-- An amount is the sum of its parts, one for each key. -/
theorem amountWhere_by_key {counted : CoinLot → Bool} (key : CoinLot → String)
    {keys : Finset String} {lots : List CoinLot}
    (h : ∀ lot ∈ lots, counted lot = true → key lot ∈ keys) :
    amountWhere counted lots
      = ∑ k ∈ keys, amountWhere (fun lot => key lot == k && counted lot) lots := by
  induction lots with
  | nil => simp
  | cons lot rest ih =>
    simp only [amountWhere_cons, Finset.sum_add_distrib]
    rw [← ih (fun other hmem => h other (List.mem_cons_of_mem _ hmem))]
    congr 1
    cases hcounted : counted lot with
    | false => simp
    | true =>
      have hmem := h lot List.mem_cons_self hcounted
      simp only [Bool.and_true, beq_iff_eq, if_true]
      rw [Finset.sum_ite_eq, if_pos hmem]

namespace CoinLotTransactionValidator

variable {registry : CoinLotRegistry} {transaction : Transaction} {selected outputs : List CoinLot}
  {change : Nat} {spent final : CoinLotRegistry}

/-- The outputs are worth what the inputs were. -/
theorem TransferRun.total_eq
    (h : TransferRun registry transaction selected change outputs spent final) :
    amountWhere (fun _ => true) outputs = amountWhere (fun _ => true) selected := by
  have hpart : ∀ lots : List CoinLot, lots = outputs ∨ lots = selected →
      amountWhere (fun _ => true) lots
        = ∑ origin ∈ ((outputs ++ selected).map (·.originMintRecordId)).toFinset,
            amountWhere (ofOrigin origin) lots := by
    intro lots hlots
    rw [amountWhere_by_key (fun lot => lot.originMintRecordId)]
    · simp only [Bool.and_true]
      rfl
    · intro lot hlot _
      rw [List.mem_toFinset]
      refine List.mem_map_of_mem (List.mem_append.mpr ?_)
      rcases hlots with rfl | rfl
      · exact Or.inl hlot
      · exact Or.inr hlot
  rw [hpart outputs (Or.inl rfl), hpart selected (Or.inr rfl)]
  exact Finset.sum_congr rfl (fun origin _ => h.origin origin)

/-- A transfer keeps the live amount. -/
theorem TransferRun.live
    (h : TransferRun registry transaction selected change outputs spent final) :
    final.amountWhere CoinLot.isLive = registry.amountWhere CoinLot.isLive := by
  have hspent := h.marked.amount CoinLot.isLive (fun lot => rfl)
  have hselected : amountWhere CoinLot.isLive selected = amountWhere (fun _ => true) selected :=
    amountWhere_congr (fun lot hlot => by simp [CoinLot.isLive, (h.spendable lot hlot).available])
  have houtputs : amountWhere CoinLot.isLive outputs = amountWhere (fun _ => true) outputs :=
    amountWhere_congr (fun lot hlot => by simp [CoinLot.isLive, (h.outputsOk lot hlot).2])
  rw [h.added.amount, houtputs, h.total_eq, ← hselected]
  exact hspent

theorem amount_pos_of_isValid {lot : CoinLot} (h : lot.isValid = true) :
    0 < lot.amount.rawUnits := by
  unfold CoinLot.isValid at h
  obtain ⟨-, h⟩ := Guards.true_of_ite_false h
  obtain ⟨-, h⟩ := Guards.true_of_ite_false h
  obtain ⟨-, h⟩ := Guards.true_of_ite_false h
  obtain ⟨hpositive, -⟩ := Guards.true_of_ite_false h
  exact Amount.isPositive_iff.mp (by simpa using hpositive)

/-- A counted lot is part of the amount. -/
theorem amount_le_amountWhere {counted : CoinLot → Bool} {lot : CoinLot} {lots : List CoinLot}
    (hmem : lot ∈ lots) (hcounted : counted lot = true) :
    lot.amount.rawUnits ≤ amountWhere counted lots := by
  refine List.le_sum_of_mem (List.mem_map.mpr ⟨lot, hmem, ?_⟩)
  rw [if_pos hcounted]

/-- The owners after a transfer: those before, the recipient, and the pool if there is a fee. -/
theorem TransferRun.owners
    (h : TransferRun registry transaction selected change outputs spent final) {id : String}
    {lot : CoinLot} (hfind : final.lots.find? id = some lot) :
    (∃ id' lot', registry.lots.find? id' = some lot' ∧ lot'.ownerAddress = lot.ownerAddress) ∨
      lot.ownerAddress = transaction.fromAddress ∨ lot.ownerAddress = transaction.toAddress ∨
      (lot.ownerAddress = feePoolAddress ∧ transaction.fee.isPositive = true) := by
  by_cases hout : id ∈ outputs.map (·.id)
  · obtain ⟨output, houtput, rfl⟩ := List.mem_map.mp hout
    obtain rfl : output = lot := Option.some.inj ((h.added.added output houtput).symm.trans hfind)
    have hpos := amount_pos_of_isValid (h.outputsOk output houtput).1
    have hle := amount_le_amountWhere houtput
      (show ofOwner output.ownerAddress output = true by simp [ofOwner])
    rw [h.owner output.ownerAddress] at hle
    by_cases hto : transaction.toAddress = output.ownerAddress
    · exact Or.inr (Or.inr (Or.inl hto.symm))
    by_cases hfrom : transaction.fromAddress = output.ownerAddress
    · exact Or.inr (Or.inl hfrom.symm)
    by_cases hpool : feePoolAddress = output.ownerAddress
    · refine Or.inr (Or.inr (Or.inr ⟨hpool.symm, Amount.isPositive_iff.mpr ?_⟩))
      simp only [owed, hto, hfrom, hpool, if_false, if_true] at hle
      omega
    · simp only [owed, hto, hfrom, hpool, if_false] at hle
      omega
  · rw [h.added.frame hout] at hfind
    by_cases hid : id ∈ selected.map (·.id)
    · obtain ⟨old, hold, rfl⟩ := List.mem_map.mp hid
      obtain rfl := Option.some.inj ((h.marked.marked old hold).symm.trans hfind)
      exact Or.inr (Or.inl (h.spendable old hold).owner)
    · rw [h.marked.frame hid] at hfind
      exact Or.inl ⟨id, lot, hfind, rfl⟩

end CoinLotTransactionValidator

--
-- The lots of a state and their registry
--

theorem foldlM_of_mutateAll {mutate : CoinLotRegistry → CoinLot → Except String CoinLotRegistry}
    {lots : List CoinLot} {registry final : CoinLotRegistry}
    (h : CoinLotTransactionValidator.mutateAll mutate lots registry = (.ok (), final)) :
    lots.foldlM mutate registry = .ok final := by
  induction lots generalizing registry with
  | nil =>
    rw [CoinLotTransactionValidator.mutateAll, Prod.mk.injEq] at h
    rw [List.foldlM_nil, h.2]
    rfl
  | cons lot rest ih =>
    rw [CoinLotTransactionValidator.mutateAll] at h
    rw [List.foldlM_cons]
    cases hlot : mutate registry lot with
    | error reason =>
      rw [hlot] at h
      cases h
    | ok mutated =>
      rw [hlot] at h
      exact ih h

theorem CoinLot.id_nonempty {lot : CoinLot} (h : lot.isValid = true) : lot.id.isEmpty = false := by
  unfold CoinLot.isValid at h
  simpa using (Guards.true_of_ite_false h).1

/-- Lots that make a registry: valid, with distinct ids. -/
structure LotsOk (lots : List CoinLot) : Prop where
  valid : ∀ lot ∈ lots, lot.isValid = true
  unique : (lots.map (·.id)).Nodup

/-- A registry that holds exactly these lots. -/
structure HoldsLots (registry : CoinLotRegistry) (lots : List CoinLot) : Prop where
  valid : registry.isValid = true
  mem : ∀ {id lot}, registry.lots.find? id = some lot → lot ∈ lots
  amount : ∀ counted, registry.amountWhere counted = amountWhere counted lots

/-- **The registry of a state.** Building it does not throw and loses nothing. -/
theorem fromCoinLots_ok {lots : List CoinLot} (h : LotsOk lots) :
    ∃ registry, CoinLotRegistry.fromCoinLots lots = .ok registry ∧ HoldsLots registry lots := by
  obtain ⟨registry, hrun, hadded⟩ :=
    @CoinLotTransactionValidator.addLot_all ⟨SortedMap.empty⟩ lots h.unique
      (fun lot hlot => ⟨h.valid lot hlot, rfl⟩)
  have hmem : ∀ {id lot}, registry.lots.find? id = some lot → lot ∈ lots ∧ lot.id = id := by
    intro id lot hfind
    by_cases hid : id ∈ lots.map (·.id)
    · obtain ⟨lot', hlot', rfl⟩ := List.mem_map.mp hid
      obtain rfl := Option.some.inj ((hadded.added lot' hlot').symm.trans hfind)
      exact ⟨hlot', rfl⟩
    · rw [hadded.frame hid] at hfind
      cases hfind
  refine ⟨registry, foldlM_of_mutateAll hrun, ?_, fun hfind => (hmem hfind).1, fun counted => ?_⟩
  · rw [CoinLotRegistry.isValid_iff]
    intro id lot hfind
    obtain ⟨hlot, rfl⟩ := hmem hfind
    exact ⟨CoinLot.id_nonempty (h.valid lot hlot), rfl, h.valid lot hlot⟩
  · rw [hadded.amount]
    exact Nat.zero_add _

/-- What a valid registry writes back. -/
theorem lotsOk_of_isValid {registry : CoinLotRegistry} (h : registry.isValid = true) :
    LotsOk (registry.lots.entries.map (·.2)) := by
  have hentry : ∀ entry ∈ registry.lots.entries, entry.1 = entry.2.id ∧ entry.2.isValid = true := by
    rintro ⟨id, lot⟩ hmem
    obtain ⟨-, hid, hvalid⟩ := CoinLotRegistry.isValid_iff.mp h
      (registry.lots.find?_eq_some_iff.mpr hmem)
    exact ⟨hid, hvalid⟩
  constructor
  · intro lot hlot
    obtain ⟨entry, hmem, rfl⟩ := List.mem_map.mp hlot
    exact (hentry entry hmem).2
  · rw [List.map_map]
    have hkeys : registry.lots.entries.map ((·.id) ∘ (·.2)) = registry.lots.keys :=
      List.map_congr_left (fun entry hmem => (hentry entry hmem).1.symm)
    rw [hkeys]
    exact registry.lots.keys_nodup

/-- `addLot` that did not throw: the lot is valid and its id is new. -/
theorem CoinLotRegistry.of_addLot {registry extended : CoinLotRegistry} {lot : CoinLot}
    (h : registry.addLot lot = .ok extended) :
    lot.isValid = true ∧ registry.lots.find? lot.id = none ∧
      extended = ⟨registry.lots.insert lot.id lot⟩ := by
  unfold CoinLotRegistry.addLot at h
  obtain ⟨hvalid, h⟩ := Guards.ok_of_ite_error h
  obtain ⟨hid, h⟩ := Guards.ok_of_ite_error h
  obtain ⟨hnew, h⟩ := Guards.ok_of_ite_error h
  refine ⟨by simpa using hvalid, ?_, by cases h; rfl⟩
  cases hfind : registry.lots.find? lot.id with
  | none => rfl
  | some other =>
    refine absurd ?_ hnew
    rw [CoinLotRegistry.hasLot, SortedMap.contains_iff]
    exact ⟨other, hfind⟩

/-- A registry with one lot more. -/
theorem isValid_insert {registry : CoinLotRegistry} {lot : CoinLot}
    (h : registry.isValid = true) (hlot : lot.isValid = true) :
    (CoinLotRegistry.mk (registry.lots.insert lot.id lot)).isValid = true := by
  rw [CoinLotRegistry.isValid_iff]
  intro id found hfind
  rw [SortedMap.find?_insert] at hfind
  split_ifs at hfind with hid
  · cases hfind
    subst hid
    exact ⟨CoinLot.id_nonempty hlot, rfl, hlot⟩
  · exact CoinLotRegistry.isValid_iff.mp h hfind

namespace State

variable {hashBytes : String → String} {state state' : State} {applied : List Transaction}

--
-- The invariant
--

/-- Some account has this address. -/
def HasAccount (accounts : List Account) (address : String) : Prop :=
  ∃ account ∈ accounts, account.address = address

/-- The accounts, against the transfers applied so far. -/
structure Books (accounts : List Account) (applied : List Transaction) : Prop where
  valid : ∀ account ∈ accounts, account.isValid = true
  unique : (accounts.map (·.address)).Nodup
  nonces : ∀ account ∈ accounts,
    account.nextNonce.toNat = applied.countP (·.fromAddress == account.address) + 1
  senders : ∀ transaction ∈ applied, HasAccount accounts transaction.fromAddress

/-- The records, against the supply. -/
structure Created (state : State) : Prop where
  mints : ∀ record ∈ state.mintRecords, record.isValid = true
  rewards : ∀ record ∈ state.genesisRewardRecords, record.isValid = true
  sum : (state.mintRecords.map (·.amount.rawUnits)).sum
    + (state.genesisRewardRecords.map (·.amount.rawUnits)).sum = state.totalSupply.rawUnits

/-- **The invariant.** The records and the live lots are worth the supply, every lot has an
owner with an account, and the accounts and ids follow the transfers applied. -/
structure Audited (state : State) (applied : List Transaction) : Prop where
  books : Books state.accounts applied
  ids : state.appliedTransactionIds = applied.map (·.id)
  once : (applied.map (·.id)).Nodup
  lots : LotsOk state.coinLots
  owners : ∀ lot ∈ state.coinLots, HasAccount state.accounts lot.ownerAddress
  live : amountWhere CoinLot.isLive state.coinLots = state.totalSupply.rawUnits
  created : Created state

theorem empty_audited : Audited empty [] where
  books := ⟨by simp [empty], by simp [empty], by simp [empty], by simp⟩
  ids := rfl
  once := List.nodup_nil
  lots := ⟨by simp [empty], by simp [empty]⟩
  owners := by simp [empty]
  live := rfl
  created := ⟨by simp [empty], by simp [empty], rfl⟩

--
-- Accounts
--

theorem findAccount_eq_some {address : String} {account : Account}
    (h : state.findAccount address = some account) :
    account ∈ state.accounts ∧ account.address = address := by
  unfold findAccount at h
  exact ⟨List.mem_of_find?_eq_some h, by simpa using List.find?_some h⟩

/-- The state with an account of this address. -/
def withAccount (state : State) (address : String) : State :=
  match state.findAccount address with
  | some _ => state
  | none => { state with
    accounts := state.accounts ++ [Account.create address state.currentBlockIndex] }

theorem withAccount_eq (state : State) (address : String) :
    state.withAccount address = { state with accounts := (state.withAccount address).accounts } := by
  unfold withAccount
  split <;> rfl

theorem ensureAccountExists_ok {address : String} {u : Unit}
    (h : ensureAccountExists address state = .ok u state') :
    address.isEmpty = false ∧ state' = state.withAccount address := by
  unfold ensureAccountExists at h
  obtain ⟨hempty, h⟩ := passed_refuseIf h
  have h := passed_get h
  refine ⟨hempty, ?_⟩
  unfold withAccount
  cases hfind : state.findAccount address with
  | some account =>
    simp only [hfind] at h
    exact (ok_of_pure h).2
  | none =>
    simp only [hfind] at h
    obtain ⟨-, h⟩ := passed_refuseIf h
    exact ok_of_set h

theorem withAccount_mem {address : String} {account : Account} (h : account ∈ state.accounts) :
    account ∈ (state.withAccount address).accounts := by
  unfold withAccount
  split
  · exact h
  · exact List.mem_append_left _ h

theorem hasAccount_withAccount {address other : String} (h : HasAccount state.accounts other) :
    HasAccount (state.withAccount address).accounts other := by
  obtain ⟨account, hmem, haddress⟩ := h
  exact ⟨account, withAccount_mem hmem, haddress⟩

theorem hasAccount_withAccount_self (state : State) (address : String) :
    HasAccount (state.withAccount address).accounts address := by
  unfold withAccount
  split
  · rename_i account hfind
    exact ⟨account, findAccount_eq_some hfind⟩
  · exact ⟨_, List.mem_append_right _ (List.mem_singleton_self _), rfl⟩

theorem withAccount_books {address : String} (haddress : address.isEmpty = false)
    (h : Books state.accounts applied) : Books (state.withAccount address).accounts applied := by
  unfold withAccount
  split
  · exact h
  · rename_i hnone
    unfold findAccount at hnone
    have hnew : ∀ account ∈ state.accounts, account.address ≠ address := by
      intro account hmem
      simpa using List.find?_eq_none.mp hnone account hmem
    refine ⟨?_, ?_, ?_, ?_⟩
    · intro account hmem
      rcases List.mem_append.mp hmem with hmem | hmem
      · exact h.valid account hmem
      · rw [List.mem_singleton.mp hmem]
        simp [Account.isValid, Account.create, haddress]
    · rw [List.map_append, List.nodup_append']
      refine ⟨h.unique, List.nodup_singleton _, ?_⟩
      intro other hother hsingle
      obtain ⟨account, hmem, rfl⟩ := List.mem_map.mp hother
      exact hnew account hmem (List.mem_singleton.mp hsingle)
    · intro account hmem
      rcases List.mem_append.mp hmem with hmem | hmem
      · exact h.nonces account hmem
      · -- the sender of an applied transfer has an account, so this address sent none
        rw [List.mem_singleton.mp hmem]
        have hzero : applied.countP (·.fromAddress == address) = 0 := by
          rw [List.countP_eq_zero]
          intro transaction htransaction hfrom
          obtain ⟨sender, hsender, heq⟩ := h.senders transaction htransaction
          exact hnew sender hsender (heq.trans (by simpa using hfrom))
        simp only [Account.create]
        rw [hzero]
        rfl
    · intro transaction htransaction
      obtain ⟨sender, hsender, heq⟩ := h.senders transaction htransaction
      exact ⟨sender, List.mem_append_left _ hsender, heq⟩

end State

namespace State

variable {hashBytes : String → String} {state state' : State} {applied : List Transaction}

--
-- What each operation keeps
--

theorem coinLotRegistry_ok {u : Unit} {f : CoinLotRegistry → Method Unit}
    (hlots : LotsOk state.coinLots)
    (h : (coinLotRegistry >>= f) state = .ok u state') :
    ∃ registry, HoldsLots registry state.coinLots ∧ f registry state = .ok u state' := by
  obtain ⟨built, left, hbuilt, hrest⟩ := ok_of_bind h
  unfold coinLotRegistry at hbuilt
  have hbuilt := passed_get hbuilt
  obtain ⟨hbuilt, rfl⟩ := ok_of_call hbuilt
  obtain ⟨registry, hregistry, hholds⟩ := fromCoinLots_ok hlots
  obtain rfl := Except.ok.inj (hbuilt.symm.trans hregistry)
  exact ⟨built, hholds, hrest⟩

theorem replaceCoinLotsFromRegistry_ok {registry : CoinLotRegistry} {u : Unit}
    (h : replaceCoinLotsFromRegistry registry state = .ok u state') :
    registry.isValid = true ∧
      state' = { state with coinLots := registry.lots.entries.map (·.2) } := by
  unfold replaceCoinLotsFromRegistry at h
  obtain ⟨hvalid, h⟩ := passed_refuseIf h
  exact ⟨by simpa using hvalid, ok_of_modify h⟩

/-- A state after coins were created: an account, a lot, and nothing else. -/
structure CoinsCreated (state : State) (ownerAddress : String) (lot : CoinLot) (state' : State) :
    Prop where
  owner : ownerAddress.isEmpty = false
  fields : state' = { state.withAccount ownerAddress with coinLots := state'.coinLots }
  lots : LotsOk state'.coinLots
  mem : ∀ other ∈ state'.coinLots, other = lot ∨ other ∈ state.coinLots
  amount : ∀ counted, amountWhere counted state'.coinLots
    = amountWhere counted state.coinLots + (if counted lot then lot.amount.rawUnits else 0)

theorem createCoinLot_ok {ownerAddress : String} {lot : CoinLot} {u : Unit}
    (hlots : LotsOk state.coinLots) (h : createCoinLot ownerAddress lot state = .ok u state') :
    CoinsCreated state ownerAddress lot state' := by
  unfold createCoinLot at h
  obtain ⟨_, before, haccount, h⟩ := ok_of_bind h
  obtain ⟨howner, rfl⟩ := ensureAccountExists_ok haccount
  have hkept : (state.withAccount ownerAddress).coinLots = state.coinLots := by
    rw [withAccount_eq]
  obtain ⟨registry, hholds, h⟩ := coinLotRegistry_ok (by rw [hkept]; exact hlots) h
  rw [hkept] at hholds
  obtain ⟨extended, hadd, h⟩ := passed_call h
  obtain ⟨-, hnew, rfl⟩ := CoinLotRegistry.of_addLot hadd
  obtain ⟨hvalid, hstate⟩ := replaceCoinLotsFromRegistry_ok h
  subst hstate
  refine ⟨howner, rfl, lotsOk_of_isValid hvalid, ?_, ?_⟩
  · intro other hother
    obtain ⟨⟨id, found⟩, hmem, rfl⟩ := List.mem_map.mp hother
    have hfind := (SortedMap.find?_eq_some_iff _).mpr hmem
    rw [SortedMap.find?_insert] at hfind
    split_ifs at hfind with hid
    · exact Or.inl (Option.some.inj hfind).symm
    · exact Or.inr (hholds.mem hfind)
  · intro counted
    rw [← hholds.amount counted]
    exact CoinLotRegistry.amountWhere_new lot hnew counted

/-- The records and the supply stay. -/
theorem CoinsCreated.kept {ownerAddress : String} {lot : CoinLot}
    (h : CoinsCreated state ownerAddress lot state') :
    state'.totalSupply = state.totalSupply ∧ state'.mintRecords = state.mintRecords ∧
      state'.genesisRewardRecords = state.genesisRewardRecords := by
  rw [h.fields, withAccount_eq]
  exact ⟨rfl, rfl, rfl⟩

/-- Creating coins keeps everything but the supply, which grows with the lots. -/
theorem CoinsCreated.audited {ownerAddress : String} {lot : CoinLot} {supply : Amount}
    {mintRecords : List MintRecord} {genesisRewardRecords : List GenesisRewardRecord}
    (h : CoinsCreated state ownerAddress lot state') (hinv : Audited state applied)
    (howner : lot.ownerAddress = ownerAddress) (hlive : lot.isLive = true)
    (hsupply : supply.rawUnits = state.totalSupply.rawUnits + lot.amount.rawUnits)
    (hcreated : Created { state' with
      totalSupply := supply, mintRecords := mintRecords,
      genesisRewardRecords := genesisRewardRecords }) :
    Audited { state' with
      totalSupply := supply, mintRecords := mintRecords,
      genesisRewardRecords := genesisRewardRecords } applied := by
  have haccounts : state'.accounts = (state.withAccount ownerAddress).accounts := by
    rw [h.fields]
  refine ⟨?_, ?_, hinv.once, h.lots, ?_, ?_, hcreated⟩
  · show Books state'.accounts applied
    rw [haccounts]
    exact withAccount_books h.owner hinv.books
  · show state'.appliedTransactionIds = _
    rw [h.fields, withAccount_eq]
    exact hinv.ids
  · intro other hother
    show HasAccount state'.accounts _
    rw [haccounts]
    rcases h.mem other hother with rfl | hmem
    · rw [howner]
      exact hasAccount_withAccount_self state ownerAddress
    · exact hasAccount_withAccount (hinv.owners other hmem)
  · show amountWhere CoinLot.isLive state'.coinLots = supply.rawUnits
    rw [h.amount, if_pos hlive, hinv.live, hsupply]

theorem applyMintRecord_audited {record : MintRecord} {u : Unit} (hinv : Audited state applied)
    (h : applyMintRecord record state = .ok u state') : Audited state' applied := by
  unfold applyMintRecord at h
  obtain ⟨hvalid, h⟩ := passed_refuseIf h
  obtain ⟨-, h⟩ := passed_refuseIf (passed_get h)
  obtain ⟨-, h⟩ := passed_refuseIf h
  obtain ⟨_, created, hcreate, h⟩ := ok_of_bind h
  have hcoins := createCoinLot_ok hinv.lots hcreate
  obtain ⟨supply, hsupply, h⟩ := passed_call (passed_get (passed_modify h))
  rw [ok_of_set h]
  have hsum := Amount.plus_eq_ok hsupply
  simp only at hsum
  obtain ⟨htotal, hmints, hrewards⟩ := hcoins.kept
  rw [htotal] at hsum
  refine hcoins.audited hinv rfl rfl hsum ⟨?_, ?_, ?_⟩
  · intro other hother
    rw [hmints] at hother
    rcases List.mem_append.mp hother with hother | hother
    · exact hinv.created.mints other hother
    · rw [List.mem_singleton.mp hother]
      simpa using hvalid
  · intro other hother
    rw [hrewards] at hother
    exact hinv.created.rewards other hother
  · have hbefore := hinv.created.sum
    simp only [hmints, hrewards, List.map_append, List.sum_append, List.map_cons, List.map_nil,
      List.sum_cons, List.sum_nil]
    omega

theorem applyGenesisRewardRecord_audited {record : GenesisRewardRecord} {u : Unit}
    (hinv : Audited state applied)
    (h : applyGenesisRewardRecord hashBytes record state = .ok u state') :
    Audited state' applied := by
  unfold applyGenesisRewardRecord at h
  obtain ⟨hvalid, h⟩ := passed_refuseIf h
  obtain ⟨rewardId, hid, h⟩ := passed_call h
  obtain ⟨duplicate, -, h⟩ := passed_call (passed_get h)
  obtain ⟨-, h⟩ := passed_refuseIf h
  obtain ⟨lot, hlot, h⟩ := passed_call h
  obtain ⟨-, h⟩ := passed_refuseIf h
  obtain ⟨-, h⟩ := passed_refuseIf h
  obtain ⟨_, created, hcreate, h⟩ := ok_of_bind h
  have hcoins := createCoinLot_ok hinv.lots hcreate
  obtain ⟨supply, hsupply, h⟩ := passed_call (passed_get (passed_modify h))
  rw [ok_of_set h]
  have hsum := Amount.plus_eq_ok hsupply
  simp only at hsum
  unfold GenesisRewardRecord.createRewardCoinLot at hlot
  obtain ⟨-, hlot⟩ := Guards.ok_of_ite_error hlot
  obtain ⟨id, -, hlot⟩ := Guards.ok_of_bind hlot
  obtain rfl := Except.ok.inj hlot
  obtain ⟨htotal, hmints, hrewards⟩ := hcoins.kept
  rw [htotal] at hsum
  refine hcoins.audited hinv rfl rfl hsum ⟨?_, ?_, ?_⟩
  · intro other hother
    rw [hmints] at hother
    exact hinv.created.mints other hother
  · intro other hother
    rw [hrewards] at hother
    rcases List.mem_append.mp hother with hother | hother
    · exact hinv.created.rewards other hother
    · rw [List.mem_singleton.mp hother]
      simpa using hvalid
  · have hbefore := hinv.created.sum
    simp only [hmints, hrewards, List.map_append, List.sum_append, List.map_cons, List.map_nil,
      List.sum_cons, List.sum_nil]
    omega

end State

namespace State

variable {hashBytes : String → String} {state state' : State} {applied : List Transaction}

/-- Operations on lots alone, with the owners and the live amount as they were. -/
theorem Audited.replaceLots {lots : List CoinLot} (index : UInt64) (hinv : Audited state applied)
    (hlots : LotsOk lots)
    (howners : ∀ lot ∈ lots, ∃ old ∈ state.coinLots, old.ownerAddress = lot.ownerAddress)
    (hlive : amountWhere CoinLot.isLive lots = amountWhere CoinLot.isLive state.coinLots) :
    Audited { state with currentBlockIndex := index, coinLots := lots } applied := by
  refine ⟨hinv.books, hinv.ids, hinv.once, hlots, ?_, hlive.trans hinv.live,
    ⟨hinv.created.mints, hinv.created.rewards, hinv.created.sum⟩⟩
  intro lot hlot
  obtain ⟨old, hold, howner⟩ := howners lot hlot
  rw [← howner]
  exact hinv.owners old hold

theorem isValid_unlockIfMature {lot : CoinLot} (currentBlock : UInt64) (h : lot.isValid = true) :
    (lot.unlockIfMature currentBlock).isValid = true := by
  unfold CoinLot.unlockIfMature
  split_ifs
  · exact h
  · unfold CoinLot.isValid at h ⊢
    obtain ⟨hid, h⟩ := Guards.true_of_ite_false h
    obtain ⟨horigin, h⟩ := Guards.true_of_ite_false h
    obtain ⟨howner, h⟩ := Guards.true_of_ite_false h
    obtain ⟨hamount, h⟩ := Guards.true_of_ite_false h
    obtain ⟨htime, -⟩ := Guards.true_of_ite_false h
    rw [if_neg hid, if_neg horigin, if_neg howner, if_neg hamount, if_neg htime]
    rfl
  · exact h

/-- Unlocking changes the status of a lot, and a lot that is locked or free is live. -/
theorem unlockIfMature_fields (lot : CoinLot) (currentBlock : UInt64) :
    (lot.unlockIfMature currentBlock).id = lot.id ∧
      (lot.unlockIfMature currentBlock).ownerAddress = lot.ownerAddress ∧
      (lot.unlockIfMature currentBlock).amount = lot.amount ∧
      (lot.unlockIfMature currentBlock).isLive = lot.isLive := by
  unfold CoinLot.unlockIfMature
  split_ifs with hlocked
  · exact ⟨rfl, rfl, rfl, rfl⟩
  · have hlocked : lot.status = .lockedForSecurity := by simpa using hlocked
    refine ⟨rfl, rfl, rfl, ?_⟩
    simp [CoinLot.isLive, CoinLot.isAvailable, CoinLot.isLockedForSecurity, hlocked]
  · exact ⟨rfl, rfl, rfl, rfl⟩

theorem advanceBlock_audited {u : Unit} (hinv : Audited state applied)
    (h : advanceBlock state = .ok u state') : Audited state' applied := by
  rw [ok_of_modify h]
  have hunlocked := fun lot : CoinLot => unlockIfMature_fields lot (state.currentBlockIndex + 1)
  have hids : (state.coinLots.map (·.unlockIfMature (state.currentBlockIndex + 1))).map (·.id)
      = state.coinLots.map (·.id) := by
    rw [List.map_map]
    exact List.map_congr_left (fun lot _ => (hunlocked lot).1)
  refine hinv.replaceLots _ ⟨?_, by rw [hids]; exact hinv.lots.unique⟩ ?_ ?_
  · intro lot hlot
    obtain ⟨old, hold, rfl⟩ := List.mem_map.mp hlot
    exact isValid_unlockIfMature _ (hinv.lots.valid old hold)
  · intro lot hlot
    obtain ⟨old, hold, rfl⟩ := List.mem_map.mp hlot
    exact ⟨old, hold, (hunlocked old).2.1.symm⟩
  · unfold amountWhere
    rw [List.map_map]
    refine congrArg List.sum (List.map_congr_left (fun lot _ => ?_))
    obtain ⟨-, -, hamount, hlive⟩ := hunlocked lot
    simp only [Function.comp_apply]
    rw [hamount, hlive]

theorem lockCoinLotForSecurity_audited {coinLotId : String} {lockedUntilBlock : UInt64} {u : Unit}
    (hinv : Audited state applied)
    (h : lockCoinLotForSecurity coinLotId lockedUntilBlock state = .ok u state') :
    Audited state' applied := by
  unfold lockCoinLotForSecurity at h
  obtain ⟨registry, hholds, h⟩ := coinLotRegistry_ok hinv.lots h
  obtain ⟨targetLot, -, h⟩ := passed_call h
  obtain ⟨locked, hlock, h⟩ := passed_call h
  obtain ⟨hvalid, rfl⟩ := replaceCoinLotsFromRegistry_ok h
  obtain ⟨lot, lot', hfind, hlot', rfl⟩ : ∃ lot lot', registry.lots.find? coinLotId = some lot ∧
      lot.lockForSecurity lockedUntilBlock = .ok lot' ∧
      locked = ⟨registry.lots.insert coinLotId lot'⟩ := by
    unfold CoinLotRegistry.lockForSecurity at hlock
    split at hlock
    · cases hlock
    · rename_i hverify
      obtain ⟨lot, hfind, -⟩ := CoinLotRegistry.verifySpendable_eq_none hverify
      obtain ⟨found, hfound, hlock⟩ := Guards.ok_of_bind hlock
      simp only [CoinLotRegistry.lot, hfind] at hfound
      obtain rfl := Except.ok.inj hfound
      obtain ⟨lot', hlot', hwritten⟩ := Guards.ok_of_bind hlock
      exact ⟨lot, lot', hfind, hlot', (Except.ok.inj hwritten).symm⟩
  unfold CoinLot.lockForSecurity at hlot'
  obtain ⟨havailable, hlot'⟩ := Guards.ok_of_ite_error hlot'
  obtain ⟨-, hlot'⟩ := Guards.ok_of_ite_error hlot'
  obtain rfl := Except.ok.inj hlot'
  refine hinv.replaceLots _ (lotsOk_of_isValid hvalid) ?_ ?_
  · intro other hother
    obtain ⟨⟨id, found⟩, hmem, rfl⟩ := List.mem_map.mp hother
    have hfound := (SortedMap.find?_eq_some_iff _).mpr hmem
    rw [SortedMap.find?_insert] at hfound
    split_ifs at hfound with hid
    · cases hfound
      exact ⟨lot, hholds.mem hfind, rfl⟩
    · exact ⟨found, hholds.mem hfound, rfl⟩
  · have hamount := CoinLotRegistry.amountWhere_replace
      { lot with status := .lockedForSecurity, lockedUntilBlock := lockedUntilBlock } hfind
      CoinLot.isLive
    have hlive : lot.isLive = true := by
      simp only [Bool.not_eq_true, Bool.not_eq_false'] at havailable
      simp [CoinLot.isLive, havailable]
    rw [hlive, hholds.amount] at hamount
    have hlocked : CoinLot.isLive { lot with
        status := .lockedForSecurity, lockedUntilBlock := lockedUntilBlock } = true := rfl
    rw [hlocked] at hamount
    exact Nat.add_right_cancel hamount

end State

namespace State

variable {hashBytes : String → String} {state state' : State} {applied : List Transaction}

theorem updateAccount_addresses (updated : Account) (accounts : List Account) :
    (updateAccount updated accounts).map (·.address) = accounts.map (·.address) := by
  induction accounts with
  | nil => rfl
  | cons account rest ih =>
    rw [updateAccount]
    split_ifs with heq
    · rw [List.map_cons, List.map_cons, beq_iff_eq.mp heq]
    · rw [List.map_cons, List.map_cons, ih]

theorem mem_updateAccount {updated account : Account} {accounts : List Account}
    (hunique : (accounts.map (·.address)).Nodup) (h : account ∈ updateAccount updated accounts) :
    account = updated ∨ account ∈ accounts ∧ account.address ≠ updated.address := by
  induction accounts with
  | nil => cases h
  | cons first rest ih =>
    rw [List.map_cons, List.nodup_cons] at hunique
    rw [updateAccount] at h
    split_ifs at h with heq
    · rcases List.mem_cons.mp h with h | h
      · exact Or.inl h
      · refine Or.inr ⟨List.mem_cons_of_mem _ h, fun hsame => hunique.1 ?_⟩
        rw [beq_iff_eq.mp heq, ← hsame]
        exact List.mem_map_of_mem h
    · rcases List.mem_cons.mp h with rfl | h
      · exact Or.inr ⟨List.mem_cons_self, by simpa using heq⟩
      · rcases ih hunique.2 h with h | ⟨h, hne⟩
        · exact Or.inl h
        · exact Or.inr ⟨List.mem_cons_of_mem _ h, hne⟩

theorem hasAccount_updateAccount {updated : Account} {accounts : List Account} {address : String}
    (h : HasAccount accounts address) : HasAccount (updateAccount updated accounts) address := by
  have hmem : address ∈ (updateAccount updated accounts).map (·.address) := by
    rw [updateAccount_addresses]
    obtain ⟨account, hmem, rfl⟩ := h
    exact List.mem_map_of_mem hmem
  obtain ⟨account, hmem, heq⟩ := List.mem_map.mp hmem
  exact ⟨account, hmem, heq⟩

theorem markTransactionApplied_ok {account updated : Account} {nonce blockIndex : UInt64}
    (hvalid : account.isValid = true)
    (h : account.markTransactionApplied nonce blockIndex = .ok updated) :
    updated.address = account.address ∧ updated.isValid = true ∧
      updated.nextNonce.toNat = account.nextNonce.toNat + 1 := by
  unfold Account.markTransactionApplied at h
  obtain ⟨-, h⟩ := Guards.ok_of_ite_error h
  obtain ⟨hmax, h⟩ := Guards.ok_of_ite_error h
  obtain ⟨hblock, h⟩ := Guards.ok_of_ite_error h
  obtain rfl := Except.ok.inj h
  unfold Account.isValid at hvalid
  obtain ⟨haddress, hvalid⟩ := Guards.true_of_ite_false hvalid
  obtain ⟨-, hvalid⟩ := Guards.true_of_ite_false hvalid
  obtain ⟨horder, -⟩ := Guards.true_of_ite_false hvalid
  have hsucc : (account.nextNonce + 1).toNat = account.nextNonce.toNat + 1 :=
    toNat_succ (by simpa using hmax)
  refine ⟨rfl, ?_, hsucc⟩
  have hnonce : ¬ account.nextNonce + 1 = 0 := by
    intro hzero
    rw [hzero] at hsucc
    cases hsucc
  have hcreated : ¬ blockIndex < account.createdAtBlock := by
    rw [UInt64.not_lt] at hblock horder ⊢
    exact UInt64.le_trans horder hblock
  unfold Account.isValid
  rw [if_neg haddress, if_neg (by simpa using hnonce), if_neg hcreated]

/-- The sender's account moves to the next nonce. -/
theorem Books.transfer {account updated : Account} {accounts : List Account}
    {transaction : Transaction} {blockIndex : UInt64} (h : Books accounts applied)
    (hmem : account ∈ accounts) (hfrom : account.address = transaction.fromAddress)
    (hmark : account.markTransactionApplied transaction.nonce blockIndex = .ok updated) :
    Books (updateAccount updated accounts) (applied ++ [transaction]) := by
  obtain ⟨haddress, hvalid, hnonce⟩ := markTransactionApplied_ok (h.valid account hmem) hmark
  refine ⟨?_, ?_, ?_, ?_⟩
  · intro other hother
    rcases mem_updateAccount h.unique hother with rfl | ⟨hother, -⟩
    · exact hvalid
    · exact h.valid other hother
  · rw [updateAccount_addresses]
    exact h.unique
  · intro other hother
    rw [List.countP_append, List.countP_singleton]
    rcases mem_updateAccount h.unique hother with rfl | ⟨hother, hne⟩
    · rw [hnonce, h.nonces account hmem, haddress, hfrom, if_pos (beq_self_eq_true _)]
    · have hother' : ¬ (transaction.fromAddress == other.address) = true := by
        rw [beq_iff_eq, ← hfrom, ← haddress]
        exact Ne.symm hne
      rw [h.nonces other hother, if_neg hother']
  · intro sent hsent
    rcases List.mem_append.mp hsent with hsent | hsent
    · exact hasAccount_updateAccount (h.senders sent hsent)
    · rw [List.mem_singleton.mp hsent, ← hfrom]
      exact hasAccount_updateAccount ⟨account, hmem, rfl⟩

end State

namespace State

variable {hashBytes : String → String} {state state' : State} {applied : List Transaction}

open CoinLotTransactionValidator (TransferRun)

/-- The state with accounts for those whom a transfer pays. -/
def withReceivers (state : State) (transaction : Transaction) : State :=
  if transaction.fee.isPositive then
    (state.withAccount transaction.toAddress).withAccount feePoolAddress
  else state.withAccount transaction.toAddress

theorem withReceivers_eq (state : State) (transaction : Transaction) :
    state.withReceivers transaction
      = { state with accounts := (state.withReceivers transaction).accounts } := by
  unfold withReceivers
  split_ifs
  · rw [withAccount_eq, withAccount_eq]
  · exact withAccount_eq _ _

theorem ensureReceivers_ok {transaction : Transaction} {u : Unit}
    (h : ensureReceivers transaction state = .ok u state') :
    transaction.toAddress.isEmpty = false ∧ state' = state.withReceivers transaction := by
  unfold ensureReceivers at h
  obtain ⟨_, paid, hpaid, h⟩ := ok_of_bind h
  obtain ⟨hto, rfl⟩ := ensureAccountExists_ok hpaid
  refine ⟨hto, ?_⟩
  unfold withReceivers
  by_cases hfee : transaction.fee.isPositive = true
  · rw [if_pos hfee] at h ⊢
    exact (ensureAccountExists_ok h).2
  · rw [if_neg hfee] at h ⊢
    exact (ok_of_pure h).2

theorem withReceivers_books {transaction : Transaction}
    (hto : transaction.toAddress.isEmpty = false) (h : Books state.accounts applied) :
    Books (state.withReceivers transaction).accounts applied := by
  unfold withReceivers
  split_ifs
  · exact withAccount_books rfl (withAccount_books hto h)
  · exact withAccount_books hto h

theorem hasAccount_withReceivers {transaction : Transaction} {address : String}
    (h : HasAccount state.accounts address ∨ address = transaction.toAddress ∨
      address = feePoolAddress ∧ transaction.fee.isPositive = true) :
    HasAccount (state.withReceivers transaction).accounts address := by
  unfold withReceivers
  rcases h with h | rfl | ⟨rfl, hfee⟩
  · split_ifs
    · exact hasAccount_withAccount (hasAccount_withAccount h)
    · exact hasAccount_withAccount h
  · split_ifs
    · exact hasAccount_withAccount (hasAccount_withAccount_self _ _)
    · exact hasAccount_withAccount_self _ _
  · rw [if_pos hfee]
    exact hasAccount_withAccount_self _ _

/-- What the rest of a transfer writes. -/
structure Recorded (state : State) (transaction : Transaction) (transferred : CoinLotRegistry)
    (state' : State) : Prop where
  receiver : transaction.toAddress.isEmpty = false
  valid : transferred.isValid = true
  fields : ∃ sender updated, sender ∈ (state.withReceivers transaction).accounts ∧
    sender.address = transaction.fromAddress ∧
    sender.markTransactionApplied transaction.nonce state.currentBlockIndex = .ok updated ∧
    state' = { state with
      accounts := updateAccount updated (state.withReceivers transaction).accounts
      coinLots := transferred.lots.entries.map (·.2)
      appliedTransactionIds := state.appliedTransactionIds ++ [transaction.id] }

theorem recordTransfer_ok {transaction : Transaction} {transferred : CoinLotRegistry} {u : Unit}
    (h : recordTransfer transaction transferred state = .ok u state') :
    Recorded state transaction transferred state' := by
  unfold recordTransfer at h
  obtain ⟨_, paid, hpaid, h⟩ := ok_of_bind h
  obtain ⟨hto, rfl⟩ := ensureReceivers_ok hpaid
  have h := passed_get h
  cases hsender : (state.withReceivers transaction).findAccount transaction.fromAddress with
  | none =>
    simp only [hsender] at h
    cases h
  | some sender =>
    simp only [hsender] at h
    obtain ⟨hmem, haddress⟩ := findAccount_eq_some hsender
    obtain ⟨updated, hupdated, h⟩ := passed_call h
    obtain ⟨_, replaced, hreplaced, h⟩ := ok_of_bind (passed_set h)
    obtain ⟨hvalid, rfl⟩ := replaceCoinLotsFromRegistry_ok hreplaced
    have hindex : (state.withReceivers transaction).currentBlockIndex = state.currentBlockIndex := by
      rw [withReceivers_eq]
    rw [hindex] at hupdated
    refine ⟨hto, hvalid, sender, updated, hmem, haddress, hupdated, ?_⟩
    rw [ok_of_modify h, withReceivers_eq]

theorem applyTransferTransaction_ok {transaction : Transaction} {u : Unit}
    (hlots : LotsOk state.coinLots)
    (h : applyTransferTransaction transaction state = .ok u state') :
    state.isTransactionAlreadyApplied transaction.id = false ∧
      ∃ registry selected change outputs spent final, HoldsLots registry state.coinLots ∧
        TransferRun registry transaction selected change outputs spent final ∧
        Recorded state transaction final state' := by
  unfold applyTransferTransaction at h
  iterate 7 obtain ⟨-, h⟩ := passed_refuseIf h
  obtain ⟨hfresh, h⟩ := passed_refuseIf (passed_get h)
  refine ⟨hfresh, ?_⟩
  cases hsender : state.findAccount transaction.fromAddress with
  | none =>
    simp only [hsender] at h
    cases h
  | some senderAccount =>
    simp only [hsender] at h
    obtain ⟨-, h⟩ := passed_refuseIf h
    obtain ⟨registry, hholds, h⟩ := coinLotRegistry_ok hlots h
    obtain ⟨validation, -, h⟩ := passed_call h
    cases validation with
    | some reason => cases h
    | none =>
      obtain ⟨_, houtcome, h⟩ := passed_call h
      rcases CoinLotTransactionValidator.applyTransfer_run registry transaction
        state.currentBlockIndex with ⟨reason, hthrows⟩ |
        ⟨totalDebit, selected, change, outputs, spent, final, hrun, -, -, htransfer⟩
      · rw [hthrows] at houtcome
        cases houtcome
      · rw [hrun] at h
        exact ⟨registry, selected, change, outputs, spent, final, hholds, htransfer,
          recordTransfer_ok h⟩

theorem applyTransferTransaction_audited {transaction : Transaction} {u : Unit}
    (hinv : Audited state applied)
    (h : applyTransferTransaction transaction state = .ok u state') :
    Audited state' (applied ++ [transaction]) := by
  obtain ⟨hfresh, registry, selected, change, outputs, spent, final, hholds, hrun, hto, hvalid,
    sender, updated, hsender, haddress, hmark, rfl⟩ := applyTransferTransaction_ok hinv.lots h
  have hbooks := withReceivers_books hto hinv.books
  refine ⟨hbooks.transfer hsender haddress hmark, ?_, ?_, lotsOk_of_isValid hvalid, ?_, ?_,
    ⟨hinv.created.mints, hinv.created.rewards, hinv.created.sum⟩⟩
  · rw [List.map_append, ← hinv.ids]
    rfl
  · -- the id was checked against the ids applied so far
    rw [List.map_append, List.nodup_append']
    refine ⟨hinv.once, List.nodup_singleton _, ?_⟩
    intro id hid hsame
    rw [← hinv.ids] at hid
    rw [List.map_singleton, List.mem_singleton] at hsame
    subst hsame
    unfold isTransactionAlreadyApplied at hfresh
    rw [List.any_eq_false] at hfresh
    exact hfresh _ hid (beq_self_eq_true _)
  · intro lot hlot
    obtain ⟨⟨id, found⟩, hmem, rfl⟩ := List.mem_map.mp hlot
    refine hasAccount_updateAccount ?_
    rcases hrun.owners ((SortedMap.find?_eq_some_iff _).mpr hmem) with
      ⟨id', old, hold, howner⟩ | howner | howner | hpool
    · refine hasAccount_withReceivers (Or.inl ?_)
      rw [← howner]
      exact hinv.owners old (hholds.mem hold)
    · exact ⟨sender, hsender, haddress.trans howner.symm⟩
    · exact hasAccount_withReceivers (Or.inr (Or.inl howner))
    · exact hasAccount_withReceivers (Or.inr (Or.inr hpool))
  · have hlive := hrun.live
    rw [hholds.amount] at hlive
    exact hlive.trans hinv.live

end State

--
-- The state's own queries
--

theorem amountWhere_le_of_imp {counted counted' : CoinLot → Bool} (lots : List CoinLot)
    (h : ∀ lot, counted lot = true → counted' lot = true) :
    amountWhere counted lots ≤ amountWhere counted' lots := by
  induction lots with
  | nil => exact Nat.le_refl _
  | cons lot rest ih =>
    rw [amountWhere_cons, amountWhere_cons]
    refine Nat.add_le_add ?_ ih
    by_cases hcounted : counted lot = true
    · rw [if_pos hcounted, if_pos (h lot hcounted)]
    · rw [if_neg hcounted]
      exact Nat.zero_le _

namespace State

variable {hashBytes : String → String} {state : State} {applied : List Transaction}

theorem addRecords_ok {α : Type} {isValid : α → Bool} {amount : α → Amount} {records : List α}
    {total : Amount} (hvalid : ∀ record ∈ records, isValid record = true)
    (hbound : total.rawUnits + (records.map (fun record => (amount record).rawUnits)).sum
      ≤ maxRawUnits) :
    ∃ sum, addRecords isValid amount records total = .ok (some sum) ∧
      sum.rawUnits
        = total.rawUnits + (records.map (fun record => (amount record).rawUnits)).sum := by
  induction records generalizing total with
  | nil => exact ⟨total, rfl, rfl⟩
  | cons record rest ih =>
    rw [List.map_cons, List.sum_cons] at hbound
    obtain ⟨next, hplus, hnext⟩ := @Amount.plus_ok total (amount record) (by omega)
    obtain ⟨sum, hsum, htotal⟩ := @ih next
      (fun other hmem => hvalid other (List.mem_cons_of_mem _ hmem)) (by omega)
    refine ⟨sum, ?_, ?_⟩
    · rw [addRecords, hvalid record List.mem_cons_self, hplus]
      exact hsum
    · rw [List.map_cons, List.sum_cons]
      omega

theorem addLots_ok {lots : List CoinLot} {total : Amount}
    (hvalid : ∀ lot ∈ lots, lot.isValid = true)
    (hbound : total.rawUnits + amountWhere CoinLot.isLive lots ≤ maxRawUnits) :
    ∃ sum, addLots lots total = .ok (some sum) ∧
      sum.rawUnits = total.rawUnits + amountWhere CoinLot.isLive lots := by
  induction lots generalizing total with
  | nil => exact ⟨total, rfl, rfl⟩
  | cons lot rest ih =>
    have hrest : ∀ other ∈ rest, other.isValid = true := fun other hmem =>
      hvalid other (List.mem_cons_of_mem _ hmem)
    rw [amountWhere_cons] at hbound ⊢
    rw [addLots, hvalid lot List.mem_cons_self]
    by_cases hlive : lot.isLive = true
    · rw [if_pos hlive] at hbound ⊢
      obtain ⟨next, hplus, hnext⟩ := @Amount.plus_ok total lot.amount (by omega)
      obtain ⟨sum, hsum, htotal⟩ := @ih next hrest (by omega)
      rw [if_pos hlive, hplus]
      exact ⟨sum, hsum, by omega⟩
    · rw [if_neg hlive] at hbound ⊢
      rw [if_neg hlive]
      obtain ⟨sum, hsum, htotal⟩ := @ih total hrest (by omega)
      exact ⟨sum, hsum, by omega⟩

/-- The audit of the code passes on every state that the invariant describes. -/
theorem isSupplyAuditable_of_audited (hinv : Audited state applied) :
    state.isSupplyAuditable = .ok true := by
  have hsum := hinv.created.sum
  have hmax := state.totalSupply.inRange
  obtain ⟨minted, hminted, hmintedSum⟩ :=
    @addRecords_ok _ MintRecord.isValid MintRecord.amount state.mintRecords Amount.zero
      hinv.created.mints (by
        show 0 + _ ≤ _
        omega)
  have hmintedRaw : minted.rawUnits = (state.mintRecords.map (·.amount.rawUnits)).sum :=
    hmintedSum.trans (Nat.zero_add _)
  obtain ⟨created, hcreated, hcreatedSum⟩ :=
    @addRecords_ok _ GenesisRewardRecord.isValid GenesisRewardRecord.amount
      state.genesisRewardRecords minted hinv.created.rewards (by
        rw [hmintedRaw]
        omega)
  obtain ⟨active, hactive, hactiveSum⟩ := @addLots_ok state.coinLots Amount.zero hinv.lots.valid (by
    rw [hinv.live]
    show 0 + _ ≤ _
    omega)
  have hcreatedEq : created = state.totalSupply := Amount.ext (by omega)
  have hactiveEq : active = state.totalSupply := by
    refine Amount.ext ?_
    rw [hactiveSum, hinv.live]
    exact Nat.zero_add _
  have haccounts : state.accounts.all Account.isValid = true :=
    List.all_eq_true.mpr hinv.books.valid
  unfold isSupplyAuditable
  rw [hminted]
  show (do
    match ← addRecords GenesisRewardRecord.isValid GenesisRewardRecord.amount
        state.genesisRewardRecords minted with
    | none => return false
    | some created =>
      if created != state.totalSupply then return false
      else if !state.accounts.all Account.isValid then return false
      else match ← addLots state.coinLots Amount.zero with
        | none => return false
        | some active => return active == state.totalSupply) = Except.ok true
  rw [hcreated, hcreatedEq]
  show (if state.totalSupply != state.totalSupply then _ else _) = Except.ok true
  rw [bne_self_eq_false, haccounts, hactive, hactiveEq]
  show Except.ok (state.totalSupply == state.totalSupply) = Except.ok true
  rw [beq_self_eq_true]

/-- The live lots of one owner. -/
def liveOf (owner : String) (lot : CoinLot) : Bool := lot.ownerAddress == owner && lot.isLive

/-- A balance does not overflow, being part of the supply. -/
theorem balanceOf_of_audited (hinv : Audited state applied) (owner : String) :
    ∃ balance, state.balanceOf owner = .ok balance ∧
      balance.rawUnits = amountWhere (liveOf owner) state.coinLots := by
  have hfold : ∀ (lots : List CoinLot) (start : Amount),
      start.rawUnits + amountWhere (liveOf owner) lots ≤ maxRawUnits →
      ∃ balance, lots.foldlM (fun balance lot =>
          if lot.ownerAddress != owner then .ok balance
          else if lot.isLive then balance.plus lot.amount
          else .ok balance) start = .ok balance ∧
        balance.rawUnits = start.rawUnits + amountWhere (liveOf owner) lots := by
    intro lots
    induction lots with
    | nil => exact fun start _ => ⟨start, rfl, rfl⟩
    | cons lot rest ih =>
      intro start hbound
      rw [amountWhere_cons] at hbound ⊢
      rw [List.foldlM_cons]
      by_cases howner : lot.ownerAddress = owner
      · by_cases hlive : lot.isLive = true
        · have hcounted : liveOf owner lot = true := by simp [liveOf, howner, hlive]
          rw [if_pos hcounted] at hbound ⊢
          obtain ⟨next, hplus, hnext⟩ := @Amount.plus_ok start lot.amount (by omega)
          obtain ⟨balance, hbalance, hsum⟩ := ih next (by omega)
          rw [if_neg (by simpa using howner), if_pos hlive, hplus]
          exact ⟨balance, hbalance, by omega⟩
        · have hcounted : ¬ liveOf owner lot = true := by simp [liveOf, hlive]
          rw [if_neg hcounted] at hbound ⊢
          obtain ⟨balance, hbalance, hsum⟩ := ih start (by omega)
          rw [if_neg (by simpa using howner), if_neg hlive]
          exact ⟨balance, hbalance, by omega⟩
      · have hcounted : ¬ liveOf owner lot = true := by simp [liveOf, howner]
        rw [if_neg hcounted] at hbound ⊢
        obtain ⟨balance, hbalance, hsum⟩ := ih start (by omega)
        rw [if_pos (by simpa using howner)]
        exact ⟨balance, hbalance, by omega⟩
  have hle : amountWhere (liveOf owner) state.coinLots ≤ state.totalSupply.rawUnits := by
    rw [← hinv.live]
    refine amountWhere_le_of_imp _ (fun lot hlot => ?_)
    unfold liveOf at hlot
    exact (Bool.and_eq_true_iff.mp hlot).2
  obtain ⟨balance, hbalance, hsum⟩ := hfold state.coinLots Amount.zero (by
    have hmax := state.totalSupply.inRange
    show 0 + _ ≤ _
    omega)
  exact ⟨balance, hbalance, hsum.trans (Nat.zero_add _)⟩

theorem balances_of_audited (hinv : Audited state applied) :
    ∃ balances, state.accounts.mapM (fun account => state.balanceOf account.address)
        = .ok balances ∧
      (balances.map (·.rawUnits)).sum = state.totalSupply.rawUnits := by
  have hmap : ∀ accounts : List Account, ∃ balances,
      accounts.mapM (fun account => state.balanceOf account.address) = .ok balances ∧
      balances.map (·.rawUnits)
        = accounts.map (fun account => amountWhere (liveOf account.address) state.coinLots) := by
    intro accounts
    induction accounts with
    | nil => exact ⟨[], rfl, rfl⟩
    | cons account rest ih =>
      obtain ⟨balance, hbalance, hraw⟩ := balanceOf_of_audited hinv account.address
      obtain ⟨balances, hbalances, hsum⟩ := ih
      refine ⟨balance :: balances, ?_, ?_⟩
      · rw [List.mapM_cons, hbalance, hbalances]
        rfl
      · rw [List.map_cons, List.map_cons, hraw, hsum]
  obtain ⟨balances, hbalances, hsum⟩ := hmap state.accounts
  refine ⟨balances, hbalances, ?_⟩
  have howners : ∀ lot ∈ state.coinLots, lot.isLive = true →
      lot.ownerAddress ∈ (state.accounts.map (·.address)).toFinset := by
    intro lot hlot _
    obtain ⟨account, hmem, heq⟩ := hinv.owners lot hlot
    rw [List.mem_toFinset, ← heq]
    exact List.mem_map_of_mem hmem
  rw [hsum, ← hinv.live, amountWhere_by_key _ howners, List.sum_toFinset _ hinv.books.unique,
    List.map_map]
  rfl

--
-- Runs
--

theorem performOrSkip_audited {run : State × List Transaction} (operation : Operation)
    (hinv : Audited run.1 run.2) :
    Audited (performOrSkip hashBytes run operation).1 (performOrSkip hashBytes run operation).2 := by
  unfold performOrSkip
  cases hrun : operation.method hashBytes run.1 with
  | error reason left => exact hinv
  | ok u left =>
    cases operation with
    | applyMintRecord record =>
      rw [Operation.transfers, List.append_nil]
      · exact applyMintRecord_audited hinv hrun
      · simp
    | applyGenesisRewardRecord record =>
      rw [Operation.transfers, List.append_nil]
      · exact applyGenesisRewardRecord_audited hinv hrun
      · simp
    | applyTransferTransaction transaction => exact applyTransferTransaction_audited hinv hrun
    | lockCoinLotForSecurity coinLotId lockedUntilBlock =>
      rw [Operation.transfers, List.append_nil]
      · exact lockCoinLotForSecurity_audited hinv hrun
      · simp
    | advanceBlock =>
      rw [Operation.transfers, List.append_nil]
      · exact advanceBlock_audited hinv hrun
      · simp

/-- **The invariant holds after every run.** -/
theorem run_audited (hashBytes : String → String) (operations : List Operation) :
    Audited (runOperations hashBytes operations).1 (runOperations hashBytes operations).2 := by
  unfold runOperations
  have hrun : ∀ run : State × List Transaction, Audited run.1 run.2 →
      Audited (operations.foldl (performOrSkip hashBytes) run).1
        (operations.foldl (performOrSkip hashBytes) run).2 := by
    induction operations with
    | nil => exact fun _ hinv => hinv
    | cons operation rest ih =>
      intro run hinv
      exact ih _ (performOrSkip_audited operation hinv)
  exact hrun _ empty_audited

/-- **A state stays auditable.** After every run the audit passes, lots, accounts and applied
ids are unique, every nonce is one more than the number of transfers its account sent, and the
balances add up to the supply. -/
theorem state_auditable (hashBytes : String → String) (operations : List Operation) :
    (runOperations hashBytes operations).1.isSupplyAuditable = .ok true ∧
    ((runOperations hashBytes operations).1.coinLots.map (·.id)).Nodup ∧
    ((runOperations hashBytes operations).1.accounts.map (·.address)).Nodup ∧
    (∀ account ∈ (runOperations hashBytes operations).1.accounts,
      account.nextNonce.toNat
        = (runOperations hashBytes operations).2.countP (·.fromAddress == account.address) + 1) ∧
    (runOperations hashBytes operations).1.appliedTransactionIds
      = (runOperations hashBytes operations).2.map (·.id) ∧
    ((runOperations hashBytes operations).2.map (·.id)).Nodup ∧
    ∃ balances, (runOperations hashBytes operations).1.accounts.mapM
        (fun account => (runOperations hashBytes operations).1.balanceOf account.address)
        = .ok balances ∧
      (balances.map (·.rawUnits)).sum
        = (runOperations hashBytes operations).1.totalSupply.rawUnits := by
  have hinv := run_audited hashBytes operations
  exact ⟨isSupplyAuditable_of_audited hinv, hinv.lots.unique, hinv.books.unique,
    hinv.books.nonces, hinv.ids, hinv.once, balances_of_audited hinv⟩

end State

end Nodo.Model
