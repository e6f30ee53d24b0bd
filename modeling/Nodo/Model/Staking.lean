import Nodo.Lib.MapLoop
import Nodo.Model.CoinLotTransfer
import Nodo.Model.Evidence

/-!
# Nodo — the staking registry

`node/StakingRegistry.cpp` and `economics/StakeAccount.cpp`. For every validator the
registry holds an account (bonded and slashed totals, jail flags) and one position for each
owner (active, pending, unbonding, withdrawn and slashed amounts); beside them a list of
lifecycle records and the map of key rotations.

A method of the registry writes positions first and the account afterwards, and may throw in
between; what it has written stays. `isValid` is the code's own audit.
-/

namespace Nodo.Model

open ThrowingState

/-- The `isSafeScalar` of this file, which also refuses a comma. -/
def isSafeStakingScalar (value : String) : Bool :=
  !value.isEmpty &&
    !value.toList.any (fun c => [';', '{', '}', '[', ']', ',', '\n', '\r', '\t'].contains c)

--
-- Stake accounts (economics/StakeAccount.cpp)
--

structure StakeAccount where
  validatorAddress : String
  bondedAmount : Amount
  slashedAmount : Amount
  jailed : Bool
  tombstoned : Bool
  deriving DecidableEq

namespace StakeAccount

def isValid (account : StakeAccount) : Bool :=
  !account.validatorAddress.isEmpty && !account.bondedAmount.isNegative
    && !account.slashedAmount.isNegative
    && account.slashedAmount.rawUnits ≤ account.bondedAmount.rawUnits

/-- `StakeAccount(validatorAddress, Amount())`. -/
def ofAddress (validatorAddress : String) : StakeAccount :=
  ⟨validatorAddress, Amount.zero, Amount.zero, false, false⟩

/-- The constructor from all fields. -/
def complete (account : StakeAccount) : Except String StakeAccount :=
  if !account.isValid then .error "Invalid complete StakeAccount state." else .ok account

def unjail (account : StakeAccount) : StakeAccount :=
  if !account.tombstoned then { account with jailed := false } else account

end StakeAccount

--
-- Positions
--

inductive StakePositionStatus
  | pendingActivation
  | active
  | unbonding
  | withdrawn
  | tombstoned
  deriving DecidableEq

/-- `StakingRegistry::Position`. -/
structure Position where
  positionId : String
  activeAmount : Amount
  pendingActivationAmount : Amount
  pendingUnbondingAmount : Amount
  withdrawnAmount : Amount
  slashedAmount : Amount
  rewardsPending : Amount
  lockHeight : UInt64
  activationHeight : UInt64
  unbondingStartHeight : UInt64
  withdrawableHeight : UInt64
  unbondingStartTime : Int
  withdrawableTime : Int
  status : StakePositionStatus
  deriving DecidableEq

/-- `Position{}`. -/
def Position.empty : Position :=
  ⟨"", Amount.zero, Amount.zero, Amount.zero, Amount.zero, Amount.zero, Amount.zero, 0, 0, 0, 0, 0,
    0, .pendingActivation⟩

def positionAvailable (position : Position) : Except String Amount := do
  let sum ← position.activeAmount.plus position.pendingActivationAmount
  sum.plus position.pendingUnbondingAmount

def statusFor (position : Position) : Except String StakePositionStatus :=
  if position.status == .tombstoned then .ok .tombstoned
  else do
    let total ← positionAvailable position
    if total.isZero then return .withdrawn
    else if position.activeAmount.isPositive || position.pendingUnbondingAmount.isPositive then
      return if position.pendingUnbondingAmount.isPositive && position.activeAmount.isZero
        then .unbonding else .active
    else return .pendingActivation

/-- `INT64_MAX`, for times. -/
def int64MaxTime : Int := 9223372036854775807

/-- `AccountabilityWindow::kUnbondingBlocks`. -/
def unbondingDelayBlocks : UInt64 := 28 * 43200

/-- `kUnbondingSeconds + kFutureBlockSkewSeconds`. -/
def unbondingDelaySeconds : Int := 28 * 24 * 60 * 60 + 300

def withdrawableTime (blockTimestamp : Int) : Except String Int :=
  if blockTimestamp ≤ 0 || int64MaxTime - unbondingDelaySeconds < blockTimestamp then
    .error "Stake withdrawable time would overflow."
  else .ok (blockTimestamp + unbondingDelaySeconds)

--
-- Activation (node/ValidatorSetSchedule.hpp)
--

def activationEpoch (transactionHeight : UInt64) : Except String UInt64 :=
  if transactionHeight == 0 then .error "Validator activation requires a positive height."
  else
    let epoch := (transactionHeight - 1) / 43200 + 1
    if uint64Max - 2 < epoch then .error "Validator activation epoch overflow."
    else .ok (epoch + 2)

def activationHeight (transactionHeight : UInt64) : Except String UInt64 := do
  let epoch ← activationEpoch transactionHeight
  if (uint64Max - 1) / 43200 < epoch - 1 then .error "Validator activation height overflow."
  else return (epoch - 1) * 43200 + 1

--
-- Lifecycle records
--

inductive StakeAction
  | deposit
  | topUp
  | unlock
  | withdraw
  | validatorExitUnbond
  | activate
  | slash
  | validatorKeyRotate
  deriving DecidableEq

/-- The text of an action. -/
def StakeAction.text : StakeAction → String
  | .deposit => "DEPOSIT"
  | .topUp => "TOP_UP"
  | .unlock => "UNLOCK"
  | .withdraw => "WITHDRAW"
  | .validatorExitUnbond => "VALIDATOR_EXIT_UNBOND"
  | .activate => "ACTIVATE"
  | .slash => "SLASH"
  | .validatorKeyRotate => "VALIDATOR_KEY_ROTATE"

structure StakeLifecycleRecord where
  recordId : String
  action : StakeAction
  transactionId : String
  ownerAddress : String
  validatorAddress : String
  previousValidatorAddress : String
  amount : Amount
  activeAfter : Amount
  pendingActivationAfter : Amount
  pendingUnbondingAfter : Amount
  slashedAfter : Amount
  blockHeight : UInt64
  activationHeight : UInt64
  withdrawableHeight : UInt64
  reason : String

def StakeLifecycleRecord.isValid (record : StakeLifecycleRecord) : Bool :=
  !record.recordId.isEmpty && !record.action.text.isEmpty
    && isSafeStakingScalar record.ownerAddress && isSafeStakingScalar record.validatorAddress
    && (record.previousValidatorAddress.isEmpty
      || isSafeStakingScalar record.previousValidatorAddress)
    && ((record.action == .validatorKeyRotate) == !record.previousValidatorAddress.isEmpty)
    && (record.previousValidatorAddress.isEmpty
      || record.previousValidatorAddress != record.validatorAddress)
    && !record.amount.isNegative && !record.activeAfter.isNegative
    && !record.pendingActivationAfter.isNegative && !record.pendingUnbondingAfter.isNegative
    && !record.slashedAfter.isNegative && record.blockHeight != 0

--
-- The registry
--

structure StakingRegistry where
  accounts : SortedMap String StakeAccount
  positionsByValidatorAndOwner : SortedMap String (SortedMap String Position)
  lifecycleRecords : List StakeLifecycleRecord
  rotationSuccessors : SortedMap String String

namespace StakingRegistry

def empty : StakingRegistry := ⟨SortedMap.empty, SortedMap.empty, [], SortedMap.empty⟩

/-- A method of the registry. -/
abbrev Method := EStateM String StakingRegistry

/-- The body of a loop over positions: the position at hand, the variables of the loop, and
the lifecycle records. -/
abbrev LoopBody (α : Type) := EStateM String (Position × α × List StakeLifecycleRecord)

def accountOrDefault (registry : StakingRegistry) (validatorAddress : String) : StakeAccount :=
  (registry.accounts.find? validatorAddress).getD (StakeAccount.ofAddress validatorAddress)

/-- The positions of a validator; a validator without an entry has none. -/
def positionsOf (registry : StakingRegistry) (validatorAddress : String) :
    SortedMap String Position :=
  (registry.positionsByValidatorAndOwner.find? validatorAddress).getD SortedMap.empty

/-- The registry with these positions for a validator. -/
def withPositions (registry : StakingRegistry) (validatorAddress : String)
    (positions : SortedMap String Position) : StakingRegistry :=
  { registry with
    positionsByValidatorAndOwner :=
      registry.positionsByValidatorAndOwner.insert validatorAddress positions }

/-- The step of `currentAddressFor`, at most `fuel` times. -/
def followRotations (successors : SortedMap String String) : Nat → String → Except String String
  | 0, _ => .error "Validator key-rotation chain contains a cycle."
  | fuel + 1, current =>
    match successors.find? current with
    | none => .ok current
    | some next => followRotations successors fuel next

def currentAddressFor (registry : StakingRegistry) (historicalAddress : String) :
    Except String String :=
  followRotations registry.rotationSuccessors (registry.rotationSuccessors.entries.length + 1)
    historicalAddress

/-- The totals of positions: what is available and what was slashed. -/
def addPosition (totals : Amount × Amount) (position : Position) :
    Except String (Amount × Amount) := do
  let own ← positionAvailable position
  let available ← totals.1.plus own
  let slashed ← totals.2.plus position.slashedAmount
  return (available, slashed)

def materialize (positions : SortedMap String Position) : Except String (Amount × Amount) :=
  positions.entries.foldlM (fun totals entry => addPosition totals entry.2)
    (Amount.zero, Amount.zero)

section Methods

variable (hashBytes : String → String)

def stakePositionId (ownerAddress validatorAddress : String) : String :=
  if !isSafeStakingScalar ownerAddress || !isSafeStakingScalar validatorAddress then ""
  else hashBytes (cString ("stake-position:" ++ validatorAddress ++ ":" ++ ownerAddress))

/-- The record that `appendLifecycleRecord` appends to `records`. -/
def lifecycleRecord (records : List StakeLifecycleRecord) (action : StakeAction)
    (transactionId ownerAddress validatorAddress : String) (amount : Amount)
    (blockHeight : UInt64) (position : Position) (reason previousValidatorAddress : String) :
    Except String StakeLifecycleRecord :=
  let record : StakeLifecycleRecord :=
    { recordId := hashBytes (cString ("stake-lifecycle:" ++ toString records.length ++ ":"
        ++ action.text ++ ":" ++ validatorAddress ++ ":" ++ ownerAddress ++ ":"
        ++ toString blockHeight ++ ":" ++ toString amount.rawUnits ++ ":" ++ transactionId ++ ":"
        ++ previousValidatorAddress))
      action := action
      transactionId := transactionId
      ownerAddress := ownerAddress
      validatorAddress := validatorAddress
      previousValidatorAddress := previousValidatorAddress
      amount := amount
      activeAfter := position.activeAmount
      pendingActivationAfter := position.pendingActivationAmount
      pendingUnbondingAfter := position.pendingUnbondingAmount
      slashedAfter := position.slashedAmount
      blockHeight := blockHeight
      activationHeight := position.activationHeight
      withdrawableHeight := position.withdrawableHeight
      reason := reason }
  if !record.isValid then .error "Generated invalid stake lifecycle record." else .ok record

def appendLifecycleRecord (action : StakeAction)
    (transactionId ownerAddress validatorAddress : String) (amount : Amount)
    (blockHeight : UInt64) (position : Position) (reason : String) : Method Unit := do
  let registry ← get
  let record ← call (lifecycleRecord hashBytes registry.lifecycleRecords action transactionId
    ownerAddress validatorAddress amount blockHeight position reason "")
  set { registry with lifecycleRecords := registry.lifecycleRecords ++ [record] }

/-- A loop over the positions of a validator. -/
def visitPositions {α : Type} (validatorAddress : String) (body : String → LoopBody α Unit)
    (start : α) : Method α := do
  let registry ← get
  match registry.positionsByValidatorAndOwner.find? validatorAddress with
  | none => return start
  | some positions =>
    let ended := positions.visit body (start, registry.lifecycleRecords)
    set { registry.withPositions validatorAddress (left ended).1 with
      lifecycleRecords := (left ended).2.2 }
    match ended with
    | .ok _ _ => return (left ended).2.1
    | .error reason _ => throw reason

/-- The position that `setAccount` makes for an account without positions. -/
def ownPosition (account : StakeAccount) (available : Amount) : Position :=
  { Position.empty with
    positionId := stakePositionId hashBytes account.validatorAddress account.validatorAddress
    activeAmount := available
    slashedAmount := account.slashedAmount
    lockHeight := 1
    activationHeight := 1
    status := if account.tombstoned then .tombstoned
      else if available.isPositive then .active else .withdrawn }

/-- The end of `setAccount`, when no positions are left. -/
def createOwnPosition (account : StakeAccount) : Method Unit := do
  let available ← call (account.bondedAmount.minus account.slashedAmount)
  if available.isPositive || account.slashedAmount.isPositive then
    modify fun registry => registry.withPositions account.validatorAddress
      (SortedMap.empty.insert account.validatorAddress (ownPosition hashBytes account available))
  else pure ()

/-- The part of `setAccount` that drops positions which do not add up to the account. -/
def reconcilePositions (account : StakeAccount) : Method Unit := do
  let registry ← get
  let positions := registry.positionsOf account.validatorAddress
  let totals ← call (materialize positions)
  if positions.entries.isEmpty then createOwnPosition hashBytes account
  else do
    let bonded ← call (totals.1.plus totals.2)
    if account.bondedAmount != bonded || account.slashedAmount != totals.2 then do
      modify fun registry => registry.withPositions account.validatorAddress SortedMap.empty
      createOwnPosition hashBytes account
    else pure ()

/-- The account and the positions of one validator, written together. -/
def rewritten (registry : StakingRegistry) (positions : SortedMap String Position)
    (account : StakeAccount) : StakingRegistry :=
  { registry.withPositions account.validatorAddress positions with
    accounts := registry.accounts.insert account.validatorAddress account }

def setAccount (validatorAddress : String) (account : StakeAccount) : Method Unit := do
  refuseIf (!isSafeStakingScalar validatorAddress || !account.isValid
    || account.validatorAddress != validatorAddress)
    "Staking registry key does not match a valid stake account."
  -- `m_positionsByValidatorAndOwner[validatorAddress]` makes an entry
  modify fun registry => registry.rewritten (registry.positionsOf validatorAddress) account
  reconcilePositions hashBytes account

/-- The body of the loop of `rewriteAccountFromPositions`. -/
def restate (preserveTombstoned : Bool) : LoopBody (Amount × Amount) Unit := do
  let (position, totals, records) ← get
  let status ← call (if preserveTombstoned then .ok .tombstoned else statusFor position)
  set ({ position with status := status }, totals, records)
  let sum ← call (addPosition totals position)
  set ({ position with status := status }, sum, records)

def rewriteAccountFromPositions (validatorAddress : String)
    (preserveJailed preserveTombstoned : Bool) : Method Unit := do
  let totals ← visitPositions validatorAddress (fun _ => restate preserveTombstoned)
    (Amount.zero, Amount.zero)
  let bonded ← call (totals.1.plus totals.2)
  let account ← call (StakeAccount.complete ⟨validatorAddress, bonded, totals.2,
    preserveJailed || preserveTombstoned, preserveTombstoned⟩)
  setAccount hashBytes validatorAddress account

/-- `requireValidOperationInput` lets the call pass. -/
def validOperationInput (ownerAddress validatorAddress : String) (amount : Amount)
    (blockHeight : UInt64) : Bool :=
  isSafeStakingScalar ownerAddress && isSafeStakingScalar validatorAddress
    && amount.isPositive && blockHeight != 0

/-- A position that takes no deposit. -/
def refusesDeposit (position : Position) : Bool :=
  position.status == .tombstoned || position.pendingUnbondingAmount.isPositive

/-- The position with a deposit in it, before its status is set. -/
def deposited (found : Option Position) (ownerAddress validatorAddress : String)
    (blockHeight activationHeight : UInt64) (amount : Amount) : Except String Position := do
  let next := found.getD Position.empty
  let named := if next.positionId.isEmpty then
      { next with
        positionId := stakePositionId hashBytes ownerAddress validatorAddress
        lockHeight := blockHeight }
    else next
  let pending ← named.pendingActivationAmount.plus amount
  let filled := { named with
    pendingActivationAmount := pending
    activationHeight := activationHeight }
  let status ← statusFor filled
  return { filled with status := status }

/-- The position after a write that went through `rewriteAccountFromPositions`. -/
def positionAt (validatorAddress ownerAddress : String) : Method Position := do
  let registry ← get
  match (registry.positionsOf validatorAddress).find? ownerAddress with
  | some position => return position
  | none => throw "map::at"

def deposit (ownerAddress validatorAddress : String) (amount : Amount) (blockHeight : UInt64)
    (requireExistingPosition : Bool) (transactionId : String) : Method Unit := do
  refuseIf (!validOperationInput ownerAddress validatorAddress amount blockHeight)
    "Invalid staking lifecycle operation."
  let height ← call (activationHeight blockHeight)
  let registry ← get
  let current := registry.accountOrDefault validatorAddress
  refuseIf current.tombstoned "Cannot deposit into a tombstoned validator."
  let positions := registry.positionsOf validatorAddress
  -- `m_positionsByValidatorAndOwner[validatorAddress]` makes an entry
  set (registry.withPositions validatorAddress positions)
  let found := positions.find? ownerAddress
  refuseIf (requireExistingPosition && found.isNone)
    "Stake top-up requires an existing owner position."
  refuseIf (found.any refusesDeposit) "Stake top-up requires a non-unbonding live position."
  let next ← call (deposited hashBytes found ownerAddress validatorAddress blockHeight height amount)
  modify fun registry =>
    registry.withPositions validatorAddress (positions.insert ownerAddress next)
  rewriteAccountFromPositions hashBytes validatorAddress current.jailed current.tombstoned
  let written ← positionAt validatorAddress ownerAddress
  appendLifecycleRecord hashBytes (if requireExistingPosition then .topUp else .deposit)
    transactionId ownerAddress validatorAddress amount blockHeight written
    (if requireExistingPosition then "stake top-up pending activation"
      else "stake deposit pending activation")

/-- The unbonding fields of a position, written together. -/
def Position.unbond (position : Position) (active pendingUnbonding : Amount)
    (blockHeight : UInt64) (blockTimestamp deadline : Int) : Position :=
  { position with
    activeAmount := active
    pendingUnbondingAmount := pendingUnbonding
    unbondingStartHeight := blockHeight
    withdrawableHeight := blockHeight + unbondingDelayBlocks
    unbondingStartTime := blockTimestamp
    withdrawableTime := deadline }

/-- Moves `amount` of the active stake of an owner to unbonding, as `requestUnlock` and
`requestValidatorExit` do. -/
def moveToUnbonding (action : StakeAction) (reason ownerAddress validatorAddress : String)
    (position : Position) (amount : Amount) (blockHeight : UInt64)
    (blockTimestamp deadline : Int) (transactionId : String) : Method Unit := do
  let registry ← get
  let current := registry.accountOrDefault validatorAddress
  let positions := registry.positionsOf validatorAddress
  let active ← call (position.activeAmount.minus amount)
  set (registry.withPositions validatorAddress
    (positions.insert ownerAddress { position with activeAmount := active }))
  let pendingUnbonding ← call (position.pendingUnbondingAmount.plus amount)
  let moved := Position.unbond position active pendingUnbonding blockHeight blockTimestamp deadline
  set (registry.withPositions validatorAddress (positions.insert ownerAddress moved))
  let status ← call (statusFor moved)
  set (registry.withPositions validatorAddress
    (positions.insert ownerAddress { moved with status := status }))
  rewriteAccountFromPositions hashBytes validatorAddress current.jailed current.tombstoned
  let written ← positionAt validatorAddress ownerAddress
  appendLifecycleRecord hashBytes action transactionId ownerAddress validatorAddress amount
    blockHeight written reason

def requestUnlock (ownerAddress validatorAddress : String) (amount : Amount)
    (blockHeight : UInt64) (blockTimestamp : Int) (transactionId : String) : Method Unit := do
  refuseIf (!validOperationInput ownerAddress validatorAddress amount blockHeight)
    "Invalid staking lifecycle operation."
  refuseIf (uint64Max - unbondingDelayBlocks < blockHeight)
    "Stake withdrawable height would overflow."
  let deadline ← call (withdrawableTime blockTimestamp)
  let registry ← get
  let current := registry.accountOrDefault validatorAddress
  refuseIf (current.jailed || current.tombstoned)
    "Jailed or tombstoned validator stake cannot be unlocked."
  refuseIf (!registry.positionsByValidatorAndOwner.contains validatorAddress)
    "Validator has no staking positions."
  match (registry.positionsOf validatorAddress).find? ownerAddress with
  | none => throw "Stake unlock exceeds active owner stake."
  | some position =>
    refuseIf (position.activeAmount.rawUnits < amount.rawUnits)
      "Stake unlock exceeds active owner stake."
    moveToUnbonding hashBytes .unlock "stake moved to unbonding" ownerAddress validatorAddress
      position amount blockHeight blockTimestamp deadline transactionId

def withdraw (ownerAddress validatorAddress : String) (amount : Amount) (blockHeight : UInt64)
    (blockTimestamp : Int) (transactionId : String) : Method Unit := do
  refuseIf (!validOperationInput ownerAddress validatorAddress amount blockHeight)
    "Invalid staking lifecycle operation."
  let registry ← get
  let current := registry.accountOrDefault validatorAddress
  refuseIf (current.jailed || current.tombstoned)
    "Jailed or tombstoned validator stake cannot be withdrawn."
  refuseIf (!registry.positionsByValidatorAndOwner.contains validatorAddress)
    "Validator has no staking positions."
  let positions := registry.positionsOf validatorAddress
  match positions.find? ownerAddress with
  | none => throw "Stake withdrawal exceeds the owner's unbonding position."
  | some position =>
    refuseIf (position.pendingUnbondingAmount.rawUnits < amount.rawUnits)
      "Stake withdrawal exceeds the owner's unbonding position."
    refuseIf (position.withdrawableHeight == 0 || position.withdrawableTime == 0
      || blockHeight < position.withdrawableHeight || blockTimestamp < position.withdrawableTime)
      "Stake unbonding cooldown has not elapsed."
    let pendingUnbonding ← call (position.pendingUnbondingAmount.minus amount)
    let reduced := { position with pendingUnbondingAmount := pendingUnbonding }
    set (registry.withPositions validatorAddress (positions.insert ownerAddress reduced))
    let withdrawn ← call (position.withdrawnAmount.plus amount)
    let paid := { reduced with withdrawnAmount := withdrawn }
    set (registry.withPositions validatorAddress (positions.insert ownerAddress paid))
    let status ← call (statusFor paid)
    set (registry.withPositions validatorAddress
      (positions.insert ownerAddress { paid with status := status }))
    rewriteAccountFromPositions hashBytes validatorAddress current.jailed current.tombstoned
    let written ← positionAt validatorAddress ownerAddress
    appendLifecycleRecord hashBytes .withdraw transactionId ownerAddress validatorAddress amount
      blockHeight written "withdrawable stake credited to liquid account"

/-- `requestValidatorExit`: without an active position it returns and does nothing. -/
def requestValidatorExit (ownerAddress validatorAddress : String) (blockHeight : UInt64)
    (blockTimestamp : Int) (transactionId : String) : Method Unit := do
  refuseIf (!isSafeStakingScalar ownerAddress || !isSafeStakingScalar validatorAddress
    || blockHeight == 0) "Invalid validator exit staking operation."
  refuseIf (uint64Max - unbondingDelayBlocks < blockHeight)
    "Stake withdrawable height would overflow."
  let deadline ← call (withdrawableTime blockTimestamp)
  let registry ← get
  match (registry.positionsOf validatorAddress).find? ownerAddress with
  | none => return ()
  | some position =>
    if position.activeAmount.isZero then return ()
    else
      moveToUnbonding hashBytes .validatorExitUnbond
        "validator exit moved active stake to unbonding" ownerAddress validatorAddress position
        position.activeAmount blockHeight blockTimestamp deadline transactionId

/-- The body of the inner loop of `activatePending`; `changed` is its variable. -/
def activatePosition (validatorAddress : String) (boundaryHeight : UInt64) (ownerAddress : String) :
    LoopBody Bool Unit := do
  let (position, changed, records) ← get
  if position.pendingActivationAmount.isPositive
      && position.activationHeight ≤ boundaryHeight then do
    let active ← call (position.activeAmount.plus position.pendingActivationAmount)
    let moved := { position with
      activeAmount := active
      pendingActivationAmount := Amount.zero }
    set (moved, changed, records)
    let status ← call (statusFor moved)
    set ({ moved with status := status }, changed, records)
    let record ← call (lifecycleRecord hashBytes records .activate "" ownerAddress validatorAddress
      position.pendingActivationAmount boundaryHeight { moved with status := status }
      "pending stake activated at deterministic height" "")
    set ({ moved with status := status }, true, records ++ [record])
  else pure ()

/-- The outer loop of `activatePending`. Once a position has changed, the accounts of all later
validators are rewritten too. -/
def activateValidators (boundaryHeight : UInt64) : List String → Bool → Method Bool
  | [], changed => return changed
  | validator :: rest, changed => do
    let registry ← get
    let current := registry.accountOrDefault validator
    if current.tombstoned then activateValidators boundaryHeight rest changed
    else do
      let changed ← visitPositions validator
        (activatePosition hashBytes validator boundaryHeight) changed
      if changed then do
        rewriteAccountFromPositions hashBytes validator current.jailed current.tombstoned
        activateValidators boundaryHeight rest changed
      else activateValidators boundaryHeight rest changed

def activatePending (boundaryHeight : UInt64) : Method Bool := do
  if boundaryHeight == 0 then return false
  else do
    let registry ← get
    activateValidators hashBytes boundaryHeight registry.positionsByValidatorAndOwner.keys false

/-- The parts of a position that a penalty takes from, in the order it does. -/
inductive Bucket
  | active
  | pendingActivation
  | unbonding
  deriving DecidableEq

def Bucket.amount (position : Position) : Bucket → Amount
  | .active => position.activeAmount
  | .pendingActivation => position.pendingActivationAmount
  | .unbonding => position.pendingUnbondingAmount

def Bucket.reduce (position : Position) (amount : Amount) : Bucket → Position
  | .active => { position with activeAmount := amount }
  | .pendingActivation => { position with pendingActivationAmount := amount }
  | .unbonding => { position with pendingUnbondingAmount := amount }

/-- Takes what remains of a penalty from one part; answers how much it took. -/
def drain (bucket : Bucket) : LoopBody Amount Amount := do
  let (position, remainingSlash, records) ← get
  let taken := if (bucket.amount position).rawUnits < remainingSlash.rawUnits
    then bucket.amount position else remainingSlash
  if taken.isPositive then do
    let reduced ← call ((bucket.amount position).minus taken)
    set (bucket.reduce position reduced, remainingSlash, records)
    let slashed ← call (position.slashedAmount.plus taken)
    let remaining ← call (remainingSlash.minus taken)
    set ({ bucket.reduce position reduced with slashedAmount := slashed }, remaining, records)
    return taken
  else return taken

/-- The body of the loop of `applyPenaltyState`; it breaks when nothing remains. -/
def penalizePosition (validatorAddress : String) (tombstoned : Bool) (blockHeight : UInt64)
    (ownerAddress : String) : LoopBody Amount Unit := do
  let (_, remainingSlash, _) ← get
  if remainingSlash.isZero then pure ()
  else do
    let fromActive ← drain .active
    let fromPendingActivation ← drain .pendingActivation
    let fromUnbonding ← drain .unbonding
    let (position, remaining, records) ← get
    let status ← call (if tombstoned then .ok .tombstoned else statusFor position)
    let restated := { position with status := status }
    set (restated, remaining, records)
    let sum ← call (fromActive.plus fromPendingActivation)
    let applied ← call (sum.plus fromUnbonding)
    if applied.isPositive then do
      let record ← call (lifecycleRecord hashBytes records .slash "" ownerAddress validatorAddress
        applied blockHeight restated
        (if tombstoned then "stake slashed and validator tombstoned" else "stake slashed") "")
      set (restated, remaining, records ++ [record])
    else pure ()

def applyPenaltyState (validatorAddress : String) (totalSlashedAmount : Amount)
    (jailed tombstoned : Bool) (blockHeight : UInt64) : Method Unit := do
  refuseIf (!isSafeStakingScalar validatorAddress || totalSlashedAmount.isNegative
    || blockHeight == 0) "Invalid staking penalty state."
  let registry ← get
  let current := registry.accountOrDefault validatorAddress
  refuseIf (totalSlashedAmount.rawUnits < current.slashedAmount.rawUnits)
    "Canonical slashing total cannot decrease."
  let remainingSlash ← call (totalSlashedAmount.minus current.slashedAmount)
  let remaining ← visitPositions validatorAddress
    (penalizePosition hashBytes validatorAddress tombstoned blockHeight) remainingSlash
  refuseIf remaining.isPositive "Canonical slashing total exceeds remaining stake positions."
  rewriteAccountFromPositions hashBytes validatorAddress (jailed || tombstoned) tombstoned
  let rewrittenRegistry ← get
  let rewritten := rewrittenRegistry.accountOrDefault validatorAddress
  if rewritten.slashedAmount != totalSlashedAmount then do
    let account ← call (StakeAccount.complete ⟨validatorAddress, rewritten.bondedAmount,
      totalSlashedAmount, jailed || tombstoned, tombstoned⟩)
    setAccount hashBytes validatorAddress account
  else pure ()

def unjail (validatorAddress : String) : Method Unit := do
  let registry ← get
  let account := registry.accountOrDefault validatorAddress
  refuseIf (!account.isValid || !account.jailed || account.tombstoned)
    "Validator staking state cannot be unjailed."
  setAccount hashBytes validatorAddress account.unjail

--
-- The audit
--

/-- What `isValid` asks of an unbonding position about its deadline. -/
def deadlineMatches (position : Position) : Bool :=
  !(position.unbondingStartHeight == 0 || position.unbondingStartTime ≤ 0
    || uint64Max - unbondingDelayBlocks < position.unbondingStartHeight
    || position.withdrawableHeight != position.unbondingStartHeight + unbondingDelayBlocks
    || int64MaxTime - unbondingDelaySeconds < position.unbondingStartTime
    || position.withdrawableTime != position.unbondingStartTime + unbondingDelaySeconds)

/-- What `isValid` asks of one position. -/
def positionIsValid (validatorAddress ownerAddress : String) (position : Position) : Bool :=
  if !isSafeStakingScalar ownerAddress
      || position.positionId != stakePositionId hashBytes ownerAddress validatorAddress
      || position.lockHeight == 0 || position.activationHeight == 0
      || position.activeAmount.isNegative || position.pendingActivationAmount.isNegative
      || position.pendingUnbondingAmount.isNegative || position.withdrawnAmount.isNegative
      || position.slashedAmount.isNegative || position.rewardsPending.isNegative
      || position.unbondingStartTime < 0 || position.withdrawableTime < 0 then false
  else if position.pendingUnbondingAmount.isPositive && !deadlineMatches position then false
  else true

/-- The loop over the positions of one validator; `none` is `return false`. -/
def auditPositions (validatorAddress : String) :
    List (String × Position) → Amount × Amount → Except String (Option (Amount × Amount))
  | [], totals => .ok (some totals)
  | (owner, position) :: rest, totals =>
    if !positionIsValid hashBytes validatorAddress owner position then .ok none
    else do
      let sum ← addPosition totals position
      auditPositions validatorAddress rest sum

/-- The loop over the validators. -/
def auditValidators (accounts : SortedMap String StakeAccount) :
    List (String × SortedMap String Position) → Except String Bool
  | [] => .ok true
  | (validator, positions) :: rest =>
    if !isSafeStakingScalar validator then .ok false
    else do
      match ← auditPositions hashBytes validator positions.entries (Amount.zero, Amount.zero) with
      | none => return false
      | some totals =>
        match accounts.find? validator with
        | none => return false
        | some account =>
          if account.slashedAmount != totals.2 then return false
          else do
            let bonded ← totals.1.plus totals.2
            if account.bondedAmount != bonded then return false
            else auditValidators accounts rest

/-- The rotations that the records tell of; `none` is `return false`. -/
def expectedRotations :
    List StakeLifecycleRecord → SortedMap String String → Option (SortedMap String String)
  | [], expected => some expected
  | record :: rest, expected =>
    if !record.isValid then none
    else if record.action == .validatorKeyRotate then
      match expected.find? record.previousValidatorAddress with
      | none => expectedRotations rest
          (expected.insert record.previousValidatorAddress record.validatorAddress)
      | some successor =>
        if successor != record.validatorAddress then none else expectedRotations rest expected
    else expectedRotations rest expected

/-- One rotated address: its chain ends at another address that has an account. -/
def rotationIsValid (registry : StakingRegistry) (oldAddress : String) : Bool :=
  match registry.currentAddressFor oldAddress with
  | .error _ => false
  | .ok current =>
    !(current == oldAddress || registry.accounts.contains oldAddress
      || !registry.accounts.contains current)

def isValid (registry : StakingRegistry) : Except String Bool :=
  if !registry.accounts.entries.all (fun entry => isSafeStakingScalar entry.1
      && entry.2.isValid && entry.2.validatorAddress == entry.1) then .ok false
  else do
    let validators ← auditValidators hashBytes registry.accounts
      registry.positionsByValidatorAndOwner.entries
    if !validators then return false
    else match expectedRotations registry.lifecycleRecords SortedMap.empty with
      | none => return false
      | some expected =>
        if expected != registry.rotationSuccessors then return false
        else return registry.rotationSuccessors.keys.all registry.rotationIsValid

--
-- Key rotation
--

/-- The body of the loop of `rotateValidatorAddress` over the moved positions. -/
def rotatePosition (oldValidatorAddress newValidatorAddress : String) (blockHeight : UInt64)
    (transactionId ownerAddress : String) :
    EStateM String (Position × List StakeLifecycleRecord) Unit := do
  let (position, records) ← get
  let named := { position with
    positionId := stakePositionId hashBytes ownerAddress newValidatorAddress }
  let available ← call (positionAvailable named)
  let record ← call (lifecycleRecord hashBytes records .validatorKeyRotate transactionId ownerAddress
    newValidatorAddress available blockHeight named
    ("validator key rotation from " ++ oldValidatorAddress) oldValidatorAddress)
  set (named, records ++ [record])

/-- The moved positions with their new ids; the records are appended on the way. -/
def renamePositions (oldValidatorAddress newValidatorAddress : String) (blockHeight : UInt64)
    (transactionId : String) (moved : SortedMap String Position) :
    Method (SortedMap String Position) := do
  let registry ← get
  let ended := moved.visit (rotatePosition hashBytes oldValidatorAddress newValidatorAddress
    blockHeight transactionId) registry.lifecycleRecords
  set { registry with lifecycleRecords := (left ended).2 }
  match ended with
  | .ok _ _ => return (left ended).1
  | .error reason _ => throw reason

/-- `map.emplace`: an entry that is there stays. -/
def emplace (map : SortedMap String String) (key value : String) : SortedMap String String :=
  if map.contains key then map else map.insert key value

def rotateValidatorAddress (oldValidatorAddress newValidatorAddress ownerAddress : String)
    (blockHeight : UInt64) (transactionId : String) : Method Unit := do
  refuseIf (!isSafeStakingScalar oldValidatorAddress || !isSafeStakingScalar newValidatorAddress
    || !isSafeStakingScalar ownerAddress || oldValidatorAddress == newValidatorAddress
    || blockHeight == 0) "Invalid validator key rotation staking input."
  let registry ← get
  refuseIf (registry.accounts.contains newValidatorAddress
    || registry.positionsByValidatorAndOwner.contains newValidatorAddress
    || registry.rotationSuccessors.contains newValidatorAddress)
    "New validator address already has staking history or state."
  match registry.accounts.find? oldValidatorAddress,
      registry.positionsByValidatorAndOwner.find? oldValidatorAddress with
  | some oldAccount, some movedPositions =>
    refuseIf (!movedPositions.contains ownerAddress)
      "Validator key rotation owner has no stake position."
    set { registry with
      accounts := registry.accounts.erase oldValidatorAddress
      positionsByValidatorAndOwner :=
        registry.positionsByValidatorAndOwner.erase oldValidatorAddress }
    let renamed ← renamePositions hashBytes oldValidatorAddress newValidatorAddress blockHeight
      transactionId movedPositions
    modify fun registry => registry.withPositions newValidatorAddress renamed
    let account ← call (StakeAccount.complete { oldAccount with
      validatorAddress := newValidatorAddress })
    modify fun registry =>
      { registry with
        accounts := registry.accounts.insert newValidatorAddress account
        rotationSuccessors :=
          emplace registry.rotationSuccessors oldValidatorAddress newValidatorAddress }
    let rotated ← get
    let valid ← call (isValid hashBytes rotated)
    refuseIf (!valid) "Staking registry failed post key-rotation audit."
  | _, _ => throw "Old validator has no staking state to rotate."

end Methods

end StakingRegistry

end Nodo.Model
