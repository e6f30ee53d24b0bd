import Mathlib.Algebra.BigOperators.Group.Finset.Piecewise
import Mathlib.Algebra.Order.BigOperators.Group.Finset
import Mathlib.Logic.Relation
import Nodo.Model.StakingAudit

/-!
# Nodo — where deposited stake goes

What an owner deposits to a validator moves between the parts of a position and from address to
address when the validator rotates its key; it leaves by a withdrawal. Here runs of calls that
all return are followed from the empty registry: what an owner holds over all addresses of one
validator, and what he moved to unbonding and when.

The registry does not compare block heights of different calls. A later unlock overwrites the
deadline of an earlier one, so stake is held back long enough only if the heights and times that
the calls pass do not decrease; blocks pass them in order.

## Results

* `lineageOf_eq_iff` — addresses of one lineage are those linked by rotations.
* `method_stepped` — what a call that returned did to every position.
* `run_conserves` — stake is conserved, slashed amounts do not decrease, and nothing is withdrawn
  before its delay is over.
-/

namespace Nodo.Model

open ThrowingState

namespace StakingRegistry

--
-- Runs of calls that return
--

/-- The calls one after the other. -/
def performAll (hashBytes : String → String) : List Operation → Method Unit
  | [] => pure ()
  | operation :: rest => do
    operation.method hashBytes
    performAll hashBytes rest

/-- The name of an address's lineage: linked addresses have the same. -/
def lineageOf : List Operation → String → String
  | [], address => address
  | .rotateValidatorAddress old new _ _ _ :: rest, address =>
    if lineageOf rest address = lineageOf rest old then lineageOf rest new
    else lineageOf rest address
  | _ :: rest, address => lineageOf rest address

/-- The addresses of the lineage of `validator`. -/
def inLineage (operations : List Operation) (validator address : String) : Bool :=
  lineageOf operations address == lineageOf operations validator

/-- The position of an owner with a validator, empty if there is none. -/
def holding (registry : StakingRegistry) (validator owner : String) : Position :=
  ((registry.positionsOf validator).find? owner).getD Position.empty

/-- All that was ever deposited into a position. -/
def stakeUnits (position : Position) : Nat :=
  availableUnits position + slashedUnits position + position.withdrawnAmount.rawUnits

def withdrawnUnits (position : Position) : Nat := position.withdrawnAmount.rawUnits

/-- What an owner holds over the addresses that `among` picks. -/
def held (units : Position → Nat) (owner : String) (among : String → Bool)
    (registry : StakingRegistry) : Nat :=
  ((registry.positionsByValidatorAndOwner.keys.filter among).map
    fun validator => units (registry.holding validator owner)).sum

/-- What a call deposits for an owner at one of the addresses that `among` picks. -/
def Operation.deposits (owner : String) (among : String → Bool) : Operation → Nat
  | .deposit ownerAddress validatorAddress amount _ _ _ =>
    if ownerAddress == owner && among validatorAddress then amount.rawUnits else 0
  | _ => 0

/-- What an owner deposited in a run. -/
def depositedBy (owner : String) (among : String → Bool) (operations : List Operation) : Nat :=
  (operations.map (Operation.deposits owner among)).sum

/-- Stake moved to unbonding. -/
structure Move where
  validator : String
  owner : String
  amount : Nat
  height : Nat
  time : Int
  deriving DecidableEq

/-- The move that a call makes. -/
def Operation.move? (registry : StakingRegistry) : Operation → Option Move
  | .requestUnlock owner validator amount height time _ =>
    some ⟨validator, owner, amount.rawUnits, height.toNat, time⟩
  | .requestValidatorExit owner validator height time _ =>
    let active := (registry.holding validator owner).activeAmount
    if active.isZero then none else some ⟨validator, owner, active.rawUnits, height.toNat, time⟩
  | _ => none

/-- The moves of a run, in order. -/
def movesOf (hashBytes : String → String) : StakingRegistry → List Operation → List Move
  | _, [] => []
  | registry, operation :: rest =>
    (operation.move? registry).toList
      ++ movesOf hashBytes (afterCall hashBytes registry operation) rest

/-- The unbonding delay of a move is over, in blocks and in seconds. -/
def Move.matured (height : Nat) (time : Int) (move : Move) : Bool :=
  move.height + unbondingDelayBlocks.toNat ≤ height && move.time + unbondingDelaySeconds ≤ time

def amountOf (moves : List Move) : Nat := (moves.map Move.amount).sum

/-- What an owner moved to unbonding at the addresses that `among` picks, so early that the delay
is over. -/
def maturedBy (owner : String) (among : String → Bool) (height : Nat) (time : Int)
    (moves : List Move) : Nat :=
  amountOf (moves.filter fun move =>
    move.owner == owner && among move.validator && move.matured height time)

/-- The block height and time of a call that has both. -/
def Operation.clock : Operation → Option (Nat × Int)
  | .requestUnlock _ _ _ height time _ => some (height.toNat, time)
  | .withdraw _ _ _ height time _ => some (height.toNat, time)
  | .requestValidatorExit _ _ height time _ => some (height.toNat, time)
  | _ => none

def clocksOf (operations : List Operation) : List (Nat × Int) :=
  operations.filterMap Operation.clock

/-- No call passes a block height or a block time below that of an earlier one. -/
def clocksOrdered (operations : List Operation) : Prop :=
  (clocksOf operations).Pairwise fun earlier later =>
    earlier.1 ≤ later.1 ∧ earlier.2 ≤ later.2

end StakingRegistry

namespace StakingRegistry

variable {hashBytes : String → String} {registry registry' registry'' : StakingRegistry}
  {validator owner : String} {position position' position'' : Position}

--
-- What a call does to a position
--

/-- What a call can do to one position: put `added` into it and move amounts between its parts,
move an amount to unbonding, or pay an amount out. -/
inductive Change
  | tended (added : Nat)
  | moved (amount height : Nat) (time : Int)
  | paid (amount height : Nat) (time : Int)

/-- A position that kept what was withdrawn and its deadline. -/
structure Tended (position : Position) (added : Nat) (position' : Position) : Prop where
  total : stakeUnits position' = stakeUnits position + added
  slashed : slashedUnits position ≤ slashedUnits position'
  withdrawn : position'.withdrawnAmount = position.withdrawnAmount
  unbonding : position'.pendingUnbondingAmount.rawUnits ≤ position.pendingUnbondingAmount.rawUnits
  sameHeight : position'.withdrawableHeight = position.withdrawableHeight
  sameTime : position'.withdrawableTime = position.withdrawableTime

/-- A position that moved `amount` to unbonding. -/
structure MovedOut (position : Position) (amount height : Nat) (time : Int)
    (position' : Position) : Prop where
  total : stakeUnits position' = stakeUnits position
  slashed : slashedUnits position' = slashedUnits position
  withdrawn : position'.withdrawnAmount = position.withdrawnAmount
  unbonding : position'.pendingUnbondingAmount.rawUnits
    = position.pendingUnbondingAmount.rawUnits + amount
  endHeight : position'.withdrawableHeight.toNat = height + unbondingDelayBlocks.toNat
  endTime : position'.withdrawableTime = time + unbondingDelaySeconds

/-- A position that paid `amount` out, after its deadline. -/
structure PaidOut (position : Position) (amount height : Nat) (time : Int)
    (position' : Position) : Prop where
  total : stakeUnits position' = stakeUnits position
  slashed : slashedUnits position' = slashedUnits position
  positive : 0 < amount
  withdrawn : withdrawnUnits position' = withdrawnUnits position + amount
  unbonding : position'.pendingUnbondingAmount.rawUnits + amount
    = position.pendingUnbondingAmount.rawUnits
  sameHeight : position'.withdrawableHeight = position.withdrawableHeight
  sameTime : position'.withdrawableTime = position.withdrawableTime
  heightOver : position.withdrawableHeight.toNat ≤ height
  timeOver : position.withdrawableTime ≤ time

def Change.Holds (position position' : Position) : Change → Prop
  | .tended added => Tended position added position'
  | .moved amount height time => MovedOut position amount height time position'
  | .paid amount height time => PaidOut position amount height time position'

/-- What a change puts into a position. -/
def Change.added : Change → Nat
  | .tended added => added
  | _ => 0

theorem stakeUnits_of_holds {change : Change} (h : change.Holds position position') :
    stakeUnits position' = stakeUnits position + change.added := by
  cases change with
  | tended added => exact Tended.total h
  | moved => exact MovedOut.total h
  | paid => exact PaidOut.total h

theorem slashedUnits_of_holds {change : Change} (h : change.Holds position position') :
    slashedUnits position ≤ slashedUnits position' := by
  cases change with
  | tended added => exact Tended.slashed h
  | moved => exact Nat.le_of_eq (MovedOut.slashed h).symm
  | paid => exact Nat.le_of_eq (PaidOut.slashed h).symm

theorem tended_refl (position : Position) : Tended position 0 position :=
  ⟨rfl, Nat.le_refl _, rfl, Nat.le_refl _, rfl, rfl⟩

theorem Tended.trans {added added' : Nat} (h : Tended position added position')
    (h' : Tended position' added' position'') : Tended position (added + added') position'' :=
  ⟨by rw [h'.total, h.total, Nat.add_assoc], Nat.le_trans h.slashed h'.slashed,
    h'.withdrawn.trans h.withdrawn, Nat.le_trans h'.unbonding h.unbonding,
    h'.sameHeight.trans h.sameHeight, h'.sameTime.trans h.sameTime⟩

theorem Shifted.tended (h : Shifted position position') : Tended position 0 position' := by
  have htotal := h.total
  have hslashed := h.slashed
  have hunbonding := h.unbonding
  obtain ⟨_, _, _, _, _, rfl⟩ := h.rest
  refine ⟨?_, hslashed, rfl, hunbonding, rfl, rfl⟩
  unfold stakeUnits
  rw [htotal]
  rfl

theorem Filled.tended {amount : Amount} {height : UInt64}
    (h : Filled position amount height position') : Tended position amount.rawUnits position' := by
  have havailable := h.available
  have hslashed := h.slashed
  obtain ⟨_, _, _, hrest⟩ := h.rest
  have hwithdrawn : position'.withdrawnAmount = position.withdrawnAmount := by rw [hrest]
  refine ⟨?_, Nat.le_of_eq hslashed.symm, hwithdrawn, ?_, ?_, ?_⟩
  · unfold stakeUnits
    rw [hwithdrawn]
    omega
  · rw [hrest]
  · rw [hrest]
  · rw [hrest]

/-- Setting the status of the new position changes nothing of this. -/
theorem holds_of_sameButStatus {change : Change} {key : String}
    (h : change.Holds position position') (hsame : SameButStatus key position' position'') :
    change.Holds position position'' := by
  obtain ⟨status, rfl⟩ := hsame
  cases change with
  | tended added =>
    obtain ⟨htotal, hslashed, hwithdrawn, hunbonding, hheight, htime⟩ := h
    exact ⟨htotal, hslashed, hwithdrawn, hunbonding, hheight, htime⟩
  | moved =>
    obtain ⟨htotal, hslashed, hwithdrawn, hunbonding, hheight, htime⟩ := h
    exact ⟨htotal, hslashed, hwithdrawn, hunbonding, hheight, htime⟩
  | paid =>
    obtain ⟨htotal, hslashed, hpositive, hwithdrawn, hunbonding, hheight, htime, hover, hafter⟩ := h
    exact ⟨htotal, hslashed, hpositive, hwithdrawn, hunbonding, hheight, htime, hover, hafter⟩

/-- What a call does to the position of an owner with a validator. -/
def Operation.changeAt (registry : StakingRegistry) (validator owner : String) :
    Operation → Change
  | .deposit ownerAddress validatorAddress amount _ _ _ =>
    .tended (if ownerAddress = owner ∧ validatorAddress = validator then amount.rawUnits else 0)
  | .requestUnlock ownerAddress validatorAddress amount height time _ =>
    if ownerAddress = owner ∧ validatorAddress = validator
    then .moved amount.rawUnits height.toNat time else .tended 0
  | .withdraw ownerAddress validatorAddress amount height time _ =>
    if ownerAddress = owner ∧ validatorAddress = validator
    then .paid amount.rawUnits height.toNat time else .tended 0
  | .requestValidatorExit ownerAddress validatorAddress height time _ =>
    if ownerAddress = owner ∧ validatorAddress = validator
        ∧ (registry.holding validator owner).activeAmount.isZero = false
    then .moved (registry.holding validator owner).activeAmount.rawUnits height.toNat time
    else .tended 0
  | _ => .tended 0

--
-- Writing the positions of one validator
--

/-- Every account adds up its positions. -/
def Balanced (registry : StakingRegistry) : Prop :=
  ∀ validator, AddsUp (registry.accountOrDefault validator) (registry.positionsOf validator)

/-- The positions and the account of one validator were written, and those of no other. -/
structure Wrote (validator : String) (positions : SortedMap String Position)
    (registry registry' : StakingRegistry) : Prop where
  written : registry'.positionsByValidatorAndOwner
    = registry.positionsByValidatorAndOwner.insert validator positions
  sum : AddsUp (registry'.accountOrDefault validator) positions
  others : ∀ other, other ≠ validator →
    registry'.accountOrDefault other = registry.accountOrDefault other

variable {positions base : SortedMap String Position}

theorem Wrote.positionsOf_self (h : Wrote validator positions registry registry') :
    registry'.positionsOf validator = positions := by
  rw [positionsOf, h.written, SortedMap.find?_insert_self]
  rfl

theorem Wrote.positionsOf_of_ne (h : Wrote validator positions registry registry') {other : String}
    (hne : other ≠ validator) : registry'.positionsOf other = registry.positionsOf other := by
  rw [positionsOf, h.written, SortedMap.find?_insert_of_ne _ _ (Ne.symm hne)]
  rfl

theorem Wrote.balanced (h : Wrote validator positions registry registry')
    (hbalanced : Balanced registry) : Balanced registry' := by
  intro other
  by_cases heq : other = validator
  · subst heq
    rw [h.positionsOf_self]
    exact h.sum
  · rw [h.positionsOf_of_ne heq, h.others other heq]
    exact hbalanced other

theorem Wrote.contains (h : Wrote validator positions registry registry') {other : String}
    (hcontains : registry.positionsByValidatorAndOwner.contains other = true) :
    registry'.positionsByValidatorAndOwner.contains other = true := by
  rw [h.written, SortedMap.contains_insert]
  exact Or.inr hcontains

/-- A value found in one of two related maps, or the default in both. -/
theorem related_getD {R : Position → Position → Prop}
    (h : SortedMap.Related (fun _ => R) base positions) (hempty : R Position.empty Position.empty)
    (owner : String) :
    R ((base.find? owner).getD Position.empty) ((positions.find? owner).getD Position.empty) := by
  cases hfind : positions.find? owner with
  | some position =>
    obtain ⟨old, hold, hrelated⟩ := h.source hfind
    rw [hold]
    exact hrelated
  | none =>
    cases hbase : base.find? owner with
    | none => exact hempty
    | some old =>
      obtain ⟨new, hnew, -⟩ := h.target hbase
      rw [hfind] at hnew
      cases hnew

end StakingRegistry

namespace StakingRegistry

variable {hashBytes : String → String} {registry registry' registry'' : StakingRegistry}
  {validator owner : String} {position position' : Position}
  {positions base : SortedMap String Position}

theorem wrote_of_rewrote {jailed tombstoned : Bool}
    (h : Rewrote validator jailed tombstoned registry registry') :
    ∃ positions, SortedMap.Related SameButStatus (registry.positionsOf validator) positions ∧
      Wrote validator positions registry registry' := by
  obtain ⟨positions, account, hrelated, hstored, rfl⟩ := h
  have haddress := hstored.address
  refine ⟨positions, hrelated, ?_, ?_, ?_⟩
  · rw [rewritten, withPositions, haddress]
  · have hfound : (registry.rewritten positions account).accountOrDefault validator = account := by
      rw [accountOrDefault, rewritten, haddress]
      simp
    rw [hfound]
    exact addsUp_of_sameButStatus hstored.sum hrelated
  · intro other hne
    rw [accountOrDefault, accountOrDefault, rewritten, haddress]
    simp only [SortedMap.find?_insert_of_ne _ _ (Ne.symm hne)]

theorem Wrote.of_withPositions
    (h : Wrote validator positions (registry.withPositions validator base) registry') :
    Wrote validator positions registry registry' := by
  refine ⟨?_, h.sum, h.others⟩
  have htwice := withPositions_withPositions registry validator base positions
  unfold withPositions at htwice
  simp only [StakingRegistry.mk.injEq, true_and, and_true] at htwice
  rw [h.written]
  exact htwice

/-- Records do not matter here. -/
theorem Wrote.recorded (h : Wrote validator positions registry registry')
    (hpositions : registry''.positionsByValidatorAndOwner = registry'.positionsByValidatorAndOwner)
    (haccounts : registry''.accounts = registry'.accounts) :
    Wrote validator positions registry registry'' := by
  have hsame : ∀ other, registry''.accountOrDefault other = registry'.accountOrDefault other := by
    intro other
    rw [accountOrDefault, accountOrDefault, haccounts]
  refine ⟨hpositions.trans h.written, ?_, ?_⟩
  · rw [hsame]
    exact h.sum
  · intro other hne
    rw [hsame]
    exact h.others other hne

/-- **The end of every call on one position**: its validator is rewritten and the call recorded. -/
theorem finish_of_ok {jailed tombstoned : Bool} {action : StakeAction} {amount : Amount}
    {blockHeight : UInt64} {transactionId reason : String} {u : Unit}
    (h : (rewriteAccountFromPositions hashBytes validator jailed tombstoned >>= fun _ => do
      let written ← positionAt validator owner
      appendLifecycleRecord hashBytes action transactionId owner validator amount blockHeight
        written reason) (registry.withPositions validator base) = .ok u registry') :
    ∃ positions, SortedMap.Related SameButStatus base positions ∧
      Wrote validator positions registry registry' := by
  obtain ⟨_, rewritten, hrewrite, hrest⟩ := ok_of_bind h
  obtain ⟨positions, hrelated, hwrote⟩ := wrote_of_rewrote (rewrite_of_ok hrewrite)
  rw [positionsOf_withPositions] at hrelated
  obtain ⟨written, read, hread, happend⟩ := ok_of_bind hrest
  have hunchanged : read = rewritten := by
    unfold positionAt at hread
    have hread := passed_get hread
    cases hfind : (rewritten.positionsOf validator).find? owner with
    | none =>
      simp only [hfind] at hread
      cases hread
    | some position =>
      simp only [hfind] at hread
      exact (ok_of_pure hread).2
  subst hunchanged
  unfold appendLifecycleRecord at happend
  obtain ⟨record, -, hset⟩ := passed_call (passed_get happend)
  obtain rfl := ok_of_set hset
  exact ⟨positions, hrelated, hwrote.of_withPositions.recorded rfl rfl⟩

/-- What a call did that wrote one position. -/
theorem holding_of_wrote (hrelated : SortedMap.Related SameButStatus
      ((registry.positionsOf validator).insert owner position) positions)
    (hwrote : Wrote validator positions registry registry') (validatorAddress ownerAddress : String) :
    (owner = ownerAddress ∧ validator = validatorAddress ∧ SameButStatus ownerAddress position
        (registry'.holding validatorAddress ownerAddress)) ∨
      (¬ (owner = ownerAddress ∧ validator = validatorAddress) ∧
        Tended (registry.holding validatorAddress ownerAddress) 0
          (registry'.holding validatorAddress ownerAddress)) := by
  by_cases hvalidator : validator = validatorAddress
  · subst hvalidator
    have hsame := related_getD (R := SameButStatus ownerAddress) hrelated ⟨_, rfl⟩ ownerAddress
    rw [SortedMap.find?_insert] at hsame
    unfold holding
    rw [hwrote.positionsOf_self]
    by_cases howner : owner = ownerAddress
    · rw [if_pos howner] at hsame
      exact Or.inl ⟨howner, rfl, hsame⟩
    · rw [if_neg howner] at hsame
      refine Or.inr ⟨fun hboth => howner hboth.1, ?_⟩
      have hkept : (Change.tended 0).Holds (registry.holding validator ownerAddress)
          (registry.holding validator ownerAddress) := tended_refl _
      exact holds_of_sameButStatus hkept hsame
  · refine Or.inr ⟨fun hboth => hvalidator hboth.2, ?_⟩
    unfold holding
    rw [hwrote.positionsOf_of_ne (Ne.symm hvalidator)]
    exact tended_refl _

end StakingRegistry

namespace StakingRegistry

variable {hashBytes : String → String} {registry registry' registry'' : StakingRegistry}
  {validator owner : String} {position position' : Position}
  {positions : SortedMap String Position}

--
-- Calls on one position
--

/-- **What a call did that is not a rotation.** -/
structure Handled (operation : Operation) (registry registry' : StakingRegistry) : Prop where
  changes : ∀ validator owner, (operation.changeAt registry validator owner).Holds
    (registry.holding validator owner) (registry'.holding validator owner)
  balanced : Balanced registry'
  contains : ∀ {validator}, registry.positionsByValidatorAndOwner.contains validator = true →
    registry'.positionsByValidatorAndOwner.contains validator = true

/-- Amounts moved inside positions, and all accounts still add up. -/
structure Eased (registry registry' : StakingRegistry) : Prop where
  tended : ∀ validator owner,
    Tended (registry.holding validator owner) 0 (registry'.holding validator owner)
  balanced : Balanced registry'
  contains : ∀ {validator}, registry.positionsByValidatorAndOwner.contains validator = true →
    registry'.positionsByValidatorAndOwner.contains validator = true

theorem eased_refl (h : Balanced registry) : Eased registry registry :=
  ⟨fun _ _ => tended_refl _, h, id⟩

theorem Eased.trans (h : Eased registry registry') (h' : Eased registry' registry'') :
    Eased registry registry'' :=
  ⟨fun validator owner => (h.tended validator owner).trans (h'.tended validator owner),
    h'.balanced, fun hcontains => h'.contains (h.contains hcontains)⟩

theorem Eased.handled {operation : Operation} (h : Eased registry registry')
    (hnone : ∀ validator owner, operation.changeAt registry validator owner = .tended 0) :
    Handled operation registry registry' := by
  refine ⟨fun validator owner => ?_, h.balanced, h.contains⟩
  rw [hnone]
  exact h.tended validator owner

/-- A call that wrote one position: it made its change there and nothing elsewhere. -/
theorem handled_of_wrote {operation : Operation} (hbalanced : Balanced registry)
    (hrelated : SortedMap.Related SameButStatus
      ((registry.positionsOf validator).insert owner position) positions)
    (hwrote : Wrote validator positions registry registry')
    (hown : (operation.changeAt registry validator owner).Holds (registry.holding validator owner)
      position)
    (hothers : ∀ validatorAddress ownerAddress,
      ¬ (owner = ownerAddress ∧ validator = validatorAddress) →
      operation.changeAt registry validatorAddress ownerAddress = .tended 0) :
    Handled operation registry registry' := by
  refine ⟨fun validatorAddress ownerAddress => ?_, hwrote.balanced hbalanced, hwrote.contains⟩
  rcases holding_of_wrote hrelated hwrote validatorAddress ownerAddress with
    ⟨rfl, rfl, hsame⟩ | ⟨hne, htended⟩
  · exact holds_of_sameButStatus hown hsame
  · rw [hothers _ _ hne]
    exact htended

theorem deposit_handled {amount : Amount} {blockHeight : UInt64} {requireExisting : Bool}
    {transactionId : String} {u : Unit} (hbalanced : Balanced registry)
    (h : deposit hashBytes owner validator amount blockHeight requireExisting transactionId registry
      = .ok u registry') :
    Handled (.deposit owner validator amount blockHeight requireExisting transactionId)
      registry registry' := by
  unfold deposit at h
  obtain ⟨-, h⟩ := passed_refuseIf h
  obtain ⟨height, -, h⟩ := passed_call h
  obtain ⟨-, h⟩ := passed_refuseIf (passed_get h)
  obtain ⟨-, h⟩ := passed_refuseIf (passed_set h)
  obtain ⟨-, h⟩ := passed_refuseIf h
  obtain ⟨next, hnext, h⟩ := passed_call h
  have h := passed_modify h
  rw [withPositions_withPositions] at h
  obtain ⟨positions, hrelated, hwrote⟩ := finish_of_ok h
  have hfilled := (deposited_of_ok hnext).1
  refine handled_of_wrote hbalanced hrelated hwrote ?_ ?_
  · simp only [Operation.changeAt, and_self, if_true]
    exact hfilled.tended
  · intro validatorAddress ownerAddress hne
    simp only [Operation.changeAt]
    rw [if_neg hne]

/-- A move to unbonding that returned. -/
theorem moveToUnbonding_of_ok {action : StakeAction} {reason transactionId : String}
    {amount : Amount} {blockHeight : UInt64} {blockTimestamp deadline : Int} {u : Unit}
    (hfits : ¬ uint64Max - unbondingDelayBlocks < blockHeight)
    (hdeadline : withdrawableTime blockTimestamp = .ok deadline)
    (h : moveToUnbonding hashBytes action reason owner validator position amount blockHeight
      blockTimestamp deadline transactionId registry = .ok u registry') :
    ∃ next positions, SortedMap.Related SameButStatus
        ((registry.positionsOf validator).insert owner next) positions ∧
      Wrote validator positions registry registry' ∧
      MovedOut position amount.rawUnits blockHeight.toNat blockTimestamp next := by
  unfold moveToUnbonding at h
  obtain ⟨active, hactive, h⟩ := passed_call (passed_get h)
  obtain ⟨pendingUnbonding, hpending, h⟩ := passed_call (passed_set h)
  obtain ⟨status, -, h⟩ := passed_call (passed_set h)
  have h := passed_set h
  obtain ⟨positions, hrelated, hwrote⟩ := finish_of_ok h
  obtain ⟨hle, hactiveUnits⟩ := Amount.minus_eq_ok hactive
  have hpendingUnits := Amount.plus_eq_ok hpending
  unfold withdrawableTime at hdeadline
  obtain ⟨-, hdeadline⟩ := Guards.ok_of_ite_error hdeadline
  obtain rfl := Except.ok.inj hdeadline
  refine ⟨_, positions, hrelated, hwrote, ?_, rfl, rfl, hpendingUnits, ?_, rfl⟩
  · simp only [stakeUnits, availableUnits, slashedUnits, Position.unbond]
    omega
  · show (blockHeight + unbondingDelayBlocks).toNat = _
    rw [UInt64.add_comm, toNat_add_of_guard hfits, Nat.add_comm]

theorem requestUnlock_handled {amount : Amount} {blockHeight : UInt64} {blockTimestamp : Int}
    {transactionId : String} {u : Unit} (hbalanced : Balanced registry)
    (h : requestUnlock hashBytes owner validator amount blockHeight blockTimestamp transactionId
      registry = .ok u registry') :
    Handled (.requestUnlock owner validator amount blockHeight blockTimestamp transactionId)
        registry registry' ∧
      registry.positionsByValidatorAndOwner.contains validator = true := by
  unfold requestUnlock at h
  obtain ⟨-, h⟩ := passed_refuseIf h
  obtain ⟨hfits, h⟩ := passed_refuseIf h
  obtain ⟨deadline, hdeadline, h⟩ := passed_call h
  obtain ⟨-, h⟩ := passed_refuseIf (passed_get h)
  obtain ⟨hcontains, h⟩ := passed_refuseIf h
  cases hfind : (registry.positionsOf validator).find? owner with
  | none =>
    simp only [hfind] at h
    cases h
  | some position =>
    simp only [hfind] at h
    obtain ⟨-, h⟩ := passed_refuseIf h
    obtain ⟨next, positions, hrelated, hwrote, hmoved⟩ :=
      moveToUnbonding_of_ok (of_decide_eq_false hfits) hdeadline h
    refine ⟨handled_of_wrote hbalanced hrelated hwrote ?_ ?_, by simpa using hcontains⟩
    · simp only [Operation.changeAt, and_self, if_true]
      unfold holding
      rw [hfind]
      exact hmoved
    · intro validatorAddress ownerAddress hne
      simp only [Operation.changeAt]
      rw [if_neg hne]

theorem requestValidatorExit_handled {blockHeight : UInt64} {blockTimestamp : Int}
    {transactionId : String} {u : Unit} (hbalanced : Balanced registry)
    (h : requestValidatorExit hashBytes owner validator blockHeight blockTimestamp transactionId
      registry = .ok u registry') :
    Handled (.requestValidatorExit owner validator blockHeight blockTimestamp transactionId)
        registry registry' ∧
      ((registry.holding validator owner).activeAmount.isZero = false →
        registry.positionsByValidatorAndOwner.contains validator = true) := by
  unfold requestValidatorExit at h
  obtain ⟨-, h⟩ := passed_refuseIf h
  obtain ⟨hfits, h⟩ := passed_refuseIf h
  obtain ⟨deadline, hdeadline, h⟩ := passed_call h
  have h := passed_get h
  -- without active stake nothing happens
  have hidle : (registry.holding validator owner).activeAmount.isZero = true →
      Handled (.requestValidatorExit owner validator blockHeight blockTimestamp transactionId)
        registry registry := by
    intro hzero
    refine (eased_refl hbalanced).handled (fun validatorAddress ownerAddress => ?_)
    simp only [Operation.changeAt]
    rw [if_neg]
    rintro ⟨rfl, rfl, hactive⟩
    rw [hzero] at hactive
    cases hactive
  cases hfind : (registry.positionsOf validator).find? owner with
  | none =>
    simp only [hfind] at h
    obtain ⟨-, rfl⟩ := ok_of_pure h
    have hzero : (registry'.holding validator owner).activeAmount.isZero = true := by
      rw [holding, hfind]
      rfl
    refine ⟨hidle hzero, fun hactive => ?_⟩
    rw [hzero] at hactive
    cases hactive
  | some position =>
    have hholding : registry.holding validator owner = position := by
      rw [holding, hfind]
      rfl
    simp only [hfind] at h
    by_cases hzero : position.activeAmount.isZero = true
    · rw [if_pos hzero] at h
      obtain ⟨-, rfl⟩ := ok_of_pure h
      rw [← hholding] at hzero
      refine ⟨hidle hzero, fun hactive => ?_⟩
      rw [hzero] at hactive
      cases hactive
    · rw [if_neg hzero] at h
      rw [Bool.not_eq_true] at hzero
      obtain ⟨next, positions, hrelated, hwrote, hmoved⟩ :=
        moveToUnbonding_of_ok (of_decide_eq_false hfits) hdeadline h
      refine ⟨handled_of_wrote hbalanced hrelated hwrote ?_ ?_, fun _ => ?_⟩
      · simp only [Operation.changeAt, hholding, hzero, and_self, if_true]
        exact hmoved
      · intro validatorAddress ownerAddress hne
        simp only [Operation.changeAt]
        rw [if_neg (fun hall => hne ⟨hall.1, hall.2.1⟩)]
      · obtain ⟨positions, hentry⟩ := entry_of_find? hfind
        exact registry.positionsByValidatorAndOwner.contains_iff.mpr ⟨positions, hentry⟩

theorem withdraw_handled {amount : Amount} {blockHeight : UInt64} {blockTimestamp : Int}
    {transactionId : String} {u : Unit} (hbalanced : Balanced registry)
    (h : withdraw hashBytes owner validator amount blockHeight blockTimestamp transactionId registry
      = .ok u registry') :
    Handled (.withdraw owner validator amount blockHeight blockTimestamp transactionId)
      registry registry' := by
  unfold withdraw at h
  obtain ⟨hinput, h⟩ := passed_refuseIf h
  obtain ⟨-, h⟩ := passed_refuseIf (passed_get h)
  obtain ⟨-, h⟩ := passed_refuseIf h
  cases hfind : (registry.positionsOf validator).find? owner with
  | none =>
    simp only [hfind] at h
    cases h
  | some position =>
    simp only [hfind] at h
    obtain ⟨-, h⟩ := passed_refuseIf h
    obtain ⟨hcooled, h⟩ := passed_refuseIf h
    obtain ⟨pendingUnbonding, hpending, h⟩ := passed_call h
    obtain ⟨withdrawn, hwithdrawn, h⟩ := passed_call (passed_set h)
    obtain ⟨status, -, h⟩ := passed_call (passed_set h)
    have h := passed_set h
    obtain ⟨positions, hrelated, hwrote⟩ := finish_of_ok h
    obtain ⟨hle, hpendingUnits⟩ := Amount.minus_eq_ok hpending
    have hwithdrawnUnits := Amount.plus_eq_ok hwithdrawn
    have hpositive : 0 < amount.rawUnits := by
      simp only [Bool.not_eq_false', validOperationInput, Bool.and_eq_true] at hinput
      exact Amount.isPositive_iff.mp hinput.1.2
    simp only [Bool.or_eq_false_iff, decide_eq_false_iff_not, UInt64.not_lt, not_lt] at hcooled
    refine handled_of_wrote hbalanced hrelated hwrote ?_ ?_
    · have hholding : registry.holding validator owner = position := by
        rw [holding, hfind]
        rfl
      simp only [Operation.changeAt, hholding, and_self, if_true]
      refine ⟨?_, rfl, hpositive, hwithdrawnUnits, by simp only; omega, rfl, rfl,
        UInt64.le_iff_toNat_le.mp hcooled.1.2, hcooled.2⟩
      simp only [stakeUnits, availableUnits, slashedUnits]
      omega
    · intro validatorAddress ownerAddress hne
      simp only [Operation.changeAt]
      rw [if_neg hne]

end StakingRegistry

namespace StakingRegistry

variable {hashBytes : String → String} {registry registry' registry'' : StakingRegistry}
  {validator owner : String} {position position' : Position}
  {positions base : SortedMap String Position}

--
-- Activation
--

/-- Positions of one validator that were tended, and its account. -/
theorem eased_of_wrote (hbalanced : Balanced registry)
    (hrelated : SortedMap.Related (fun _ position position' => Tended position 0 position')
      (registry.positionsOf validator) positions)
    (hwrote : Wrote validator positions registry registry') : Eased registry registry' := by
  refine ⟨fun validatorAddress owner => ?_, hwrote.balanced hbalanced, hwrote.contains⟩
  unfold holding
  by_cases heq : validatorAddress = validator
  · subst heq
    rw [hwrote.positionsOf_self]
    exact related_getD (R := fun position position' => Tended position 0 position') hrelated
      (tended_refl _) owner
  · rw [hwrote.positionsOf_of_ne heq]
    exact tended_refl _

theorem tended_of_sameButStatus (h : SameButStatus owner position position') :
    Tended position 0 position' := by
  obtain ⟨status, rfl⟩ := h
  exact ⟨rfl, Nat.le_refl _, rfl, Nat.le_refl _, rfl, rfl⟩

theorem rewrite_eased {jailed tombstoned : Bool} {u : Unit} (hbalanced : Balanced registry)
    (h : rewriteAccountFromPositions hashBytes validator jailed tombstoned registry
      = .ok u registry') : Eased registry registry' := by
  obtain ⟨positions, hrelated, hwrote⟩ := wrote_of_rewrote (rewrite_of_ok h)
  exact eased_of_wrote hbalanced
    (hrelated.imp fun _ _ hentry => ⟨hentry.1, tended_of_sameButStatus hentry.2⟩) hwrote

/-- A loop over positions that ran to its end, with an entry or without. -/
theorem visitPositions_of_ok {α : Type} {body : String → LoopBody α Unit} {start ended : α}
    (h : visitPositions validator body start registry = .ok ended registry') :
    (registry.positionsByValidatorAndOwner.find? validator = none ∧ ended = start ∧
        registry' = registry) ∨
      ∃ base positions records, registry.positionsByValidatorAndOwner.find? validator = some base ∧
        SortedMap.visitEntries body base.entries (start, registry.lifecycleRecords)
          = .ok () (positions.entries, ended, records) ∧
        registry' = { registry.withPositions validator positions with
          lifecycleRecords := records } := by
  cases hfind : registry.positionsByValidatorAndOwner.find? validator with
  | none =>
    rw [visitPositions_none hfind] at h
    cases h
    exact Or.inl ⟨rfl, rfl, rfl⟩
  | some base =>
    rw [visitPositions_some hfind] at h
    cases hvisit : base.visit body (start, registry.lifecycleRecords) with
    | error e s =>
      rw [hvisit] at h
      cases h
    | ok u s =>
      obtain ⟨positions, ended', records⟩ := s
      rw [hvisit] at h
      cases h
      exact Or.inr ⟨base, positions, records, rfl, SortedMap.visit_eq_ok.mp hvisit, rfl⟩

theorem visitPositions_activate_eased {boundaryHeight : UInt64} {changed changed' : Bool}
    (hbalanced : Balanced registry)
    (h : visitPositions validator (activatePosition hashBytes validator boundaryHeight) changed
      registry = .ok changed' registry') : Eased registry registry' := by
  rcases visitPositions_of_ok h with ⟨-, -, rfl⟩ | ⟨base, positions, records, hfind, hloop, rfl⟩
  · exact eased_refl hbalanced
  have hrelated : SortedMap.Related (fun _ position position' => Shifted position position' ∧
      slashedUnits position' = slashedUnits position) base positions := by
    have hall := @SortedMap.visitEntries_related _ _ _ _
      (activatePosition hashBytes validator boundaryHeight)
      (fun _ position position' => Shifted position position' ∧
        slashedUnits position' = slashedUnits position)
      (fun _ position => ⟨shifted_refl position, rfl⟩) base.entries
      (fun _ _ _ => ⟨activatePosition_left.1, activatePosition_left.2.1⟩)
      (changed, registry.lifecycleRecords)
    rw [hloop] at hall
    exact hall
  have hslashed : totalUnits slashedUnits positions.entries = totalUnits slashedUnits base.entries :=
    hrelated.sum_eq (fun _ _ _ hshift => hshift.2)
  have htotal := totalUnits_of_shifted
    (hrelated.imp fun _ _ hentry => ⟨hentry.1, hentry.2.1⟩ :
      SortedMap.Related (fun _ => Shifted) base positions)
  have hsum := hbalanced validator
  rw [positionsOf_of_find? hfind] at hsum
  have hwrote : Wrote validator positions registry { registry.withPositions validator positions with
      lifecycleRecords := records } := by
    refine ⟨rfl, ⟨?_, ?_⟩, fun _ _ => rfl⟩
    · rw [hslashed]
      exact hsum.slashed
    · rw [htotal]
      exact hsum.bonded
  refine eased_of_wrote hbalanced ?_ hwrote
  rw [positionsOf_of_find? hfind]
  exact hrelated.imp fun _ _ hentry => ⟨hentry.1, hentry.2.1.tended⟩

theorem activateValidators_eased {boundaryHeight : UInt64} {validators : List String}
    {changed changed' : Bool} (hbalanced : Balanced registry)
    (h : activateValidators hashBytes boundaryHeight validators changed registry
      = .ok changed' registry') : Eased registry registry' := by
  induction validators generalizing registry changed with
  | nil =>
    obtain ⟨-, rfl⟩ := ok_of_pure h
    exact eased_refl hbalanced
  | cons validator rest ih =>
    rw [activateValidators] at h
    have h := passed_get h
    by_cases htombstoned : (registry.accountOrDefault validator).tombstoned = true
    · simp only [htombstoned, if_true] at h
      exact ih hbalanced h
    simp only [htombstoned] at h
    obtain ⟨visitedChanged, visited, hvisit, h⟩ := ok_of_bind h
    have hvisited := visitPositions_activate_eased hbalanced hvisit
    by_cases hchanged : visitedChanged = true
    · simp only [hchanged, if_true] at h
      obtain ⟨_, rewritten, hrewrite, h⟩ := ok_of_bind h
      have hrewritten := rewrite_eased hvisited.balanced hrewrite
      exact (hvisited.trans hrewritten).trans (ih hrewritten.balanced h)
    · simp only [hchanged] at h
      exact hvisited.trans (ih hvisited.balanced h)

theorem activatePending_eased {boundaryHeight : UInt64} {changed : Bool}
    (hbalanced : Balanced registry)
    (h : activatePending hashBytes boundaryHeight registry = .ok changed registry') :
    Eased registry registry' := by
  unfold activatePending at h
  by_cases hzero : (boundaryHeight == 0) = true
  · simp only [hzero, if_true] at h
    obtain ⟨-, rfl⟩ := ok_of_pure h
    exact eased_refl hbalanced
  · simp only [hzero] at h
    exact activateValidators_eased hbalanced (passed_get h)

end StakingRegistry

namespace StakingRegistry

variable {hashBytes : String → String} {registry registry' registry'' : StakingRegistry}
  {validator owner : String} {position position' : Position}
  {positions base : SortedMap String Position}

--
-- Penalties and unjailing
--

theorem drain_of_ok {bucket : Bucket} {remaining taken rest : Amount}
    {records records' : List StakeLifecycleRecord}
    (h : drain bucket (position, remaining, records) = .ok taken (position', rest, records')) :
    Taken position taken.rawUnits position' ∧ rest.rawUnits + taken.rawUnits = remaining.rawUnits := by
  unfold drain at h
  have h := passed_get h
  simp only at h
  generalize hamount : (if (bucket.amount position).rawUnits < remaining.rawUnits
    then bucket.amount position else remaining) = amount at h
  by_cases hpositive : amount.isPositive = true
  · rw [if_pos hpositive] at h
    obtain ⟨reduced, hreduced, h⟩ := passed_call h
    obtain ⟨slashed, hslashed, h⟩ := passed_call (passed_set h)
    obtain ⟨remaining', hremaining, h⟩ := passed_call h
    have h := passed_set h
    obtain ⟨rfl, hstate⟩ := ok_of_pure h
    simp only [Prod.mk.injEq] at hstate
    obtain ⟨rfl, rfl, -⟩ := hstate
    obtain ⟨hle, hreducedUnits⟩ := Amount.minus_eq_ok hreduced
    have hslashedUnits := Amount.plus_eq_ok hslashed
    obtain ⟨hle', hrestUnits⟩ := Amount.minus_eq_ok hremaining
    refine ⟨⟨⟨?_, ?_, ?_, ?_⟩, hslashedUnits⟩, by omega⟩
    · cases bucket <;> exact ⟨_, _, _, _, _, rfl⟩
    · cases bucket <;> simp only [Bucket.reduce, Bucket.amount, availableUnits, slashedUnits] at *
        <;> omega
    · simp only [slashedUnits]
      omega
    · cases bucket <;> simp only [Bucket.reduce, Bucket.amount] at * <;> omega
  · rw [if_neg hpositive] at h
    obtain ⟨rfl, hstate⟩ := ok_of_pure h
    simp only [Prod.mk.injEq] at hstate
    obtain ⟨rfl, rfl, -⟩ := hstate
    have hzero : taken.rawUnits = 0 := by
      rw [Amount.isPositive_iff] at hpositive
      omega
    exact ⟨⟨shifted_refl _, by omega⟩, by omega⟩

theorem penalizePosition_of_ok {remaining rest : Amount} {tombstoned : Bool} {blockHeight : UInt64}
    {records records' : List StakeLifecycleRecord} {u : Unit}
    (h : penalizePosition hashBytes validator tombstoned blockHeight owner
      (position, remaining, records) = .ok u (position', rest, records')) :
    ∃ taken, Taken position taken position' ∧ rest.rawUnits + taken = remaining.rawUnits := by
  unfold penalizePosition at h
  have h := passed_get h
  simp only at h
  by_cases hzero : remaining.isZero = true
  · rw [if_pos hzero] at h
    obtain ⟨-, hstate⟩ := ok_of_pure h
    simp only [Prod.mk.injEq] at hstate
    obtain ⟨rfl, rfl, -⟩ := hstate
    exact ⟨0, ⟨shifted_refl _, rfl⟩, rfl⟩
  rw [if_neg hzero] at h
  obtain ⟨fromActive, ⟨first, rest₁, records₁⟩, hrun₁, h⟩ := ok_of_bind h
  obtain ⟨fromPending, ⟨second, rest₂, records₂⟩, hrun₂, h⟩ := ok_of_bind h
  obtain ⟨fromUnbonding, ⟨third, rest₃, records₃⟩, hrun₃, h⟩ := ok_of_bind h
  obtain ⟨htaken₁, hrest₁⟩ := drain_of_ok hrun₁
  obtain ⟨htaken₂, hrest₂⟩ := drain_of_ok hrun₂
  obtain ⟨htaken₃, hrest₃⟩ := drain_of_ok hrun₃
  have htaken := (htaken₁.trans htaken₂).trans htaken₃
  have h := passed_get h
  simp only at h
  obtain ⟨status, -, h⟩ := passed_call h
  obtain ⟨sum, -, h⟩ := passed_call (passed_set h)
  obtain ⟨applied, -, h⟩ := passed_call h
  have hrestated : Taken position (fromActive.rawUnits + fromPending.rawUnits
      + fromUnbonding.rawUnits) { third with status := status } :=
    ⟨htaken.shifted.withStatus status, htaken.slashed⟩
  by_cases hpositive : applied.isPositive = true
  · rw [if_pos hpositive] at h
    obtain ⟨record, -, h⟩ := passed_call h
    have hstate := ok_of_set h
    simp only [Prod.mk.injEq] at hstate
    obtain ⟨rfl, rfl, -⟩ := hstate
    exact ⟨_, hrestated, by omega⟩
  · rw [if_neg hpositive] at h
    obtain ⟨-, hstate⟩ := ok_of_pure h
    simp only [Prod.mk.injEq] at hstate
    obtain ⟨rfl, rfl, -⟩ := hstate
    exact ⟨_, hrestated, by omega⟩

/-- The loop of a penalty that ran to its end. -/
theorem visitEntries_penalize_of_ok {tombstoned : Bool} {blockHeight : UInt64}
    {entries entries' : List (String × Position)} {remaining rest : Amount}
    {records records' : List StakeLifecycleRecord} {u : Unit}
    (h : SortedMap.visitEntries (penalizePosition hashBytes validator tombstoned blockHeight) entries
      (remaining, records) = .ok u (entries', rest, records')) :
    List.Forall₂ (fun entry entry' => entry'.1 = entry.1 ∧ Shifted entry.2 entry'.2) entries
        entries' ∧
      totalUnits slashedUnits entries' + rest.rawUnits
        = totalUnits slashedUnits entries + remaining.rawUnits := by
  induction entries generalizing remaining records entries' with
  | nil =>
    cases h
    exact ⟨List.Forall₂.nil, rfl⟩
  | cons entry others ih =>
    obtain ⟨owner, position⟩ := entry
    obtain ⟨position', ⟨next, records₁⟩, others', hbody, hrest, rfl⟩ :=
      SortedMap.ok_of_visitEntries_cons h
    obtain ⟨taken, htaken, hnext⟩ := penalizePosition_of_ok hbody
    obtain ⟨hshifted, hsum⟩ := ih hrest
    have hslashed := htaken.slashed
    refine ⟨List.Forall₂.cons ⟨rfl, htaken.shifted⟩ hshifted, ?_⟩
    simp only [totalUnits_cons]
    omega

/-- The loop of a penalty over the positions of a validator, with an entry or without. -/
theorem visitPositions_penalize_of_ok {tombstoned : Bool} {blockHeight : UInt64}
    {remaining rest : Amount}
    (h : visitPositions validator (penalizePosition hashBytes validator tombstoned blockHeight)
      remaining registry = .ok rest registry') :
    SortedMap.Related (fun _ => Shifted) (registry.positionsOf validator)
        (registry'.positionsOf validator) ∧
      totalUnits slashedUnits (registry'.positionsOf validator).entries + rest.rawUnits
        = totalUnits slashedUnits (registry.positionsOf validator).entries + remaining.rawUnits ∧
      ∀ {positions registry''}, Wrote validator positions registry' registry'' →
        Wrote validator positions registry registry'' := by
  rcases visitPositions_of_ok h with ⟨-, rfl, rfl⟩ | ⟨base, positions, records, hfind, hloop, rfl⟩
  · exact ⟨List.forall₂_same.mpr fun entry _ => ⟨rfl, shifted_refl entry.2⟩, rfl, id⟩
  · obtain ⟨hshifted, hsum⟩ := visitEntries_penalize_of_ok hloop
    have hafter : StakingRegistry.positionsOf { registry.withPositions validator positions with
        lifecycleRecords := records } validator = positions :=
      positionsOf_withPositions registry validator positions
    rw [hafter, positionsOf_of_find? hfind]
    refine ⟨hshifted, hsum, ?_⟩
    intro written registry'' hwrote
    have hbase : Wrote validator written (registry.withPositions validator positions) registry'' :=
      ⟨hwrote.written, hwrote.sum, hwrote.others⟩
    exact hbase.of_withPositions

theorem applyPenaltyState_eased {totalSlashedAmount : Amount} {jailed tombstoned : Bool}
    {blockHeight : UInt64} {u : Unit} (hbalanced : Balanced registry)
    (h : applyPenaltyState hashBytes validator totalSlashedAmount jailed tombstoned blockHeight
      registry = .ok u registry') : Eased registry registry' := by
  unfold applyPenaltyState at h
  obtain ⟨-, h⟩ := passed_refuseIf h
  obtain ⟨-, h⟩ := passed_refuseIf (passed_get h)
  obtain ⟨remaining, hremaining, h⟩ := passed_call h
  obtain ⟨rest, penalized, hloop, h⟩ := ok_of_bind h
  obtain ⟨hdone, h⟩ := passed_refuseIf h
  obtain ⟨_, rewritten, hrewrite, h⟩ := ok_of_bind h
  obtain ⟨hshifted, hsum, hwrites⟩ := visitPositions_penalize_of_ok hloop
  obtain ⟨positions, hsame, hwrote⟩ := wrote_of_rewrote (rewrite_of_ok hrewrite)
  have hwrote := hwrites hwrote
  have hrelated : SortedMap.Related (fun _ position position' => Tended position 0 position')
      (registry.positionsOf validator) positions :=
    hshifted.comp hsame fun hshift hstatus => hshift.tended.trans (tended_of_sameButStatus hstatus)
  -- the account shows the total, so it is not set again
  have hshows : (rewritten.accountOrDefault validator).slashedAmount = totalSlashedAmount := by
    have hslashed := hwrote.sum.slashed
    have hbefore := (hbalanced validator).slashed
    have hkept : totalUnits slashedUnits positions.entries
        = totalUnits slashedUnits (penalized.positionsOf validator).entries :=
      hsame.sum_eq fun _ _ _ hstatus => by
        obtain ⟨status, rfl⟩ := hstatus
        rfl
    obtain ⟨hle, hremainingUnits⟩ := Amount.minus_eq_ok hremaining
    have hzero : rest.rawUnits = 0 := by simpa [Amount.isPositive] using hdone
    exact Amount.ext (by omega)
  have hunset := passed_get h
  simp only [hshows, bne_self_eq_false] at hunset
  obtain ⟨-, rfl⟩ := ok_of_pure hunset
  exact eased_of_wrote hbalanced hrelated hwrote

theorem unjail_eased {u : Unit} (hbalanced : Balanced registry)
    (h : unjail hashBytes validator registry = .ok u registry') : Eased registry registry' := by
  unfold unjail at h
  obtain ⟨hguard, h⟩ := passed_refuseIf (passed_get h)
  simp only [Bool.or_eq_false_iff, Bool.not_eq_false'] at hguard
  obtain ⟨⟨hvalid, -⟩, htombstoned⟩ := hguard
  generalize haccount : registry.accountOrDefault validator = account at h hvalid htombstoned
  have hfree : account.unjail = { account with jailed := false } := by
    rw [StakeAccount.unjail, htombstoned]
    rfl
  rw [hfree] at h
  have hinput := h
  unfold setAccount at hinput
  have hinput := (passed_refuseIf hinput).1
  simp only [Bool.or_eq_false_iff, Bool.not_eq_false', bne_eq_false_iff_eq] at hinput
  obtain ⟨⟨hsafe, -⟩, haddress⟩ := hinput
  have hsum := hbalanced validator
  rw [haccount] at hsum
  subst haddress
  have hset := @setAccount_kept hashBytes registry { account with jailed := false } hsafe hvalid
    ⟨hsum.slashed, hsum.bonded⟩
  simp only at hset
  rw [hset] at h
  cases h
  have hwrote : Wrote account.validatorAddress (registry.positionsOf account.validatorAddress)
      registry (registry.rewritten (registry.positionsOf account.validatorAddress)
        { account with jailed := false }) := by
    refine ⟨rfl, ?_, ?_⟩
    · have hfound : (registry.rewritten (registry.positionsOf account.validatorAddress)
          { account with jailed := false }).accountOrDefault account.validatorAddress
            = { account with jailed := false } := by
        simp [accountOrDefault, rewritten]
      rw [hfound]
      exact ⟨hsum.slashed, hsum.bonded⟩
    · intro other hne
      rw [accountOrDefault, accountOrDefault, rewritten]
      simp only [SortedMap.find?_insert_of_ne _ _ (Ne.symm hne)]
  exact eased_of_wrote hbalanced
    (List.forall₂_same.mpr fun entry _ => ⟨rfl, tended_refl entry.2⟩) hwrote

end StakingRegistry

namespace StakingRegistry

variable {hashBytes : String → String} {registry registry' : StakingRegistry}
  {validator owner old new : String} {position position' : Position}
  {positions renamed : SortedMap String Position}

--
-- Rotations
--

/-- A position under the same or another id. -/
def Relabeled (_ : String) (position position' : Position) : Prop :=
  ∃ id, position' = { position with positionId := id }

theorem Relabeled.tended (h : Relabeled owner position position') : Tended position 0 position' := by
  obtain ⟨id, rfl⟩ := h
  exact ⟨rfl, Nat.le_refl _, rfl, Nat.le_refl _, rfl, rfl⟩

theorem rotatePosition_left {blockHeight : UInt64} {transactionId : String}
    {records : List StakeLifecycleRecord} :
    Relabeled owner position (left (rotatePosition hashBytes old new blockHeight transactionId owner
      (position, records))).1 := by
  let P := fun s : Position × List StakeLifecycleRecord => Relabeled owner position s.1
  show P (left (rotatePosition hashBytes old new blockHeight transactionId owner
    (position, records)))
  have hstart : P (position, records) := ⟨position.positionId, rfl⟩
  unfold rotatePosition
  refine leaves_get P (leaves_call P hstart (fun available _ => ?_))
  exact leaves_call P hstart (fun record _ => ⟨_, rfl⟩)

theorem renamePositions_of_ok {blockHeight : UInt64} {transactionId : String}
    (h : renamePositions hashBytes old new blockHeight transactionId positions registry
      = .ok renamed registry') :
    SortedMap.Related Relabeled positions renamed ∧
      registry'.accounts = registry.accounts ∧
      registry'.positionsByValidatorAndOwner = registry.positionsByValidatorAndOwner := by
  unfold renamePositions at h
  have h := passed_get h
  have h := passed_set h
  have hrelated := @SortedMap.visit_related _ _ _ _ _ Relabeled
    (fun _ position => ⟨position.positionId, rfl⟩) positions
    (rotatePosition hashBytes old new blockHeight transactionId)
    (fun _ _ => rotatePosition_left) registry.lifecycleRecords
  cases hvisit : positions.visit (rotatePosition hashBytes old new blockHeight transactionId)
      registry.lifecycleRecords with
  | error e s =>
    rw [hvisit] at h
    cases h
  | ok u s =>
    rw [hvisit] at h hrelated
    obtain ⟨rfl, rfl⟩ := ok_of_pure h
    exact ⟨hrelated, rfl, rfl⟩

/-- **What a rotation did.** The positions of the old address are those of the new one, which had
none. -/
structure RotatedTo (old new : String) (registry registry' : StakingRegistry) : Prop where
  distinct : old ≠ new
  fresh : registry.positionsByValidatorAndOwner.find? new = none
  carried : ∀ owner, Tended (registry.holding old owner) 0 (registry'.holding new owner)
  cleared : ∀ owner, registry'.holding old owner = Position.empty
  others : ∀ {validator}, validator ≠ old → validator ≠ new → ∀ owner,
    registry'.holding validator owner = registry.holding validator owner
  contains : ∀ validator, registry'.positionsByValidatorAndOwner.contains validator = true ↔
    validator = new ∨ validator ≠ old ∧
      registry.positionsByValidatorAndOwner.contains validator = true
  balanced : Balanced registry'

/-- Positions and account moved from one address to another. -/
theorem rotatedTo_of_moved {account : StakeAccount} (hbalanced : Balanced registry)
    (hne : old ≠ new) (hfresh : registry.positionsByValidatorAndOwner.find? new = none)
    (haccount : registry.accounts.find? old = some account)
    (hfind : registry.positionsByValidatorAndOwner.find? old = some positions)
    (hrelated : SortedMap.Related Relabeled positions renamed)
    (haccounts : registry'.accounts = (registry.accounts.erase old).insert new
      { account with validatorAddress := new })
    (hpositions : registry'.positionsByValidatorAndOwner
      = (registry.positionsByValidatorAndOwner.erase old).insert new renamed) :
    RotatedTo old new registry registry' := by
  have hentry : ∀ key, registry'.positionsByValidatorAndOwner.find? key
      = if new = key then some renamed else if key = old then none
        else registry.positionsByValidatorAndOwner.find? key := by
    intro key
    rw [hpositions, find?_moved]
  have hstored : ∀ key, registry'.accounts.find? key
      = if new = key then some { account with validatorAddress := new }
        else if key = old then none else registry.accounts.find? key := by
    intro key
    rw [haccounts, find?_moved]
  have hnew : registry'.positionsOf new = renamed := by
    rw [positionsOf, hentry, if_pos rfl]
    rfl
  have hold : registry'.positionsOf old = SortedMap.empty := by
    rw [positionsOf, hentry, if_neg (Ne.symm hne), if_pos rfl]
    rfl
  have hothers : ∀ {key}, key ≠ old → key ≠ new →
      registry'.positionsOf key = registry.positionsOf key := by
    intro key hkey hkey'
    rw [positionsOf, hentry, if_neg (Ne.symm hkey'), if_neg hkey]
    rfl
  refine ⟨hne, hfresh, ?_, ?_, ?_, ?_, ?_⟩
  · intro owner
    unfold holding
    rw [hnew, positionsOf_of_find? hfind]
    exact (related_getD (R := Relabeled owner) hrelated ⟨_, rfl⟩ owner).tended
  · intro owner
    rw [holding, hold]
    rfl
  · intro key hkey hkey' owner
    rw [holding, hothers hkey hkey']
    rfl
  · intro key
    rw [SortedMap.contains, hentry, SortedMap.contains]
    by_cases hkey' : new = key
    · simp [hkey']
    · by_cases hkey : key = old
      · simp [hkey, hne, Ne.symm hne]
      · simp [hkey', hkey, Ne.symm hkey']
  · intro key
    by_cases hkey' : key = new
    · subst hkey'
      have hsum := hbalanced old
      rw [positionsOf_of_find? hfind, accountOrDefault, haccount] at hsum
      have hunits : ∀ units : Position → Nat, (∀ position id,
          units { position with positionId := id } = units position) →
          totalUnits units renamed.entries = totalUnits units positions.entries := by
        intro units hid
        refine hrelated.sum_eq (fun _ position _ hlabel => ?_)
        obtain ⟨id, rfl⟩ := hlabel
        exact hid position id
      rw [hnew, accountOrDefault, hstored, if_pos rfl]
      refine ⟨?_, ?_⟩
      · rw [hunits slashedUnits fun _ _ => rfl]
        exact hsum.slashed
      · rw [hunits slashedUnits fun _ _ => rfl, hunits availableUnits fun _ _ => rfl]
        exact hsum.bonded
    by_cases hkey : key = old
    · subst hkey
      rw [hold, accountOrDefault, hstored, if_neg (Ne.symm hne), if_pos rfl]
      exact ⟨rfl, rfl⟩
    · rw [hothers hkey hkey', accountOrDefault, hstored, if_neg (Ne.symm hkey'), if_neg hkey]
      exact hbalanced key

theorem rotate_of_ok {blockHeight : UInt64} {transactionId : String} {u : Unit}
    (hbalanced : Balanced registry)
    (h : rotateValidatorAddress hashBytes old new owner blockHeight transactionId registry
      = .ok u registry') : RotatedTo old new registry registry' := by
  unfold rotateValidatorAddress at h
  obtain ⟨hinput, h⟩ := passed_refuseIf h
  obtain ⟨hfresh, h⟩ := passed_refuseIf (passed_get h)
  simp only [Bool.or_eq_false_iff, beq_eq_false_iff_ne] at hinput hfresh
  cases haccount : registry.accounts.find? old with
  | none =>
    simp only [haccount] at h
    cases h
  | some account =>
    cases hfind : registry.positionsByValidatorAndOwner.find? old with
    | none =>
      simp only [haccount, hfind] at h
      cases h
    | some positions =>
      simp only [haccount, hfind] at h
      obtain ⟨-, h⟩ := passed_refuseIf h
      obtain ⟨renamed, moved, hrename, h⟩ := ok_of_bind (passed_set h)
      obtain ⟨hrelated, haccounts, hpositions⟩ := renamePositions_of_ok hrename
      obtain ⟨complete, hcomplete, h⟩ := passed_call (passed_modify h)
      obtain ⟨valid, -, h⟩ := passed_call (passed_get (passed_modify h))
      obtain ⟨-, rfl⟩ := ok_of_refuseIf h
      unfold StakeAccount.complete at hcomplete
      obtain ⟨-, hcomplete⟩ := Guards.ok_of_ite_error hcomplete
      obtain rfl := Except.ok.inj hcomplete
      refine rotatedTo_of_moved hbalanced hinput.1.2
        (by simpa [SortedMap.contains] using hfresh.1.2) haccount hfind hrelated ?_ ?_
      · simp only [withPositions, haccounts]
      · simp only [withPositions, hpositions]

end StakingRegistry

namespace StakingRegistry

variable {hashBytes : String → String} {registry registry' : StakingRegistry}
  {validator owner old new : String} {among : String → Bool} {units : Position → Nat}

--
-- What one call did
--

def Stepped (registry registry' : StakingRegistry) : Operation → Prop
  | .rotateValidatorAddress old new _ _ _ => RotatedTo old new registry registry'
  | operation => Handled operation registry registry'

/-- **A call that returned**, and every account still adds up. -/
theorem method_stepped {operation : Operation} {u : Unit} (hbalanced : Balanced registry)
    (h : operation.method hashBytes registry = .ok u registry') :
    Stepped registry registry' operation := by
  cases operation with
  | deposit => exact deposit_handled hbalanced h
  | requestUnlock => exact (requestUnlock_handled hbalanced h).1
  | withdraw => exact withdraw_handled hbalanced h
  | requestValidatorExit => exact (requestValidatorExit_handled hbalanced h).1
  | activatePending =>
    obtain ⟨changed, activated, hactivate, hpure⟩ := ok_of_bind h
    obtain ⟨-, rfl⟩ := ok_of_pure hpure
    exact (activatePending_eased hbalanced hactivate).handled fun _ _ => rfl
  | applyPenaltyState => exact (applyPenaltyState_eased hbalanced h).handled fun _ _ => rfl
  | unjail => exact (unjail_eased hbalanced h).handled fun _ _ => rfl
  | rotateValidatorAddress => exact rotate_of_ok hbalanced h

theorem Stepped.balanced {operation : Operation} (h : Stepped registry registry' operation) :
    Balanced registry' := by
  cases operation with
  | rotateValidatorAddress => exact RotatedTo.balanced h
  | _ => exact Handled.balanced h

--
-- Sums over addresses
--

theorem holding_of_not_contains
    (h : registry.positionsByValidatorAndOwner.contains validator ≠ true) (owner : String) :
    registry.holding validator owner = Position.empty := by
  have hnone : registry.positionsByValidatorAndOwner.find? validator = none := by
    simpa [SortedMap.contains] using h
  rw [holding, positionsOf, hnone]
  rfl

theorem mem_keys_iff_contains :
    validator ∈ registry.positionsByValidatorAndOwner.keys ↔
      registry.positionsByValidatorAndOwner.contains validator = true := by
  rw [SortedMap.mem_keys_iff, SortedMap.contains_iff]
  simp only [SortedMap.find?_eq_some_iff]

/-- What an owner holds, as a sum over any finite set with all addresses that have positions. -/
theorem held_eq_sum (hunits : units Position.empty = 0) {addresses : Finset String}
    (haddresses : ∀ {validator}, registry.positionsByValidatorAndOwner.contains validator = true →
      validator ∈ addresses) :
    held units owner among registry
      = ∑ validator ∈ addresses,
          if among validator then units (registry.holding validator owner) else 0 := by
  have hnodup : (registry.positionsByValidatorAndOwner.keys.filter among).Nodup :=
    (SortedMap.keys_nodup _).filter _
  have hsubset : (registry.positionsByValidatorAndOwner.keys.filter among).toFinset ⊆ addresses := by
    intro validator hmem
    rw [List.mem_toFinset, List.mem_filter, mem_keys_iff_contains] at hmem
    exact haddresses hmem.1
  rw [held, ← List.sum_toFinset _ hnodup, ← Finset.sum_subset hsubset]
  · refine Finset.sum_congr rfl (fun validator hmem => ?_)
    rw [List.mem_toFinset, List.mem_filter] at hmem
    rw [if_pos hmem.2]
  · intro validator _ hnot
    split_ifs with hamong
    · have habsent : registry.positionsByValidatorAndOwner.contains validator ≠ true := by
        intro hcontains
        refine hnot ?_
        rw [List.mem_toFinset, List.mem_filter, mem_keys_iff_contains]
        exact ⟨hcontains, hamong⟩
      rw [holding_of_not_contains habsent, hunits]
    · rfl

theorem held_mono (hunits : units Position.empty = 0) {wider : String → Bool}
    (hwider : ∀ {validator}, among validator = true → wider validator = true) :
    held units owner among registry ≤ held units owner wider registry := by
  have hall : ∀ {validator}, registry.positionsByValidatorAndOwner.contains validator = true →
      validator ∈ registry.positionsByValidatorAndOwner.keys.toFinset := by
    intro validator hcontains
    exact List.mem_toFinset.mpr (mem_keys_iff_contains.mpr hcontains)
  rw [held_eq_sum hunits hall, held_eq_sum hunits hall]
  refine Finset.sum_le_sum (fun validator _ => ?_)
  by_cases hamong : among validator = true
  · rw [if_pos hamong, if_pos (hwider hamong)]
  · rw [if_neg hamong]
    exact Nat.zero_le _

/-- A rotation within the picked addresses, seen by a sum. -/
theorem RotatedTo.held (h : RotatedTo old new registry registry') (hunits : units Position.empty = 0)
    (hamong : among old = among new) :
    held units owner among registry'
        + (if among old then units (registry.holding old owner) else 0)
      = held units owner among registry
        + (if among old then units (registry'.holding new owner) else 0) := by
  set others := (registry.positionsByValidatorAndOwner.keys.toFinset.erase old).erase new
    with hothers
  have hbefore : ∀ {validator}, registry.positionsByValidatorAndOwner.contains validator = true →
      validator ∈ insert old (insert new others) := by
    intro validator hcontains
    rw [hothers]
    simp only [Finset.mem_insert, Finset.mem_erase, List.mem_toFinset, mem_keys_iff_contains]
    tauto
  have hafter : ∀ {validator}, registry'.positionsByValidatorAndOwner.contains validator = true →
      validator ∈ insert old (insert new others) := by
    intro validator hcontains
    rcases (h.contains validator).mp hcontains with rfl | ⟨-, hcontains⟩
    · simp
    · exact hbefore hcontains
  have hold : old ∉ insert new others := by
    rw [hothers]
    simp [h.distinct]
  have hnew : new ∉ others := by
    rw [hothers]
    simp
  rw [held_eq_sum hunits hbefore, held_eq_sum hunits hafter, Finset.sum_insert hold,
    Finset.sum_insert hnew, Finset.sum_insert hold, Finset.sum_insert hnew]
  have hsame : (∑ validator ∈ others,
        if among validator then units (registry'.holding validator owner) else 0)
      = ∑ validator ∈ others,
        if among validator then units (registry.holding validator owner) else 0 := by
    refine Finset.sum_congr rfl (fun validator hmem => ?_)
    rw [hothers, Finset.mem_erase, Finset.mem_erase] at hmem
    rw [h.others hmem.2.1 hmem.1]
  have habsent : registry.positionsByValidatorAndOwner.contains new ≠ true := by
    rw [SortedMap.contains, h.fresh]
    simp
  rw [hsame, h.cleared owner, hunits, holding_of_not_contains habsent owner, hunits, ← hamong]
  simp only [ite_self]
  omega

end StakingRegistry

namespace StakingRegistry

variable {hashBytes : String → String} {registry registry' : StakingRegistry}
  {validator owner old new : String} {among : String → Bool} {units : Position → Nat}

--
-- Conservation
--

/-- A rotation stays within the picked addresses. -/
def Operation.Within (among : String → Bool) : Operation → Prop
  | .rotateValidatorAddress old new _ _ _ => among old = among new
  | _ => True

/-- What a call deposits, as a sum over the addresses. -/
theorem deposits_eq_sum {operation : Operation} {addresses : Finset String}
    (haddresses : ∀ {owner validator amount height requireExisting transactionId},
      operation = .deposit owner validator amount height requireExisting transactionId →
      validator ∈ addresses) :
    operation.deposits owner among = ∑ validator ∈ addresses,
      if among validator then (operation.changeAt registry validator owner).added else 0 := by
  cases operation with
  | deposit ownerAddress validatorAddress amount =>
    have hmem := haddresses rfl
    rw [Finset.sum_eq_single_of_mem validatorAddress hmem]
    · simp only [Operation.deposits, Operation.changeAt, Change.added, and_true, Bool.and_eq_true,
        beq_iff_eq]
      by_cases hamong : among validatorAddress = true <;> simp [hamong]
    · intro other _ hne
      simp [Operation.changeAt, Change.added, Ne.symm hne]
  | requestUnlock =>
    refine (Finset.sum_eq_zero fun other _ => ?_).symm
    simp only [Operation.changeAt]
    split_ifs <;> rfl
  | withdraw =>
    refine (Finset.sum_eq_zero fun other _ => ?_).symm
    simp only [Operation.changeAt]
    split_ifs <;> rfl
  | requestValidatorExit =>
    refine (Finset.sum_eq_zero fun other _ => ?_).symm
    simp only [Operation.changeAt]
    split_ifs <;> rfl
  | _ =>
    refine (Finset.sum_eq_zero fun other _ => ?_).symm
    exact ite_self 0

/-- The addresses with positions after a call, and the one a deposit goes to. -/
theorem exists_addresses (operation : Operation) (registry' : StakingRegistry) :
    ∃ addresses : Finset String,
      (∀ {validator}, registry'.positionsByValidatorAndOwner.contains validator = true →
        validator ∈ addresses) ∧
      ∀ {owner validator amount height requireExisting transactionId},
        operation = .deposit owner validator amount height requireExisting transactionId →
        validator ∈ addresses := by
  cases operation with
  | deposit ownerAddress validatorAddress =>
    refine ⟨insert validatorAddress registry'.positionsByValidatorAndOwner.keys.toFinset, ?_, ?_⟩
    · intro validator hcontains
      exact Finset.mem_insert_of_mem (List.mem_toFinset.mpr (mem_keys_iff_contains.mpr hcontains))
    · intro _ _ _ _ _ _ heq
      cases heq
      exact Finset.mem_insert_self _ _
  | _ =>
    refine ⟨registry'.positionsByValidatorAndOwner.keys.toFinset, ?_, ?_⟩
    · intro validator hcontains
      exact List.mem_toFinset.mpr (mem_keys_iff_contains.mpr hcontains)
    · intro _ _ _ _ _ _ heq
      cases heq

theorem Handled.conserves {operation : Operation} (h : Handled operation registry registry') :
    held stakeUnits owner among registry'
        = held stakeUnits owner among registry + operation.deposits owner among ∧
      held slashedUnits owner among registry ≤ held slashedUnits owner among registry' := by
  obtain ⟨addresses, hafter, hdeposit⟩ := exists_addresses operation registry'
  have hbefore : ∀ {validator}, registry.positionsByValidatorAndOwner.contains validator = true →
      validator ∈ addresses := fun hcontains => hafter (h.contains hcontains)
  constructor
  · rw [held_eq_sum (by rfl) hafter, held_eq_sum (by rfl) hbefore,
      @deposits_eq_sum registry owner among operation addresses hdeposit,
      ← Finset.sum_add_distrib]
    refine Finset.sum_congr rfl (fun validator _ => ?_)
    rw [stakeUnits_of_holds (h.changes validator owner)]
    split_ifs <;> rfl
  · rw [held_eq_sum (by rfl) hafter, held_eq_sum (by rfl) hbefore]
    refine Finset.sum_le_sum (fun validator _ => ?_)
    have hslashed := slashedUnits_of_holds (h.changes validator owner)
    split_ifs
    · exact hslashed
    · exact Nat.le_refl _

theorem RotatedTo.conserves (h : RotatedTo old new registry registry')
    (hamong : among old = among new) :
    StakingRegistry.held stakeUnits owner among registry'
        = StakingRegistry.held stakeUnits owner among registry ∧
      StakingRegistry.held slashedUnits owner among registry
        ≤ StakingRegistry.held slashedUnits owner among registry' := by
  have hstake := @RotatedTo.held registry registry' owner old new among stakeUnits h rfl hamong
  have hslashed := @RotatedTo.held registry registry' owner old new among slashedUnits h rfl hamong
  have hcarried := h.carried owner
  have htotal := hcarried.total
  have hgrew := hcarried.slashed
  constructor
  · split_ifs at hstake <;> omega
  · split_ifs at hslashed <;> omega

theorem Stepped.conserves {operation : Operation} (h : Stepped registry registry' operation)
    (hwithin : operation.Within among) :
    held stakeUnits owner among registry'
        = held stakeUnits owner among registry + operation.deposits owner among ∧
      held slashedUnits owner among registry ≤ held slashedUnits owner among registry' := by
  cases operation with
  | rotateValidatorAddress => exact RotatedTo.conserves h hwithin
  | _ => exact Handled.conserves h

/-- **A run of calls that return.** -/
theorem performAll_conserves {operations : List Operation} {u : Unit}
    (hbalanced : Balanced registry)
    (h : performAll hashBytes operations registry = .ok u registry')
    (hwithin : ∀ operation ∈ operations, operation.Within among) :
    Balanced registry' ∧
      held stakeUnits owner among registry'
        = held stakeUnits owner among registry + depositedBy owner among operations ∧
      held slashedUnits owner among registry ≤ held slashedUnits owner among registry' := by
  induction operations generalizing registry with
  | nil =>
    obtain ⟨-, rfl⟩ := ok_of_pure h
    exact ⟨hbalanced, rfl, Nat.le_refl _⟩
  | cons operation rest ih =>
    obtain ⟨_, next, hcall, hrest⟩ := ok_of_bind h
    have hstepped := method_stepped hbalanced hcall
    obtain ⟨htotal, hslashed⟩ := @Stepped.conserves registry next owner among operation hstepped
      (hwithin operation List.mem_cons_self)
    obtain ⟨hend, htotal', hslashed'⟩ := ih hstepped.balanced hrest
      (fun other hmem => hwithin other (List.mem_cons_of_mem _ hmem))
    refine ⟨hend, ?_, Nat.le_trans hslashed hslashed'⟩
    rw [htotal', htotal, depositedBy, depositedBy, List.map_cons, List.sum_cons, Nat.add_assoc]

theorem empty_balanced : Balanced empty := fun _ => ⟨rfl, rfl⟩

--
-- Lineages
--

/-- One address was rotated to the other. -/
def Linked (operations : List Operation) (old new : String) : Prop :=
  ∃ owner height transactionId,
    Operation.rotateValidatorAddress old new owner height transactionId ∈ operations

theorem lineageOf_cons_rotate (old new owner : String) (height : UInt64) (transactionId : String)
    (rest : List Operation) (address : String) :
    lineageOf (.rotateValidatorAddress old new owner height transactionId :: rest) address
      = if lineageOf rest address = lineageOf rest old then lineageOf rest new
        else lineageOf rest address := rfl

/-- Addresses that are in one lineage stay in one when more calls are looked at. -/
theorem lineageOf_cons {operation : Operation} {rest : List Operation} {first second : String}
    (h : lineageOf rest first = lineageOf rest second) :
    lineageOf (operation :: rest) first = lineageOf (operation :: rest) second := by
  cases operation with
  | rotateValidatorAddress old new =>
    rw [lineageOf_cons_rotate, lineageOf_cons_rotate, h]
  | _ => exact h

theorem lineageOf_linked {operations : List Operation} (h : Linked operations old new) :
    lineageOf operations old = lineageOf operations new := by
  obtain ⟨owner, height, transactionId, hmem⟩ := h
  induction operations with
  | nil => cases hmem
  | cons operation rest ih =>
    rcases List.mem_cons.mp hmem with rfl | hmem
    · rw [lineageOf_cons_rotate, lineageOf_cons_rotate, if_pos rfl]
      split_ifs <;> rfl
    · exact lineageOf_cons (ih hmem)

theorem linked_mono {operations more : List Operation} {first second : String}
    (hsubset : operations ⊆ more) (h : Relation.EqvGen (Linked operations) first second) :
    Relation.EqvGen (Linked more) first second := by
  refine Relation.EqvGen.mono (fun old new hlinked => ?_) first second h
  obtain ⟨owner, height, transactionId, hmem⟩ := hlinked
  exact ⟨owner, height, transactionId, hsubset hmem⟩

/-- An address is linked to the name of its lineage. -/
theorem eqvGen_lineageOf (operations : List Operation) (address : String) :
    Relation.EqvGen (Linked operations) address (lineageOf operations address) := by
  induction operations generalizing address with
  | nil => exact Relation.EqvGen.refl address
  | cons operation rest ih =>
    have hmore : rest ⊆ operation :: rest := fun _ => List.mem_cons_of_mem _
    cases operation with
    | rotateValidatorAddress old new owner height transactionId =>
      rw [lineageOf_cons_rotate]
      split_ifs with hold
      · -- address ~ its name = the name of old ~ old ~ new ~ the name of new
        have hlink : Linked (.rotateValidatorAddress old new owner height transactionId :: rest)
            old new := ⟨owner, height, transactionId, List.mem_cons_self⟩
        have hfirst := linked_mono hmore (ih address)
        rw [hold] at hfirst
        have hback := (linked_mono hmore (ih old)).symm
        have hold' := hfirst.trans _ _ _ hback
        have hnew := hold'.trans _ _ _ (Relation.EqvGen.rel old new hlink)
        exact hnew.trans _ _ _ (linked_mono hmore (ih new))
      · exact linked_mono hmore (ih address)
    | _ => exact linked_mono hmore (ih address)

/-- **A lineage is what rotations link.** -/
theorem lineageOf_eq_iff {operations : List Operation} {first second : String} :
    lineageOf operations first = lineageOf operations second ↔
      Relation.EqvGen (Linked operations) first second := by
  constructor
  · intro h
    have hfirst := eqvGen_lineageOf operations first
    rw [h] at hfirst
    exact hfirst.trans _ _ _ (eqvGen_lineageOf operations second).symm
  · intro h
    induction h with
    | rel first second h => exact lineageOf_linked h
    | refl => rfl
    | symm _ _ _ ih => exact ih.symm
    | trans _ _ _ _ _ ih ih' => exact ih.trans ih'

theorem within_lineage {operations : List Operation} {operation : Operation}
    (h : operation ∈ operations) (validator : String) :
    operation.Within (inLineage operations validator) := by
  cases operation with
  | rotateValidatorAddress old new owner height transactionId =>
    have hlinked := lineageOf_linked (⟨owner, height, transactionId, h⟩ : Linked operations old new)
    show inLineage operations validator old = inLineage operations validator new
    rw [inLineage, inLineage, hlinked]
  | _ => trivial

theorem inLineage_append {first second : List Operation} {validator address : String}
    (h : inLineage first validator address = true) :
    inLineage (first ++ second) validator address = true := by
  unfold inLineage at h ⊢
  rw [beq_iff_eq, lineageOf_eq_iff] at h ⊢
  exact linked_mono (fun _ => List.mem_append_left _) h

end StakingRegistry

namespace StakingRegistry

variable {hashBytes : String → String} {registry registry' : StakingRegistry}
  {validator owner old new : String} {among : String → Bool} {position position' : Position}
  {log own : List Move} {clocks clocks' : List (Nat × Int)} {height : Nat} {time : Int}

--
-- Moves
--

/-- The moves of one owner with one validator. -/
def ownMoves (log : List Move) (validator owner : String) : List Move :=
  log.filter fun move => move.validator == validator && move.owner == owner

/-- A move under the address that its validator rotated to. -/
def Move.rekey (old new : String) (move : Move) : Move :=
  if move.validator = old then { move with validator := new } else move

/-- The moves so far under the present addresses, after one more call. -/
def logAfter (registry : StakingRegistry) (log : List Move) : Operation → List Move
  | .rotateValidatorAddress old new _ _ _ => log.map (Move.rekey old new)
  | operation => log ++ (operation.move? registry).toList

@[simp] theorem amountOf_append (first second : List Move) :
    amountOf (first ++ second) = amountOf first + amountOf second := by
  simp [amountOf]

theorem maturedBy_append (first second : List Move) :
    maturedBy owner among height time (first ++ second)
      = maturedBy owner among height time first + maturedBy owner among height time second := by
  simp [maturedBy]

theorem maturedBy_cons (move : Move) (rest : List Move) :
    maturedBy owner among height time (move :: rest)
      = (if move.owner == owner && among move.validator && move.matured height time
          then move.amount else 0) + maturedBy owner among height time rest := by
  unfold maturedBy
  rw [List.filter_cons]
  split_ifs
  · simp [amountOf]
  · rw [Nat.zero_add]

theorem amountOf_matured_cons (move : Move) (rest : List Move) :
    amountOf ((ownMoves (move :: rest) validator owner).filter (Move.matured height time))
      = (if move.validator = validator then
          (if move.owner == owner && move.matured height time then move.amount else 0) else 0)
        + amountOf ((ownMoves rest validator owner).filter (Move.matured height time)) := by
  unfold ownMoves
  rw [List.filter_cons]
  by_cases hvalidator : move.validator = validator <;> by_cases howner : move.owner = owner <;>
    by_cases hmatured : move.matured height time = true <;>
    simp [hvalidator, howner, hmatured, amountOf]

/-- Rekeying changes the address of a move and nothing else. -/
theorem rekey_fields (move : Move) :
    (move.rekey old new).owner = move.owner ∧ (move.rekey old new).amount = move.amount ∧
      (move.rekey old new).height = move.height ∧ (move.rekey old new).time = move.time := by
  unfold Move.rekey
  split_ifs
  · exact ⟨rfl, rfl, rfl, rfl⟩
  · exact ⟨rfl, rfl, rfl, rfl⟩

theorem rekey_owner (move : Move) : (move.rekey old new).owner = move.owner :=
  (rekey_fields move).1

theorem rekey_amount (move : Move) : (move.rekey old new).amount = move.amount :=
  (rekey_fields move).2.1

theorem rekey_matured (move : Move) :
    (move.rekey old new).matured height time = move.matured height time := by
  obtain ⟨-, -, hheight, htime⟩ := @rekey_fields old new move
  rw [Move.matured, Move.matured, hheight, htime]

/-- A rotation within the picked addresses keeps what was moved there. -/
theorem maturedBy_rekey (hamong : among old = among new) :
    maturedBy owner among height time (log.map (Move.rekey old new))
      = maturedBy owner among height time log := by
  induction log with
  | nil => rfl
  | cons move rest ih =>
    have hpicked : among (move.rekey old new).validator = among move.validator := by
      unfold Move.rekey
      split_ifs with hold
      · rw [hold, hamong]
      · rfl
    rw [List.map_cons, maturedBy_cons, maturedBy_cons, ih, hpicked, rekey_owner, rekey_matured,
      rekey_amount]

/-- Moves counted address by address are counted once. -/
theorem sum_ownMoves_le (addresses : Finset String) :
    (∑ validator ∈ addresses, if among validator then
        amountOf ((ownMoves log validator owner).filter (Move.matured height time)) else 0)
      ≤ maturedBy owner among height time log := by
  induction log with
  | nil =>
    refine Nat.le_of_eq (Finset.sum_eq_zero fun validator _ => ?_)
    exact ite_self 0
  | cons move rest ih =>
    rw [maturedBy_cons]
    have hone : (∑ validator ∈ addresses, if move.validator = validator then
        (if among validator && (move.owner == owner && move.matured height time)
          then move.amount else 0) else 0)
        ≤ if move.owner == owner && among move.validator && move.matured height time
          then move.amount else 0 := by
      rw [Finset.sum_ite_eq]
      have hcomm : (among move.validator && (move.owner == owner && move.matured height time))
          = (move.owner == owner && among move.validator && move.matured height time) := by
        rw [← Bool.and_assoc, Bool.and_comm (among move.validator)]
      rw [hcomm]
      split_ifs <;> omega
    refine Nat.le_trans (Nat.le_of_eq ?_) (Nat.add_le_add hone ih)
    rw [← Finset.sum_add_distrib]
    refine Finset.sum_congr rfl (fun validator _ => ?_)
    rw [amountOf_matured_cons]
    by_cases hamong : among validator = true <;> by_cases hvalidator : move.validator = validator <;>
      simp [hamong, hvalidator]

--
-- No early withdrawal
--

/-- No clock so far is after this height and time. -/
def NotAfter (clocks : List (Nat × Int)) (height : Nat) (time : Int) : Prop :=
  ∀ clock ∈ clocks, clock.1 ≤ height ∧ clock.2 ≤ time

/-- What a position may show beside the moves of its owner: it withdrew no more than what is
mature by now, and while something unbonds its deadline is after the delay of every move. -/
structure Cooled (position : Position) (own : List Move) (clocks : List (Nat × Int)) : Prop where
  moved : withdrawnUnits position + position.pendingUnbondingAmount.rawUnits ≤ amountOf own
  cooling : 0 < position.pendingUnbondingAmount.rawUnits → ∀ move ∈ own,
    move.height + unbondingDelayBlocks.toNat ≤ position.withdrawableHeight.toNat ∧
      move.time + unbondingDelaySeconds ≤ position.withdrawableTime
  paid : ∀ {height time}, NotAfter clocks height time →
    withdrawnUnits position ≤ amountOf (own.filter (Move.matured height time))

theorem empty_cooled (own : List Move) (clocks : List (Nat × Int)) :
    Cooled Position.empty own clocks :=
  ⟨Nat.zero_le _, fun hpositive => absurd hpositive (by decide), fun _ => Nat.zero_le _⟩

/-- The moves that a change adds. -/
def Change.moves (validator owner : String) : Change → List Move
  | .moved amount height time => [⟨validator, owner, amount, height, time⟩]
  | _ => []

/-- The clock of a change. -/
def Change.clock : Change → Option (Nat × Int)
  | .tended _ => none
  | .moved _ height time => some (height, time)
  | .paid _ height time => some (height, time)

/-- **One change.** Its clock is not before any earlier one. -/
theorem Cooled.changed {change : Change} (h : Cooled position own clocks)
    (hholds : change.Holds position position')
    (hbefore : ∀ move ∈ own, (move.height, move.time) ∈ clocks)
    (hclock : ∀ clock, change.clock = some clock →
      NotAfter clocks clock.1 clock.2 ∧ clock ∈ clocks')
    (hsubset : clocks ⊆ clocks') :
    Cooled position' (own ++ change.moves validator owner) clocks' := by
  have hearlier : ∀ {height time}, NotAfter clocks' height time → NotAfter clocks height time :=
    fun hafter clock hmem => hafter clock (hsubset hmem)
  have hmoved := h.moved
  cases change with
  | tended added =>
    have hwithdrawn : withdrawnUnits position' = withdrawnUnits position :=
      congrArg Amount.rawUnits (Tended.withdrawn hholds)
    have hunbonding := Tended.unbonding hholds
    simp only [Change.moves, List.append_nil]
    refine ⟨by omega, fun hpositive => ?_, fun hafter => ?_⟩
    · rw [Tended.sameHeight hholds, Tended.sameTime hholds]
      exact h.cooling (by omega)
    · rw [hwithdrawn]
      exact h.paid (hearlier hafter)
  | moved amount blockHeight blockTime =>
    have hwithdrawn : withdrawnUnits position' = withdrawnUnits position :=
      congrArg Amount.rawUnits (MovedOut.withdrawn hholds)
    have hunbonding := MovedOut.unbonding hholds
    have hnow := (hclock _ rfl).1
    simp only [Change.moves]
    refine ⟨?_, fun _ move hmem => ?_, fun hafter => ?_⟩
    · rw [amountOf_append]
      simp only [amountOf, List.map_cons, List.map_nil, List.sum_cons, List.sum_nil] at hmoved ⊢
      omega
    · rw [MovedOut.endHeight hholds, MovedOut.endTime hholds]
      rcases List.mem_append.mp hmem with hmem | hmem
      · have hle := hnow _ (hbefore move hmem)
        exact ⟨Nat.add_le_add_right hle.1 _, Int.add_le_add_right hle.2 _⟩
      · obtain rfl := List.mem_singleton.mp hmem
        simp
    · have hpaid := h.paid (hearlier hafter)
      rw [hwithdrawn, List.filter_append, amountOf_append]
      omega
  | paid amount blockHeight blockTime =>
    have hwithdrawn := PaidOut.withdrawn hholds
    have hunbonding := PaidOut.unbonding hholds
    have hpositive := PaidOut.positive hholds
    simp only [Change.moves, List.append_nil]
    refine ⟨by omega, fun hleft => ?_, fun {height time} hafter => ?_⟩
    · rw [PaidOut.sameHeight hholds, PaidOut.sameTime hholds]
      exact h.cooling (by omega)
    · -- the deadline is over, so every move is mature
      have hnow := hafter _ (hclock _ rfl).2
      have hover := PaidOut.heightOver hholds
      have hafterTime := PaidOut.timeOver hholds
      have hall : own.filter (Move.matured height time) = own := by
        rw [List.filter_eq_self]
        intro move hmem
        have hdeadline := h.cooling (by omega) move hmem
        simp only [Move.matured, Bool.and_eq_true, decide_eq_true_eq]
        exact ⟨(hdeadline.1.trans hover).trans hnow.1, (hdeadline.2.trans hafterTime).trans hnow.2⟩
      rw [hall]
      omega

end StakingRegistry

namespace StakingRegistry

variable {hashBytes : String → String} {registry registry' : StakingRegistry}
  {validator owner old new : String} {among : String → Bool} {position : Position}
  {log own : List Move} {clocks clocks' : List (Nat × Int)}

/-- Every position beside the moves of its owner; `log` holds them under present addresses. -/
structure Covered (registry : StakingRegistry) (log : List Move) (clocks : List (Nat × Int)) :
    Prop where
  each : ∀ validator owner,
    Cooled (registry.holding validator owner) (ownMoves log validator owner) clocks
  known : ∀ move ∈ log,
    registry.positionsByValidatorAndOwner.contains move.validator = true
  before : ∀ move ∈ log, (move.height, move.time) ∈ clocks

theorem ownMoves_append (first second : List Move) :
    ownMoves (first ++ second) validator owner
      = ownMoves first validator owner ++ ownMoves second validator owner :=
  List.filter_append _ _

/-- The move that a call makes is the one of its change. -/
theorem ownMoves_move (operation : Operation) (registry : StakingRegistry)
    (validator owner : String) :
    ownMoves (operation.move? registry).toList validator owner
      = (operation.changeAt registry validator owner).moves validator owner := by
  cases operation with
  | requestUnlock ownerAddress validatorAddress =>
    simp only [Operation.move?, Operation.changeAt, Option.toList_some, ownMoves]
    by_cases hboth : ownerAddress = owner ∧ validatorAddress = validator
    · obtain ⟨rfl, rfl⟩ := hboth
      simp [Change.moves]
    · rw [if_neg hboth, List.filter_cons_of_neg]
      · rfl
      · simp only [Bool.and_eq_true, beq_iff_eq]
        exact fun hall => hboth ⟨hall.2, hall.1⟩
  | requestValidatorExit ownerAddress validatorAddress =>
    simp only [Operation.move?, Operation.changeAt]
    by_cases hboth : ownerAddress = owner ∧ validatorAddress = validator
    · obtain ⟨rfl, rfl⟩ := hboth
      by_cases hzero : (registry.holding validatorAddress ownerAddress).activeAmount.isZero = true
      · simp [hzero, Change.moves, ownMoves]
      · simp [hzero, Change.moves, ownMoves]
    · have hother : ¬ (ownerAddress = owner ∧ validatorAddress = validator ∧
          (registry.holding validator owner).activeAmount.isZero = false) :=
        fun hall => hboth ⟨hall.1, hall.2.1⟩
      rw [if_neg hother]
      by_cases hzero : (registry.holding validatorAddress ownerAddress).activeAmount.isZero = true
      · rw [if_pos hzero]
        rfl
      · rw [if_neg hzero, Option.toList_some, ownMoves, List.filter_cons_of_neg]
        · rfl
        · simp only [Bool.and_eq_true, beq_iff_eq]
          exact fun hall => hboth ⟨hall.2, hall.1⟩
  | withdraw =>
    simp only [Operation.move?, Operation.changeAt]
    split_ifs <;> rfl
  | _ => rfl

theorem clock_of_changeAt {operation : Operation} {clock : Nat × Int}
    (h : (operation.changeAt registry validator owner).clock = some clock) :
    operation.clock = some clock := by
  cases operation with
  | requestUnlock =>
    simp only [Operation.changeAt] at h
    split_ifs at h
    · exact h
    · cases h
  | withdraw =>
    simp only [Operation.changeAt] at h
    split_ifs at h
    · exact h
    · cases h
  | requestValidatorExit =>
    simp only [Operation.changeAt] at h
    split_ifs at h
    · exact h
    · cases h
  | _ => cases h

theorem clock_of_move {operation : Operation} {move : Move}
    (h : operation.move? registry = some move) : operation.clock = some (move.height, move.time) := by
  cases operation with
  | requestUnlock =>
    cases h
    rfl
  | requestValidatorExit =>
    simp only [Operation.move?] at h
    split_ifs at h
    cases h
    rfl
  | _ => cases h

/-- **A call that is not a rotation**, with a clock not before the earlier ones. -/
theorem Covered.handled {operation : Operation} (h : Covered registry log clocks)
    (hhandled : Handled operation registry registry')
    (hentry : ∀ move, operation.move? registry = some move →
      registry.positionsByValidatorAndOwner.contains move.validator = true)
    (hclock : ∀ clock, operation.clock = some clock → NotAfter clocks clock.1 clock.2) :
    Covered registry' (log ++ (operation.move? registry).toList)
      (clocks ++ operation.clock.toList) := by
  refine ⟨fun validator owner => ?_, ?_, ?_⟩
  · rw [ownMoves_append, ownMoves_move]
    refine (h.each validator owner).changed (hhandled.changes validator owner) ?_ ?_
      (List.subset_append_left _ _)
    · intro move hmem
      exact h.before move (List.mem_of_mem_filter hmem)
    · intro clock hchange
      have hoperation := clock_of_changeAt hchange
      refine ⟨hclock clock hoperation, List.mem_append_right _ ?_⟩
      rw [hoperation]
      exact List.mem_singleton_self clock
  · intro move hmem
    refine hhandled.contains ?_
    rcases List.mem_append.mp hmem with hmem | hmem
    · exact h.known move hmem
    · exact hentry move (Option.mem_toList.mp hmem)
  · intro move hmem
    rcases List.mem_append.mp hmem with hmem | hmem
    · exact List.mem_append_left _ (h.before move hmem)
    · rw [clock_of_move (Option.mem_toList.mp hmem)]
      exact List.mem_append_right _ (List.mem_singleton_self _)

theorem ownMoves_rekey_new (hnone : ∀ move ∈ log, move.validator ≠ new) :
    ownMoves (log.map (Move.rekey old new)) new owner
      = (ownMoves log old owner).map (Move.rekey old new) := by
  unfold ownMoves
  rw [List.filter_map]
  congr 1
  refine List.filter_congr (fun move hmem => ?_)
  simp only [Function.comp, rekey_owner]
  have hnew := hnone move hmem
  by_cases hold : move.validator = old
  · simp [Move.rekey, hold]
  · have hold' : (move.validator == old) = false := by simpa using hold
    have hnew' : (move.validator == new) = false := by simpa using hnew
    simp [Move.rekey, hold, hold', hnew']

theorem ownMoves_rekey_other (hold : validator ≠ old) (hnew : validator ≠ new) :
    ownMoves (log.map (Move.rekey old new)) validator owner = ownMoves log validator owner := by
  induction log with
  | nil => rfl
  | cons move rest ih =>
    unfold ownMoves at ih ⊢
    rw [List.map_cons, List.filter_cons, List.filter_cons, ih, rekey_owner]
    by_cases hmove : move.validator = old
    · simp [Move.rekey, hmove, Ne.symm hold, Ne.symm hnew]
    · simp [Move.rekey, hmove]

theorem Cooled.rekeyed (h : Cooled position own clocks) :
    Cooled position (own.map (Move.rekey old new)) clocks := by
  have hamount : ∀ moves : List Move, amountOf (moves.map (Move.rekey old new)) = amountOf moves := by
    intro moves
    unfold amountOf
    rw [List.map_map]
    congr 1
    exact List.map_congr_left (fun move _ => rekey_amount move)
  refine ⟨?_, ?_, ?_⟩
  · rw [hamount]
    exact h.moved
  · intro hpositive move hmem
    obtain ⟨source, hsource, rfl⟩ := List.mem_map.mp hmem
    obtain ⟨-, -, hheight, htime⟩ := @rekey_fields old new source
    rw [hheight, htime]
    exact h.cooling hpositive source hsource
  · intro height time hafter
    rw [List.filter_map, hamount]
    have hsame : (Move.matured height time ∘ Move.rekey old new) = Move.matured height time := by
      funext move
      rw [Function.comp_apply, rekey_matured]
    rw [hsame]
    exact h.paid hafter

/-- **A rotation** carries the moves along. -/
theorem Covered.rotated (h : Covered registry log clocks)
    (hrotated : RotatedTo old new registry registry') :
    Covered registry' (log.map (Move.rekey old new)) clocks := by
  have hnone : ∀ move ∈ log, move.validator ≠ new := by
    rintro move hmem rfl
    have hknown := h.known move hmem
    rw [SortedMap.contains, hrotated.fresh] at hknown
    cases hknown
  refine ⟨fun validator owner => ?_, ?_, ?_⟩
  · by_cases hnew : validator = new
    · subst hnew
      rw [ownMoves_rekey_new hnone]
      have hcarried : (Change.tended 0).Holds (registry.holding old owner)
          (registry'.holding validator owner) := hrotated.carried owner
      have hcooled := @Cooled.changed old owner _ _ _ _ _ _ (h.each old owner) hcarried
        (fun move hmem => h.before move (List.mem_of_mem_filter hmem))
        (fun clock hclock => by cases hclock) (List.Subset.refl clocks)
      simp only [Change.moves, List.append_nil] at hcooled
      exact hcooled.rekeyed
    · by_cases hold : validator = old
      · subst hold
        rw [hrotated.cleared owner]
        exact empty_cooled _ _
      · rw [ownMoves_rekey_other hold hnew, hrotated.others hold hnew]
        exact h.each validator owner
  · intro move hmem
    obtain ⟨source, hsource, rfl⟩ := List.mem_map.mp hmem
    rw [hrotated.contains]
    unfold Move.rekey
    split_ifs with hold
    · exact Or.inl rfl
    · exact Or.inr ⟨hold, h.known source hsource⟩
  · intro move hmem
    obtain ⟨source, hsource, rfl⟩ := List.mem_map.mp hmem
    obtain ⟨-, -, hheight, htime⟩ := @rekey_fields old new source
    rw [hheight, htime]
    exact h.before source hsource

end StakingRegistry

namespace StakingRegistry

variable {hashBytes : String → String} {registry registry' : StakingRegistry}
  {owner : String} {among : String → Bool} {log : List Move} {clocks : List (Nat × Int)}

/-- A call that moved stake to unbonding found a position. -/
theorem entry_of_move {operation : Operation} {move : Move} {u : Unit}
    (hbalanced : Balanced registry) (h : operation.method hashBytes registry = .ok u registry')
    (hmove : operation.move? registry = some move) :
    registry.positionsByValidatorAndOwner.contains move.validator = true := by
  cases operation with
  | requestUnlock =>
    cases hmove
    exact (requestUnlock_handled hbalanced h).2
  | requestValidatorExit =>
    have hentry := (requestValidatorExit_handled hbalanced h).2
    simp only [Operation.move?] at hmove
    split_ifs at hmove with hzero
    cases hmove
    exact hentry (by simpa using hzero)
  | _ => cases hmove

/-- **One call**, with a clock not before the earlier ones. -/
theorem Covered.stepped {operation : Operation} {u : Unit} (hbalanced : Balanced registry)
    (hcovered : Covered registry log clocks)
    (h : operation.method hashBytes registry = .ok u registry')
    (hclock : ∀ clock, operation.clock = some clock → NotAfter clocks clock.1 clock.2) :
    Covered registry' (logAfter registry log operation) (clocks ++ operation.clock.toList) := by
  have hstepped := method_stepped hbalanced h
  have hentry := fun move => @entry_of_move hashBytes registry registry' operation move u hbalanced h
  cases operation with
  | rotateValidatorAddress =>
    simp only [Operation.clock, Option.toList_none, List.append_nil]
    exact hcovered.rotated hstepped
  | _ => exact hcovered.handled hstepped hentry hclock

theorem maturedBy_logAfter {operation : Operation} (hwithin : operation.Within among)
    (height : Nat) (time : Int) :
    maturedBy owner among height time (logAfter registry log operation)
      = maturedBy owner among height time log
        + maturedBy owner among height time (operation.move? registry).toList := by
  cases operation with
  | rotateValidatorAddress => exact maturedBy_rekey hwithin
  | _ => exact maturedBy_append _ _

/-- **A run with ordered clocks.** -/
theorem performAll_covered {operations : List Operation} {u : Unit} (hbalanced : Balanced registry)
    (hcovered : Covered registry log clocks)
    (h : performAll hashBytes operations registry = .ok u registry')
    (hordered : (clocks ++ clocksOf operations).Pairwise fun earlier later =>
      earlier.1 ≤ later.1 ∧ earlier.2 ≤ later.2)
    (hwithin : ∀ operation ∈ operations, operation.Within among) :
    ∃ log', Covered registry' log' (clocks ++ clocksOf operations) ∧ ∀ height time,
      maturedBy owner among height time log'
        = maturedBy owner among height time log
          + maturedBy owner among height time (movesOf hashBytes registry operations) := by
  induction operations generalizing registry log clocks with
  | nil =>
    obtain ⟨-, rfl⟩ := ok_of_pure h
    refine ⟨log, ?_, fun _ _ => rfl⟩
    rw [clocksOf, List.filterMap_nil, List.append_nil]
    exact hcovered
  | cons operation rest ih =>
    obtain ⟨_, next, hcall, hrest⟩ := ok_of_bind h
    have hclocks : clocks ++ clocksOf (operation :: rest)
        = (clocks ++ operation.clock.toList) ++ clocksOf rest := by
      rw [clocksOf, clocksOf, List.filterMap_cons, List.append_assoc]
      cases operation.clock <;> rfl
    rw [hclocks] at hordered ⊢
    have hclock : ∀ clock, operation.clock = some clock → NotAfter clocks clock.1 clock.2 := by
      intro clock hclock earlier hmem
      rw [hclock] at hordered
      have hfirst := (List.pairwise_append.mp hordered).1
      exact (List.pairwise_append.mp hfirst).2.2 earlier hmem clock (List.mem_singleton_self _)
    have hnext := hcovered.stepped hbalanced hcall hclock
    obtain ⟨log', hcovered', hmatured⟩ := ih (method_stepped hbalanced hcall).balanced hnext hrest
      hordered (fun other hmem => hwithin other (List.mem_cons_of_mem _ hmem))
    refine ⟨log', hcovered', fun height time => ?_⟩
    have hafter : afterCall hashBytes registry operation = next := by
      rw [afterCall, hcall]
      rfl
    rw [hmatured, maturedBy_logAfter (hwithin operation List.mem_cons_self), movesOf, hafter,
      maturedBy_append, Nat.add_assoc]

theorem empty_covered : Covered empty [] [] :=
  ⟨fun _ _ => empty_cooled _ _, fun _ hmem => absurd hmem List.not_mem_nil,
    fun _ hmem => absurd hmem List.not_mem_nil⟩

/-- What was withdrawn is covered by moves that are mature. -/
theorem Covered.withdrawn (h : Covered registry log clocks) {height : Nat} {time : Int}
    (hafter : NotAfter clocks height time) :
    held withdrawnUnits owner among registry ≤ maturedBy owner among height time log := by
  have hall : ∀ {validator}, registry.positionsByValidatorAndOwner.contains validator = true →
      validator ∈ registry.positionsByValidatorAndOwner.keys.toFinset := by
    intro validator hcontains
    exact List.mem_toFinset.mpr (mem_keys_iff_contains.mpr hcontains)
  rw [held_eq_sum (by rfl) hall]
  refine Nat.le_trans (Finset.sum_le_sum fun validator _ => ?_) (sum_ownMoves_le _)
  split_ifs
  · exact (h.each validator owner).paid hafter
  · exact Nat.le_refl _

/-- **Stake is conserved and does not leave early.** Over every run of calls that return, from the
empty registry: what an owner holds in a lineage, in all parts together, is what he deposited to
it; what was slashed of it does not decrease as the run goes on; and when the calls pass block
heights and times in order, what he has withdrawn by any height and time of the run's end or later
is at most what he had moved to unbonding a full delay before, in blocks and in seconds. -/
theorem run_conserves (hashBytes : String → String) (operations more : List Operation)
    (registry registry' : StakingRegistry)
    (hrun : performAll hashBytes operations empty = .ok () registry)
    (hmore : performAll hashBytes more registry = .ok () registry') (owner validator : String) :
    held stakeUnits owner (inLineage operations validator) registry
        = depositedBy owner (inLineage operations validator) operations ∧
      held slashedUnits owner (inLineage operations validator) registry
        ≤ held slashedUnits owner (inLineage (operations ++ more) validator) registry' ∧
      (clocksOrdered operations → ∀ height time, NotAfter (clocksOf operations) height time →
        held withdrawnUnits owner (inLineage operations validator) registry
          ≤ maturedBy owner (inLineage operations validator) height time
            (movesOf hashBytes empty operations)) := by
  obtain ⟨hbalanced, htotal, -⟩ := @performAll_conserves hashBytes empty registry owner
    (inLineage operations validator) operations () empty_balanced hrun
    (fun operation hmem => within_lineage hmem validator)
  refine ⟨?_, ?_, ?_⟩
  · rw [htotal]
    exact Nat.zero_add _
  · obtain ⟨-, -, hslashed⟩ := @performAll_conserves hashBytes registry registry' owner
      (inLineage (operations ++ more) validator) more () hbalanced hmore
      (fun operation hmem => within_lineage (List.mem_append_right _ hmem) validator)
    exact Nat.le_trans (held_mono (by rfl) inLineage_append) hslashed
  · intro hordered height time hafter
    obtain ⟨log, hcovered, hmatured⟩ := @performAll_covered hashBytes empty registry owner
      (inLineage operations validator) [] [] operations () empty_balanced empty_covered hrun hordered
      (fun operation hmem => within_lineage hmem validator)
    have hwithdrawn := @Covered.withdrawn registry owner (inLineage operations validator) log
      (clocksOf operations) hcovered height time hafter
    rw [hmatured height time] at hwithdrawn
    exact Nat.le_trans hwithdrawn (Nat.le_of_eq (Nat.zero_add _))

end StakingRegistry

namespace StakingRegistry

/-- The run returned. -/
def returned {α : Type} : EStateM.Result String StakingRegistry α → Bool
  | .ok _ _ => true
  | .error _ _ => false

theorem exists_of_returned {result : EStateM.Result String StakingRegistry Unit}
    (h : returned result = true) : ∃ registry, result = .ok () registry := by
  cases result with
  | ok u registry => exact ⟨registry, rfl⟩
  | error => cases h

/-- A run with a deposit, an unlock, a rotation and a withdrawal. -/
def orderedRun : List Operation :=
  [.deposit "alice" "val" ⟨9, Amount.nine_inRange⟩ 1 false "t1", .activatePending 86401,
    .requestUnlock "alice" "val" ⟨4, Amount.four_inRange⟩ 86402 1000 "t2",
    .rotateValidatorAddress "val" "new" "alice" 86403 "t3",
    .withdraw "alice" "new" ⟨3, Amount.three_inRange⟩ 1296002 2420500 "t4"]

theorem orderedRun_conserves :
    ∃ registry registry', performAll (fun _ => "id") orderedRun empty = .ok () registry ∧
      performAll (fun _ => "id") [] registry = .ok () registry' ∧
      held stakeUnits "alice" (inLineage orderedRun "val") registry
        = depositedBy "alice" (inLineage orderedRun "val") orderedRun ∧
      held withdrawnUnits "alice" (inLineage orderedRun "val") registry
        ≤ maturedBy "alice" (inLineage orderedRun "val") 1296002 2420500
          (movesOf (fun _ => "id") empty orderedRun) := by
  obtain ⟨registry, hrun⟩ := exists_of_returned
    (by decide +kernel : returned (performAll (fun _ => "id") orderedRun empty) = true)
  obtain ⟨htotal, -, hwithdrawn⟩ := run_conserves (fun _ => "id") orderedRun [] registry registry
    hrun rfl "alice" "val"
  refine ⟨registry, registry, hrun, rfl, htotal, hwithdrawn ?_ 1296002 2420500 ?_⟩
  · unfold clocksOrdered
    decide
  · unfold NotAfter
    decide

/-- Two unlocks, the second at a lower height than the first, and a withdrawal of both. -/
def disorderedRun : List Operation :=
  [.deposit "alice" "val" ⟨9, Amount.nine_inRange⟩ 1 false "t1", .activatePending 86401,
    .requestUnlock "alice" "val" ⟨4, Amount.four_inRange⟩ 2000000 1000 "t2",
    .requestUnlock "alice" "val" ⟨5, Amount.five_inRange⟩ 10 1000 "t3",
    .withdraw "alice" "val" ⟨9, Amount.nine_inRange⟩ 1209610 2420500 "t4"]

/-- **Out of order.** The registry takes any block height: at height 1209610 all nine units are
withdrawn, though only five were moved to unbonding at height 10 or below. -/
theorem disorderedRun_early :
    ∃ registry, performAll (fun _ => "id") disorderedRun empty = .ok () registry ∧
      ¬ held withdrawnUnits "alice" (inLineage disorderedRun "val") registry
        ≤ maturedBy "alice" (inLineage disorderedRun "val") 1209610 2420500
          (movesOf (fun _ => "id") empty disorderedRun) := by
  have hearly : (match performAll (fun _ => "id") disorderedRun empty with
      | .ok _ registry => decide (¬ held withdrawnUnits "alice" (inLineage disorderedRun "val") registry
          ≤ maturedBy "alice" (inLineage disorderedRun "val") 1209610 2420500
            (movesOf (fun _ => "id") empty disorderedRun))
      | .error _ _ => false) = true := by decide +kernel
  obtain ⟨registry, hrun⟩ := exists_of_returned
    (by decide +kernel : returned (performAll (fun _ => "id") disorderedRun empty) = true)
  rw [hrun] at hearly
  exact ⟨registry, hrun, of_decide_eq_true hearly⟩

end StakingRegistry

end Nodo.Model
