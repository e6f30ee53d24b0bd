import Nodo.Model.Staking

/-!
# Nodo — how the staking registry rewrites an account

Every operation of the registry ends in `rewriteAccountFromPositions`: it sets the status of
each position of a validator, adds the positions up and stores the totals as the account. Here
is what that does, when the sums fit into an amount and when it returns at all.

## Results

* `rewrite_ok` — totals that fit: it returns, and only statuses and the account change.
* `rewrite_of_ok` — the same of any call that returned.
-/

namespace Nodo.Model

open ThrowingState

namespace StakingRegistry

--
-- Units
--

/-- What `positionAvailable` adds up, as a number that does not overflow. -/
def availableUnits (position : Position) : Nat :=
  position.activeAmount.rawUnits + position.pendingActivationAmount.rawUnits
    + position.pendingUnbondingAmount.rawUnits

def slashedUnits (position : Position) : Nat := position.slashedAmount.rawUnits

/-- The sum over positions. -/
def totalUnits (units : Position → Nat) (entries : List (String × Position)) : Nat :=
  (entries.map fun entry => units entry.2).sum

@[simp] theorem totalUnits_nil (units : Position → Nat) : totalUnits units [] = 0 := rfl

@[simp] theorem totalUnits_cons (units : Position → Nat) (entry : String × Position)
    (rest : List (String × Position)) :
    totalUnits units (entry :: rest) = units entry.2 + totalUnits units rest := rfl

theorem totalUnits_eq_of_perm {units : Position → Nat} {entries entries' : List (String × Position)}
    (h : entries.Perm entries') : totalUnits units entries = totalUnits units entries' :=
  (h.map _).sum_eq

/-- Replacing a position changes a total by the new one less the old one. -/
theorem totalUnits_replace {units : Position → Nat} {positions : SortedMap String Position}
    {owner : String} {old : Position} (new : Position) (h : positions.find? owner = some old) :
    totalUnits units (positions.insert owner new).entries + units old
      = totalUnits units positions.entries + units new := by
  rw [totalUnits_eq_of_perm (positions.insert_perm owner new),
    totalUnits_eq_of_perm (positions.erase_perm h)]
  simp only [totalUnits_cons]
  omega

theorem totalUnits_new {units : Position → Nat} {positions : SortedMap String Position}
    {owner : String} (new : Position) (h : positions.find? owner = none) :
    totalUnits units (positions.insert owner new).entries
      = totalUnits units positions.entries + units new := by
  rw [totalUnits_eq_of_perm (positions.insert_perm owner new), totalUnits_cons,
    positions.erase_of_find?_none h]
  exact Nat.add_comm _ _

theorem units_le_totalUnits {units : Position → Nat} {positions : SortedMap String Position}
    {owner : String} {position : Position} (h : positions.find? owner = some position) :
    units position ≤ totalUnits units positions.entries := by
  rw [totalUnits_eq_of_perm (positions.erase_perm h), totalUnits_cons]
  exact Nat.le_add_right _ _

theorem positionAvailable_ok {position : Position} (h : availableUnits position ≤ maxRawUnits) :
    ∃ amount, positionAvailable position = .ok amount ∧
      amount.rawUnits = availableUnits position := by
  unfold availableUnits at h ⊢
  obtain ⟨sum, hsum, hsumUnits⟩ :=
    @Amount.plus_ok position.activeAmount position.pendingActivationAmount (by omega)
  obtain ⟨amount, hamount, hunits⟩ :=
    @Amount.plus_ok sum position.pendingUnbondingAmount (by omega)
  refine ⟨amount, ?_, by omega⟩
  unfold positionAvailable
  rw [hsum]
  exact hamount

theorem positionAvailable_eq_ok {position : Position} {amount : Amount}
    (h : positionAvailable position = .ok amount) : amount.rawUnits = availableUnits position := by
  unfold positionAvailable at h
  obtain ⟨sum, hsum, h⟩ := Guards.ok_of_bind h
  have hfirst := Amount.plus_eq_ok hsum
  have hsecond := Amount.plus_eq_ok h
  unfold availableUnits
  omega

theorem statusFor_ok {position : Position} (h : availableUnits position ≤ maxRawUnits) :
    ∃ status, statusFor position = .ok status := by
  obtain ⟨total, htotal, -⟩ := positionAvailable_ok h
  unfold statusFor
  rw [htotal]
  show ∃ status, (if position.status == .tombstoned then Except.ok StakePositionStatus.tombstoned
    else if total.isZero then Except.ok StakePositionStatus.withdrawn
    else if position.activeAmount.isPositive || position.pendingUnbondingAmount.isPositive then
      Except.ok (if position.pendingUnbondingAmount.isPositive && position.activeAmount.isZero
        then StakePositionStatus.unbonding else StakePositionStatus.active)
    else Except.ok StakePositionStatus.pendingActivation) = .ok status
  split_ifs
  all_goals exact ⟨_, rfl⟩

theorem addPosition_ok {totals : Amount × Amount} {position : Position}
    (havailable : totals.1.rawUnits + availableUnits position ≤ maxRawUnits)
    (hslashed : totals.2.rawUnits + slashedUnits position ≤ maxRawUnits) :
    ∃ sum, addPosition totals position = .ok sum ∧
      sum.1.rawUnits = totals.1.rawUnits + availableUnits position ∧
      sum.2.rawUnits = totals.2.rawUnits + slashedUnits position := by
  obtain ⟨own, hown, hownUnits⟩ := @positionAvailable_ok position (by omega)
  obtain ⟨available, hadd, haddUnits⟩ := @Amount.plus_ok totals.1 own (by omega)
  obtain ⟨slashed, hslash, hslashUnits⟩ := @Amount.plus_ok totals.2 position.slashedAmount hslashed
  refine ⟨(available, slashed), ?_, by simp only; omega, hslashUnits⟩
  unfold addPosition
  rw [hown]
  show (do
    let available ← totals.1.plus own
    let slashed ← totals.2.plus position.slashedAmount
    return (available, slashed)) = Except.ok (available, slashed)
  rw [hadd]
  show (do
    let slashed ← totals.2.plus position.slashedAmount
    return (available, slashed)) = Except.ok (available, slashed)
  rw [hslash]
  rfl

theorem addPosition_eq_ok {totals sum : Amount × Amount} {position : Position}
    (h : addPosition totals position = .ok sum) :
    sum.1.rawUnits = totals.1.rawUnits + availableUnits position ∧
      sum.2.rawUnits = totals.2.rawUnits + slashedUnits position := by
  unfold addPosition at h
  obtain ⟨own, hown, h⟩ := Guards.ok_of_bind h
  obtain ⟨available, havailable, h⟩ := Guards.ok_of_bind h
  obtain ⟨slashed, hslashed, h⟩ := Guards.ok_of_bind h
  obtain rfl := Except.ok.inj h
  have hownUnits := positionAvailable_eq_ok hown
  have havailableUnits := Amount.plus_eq_ok havailable
  have hslashedUnits := Amount.plus_eq_ok hslashed
  refine ⟨by simp only; omega, hslashedUnits⟩

/-- The totals of positions that fit into an amount. -/
theorem addPositions_ok {entries : List (String × Position)} {totals : Amount × Amount}
    (havailable : totals.1.rawUnits + totalUnits availableUnits entries ≤ maxRawUnits)
    (hslashed : totals.2.rawUnits + totalUnits slashedUnits entries ≤ maxRawUnits) :
    ∃ sum, entries.foldlM (fun totals entry => addPosition totals entry.2) totals = .ok sum ∧
      sum.1.rawUnits = totals.1.rawUnits + totalUnits availableUnits entries ∧
      sum.2.rawUnits = totals.2.rawUnits + totalUnits slashedUnits entries := by
  induction entries generalizing totals with
  | nil => exact ⟨totals, rfl, rfl, rfl⟩
  | cons entry rest ih =>
    rw [totalUnits_cons] at havailable hslashed
    obtain ⟨next, hnext, hnextAvailable, hnextSlashed⟩ :=
      @addPosition_ok totals entry.2 (by omega) (by omega)
    obtain ⟨sum, hsum, hsumAvailable, hsumSlashed⟩ := @ih next (by omega) (by omega)
    refine ⟨sum, ?_, by rw [totalUnits_cons]; omega, by rw [totalUnits_cons]; omega⟩
    rw [List.foldlM_cons, hnext]
    exact hsum

end StakingRegistry

namespace StakingRegistry

--
-- The loop over the positions
--

/-- A position with another status. -/
def SameButStatus (_ : String) (position position' : Position) : Prop :=
  ∃ status, position' = { position with status := status }

theorem sameButStatus_refl (owner : String) (position : Position) :
    SameButStatus owner position position := ⟨position.status, rfl⟩

variable {preserveTombstoned : Bool} {position : Position} {totals : Amount × Amount}
  {records : List StakeLifecycleRecord}

theorem restate_left (owner : String) :
    SameButStatus owner position
      (left (restate preserveTombstoned (position, totals, records))).1 := by
  let P := fun s : Position × (Amount × Amount) × List StakeLifecycleRecord =>
    SameButStatus owner position s.1
  show P (left (restate preserveTombstoned (position, totals, records)))
  unfold restate
  refine leaves_get P (leaves_call P (sameButStatus_refl _ _) (fun status _ => ?_))
  refine leaves_set P (leaves_call P ⟨status, rfl⟩ (fun sum _ => ?_))
  exact ⟨status, rfl⟩

theorem restate_of_ok {position' : Position} {totals' : Amount × Amount}
    {records' : List StakeLifecycleRecord} {u : Unit}
    (h : restate preserveTombstoned (position, totals, records)
      = .ok u (position', totals', records')) :
    records' = records ∧ totals'.1.rawUnits = totals.1.rawUnits + availableUnits position ∧
      totals'.2.rawUnits = totals.2.rawUnits + slashedUnits position := by
  unfold restate at h
  obtain ⟨status, -, h⟩ := passed_call (passed_get h)
  obtain ⟨sum, hsum, h⟩ := passed_call (passed_set h)
  have hstate := ok_of_set h
  obtain ⟨-, rfl, rfl⟩ : position' = { position with status := status } ∧ totals' = sum ∧
      records' = records := by simpa using hstate
  exact ⟨rfl, addPosition_eq_ok hsum⟩

theorem restate_ok
    (havailable : totals.1.rawUnits + availableUnits position ≤ maxRawUnits)
    (hslashed : totals.2.rawUnits + slashedUnits position ≤ maxRawUnits) :
    ∃ position' totals', restate preserveTombstoned (position, totals, records)
      = .ok () (position', totals', records) := by
  obtain ⟨status, hstatus⟩ : ∃ status,
      (if preserveTombstoned then .ok .tombstoned else statusFor position) = .ok status := by
    cases preserveTombstoned with
    | true => exact ⟨_, rfl⟩
    | false => exact statusFor_ok (by omega)
  obtain ⟨sum, hsum, -⟩ := addPosition_ok havailable hslashed
  refine ⟨{ position with status := status }, sum, ?_⟩
  unfold restate
  show (call (if preserveTombstoned then .ok .tombstoned else statusFor position) >>= fun status =>
    set ({ position with status := status }, totals, records) >>= fun _ =>
    call (addPosition totals position) >>= fun sum =>
    set ({ position with status := status }, sum, records) : LoopBody (Amount × Amount) Unit)
      (position, totals, records) = _
  rw [hstatus, hsum]
  rfl

theorem visitEntries_restate_of_ok {entries entries' : List (String × Position)}
    {totals' : Amount × Amount} {records' : List StakeLifecycleRecord} {u : Unit}
    (h : SortedMap.visitEntries (fun _ => restate preserveTombstoned) entries (totals, records)
      = .ok u (entries', totals', records')) :
    records' = records ∧
      totals'.1.rawUnits = totals.1.rawUnits + totalUnits availableUnits entries ∧
      totals'.2.rawUnits = totals.2.rawUnits + totalUnits slashedUnits entries := by
  induction entries generalizing totals records entries' with
  | nil =>
    cases h
    exact ⟨rfl, rfl, rfl⟩
  | cons entry rest ih =>
    obtain ⟨owner, position⟩ := entry
    obtain ⟨position', ⟨next, kept⟩, rest', hbody, hrest, -⟩ := SortedMap.ok_of_visitEntries_cons h
    obtain ⟨rfl, havailable, hslashed⟩ := restate_of_ok hbody
    obtain ⟨hrecords, hrestAvailable, hrestSlashed⟩ := ih hrest
    simp only [totalUnits_cons]
    exact ⟨hrecords, by omega, by omega⟩

theorem visitEntries_restate_ok {entries : List (String × Position)}
    (havailable : totals.1.rawUnits + totalUnits availableUnits entries ≤ maxRawUnits)
    (hslashed : totals.2.rawUnits + totalUnits slashedUnits entries ≤ maxRawUnits) :
    ∃ s, SortedMap.visitEntries (fun _ => restate preserveTombstoned) entries (totals, records)
      = .ok () s := by
  induction entries generalizing totals with
  | nil => exact ⟨_, rfl⟩
  | cons entry rest ih =>
    obtain ⟨owner, position⟩ := entry
    simp only [totalUnits_cons] at havailable hslashed
    obtain ⟨position', next, hbody⟩ :=
      @restate_ok preserveTombstoned position totals records (by omega) (by omega)
    obtain ⟨-, hnextAvailable, hnextSlashed⟩ := restate_of_ok hbody
    obtain ⟨s, hrest⟩ := @ih next (by omega) (by omega)
    rw [SortedMap.visitEntries, hbody]
    simp only [hrest]
    exact ⟨_, rfl⟩

end StakingRegistry

namespace StakingRegistry

variable {hashBytes : String → String} {registry registry' : StakingRegistry}
  {validator : String} {positions : SortedMap String Position}

--
-- Accounts and positions of one validator
--

@[simp] theorem positionsOf_withPositions (registry : StakingRegistry) (validator : String)
    (positions : SortedMap String Position) :
    (registry.withPositions validator positions).positionsOf validator = positions := by
  simp [positionsOf, withPositions]

theorem positionsOf_of_find? (h : registry.positionsByValidatorAndOwner.find? validator
    = some positions) : registry.positionsOf validator = positions := by
  rw [positionsOf, h]
  rfl

theorem withPositions_withPositions (registry : StakingRegistry) (validator : String)
    (positions positions' : SortedMap String Position) :
    (registry.withPositions validator positions).withPositions validator positions'
      = registry.withPositions validator positions' := by
  unfold withPositions
  simp only [StakingRegistry.mk.injEq, true_and, and_true]
  refine SortedMap.eq_of_mem_iff (fun entry => ?_)
  obtain ⟨key, value⟩ := entry
  simp only [← SortedMap.find?_eq_some_iff, SortedMap.find?_insert]
  split_ifs <;> rfl

theorem withPositions_of_find? (h : registry.positionsByValidatorAndOwner.find? validator
    = some positions) : registry.withPositions validator positions = registry := by
  unfold withPositions
  rw [SortedMap.insert_of_find? _ h]

/-- An account that adds up the positions. -/
structure AddsUp (account : StakeAccount) (positions : SortedMap String Position) : Prop where
  slashed : account.slashedAmount.rawUnits = totalUnits slashedUnits positions.entries
  bonded : account.bondedAmount.rawUnits = totalUnits availableUnits positions.entries
    + totalUnits slashedUnits positions.entries

/-- Positions that add up to the account stay. -/
theorem reconcilePositions_kept {account : StakeAccount}
    (hsum : AddsUp account (registry.positionsOf account.validatorAddress)) :
    reconcilePositions hashBytes account registry = .ok () registry := by
  have hbound := account.bondedAmount.inRange
  rw [hsum.bonded] at hbound
  obtain ⟨totals, htotals, havailable, hslashed⟩ :=
    @addPositions_ok (registry.positionsOf account.validatorAddress).entries
      (Amount.zero, Amount.zero) (by simp only [Amount.zero]; omega)
      (by simp only [Amount.zero]; omega)
  simp only [Amount.zero, Nat.zero_add] at havailable hslashed
  obtain ⟨bonded, hplus, hbonded⟩ := @Amount.plus_ok totals.1 totals.2 (by omega)
  have hbondedEq : account.bondedAmount = bonded := Amount.ext (by rw [hsum.bonded]; omega)
  have hslashedEq : account.slashedAmount = totals.2 := Amount.ext (by rw [hsum.slashed]; omega)
  have hmaterialize : materialize (registry.positionsOf account.validatorAddress) = .ok totals :=
    htotals
  unfold reconcilePositions
  rw [run_get, run_call hmaterialize]
  by_cases hempty : (registry.positionsOf account.validatorAddress).entries.isEmpty = true
  · -- no positions: the account is empty, so no position is made
    rw [if_pos hempty]
    rw [List.isEmpty_iff] at hempty
    have hslashedZero : account.slashedAmount = Amount.zero := Amount.ext (by
      rw [hsum.slashed, hempty]
      rfl)
    have hbondedZero : account.bondedAmount = Amount.zero := Amount.ext (by
      rw [hsum.bonded, hempty]
      rfl)
    unfold createOwnPosition
    rw [hslashedZero, hbondedZero]
    rfl
  · rw [if_neg hempty, run_call hplus, hbondedEq, hslashedEq]
    simp only [bne_self_eq_false, Bool.or_self]
    rfl

/-- `setAccount` with an account that adds up the positions keeps them. -/
theorem setAccount_kept {account : StakeAccount}
    (hsafe : isSafeStakingScalar account.validatorAddress = true)
    (hvalid : account.isValid = true)
    (hsum : AddsUp account (registry.positionsOf account.validatorAddress)) :
    setAccount hashBytes account.validatorAddress account registry
      = .ok () (registry.rewritten (registry.positionsOf account.validatorAddress) account) := by
  unfold setAccount
  rw [hsafe, hvalid]
  simp only [Bool.not_true, bne_self_eq_false, Bool.or_self]
  refine reconcilePositions_kept ?_
  have hfound : (registry.rewritten (registry.positionsOf account.validatorAddress)
      account).positionsOf account.validatorAddress
        = registry.positionsOf account.validatorAddress := by
    simp [rewritten, positionsOf, withPositions]
  rw [hfound]
  exact hsum

--
-- The rewrite
--

variable {preserveJailed preserveTombstoned : Bool}

/-- The account that a rewrite stores. -/
structure Stored (validator : String) (jailed tombstoned : Bool)
    (positions : SortedMap String Position) (account : StakeAccount) : Prop where
  address : account.validatorAddress = validator
  jailed : account.jailed = (jailed || tombstoned)
  tombstoned : account.tombstoned = tombstoned
  sum : AddsUp account positions

theorem isValid_of_stored (hsafe : isSafeStakingScalar validator = true) {account : StakeAccount}
    (h : Stored validator preserveJailed preserveTombstoned positions account) :
    account.isValid = true := by
  have hne : validator.isEmpty = false := by
    unfold isSafeStakingScalar at hsafe
    simpa using (Bool.and_eq_true_iff.mp hsafe).1
  have hle : account.slashedAmount.rawUnits ≤ account.bondedAmount.rawUnits := by
    rw [h.sum.slashed, h.sum.bonded]
    omega
  simp [StakeAccount.isValid, h.address, hne, hle]

theorem addsUp_of_sameButStatus {account : StakeAccount} {positions' : SortedMap String Position}
    (h : AddsUp account positions) (hsame : SortedMap.Related SameButStatus positions positions') :
    AddsUp account positions' := by
  have hunits : ∀ units : Position → Nat, (∀ position status,
      units { position with status := status } = units position) →
      totalUnits units positions'.entries = totalUnits units positions.entries := by
    intro units hstatus
    refine hsame.sum_eq (fun _ position position' hrelated => ?_)
    obtain ⟨status, rfl⟩ := hrelated
    exact hstatus position status
  refine ⟨?_, ?_⟩
  · rw [hunits slashedUnits (fun _ _ => rfl)]
    exact h.slashed
  · rw [hunits slashedUnits (fun _ _ => rfl), hunits availableUnits (fun _ _ => rfl)]
    exact h.bonded

end StakingRegistry

namespace StakingRegistry

variable {hashBytes : String → String} {registry registry' : StakingRegistry}
  {validator : String} {positions : SortedMap String Position}
  {preserveJailed preserveTombstoned : Bool}

theorem visitPositions_none {α : Type} {body : String → LoopBody α Unit} {start : α}
    (h : registry.positionsByValidatorAndOwner.find? validator = none) :
    visitPositions validator body start registry = .ok start registry := by
  unfold visitPositions
  rw [run_get]
  simp only [h]
  rfl

/-- The registry that a loop over positions leaves. -/
def visited {α : Type} (registry : StakingRegistry) (validator : String)
    (ended : EStateM.Result String (SortedMap String Position × α × List StakeLifecycleRecord) Unit) :
    StakingRegistry :=
  { registry.withPositions validator (left ended).1 with lifecycleRecords := (left ended).2.2 }

theorem visitPositions_some {α : Type} {body : String → LoopBody α Unit} {start : α}
    (h : registry.positionsByValidatorAndOwner.find? validator = some positions) :
    visitPositions validator body start registry
      = match positions.visit body (start, registry.lifecycleRecords) with
        | .ok u s => .ok s.2.1 (registry.visited validator (.ok u s))
        | .error e s => .error e (registry.visited validator (.error e s)) := by
  unfold visitPositions
  rw [run_get]
  simp only [h]
  rw [run_set]
  cases positions.visit body (start, registry.lifecycleRecords) with
  | ok u s => rfl
  | error e s => rfl

/-- The loop of a rewrite that ran to its end: statuses changed, and the totals are those of the
positions. -/
theorem visit_restate_of_ok {start totals : Amount × Amount}
    {records records' : List StakeLifecycleRecord} {positions' : SortedMap String Position}
    {u : Unit}
    (h : positions.visit (fun _ => restate preserveTombstoned) (start, records)
      = .ok u (positions', totals, records')) :
    records' = records ∧
      totals.1.rawUnits = start.1.rawUnits + totalUnits availableUnits positions.entries ∧
      totals.2.rawUnits = start.2.rawUnits + totalUnits slashedUnits positions.entries ∧
      SortedMap.Related SameButStatus positions positions' := by
  have hrelated : SortedMap.Related SameButStatus positions
      (left (positions.visit (fun _ => restate preserveTombstoned) (start, records))).1 :=
    SortedMap.visit_related sameButStatus_refl (fun {owner _} _ _ => restate_left owner) _
  rw [h] at hrelated
  obtain ⟨hrecords, havailable, hslashed⟩ :=
    visitEntries_restate_of_ok (SortedMap.visit_eq_ok.mp h)
  exact ⟨hrecords, havailable, hslashed, hrelated⟩

/-- What a rewrite does to a registry: only the statuses of one validator's positions and its
account change. -/
def Rewrote (validator : String) (jailed tombstoned : Bool)
    (registry registry' : StakingRegistry) : Prop :=
  ∃ positions' account, SortedMap.Related SameButStatus (registry.positionsOf validator) positions' ∧
    Stored validator jailed tombstoned (registry.positionsOf validator) account ∧
    registry' = registry.rewritten positions' account

/-- The loop of a rewrite over the positions of a validator, with an entry or without. -/
theorem visitPositions_restate_of_ok {totals : Amount × Amount}
    (h : visitPositions validator (fun _ => restate preserveTombstoned) (Amount.zero, Amount.zero)
      registry = .ok totals registry') :
    totals.1.rawUnits = totalUnits availableUnits (registry.positionsOf validator).entries ∧
      totals.2.rawUnits = totalUnits slashedUnits (registry.positionsOf validator).entries ∧
      SortedMap.Related SameButStatus (registry.positionsOf validator)
        (registry'.positionsOf validator) ∧
      ∀ positions' account, account.validatorAddress = validator →
        registry'.rewritten positions' account = registry.rewritten positions' account := by
  cases hfind : registry.positionsByValidatorAndOwner.find? validator with
  | none =>
    rw [visitPositions_none hfind] at h
    cases h
    have hnone : registry.positionsOf validator = SortedMap.empty := by
      rw [positionsOf, hfind]
      rfl
    rw [hnone]
    exact ⟨rfl, rfl, List.Forall₂.nil, fun _ _ _ => rfl⟩
  | some positions =>
    rw [visitPositions_some hfind] at h
    cases hvisit : positions.visit (fun _ => restate preserveTombstoned)
        ((Amount.zero, Amount.zero), registry.lifecycleRecords) with
    | error e s =>
      rw [hvisit] at h
      cases h
    | ok u s =>
      obtain ⟨positions', totals', records⟩ := s
      rw [hvisit] at h
      cases h
      obtain ⟨rfl, havailable, hslashed, hrelated⟩ := visit_restate_of_ok hvisit
      simp only [Amount.zero, Nat.zero_add] at havailable hslashed
      rw [positionsOf_of_find? hfind]
      refine ⟨havailable, hslashed, ?_, ?_⟩
      · have hpositions : (registry.visited validator
            (.ok u (positions', totals', registry.lifecycleRecords) : EStateM.Result String _ _)
            ).positionsOf validator = positions' :=
          positionsOf_withPositions registry validator positions'
        rw [hpositions]
        exact hrelated
      · rintro written account rfl
        unfold rewritten visited
        have htwice := withPositions_withPositions registry account.validatorAddress positions'
          written
        unfold withPositions at htwice ⊢
        simp only [StakingRegistry.mk.injEq, true_and, and_true] at htwice ⊢
        exact ⟨htwice, rfl⟩

/-- **A rewrite that returned.** -/
theorem rewrite_of_ok {u : Unit}
    (h : rewriteAccountFromPositions hashBytes validator preserveJailed preserveTombstoned registry
      = .ok u registry') :
    Rewrote validator preserveJailed preserveTombstoned registry registry' := by
  unfold rewriteAccountFromPositions at h
  obtain ⟨totals, restated, hvisit, h⟩ := ok_of_bind h
  obtain ⟨havailable, hslashed, hrelated, hkept⟩ := visitPositions_restate_of_ok hvisit
  obtain ⟨bonded, hbonded, h⟩ := passed_call h
  obtain ⟨account, hcomplete, h⟩ := passed_call h
  have hunits := Amount.plus_eq_ok hbonded
  unfold StakeAccount.complete at hcomplete
  obtain ⟨hvalid, hcomplete⟩ := Guards.ok_of_ite_error hcomplete
  obtain rfl := Except.ok.inj hcomplete
  have hstored : Stored validator preserveJailed preserveTombstoned (registry.positionsOf validator)
      ⟨validator, bonded, totals.2, preserveJailed || preserveTombstoned, preserveTombstoned⟩ :=
    ⟨rfl, rfl, rfl, hslashed, by simp only; omega⟩
  have hsafe : isSafeStakingScalar validator = true := by
    unfold setAccount at h
    have hguard := (passed_refuseIf h).1
    simp only [Bool.or_eq_false_iff] at hguard
    simpa using hguard.1.1
  have hset := @setAccount_kept hashBytes restated
    ⟨validator, bonded, totals.2, preserveJailed || preserveTombstoned, preserveTombstoned⟩ hsafe
    (by simpa using hvalid) (addsUp_of_sameButStatus hstored.sum hrelated)
  simp only at hset
  rw [hset] at h
  cases h
  exact ⟨_, _, hrelated, hstored, hkept _ _ rfl⟩

/-- **A rewrite of totals that fit.** -/
theorem rewrite_ok (hsafe : isSafeStakingScalar validator = true)
    (hfits : totalUnits availableUnits (registry.positionsOf validator).entries
      + totalUnits slashedUnits (registry.positionsOf validator).entries ≤ maxRawUnits) :
    ∃ registry', rewriteAccountFromPositions hashBytes validator preserveJailed preserveTombstoned
        registry = .ok () registry' ∧
      Rewrote validator preserveJailed preserveTombstoned registry registry' := by
  have hvisit : ∃ totals restated, visitPositions validator (fun _ => restate preserveTombstoned)
      (Amount.zero, Amount.zero) registry = .ok totals restated := by
    cases hfind : registry.positionsByValidatorAndOwner.find? validator with
    | none => exact ⟨_, _, visitPositions_none hfind⟩
    | some positions =>
      rw [positionsOf_of_find? hfind] at hfits
      obtain ⟨s, hs⟩ := @visitEntries_restate_ok preserveTombstoned (Amount.zero, Amount.zero)
        registry.lifecycleRecords positions.entries (by simp only [Amount.zero]; omega)
        (by simp only [Amount.zero]; omega)
      obtain ⟨positions', ended, hvisit⟩ := SortedMap.visit_ok hs
      rw [visitPositions_some hfind, hvisit]
      exact ⟨_, _, rfl⟩
  obtain ⟨totals, restated, hvisit⟩ := hvisit
  obtain ⟨havailable, hslashed, hrelated, hkept⟩ := visitPositions_restate_of_ok hvisit
  obtain ⟨bonded, hbonded, hunits⟩ := @Amount.plus_ok totals.1 totals.2 (by omega)
  have hstored : Stored validator preserveJailed preserveTombstoned (registry.positionsOf validator)
      ⟨validator, bonded, totals.2, preserveJailed || preserveTombstoned, preserveTombstoned⟩ :=
    ⟨rfl, rfl, rfl, hslashed, by simp only; omega⟩
  have hvalid := isValid_of_stored hsafe hstored
  have hset := @setAccount_kept hashBytes restated
    ⟨validator, bonded, totals.2, preserveJailed || preserveTombstoned, preserveTombstoned⟩ hsafe
    hvalid (addsUp_of_sameButStatus hstored.sum hrelated)
  have hcomplete : StakeAccount.complete ⟨validator, bonded, totals.2,
      preserveJailed || preserveTombstoned, preserveTombstoned⟩ = .ok ⟨validator, bonded, totals.2,
      preserveJailed || preserveTombstoned, preserveTombstoned⟩ := by
    unfold StakeAccount.complete
    rw [hvalid]
    rfl
  refine ⟨_, ?_, _, _, hrelated, hstored, hkept _ _ rfl⟩
  unfold rewriteAccountFromPositions
  rw [run_bind hvisit, run_call hbonded, run_call hcomplete]
  exact hset

end StakingRegistry

end Nodo.Model
