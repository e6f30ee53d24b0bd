import Nodo.Model.StakingLedger

/-!
# Nodo — the audit of the staking registry over any calls

`StakingRegistry::isValid` after every call of a run, calls that throw included. An operation
writes positions before it has made all its checks, so a call that throws may leave a registry
that the audit refuses; `Breaks` says exactly on which branches. Every other call keeps the
audit.

## Results

* `isValid_of_audited` — the invariant gives the code's audit.
* `deposit_audited` and its siblings — each call that does not break leaves the invariant.
* `run_isValid` — a run without a breaking call passes the audit after every call.
-/

namespace Nodo.Model

open ThrowingState

namespace StakingRegistry

variable {hashBytes : String → String} {registry registry' : StakingRegistry}
  {validator owner : String} {position position' : Position}

--
-- The invariant
--

/-- What the audit asks of a position. -/
structure PositionOk (hashBytes : String → String) (validator owner : String)
    (position : Position) : Prop where
  safe : isSafeStakingScalar owner = true
  id : position.positionId = stakePositionId hashBytes owner validator
  lock : position.lockHeight ≠ 0
  activation : position.activationHeight ≠ 0
  start : 0 ≤ position.unbondingStartTime
  ends : 0 ≤ position.withdrawableTime
  deadline : 0 < position.pendingUnbondingAmount.rawUnits → deadlineMatches position = true

theorem positionIsValid_of_ok (h : PositionOk hashBytes validator owner position) :
    positionIsValid hashBytes validator owner position = true := by
  have hguard : (!isSafeStakingScalar owner
      || position.positionId != stakePositionId hashBytes owner validator
      || position.lockHeight == 0 || position.activationHeight == 0
      || position.activeAmount.isNegative || position.pendingActivationAmount.isNegative
      || position.pendingUnbondingAmount.isNegative || position.withdrawnAmount.isNegative
      || position.slashedAmount.isNegative || position.rewardsPending.isNegative
      || position.unbondingStartTime < 0 || position.withdrawableTime < 0) = false := by
    have hstart := h.start
    have hends := h.ends
    simp [h.safe, h.id, h.lock, h.activation, hstart, hends]
  unfold positionIsValid
  rw [hguard]
  by_cases hpositive : position.pendingUnbondingAmount.isPositive = true
  · rw [hpositive, h.deadline (Amount.isPositive_iff.mp hpositive)]
    rfl
  · rw [Bool.not_eq_true] at hpositive
    rw [hpositive]
    rfl

/-- What the audit asks of a validator with positions. -/
structure ValidatorOk (hashBytes : String → String) (accounts : SortedMap String StakeAccount)
    (validator : String) (positions : SortedMap String Position) : Prop where
  safe : isSafeStakingScalar validator = true
  each : ∀ {owner position}, positions.find? owner = some position →
    PositionOk hashBytes validator owner position
  account : ∃ account, accounts.find? validator = some account ∧ AddsUp account positions

/-- What the audit asks of the rotations. -/
structure RotationsOk (registry : StakingRegistry) : Prop where
  expected : expectedRotations registry.lifecycleRecords SortedMap.empty
    = some registry.rotationSuccessors
  chains : ∀ {old new}, registry.rotationSuccessors.find? old = some new →
    ∃ current, registry.currentAddressFor old = .ok current ∧ current ≠ old ∧
      registry.accounts.find? old = none ∧ ∃ account, registry.accounts.find? current = some account

/-- The accounts by themselves. -/
def AccountsOk (accounts : SortedMap String StakeAccount) : Prop :=
  ∀ {address account}, accounts.find? address = some account →
    isSafeStakingScalar address = true ∧ account.isValid = true ∧
      account.validatorAddress = address

/-- **The invariant.** What the audit asks, and that every account has an entry for its
positions. -/
structure Audited (hashBytes : String → String) (registry : StakingRegistry) : Prop where
  accounts : AccountsOk registry.accounts
  validators : ∀ {validator positions},
    registry.positionsByValidatorAndOwner.find? validator = some positions →
      ValidatorOk hashBytes registry.accounts validator positions
  entries : ∀ {address account}, registry.accounts.find? address = some account →
    ∃ positions, registry.positionsByValidatorAndOwner.find? address = some positions
  rotations : RotationsOk registry

theorem auditPositions_ok {entries : List (String × Position)} {totals : Amount × Amount}
    (hentries : ∀ entry ∈ entries, PositionOk hashBytes validator entry.1 entry.2)
    (havailable : totals.1.rawUnits + totalUnits availableUnits entries ≤ maxRawUnits)
    (hslashed : totals.2.rawUnits + totalUnits slashedUnits entries ≤ maxRawUnits) :
    ∃ sum, auditPositions hashBytes validator entries totals = .ok (some sum) ∧
      sum.1.rawUnits = totals.1.rawUnits + totalUnits availableUnits entries ∧
      sum.2.rawUnits = totals.2.rawUnits + totalUnits slashedUnits entries := by
  induction entries generalizing totals with
  | nil => exact ⟨totals, rfl, rfl, rfl⟩
  | cons entry rest ih =>
    obtain ⟨owner, position⟩ := entry
    simp only [totalUnits_cons] at havailable hslashed ⊢
    obtain ⟨next, hnext, hnextAvailable, hnextSlashed⟩ :=
      @addPosition_ok totals position (by omega) (by omega)
    obtain ⟨sum, hsum, hsumAvailable, hsumSlashed⟩ := @ih next
      (fun entry hmem => hentries entry (List.mem_cons_of_mem _ hmem)) (by omega) (by omega)
    refine ⟨sum, ?_, by omega, by omega⟩
    rw [auditPositions, positionIsValid_of_ok (hentries _ List.mem_cons_self), hnext]
    exact hsum

theorem auditValidators_ok {accounts : SortedMap String StakeAccount}
    {entries : List (String × SortedMap String Position)}
    (h : ∀ entry ∈ entries, ValidatorOk hashBytes accounts entry.1 entry.2) :
    auditValidators hashBytes accounts entries = .ok true := by
  induction entries with
  | nil => rfl
  | cons entry rest ih =>
    obtain ⟨validator, positions⟩ := entry
    have hfirst : ValidatorOk hashBytes accounts validator positions := h _ List.mem_cons_self
    obtain ⟨hsafe, hpositions, account, haccount, hsum⟩ := hfirst
    have hbound := account.bondedAmount.inRange
    rw [hsum.bonded] at hbound
    obtain ⟨totals, haudit, havailable, hslashed⟩ :=
      @auditPositions_ok hashBytes validator positions.entries (Amount.zero, Amount.zero)
        (fun entry hmem => hpositions (positions.find?_eq_some_iff.mpr hmem))
        (by simp only [Amount.zero]; omega) (by simp only [Amount.zero]; omega)
    simp only [Amount.zero, Nat.zero_add] at havailable hslashed
    obtain ⟨bonded, hplus, hbonded⟩ := @Amount.plus_ok totals.1 totals.2 (by omega)
    have hbondedEq : account.bondedAmount = bonded := Amount.ext (by rw [hsum.bonded]; omega)
    have hslashedEq : account.slashedAmount = totals.2 := Amount.ext (by rw [hsum.slashed]; omega)
    have hrest := ih (fun entry hmem => h entry (List.mem_cons_of_mem _ hmem))
    have hzero : auditPositions hashBytes validator positions.entries (Amount.zero, Amount.zero)
        = .ok (some totals) := haudit
    rw [auditValidators]
    rw [hsafe, hzero]
    simp only [haccount, Guards.ok_bind, Bool.not_true, Bool.false_eq_true, if_false]
    rw [hslashedEq, bne_self_eq_false, hplus]
    show (if account.bondedAmount != bonded then Except.ok false
      else auditValidators hashBytes accounts rest) = .ok true
    rw [hbondedEq, bne_self_eq_false]
    exact hrest

/-- **The invariant gives the code's audit.** -/
theorem isValid_of_audited (h : Audited hashBytes registry) :
    isValid hashBytes registry = .ok true := by
  have haccounts : registry.accounts.entries.all (fun entry => isSafeStakingScalar entry.1
      && entry.2.isValid && entry.2.validatorAddress == entry.1) = true := by
    rw [List.all_eq_true]
    rintro ⟨address, account⟩ hmem
    obtain ⟨hsafe, hvalid, haddress⟩ := h.accounts (registry.accounts.find?_eq_some_iff.mpr hmem)
    simp [hsafe, hvalid, haddress]
  have hvalidators : auditValidators hashBytes registry.accounts
      registry.positionsByValidatorAndOwner.entries = .ok true :=
    auditValidators_ok (fun entry hmem => h.validators
      (registry.positionsByValidatorAndOwner.find?_eq_some_iff.mpr hmem))
  have hrotations : registry.rotationSuccessors.keys.all registry.rotationIsValid = true := by
    rw [List.all_eq_true]
    intro old hmem
    obtain ⟨new, hentry⟩ := registry.rotationSuccessors.mem_keys_iff.mp hmem
    obtain ⟨current, hcurrent, hne, hnone, account, haccount⟩ :=
      h.rotations.chains (registry.rotationSuccessors.find?_eq_some_iff.mpr hentry)
    unfold rotationIsValid
    rw [hcurrent]
    simp [hne, SortedMap.contains, hnone, haccount]
  unfold isValid
  rw [haccounts, hvalidators]
  simp only [h.rotations.expected, hrotations, bne_self_eq_false]
  rfl

end StakingRegistry

namespace StakingRegistry

variable {hashBytes : String → String} {registry registry' : StakingRegistry}
  {validator owner : String} {position position' : Position}

--
-- Records
--

/-- Records appended, none of them a rotation. -/
def Appended (records records' : List StakeLifecycleRecord) : Prop :=
  ∃ new, records' = records ++ new ∧
    ∀ record ∈ new, record.isValid = true ∧ record.action ≠ .validatorKeyRotate

theorem appended_refl (records : List StakeLifecycleRecord) : Appended records records :=
  ⟨[], by simp, by simp⟩

theorem Appended.trans {first second third : List StakeLifecycleRecord}
    (h : Appended first second) (h' : Appended second third) : Appended first third := by
  obtain ⟨new, rfl, hnew⟩ := h
  obtain ⟨new', rfl, hnew'⟩ := h'
  refine ⟨new ++ new', by rw [List.append_assoc], ?_⟩
  intro record hmem
  rcases List.mem_append.mp hmem with hmem | hmem
  · exact hnew record hmem
  · exact hnew' record hmem

theorem expectedRotations_append (records new : List StakeLifecycleRecord)
    (start : SortedMap String String) :
    expectedRotations (records ++ new) start
      = (expectedRotations records start).bind (expectedRotations new) := by
  induction records generalizing start with
  | nil => rfl
  | cons record rest ih =>
    simp only [List.cons_append, expectedRotations]
    split_ifs
    · rfl
    · split
      · exact ih _
      · split_ifs
        · rfl
        · exact ih _
    · exact ih _

theorem expectedRotations_of_appended {records records' : List StakeLifecycleRecord}
    {expected : SortedMap String String} (h : Appended records records')
    (hexpected : expectedRotations records SortedMap.empty = some expected) :
    expectedRotations records' SortedMap.empty = some expected := by
  obtain ⟨new, rfl, hnew⟩ := h
  rw [expectedRotations_append, hexpected]
  show expectedRotations new expected = some expected
  induction new with
  | nil => rfl
  | cons record rest ih =>
    obtain ⟨hvalid, haction⟩ := hnew record List.mem_cons_self
    rw [expectedRotations, hvalid, if_neg (by simp), if_neg (by simpa using haction)]
    exact ih (fun other hmem => hnew other (List.mem_cons_of_mem _ hmem))

theorem lifecycleRecord_eq_ok {records : List StakeLifecycleRecord} {action : StakeAction}
    {transactionId reason previous : String} {amount : Amount} {height : UInt64}
    {record : StakeLifecycleRecord}
    (h : lifecycleRecord hashBytes records action transactionId owner validator amount height
      position reason previous = .ok record) :
    record.isValid = true ∧ record.action = action ∧ record.validatorAddress = validator ∧
      record.previousValidatorAddress = previous := by
  unfold lifecycleRecord at h
  obtain ⟨hvalid, h⟩ := Guards.ok_of_ite_error h
  obtain rfl := Except.ok.inj h
  exact ⟨by simpa using hvalid, rfl, rfl, rfl⟩

/-- **Records are never refused**, given owners, validators and a height that are. -/
theorem lifecycleRecord_ok (hhash : ∀ text, hashBytes text ≠ "")
    {records : List StakeLifecycleRecord} {action : StakeAction}
    {transactionId reason previous : String} {amount : Amount} {height : UInt64}
    (howner : isSafeStakingScalar owner = true) (hvalidator : isSafeStakingScalar validator = true)
    (hprevious : if action = .validatorKeyRotate then
        isSafeStakingScalar previous = true ∧ previous ≠ validator else previous = "")
    (hheight : height ≠ 0) :
    ∃ record, lifecycleRecord hashBytes records action transactionId owner validator amount height
      position reason previous = .ok record := by
  have htext : action.text.isEmpty = false := by cases action <;> rfl
  have hid : ∀ text, (hashBytes text).isEmpty = false := by
    intro text
    simpa using hhash text
  unfold lifecycleRecord
  refine ⟨_, if_neg ?_⟩
  rw [Bool.not_eq_true', Bool.not_eq_false]
  unfold StakeLifecycleRecord.isValid
  by_cases haction : action = .validatorKeyRotate
  · rw [if_pos haction] at hprevious
    have hempty : previous.isEmpty = false := by
      have hsafe := hprevious.1
      unfold isSafeStakingScalar at hsafe
      simpa using (Bool.and_eq_true_iff.mp hsafe).1
    subst haction
    simp [hid, htext, howner, hvalidator, hprevious.1, hprevious.2, hempty, hheight]
  · rw [if_neg haction] at hprevious
    subst hprevious
    have hother : (action == StakeAction.validatorKeyRotate) = false := by simpa using haction
    simp [hid, htext, howner, hvalidator, hheight, hother]

theorem rotationsOk_of_appended (h : RotationsOk registry)
    {records : List StakeLifecycleRecord} (hrecords : Appended registry.lifecycleRecords records) :
    RotationsOk { registry with lifecycleRecords := records } :=
  ⟨expectedRotations_of_appended hrecords h.expected, fun hfind => h.chains hfind⟩

theorem audited_of_appended (h : Audited hashBytes registry)
    {records : List StakeLifecycleRecord} (hrecords : Appended registry.lifecycleRecords records) :
    Audited hashBytes { registry with lifecycleRecords := records } :=
  ⟨h.accounts, h.validators, h.entries, rotationsOk_of_appended h.rotations hrecords⟩

/-- The end of an operation: it reads the position again and appends a record. -/
theorem appendRecord_audited {action : StakeAction} {transactionId reason : String}
    {amount : Amount} {height : UInt64} (haction : action ≠ .validatorKeyRotate)
    (h : Audited hashBytes registry) :
    Audited hashBytes (left ((positionAt validator owner >>= fun written =>
      appendLifecycleRecord hashBytes action transactionId owner validator amount height written
        reason) registry)) := by
  have hread : ∀ result, positionAt validator owner registry = result →
      left result = registry := by
    rintro result rfl
    unfold positionAt
    rw [run_get]
    cases (registry.positionsOf validator).find? owner with
    | none => rfl
    | some position => rfl
  refine leaves_bind (Audited hashBytes) ?_ ?_
  · intro e left hthrow
    rw [← hread _ hthrow] at h
    exact h
  · intro written left hok
    rw [← hread _ hok] at h
    unfold appendLifecycleRecord
    refine leaves_get (Audited hashBytes) (leaves_call (Audited hashBytes) h (fun record hrecord => ?_))
    obtain ⟨hvalid, hrecordAction, -⟩ := lifecycleRecord_eq_ok hrecord
    refine audited_of_appended h ⟨[record], rfl, ?_⟩
    intro other hother
    rw [List.mem_singleton.mp hother]
    exact ⟨hvalid, hrecordAction ▸ haction⟩

end StakingRegistry

namespace StakingRegistry

variable {hashBytes : String → String} {registry registry' : StakingRegistry}
  {validator owner : String} {position position' : Position}

--
-- Between the write and the rewrite
--

/-- The invariant but for the account of one validator, whose positions are in order. -/
structure AuditedBut (hashBytes : String → String) (validator : String)
    (registry : StakingRegistry) : Prop where
  accounts : AccountsOk registry.accounts
  validators : ∀ {other positions}, other ≠ validator →
    registry.positionsByValidatorAndOwner.find? other = some positions →
      ValidatorOk hashBytes registry.accounts other positions
  entries : ∀ {address account}, address ≠ validator →
    registry.accounts.find? address = some account →
      ∃ positions, registry.positionsByValidatorAndOwner.find? address = some positions
  rotations : RotationsOk registry
  safe : isSafeStakingScalar validator = true
  live : registry.rotationSuccessors.find? validator = none
  each : ∀ {owner position}, (registry.positionsOf validator).find? owner = some position →
    PositionOk hashBytes validator owner position

theorem positionOk_of_sameButStatus (h : PositionOk hashBytes validator owner position)
    (hsame : SameButStatus owner position position') :
    PositionOk hashBytes validator owner position' := by
  obtain ⟨status, rfl⟩ := hsame
  exact ⟨h.safe, h.id, h.lock, h.activation, h.start, h.ends, h.deadline⟩

/-- A new account does not touch the rotations, unless its address was rotated away. -/
theorem rotationsOk_insert (h : RotationsOk registry)
    {accounts : SortedMap String StakeAccount}
    (hnone : ∀ old new, registry.rotationSuccessors.find? old = some new →
      accounts.find? old = registry.accounts.find? old)
    (hsome : ∀ address account, registry.accounts.find? address = some account →
      ∃ account', accounts.find? address = some account')
    (positions : SortedMap String (SortedMap String Position)) :
    RotationsOk { registry with
      accounts := accounts
      positionsByValidatorAndOwner := positions } := by
  refine ⟨h.expected, fun {old new} hfind => ?_⟩
  obtain ⟨current, hcurrent, hne, hold, account, haccount⟩ := h.chains hfind
  refine ⟨current, hcurrent, hne, ?_, hsome current account haccount⟩
  exact (hnone old new hfind).trans hold

/-- **A rewrite restores the invariant.** -/
theorem AuditedBut.rewrote {jailed tombstoned : Bool} (h : AuditedBut hashBytes validator registry)
    (hrewrote : Rewrote validator jailed tombstoned registry registry') :
    Audited hashBytes registry' := by
  obtain ⟨positions, account, hsame, hstored, rfl⟩ := hrewrote
  have hvalid := isValid_of_stored h.safe hstored
  obtain rfl := hstored.address
  have haccounts : (registry.rewritten positions account).accounts
      = registry.accounts.insert account.validatorAddress account := rfl
  have hpositions : (registry.rewritten positions account).positionsByValidatorAndOwner
      = registry.positionsByValidatorAndOwner.insert account.validatorAddress positions := rfl
  refine ⟨?_, ?_, ?_, ?_⟩
  · intro address found hfind
    rw [haccounts, SortedMap.find?_insert] at hfind
    split_ifs at hfind with heq
    · cases hfind
      subst heq
      exact ⟨h.safe, hvalid, rfl⟩
    · exact h.accounts hfind
  · intro other found hfind
    rw [hpositions, SortedMap.find?_insert] at hfind
    rw [haccounts]
    split_ifs at hfind with heq
    · cases hfind
      subst heq
      refine ⟨h.safe, ?_, account, SortedMap.find?_insert_self _ _ _,
        addsUp_of_sameButStatus hstored.sum hsame⟩
      intro owner position' hposition
      obtain ⟨position, hold, hstatus⟩ := hsame.source hposition
      exact positionOk_of_sameButStatus (h.each hold) hstatus
    · obtain ⟨hsafe, heach, kept, hkept, hsum⟩ := h.validators (Ne.symm heq) hfind
      refine ⟨hsafe, heach, kept, ?_, hsum⟩
      rw [SortedMap.find?_insert_of_ne _ _ heq]
      exact hkept
  · intro address found hfind
    rw [haccounts, SortedMap.find?_insert] at hfind
    rw [hpositions, SortedMap.find?_insert]
    split_ifs at hfind ⊢ with heq
    · exact ⟨positions, rfl⟩
    · exact h.entries (Ne.symm heq) hfind
  · refine rotationsOk_insert h.rotations ?_ ?_ _
    · intro old new hold
      refine SortedMap.find?_insert_of_ne _ _ ?_
      rintro rfl
      rw [h.live] at hold
      cases hold
    · intro address found hfound
      rw [SortedMap.find?_insert]
      split_ifs with heq
      · exact ⟨account, rfl⟩
      · exact ⟨found, hfound⟩

/-- A validator with positions was not rotated away. -/
theorem Audited.live {positions : SortedMap String Position} (h : Audited hashBytes registry)
    (hfind : registry.positionsByValidatorAndOwner.find? validator = some positions) :
    registry.rotationSuccessors.find? validator = none := by
  cases hold : registry.rotationSuccessors.find? validator with
  | none => rfl
  | some new =>
    obtain ⟨-, -, -, hnone, -⟩ := h.rotations.chains hold
    obtain ⟨-, -, account, haccount, -⟩ := h.validators hfind
    rw [hnone] at haccount
    cases haccount

/-- Writing positions that are in order. -/
theorem Audited.withPositions {positions : SortedMap String Position}
    (h : Audited hashBytes registry) (hsafe : isSafeStakingScalar validator = true)
    (hlive : registry.rotationSuccessors.find? validator = none)
    (heach : ∀ {owner position}, positions.find? owner = some position →
      PositionOk hashBytes validator owner position) :
    AuditedBut hashBytes validator (registry.withPositions validator positions) := by
  refine ⟨h.accounts, ?_, ?_, ⟨h.rotations.expected, h.rotations.chains⟩, hsafe, hlive, ?_⟩
  · intro other found hne hfind
    rw [StakingRegistry.withPositions] at hfind
    rw [SortedMap.find?_insert_of_ne _ _ (Ne.symm hne)] at hfind
    exact h.validators hfind
  · intro address account hne hfind
    obtain ⟨found, hfound⟩ := h.entries hfind
    refine ⟨found, ?_⟩
    rw [StakingRegistry.withPositions]
    rw [SortedMap.find?_insert_of_ne _ _ (Ne.symm hne)]
    exact hfound
  · intro owner position hposition
    rw [positionsOf_withPositions] at hposition
    exact heach hposition

/-- The positions of a validator are in order, whether it has an entry or not. -/
theorem Audited.each (h : Audited hashBytes registry)
    (hfind : (registry.positionsOf validator).find? owner = some position) :
    PositionOk hashBytes validator owner position := by
  cases hpositions : registry.positionsByValidatorAndOwner.find? validator with
  | none =>
    rw [positionsOf, hpositions] at hfind
    cases hfind
  | some positions =>
    rw [positionsOf_of_find? hpositions] at hfind
    exact (h.validators hpositions).each hfind

/-- The account of a validator adds up its positions, also where neither is there. -/
theorem Audited.addsUp (h : Audited hashBytes registry) (validator : String) :
    AddsUp (registry.accountOrDefault validator) (registry.positionsOf validator) := by
  cases hpositions : registry.positionsByValidatorAndOwner.find? validator with
  | none =>
    have hnone : registry.accounts.find? validator = none := by
      cases haccount : registry.accounts.find? validator with
      | none => rfl
      | some account =>
        obtain ⟨positions, hfound⟩ := h.entries haccount
        rw [hpositions] at hfound
        cases hfound
    rw [accountOrDefault, hnone, positionsOf, hpositions]
    exact ⟨rfl, rfl⟩
  | some positions =>
    obtain ⟨-, -, account, haccount, hsum⟩ := h.validators hpositions
    rw [positionsOf_of_find? hpositions, accountOrDefault, haccount]
    exact hsum

/-- What an owner holds is part of the account. -/
theorem Audited.units_le (h : Audited hashBytes registry)
    (hfind : (registry.positionsOf validator).find? owner = some position) :
    availableUnits position + slashedUnits position
      ≤ (registry.accountOrDefault validator).bondedAmount.rawUnits := by
  rw [(h.addsUp validator).bonded]
  exact Nat.add_le_add (units_le_totalUnits hfind) (units_le_totalUnits hfind)

/-- One position replaced: the others stay in order. -/
theorem Audited.eachInsert (h : Audited hashBytes registry)
    (hposition : PositionOk hashBytes validator owner position') :
    ∀ {other found}, ((registry.positionsOf validator).insert owner position').find? other
        = some found → PositionOk hashBytes validator other found := by
  intro other found hfind
  rw [SortedMap.find?_insert] at hfind
  split_ifs at hfind with heq
  · cases hfind
    subst heq
    exact hposition
  · exact h.each hfind

end StakingRegistry

namespace StakingRegistry

variable {hashBytes : String → String} {registry registry' : StakingRegistry}
  {validator owner : String} {position position' : Position}

/-- **Write and rewrite.** Positions in order whose totals fit. -/
theorem Audited.rewrite {positions : SortedMap String Position} (jailed tombstoned : Bool)
    (h : Audited hashBytes registry) (hsafe : isSafeStakingScalar validator = true)
    (hlive : registry.rotationSuccessors.find? validator = none)
    (heach : ∀ {owner position}, positions.find? owner = some position →
      PositionOk hashBytes validator owner position)
    (hfits : totalUnits availableUnits positions.entries + totalUnits slashedUnits positions.entries
      ≤ maxRawUnits) :
    ∃ registry', rewriteAccountFromPositions hashBytes validator jailed tombstoned
        (registry.withPositions validator positions) = .ok () registry' ∧
      Audited hashBytes registry' := by
  obtain ⟨registry', hrun, hrewrote⟩ := @rewrite_ok hashBytes
    (registry.withPositions validator positions) validator jailed tombstoned hsafe (by
      rw [positionsOf_withPositions]
      exact hfits)
  exact ⟨registry', hrun, (h.withPositions hsafe hlive heach).rewrote hrewrote⟩

--
-- Unlocking
--

/-- The times that `requestUnlock` and `requestValidatorExit` write. -/
structure DeadlineOk (blockHeight : UInt64) (blockTimestamp deadline : Int) : Prop where
  height : blockHeight ≠ 0
  fits : blockHeight ≤ uint64Max - unbondingDelayBlocks
  time : withdrawableTime blockTimestamp = .ok deadline

theorem positionOk_unbond {active pendingUnbonding : Amount} {blockHeight : UInt64}
    {blockTimestamp deadline : Int} (h : PositionOk hashBytes validator owner position)
    (hdeadline : DeadlineOk blockHeight blockTimestamp deadline) :
    PositionOk hashBytes validator owner
      (Position.unbond position active pendingUnbonding blockHeight blockTimestamp deadline) := by
  have htime := hdeadline.time
  unfold withdrawableTime at htime
  obtain ⟨hguard, htime⟩ := Guards.ok_of_ite_error htime
  obtain rfl := Except.ok.inj htime
  simp only [Bool.or_eq_true, decide_eq_true_eq, not_or, not_le, not_lt] at hguard
  have hdelay : 0 ≤ unbondingDelaySeconds := by decide
  refine ⟨h.safe, h.id, h.lock, h.activation, by simp only [Position.unbond]; omega,
    by simp only [Position.unbond]; omega, fun _ => ?_⟩
  have hheight := hdeadline.height
  have hfits := UInt64.not_lt.mpr hdeadline.fits
  have hpositive : ¬ blockTimestamp ≤ 0 := by omega
  have hbound : ¬ int64MaxTime - unbondingDelaySeconds < blockTimestamp := by omega
  simp [deadlineMatches, Position.unbond, hheight, hfits, hpositive, hbound]

theorem entry_of_find? (hfind : (registry.positionsOf validator).find? owner = some position) :
    ∃ positions, registry.positionsByValidatorAndOwner.find? validator = some positions := by
  cases hentry : registry.positionsByValidatorAndOwner.find? validator with
  | none =>
    rw [positionsOf, hentry] at hfind
    cases hfind
  | some positions => exact ⟨positions, rfl⟩

theorem moveToUnbonding_audited {action : StakeAction} {reason transactionId : String}
    {amount : Amount} {blockHeight : UInt64} {blockTimestamp deadline : Int}
    (h : Audited hashBytes registry) (haction : action ≠ .validatorKeyRotate)
    (hfind : (registry.positionsOf validator).find? owner = some position)
    (hamount : amount.rawUnits ≤ position.activeAmount.rawUnits)
    (hdeadline : DeadlineOk blockHeight blockTimestamp deadline) :
    Audited hashBytes (left (moveToUnbonding hashBytes action reason owner validator position amount
      blockHeight blockTimestamp deadline transactionId registry)) := by
  obtain ⟨positions, hpositions⟩ := entry_of_find? hfind
  have hunits := h.units_le hfind
  have hmax := (registry.accountOrDefault validator).bondedAmount.inRange
  unfold availableUnits at hunits
  obtain ⟨active, hactive, hactiveUnits⟩ := Amount.minus_ok hamount
  obtain ⟨pendingUnbonding, hpending, hpendingUnits⟩ :=
    @Amount.plus_ok position.pendingUnbondingAmount amount (by omega)
  set moved := Position.unbond position active pendingUnbonding blockHeight blockTimestamp deadline
    with hmoved
  have hmovedUnits : availableUnits moved = availableUnits position := by
    simp only [availableUnits, hmoved, Position.unbond]
    omega
  obtain ⟨status, hstatus⟩ := @statusFor_ok moved (by
    rw [hmovedUnits]
    unfold availableUnits
    omega)
  have hok : PositionOk hashBytes validator owner { moved with status := status } :=
    positionOk_of_sameButStatus (positionOk_unbond (h.each hfind) hdeadline) ⟨status, rfl⟩
  have havailable := @totalUnits_replace availableUnits (registry.positionsOf validator) owner
    position { moved with status := status } hfind
  have hslashed := @totalUnits_replace slashedUnits (registry.positionsOf validator) owner
    position { moved with status := status } hfind
  have hsame : availableUnits { moved with status := status } = availableUnits position :=
    hmovedUnits
  have hsameSlashed : slashedUnits { moved with status := status } = slashedUnits position := rfl
  have hsum := (h.addsUp validator).bonded
  obtain ⟨rewritten, hrewrite, haudited⟩ := h.rewrite
    (registry.accountOrDefault validator).jailed (registry.accountOrDefault validator).tombstoned
    (h.validators hpositions).safe (h.live hpositions) (h.eachInsert hok) (by omega)
  unfold moveToUnbonding
  rw [run_get, run_call hactive, run_set, run_call hpending, run_set, run_call hstatus, run_set,
    run_bind hrewrite]
  exact appendRecord_audited haction haudited

theorem requestUnlock_audited {amount : Amount} {blockHeight : UInt64} {blockTimestamp : Int}
    {transactionId : String} (h : Audited hashBytes registry) :
    Audited hashBytes (left (requestUnlock hashBytes owner validator amount blockHeight
      blockTimestamp transactionId registry)) := by
  unfold requestUnlock
  refine leaves_refuseIf _ h (fun hinput => ?_)
  refine leaves_refuseIf _ h (fun hheight => ?_)
  refine leaves_call _ h (fun deadline hdeadline => ?_)
  refine leaves_get _ (leaves_refuseIf _ h (fun _ => ?_))
  refine leaves_refuseIf _ h (fun _ => ?_)
  cases hfind : (registry.positionsOf validator).find? owner with
  | none => exact h
  | some position =>
    refine leaves_refuseIf _ h (fun hamount => ?_)
    refine moveToUnbonding_audited h (by simp) hfind ?_ ⟨?_, ?_, hdeadline⟩
    · simpa using hamount
    · simp only [validOperationInput, Bool.not_eq_false', Bool.and_eq_true] at hinput
      simpa using hinput.2
    · simpa using hheight

theorem requestValidatorExit_audited {blockHeight : UInt64} {blockTimestamp : Int}
    {transactionId : String} (h : Audited hashBytes registry) :
    Audited hashBytes (left (requestValidatorExit hashBytes owner validator blockHeight
      blockTimestamp transactionId registry)) := by
  unfold requestValidatorExit
  refine leaves_refuseIf _ h (fun hinput => ?_)
  refine leaves_refuseIf _ h (fun hheight => ?_)
  refine leaves_call _ h (fun deadline hdeadline => ?_)
  refine leaves_get _ ?_
  cases hfind : (registry.positionsOf validator).find? owner with
  | none => exact h
  | some position =>
    by_cases hzero : position.activeAmount.isZero = true
    · simp only [hzero, if_true]
      exact h
    · simp only [hzero]
      refine moveToUnbonding_audited h (by simp) hfind (Nat.le_refl _) ⟨?_, ?_, hdeadline⟩
      · simp only [Bool.or_eq_false_iff] at hinput
        simpa using hinput.2
      · simpa using hheight

end StakingRegistry

namespace StakingRegistry

variable {hashBytes : String → String} {registry registry' : StakingRegistry}
  {validator owner : String} {position position' : Position}

--
-- Deposits
--

/-- A validator address that was given up in a key rotation. -/
def rotatedAway (registry : StakingRegistry) (validator : String) : Bool :=
  registry.rotationSuccessors.contains validator

/-- The stake of a validator with a further amount does not fit into an amount. -/
def bondOverflows (registry : StakingRegistry) (validator : String) (amount : Amount) : Bool :=
  maxRawUnits < (registry.accountOrDefault validator).bondedAmount.rawUnits + amount.rawUnits

/-- The deposit passes its first checks. -/
def depositStarts (registry : StakingRegistry) (owner validator : String) (amount : Amount)
    (blockHeight : UInt64) : Bool :=
  validOperationInput owner validator amount blockHeight && (activationHeight blockHeight).toBool
    && !(registry.accountOrDefault validator).tombstoned

/-- The deposit comes to its write: the position, if there is one, takes it. -/
def depositWrites (registry : StakingRegistry) (owner validator : String) (amount : Amount)
    (requireExistingPosition : Bool) : Bool :=
  match (registry.positionsOf validator).find? owner with
  | none => !requireExistingPosition
  | some position => !refusesDeposit position
      && availableUnits position + amount.rawUnits ≤ maxRawUnits

/-- **Where a deposit goes wrong.** A top-up of a validator without an entry leaves an empty one;
a deposit that is written makes an account again for an address that was rotated away, or throws
after the write because the total overflows. -/
def depositBreaks (registry : StakingRegistry) (owner validator : String) (amount : Amount)
    (blockHeight : UInt64) (requireExistingPosition : Bool) : Bool :=
  registry.depositStarts owner validator amount blockHeight
    && (requireExistingPosition && !registry.positionsByValidatorAndOwner.contains validator
      || registry.depositWrites owner validator amount requireExistingPosition
        && (registry.rotatedAway validator || registry.bondOverflows validator amount))

theorem activationHeight_ne_zero {blockHeight height : UInt64}
    (h : activationHeight blockHeight = .ok height) : height ≠ 0 := by
  unfold activationHeight at h
  obtain ⟨epoch, -, h⟩ := Guards.ok_of_bind h
  obtain ⟨hbound, h⟩ := Guards.ok_of_ite_error h
  obtain rfl := Except.ok.inj h
  rw [UInt64.not_lt, UInt64.le_iff_toNat_le] at hbound
  have hquotient : ((uint64Max - 1) / 43200 : UInt64).toNat = 427007964669202 := by decide
  rw [hquotient] at hbound
  intro hzero
  have htoNat := congrArg UInt64.toNat hzero
  rw [UInt64.toNat_add, UInt64.toNat_mul] at htoNat
  simp only [UInt64.toNat_ofNat] at htoNat
  omega

/-- What a deposit makes of a position. -/
structure Filled (position : Position) (amount : Amount) (height : UInt64)
    (position' : Position) : Prop where
  pending : position'.pendingActivationAmount.rawUnits
    = position.pendingActivationAmount.rawUnits + amount.rawUnits
  activation : position'.activationHeight = height
  rest : ∃ id lock status, position' = { position with
    positionId := id
    lockHeight := lock
    pendingActivationAmount := position'.pendingActivationAmount
    activationHeight := height
    status := status }

theorem deposited_of_ok {found : Option Position} {amount : Amount} {blockHeight height : UInt64}
    (h : deposited hashBytes found owner validator blockHeight height amount = .ok position') :
    Filled (found.getD Position.empty) amount height position' ∧
      ((found.getD Position.empty).positionId.isEmpty = true ∧
          position'.positionId = stakePositionId hashBytes owner validator ∧
          position'.lockHeight = blockHeight ∨
        (found.getD Position.empty).positionId.isEmpty = false ∧
          position'.positionId = (found.getD Position.empty).positionId ∧
          position'.lockHeight = (found.getD Position.empty).lockHeight) := by
  unfold deposited at h
  obtain ⟨pending, hpending, h⟩ := Guards.ok_of_bind h
  obtain ⟨status, -, h⟩ := Guards.ok_of_bind h
  obtain rfl := Except.ok.inj h
  have hunits := Amount.plus_eq_ok hpending
  by_cases hempty : (found.getD Position.empty).positionId.isEmpty = true
  · simp only [hempty, if_true] at hunits ⊢
    exact ⟨⟨hunits, rfl, _, _, _, rfl⟩, Or.inl ⟨trivial, trivial, trivial⟩⟩
  · rw [Bool.not_eq_true] at hempty
    simp only [hempty] at hunits ⊢
    exact ⟨⟨hunits, rfl, _, _, _, rfl⟩, Or.inr ⟨trivial, rfl, rfl⟩⟩

end StakingRegistry

namespace StakingRegistry

variable {hashBytes : String → String} {registry registry' : StakingRegistry}
  {validator owner : String} {position position' : Position}

theorem available_le_of_statusFor {status : StakePositionStatus}
    (h : statusFor position = .ok status) (hlive : position.status ≠ .tombstoned) :
    availableUnits position ≤ maxRawUnits := by
  unfold statusFor at h
  rw [if_neg (by simpa using hlive)] at h
  obtain ⟨total, htotal, -⟩ := Guards.ok_of_bind h
  rw [← positionAvailable_eq_ok htotal]
  exact total.inRange

theorem Filled.available {amount : Amount} {height : UInt64}
    (h : Filled position amount height position') :
    availableUnits position' = availableUnits position + amount.rawUnits := by
  obtain ⟨id, lock, status, hrest⟩ := h.rest
  have hpending := h.pending
  unfold availableUnits
  rw [hpending, hrest]
  simp only
  omega

theorem Filled.slashed {amount : Amount} {height : UInt64}
    (h : Filled position amount height position') :
    slashedUnits position' = slashedUnits position := by
  obtain ⟨id, lock, status, hrest⟩ := h.rest
  rw [hrest]
  rfl

/-- A deposit that its position takes fits into it. -/
theorem deposited_fits {found : Option Position} {amount : Amount} {blockHeight height : UInt64}
    (h : deposited hashBytes found owner validator blockHeight height amount = .ok position')
    (hlive : (found.getD Position.empty).status ≠ .tombstoned) :
    availableUnits (found.getD Position.empty) + amount.rawUnits ≤ maxRawUnits := by
  have hfilled := (deposited_of_ok h).1
  unfold deposited at h
  obtain ⟨pending, -, h⟩ := Guards.ok_of_bind h
  obtain ⟨status, hstatus, h⟩ := Guards.ok_of_bind h
  have hle := available_le_of_statusFor hstatus (by split <;> exact hlive)
  obtain rfl := Except.ok.inj h
  rw [← hfilled.available]
  exact hle

theorem deposited_positionOk {found : Option Position} {amount : Amount}
    {blockHeight height : UInt64} (howner : isSafeStakingScalar owner = true)
    (hheight : blockHeight ≠ 0) (hactivation : height ≠ 0)
    (hfound : ∀ position, found = some position → PositionOk hashBytes validator owner position)
    (h : deposited hashBytes found owner validator blockHeight height amount = .ok position') :
    PositionOk hashBytes validator owner position' := by
  obtain ⟨hfilled, hnamed⟩ := deposited_of_ok h
  obtain ⟨id, lock, status, hrest⟩ := hfilled.rest
  cases found with
  | none =>
    rcases hnamed with ⟨-, hid, hlock⟩ | ⟨hempty, -⟩
    · refine ⟨howner, hid, hlock ▸ hheight, hfilled.activation ▸ hactivation, ?_, ?_, ?_⟩
      · rw [hrest]
        exact Int.le_refl 0
      · rw [hrest]
        exact Int.le_refl 0
      · rw [hrest]
        intro hpositive
        exact absurd hpositive (Nat.lt_irrefl 0)
    · cases hempty
  | some position =>
    have hposition := hfound position rfl
    have hlockId : position'.positionId = stakePositionId hashBytes owner validator ∧
        position'.lockHeight ≠ 0 := by
      rcases hnamed with ⟨-, hid, hlock⟩ | ⟨-, hid, hlock⟩
      · exact ⟨hid, hlock ▸ hheight⟩
      · exact ⟨hid.trans hposition.id, hlock ▸ hposition.lock⟩
    refine ⟨howner, hlockId.1, hlockId.2, hfilled.activation ▸ hactivation, ?_, ?_, ?_⟩
    · rw [hrest]
      exact hposition.start
    · rw [hrest]
      exact hposition.ends
    · rw [hrest]
      exact hposition.deadline

/-- A first deposit is never refused. -/
theorem deposited_none_ok {amount : Amount} {blockHeight height : UInt64} :
    ∃ position', deposited hashBytes none owner validator blockHeight height amount
      = .ok position' := by
  have hamount := amount.inRange
  obtain ⟨pending, hpending, hunits⟩ := @Amount.plus_ok Amount.zero amount (by
    simp only [Amount.zero]
    omega)
  simp only [Amount.zero, Nat.zero_add] at hunits
  let filled : Position := { Position.empty with
    positionId := stakePositionId hashBytes owner validator
    lockHeight := blockHeight
    pendingActivationAmount := pending
    activationHeight := height }
  obtain ⟨status, hstatus⟩ := @statusFor_ok filled (by
    simp only [availableUnits, filled, Position.empty, Amount.zero]
    omega)
  refine ⟨{ filled with status := status }, ?_⟩
  unfold deposited
  show (Amount.zero.plus amount >>= fun pending => statusFor { Position.empty with
      positionId := stakePositionId hashBytes owner validator
      lockHeight := blockHeight
      pendingActivationAmount := pending
      activationHeight := height } >>= _) = _
  rw [hpending]
  show (statusFor filled >>= fun status => Except.ok { filled with status := status }) = _
  rw [hstatus]
  rfl

/-- The part of a deposit from its write on. -/
theorem writeDeposit_audited {found : Option Position} {amount : Amount}
    {blockHeight height : UInt64} {jailed tombstoned : Bool} {action : StakeAction}
    {reason transactionId : String} (h : Audited hashBytes registry)
    (haction : action ≠ .validatorKeyRotate)
    (hfound : (registry.positionsOf validator).find? owner = found)
    (hsafe : isSafeStakingScalar validator = true)
    (hlive : registry.rotationSuccessors.find? validator = none)
    (hfits : (registry.accountOrDefault validator).bondedAmount.rawUnits + amount.rawUnits
      ≤ maxRawUnits)
    (hfilled : Filled (found.getD Position.empty) amount height position')
    (hok : PositionOk hashBytes validator owner position') :
    Audited hashBytes (left ((rewriteAccountFromPositions hashBytes validator jailed tombstoned
      >>= fun _ => positionAt validator owner >>= fun written =>
        appendLifecycleRecord hashBytes action transactionId owner validator amount blockHeight
          written reason) (registry.withPositions validator
            ((registry.positionsOf validator).insert owner position')))) := by
  have hsum := (h.addsUp validator).bonded
  have hunits : ∀ units : Position → Nat, units Position.empty = 0 →
      totalUnits units ((registry.positionsOf validator).insert owner position').entries
          + units (found.getD Position.empty)
        = totalUnits units (registry.positionsOf validator).entries + units position' := by
    intro units hzero
    cases found with
    | none =>
      rw [Option.getD_none, hzero, totalUnits_new position' hfound]
      omega
    | some position => exact totalUnits_replace position' hfound
  have havailable := hunits availableUnits rfl
  have hslashed := hunits slashedUnits rfl
  rw [hfilled.available] at havailable
  rw [hfilled.slashed] at hslashed
  obtain ⟨rewritten, hrewrite, haudited⟩ := h.rewrite jailed tombstoned hsafe hlive
    (h.eachInsert hok) (by omega)
  rw [run_bind hrewrite]
  exact appendRecord_audited haction haudited

theorem deposit_audited {amount : Amount} {blockHeight : UInt64}
    {requireExistingPosition : Bool} {transactionId : String} (h : Audited hashBytes registry)
    (hbreaks : registry.depositBreaks owner validator amount blockHeight requireExistingPosition
      = false) :
    Audited hashBytes (left (deposit hashBytes owner validator amount blockHeight
      requireExistingPosition transactionId registry)) := by
  unfold deposit
  refine leaves_refuseIf _ h (fun hinput => ?_)
  refine leaves_call _ h (fun height hheight => ?_)
  refine leaves_get _ (leaves_refuseIf _ h (fun htombstoned => ?_))
  have hvalid : validOperationInput owner validator amount blockHeight = true := by
    simpa using hinput
  have hstarts : registry.depositStarts owner validator amount blockHeight = true := by
    unfold depositStarts
    rw [hvalid, hheight, htombstoned]
    rfl
  simp only [depositBreaks, hstarts, Bool.true_and, Bool.or_eq_false_iff] at hbreaks
  obtain ⟨hentry, hwrites⟩ := hbreaks
  simp only [validOperationInput, Bool.and_eq_true, bne_iff_ne] at hvalid
  obtain ⟨⟨⟨howner, hsafe⟩, -⟩, hpositive⟩ := hvalid
  -- the entry that `operator[]` makes is left only where it was there before
  have hleft : (requireExistingPosition && ((registry.positionsOf validator).find? owner).isNone)
      = true ∨ ((registry.positionsOf validator).find? owner).any refusesDeposit = true →
      registry.withPositions validator (registry.positionsOf validator) = registry := by
    intro hrefused
    cases hfind : registry.positionsByValidatorAndOwner.find? validator with
    | some positions =>
      rw [positionsOf_of_find? hfind]
      exact withPositions_of_find? hfind
    | none =>
      have hnone : registry.positionsOf validator = SortedMap.empty := by
        rw [positionsOf, hfind]
        rfl
      rw [hnone] at hrefused
      rw [SortedMap.contains, hfind] at hentry
      simp only [SortedMap.find?_empty, Option.isNone_none, Bool.and_true, Option.any_none,
        Bool.false_eq_true, or_false] at hrefused
      rw [hrefused] at hentry
      cases hentry
  refine leaves_set _ ?_
  by_cases hmissing : (requireExistingPosition
      && ((registry.positionsOf validator).find? owner).isNone) = true
  · simp only [hmissing]
    show Audited hashBytes (registry.withPositions validator (registry.positionsOf validator))
    rw [hleft (Or.inl hmissing)]
    exact h
  rw [Bool.not_eq_true] at hmissing
  rw [run_refuseIf hmissing]
  by_cases hrefuses : ((registry.positionsOf validator).find? owner).any refusesDeposit = true
  · simp only [hrefuses]
    show Audited hashBytes (registry.withPositions validator (registry.positionsOf validator))
    rw [hleft (Or.inr hrefuses)]
    exact h
  rw [Bool.not_eq_true] at hrefuses
  rw [run_refuseIf hrefuses]
  cases hdeposited : deposited hashBytes ((registry.positionsOf validator).find? owner) owner
      validator blockHeight height amount with
  | error reason =>
    cases hfind : registry.positionsByValidatorAndOwner.find? validator with
    | some positions =>
      show Audited hashBytes (registry.withPositions validator (registry.positionsOf validator))
      rw [positionsOf_of_find? hfind, withPositions_of_find? hfind]
      exact h
    | none =>
      rw [positionsOf, hfind] at hdeposited
      obtain ⟨position', hok⟩ := @deposited_none_ok hashBytes validator owner amount blockHeight
        height
      exact absurd (hdeposited.symm.trans hok) (by simp)
  | ok next =>
    have hrotated : registry.rotatedAway validator = false ∧
        registry.bondOverflows validator amount = false := by
      have hwritten : registry.depositWrites owner validator amount requireExistingPosition
          = true := by
        unfold depositWrites
        cases hfound : (registry.positionsOf validator).find? owner with
        | none =>
          rw [hfound] at hmissing
          simpa using hmissing
        | some position =>
          rw [hfound] at hrefuses hdeposited
          have hrefused : refusesDeposit position = false := by simpa using hrefuses
          have hstatus : position.status ≠ .tombstoned := by
            simp only [refusesDeposit, Bool.or_eq_false_iff, beq_eq_false_iff_ne] at hrefused
            exact hrefused.1
          have hfits : availableUnits position + amount.rawUnits ≤ maxRawUnits :=
            deposited_fits hdeposited hstatus
          simp [hrefused, hfits]
      rw [hwritten, Bool.true_and, Bool.or_eq_false_iff] at hwrites
      exact hwrites
    have hlive : registry.rotationSuccessors.find? validator = none := by
      have hnone := hrotated.1
      unfold rotatedAway SortedMap.contains at hnone
      simpa using hnone
    have hfits : (registry.accountOrDefault validator).bondedAmount.rawUnits + amount.rawUnits
        ≤ maxRawUnits := by
      have hbound := hrotated.2
      unfold bondOverflows at hbound
      simpa using hbound
    have hok := deposited_positionOk howner hpositive (activationHeight_ne_zero hheight)
      (fun position hfound => h.each hfound) hdeposited
    rw [run_call rfl, run_modify, withPositions_withPositions]
    exact writeDeposit_audited h (by split <;> simp) rfl hsafe hlive hfits
      (deposited_of_ok hdeposited).1 hok

end StakingRegistry

namespace StakingRegistry

variable {hashBytes : String → String} {registry registry' : StakingRegistry}
  {validator owner : String} {position position' : Position}

--
-- Withdrawals and unjailing
--

/-- The cooldown of a position has not elapsed. -/
def coolsDown (position : Position) (blockHeight : UInt64) (blockTimestamp : Int) : Bool :=
  position.withdrawableHeight == 0 || position.withdrawableTime == 0
    || blockHeight < position.withdrawableHeight || blockTimestamp < position.withdrawableTime

/-- **Where a withdrawal goes wrong.** All that an owner has withdrawn from a position so far does
not fit into an amount: it throws after the unbonding stake was reduced. -/
def withdrawBreaks (registry : StakingRegistry) (owner validator : String) (amount : Amount)
    (blockHeight : UInt64) (blockTimestamp : Int) : Bool :=
  validOperationInput owner validator amount blockHeight
    && !((registry.accountOrDefault validator).jailed
      || (registry.accountOrDefault validator).tombstoned)
    && ((registry.positionsOf validator).find? owner).any fun position =>
      amount.rawUnits ≤ position.pendingUnbondingAmount.rawUnits
        && !coolsDown position blockHeight blockTimestamp
        && maxRawUnits < position.withdrawnAmount.rawUnits + amount.rawUnits

theorem withdraw_audited {amount : Amount} {blockHeight : UInt64} {blockTimestamp : Int}
    {transactionId : String} (h : Audited hashBytes registry)
    (hbreaks : registry.withdrawBreaks owner validator amount blockHeight blockTimestamp = false) :
    Audited hashBytes (left (withdraw hashBytes owner validator amount blockHeight blockTimestamp
      transactionId registry)) := by
  unfold withdraw
  refine leaves_refuseIf _ h (fun hinput => ?_)
  refine leaves_get _ (leaves_refuseIf _ h (fun hfree => ?_))
  refine leaves_refuseIf _ h (fun _ => ?_)
  cases hfind : (registry.positionsOf validator).find? owner with
  | none => exact h
  | some position =>
    refine leaves_refuseIf _ h (fun hamount => ?_)
    refine leaves_refuseIf _ h (fun hcool => ?_)
    have hamount : amount.rawUnits ≤ position.pendingUnbondingAmount.rawUnits := by
      simpa using hamount
    have hinput : validOperationInput owner validator amount blockHeight = true := by
      simpa using hinput
    have hwithdrawn : position.withdrawnAmount.rawUnits + amount.rawUnits ≤ maxRawUnits := by
      unfold withdrawBreaks at hbreaks
      have hcooled : coolsDown position blockHeight blockTimestamp = false := hcool
      rw [hinput, hfree, hfind] at hbreaks
      simpa [hamount, hcooled] using hbreaks
    obtain ⟨positions, hpositions⟩ := entry_of_find? hfind
    have hunits := h.units_le hfind
    have hmax := (registry.accountOrDefault validator).bondedAmount.inRange
    unfold availableUnits at hunits
    obtain ⟨pendingUnbonding, hpending, hpendingUnits⟩ := Amount.minus_ok hamount
    obtain ⟨withdrawn, hplus, -⟩ := Amount.plus_ok hwithdrawn
    set paid := { position with
      pendingUnbondingAmount := pendingUnbonding
      withdrawnAmount := withdrawn } with hpaid
    have hpaidUnits : availableUnits paid + amount.rawUnits = availableUnits position := by
      simp only [availableUnits, hpaid]
      omega
    obtain ⟨status, hstatus⟩ := @statusFor_ok paid (by
      simp only [availableUnits, hpaid]
      omega)
    have hold := h.each hfind
    have hok : PositionOk hashBytes validator owner { paid with status := status } := by
      refine ⟨hold.safe, hold.id, hold.lock, hold.activation, hold.start, hold.ends, ?_⟩
      intro hpositive
      have hbefore : 0 < position.pendingUnbondingAmount.rawUnits := by
        simp only [hpaid] at hpositive
        omega
      exact hold.deadline hbefore
    have havailable := @totalUnits_replace availableUnits (registry.positionsOf validator) owner
      position { paid with status := status } hfind
    have hslashed := @totalUnits_replace slashedUnits (registry.positionsOf validator) owner
      position { paid with status := status } hfind
    have hless : availableUnits { paid with status := status } = availableUnits paid := rfl
    have hsameSlashed : slashedUnits { paid with status := status } = slashedUnits position := rfl
    have hsum := (h.addsUp validator).bonded
    obtain ⟨rewritten, hrewrite, haudited⟩ := h.rewrite
      (registry.accountOrDefault validator).jailed (registry.accountOrDefault validator).tombstoned
      (h.validators hpositions).safe (h.live hpositions) (h.eachInsert hok) (by omega)
    rw [run_call hpending, run_set, run_call hplus, run_set, run_call hstatus, run_set,
      run_bind hrewrite]
    exact appendRecord_audited (by simp) haudited

/-- The invariant, seen without the account of one validator. -/
theorem Audited.but (h : Audited hashBytes registry)
    (hsafe : isSafeStakingScalar validator = true)
    (hlive : registry.rotationSuccessors.find? validator = none) :
    AuditedBut hashBytes validator registry :=
  ⟨h.accounts, fun _ => h.validators, fun _ => h.entries, h.rotations, hsafe, hlive, h.each⟩

theorem unjail_audited (h : Audited hashBytes registry) :
    Audited hashBytes (left (unjail hashBytes validator registry)) := by
  unfold unjail
  refine leaves_get _ (leaves_refuseIf _ h (fun hjailed => ?_))
  simp only [Bool.or_eq_false_iff, Bool.not_eq_false'] at hjailed
  obtain ⟨⟨hvalid, hjailed⟩, htombstoned⟩ := hjailed
  -- the default account is not jailed, so there is one
  obtain ⟨account, haccount⟩ : ∃ account, registry.accounts.find? validator = some account := by
    cases hfind : registry.accounts.find? validator with
    | none =>
      rw [accountOrDefault, hfind] at hjailed
      cases hjailed
    | some account => exact ⟨account, rfl⟩
  have hdefault : registry.accountOrDefault validator = account := by
    rw [accountOrDefault, haccount]
    rfl
  obtain ⟨positions, hpositions⟩ := h.entries haccount
  obtain ⟨hsafe, -, haddress⟩ := h.accounts haccount
  have hsum := h.addsUp validator
  rw [hdefault] at hvalid htombstoned hsum ⊢
  have hunjail : account.unjail = { account with jailed := false } := by
    unfold StakeAccount.unjail
    rw [htombstoned]
    rfl
  subst haddress
  have hstored : Stored account.validatorAddress false false
      (registry.positionsOf account.validatorAddress) account.unjail := by
    rw [hunjail]
    exact ⟨rfl, rfl, htombstoned, hsum.slashed, hsum.bonded⟩
  have hrun := @setAccount_kept hashBytes registry account.unjail (by rw [hunjail]; exact hsafe)
    (isValid_of_stored hsafe hstored) (by rw [hunjail]; exact ⟨hsum.slashed, hsum.bonded⟩)
  rw [hstored.address] at hrun
  rw [hrun]
  exact (h.but hsafe (h.live hpositions)).rewrote ⟨_, _, List.forall₂_same.mpr
    (fun entry _ => ⟨rfl, sameButStatus_refl _ _⟩), hstored, rfl⟩

end StakingRegistry

namespace StakingRegistry

variable {hashBytes : String → String} {registry registry' : StakingRegistry}
  {validator owner : String} {position position' : Position}

--
-- Amounts moved inside positions
--

/-- A position whose amounts moved between its parts, and perhaps to the slashed part. -/
structure Shifted (position position' : Position) : Prop where
  rest : ∃ active pendingActivation pendingUnbonding slashed status, position' = { position with
    activeAmount := active
    pendingActivationAmount := pendingActivation
    pendingUnbondingAmount := pendingUnbonding
    slashedAmount := slashed
    status := status }
  total : availableUnits position' + slashedUnits position'
    = availableUnits position + slashedUnits position
  slashed : slashedUnits position ≤ slashedUnits position'
  unbonding : position'.pendingUnbondingAmount.rawUnits ≤ position.pendingUnbondingAmount.rawUnits

theorem shifted_refl (position : Position) : Shifted position position :=
  ⟨⟨_, _, _, _, _, rfl⟩, rfl, Nat.le_refl _, Nat.le_refl _⟩

theorem Shifted.trans {first second third : Position} (h : Shifted first second)
    (h' : Shifted second third) : Shifted first third := by
  obtain ⟨⟨_, _, _, _, _, rfl⟩, htotal, hslashed, hunbonding⟩ := h
  obtain ⟨⟨_, _, _, _, _, hrest⟩, htotal', hslashed', hunbonding'⟩ := h'
  exact ⟨⟨_, _, _, _, _, hrest⟩, htotal'.trans htotal, Nat.le_trans hslashed hslashed',
    Nat.le_trans hunbonding' hunbonding⟩

theorem Shifted.withStatus (h : Shifted position position') (status : StakePositionStatus) :
    Shifted position { position' with status := status } := by
  obtain ⟨⟨_, _, _, _, _, rfl⟩, htotal, hslashed, hunbonding⟩ := h
  exact ⟨⟨_, _, _, _, _, rfl⟩, htotal, hslashed, hunbonding⟩

theorem Shifted.positionOk (h : Shifted position position')
    (hok : PositionOk hashBytes validator owner position) :
    PositionOk hashBytes validator owner position' := by
  obtain ⟨⟨_, _, _, _, _, rfl⟩, -, -, hunbonding⟩ := h
  exact ⟨hok.safe, hok.id, hok.lock, hok.activation, hok.start, hok.ends,
    fun hpositive => hok.deadline (Nat.lt_of_lt_of_le hpositive hunbonding)⟩

/-- Shifting amounts inside positions keeps their sum. -/
theorem totalUnits_of_shifted {positions positions' : SortedMap String Position}
    (h : SortedMap.Related (fun _ => Shifted) positions positions') :
    totalUnits availableUnits positions'.entries + totalUnits slashedUnits positions'.entries
      = totalUnits availableUnits positions.entries + totalUnits slashedUnits positions.entries := by
  have hsum : totalUnits (fun position => availableUnits position + slashedUnits position)
      positions'.entries = totalUnits (fun position => availableUnits position
        + slashedUnits position) positions.entries :=
    h.sum_eq (fun _ _ _ hshift => hshift.total)
  simp only [totalUnits, List.sum_map_add] at hsum
  exact hsum

/-- Shifting positions keeps the invariant up to the account. -/
theorem Audited.shiftedBut {positions positions' : SortedMap String Position}
    {records : List StakeLifecycleRecord} (h : Audited hashBytes registry)
    (hfind : registry.positionsByValidatorAndOwner.find? validator = some positions)
    (hshifted : SortedMap.Related (fun _ => Shifted) positions positions')
    (hrecords : Appended registry.lifecycleRecords records) :
    AuditedBut hashBytes validator { registry.withPositions validator positions' with
      lifecycleRecords := records } := by
  have hok := h.validators hfind
  have heach : ∀ {owner position}, positions'.find? owner = some position →
      PositionOk hashBytes validator owner position := by
    intro owner position hposition
    obtain ⟨old, hold, hshift⟩ := hshifted.source hposition
    exact hshift.positionOk (hok.each hold)
  have hbut := h.withPositions hok.safe (h.live hfind) heach
  exact ⟨hbut.accounts, hbut.validators, hbut.entries,
    rotationsOk_of_appended hbut.rotations hrecords, hbut.safe, hbut.live, hbut.each⟩

/-- Shifting positions without slashing keeps the invariant. -/
theorem Audited.shifted {positions positions' : SortedMap String Position}
    {records : List StakeLifecycleRecord} (h : Audited hashBytes registry)
    (hfind : registry.positionsByValidatorAndOwner.find? validator = some positions)
    (hshifted : SortedMap.Related (fun _ => Shifted) positions positions')
    (hslashed : totalUnits slashedUnits positions'.entries
      = totalUnits slashedUnits positions.entries)
    (hrecords : Appended registry.lifecycleRecords records) :
    Audited hashBytes { registry.withPositions validator positions' with
      lifecycleRecords := records } := by
  have hbut := h.shiftedBut hfind hshifted hrecords
  obtain ⟨hsafe, -, account, haccount, hsum⟩ := h.validators hfind
  refine ⟨hbut.accounts, ?_, ?_, hbut.rotations⟩
  · intro other found hfound
    by_cases heq : other = validator
    · subst heq
      have hfoundEq : found = positions' := by
        simp only [StakingRegistry.withPositions, SortedMap.find?_insert_self] at hfound
        exact (Option.some.inj hfound).symm
      subst hfoundEq
      have htotal := totalUnits_of_shifted hshifted
      refine ⟨hsafe, ?_, account, haccount, ?_, ?_⟩
      · intro owner position hposition
        refine hbut.each ?_
        rw [positionsOf_of_find? hfound]
        exact hposition
      · rw [hslashed]
        exact hsum.slashed
      · rw [hsum.bonded, htotal]
    · exact hbut.validators heq hfound
  · intro address found hfound
    by_cases heq : address = validator
    · subst heq
      exact ⟨positions', SortedMap.find?_insert_self _ _ _⟩
    · exact hbut.entries heq hfound

--
-- Activation
--

theorem activatePosition_left {boundaryHeight : UInt64} {changed : Bool}
    {records : List StakeLifecycleRecord} :
    Shifted position (left (activatePosition hashBytes validator boundaryHeight owner
        (position, changed, records))).1 ∧
      slashedUnits (left (activatePosition hashBytes validator boundaryHeight owner
        (position, changed, records))).1 = slashedUnits position ∧
      Appended records (left (activatePosition hashBytes validator boundaryHeight owner
        (position, changed, records))).2.2 := by
  let P := fun s : Position × Bool × List StakeLifecycleRecord =>
    Shifted position s.1 ∧ slashedUnits s.1 = slashedUnits position ∧ Appended records s.2.2
  show P (left (activatePosition hashBytes validator boundaryHeight owner
    (position, changed, records)))
  have hstart : P (position, changed, records) :=
    ⟨shifted_refl position, rfl, appended_refl records⟩
  unfold activatePosition
  refine leaves_get P ?_
  by_cases hactivates : (position.pendingActivationAmount.isPositive
      && position.activationHeight ≤ boundaryHeight) = true
  · simp only [hactivates, if_true]
    refine leaves_call P hstart (fun active hactive => ?_)
    have hunits := Amount.plus_eq_ok hactive
    have hmoved : Shifted position { position with
        activeAmount := active
        pendingActivationAmount := Amount.zero } := by
      refine ⟨⟨_, _, _, _, _, rfl⟩, ?_, Nat.le_refl _, Nat.le_refl _⟩
      simp only [availableUnits, slashedUnits, Amount.zero]
      omega
    refine leaves_set P (leaves_call P ⟨hmoved, rfl, appended_refl records⟩ (fun status _ => ?_))
    have hrestated := hmoved.withStatus status
    refine leaves_set P (leaves_call P ⟨hrestated, rfl, appended_refl records⟩
      (fun record hrecord => ?_))
    obtain ⟨hvalid, haction, -⟩ := lifecycleRecord_eq_ok hrecord
    refine ⟨hrestated, rfl, [record], rfl, ?_⟩
    intro other hother
    rw [List.mem_singleton.mp hother, haction]
    exact ⟨hvalid, by simp⟩
  · simp only [hactivates]
    exact hstart

end StakingRegistry

namespace StakingRegistry

variable {hashBytes : String → String} {registry registry' : StakingRegistry}
  {validator owner : String} {position position' : Position}

/-- The invariant, with entries for the validators that a loop has still to visit. -/
def AuditedWith (hashBytes : String → String) (validators : List String)
    (registry : StakingRegistry) : Prop :=
  Audited hashBytes registry ∧
    ∀ validator ∈ validators, ∃ positions,
      registry.positionsByValidatorAndOwner.find? validator = some positions

theorem entry_withPositions {positions : SortedMap String Position} {other : String}
    (h : ∃ found, registry.positionsByValidatorAndOwner.find? other = some found) :
    ∃ found, (registry.withPositions validator positions).positionsByValidatorAndOwner.find? other
      = some found := by
  rw [StakingRegistry.withPositions]
  simp only [SortedMap.find?_insert]
  split_ifs
  · exact ⟨positions, rfl⟩
  · exact h

/-- The inner loop keeps the invariant, whether it ends or throws. -/
theorem visited_activate {positions : SortedMap String Position} {boundaryHeight : UInt64}
    {changed : Bool} (h : Audited hashBytes registry)
    (hfind : registry.positionsByValidatorAndOwner.find? validator = some positions) :
    Audited hashBytes (registry.visited validator (positions.visit
      (activatePosition hashBytes validator boundaryHeight)
      (changed, registry.lifecycleRecords))) := by
  have hrelated : SortedMap.Related (fun _ position position' => Shifted position position' ∧
      slashedUnits position' = slashedUnits position) positions
      (left (positions.visit (activatePosition hashBytes validator boundaryHeight)
        (changed, registry.lifecycleRecords))).1 :=
    SortedMap.visit_related (fun _ position => ⟨shifted_refl position, rfl⟩)
      (fun _ _ => ⟨activatePosition_left.1, activatePosition_left.2.1⟩) _
  have hrecords : Appended registry.lifecycleRecords
      (left (positions.visit (activatePosition hashBytes validator boundaryHeight)
        (changed, registry.lifecycleRecords))).2.2 := by
    rw [SortedMap.variables_visit]
    exact @SortedMap.visitEntries_variables _ _ _ _ _
      (fun before after : Bool × List StakeLifecycleRecord => Appended before.2 after.2)
      (fun before => appended_refl before.2) (fun hfirst hsecond => hfirst.trans hsecond)
      (fun _ _ _ => activatePosition_left.2.2) _ _
  refine h.shifted hfind ?_ ?_ hrecords
  · exact hrelated.imp (fun _ _ hentry => ⟨hentry.1, hentry.2.1⟩)
  · exact hrelated.sum_eq (fun _ _ _ hshift => hshift.2)

theorem activateValidators_audited {boundaryHeight : UInt64} {validators : List String}
    {changed : Bool} (h : AuditedWith hashBytes validators registry) :
    Audited hashBytes (left (activateValidators hashBytes boundaryHeight validators changed
      registry)) := by
  induction validators generalizing registry changed with
  | nil => exact h.1
  | cons validator rest ih =>
    obtain ⟨haudited, hentries⟩ := h
    obtain ⟨positions, hfind⟩ := hentries validator List.mem_cons_self
    have hrest : ∀ other ∈ rest, ∃ found,
        registry.positionsByValidatorAndOwner.find? other = some found :=
      fun other hmem => hentries other (List.mem_cons_of_mem _ hmem)
    rw [activateValidators]
    refine leaves_get _ ?_
    by_cases htombstoned : (registry.accountOrDefault validator).tombstoned = true
    · simp only [htombstoned, if_true]
      exact ih ⟨haudited, hrest⟩
    simp only [htombstoned]
    have hvisited := @visited_activate hashBytes registry validator positions boundaryHeight changed
      haudited hfind
    refine leaves_bind _ ?_ ?_
    · intro reason left hthrow
      rw [visitPositions_some hfind] at hthrow
      cases hrun : positions.visit (activatePosition hashBytes validator boundaryHeight)
          (changed, registry.lifecycleRecords) with
      | ok u s =>
        rw [hrun] at hthrow
        cases hthrow
      | error e s =>
        rw [hrun] at hthrow hvisited
        cases hthrow
        exact hvisited
    · intro changed' after hok
      rw [visitPositions_some hfind] at hok
      cases hrun : positions.visit (activatePosition hashBytes validator boundaryHeight)
          (changed, registry.lifecycleRecords) with
      | error e s =>
        rw [hrun] at hok
        cases hok
      | ok u s =>
        rw [hrun] at hok hvisited
        cases hok
        have hafter : ∀ other ∈ rest, ∃ found, (registry.visited validator
            (.ok u s : EStateM.Result String _ Unit)).positionsByValidatorAndOwner.find? other
              = some found :=
          fun other hmem => entry_withPositions (hrest other hmem)
        by_cases hchanged : s.2.1 = true
        · simp only [hchanged, if_true]
          have hown : (registry.visited validator (.ok u s : EStateM.Result String _ Unit)
              ).positionsByValidatorAndOwner.find? validator = some s.1 :=
            SortedMap.find?_insert_self _ _ _
          have hsum := (hvisited.addsUp validator).bonded
          have hmax := ((registry.visited validator (.ok u s : EStateM.Result String _ Unit)
            ).accountOrDefault validator).bondedAmount.inRange
          have hsafe := (hvisited.validators hown).safe
          obtain ⟨rewritten, hrewrite, hrewrote⟩ := @rewrite_ok hashBytes
            (registry.visited validator (.ok u s : EStateM.Result String _ Unit)) validator
            (registry.accountOrDefault validator).jailed false hsafe (by omega)
          refine leaves_of_ok _ hrewrite (ih ⟨?_, ?_⟩)
          · exact (hvisited.but hsafe (hvisited.live hown)).rewrote hrewrote
          · obtain ⟨positions', account, -, hstored, rfl⟩ := hrewrote
            intro other hmem
            exact entry_withPositions (hafter other hmem)
        · simp only [hchanged]
          exact ih ⟨hvisited, hafter⟩

theorem activatePending_audited {boundaryHeight : UInt64} (h : Audited hashBytes registry) :
    Audited hashBytes (left (activatePending hashBytes boundaryHeight registry)) := by
  unfold activatePending
  by_cases hzero : (boundaryHeight == 0) = true
  · simp only [hzero, if_true]
    exact h
  · simp only [hzero]
    refine leaves_get _ (activateValidators_audited ⟨h, ?_⟩)
    intro validator hmem
    obtain ⟨positions, hentry⟩ :=
      registry.positionsByValidatorAndOwner.mem_keys_iff.mp hmem
    exact ⟨positions, registry.positionsByValidatorAndOwner.find?_eq_some_iff.mpr hentry⟩

end StakingRegistry

namespace StakingRegistry

variable {hashBytes : String → String} {registry registry' : StakingRegistry}
  {validator owner : String} {position position' : Position}

--
-- Penalties
--

/-- What a penalty takes from a position: `taken` goes to the slashed part. -/
structure Taken (position : Position) (taken : Nat) (position' : Position) : Prop where
  shifted : Shifted position position'
  slashed : slashedUnits position' = slashedUnits position + taken

theorem Taken.trans {first second third : Position} {taken taken' : Nat}
    (h : Taken first taken second) (h' : Taken second taken' third) :
    Taken first (taken + taken') third :=
  ⟨h.shifted.trans h'.shifted, by rw [h'.slashed, h.slashed, Nat.add_assoc]⟩

/-- **Draining one part.** It takes what is there, up to what remains. -/
theorem drain_ok (bucket : Bucket) {remaining : Amount} {records : List StakeLifecycleRecord}
    (hfits : availableUnits position + slashedUnits position ≤ maxRawUnits) :
    ∃ taken position' rest, drain bucket (position, remaining, records)
        = .ok taken (position', rest, records) ∧
      taken.rawUnits = min (bucket.amount position).rawUnits remaining.rawUnits ∧
      rest.rawUnits + taken.rawUnits = remaining.rawUnits ∧
      Taken position taken.rawUnits position' ∧
      ∀ other, (other.amount position').rawUnits
        = (other.amount position).rawUnits - if other = bucket then taken.rawUnits else 0 := by
  set taken := if (bucket.amount position).rawUnits < remaining.rawUnits
    then bucket.amount position else remaining with htaken
  have hmin : taken.rawUnits = min (bucket.amount position).rawUnits remaining.rawUnits := by
    rw [htaken]
    split_ifs <;> omega
  by_cases hpositive : taken.isPositive = true
  · have hbucket : (bucket.amount position).rawUnits ≤ availableUnits position := by
      cases bucket <;> simp only [Bucket.amount, availableUnits] <;> omega
    obtain ⟨reduced, hreduced, hreducedUnits⟩ := @Amount.minus_ok (bucket.amount position) taken
      (by omega)
    obtain ⟨slashed, hslashed, hslashedUnits⟩ := @Amount.plus_ok position.slashedAmount taken (by
      unfold slashedUnits at hfits
      omega)
    obtain ⟨rest, hrest, hrestUnits⟩ := @Amount.minus_ok remaining taken (by omega)
    refine ⟨taken, { bucket.reduce position reduced with slashedAmount := slashed }, rest, ?_, hmin,
      by omega, ⟨⟨?_, ?_, ?_, ?_⟩, ?_⟩, ?_⟩
    · unfold drain
      rw [run_get]
      simp only
      rw [← htaken, if_pos hpositive, run_call hreduced, run_set, run_call hslashed, run_call hrest,
        run_set]
      rfl
    · cases bucket <;> exact ⟨_, _, _, _, _, rfl⟩
    · cases bucket <;> simp only [Bucket.reduce, Bucket.amount, availableUnits, slashedUnits] at *
        <;> omega
    · simp only [slashedUnits]
      omega
    · cases bucket <;> simp only [Bucket.reduce, Bucket.amount] at * <;> omega
    · simp only [slashedUnits]
      omega
    · intro other
      cases bucket <;> cases other <;>
        simp only [Bucket.reduce, Bucket.amount, reduceCtorEq, if_true, if_false] at * <;> omega
  · have hzero : taken.rawUnits = 0 := by
      rw [Amount.isPositive_iff] at hpositive
      omega
    refine ⟨taken, position, remaining, ?_, hmin, by omega, ⟨shifted_refl position, by omega⟩, ?_⟩
    · unfold drain
      rw [run_get]
      simp only
      rw [← htaken, if_neg hpositive]
      rfl
    · intro other
      split_ifs <;> omega

/-- What remains of a penalty, and of the position, after its three parts were drained. -/
theorem penalizePosition_ok (hhash : ∀ text, hashBytes text ≠ "") {remaining : Amount}
    {records : List StakeLifecycleRecord} {tombstoned : Bool} {blockHeight : UInt64}
    (howner : isSafeStakingScalar owner = true) (hsafe : isSafeStakingScalar validator = true)
    (hheight : blockHeight ≠ 0)
    (hfits : availableUnits position + slashedUnits position ≤ maxRawUnits) :
    ∃ taken position' rest records',
      penalizePosition hashBytes validator tombstoned blockHeight owner (position, remaining, records)
        = .ok () (position', rest, records') ∧
      Taken position taken position' ∧ rest.rawUnits + taken = remaining.rawUnits ∧
      (rest.rawUnits = 0 ∨ availableUnits position' = 0) ∧ Appended records records' := by
  by_cases hzero : remaining.isZero = true
  · refine ⟨0, position, remaining, records, ?_, ⟨shifted_refl position, rfl⟩, rfl, Or.inl ?_,
      appended_refl records⟩
    · unfold penalizePosition
      rw [run_get]
      simp only [hzero, if_true]
      rfl
    · simpa [Amount.isZero] using hzero
  obtain ⟨fromActive, first, rest₁, hrun₁, hmin₁, hrest₁, htaken₁, hparts₁⟩ :=
    @drain_ok position .active remaining records hfits
  obtain ⟨fromPending, second, rest₂, hrun₂, hmin₂, hrest₂, htaken₂, hparts₂⟩ :=
    @drain_ok first .pendingActivation rest₁ records (by rw [htaken₁.shifted.total]; exact hfits)
  obtain ⟨fromUnbonding, third, rest₃, hrun₃, hmin₃, hrest₃, htaken₃, hparts₃⟩ :=
    @drain_ok second .unbonding rest₂ records (by
      rw [htaken₂.shifted.total, htaken₁.shifted.total]
      exact hfits)
  have htaken := (htaken₁.trans htaken₂).trans htaken₃
  have hslashed := htaken.slashed
  have htotal := htaken.shifted.total
  obtain ⟨status, hstatus⟩ : ∃ status,
      (if tombstoned then .ok .tombstoned else statusFor third) = .ok status := by
    cases tombstoned with
    | true => exact ⟨_, rfl⟩
    | false => exact statusFor_ok (by omega)
  obtain ⟨sum, hsum, hsumUnits⟩ := @Amount.plus_ok fromActive fromPending (by omega)
  obtain ⟨applied, happlied, -⟩ := @Amount.plus_ok sum fromUnbonding (by omega)
  -- each part is empty or nothing remains
  have hended : rest₃.rawUnits = 0 ∨ availableUnits third = 0 := by
    have hactive₁ := hparts₁ .active
    have hactive₂ := hparts₂ .active
    have hactive₃ := hparts₃ .active
    have hpending₁ := hparts₁ .pendingActivation
    have hpending₂ := hparts₂ .pendingActivation
    have hpending₃ := hparts₃ .pendingActivation
    have hunbonding₁ := hparts₁ .unbonding
    have hunbonding₂ := hparts₂ .unbonding
    have hunbonding₃ := hparts₃ .unbonding
    simp only [Bucket.amount, reduceCtorEq, if_true, if_false] at hactive₁ hactive₂ hactive₃
    simp only [Bucket.amount, reduceCtorEq, if_true, if_false] at hpending₁ hpending₂ hpending₃
    simp only [Bucket.amount, reduceCtorEq, if_true, if_false] at hunbonding₁ hunbonding₂ hunbonding₃
    simp only [Bucket.amount] at hmin₁ hmin₂ hmin₃
    unfold availableUnits
    omega
  have hrun : penalizePosition hashBytes validator tombstoned blockHeight owner
      (position, remaining, records)
        = (if applied.isPositive then do
            let record ← call (lifecycleRecord hashBytes records .slash "" owner validator applied
              blockHeight { third with status := status }
              (if tombstoned then "stake slashed and validator tombstoned" else "stake slashed") "")
            set ({ third with status := status }, rest₃, records ++ [record])
          else pure () : LoopBody Amount Unit) ({ third with status := status }, rest₃, records) := by
    unfold penalizePosition
    rw [run_get]
    simp only [hzero]
    rw [if_neg (by simp), run_bind hrun₁, run_bind hrun₂, run_bind hrun₃, run_get]
    simp only
    rw [run_call hstatus, run_set, run_call hsum, run_call happlied]
  have hrestated : Taken position (fromActive.rawUnits + fromPending.rawUnits
      + fromUnbonding.rawUnits) { third with status := status } :=
    ⟨htaken.shifted.withStatus status, htaken.slashed⟩
  rw [hrun]
  by_cases hpositive : applied.isPositive = true
  · rw [if_pos hpositive]
    obtain ⟨record, hrecord⟩ := @lifecycleRecord_ok hashBytes validator owner
      { third with status := status } hhash records .slash ""
      (if tombstoned then "stake slashed and validator tombstoned" else "stake slashed") ""
      applied blockHeight howner hsafe (by simp) hheight
    obtain ⟨hvalid, haction, -⟩ := lifecycleRecord_eq_ok hrecord
    rw [run_call hrecord]
    refine ⟨_, _, _, _, rfl, hrestated, by omega, hended, [record], rfl, ?_⟩
    intro other hother
    rw [List.mem_singleton.mp hother, haction]
    exact ⟨hvalid, by simp⟩
  · rw [if_neg hpositive]
    exact ⟨_, _, _, _, rfl, hrestated, by omega, hended, appended_refl records⟩

end StakingRegistry

namespace StakingRegistry

variable {hashBytes : String → String} {registry registry' : StakingRegistry}
  {validator owner : String} {position position' : Position}

/-- **The loop of a penalty.** What it takes it adds to the slashed parts; it ends with nothing
remaining or with nothing left to take. -/
theorem visitEntries_penalize_ok (hhash : ∀ text, hashBytes text ≠ "") {tombstoned : Bool}
    {blockHeight : UInt64} (hsafe : isSafeStakingScalar validator = true) (hheight : blockHeight ≠ 0)
    {entries : List (String × Position)}
    (hentries : ∀ entry ∈ entries, isSafeStakingScalar entry.1 = true ∧
      availableUnits entry.2 + slashedUnits entry.2 ≤ maxRawUnits)
    (remaining : Amount) (records : List StakeLifecycleRecord) :
    ∃ entries' rest records',
      SortedMap.visitEntries (penalizePosition hashBytes validator tombstoned blockHeight) entries
        (remaining, records) = .ok () (entries', rest, records') ∧
      List.Forall₂ (fun entry entry' => entry'.1 = entry.1 ∧ Shifted entry.2 entry'.2) entries
        entries' ∧
      totalUnits slashedUnits entries' + rest.rawUnits
        = totalUnits slashedUnits entries + remaining.rawUnits ∧
      (rest.rawUnits = 0 ∨ totalUnits availableUnits entries' = 0) ∧ Appended records records' := by
  induction entries generalizing remaining records with
  | nil => exact ⟨[], remaining, records, rfl, List.Forall₂.nil, rfl, Or.inr rfl,
      appended_refl records⟩
  | cons entry others ih =>
    obtain ⟨owner, position⟩ := entry
    obtain ⟨howner, hfits⟩ := hentries _ List.mem_cons_self
    obtain ⟨taken, position', next, records₁, hrun, htaken, hnext, hended, hrecords⟩ :=
      @penalizePosition_ok hashBytes validator owner position hhash remaining records tombstoned
        blockHeight howner hsafe hheight hfits
    obtain ⟨others', rest, records₂, hothers, hshifted, hsum, hrest, hmore⟩ :=
      ih (fun entry hmem => hentries entry (List.mem_cons_of_mem _ hmem)) next records₁
    refine ⟨(owner, position') :: others', rest, records₂, ?_,
      List.Forall₂.cons ⟨rfl, htaken.shifted⟩ hshifted, ?_, ?_, hrecords.trans hmore⟩
    · rw [SortedMap.visitEntries, hrun]
      simp only [hothers]
      rfl
    · have hslashed := htaken.slashed
      simp only [totalUnits_cons]
      omega
    · have hshift : ∀ {l l' : List (String × Position)}, List.Forall₂ (fun entry entry' =>
          entry'.1 = entry.1 ∧ Shifted entry.2 entry'.2) l l' →
          totalUnits slashedUnits l ≤ totalUnits slashedUnits l' := by
        intro l l' hall
        induction hall with
        | nil => exact Nat.le_refl _
        | cons hentry _ ih =>
          simp only [totalUnits_cons]
          exact Nat.add_le_add hentry.2.slashed ih
      have hgrew := hshift hshifted
      simp only [totalUnits_cons]
      omega

/-- **Where a penalty goes wrong.** It makes an account again for an address that was rotated
away; or it is above the bonded stake, takes all there is and throws. -/
def penaltyBreaks (registry : StakingRegistry) (validator : String) (totalSlashedAmount : Amount)
    (blockHeight : UInt64) : Bool :=
  isSafeStakingScalar validator && blockHeight != 0
    && (registry.accountOrDefault validator).slashedAmount.rawUnits ≤ totalSlashedAmount.rawUnits
    && (registry.rotatedAway validator && totalSlashedAmount.isZero
      || (registry.accountOrDefault validator).bondedAmount.rawUnits < totalSlashedAmount.rawUnits
        && (registry.accountOrDefault validator).slashedAmount.rawUnits
          < (registry.accountOrDefault validator).bondedAmount.rawUnits)

/-- The end of a penalty: the account is rewritten and shows the total. -/
theorem finishPenalty_audited {jailed tombstoned : Bool} {totalSlashedAmount : Amount}
    (h : AuditedBut hashBytes validator registry)
    (hfits : totalUnits availableUnits (registry.positionsOf validator).entries
      + totalUnits slashedUnits (registry.positionsOf validator).entries ≤ maxRawUnits)
    (hslashed : totalUnits slashedUnits (registry.positionsOf validator).entries
      = totalSlashedAmount.rawUnits) :
    Audited hashBytes (left ((rewriteAccountFromPositions hashBytes validator
      (jailed || tombstoned) tombstoned >>= fun _ => do
        let rewrittenRegistry ← get
        let rewritten := rewrittenRegistry.accountOrDefault validator
        if rewritten.slashedAmount != totalSlashedAmount then do
          let account ← call (StakeAccount.complete ⟨validator, rewritten.bondedAmount,
            totalSlashedAmount, jailed || tombstoned, tombstoned⟩)
          setAccount hashBytes validator account
        else pure ()) registry)) := by
  obtain ⟨rewritten, hrewrite, hrewrote⟩ := @rewrite_ok hashBytes registry validator
    (jailed || tombstoned) tombstoned h.safe hfits
  have haudited := h.rewrote hrewrote
  obtain ⟨positions, account, -, hstored, rfl⟩ := hrewrote
  have haccount : (registry.rewritten positions account).accountOrDefault validator = account := by
    rw [accountOrDefault, ← hstored.address]
    simp [StakingRegistry.rewritten]
  have hsame : account.slashedAmount = totalSlashedAmount :=
    Amount.ext (hstored.sum.slashed.trans hslashed)
  rw [run_bind hrewrite, run_get, haccount, hsame]
  simp only [bne_self_eq_false]
  exact haudited

theorem applyPenaltyState_audited (hhash : ∀ text, hashBytes text ≠ "")
    {totalSlashedAmount : Amount} {jailed tombstoned : Bool} {blockHeight : UInt64}
    (h : Audited hashBytes registry)
    (hbreaks : registry.penaltyBreaks validator totalSlashedAmount blockHeight = false) :
    Audited hashBytes (left (applyPenaltyState hashBytes validator totalSlashedAmount jailed
      tombstoned blockHeight registry)) := by
  unfold applyPenaltyState
  refine leaves_refuseIf _ h (fun hinput => ?_)
  refine leaves_get _ (leaves_refuseIf _ h (fun hgrows => ?_))
  refine leaves_call _ h (fun remainingSlash hremaining => ?_)
  simp only [Bool.or_eq_false_iff, Bool.not_eq_false', beq_eq_false_iff_ne] at hinput
  obtain ⟨⟨hsafe, -⟩, hheight⟩ := hinput
  have hgrows : (registry.accountOrDefault validator).slashedAmount.rawUnits
      ≤ totalSlashedAmount.rawUnits := by simpa using hgrows
  obtain ⟨-, hremainingUnits⟩ := Amount.minus_eq_ok hremaining
  have hsum := h.addsUp validator
  have hmax := (registry.accountOrDefault validator).bondedAmount.inRange
  have hslashedSum := hsum.slashed
  have hbondedSum := hsum.bonded
  have hheightBne : (blockHeight != 0) = true := by simpa using hheight
  unfold penaltyBreaks at hbreaks
  rw [hsafe, hheightBne, decide_eq_true hgrows] at hbreaks
  simp only [Bool.true_and, Bool.or_eq_false_iff, Bool.and_eq_false_iff, decide_eq_false_iff_not,
    not_lt] at hbreaks
  obtain ⟨hrotated, hbounded⟩ := hbreaks
  cases hfind : registry.positionsByValidatorAndOwner.find? validator with
  | none =>
    refine leaves_of_ok _ (visitPositions_none hfind) (leaves_refuseIf _ h (fun hdone => ?_))
    have hempty : registry.positionsOf validator = SortedMap.empty := by
      rw [positionsOf, hfind]
      rfl
    have hzero : totalSlashedAmount.rawUnits = 0 := by
      have hnone : totalUnits slashedUnits (registry.positionsOf validator).entries = 0 := by
        rw [hempty]
        rfl
      have hdone : remainingSlash.rawUnits = 0 := by simpa [Amount.isPositive] using hdone
      omega
    have hlive : registry.rotationSuccessors.find? validator = none := by
      rcases hrotated with hrotated | hpositive
      · unfold rotatedAway SortedMap.contains at hrotated
        simpa using hrotated
      · simp [Amount.isZero, hzero] at hpositive
    refine finishPenalty_audited (h.but hsafe hlive) (by omega) ?_
    rw [hempty, hzero]
    rfl
  | some positions =>
    have hpositions := positionsOf_of_find? hfind
    rw [hpositions] at hslashedSum hbondedSum
    obtain ⟨entries', rest, records', hloop, hshifted, htaken, hended, hrecords⟩ :=
      @visitEntries_penalize_ok hashBytes validator hhash tombstoned blockHeight hsafe hheight
        positions.entries (by
          rintro ⟨owner, position⟩ hmem
          have hposition := positions.find?_eq_some_iff.mpr hmem
          rw [← hpositions] at hposition
          exact ⟨(h.each hposition).safe, Nat.le_trans (h.units_le hposition) hmax⟩)
        remainingSlash registry.lifecycleRecords
    obtain ⟨positions', ended, hvisit⟩ := SortedMap.visit_ok hloop
    have hsameLoop := (SortedMap.visit_eq_ok.mp hvisit).symm.trans hloop
    obtain ⟨rfl, rfl⟩ : positions'.entries = entries' ∧ ended = (rest, records') := by
      simpa using hsameLoop
    have hrelated : SortedMap.Related (fun _ => Shifted) positions positions' := hshifted
    have hrun : visitPositions validator (penalizePosition hashBytes validator tombstoned blockHeight)
        remainingSlash registry = .ok rest { registry.withPositions validator positions' with
          lifecycleRecords := records' } := by
      rw [visitPositions_some hfind, hvisit]
      rfl
    have htotal := totalUnits_of_shifted hrelated
    have hafter : StakingRegistry.positionsOf { registry.withPositions validator positions' with
        lifecycleRecords := records' } validator = positions' :=
      positionsOf_withPositions registry validator positions'
    rw [run_bind hrun]
    by_cases hleft : rest.isPositive = true
    · -- above the bonded stake, and nothing was there to take
      have hpositive := Amount.isPositive_iff.mp hleft
      rw [hleft]
      refine h.shifted hfind hrelated ?_ hrecords
      omega
    · rw [Bool.not_eq_true] at hleft
      rw [run_refuseIf hleft]
      have hzero : rest.rawUnits = 0 := by simpa [Amount.isPositive] using hleft
      refine finishPenalty_audited (h.shiftedBut hfind hrelated hrecords) ?_ ?_
      · rw [hafter]
        omega
      · rw [hafter]
        omega

end StakingRegistry

namespace StakingRegistry

variable {hashBytes : String → String} {registry registry' : StakingRegistry}
  {validator owner : String} {position position' : Position}

--
-- Rotation chains
--

theorem followRotations_mono {successors : SortedMap String String} {fuel : Nat}
    {address current : String} (h : followRotations successors fuel address = .ok current) :
    followRotations successors (fuel + 1) address = .ok current := by
  induction fuel generalizing address with
  | zero => cases h
  | succ fuel ih =>
    rw [followRotations] at h ⊢
    cases hfind : successors.find? address with
    | none =>
      rw [hfind] at h
      exact h
    | some next =>
      rw [hfind] at h
      exact ih h

/-- A chain after a rotation: where it ended at the old address, it goes on to the new one. -/
theorem followRotations_insert {successors : SortedMap String String} {old new : String}
    (hold : successors.find? old = none) (hnew : successors.find? new = none) (hne : old ≠ new)
    {fuel : Nat} {address current : String}
    (h : followRotations successors fuel address = .ok current) :
    followRotations (successors.insert old new) (fuel + 1) address
      = .ok (if current = old then new else current) := by
  induction fuel generalizing address with
  | zero => cases h
  | succ fuel ih =>
    rw [followRotations] at h ⊢
    cases hfind : successors.find? address with
    | none =>
      rw [hfind] at h
      obtain rfl := Except.ok.inj h
      rw [SortedMap.find?_insert]
      by_cases heq : old = address
      · rw [if_pos heq, if_pos heq.symm]
        simp only
        rw [followRotations, SortedMap.find?_insert_of_ne _ _ hne, hnew]
      · rw [if_neg heq, hfind, if_neg (Ne.symm heq)]
    | some next =>
      rw [hfind] at h
      have heq : old ≠ address := by
        rintro rfl
        rw [hold] at hfind
        cases hfind
      rw [SortedMap.find?_insert_of_ne _ _ heq, hfind]
      exact ih h

theorem length_insert_new {successors : SortedMap String String} {old : String} (new : String)
    (hold : successors.find? old = none) :
    (successors.insert old new).entries.length = successors.entries.length + 1 := by
  rw [(successors.insert_perm old new).length_eq, List.length_cons,
    successors.erase_of_find?_none hold]

--
-- The moved positions
--

/-- The records of a rotation. -/
def RotationRecords (old new : String) (records : List StakeLifecycleRecord) : Prop :=
  ∀ record ∈ records, record.isValid = true ∧ record.action = .validatorKeyRotate ∧
    record.previousValidatorAddress = old ∧ record.validatorAddress = new

theorem expectedRotations_rotation {old new : String} {records : List StakeLifecycleRecord}
    {expected : SortedMap String String} (h : RotationRecords old new records)
    (hne : records ≠ []) (hold : expected.find? old = none) :
    expectedRotations records expected = some (expected.insert old new) := by
  have hrest : ∀ {rest : List StakeLifecycleRecord}, RotationRecords old new rest →
      expectedRotations rest (expected.insert old new) = some (expected.insert old new) := by
    intro rest hrecords
    induction rest with
    | nil => rfl
    | cons record rest ih =>
      obtain ⟨hvalid, haction, hprevious, hcurrent⟩ := hrecords record List.mem_cons_self
      rw [expectedRotations, hvalid, if_neg (by simp), haction, if_pos (beq_self_eq_true _),
        hprevious, SortedMap.find?_insert_self]
      simp only [hcurrent, bne_self_eq_false]
      exact ih (fun other hmem => hrecords other (List.mem_cons_of_mem _ hmem))
  cases records with
  | nil => exact absurd rfl hne
  | cons record rest =>
    obtain ⟨hvalid, haction, hprevious, hcurrent⟩ := h record List.mem_cons_self
    rw [expectedRotations, hvalid, if_neg (by simp), haction, if_pos (beq_self_eq_true _),
      hprevious, hold, hcurrent]
    exact hrest (fun other hmem => h other (List.mem_cons_of_mem _ hmem))

/-- A position under its new id. -/
def Renamed (hashBytes : String → String) (new owner : String)
    (position position' : Position) : Prop :=
  position' = { position with positionId := stakePositionId hashBytes owner new }

theorem visitEntries_rotate_ok (hhash : ∀ text, hashBytes text ≠ "") {old new : String}
    {blockHeight : UInt64} {transactionId : String} (hold : isSafeStakingScalar old = true)
    (hnew : isSafeStakingScalar new = true) (hne : old ≠ new) (hheight : blockHeight ≠ 0)
    {entries : List (String × Position)}
    (hentries : ∀ entry ∈ entries, isSafeStakingScalar entry.1 = true ∧
      availableUnits entry.2 ≤ maxRawUnits)
    (records : List StakeLifecycleRecord) :
    ∃ entries' added,
      SortedMap.visitEntries (rotatePosition hashBytes old new blockHeight transactionId) entries
        records = .ok () (entries', records ++ added) ∧
      List.Forall₂ (fun entry entry' => entry'.1 = entry.1 ∧
        Renamed hashBytes new entry.1 entry.2 entry'.2) entries entries' ∧
      RotationRecords old new added ∧ added.length = entries.length := by
  induction entries generalizing records with
  | nil => exact ⟨[], [], by rw [List.append_nil]; rfl, List.Forall₂.nil, by simp [RotationRecords],
      rfl⟩
  | cons entry rest ih =>
    obtain ⟨owner, position⟩ := entry
    obtain ⟨howner, hfits⟩ := hentries _ List.mem_cons_self
    obtain ⟨available, havailable, -⟩ := @positionAvailable_ok { position with
      positionId := stakePositionId hashBytes owner new } hfits
    obtain ⟨record, hrecord⟩ := @lifecycleRecord_ok hashBytes new owner { position with
      positionId := stakePositionId hashBytes owner new } hhash records .validatorKeyRotate
      transactionId ("validator key rotation from " ++ old) old available blockHeight howner hnew
      (by simp [hold, hne]) hheight
    obtain ⟨hvalid, haction, hcurrent, hprevious⟩ := lifecycleRecord_eq_ok hrecord
    have hbody : rotatePosition hashBytes old new blockHeight transactionId owner (position, records)
        = .ok () ({ position with positionId := stakePositionId hashBytes owner new },
          records ++ [record]) := by
      unfold rotatePosition
      rw [run_get]
      simp only
      rw [run_call havailable, run_call hrecord]
      rfl
    obtain ⟨rest', added, hrest, hrenamed, hadded, hlength⟩ :=
      ih (fun entry hmem => hentries entry (List.mem_cons_of_mem _ hmem)) (records ++ [record])
    refine ⟨(owner, { position with positionId := stakePositionId hashBytes owner new }) :: rest',
      record :: added, ?_, List.Forall₂.cons ⟨rfl, rfl⟩ hrenamed, ?_, ?_⟩
    · rw [SortedMap.visitEntries, hbody]
      simp only [hrest]
      rw [SortedMap.prependEntry, List.append_assoc]
      rfl
    · intro other hother
      rcases List.mem_cons.mp hother with rfl | hother
      · exact ⟨hvalid, haction, hprevious, hcurrent⟩
      · exact hadded other hother
    · rw [List.length_cons, List.length_cons, hlength]

end StakingRegistry

namespace StakingRegistry

variable {hashBytes : String → String} {registry registry' : StakingRegistry}
  {validator owner : String} {position position' : Position}

--
-- Rotations
--

/-- The registry after a rotation. -/
def rotated (registry : StakingRegistry) (old : String) (renamed : SortedMap String Position)
    (account : StakeAccount) (records : List StakeLifecycleRecord) : StakingRegistry :=
  { accounts := (registry.accounts.erase old).insert account.validatorAddress account
    positionsByValidatorAndOwner := (registry.positionsByValidatorAndOwner.erase old).insert
      account.validatorAddress renamed
    lifecycleRecords := records
    rotationSuccessors := registry.rotationSuccessors.insert old account.validatorAddress }

theorem find?_moved {ν : Type} (map : SortedMap String ν) (old new : String) (value : ν)
    (key : String) :
    ((map.erase old).insert new value).find? key
      = if new = key then some value else if key = old then none else map.find? key := by
  rw [SortedMap.find?_insert, SortedMap.find?_erase]

theorem rotationsOk_rotated {old : String} {renamed : SortedMap String Position}
    {account : StakeAccount} {added : List StakeLifecycleRecord} (h : RotationsOk registry)
    (hne : old ≠ account.validatorAddress)
    (hold : registry.rotationSuccessors.find? old = none)
    (hnew : registry.rotationSuccessors.find? account.validatorAddress = none)
    (hadded : RotationRecords old account.validatorAddress added) (hsome : added ≠ []) :
    RotationsOk (registry.rotated old renamed account (registry.lifecycleRecords ++ added)) := by
  constructor
  · show expectedRotations (registry.lifecycleRecords ++ added) SortedMap.empty
      = some (registry.rotationSuccessors.insert old account.validatorAddress)
    rw [expectedRotations_append, h.expected]
    exact expectedRotations_rotation hadded hsome hold
  · intro address successor hfind
    have haccounts : ∀ key, (registry.rotated old renamed account
        (registry.lifecycleRecords ++ added)).accounts.find? key
          = if account.validatorAddress = key then some account
            else if key = old then none else registry.accounts.find? key :=
      find?_moved registry.accounts old account.validatorAddress account
    have hchain : ∀ {fuel current}, followRotations registry.rotationSuccessors fuel address
        = .ok current → fuel ≤ registry.rotationSuccessors.entries.length + 1 →
        (registry.rotated old renamed account (registry.lifecycleRecords ++ added)
          ).currentAddressFor address
            = .ok (if current = old then account.validatorAddress else current) := by
      intro fuel current hrun hfuel
      obtain ⟨more, hmore⟩ := Nat.exists_eq_add_of_le hfuel
      have hlong : ∀ extra, followRotations registry.rotationSuccessors (fuel + extra) address
          = .ok current := by
        intro extra
        induction extra with
        | zero => exact hrun
        | succ extra ih => exact followRotations_mono ih
      have hinsert := followRotations_insert hold hnew hne (hlong more)
      unfold currentAddressFor
      show followRotations (registry.rotationSuccessors.insert old account.validatorAddress)
        ((registry.rotationSuccessors.insert old account.validatorAddress).entries.length + 1)
        address = _
      rw [length_insert_new _ hold, hmore]
      exact hinsert
    have hkey : address ≠ account.validatorAddress := by
      rintro rfl
      rw [StakingRegistry.rotated] at hfind
      simp only [SortedMap.find?_insert_of_ne _ _ hne, hnew] at hfind
      cases hfind
    by_cases heq : address = old
    · subst heq
      have hself : followRotations registry.rotationSuccessors 1 address = .ok address := by
        rw [followRotations, hold]
      refine ⟨account.validatorAddress, ?_, Ne.symm hne, ?_, account, ?_⟩
      · rw [hchain hself (by omega), if_pos rfl]
      · rw [haccounts, if_neg (Ne.symm hne), if_pos rfl]
      · rw [haccounts, if_pos rfl]
    · have hbefore : registry.rotationSuccessors.find? address = some successor := by
        rw [StakingRegistry.rotated] at hfind
        simp only [SortedMap.find?_insert_of_ne _ _ (Ne.symm heq)] at hfind
        exact hfind
      obtain ⟨current, hcurrent, hdiffers, hnone, found, hfound⟩ := h.chains hbefore
      refine ⟨_, hchain hcurrent (Nat.le_refl _), ?_, ?_, ?_⟩
      · split_ifs
        · exact Ne.symm hkey
        · exact hdiffers
      · rw [haccounts, if_neg (Ne.symm hkey), if_neg heq, hnone]
      · rw [haccounts]
        by_cases hcur : current = old
        · rw [if_pos hcur]
          exact ⟨account, if_pos rfl⟩
        · rw [if_neg hcur, if_neg hcur]
          split_ifs
          · exact ⟨account, rfl⟩
          · exact ⟨found, hfound⟩

/-- **A rotation keeps the invariant.** -/
theorem Audited.rotated {old : String} {renamed positions : SortedMap String Position}
    {oldAccount account : StakeAccount} {added : List StakeLifecycleRecord}
    (h : Audited hashBytes registry) (hne : old ≠ account.validatorAddress)
    (hsafe : isSafeStakingScalar account.validatorAddress = true)
    (hpositions : registry.positionsByValidatorAndOwner.find? old = some positions)
    (hold : registry.accounts.find? old = some oldAccount)
    (hamounts : account.bondedAmount = oldAccount.bondedAmount ∧
      account.slashedAmount = oldAccount.slashedAmount)
    (hvalid : account.isValid = true)
    (hfree : registry.rotationSuccessors.find? account.validatorAddress = none)
    (hrenamed : SortedMap.Related (Renamed hashBytes account.validatorAddress) positions renamed)
    (hadded : RotationRecords old account.validatorAddress added) (hsome : added ≠ []) :
    Audited hashBytes
      (registry.rotated old renamed account (registry.lifecycleRecords ++ added)) := by
  have haccounts : ∀ key, (registry.rotated old renamed account
      (registry.lifecycleRecords ++ added)).accounts.find? key
        = if account.validatorAddress = key then some account
          else if key = old then none else registry.accounts.find? key :=
    find?_moved registry.accounts old account.validatorAddress account
  have hentries : ∀ key, (registry.rotated old renamed account
      (registry.lifecycleRecords ++ added)).positionsByValidatorAndOwner.find? key
        = if account.validatorAddress = key then some renamed
          else if key = old then none else registry.positionsByValidatorAndOwner.find? key :=
    find?_moved registry.positionsByValidatorAndOwner old account.validatorAddress renamed
  refine ⟨?_, ?_, ?_, rotationsOk_rotated h.rotations hne (h.live hpositions) hfree hadded hsome⟩
  · intro address found hfind
    rw [haccounts] at hfind
    split_ifs at hfind with hnew
    · cases hfind
      exact ⟨hnew ▸ hsafe, hvalid, hnew⟩
    · exact h.accounts hfind
  · intro validator found hfind
    rw [hentries] at hfind
    split_ifs at hfind with hnew hother
    · cases hfind
      subst hnew
      obtain ⟨-, heach, oldAccount', hold', hsum⟩ := h.validators hpositions
      obtain rfl := Option.some.inj (hold.symm.trans hold')
      have hunits : ∀ units : Position → Nat, (∀ position id,
          units { position with positionId := id } = units position) →
          totalUnits units renamed.entries = totalUnits units positions.entries := by
        intro units hkept
        refine hrenamed.sum_eq (fun _ position position' hrename => ?_)
        rw [hrename]
        exact hkept position _
      refine ⟨hsafe, ?_, account, by rw [haccounts, if_pos rfl], ?_, ?_⟩
      · intro owner position' hposition
        obtain ⟨position, hbefore, rfl⟩ := hrenamed.source hposition
        have hok := heach hbefore
        exact ⟨hok.safe, rfl, hok.lock, hok.activation, hok.start, hok.ends, hok.deadline⟩
      · rw [hamounts.2, hunits slashedUnits (fun _ _ => rfl)]
        exact hsum.slashed
      · rw [hamounts.1, hunits slashedUnits (fun _ _ => rfl), hunits availableUnits (fun _ _ => rfl)]
        exact hsum.bonded
    · obtain ⟨hsafe', heach, kept, hkept, hsum⟩ := h.validators hfind
      refine ⟨hsafe', heach, kept, ?_, hsum⟩
      rw [haccounts, if_neg hnew, if_neg hother]
      exact hkept
  · intro address found hfind
    rw [haccounts] at hfind
    rw [hentries]
    split_ifs at hfind ⊢ with hnew
    · exact ⟨renamed, rfl⟩
    · exact h.entries hfind

theorem rotateValidatorAddress_audited (hhash : ∀ text, hashBytes text ≠ "") {old new : String}
    {blockHeight : UInt64} {transactionId : String} (h : Audited hashBytes registry) :
    Audited hashBytes (left (rotateValidatorAddress hashBytes old new owner blockHeight
      transactionId registry)) := by
  unfold rotateValidatorAddress
  refine leaves_refuseIf _ h (fun hinput => ?_)
  refine leaves_get _ (leaves_refuseIf _ h (fun hfresh => ?_))
  simp only [Bool.or_eq_false_iff, Bool.not_eq_false', beq_eq_false_iff_ne] at hinput
  obtain ⟨⟨⟨⟨holdSafe, hnewSafe⟩, -⟩, hne⟩, hheight⟩ := hinput
  simp only [Bool.or_eq_false_iff, SortedMap.contains, Option.isSome_eq_false_iff,
    Option.isNone_iff_eq_none] at hfresh
  obtain ⟨-, hfree⟩ := hfresh
  cases haccount : registry.accounts.find? old with
  | none => exact h
  | some oldAccount =>
    cases hpositions : registry.positionsByValidatorAndOwner.find? old with
    | none => exact h
    | some positions =>
      simp only
      refine leaves_refuseIf _ h (fun howner => ?_)
      have hmax := (registry.accountOrDefault old).bondedAmount.inRange
      obtain ⟨entries', added, hloop, hrenamed, hadded, hlength⟩ :=
        @visitEntries_rotate_ok hashBytes hhash old new blockHeight transactionId holdSafe hnewSafe
          hne hheight positions.entries (by
            rintro ⟨other, position⟩ hmem
            have hposition := positions.find?_eq_some_iff.mpr hmem
            rw [← positionsOf_of_find? hpositions] at hposition
            have hunits := h.units_le hposition
            exact ⟨(h.each hposition).safe, by simp only; omega⟩) registry.lifecycleRecords
      obtain ⟨renamed, ended, hvisit⟩ := SortedMap.visit_ok hloop
      have hsameLoop := (SortedMap.visit_eq_ok.mp hvisit).symm.trans hloop
      obtain ⟨rfl, rfl⟩ : renamed.entries = entries' ∧
          ended = registry.lifecycleRecords ++ added := by simpa using hsameLoop
      -- the owner has a position, so there is a record that tells of the rotation
      have hsome : added ≠ [] := by
        rintro rfl
        rw [SortedMap.contains] at howner
        have hempty : positions.entries = [] := List.length_eq_zero_iff.mp hlength.symm
        simp [SortedMap.find?, hempty] at howner
      obtain ⟨-, hvalidOld, -⟩ := h.accounts haccount
      have hvalid : StakeAccount.isValid { oldAccount with validatorAddress := new } = true := by
        unfold StakeAccount.isValid at hvalidOld ⊢
        unfold isSafeStakingScalar at hnewSafe
        simp only [Bool.and_eq_true] at hvalidOld hnewSafe ⊢
        exact ⟨⟨⟨hnewSafe.1, hvalidOld.1.1.2⟩, hvalidOld.1.2⟩, hvalidOld.2⟩
      have haudited : Audited hashBytes (registry.rotated old renamed
          { oldAccount with validatorAddress := new } (registry.lifecycleRecords ++ added)) :=
        h.rotated hne hnewSafe hpositions haccount ⟨rfl, rfl⟩ hvalid hfree hrenamed hadded hsome
      have hcomplete : StakeAccount.complete { oldAccount with validatorAddress := new }
          = .ok { oldAccount with validatorAddress := new } := by
        unfold StakeAccount.complete
        rw [hvalid]
        rfl
      have hemplace : emplace registry.rotationSuccessors old new
          = registry.rotationSuccessors.insert old new := by
        unfold emplace SortedMap.contains
        rw [h.live hpositions]
        rfl
      have hrename : renamePositions hashBytes old new blockHeight transactionId positions
          { registry with
            accounts := registry.accounts.erase old
            positionsByValidatorAndOwner := registry.positionsByValidatorAndOwner.erase old }
          = .ok renamed { registry with
            accounts := registry.accounts.erase old
            positionsByValidatorAndOwner := registry.positionsByValidatorAndOwner.erase old
            lifecycleRecords := registry.lifecycleRecords ++ added } := by
        unfold renamePositions
        rw [run_get]
        simp only [hvisit]
        rfl
      rw [run_set, run_bind hrename, run_modify, run_call hcomplete, run_modify, run_get]
      simp only [StakingRegistry.withPositions, hemplace]
      refine leaves_call _ haudited (fun valid _ => ?_)
      cases valid <;> exact haudited

end StakingRegistry

namespace StakingRegistry

--
-- Runs
--

/-- The calls of a run. -/
inductive Operation
  | deposit (ownerAddress validatorAddress : String) (amount : Amount) (blockHeight : UInt64)
    (requireExistingPosition : Bool) (transactionId : String)
  | requestUnlock (ownerAddress validatorAddress : String) (amount : Amount)
    (blockHeight : UInt64) (blockTimestamp : Int) (transactionId : String)
  | withdraw (ownerAddress validatorAddress : String) (amount : Amount)
    (blockHeight : UInt64) (blockTimestamp : Int) (transactionId : String)
  | requestValidatorExit (ownerAddress validatorAddress : String) (blockHeight : UInt64)
    (blockTimestamp : Int) (transactionId : String)
  | activatePending (boundaryHeight : UInt64)
  | applyPenaltyState (validatorAddress : String) (totalSlashedAmount : Amount)
    (jailed tombstoned : Bool) (blockHeight : UInt64)
  | unjail (validatorAddress : String)
  | rotateValidatorAddress (oldValidatorAddress newValidatorAddress ownerAddress : String)
    (blockHeight : UInt64) (transactionId : String)

section Runs

variable (hashBytes : String → String)

def Operation.method : Operation → Method Unit
  | .deposit owner validator amount height requireExisting transactionId =>
    StakingRegistry.deposit hashBytes owner validator amount height requireExisting transactionId
  | .requestUnlock owner validator amount height timestamp transactionId =>
    StakingRegistry.requestUnlock hashBytes owner validator amount height timestamp transactionId
  | .withdraw owner validator amount height timestamp transactionId =>
    StakingRegistry.withdraw hashBytes owner validator amount height timestamp transactionId
  | .requestValidatorExit owner validator height timestamp transactionId =>
    StakingRegistry.requestValidatorExit hashBytes owner validator height timestamp transactionId
  | .activatePending boundaryHeight => do
    let _ ← StakingRegistry.activatePending hashBytes boundaryHeight
    return ()
  | .applyPenaltyState validator total jailed tombstoned height =>
    StakingRegistry.applyPenaltyState hashBytes validator total jailed tombstoned height
  | .unjail validator => StakingRegistry.unjail hashBytes validator
  | .rotateValidatorAddress old new owner height transactionId =>
    StakingRegistry.rotateValidatorAddress hashBytes old new owner height transactionId

/-- The registry after a call, whether it returned or threw. -/
def afterCall (registry : StakingRegistry) (operation : Operation) : StakingRegistry :=
  left (operation.method hashBytes registry)

/-- The registry after a run from the empty one. -/
def afterCalls (operations : List Operation) : StakingRegistry :=
  operations.foldl (afterCall hashBytes) empty

/-- The call takes one of the branches that leave a registry which the audit refuses. -/
def Operation.breaks (registry : StakingRegistry) : Operation → Bool
  | .deposit owner validator amount height requireExisting _ =>
    registry.depositBreaks owner validator amount height requireExisting
  | .withdraw owner validator amount height timestamp _ =>
    registry.withdrawBreaks owner validator amount height timestamp
  | .applyPenaltyState validator total _ _ height => registry.penaltyBreaks validator total height
  | _ => false

/-- No call of the run breaks. -/
def unbroken : StakingRegistry → List Operation → Bool
  | _, [] => true
  | registry, operation :: rest =>
    !operation.breaks registry && unbroken (afterCall hashBytes registry operation) rest

end Runs

variable {hashBytes : String → String} {registry : StakingRegistry}

theorem empty_audited : Audited hashBytes empty where
  accounts := fun h => by cases h
  validators := fun h => by cases h
  entries := fun h => by cases h
  rotations := ⟨rfl, fun h => by cases h⟩

/-- **Every call that does not break keeps the invariant**, whether it returns or throws. -/
theorem afterCall_audited (hhash : ∀ text, hashBytes text ≠ "") {operation : Operation}
    (h : Audited hashBytes registry) (hbreaks : operation.breaks registry = false) :
    Audited hashBytes (afterCall hashBytes registry operation) := by
  cases operation with
  | deposit => exact deposit_audited h hbreaks
  | requestUnlock => exact requestUnlock_audited h
  | withdraw => exact withdraw_audited h hbreaks
  | requestValidatorExit => exact requestValidatorExit_audited h
  | activatePending boundaryHeight =>
    have hactivated := @activatePending_audited hashBytes registry boundaryHeight h
    refine leaves_bind _ (fun _ _ hthrow => ?_) (fun _ _ hok => ?_)
    · rw [hthrow] at hactivated
      exact hactivated
    · rw [hok] at hactivated
      exact hactivated
  | applyPenaltyState => exact applyPenaltyState_audited hhash h hbreaks
  | unjail => exact unjail_audited h
  | rotateValidatorAddress => exact rotateValidatorAddress_audited hhash h

theorem run_audited (hhash : ∀ text, hashBytes text ≠ "") {operations : List Operation}
    (h : Audited hashBytes registry) (hunbroken : unbroken hashBytes registry operations = true)
    (calls : Nat) :
    Audited hashBytes ((operations.take calls).foldl (afterCall hashBytes) registry) := by
  induction operations generalizing registry calls with
  | nil =>
    rw [List.take_nil]
    exact h
  | cons operation rest ih =>
    cases calls with
    | zero => exact h
    | succ calls =>
      rw [unbroken, Bool.and_eq_true, Bool.not_eq_true'] at hunbroken
      rw [List.take_succ_cons, List.foldl_cons]
      exact ih (afterCall_audited hhash h hunbroken.1) hunbroken.2 calls

/-- **The audit after every call.** In a run without a breaking call, `isValid` holds after each
of its calls, returned or thrown. -/
theorem run_isValid (hashBytes : String → String) (hhash : ∀ text, hashBytes text ≠ "")
    (operations : List Operation) (hunbroken : unbroken hashBytes empty operations = true)
    (calls : Nat) : isValid hashBytes (afterCalls hashBytes (operations.take calls)) = .ok true :=
  isValid_of_audited (run_audited hhash empty_audited hunbroken calls)

/-- A run with a deposit, a penalty, a rotation and a top-up that is refused. -/
def soundRun : List Operation :=
  [.deposit "alice" "val" ⟨9, Amount.nine_inRange⟩ 1 false "t1", .activatePending 86401,
    .applyPenaltyState "val" ⟨2, Amount.two_inRange⟩ true false 86402, .unjail "val",
    .requestUnlock "alice" "val" ⟨3, Amount.three_inRange⟩ 86403 1000 "t2",
    .rotateValidatorAddress "val" "new" "alice" 86404 "t3",
    .deposit "bob" "new" ⟨1, Amount.one_inRange⟩ 86405 true "t4"]

theorem soundRun_isValid :
    unbroken (fun _ => "id") empty soundRun = true ∧
      isValid (fun _ => "id") (afterCalls (fun _ => "id") (soundRun.take 7)) = .ok true := by
  have hunbroken : unbroken (fun _ => "id") empty soundRun = true := by decide +kernel
  exact ⟨hunbroken, run_isValid (fun _ => "id") (fun _ => by decide) soundRun hunbroken 7⟩

/-- **Calls that break.** A top-up of an unknown validator throws and leaves an entry without an
account; a deposit to an address that was rotated away makes an account for it; a penalty above the
bonded stake takes it and throws. -/
theorem broken_runs :
    isValid (fun _ => "id") (afterCalls (fun _ => "id")
      [.deposit "alice" "val" ⟨9, by decide⟩ 1 true "t1"]) = .ok false ∧
    isValid (fun _ => "id") (afterCalls (fun _ => "id")
      [.deposit "alice" "val" ⟨9, by decide⟩ 1 false "t1",
        .rotateValidatorAddress "val" "new" "alice" 2 "t2",
        .deposit "alice" "val" ⟨1, by decide⟩ 3 false "t3"]) = .ok false ∧
    isValid (fun _ => "id") (afterCalls (fun _ => "id")
      [.deposit "alice" "val" ⟨9, by decide⟩ 1 false "t1",
        .applyPenaltyState "val" ⟨10, by decide⟩ true false 2]) = .ok false := by
  refine ⟨by rfl, by rfl, by rfl⟩

end StakingRegistry

end Nodo.Model
