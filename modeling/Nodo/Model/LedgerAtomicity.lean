import Nodo.Model.LedgerState

/-!
# Nodo — what an exception leaves in the ledger

`CoinLotRegistry::consumeLotAndCreateOutputs` and the operations of `core/State.cpp`. Each of
them checks its arguments first and writes afterwards, so an exception should leave no trace.
The registry checks every output against the lots it holds, but not against the other outputs;
the state adds the supply last, and the addition may overflow.

## Results

* `consumeLotAndCreateOutputs_all_or_nothing_iff` — a spend of one lot has its whole effect or
  none exactly when an accepted list of outputs names no id twice.
* `State.atomic_iff` — for each operation of the state, the condition under which an exception leaves
  the state as it was.
-/

namespace Nodo.Model

open ThrowingState

--
-- Spending one lot (core/CoinLotRegistry.cpp)
--

namespace CoinLotRegistry

open CoinLotTransactionValidator (mutateAll Added addLot_all)

/-- `assertLotCanBeAdded`. -/
def assertLotCanBeAdded (registry : CoinLotRegistry) (lot : CoinLot) : Except String Unit :=
  if !lot.isValid then .error "Invalid CoinLot cannot be added to registry."
  else if lot.id.isEmpty then .error "CoinLot id cannot be empty."
  else if registry.hasLot lot.id then .error "CoinLot id already exists in registry."
  else .ok ()

/-- One turn of the loop over the outputs, before the first mutation. -/
def checkOutput (registry : CoinLotRegistry) (outputLot : CoinLot) : Except String Unit := do
  registry.assertLotCanBeAdded outputLot
  if !outputLot.isAvailable then throw "Output CoinLot must be available."

def sumLots (lots : List CoinLot) : Except String Amount :=
  lots.foldlM (fun total lot => total.plus lot.amount) Amount.zero

/-- The checks of `consumeLotAndCreateOutputs`, and the input lot after `markSpent`. -/
def checkSpend (registry : CoinLotRegistry) (inputLotId expectedOwner : String)
    (outputLots : List CoinLot) : Except String CoinLot :=
  if outputLots.isEmpty then .error "CoinLot spend must create at least one output lot."
  else match registry.verifySpendable inputLotId expectedOwner with
    | some reason => .error ("Input CoinLot is not spendable: " ++ reason)
    | none => do
      outputLots.forM registry.checkOutput
      let input ← registry.lot inputLotId
      let outputAmount ← sumLots outputLots
      if input.amount != outputAmount then
        throw "CoinLot spend outputs must exactly equal input amount."
      match registry.lots.find? inputLotId with
      | none => throw "Input CoinLot disappeared from registry."
      | some found => found.markSpent

/-- `consumeLotAndCreateOutputs`: how it ends, and the registry it leaves. -/
def consumeLotAndCreateOutputs (registry : CoinLotRegistry) (inputLotId expectedOwner : String)
    (outputLots : List CoinLot) : Except String Unit × CoinLotRegistry :=
  match registry.checkSpend inputLotId expectedOwner outputLots with
  | .error reason => (.error reason, registry)
  | .ok spent => mutateAll addLot outputLots ⟨registry.lots.insert inputLotId spent⟩

/-- The outputs are worth the input. -/
def Balanced (registry : CoinLotRegistry) (inputLotId : String) (outputLots : List CoinLot) :
    Prop :=
  ∃ input, registry.lots.find? inputLotId = some input ∧
    (outputLots.map (·.amount.rawUnits)).sum = input.amount.rawUnits

/-- A spend that passes the checks. -/
structure SpendAccepted (registry : CoinLotRegistry) (inputLotId expectedOwner : String)
    (outputLots : List CoinLot) : Prop where
  outputs : outputLots ≠ []
  spendable : registry.verifySpendable inputLotId expectedOwner = none
  addable : ∀ lot ∈ outputLots,
    lot.isValid = true ∧ registry.hasLot lot.id = false ∧ lot.isAvailable = true
  balanced : registry.Balanced inputLotId outputLots

/-- The whole effect of a spend: the input is spent, the outputs are there, each under an id of
its own, and no other lot changed. -/
structure SpendEffect (registry : CoinLotRegistry) (inputLotId : String)
    (outputLots : List CoinLot) (final : CoinLotRegistry) : Prop where
  spent : ∃ input, registry.lots.find? inputLotId = some input ∧
    final.lots.find? inputLotId = some (spentLot input)
  balanced : registry.Balanced inputLotId outputLots
  created : ∀ lot ∈ outputLots, registry.lots.find? lot.id = none ∧
    final.lots.find? lot.id = some lot
  distinct : (outputLots.map (·.id)).Nodup
  frame : ∀ id, id ≠ inputLotId → id ∉ outputLots.map (·.id) →
    final.lots.find? id = registry.lots.find? id

variable {registry : CoinLotRegistry} {inputLotId expectedOwner : String}
  {outputLots : List CoinLot}

theorem hasLot_eq_false {id : String} :
    registry.hasLot id = false ↔ registry.lots.find? id = none := by
  rw [hasLot, SortedMap.contains, Option.isSome_eq_false_iff, Option.isNone_iff_eq_none]

theorem checkOutput_eq_ok {lot : CoinLot} :
    registry.checkOutput lot = .ok () ↔
      lot.isValid = true ∧ registry.hasLot lot.id = false ∧ lot.isAvailable = true := by
  unfold checkOutput assertLotCanBeAdded
  cases hvalid : lot.isValid with
  | false => simp [bind, Except.bind]
  | true =>
    have hid := CoinLot.id_nonempty hvalid
    cases hknown : registry.hasLot lot.id <;> cases havailable : lot.isAvailable <;>
      simp [hid, bind, Except.bind, pure, Except.pure, throw, throwThe, MonadExceptOf.throw]

/-- The sum of the code is the sum of the amounts, and throws where that does not fit. -/
theorem sumLots_eq_ok {lots : List CoinLot} {total : Amount} :
    sumLots lots = .ok total ↔ (lots.map (·.amount.rawUnits)).sum = total.rawUnits := by
  have hfold : ∀ (lots : List CoinLot) (start : Amount),
      lots.foldlM (fun total lot => Amount.plus total lot.amount) start = .ok total ↔
        start.rawUnits + (lots.map (·.amount.rawUnits)).sum = total.rawUnits := by
    intro lots
    induction lots with
    | nil =>
      intro start
      constructor
      · intro h
        cases h
        rfl
      · intro h
        exact congrArg Except.ok (Amount.ext h)
    | cons lot rest ih =>
      intro start
      rw [List.foldlM_cons, List.map_cons, List.sum_cons, ← Nat.add_assoc]
      cases hplus : start.plus lot.amount with
      | ok sum =>
        rw [← Amount.plus_eq_ok hplus]
        exact ih sum
      | error reason =>
        constructor
        · intro h
          cases h
        · intro h
          have hmax := total.inRange
          obtain ⟨sum, hsum, -⟩ := @Amount.plus_ok start lot.amount (by omega)
          rw [hplus] at hsum
          cases hsum
  rw [sumLots, hfold]
  show 0 + _ = _ ↔ _
  rw [Nat.zero_add]

theorem markSpent_of_spendable {input : CoinLot}
    (h : registry.verifySpendable inputLotId expectedOwner = none)
    (hfind : registry.lots.find? inputLotId = some input) :
    input.markSpent = .ok (spentLot input) := by
  obtain ⟨lot, hlot, -, -, havailable⟩ := verifySpendable_eq_none h
  obtain rfl := Option.some.inj (hfind.symm.trans hlot)
  have hspendable : input.isSpendable = true := havailable
  rw [CoinLot.markSpent, hspendable]
  rfl

/-- The checks pass exactly on the spends described. -/
theorem checkSpend_of_accepted
    (h : SpendAccepted registry inputLotId expectedOwner outputLots) :
    ∃ input, registry.lots.find? inputLotId = some input ∧
      registry.checkSpend inputLotId expectedOwner outputLots = .ok (spentLot input) := by
  obtain ⟨input, hfind, hsum⟩ := h.balanced
  refine ⟨input, hfind, ?_⟩
  have hchecked : outputLots.forM registry.checkOutput = .ok () :=
    Guards.forM_eq_ok.mpr (fun lot hmem => checkOutput_eq_ok.mpr (h.addable lot hmem))
  unfold checkSpend
  rw [if_neg (by simpa using h.outputs), h.spendable]
  simp only [hchecked, lot, hfind, sumLots_eq_ok.mpr hsum, Guards.ok_bind, bne_self_eq_false,
    Bool.false_eq_true, if_false]
  exact markSpent_of_spendable h.spendable hfind

theorem accepted_of_checkSpend {spent : CoinLot}
    (h : registry.checkSpend inputLotId expectedOwner outputLots = .ok spent) :
    SpendAccepted registry inputLotId expectedOwner outputLots := by
  unfold checkSpend at h
  obtain ⟨hempty, h⟩ := Guards.ok_of_ite_error h
  cases hspendable : registry.verifySpendable inputLotId expectedOwner with
  | some reason =>
    rw [hspendable] at h
    cases h
  | none =>
    rw [hspendable] at h
    obtain ⟨_, hchecked, h⟩ := Guards.ok_of_bind h
    obtain ⟨input, hinput, h⟩ := Guards.ok_of_bind h
    obtain ⟨total, htotal, h⟩ := Guards.ok_of_bind h
    have hsame : input.amount = total := by
      by_contra hne
      rw [if_pos (by simpa using hne)] at h
      cases h
    have hfind : registry.lots.find? inputLotId = some input := by
      unfold CoinLotRegistry.lot at hinput
      split at hinput
      · cases hinput
      · rename_i hfound
        rw [hfound, Except.ok.inj hinput]
    refine ⟨by simpa using hempty, hspendable, ?_, input, hfind, ?_⟩
    · exact fun lot hmem => checkOutput_eq_ok.mp (Guards.forM_eq_ok.mp hchecked lot hmem)
    · rw [hsame]
      exact sumLots_eq_ok.mp htotal

/-- A refused spend leaves the registry as it was. -/
theorem consume_of_refused (h : ¬ SpendAccepted registry inputLotId expectedOwner outputLots) :
    ∃ reason, registry.consumeLotAndCreateOutputs inputLotId expectedOwner outputLots
      = (.error reason, registry) := by
  unfold consumeLotAndCreateOutputs
  cases hcheck : registry.checkSpend inputLotId expectedOwner outputLots with
  | error reason => exact ⟨reason, rfl⟩
  | ok spent => exact absurd (accepted_of_checkSpend hcheck) h

theorem consume_of_accepted (h : SpendAccepted registry inputLotId expectedOwner outputLots) :
    ∃ input, registry.lots.find? inputLotId = some input ∧
      registry.consumeLotAndCreateOutputs inputLotId expectedOwner outputLots
        = mutateAll addLot outputLots ⟨registry.lots.insert inputLotId (spentLot input)⟩ := by
  obtain ⟨input, hfind, hcheck⟩ := checkSpend_of_accepted h
  refine ⟨input, hfind, ?_⟩
  unfold consumeLotAndCreateOutputs
  rw [hcheck]

/-- The additions overwrite nothing, also where they stop. -/
theorem mutateAll_addLot_keeps {id : String} {held : CoinLot}
    (h : registry.lots.find? id = some held) :
    (mutateAll addLot outputLots registry).2.lots.find? id = some held := by
  induction outputLots generalizing registry with
  | nil => exact h
  | cons lot rest ih =>
    rw [mutateAll]
    cases hadd : registry.addLot lot with
    | error reason => exact h
    | ok extended =>
      obtain ⟨-, hfresh, rfl⟩ := of_addLot hadd
      refine ih ?_
      rw [SortedMap.find?_insert_of_ne, h]
      rintro rfl
      rw [hfresh] at h
      cases h

/-- Additions that all went through had distinct ids. -/
theorem nodup_of_mutateAll_addLot {final : CoinLotRegistry}
    (h : mutateAll addLot outputLots registry = (.ok (), final)) :
    (outputLots.map (·.id)).Nodup ∧ ∀ lot ∈ outputLots, registry.lots.find? lot.id = none := by
  induction outputLots generalizing registry with
  | nil => exact ⟨List.nodup_nil, by simp⟩
  | cons lot rest ih =>
    rw [mutateAll] at h
    cases hadd : registry.addLot lot with
    | error reason =>
      rw [hadd] at h
      cases h
    | ok extended =>
      rw [hadd] at h
      obtain ⟨-, hfresh, rfl⟩ := of_addLot hadd
      obtain ⟨hnodup, hnew⟩ := ih h
      have hother : ∀ other ∈ rest, lot.id ≠ other.id := by
        intro other hmem hsame
        have hnone := hnew other hmem
        rw [← hsame, SortedMap.find?_insert_self] at hnone
        cases hnone
      constructor
      · rw [List.map_cons, List.nodup_cons]
        refine ⟨fun hmem => ?_, hnodup⟩
        obtain ⟨other, hin, hsame⟩ := List.mem_map.mp hmem
        exact hother other hin hsame.symm
      · refine List.forall_mem_cons.mpr ⟨hfresh, fun other hmem => ?_⟩
        rw [← hnew other hmem]
        exact (registry.lots.find?_insert_of_ne _ (hother other hmem)).symm

end CoinLotRegistry

namespace CoinLotRegistry

open CoinLotTransactionValidator (mutateAll Added addLot_all)

variable {registry : CoinLotRegistry} {inputLotId expectedOwner : String}
  {outputLots : List CoinLot}

/-- An accepted spend with distinct ids has its whole effect. -/
theorem consume_of_distinct (h : SpendAccepted registry inputLotId expectedOwner outputLots)
    (hdistinct : (outputLots.map (·.id)).Nodup) :
    ∃ final, registry.consumeLotAndCreateOutputs inputLotId expectedOwner outputLots
        = (.ok (), final) ∧ SpendEffect registry inputLotId outputLots final := by
  obtain ⟨input, hfind, hrun⟩ := consume_of_accepted h
  have hfresh : ∀ lot ∈ outputLots, registry.lots.find? lot.id = none := fun lot hmem =>
    hasLot_eq_false.mp (h.addable lot hmem).2.1
  -- the input is held, so no output has its id
  have hother : ∀ lot ∈ outputLots, inputLotId ≠ lot.id := by
    rintro lot hmem rfl
    rw [hfresh lot hmem] at hfind
    cases hfind
  obtain ⟨final, hadd, hadded⟩ :=
    @addLot_all ⟨registry.lots.insert inputLotId (spentLot input)⟩ outputLots hdistinct (by
      intro lot hmem
      refine ⟨(h.addable lot hmem).1, ?_⟩
      rw [registry.lots.find?_insert_of_ne _ (hother lot hmem)]
      exact hfresh lot hmem)
  have hinput : inputLotId ∉ outputLots.map (·.id) := by
    intro hmem
    obtain ⟨lot, hlot, hsame⟩ := List.mem_map.mp hmem
    exact hother lot hlot hsame.symm
  refine ⟨final, hrun.trans hadd, ⟨input, hfind, ?_⟩, h.balanced,
    fun lot hmem => ⟨hfresh lot hmem, hadded.added lot hmem⟩, hdistinct, ?_⟩
  · rw [hadded.frame hinput]
    exact registry.lots.find?_insert_self _ _
  · intro id hid hmem
    rw [hadded.frame hmem]
    exact registry.lots.find?_insert_of_ne _ (Ne.symm hid)

/-- An accepted spend whose outputs share an id throws half way: the input is spent by then. -/
theorem consume_of_repeated (h : SpendAccepted registry inputLotId expectedOwner outputLots)
    (hrepeated : ¬ (outputLots.map (·.id)).Nodup) :
    ∃ reason left, registry.consumeLotAndCreateOutputs inputLotId expectedOwner outputLots
        = (.error reason, left) ∧ left ≠ registry := by
  obtain ⟨input, hfind, hrun⟩ := consume_of_accepted h
  rw [hrun]
  have hkept := @mutateAll_addLot_keeps ⟨registry.lots.insert inputLotId (spentLot input)⟩ outputLots
    inputLotId (spentLot input) (registry.lots.find?_insert_self _ _)
  cases hadd : mutateAll addLot outputLots ⟨registry.lots.insert inputLotId (spentLot input)⟩ with
  | mk outcome left =>
    rw [hadd] at hkept
    cases outcome with
    | ok u => exact absurd (nodup_of_mutateAll_addLot hadd).1 hrepeated
    | error reason =>
      refine ⟨reason, left, rfl, ?_⟩
      rintro rfl
      obtain ⟨lot, hlot, -, -, havailable⟩ := verifySpendable_eq_none h.spendable
      obtain rfl := Option.some.inj (hlot.symm.trans hkept)
      cases havailable

/-- **All or nothing, unless two outputs share an id.** -/
theorem consumeLotAndCreateOutputs_all_or_nothing_iff (registry : CoinLotRegistry)
    (inputLotId expectedOwner : String) (outputLots : List CoinLot) :
    ((∃ final, registry.consumeLotAndCreateOutputs inputLotId expectedOwner outputLots
          = (.ok (), final) ∧ SpendEffect registry inputLotId outputLots final) ∨
        ∃ reason, registry.consumeLotAndCreateOutputs inputLotId expectedOwner outputLots
          = (.error reason, registry)) ↔
      (SpendAccepted registry inputLotId expectedOwner outputLots →
        (outputLots.map (·.id)).Nodup) := by
  by_cases haccepted : SpendAccepted registry inputLotId expectedOwner outputLots
  · refine ⟨fun h _ => ?_, fun h => Or.inl (consume_of_distinct haccepted (h haccepted))⟩
    by_contra hrepeated
    obtain ⟨reason, left, hthrow, hchanged⟩ := consume_of_repeated haccepted hrepeated
    rcases h with ⟨final, hrun, -⟩ | ⟨reason', hrun⟩
    · rw [hthrow] at hrun
      cases hrun
    · rw [hthrow] at hrun
      cases hrun
      exact hchanged rfl
  · exact ⟨fun _ h => absurd h haccepted, fun _ => Or.inr (consume_of_refused haccepted)⟩

/-- Two and three units for `bob`, both under the id `lot-2`. -/
def twinOutputs : List CoinLot :=
  [⟨"lot-2", "mint-1", "bob", ⟨2, Amount.two_inRange⟩, .available, 2, 0, 10⟩,
    ⟨"lot-2", "mint-1", "bob", ⟨3, Amount.three_inRange⟩, .available, 2, 0, 10⟩]

/-- **Three units vanish.** The second output is refused after the input was spent. -/
theorem twin_outputs_burn :
    (oneLot "alice").isValid = true ∧
      ¬ ((∃ final, (oneLot "alice").consumeLotAndCreateOutputs "lot-1" "alice" twinOutputs
            = (.ok (), final) ∧ SpendEffect (oneLot "alice") "lot-1" twinOutputs final) ∨
          ∃ reason, (oneLot "alice").consumeLotAndCreateOutputs "lot-1" "alice" twinOutputs
            = (.error reason, oneLot "alice")) := by
  have hvalid : (oneLot "alice").isValid = true := by decide
  have haccepted : SpendAccepted (oneLot "alice") "lot-1" "alice" twinOutputs :=
    ⟨by decide, by decide, by decide, _, rfl, rfl⟩
  refine ⟨hvalid, fun h => ?_⟩
  obtain ⟨reason, left, hthrow, hchanged⟩ := consume_of_repeated haccepted (by decide)
  rcases h with ⟨final, hrun, -⟩ | ⟨reason', hrun⟩
  · rw [hthrow] at hrun
    cases hrun
  · rw [hthrow] at hrun
    cases hrun
    exact hchanged rfl

end CoinLotRegistry

--
-- The operations of the state (core/State.cpp)
--

namespace State

open CoinLotTransactionValidator (validateTransferTransaction buildTransferPlan
  checkBeforeApplication applyTransfer)

/-- The lots of the state make a registry, which has room for this lot. -/
def HasRoomFor (state : State) (lot : CoinLot) : Prop :=
  LotsOk state.coinLots ∧ lot.id ∉ state.coinLots.map (·.id)

/-- What the creation of coins rests on once its arguments are checked: if the lot can be added,
the supply can grow; if not, no account was created for it. -/
structure CreationSafe (state : State) (ownerAddress : String) (lot : CoinLot) : Prop where
  added : state.HasRoomFor lot →
    state.totalSupply.rawUnits + lot.amount.rawUnits ≤ maxRawUnits
  refused : ¬ state.HasRoomFor lot → HasAccount state.accounts ownerAddress

/-- The lot of a mint record. -/
def mintLot (state : State) (mintRecord : MintRecord) : CoinLot :=
  ⟨"coinlot_from_" ++ mintRecord.id, mintRecord.id, mintRecord.recipientAddress,
    mintRecord.amount, .available, state.currentBlockIndex, 0, mintRecord.timestamp⟩

/-- The checks of a transfer before the first write. -/
structure TransferAccepted (state : State) (transaction : Transaction) (sender : Account) :
    Prop where
  type : transaction.type = .transfer
  id : transaction.id.isEmpty = false
  addresses : transaction.fromAddress.isEmpty = false ∧ transaction.toAddress.isEmpty = false
  others : transaction.fromAddress ≠ transaction.toAddress
  amounts : transaction.amount.isPositive = true ∧ transaction.fee.isNegative = false
  nonce : transaction.nonce ≠ 0
  fresh : state.isTransactionAlreadyApplied transaction.id = false
  found : state.findAccount transaction.fromAddress = some sender
  next : sender.canApplyNonce transaction.nonce = true
  lots : ∃ registry plan, CoinLotRegistry.fromCoinLots state.coinLots = .ok registry ∧
    validateTransferTransaction transaction registry = .ok none ∧
    buildTransferPlan transaction registry state.currentBlockIndex = .ok plan ∧
    checkBeforeApplication registry transaction.fromAddress plan = .ok ()

/-- The recipient, and the pool if there is a fee, have accounts. -/
def ReceiversKnown (state : State) (transaction : Transaction) : Prop :=
  HasAccount state.accounts transaction.toAddress ∧
    (transaction.fee.isPositive = true → HasAccount state.accounts feePoolAddress)

/-- The account's nonce and block can move on. -/
def CanAdvance (state : State) (sender : Account) : Prop :=
  sender.nextNonce ≠ uint64Max ∧ sender.lastUpdatedAtBlock ≤ state.currentBlockIndex

/-- The condition under which an exception of this operation leaves no trace. -/
def AtomicWhen (hashBytes : String → String) (state : State) : Operation → Prop
  | .applyMintRecord mintRecord =>
    mintRecord.isValid = true → state.hasLegacyMintRecord mintRecord.id = false →
      CreationSafe state mintRecord.recipientAddress (mintLot state mintRecord)
  | .applyGenesisRewardRecord record => ∀ rewardId lot,
    record.deterministicId hashBytes = .ok rewardId →
      state.hasGenesisRewardRecord hashBytes rewardId = .ok false →
      record.createRewardCoinLot hashBytes state.currentBlockIndex = .ok lot →
      lot.isValid = true → CreationSafe state record.validatorAddress lot
  | .applyTransferTransaction transaction => ∀ sender,
    TransferAccepted state transaction sender →
      CanAdvance state sender ∨ ReceiversKnown state transaction
  | .lockCoinLotForSecurity _ _ => True
  | .advanceBlock => True

variable {hashBytes : String → String} {state state' : State}

--
-- Creating coins
--

theorem withAccount_eq_self_iff {address : String} :
    state.withAccount address = state ↔ HasAccount state.accounts address := by
  unfold withAccount
  cases hfind : state.findAccount address with
  | some account => exact ⟨fun _ => ⟨account, findAccount_eq_some hfind⟩, fun _ => rfl⟩
  | none =>
    constructor
    · intro h
      have hlength := congrArg (fun state : State => state.accounts.length) h
      simp only [List.length_append, List.length_singleton] at hlength
      omega
    · rintro ⟨account, hmem, rfl⟩
      exact absurd (beq_self_eq_true _) (List.find?_eq_none.mp hfind account hmem)

theorem ensureAccountExists_run {address : String} (h : address.isEmpty = false) :
    ensureAccountExists address state = .ok () (state.withAccount address) := by
  unfold ensureAccountExists withAccount
  rw [run_refuseIf h, run_get]
  cases hfind : state.findAccount address with
  | some account => rfl
  | none =>
    have hvalid : (Account.create address state.currentBlockIndex).isValid = true := by
      simp [Account.isValid, Account.create, h]
    simp only
    rw [run_refuseIf (by rw [hvalid]; rfl)]
    rfl

theorem replaceCoinLotsFromRegistry_run {registry : CoinLotRegistry}
    (h : registry.isValid = true) :
    replaceCoinLotsFromRegistry registry state
      = .ok () { state with coinLots := registry.lots.entries.map (·.2) } := by
  unfold replaceCoinLotsFromRegistry
  rw [run_refuseIf (by rw [h]; rfl)]
  rfl

/-- Lots that a registry was built from are valid and have distinct ids. -/
theorem lotsOk_of_fromCoinLots {lots : List CoinLot} {registry : CoinLotRegistry}
    (h : CoinLotRegistry.fromCoinLots lots = .ok registry) : LotsOk lots := by
  have hfold : ∀ (lots : List CoinLot) (start final : CoinLotRegistry),
      lots.foldlM CoinLotRegistry.addLot start = .ok final →
      (∀ lot ∈ lots, lot.isValid = true ∧ start.lots.find? lot.id = none) ∧
        (lots.map (·.id)).Nodup := by
    intro lots
    induction lots with
    | nil => exact fun _ _ _ => ⟨by simp, List.nodup_nil⟩
    | cons lot rest ih =>
      intro start final hrun
      rw [List.foldlM_cons] at hrun
      obtain ⟨extended, hadd, hrest⟩ := Guards.ok_of_bind hrun
      obtain ⟨hvalid, hfresh, rfl⟩ := CoinLotRegistry.of_addLot hadd
      obtain ⟨hnew, hnodup⟩ := ih _ final hrest
      have hother : ∀ other ∈ rest, lot.id ≠ other.id := by
        intro other hmem hsame
        have hnone := (hnew other hmem).2
        rw [← hsame, SortedMap.find?_insert_self] at hnone
        cases hnone
      constructor
      · refine List.forall_mem_cons.mpr ⟨⟨hvalid, hfresh⟩, fun other hmem => ?_⟩
        refine ⟨(hnew other hmem).1, ?_⟩
        rw [← (hnew other hmem).2]
        exact (start.lots.find?_insert_of_ne _ (hother other hmem)).symm
      · rw [List.map_cons, List.nodup_cons]
        refine ⟨fun hmem => ?_, hnodup⟩
        obtain ⟨other, hin, hsame⟩ := List.mem_map.mp hmem
        exact hother other hin hsame.symm
  obtain ⟨hvalid, hnodup⟩ := hfold lots _ registry h
  exact ⟨fun lot hmem => (hvalid lot hmem).1, hnodup⟩

/-- The registry of a state holds its lots under their ids. -/
theorem find?_fromCoinLots {lots : List CoinLot} {registry : CoinLotRegistry}
    (h : CoinLotRegistry.fromCoinLots lots = .ok registry) {id : String} :
    registry.lots.find? id = none ↔ id ∉ lots.map (·.id) := by
  have hfold : ∀ (lots : List CoinLot) (start final : CoinLotRegistry),
      lots.foldlM CoinLotRegistry.addLot start = .ok final →
      (final.lots.find? id = none ↔ start.lots.find? id = none ∧ id ∉ lots.map (·.id)) := by
    intro lots
    induction lots with
    | nil =>
      intro start final hrun
      cases hrun
      simp
    | cons lot rest ih =>
      intro start final hrun
      rw [List.foldlM_cons] at hrun
      obtain ⟨extended, hadd, hrest⟩ := Guards.ok_of_bind hrun
      obtain ⟨-, -, rfl⟩ := CoinLotRegistry.of_addLot hadd
      rw [ih _ final hrest, SortedMap.find?_insert, List.map_cons, List.mem_cons, not_or]
      by_cases hsame : lot.id = id
      · rw [if_pos hsame]
        refine ⟨fun h => (Option.some_ne_none _ h.1).elim, fun h => absurd hsame.symm h.2.1⟩
      · rw [if_neg hsame]
        exact ⟨fun h => ⟨h.1, Ne.symm hsame, h.2⟩, fun h => ⟨h.1, h.2.2⟩⟩
  rw [hfold lots _ registry h]
  exact ⟨fun h => h.2, fun h => ⟨rfl, h⟩⟩

/-- A creation that has room: the lot is there and the supply is not touched. -/
theorem createCoinLot_run {ownerAddress : String} {lot : CoinLot}
    (howner : ownerAddress.isEmpty = false) (hvalid : lot.isValid = true)
    (hroom : state.HasRoomFor lot) :
    ∃ after, createCoinLot ownerAddress lot state = .ok () after ∧
      after.totalSupply = state.totalSupply ∧ lot ∈ after.coinLots := by
  obtain ⟨registry, hbuilt, hholds⟩ := fromCoinLots_ok hroom.1
  have hkept : (state.withAccount ownerAddress).coinLots = state.coinLots := by
    rw [withAccount_eq]
  have hadd := CoinLotRegistry.addLot_ok hvalid ((find?_fromCoinLots hbuilt).mpr hroom.2)
  have hregistry : coinLotRegistry (state.withAccount ownerAddress)
      = .ok registry (state.withAccount ownerAddress) := by
    unfold coinLotRegistry
    rw [run_get, hkept, hbuilt]
    rfl
  refine ⟨{ state.withAccount ownerAddress with
    coinLots := (registry.lots.insert lot.id lot).entries.map (·.2) }, ?_, ?_, ?_⟩
  · unfold createCoinLot
    rw [run_bind (ensureAccountExists_run howner), run_bind hregistry, run_call hadd]
    exact replaceCoinLotsFromRegistry_run (isValid_insert hholds.valid hvalid)
  · show (state.withAccount ownerAddress).totalSupply = _
    rw [withAccount_eq]
  · exact List.mem_map.mpr ⟨(lot.id, lot), (SortedMap.find?_eq_some_iff _).mp
      (registry.lots.find?_insert_self _ _), rfl⟩

/-- A creation without room throws once the account is there. -/
theorem createCoinLot_throws {ownerAddress : String} {lot : CoinLot}
    (howner : ownerAddress.isEmpty = false) (hroom : ¬ state.HasRoomFor lot) :
    ∃ reason, createCoinLot ownerAddress lot state
      = .error reason (state.withAccount ownerAddress) := by
  have hkept : (state.withAccount ownerAddress).coinLots = state.coinLots := by
    rw [withAccount_eq]
  unfold createCoinLot
  rw [run_bind (ensureAccountExists_run howner)]
  unfold coinLotRegistry
  cases hbuilt : CoinLotRegistry.fromCoinLots state.coinLots with
  | error reason =>
    refine ⟨reason, ?_⟩
    show EStateM.bind _ _ _ = _
    unfold EStateM.bind
    rw [run_get, hkept, hbuilt]
    rfl
  | ok registry =>
    have hregistry : (get >>= fun state => call (CoinLotRegistry.fromCoinLots state.coinLots))
        (state.withAccount ownerAddress)
        = EStateM.Result.ok registry (state.withAccount ownerAddress) := by
      rw [run_get, hkept, hbuilt]
      rfl
    rw [run_bind hregistry]
    cases hadd : registry.addLot lot with
    | error reason => exact ⟨reason, rfl⟩
    | ok extended =>
      obtain ⟨-, hfresh, -⟩ := CoinLotRegistry.of_addLot hadd
      exact absurd ⟨lotsOk_of_fromCoinLots hbuilt, (find?_fromCoinLots hbuilt).mp hfresh⟩ hroom

end State

namespace State

open CoinLotTransactionValidator (validateTransferTransaction buildTransferPlan
  checkBeforeApplication applyTransfer applyTransfer_of_checked applyTransfer_run
  transferEffect_of_run)

variable {hashBytes : String → String} {state state' : State}

/-- The tail that both creations share: the lot, the record, the supply. -/
theorem onThrow_creation {ownerAddress : String} {lot : CoinLot} (append : State → State)
    (hsupply : ∀ state, (append state).totalSupply = state.totalSupply)
    (hlots : ∀ state, (append state).coinLots = state.coinLots)
    (howner : ownerAddress.isEmpty = false) (hvalid : lot.isValid = true) :
    AtomicAt (do
      createCoinLot ownerAddress lot
      modify append
      let state ← get
      let supply ← call (state.totalSupply.plus lot.amount)
      set { state with totalSupply := supply }) state ↔ CreationSafe state ownerAddress lot := by
  by_cases hroom : state.HasRoomFor lot
  · obtain ⟨after, hrun, htotal, hmem⟩ := createCoinLot_run howner hvalid hroom
    unfold AtomicAt
    rw [onThrow_bind_of_ok hrun, onThrow_modify, onThrow_get, hsupply, htotal]
    cases hplus : state.totalSupply.plus lot.amount with
    | ok supply =>
      have hfits : state.totalSupply.rawUnits + lot.amount.rawUnits ≤ maxRawUnits := by
        rw [← Amount.plus_eq_ok hplus]
        exact supply.inRange
      exact ⟨fun _ => ⟨fun _ => hfits, fun hno => absurd hroom hno⟩,
        fun _ => onThrow_of_ok rfl⟩
    | error reason =>
      rw [onThrow_bind_of_error (show call (Except.error reason : Except String Amount) _ = _
        from rfl)]
      constructor
      · intro hsame
        have hheld : lot ∈ state.coinLots := by
          rw [← hsame, hlots]
          exact hmem
        exact absurd (List.mem_map_of_mem hheld) hroom.2
      · intro hsafe
        obtain ⟨supply, hok, -⟩ := Amount.plus_ok (hsafe.added hroom)
        rw [hplus] at hok
        cases hok
  · obtain ⟨reason, hthrow⟩ := @createCoinLot_throws state ownerAddress lot howner hroom
    unfold AtomicAt
    rw [onThrow_bind_of_error hthrow, withAccount_eq_self_iff]
    exact ⟨fun h => ⟨fun hyes => absurd hyes hroom, fun _ => h⟩, fun h => h.refused hroom⟩

theorem mintLot_isValid {mintRecord : MintRecord} (h : mintRecord.isValid = true) :
    (mintLot state mintRecord).isValid = true ∧ mintRecord.recipientAddress.isEmpty = false := by
  unfold MintRecord.isValid at h
  obtain ⟨hid, h⟩ := Guards.true_of_ite_false h
  obtain ⟨-, h⟩ := Guards.true_of_ite_false h
  obtain ⟨howner, h⟩ := Guards.true_of_ite_false h
  obtain ⟨hamount, h⟩ := Guards.true_of_ite_false h
  obtain ⟨-, h⟩ := Guards.true_of_ite_false h
  obtain ⟨htime, -⟩ := Guards.true_of_ite_false h
  have hlotId : ¬ ("coinlot_from_" ++ mintRecord.id).isEmpty = true := by
    rw [String.isEmpty_iff, String.append_eq_empty_iff]
    exact fun h => absurd h.1 (by decide)
  refine ⟨?_, by simpa using howner⟩
  unfold CoinLot.isValid mintLot
  simp only [if_neg hlotId, if_neg hid, if_neg howner, if_neg hamount, if_neg htime]
  rfl

theorem applyMintRecord_atomicAt_iff (mintRecord : MintRecord) :
    AtomicAt (applyMintRecord mintRecord) state ↔
      AtomicWhen hashBytes state (.applyMintRecord mintRecord) := by
  unfold applyMintRecord AtomicWhen
  rw [atomicAt_refuseIf, Bool.not_eq_false']
  refine forall_congr' (fun hvalid => ?_)
  obtain ⟨hlot, howner⟩ := @mintLot_isValid state mintRecord hvalid
  rw [atomicAt_get, atomicAt_refuseIf]
  refine forall_congr' (fun _ => ?_)
  rw [atomicAt_refuseIf]
  change ((!(mintLot state mintRecord).isValid) = false → _) ↔ _
  rw [Bool.not_eq_false', forall_prop_of_true hlot]
  exact onThrow_creation _ (fun _ => rfl) (fun _ => rfl) howner hlot

/-- The record joins the others. -/
def appendReward (record : GenesisRewardRecord) (state : State) : State :=
  { state with genesisRewardRecords := state.genesisRewardRecords ++ [record] }

theorem createRewardCoinLot_ok {record : GenesisRewardRecord} {createdAtBlock : UInt64}
    {rewardId : String} (hvalid : record.isValid = true)
    (h : record.deterministicId hashBytes = .ok rewardId) :
    ∃ lot, record.createRewardCoinLot hashBytes createdAtBlock = .ok lot ∧
      lot.originMintRecordId = rewardId ∧ lot.amount = record.amount := by
  unfold GenesisRewardRecord.createRewardCoinLot
  rw [if_neg (by rw [hvalid]; exact Bool.false_ne_true), h]
  exact ⟨_, rfl, rfl, rfl⟩

theorem applyGenesisRewardRecord_atomicAt_iff (record : GenesisRewardRecord) :
    AtomicAt (applyGenesisRewardRecord hashBytes record) state ↔
      AtomicWhen hashBytes state (.applyGenesisRewardRecord record) := by
  unfold applyGenesisRewardRecord AtomicWhen
  rw [atomicAt_refuseIf, Bool.not_eq_false']
  cases hvalid : record.isValid with
  | false =>
    refine ⟨fun _ rewardId lot hid => ?_, fun _ h => absurd h Bool.false_ne_true⟩
    unfold GenesisRewardRecord.deterministicId at hid
    rw [hvalid] at hid
    cases hid
  | true =>
    have howner : record.validatorAddress.isEmpty = false := by
      unfold GenesisRewardRecord.isValid at hvalid
      obtain ⟨-, hvalid⟩ := Guards.true_of_ite_false hvalid
      obtain ⟨howner, -⟩ := Guards.true_of_ite_false hvalid
      simpa using howner
    rw [forall_prop_of_true rfl, atomicAt_call]
    refine forall_congr' (fun rewardId => ?_)
    constructor
    · intro h lot hid hnew hlot hok
      have h := atomicAt_get.mp (h hid)
      have h := atomicAt_refuseIf.mp (atomicAt_call.mp h false hnew) rfl
      have h := atomicAt_refuseIf.mp (atomicAt_call.mp h lot hlot) (by rw [hok]; rfl)
      obtain ⟨lot', hlot', horigin, hamount⟩ :=
        @createRewardCoinLot_ok hashBytes record state.currentBlockIndex rewardId hvalid hid
      obtain rfl := Except.ok.inj (hlot.symm.trans hlot')
      have h := atomicAt_refuseIf.mp h (by rw [horigin, bne_self_eq_false])
      rw [← hamount] at h
      exact (onThrow_creation (appendReward record) (fun _ => rfl) (fun _ => rfl) howner hok).mp h
    · intro h hid
      rw [atomicAt_get, atomicAt_call]
      rintro duplicate hnew
      rw [atomicAt_refuseIf]
      rintro rfl
      rw [atomicAt_call]
      intro lot hlot
      rw [atomicAt_refuseIf, Bool.not_eq_false']
      intro hok
      rw [atomicAt_refuseIf]
      intro _
      obtain ⟨lot', hlot', -, hamount⟩ :=
        @createRewardCoinLot_ok hashBytes record state.currentBlockIndex rewardId hvalid hid
      obtain rfl := Except.ok.inj (hlot.symm.trans hlot')
      rw [← hamount]
      exact (onThrow_creation (appendReward record) (fun _ => rfl) (fun _ => rfl) howner hok).mpr
        (h lot hid hnew hlot hok)

end State

namespace State

open CoinLotTransactionValidator (validateTransferTransaction buildTransferPlan
  checkBeforeApplication applyTransfer applyTransfer_of_checked transferEffect_of_run)

variable {hashBytes : String → String} {state state' : State}

--
-- Transfers and locks
--

theorem withReceivers_eq_self_iff {transaction : Transaction} :
    state.withReceivers transaction = state ↔ ReceiversKnown state transaction := by
  unfold withReceivers ReceiversKnown
  split_ifs with hfee
  · constructor
    · intro h
      have haccounts := congrArg (fun state : State => state.accounts) h
      have hto : HasAccount state.accounts transaction.toAddress := by
        rw [← haccounts]
        exact hasAccount_withAccount (hasAccount_withAccount_self _ _)
      have hpool : HasAccount state.accounts feePoolAddress := by
        rw [← haccounts]
        exact hasAccount_withAccount_self _ _
      exact ⟨hto, fun _ => hpool⟩
    · rintro ⟨hto, hpool⟩
      rw [withAccount_eq_self_iff.mpr hto]
      exact withAccount_eq_self_iff.mpr (hpool hfee)
  · rw [withAccount_eq_self_iff]
    exact ⟨fun h => ⟨h, fun hyes => absurd hyes hfee⟩, fun h => h.1⟩

theorem ensureReceivers_run {transaction : Transaction}
    (h : transaction.toAddress.isEmpty = false) :
    ensureReceivers transaction state = .ok () (state.withReceivers transaction) := by
  unfold ensureReceivers withReceivers
  rw [run_bind (ensureAccountExists_run h)]
  split_ifs
  · exact ensureAccountExists_run rfl
  · rfl

theorem findAccount_withAccount {address other : String} {account : Account}
    (h : state.findAccount other = some account) :
    (state.withAccount address).findAccount other = some account := by
  unfold withAccount
  split
  · exact h
  · unfold findAccount at h ⊢
    rw [List.find?_append, h]
    rfl

theorem findAccount_withReceivers {transaction : Transaction} {other : String}
    {account : Account} (h : state.findAccount other = some account) :
    (state.withReceivers transaction).findAccount other = some account := by
  unfold withReceivers
  split_ifs
  · exact findAccount_withAccount (findAccount_withAccount h)
  · exact findAccount_withAccount h

/-- The nonce that the account expects can be marked exactly when the account can advance. -/
theorem markTransactionApplied_run {sender : Account} {nonce : UInt64}
    (h : sender.canApplyNonce nonce = true) :
    (CanAdvance state sender ∧
        ∃ updated, sender.markTransactionApplied nonce state.currentBlockIndex = .ok updated) ∨
      (¬ CanAdvance state sender ∧
        ∃ reason, sender.markTransactionApplied nonce state.currentBlockIndex
          = .error reason) := by
  unfold Account.markTransactionApplied CanAdvance
  rw [if_neg (by rw [h]; exact Bool.false_ne_true)]
  by_cases hmax : sender.nextNonce = uint64Max
  · rw [if_pos (by rw [hmax]; exact beq_self_eq_true _)]
    exact Or.inr ⟨fun hadvance => hadvance.1 hmax, _, rfl⟩
  · rw [if_neg (by rw [beq_iff_eq]; exact hmax)]
    by_cases hblock : state.currentBlockIndex < sender.lastUpdatedAtBlock
    · rw [if_pos hblock]
      refine Or.inr ⟨fun hadvance => ?_, _, rfl⟩
      exact (UInt64.not_lt.mpr hadvance.2) hblock
    · rw [if_neg hblock]
      exact Or.inl ⟨⟨hmax, UInt64.not_lt.mp hblock⟩, _, rfl⟩

/-- The rest of a transfer throws only where the sender's account cannot advance. -/
theorem recordTransfer_atomicAt_iff {transaction : Transaction} {transferred : CoinLotRegistry}
    {sender : Account} (hto : transaction.toAddress.isEmpty = false)
    (hsender : state.findAccount transaction.fromAddress = some sender)
    (hnonce : sender.canApplyNonce transaction.nonce = true)
    (hvalid : transferred.isValid = true) :
    AtomicAt (recordTransfer transaction transferred) state ↔
      CanAdvance state sender ∨ ReceiversKnown state transaction := by
  have hfound := @findAccount_withReceivers state transaction _ sender hsender
  have hindex : (state.withReceivers transaction).currentBlockIndex = state.currentBlockIndex := by
    rw [withReceivers_eq]
  unfold recordTransfer AtomicAt
  rw [onThrow_bind_of_ok (ensureReceivers_run hto), onThrow_get]
  simp only [hfound, hindex]
  rcases @markTransactionApplied_run state sender _ hnonce with
    ⟨hadvance, updated, hmark⟩ | ⟨hstuck, reason, hmark⟩
  · rw [hmark]
    refine ⟨fun _ => Or.inl hadvance, fun _ => ?_⟩
    rw [onThrow_bind_of_ok (show call (Except.ok updated : Except String Account) _ = _ from rfl),
      onThrow_set, onThrow_bind_of_ok (replaceCoinLotsFromRegistry_run hvalid)]
    exact onThrow_of_ok rfl
  · rw [hmark, onThrow_bind_of_error (show call (Except.error reason : Except String Account) _ = _
      from rfl), withReceivers_eq_self_iff]
    exact ⟨Or.inr, fun h => h.resolve_left hstuck⟩

theorem applyTransferTransaction_atomicAt_iff (transaction : Transaction) :
    AtomicAt (applyTransferTransaction transaction) state ↔
      AtomicWhen hashBytes state (.applyTransferTransaction transaction) := by
  unfold applyTransferTransaction AtomicWhen
  constructor
  · intro h sender haccepted
    have h := atomicAt_refuseIf.mp h (by rw [haccepted.type]; rfl)
    have h := atomicAt_refuseIf.mp h haccepted.id
    have h := atomicAt_refuseIf.mp h (by rw [haccepted.addresses.1, haccepted.addresses.2]; rfl)
    have h := atomicAt_refuseIf.mp h (by simpa using haccepted.others)
    have h := atomicAt_refuseIf.mp h (by rw [haccepted.amounts.1]; rfl)
    have h := atomicAt_refuseIf.mp h haccepted.amounts.2
    have h := atomicAt_refuseIf.mp h (by simpa using haccepted.nonce)
    have h := atomicAt_refuseIf.mp (atomicAt_get.mp h) haccepted.fresh
    simp only [haccepted.found] at h
    have h := atomicAt_refuseIf.mp h (by rw [haccepted.next]; rfl)
    obtain ⟨registry, plan, hbuilt, hvalidated, hplan, hcheck⟩ := haccepted.lots
    have hregistry : coinLotRegistry state = .ok registry state := by
      unfold coinLotRegistry
      rw [run_get, hbuilt]
      rfl
    unfold AtomicAt at h
    rw [onThrow_bind_of_ok hregistry] at h
    have h := atomicAt_call.mp h none hvalidated
    obtain ⟨_, selected, change, outputs, spent, final, hrun, -, -, htransfer⟩ :=
      applyTransfer_of_checked hplan hcheck
    simp only [hrun] at h
    have h := atomicAt_call.mp h () rfl
    exact (recordTransfer_atomicAt_iff haccepted.addresses.2 haccepted.found haccepted.next
      (transferEffect_of_run htransfer).valid).mp h
  · intro h
    rw [atomicAt_refuseIf]
    intro htype
    rw [atomicAt_refuseIf]
    intro hid
    rw [atomicAt_refuseIf, Bool.or_eq_false_iff]
    intro haddresses
    rw [atomicAt_refuseIf]
    intro hothers
    rw [atomicAt_refuseIf, Bool.not_eq_false']
    intro hamount
    rw [atomicAt_refuseIf]
    intro hfee
    rw [atomicAt_refuseIf]
    intro hnonce
    rw [atomicAt_get, atomicAt_refuseIf]
    intro hfresh
    cases hsender : state.findAccount transaction.fromAddress with
    | none => exact (atomicAt_of_error rfl).mpr rfl
    | some sender =>
      simp only
      rw [atomicAt_refuseIf, Bool.not_eq_false']
      intro hnext
      unfold coinLotRegistry
      cases hbuilt : CoinLotRegistry.fromCoinLots state.coinLots with
      | error reason =>
        refine (atomicAt_of_error (e := reason) (t := state) ?_).mpr rfl
        show EStateM.bind _ _ _ = _
        unfold EStateM.bind
        rw [run_get, hbuilt]
        rfl
      | ok registry =>
        have hregistry : (get >>= fun state => call (CoinLotRegistry.fromCoinLots state.coinLots))
            state = EStateM.Result.ok registry state := by
          rw [run_get, hbuilt]
          rfl
        unfold AtomicAt
        rw [onThrow_bind_of_ok hregistry]
        refine atomicAt_call.mpr (fun validation hvalidated => ?_)
        cases validation with
        | some reason => exact (atomicAt_of_error rfl).mpr rfl
        | none =>
          simp only
          refine atomicAt_call.mpr (fun _ houtcome => ?_)
          -- the lots are moved in the copy only once the plan and its checks have passed
          obtain ⟨plan, hplan, hcheck⟩ : ∃ plan,
              buildTransferPlan transaction registry state.currentBlockIndex = .ok plan ∧
              checkBeforeApplication registry transaction.fromAddress plan = .ok () := by
            unfold applyTransfer at houtcome
            cases hplan : buildTransferPlan transaction registry state.currentBlockIndex with
            | error reason =>
              rw [hplan] at houtcome
              cases houtcome
            | ok plan =>
              rw [hplan] at houtcome
              refine ⟨plan, rfl, ?_⟩
              cases hcheck : checkBeforeApplication registry transaction.fromAddress plan with
              | error reason =>
                simp only [hcheck] at houtcome
                cases houtcome
              | ok => rfl
          obtain ⟨_, selected, change, outputs, spent, final, hrun, -, -, htransfer⟩ :=
            applyTransfer_of_checked hplan hcheck
          rw [hrun]
          refine (recordTransfer_atomicAt_iff haddresses.2 hsender hnext
            (transferEffect_of_run htransfer).valid).mpr (h sender ?_)
          exact ⟨by simpa using htype, hid, haddresses, by simpa using hothers, ⟨hamount, hfee⟩,
            by simpa using hnonce, hfresh, hsender, hnext, registry, plan, hbuilt, hvalidated,
            hplan, hcheck⟩

end State

namespace State

variable {hashBytes : String → String} {state : State}

/-- A lock writes once, after its last check. -/
theorem lockCoinLotForSecurity_atomicAt (coinLotId : String) (lockedUntilBlock : UInt64) :
    AtomicAt (lockCoinLotForSecurity coinLotId lockedUntilBlock) state := by
  unfold lockCoinLotForSecurity coinLotRegistry
  cases hbuilt : CoinLotRegistry.fromCoinLots state.coinLots with
  | error reason =>
    refine (atomicAt_of_error (e := reason) (t := state) ?_).mpr rfl
    show EStateM.bind _ _ _ = _
    unfold EStateM.bind
    rw [run_get, hbuilt]
    rfl
  | ok registry =>
    have hregistry : (get >>= fun state => call (CoinLotRegistry.fromCoinLots state.coinLots))
        state = EStateM.Result.ok registry state := by
      rw [run_get, hbuilt]
      rfl
    unfold AtomicAt
    rw [onThrow_bind_of_ok hregistry]
    refine atomicAt_call.mpr (fun targetLot _ => atomicAt_call.mpr (fun locked _ => ?_))
    unfold replaceCoinLotsFromRegistry
    exact atomicAt_refuseIf.mpr (fun _ => atomicAt_of_ok rfl)

/-- **What an exception leaves.** The state is as it was exactly under the condition of the
operation: coins that can be created fit the supply, and coins that cannot were for a known
account; the sender of an accepted transfer can advance, or its receivers are known. -/
theorem atomic_iff (hashBytes : String → String) (state : State) (operation : Operation) :
    AtomicAt (operation.method hashBytes) state ↔ AtomicWhen hashBytes state operation := by
  cases operation with
  | applyMintRecord mintRecord => exact applyMintRecord_atomicAt_iff mintRecord
  | applyGenesisRewardRecord record => exact applyGenesisRewardRecord_atomicAt_iff record
  | applyTransferTransaction transaction => exact applyTransferTransaction_atomicAt_iff transaction
  | lockCoinLotForSecurity coinLotId lockedUntilBlock =>
    exact ⟨fun _ => trivial, fun _ => lockCoinLotForSecurity_atomicAt coinLotId lockedUntilBlock⟩
  | advanceBlock => exact ⟨fun _ => trivial, fun _ => atomicAt_of_ok rfl⟩

/-- A mint of the whole supply, and one of a single unit. -/
def mintOf (id : String) (amount : Amount) : MintRecord := ⟨id, "auth", "alice", amount, "block", 10⟩

theorem max_inRange : maxRawUnits ≤ maxRawUnits := Nat.le_refl _

/-- **A mint beyond the largest supply throws with its lot, account and record written.** -/
theorem mint_overflow_leaves_lot :
    ¬ ∀ operations operation, AtomicAt (Operation.method SparseMerkleTree.plainHash operation)
      (runOperations SparseMerkleTree.plainHash operations).1 := by
  intro hatomic
  have hmint := hatomic [.applyMintRecord (mintOf "mint-1" ⟨maxRawUnits, max_inRange⟩)]
    (.applyMintRecord (mintOf "mint-2" ⟨1, Amount.one_inRange⟩))
  have hthrow := hmint "Amount addition overflow." _ rfl
  have hlength := congrArg (fun state : State => state.coinLots.length) hthrow
  exact absurd hlength (by decide)

end State

end Nodo.Model
