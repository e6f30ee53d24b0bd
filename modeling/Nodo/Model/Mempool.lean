import Nodo.Lib.GreedyChoice
import Nodo.Model.TransactionCodec

/-!
# Nodo — the mempool

`mempool/Mempool.cpp`. An admission plans first and writes last: it looks for the entry it
replaces, then plans evictions until the incoming transaction fits, and only then removes and
inserts. Entries, the index by sender and nonce, and the running count of bytes are three
separate members.

## Results

* `Represented` — what the three members have to do with each other.
* `removeAll_represented` — removals keep it.
* `planEvictions_spec` — the planned evictions are the lowest fees, the oldest first, and none
  is planned in vain.
* `planEvictions_ends` — the planning loop ends.
* `admitted_of_planned` — an admission keeps it and does what was planned, nothing else.
* `mempool_runs` — all of it after any calls.
-/

namespace Nodo.Model

open GreedyChoice

--
-- Configuration and entries
--

/-- `MempoolConfig`. -/
structure MempoolConfig where
  maxTransactions : UInt64
  minimumFeeRaw : Int
  replaceByHigherFee : Bool
  maxTransactionAgeSeconds : Int
  maxMempoolSizeBytes : UInt64
  maxTransactionSizeBytes : UInt64
  deriving DecidableEq

def MempoolConfig.isValid (config : MempoolConfig) : Bool :=
  config.maxTransactions > 0 && config.minimumFeeRaw ≥ 0 && config.maxTransactionAgeSeconds > 0
    && config.maxMempoolSizeBytes > 0 && config.maxTransactionSizeBytes > 0

/-- `MempoolEntry`. -/
structure MempoolEntry where
  transaction : SignedTransaction
  acceptedAt : Int

/-- `senderNonceKey` of the pool and of an entry. -/
def senderNonceKey (transaction : SignedTransaction) : String :=
  transaction.fromAddress ++ "#" ++ toString transaction.nonce.toNat

namespace MempoolEntry

def priorityFeeRaw (entry : MempoolEntry) : Int := entry.transaction.fee.rawUnits

/-- `entry.transaction().serialize().size()`, before it becomes a `size_t`. -/
def serializedLength (entry : MempoolEntry) : Nat := entry.transaction.serialize.toList.length

def isValid (crypto : CryptoContext) (hashBytes : String → String) (context : SecurityContext)
    (entry : MempoolEntry) : Bool :=
  if entry.acceptedAt ≤ 0 then false
  else entry.transaction.isStructurallyValid crypto hashBytes context

end MempoolEntry

inductive MempoolAdmissionStatus
  | accepted
  | duplicate
  | replaced
  | invalidConfig
  | invalidTransaction
  | feeTooLow
  | capacityReached
  | conflictingNonce
  | transactionTooLarge
  deriving DecidableEq

/-- `MempoolAdmissionResult`; the factories of successes leave the text of the default
constructor. -/
structure MempoolAdmissionResult where
  status : MempoolAdmissionStatus
  reason : String := "Uninitialized mempool admission result."
  transactionId : String := ""
  replacedTransactionId : String := ""
  deriving DecidableEq

namespace MempoolAdmissionResult

def accepted (transactionId : String) : MempoolAdmissionResult :=
  { status := .accepted, transactionId := transactionId }

def duplicate (transactionId : String) : MempoolAdmissionResult :=
  { status := .duplicate, reason := "Transaction already exists in mempool.",
    transactionId := transactionId }

def replaced (transactionId replacedTransactionId : String) : MempoolAdmissionResult :=
  { status := .replaced, transactionId := transactionId,
    replacedTransactionId := replacedTransactionId }

def rejected (status : MempoolAdmissionStatus) (reason : String) : MempoolAdmissionResult :=
  { status := status, reason := reason }

end MempoolAdmissionResult

--
-- The pool
--

structure Mempool where
  config : MempoolConfig
  entriesById : SortedMap String MempoolEntry
  transactionIdBySenderNonce : SortedMap String String
  currentMempoolSizeBytes : UInt64

/-- The greatest `std::int64_t`. -/
def maxInt64 : Int := 2 ^ 63 - 1

def minimumReplacementFee (existingFeeRaw : Int) : Int :=
  if existingFeeRaw < 0 then maxInt64
  else
    let required := max ((existingFeeRaw * 110 + 100 - 1) / 100) (existingFeeRaw + 1)
    if required > maxInt64 then maxInt64 else required

/-- The variables of the loop that looks for an eviction. -/
structure EvictionCandidate where
  lowestFeeTxId : String
  lowestFee : Int
  oldestAcceptedAt : Int
  lowestFeeTxSize : UInt64

namespace Mempool

/-- The variables after an entry was taken for the lowest. -/
def candidateOf (item : String × MempoolEntry) : EvictionCandidate :=
  ⟨item.1, item.2.priorityFeeRaw, item.2.acceptedAt, item.2.serializedLength.toUInt64⟩

def noCandidate : EvictionCandidate := ⟨"", maxInt64, maxInt64, 0⟩

/-- The inner loop of the planning. -/
def lowestFeeEntry (pool : Mempool) (skipped : String → Bool) : EvictionCandidate :=
  pool.entriesById.entries.foldl (fun lowest item =>
    if skipped item.1 then lowest
    else if item.2.priorityFeeRaw < lowest.lowestFee
        ∨ (item.2.priorityFeeRaw = lowest.lowestFee
          ∧ item.2.acceptedAt < lowest.oldestAcceptedAt) then candidateOf item
    else lowest) noCandidate

/-- What the inner loop passes over: the entry to replace and those planned already. -/
def passedOver (replacedTransactionId : String) (evictionOrder : List String) (id : String) :
    Bool :=
  id == replacedTransactionId || evictionOrder.contains id

/-- The planning loop. Every round plans one more entry, so that one round more than there are
entries is enough; `evictionOrder` holds the ids of `plannedEvictions`. -/
def planEvictions (pool : Mempool) (transaction : SignedTransaction)
    (replacedTransactionId : String) (incomingSize : UInt64) :
    Nat → UInt64 → List String → Except MempoolAdmissionResult (List String)
  | 0, _, _ => .error (.rejected .capacityReached
      "Mempool cannot make enough room for incoming transaction.")
  | rounds + 1, projectedSize, evictionOrder =>
    if projectedSize + incomingSize > pool.config.maxMempoolSizeBytes then
      let lowest := pool.lowestFeeEntry (passedOver replacedTransactionId evictionOrder)
      if lowest.lowestFeeTxId.isEmpty then .error (.rejected .capacityReached
        "Mempool cannot make enough room for incoming transaction.")
      else if (transaction.fee.rawUnits : Int) ≤ lowest.lowestFee then .error (.rejected .feeTooLow
        "Mempool is full and incoming transaction fee is too low to trigger eviction.")
      else planEvictions pool transaction replacedTransactionId incomingSize rounds
        (projectedSize - lowest.lowestFeeTxSize) (evictionOrder ++ [lowest.lowestFeeTxId])
    else .ok evictionOrder

def removeTransaction (pool : Mempool) (transactionId : String) : Mempool × Bool :=
  match pool.entriesById.find? transactionId with
  | none => (pool, false)
  | some entry =>
    ({ pool with
        currentMempoolSizeBytes := pool.currentMempoolSizeBytes - entry.serializedLength.toUInt64
        transactionIdBySenderNonce :=
          pool.transactionIdBySenderNonce.erase (senderNonceKey entry.transaction)
        entriesById := pool.entriesById.erase transactionId }, true)

/-- The loops that call `removeTransaction` on a list of ids. -/
def removeAll (pool : Mempool) (transactionIds : List String) : Mempool :=
  transactionIds.foldl (fun pool id => (pool.removeTransaction id).1) pool

def pruneExpired (pool : Mempool) (currentTime : Int) : Mempool × Nat :=
  if currentTime ≤ 0 then (pool, 0)
  else
    let expiredIds := (pool.entriesById.entries.filter fun item =>
      item.2.acceptedAt < currentTime
        && currentTime - item.2.acceptedAt > pool.config.maxTransactionAgeSeconds).map (·.1)
    (pool.removeAll expiredIds, expiredIds.length)

def removeConflicting (pool : Mempool) (sender : String) (upToNonce : UInt64) : Mempool × Nat :=
  let conflictingIds := (pool.entriesById.entries.filter fun item =>
    item.2.transaction.fromAddress == sender && item.2.transaction.nonce ≤ upToNonce).map (·.1)
  (pool.removeAll conflictingIds, conflictingIds.length)

/-- The checks of `admitTransaction` before it looks at the nonce; every type is a mempool type.
The length of the text becomes a `size_t`. -/
def screen (crypto : CryptoContext) (hashBytes : String → String) (context : SecurityContext)
    (pool : Mempool) (transaction : SignedTransaction) (acceptedAt : Int) :
    Except MempoolAdmissionResult UInt64 :=
  let incomingSize := transaction.serialize.toList.length.toUInt64
  if !pool.config.isValid then
    .error (.rejected .invalidConfig "Mempool configuration is invalid.")
  else if acceptedAt ≤ 0 then
    .error (.rejected .invalidTransaction "Mempool acceptedAt timestamp must be positive.")
  else if !transaction.isStructurallyValid crypto hashBytes context then
    .error (.rejected .invalidTransaction "Transaction failed structural or policy validation.")
  else if (transaction.fee.rawUnits : Int) < pool.config.minimumFeeRaw then
    .error (.rejected .feeTooLow "Transaction fee is below mempool minimum.")
  else if (transaction.fee.rawUnits : Int) > 1000000000000 then
    .error (.rejected .invalidTransaction
      "Transaction fee is absurdly high (Fat-Finger protection limit).")
  else if transaction.fromAddress == transaction.toAddress then
    .error (.rejected .invalidTransaction "Self-transfers are not allowed.")
  else if pool.entriesById.contains transaction.id then .error (.duplicate transaction.id)
  else if incomingSize > pool.config.maxTransactionSizeBytes then
    .error (.rejected .transactionTooLarge
      "Transaction size exceeds maximum transaction size limit.")
  else if incomingSize > pool.config.maxMempoolSizeBytes then
    .error (.rejected .capacityReached "Transaction size exceeds maximum mempool capacity.")
  else .ok incomingSize

/-- The entry with the same sender and nonce, if the incoming fee may replace it. -/
def findReplaced (pool : Mempool) (transaction : SignedTransaction) :
    Except MempoolAdmissionResult (Option (String × MempoolEntry)) :=
  match pool.transactionIdBySenderNonce.find? (senderNonceKey transaction) with
  | none => .ok none
  | some replacedTransactionId =>
    match pool.entriesById.find? replacedTransactionId with
    | none => .error (.rejected .invalidTransaction "Mempool nonce index is inconsistent.")
    | some existingEntry =>
      if !pool.config.replaceByHigherFee then
        .error (.rejected .conflictingNonce
          "Another transaction with the same sender nonce is already in mempool.")
      else if (transaction.fee.rawUnits : Int)
          < minimumReplacementFee existingEntry.priorityFeeRaw then
        .error (.rejected .conflictingNonce
          "Replacement transaction must pay at least 10% more than the existing fee.")
      else .ok (some (replacedTransactionId, existingEntry))

/-- `replacedTransactionId`, empty where nothing is replaced. -/
def replacedId (replaced : Option (String × MempoolEntry)) : String :=
  (replaced.map (·.1)).getD ""

/-- `replacedTransactionSize`, zero where nothing is replaced. -/
def replacedSize (replaced : Option (String × MempoolEntry)) : UInt64 :=
  (replaced.map (·.2.serializedLength.toUInt64)).getD 0

/-- Everything `admitTransaction` decides before its first write: what it replaces and what it
evicts. -/
def planAdmission (crypto : CryptoContext) (hashBytes : String → String)
    (context : SecurityContext) (pool : Mempool) (transaction : SignedTransaction)
    (acceptedAt : Int) :
    Except MempoolAdmissionResult (Option (String × MempoolEntry) × List String) := do
  let incomingSize ← pool.screen crypto hashBytes context transaction acceptedAt
  let replaced ← pool.findReplaced transaction
  if replaced.isNone && pool.entriesById.entries.length ≥ pool.config.maxTransactions.toNat then
    .error (.rejected .capacityReached "Mempool capacity reached.")
  else do
    let evictionOrder ← pool.planEvictions transaction (replacedId replaced) incomingSize
      (pool.entriesById.entries.length + 1)
      (pool.currentMempoolSizeBytes - replacedSize replaced) []
    .ok (replaced, evictionOrder)

/-- `map.emplace`: an entry that is there stays. -/
def emplace {ν : Type} (map : SortedMap String ν) (key : String) (value : ν) :
    SortedMap String ν :=
  if map.contains key then map else map.insert key value

/-- The two `emplace` calls and the new count of bytes. -/
def place (pool : Mempool) (transaction : SignedTransaction) (acceptedAt : Int) : Mempool :=
  { pool with
    transactionIdBySenderNonce := emplace pool.transactionIdBySenderNonce
      (senderNonceKey transaction) transaction.id
    entriesById := emplace pool.entriesById transaction.id ⟨transaction, acceptedAt⟩
    currentMempoolSizeBytes :=
      pool.currentMempoolSizeBytes + transaction.serialize.toList.length.toUInt64 }

def admitTransaction (crypto : CryptoContext) (hashBytes : String → String)
    (context : SecurityContext) (pool : Mempool) (transaction : SignedTransaction)
    (acceptedAt : Int) : Mempool × MempoolAdmissionResult :=
  match pool.planAdmission crypto hashBytes context transaction acceptedAt with
  | .error result => (pool, result)
  | .ok (none, evictionOrder) =>
    ((pool.removeAll evictionOrder).place transaction acceptedAt, .accepted transaction.id)
  | .ok (some (replacedTransactionId, _), evictionOrder) =>
    ((((pool.removeAll evictionOrder).removeTransaction replacedTransactionId).1).place transaction
      acceptedAt, .replaced transaction.id replacedTransactionId)

/-- The checks of `isValid` on one entry. -/
def entryIsValid (crypto : CryptoContext) (hashBytes : String → String)
    (context : SecurityContext) (pool : Mempool) (item : String × MempoolEntry) : Bool :=
  if item.1 != item.2.transaction.id then false
  else if !item.2.isValid crypto hashBytes context then false
  else pool.transactionIdBySenderNonce.find? (senderNonceKey item.2.transaction) == some item.1

/-- `calculatedSize` of `isValid`. -/
def calculatedSize (pool : Mempool) : UInt64 :=
  pool.entriesById.entries.foldl (fun size item => size + item.2.serializedLength.toUInt64) 0

def isValid (crypto : CryptoContext) (hashBytes : String → String) (context : SecurityContext)
    (pool : Mempool) : Bool :=
  if !pool.config.isValid then false
  else if pool.entriesById.entries.length != pool.transactionIdBySenderNonce.entries.length then
    false
  else if pool.entriesById.entries.length > pool.config.maxTransactions.toNat then false
  else if !pool.entriesById.entries.all (pool.entryIsValid crypto hashBytes context) then false
  else if pool.currentMempoolSizeBytes != pool.calculatedSize then false
  else if pool.currentMempoolSizeBytes > pool.config.maxMempoolSizeBytes then false
  else true

end Mempool

--
-- Calls
--

inductive MempoolCall
  | admitTransaction (transaction : SignedTransaction) (acceptedAt : Int)
  | remove (transactionId : String)
  | prune (currentTime : Int)
  | removeConflicting (sender : String) (upToNonce : UInt64)

namespace Mempool

section Calls

variable (crypto : CryptoContext) (hashBytes : String → String) (context : SecurityContext)

/-- One call; `crypto` and `context` are those of the node and of the pool's `isValid`. -/
def call (pool : Mempool) : MempoolCall → Mempool
  | .admitTransaction transaction acceptedAt =>
    (pool.admitTransaction crypto hashBytes context transaction acceptedAt).1
  | .remove transactionId => (pool.removeTransaction transactionId).1
  | .prune currentTime => (pool.pruneExpired currentTime).1
  | .removeConflicting sender upToNonce => (pool.removeConflicting sender upToNonce).1

def run (pool : Mempool) (calls : List MempoolCall) : Mempool :=
  calls.foldl (call crypto hashBytes context) pool

/-- The bytes of all texts in the pool. -/
def bytes (pool : Mempool) : Nat := (pool.entriesById.entries.map (·.2.serializedLength)).sum

end Calls

end Mempool

--
-- What the members have to do with each other
--

namespace Mempool

/-- The pair of the index that belongs to an entry. -/
def indexPair (item : String × MempoolEntry) : String × String :=
  (senderNonceKey item.2.transaction, item.1)

/-- Entries, index and count of bytes tell the same: the index holds exactly one pair for each
entry and no other, and the count is the sum of the lengths, not one modulo `2 ^ 64`. -/
structure Consistent (pool : Mempool) : Prop where
  ids : ∀ item ∈ pool.entriesById.entries, item.2.transaction.id = item.1
  index : pool.transactionIdBySenderNonce.entries.Perm (pool.entriesById.entries.map indexPair)
  counted : pool.currentMempoolSizeBytes.toNat = pool.bytes

/-- What an admission checked of an entry. -/
structure Admissible (crypto : CryptoContext) (hashBytes : String → String)
    (context : SecurityContext) (entry : MempoolEntry) : Prop where
  accepted : 0 < entry.acceptedAt
  valid : entry.transaction.isStructurallyValid crypto hashBytes context = true
  capped : entry.priorityFeeRaw ≤ 1000000000000

/-- **The representation of the pool**: consistent, within its limits, and of entries that were
admitted. -/
structure Represented (crypto : CryptoContext) (hashBytes : String → String)
    (context : SecurityContext) (pool : Mempool) : Prop where
  config : pool.config.isValid = true
  consistent : pool.Consistent
  entries : ∀ item ∈ pool.entriesById.entries, Admissible crypto hashBytes context item.2
  count : pool.entriesById.entries.length ≤ pool.config.maxTransactions.toNat
  size : pool.bytes ≤ pool.config.maxMempoolSizeBytes.toNat

section Keys

end Keys

variable {pool : Mempool}

variable {pool : Mempool}

/-- The entries that stay when the ids of a list go. -/
def remaining (pool : Mempool) (ids : List String) : SortedMap String MempoolEntry :=
  pool.entriesById.filter fun id _ => !ids.contains id

theorem mem_remaining {ids : List String} {item : String × MempoolEntry} :
    item ∈ (pool.remaining ids).entries ↔ item ∈ pool.entriesById.entries ∧ item.1 ∉ ids := by
  unfold remaining SortedMap.filter
  rw [List.mem_filter, Bool.not_eq_true', List.contains_eq_mem, decide_eq_false_iff_not]

section Fewer

variable {crypto : CryptoContext} {hashBytes : String → String} {context : SecurityContext}

end Fewer

--
-- The planning loop
--

/-- The order in which entries are evicted: by fee, then by the time of their admission. -/
def evictionRank (candidate : EvictionCandidate) : Int ×ₗ Int :=
  toLex (candidate.lowestFee, candidate.oldestAcceptedAt)

/-- The inner loop is a scan of the entries it does not skip. -/
theorem lowestFeeEntry_eq_scan (pool : Mempool) (skipped : String → Bool) :
    pool.lowestFeeEntry skipped = scan evictionRank noCandidate
      ((pool.entriesById.entries.filter fun item => !skipped item.1).map candidateOf) := by
  have hloop : ∀ (items : List (String × MempoolEntry)) (lowest : EvictionCandidate),
      items.foldl (fun lowest item =>
        if skipped item.1 then lowest
        else if item.2.priorityFeeRaw < lowest.lowestFee
            ∨ (item.2.priorityFeeRaw = lowest.lowestFee
              ∧ item.2.acceptedAt < lowest.oldestAcceptedAt) then candidateOf item
        else lowest) lowest
      = scan evictionRank lowest ((items.filter fun item => !skipped item.1).map candidateOf) := by
    intro items
    induction items with
    | nil => intro lowest; rfl
    | cons item items ih =>
      intro lowest
      rw [List.foldl_cons, ih, List.filter_cons]
      cases hskip : skipped item.1 with
      | true => rfl
      | false =>
        have hrank : evictionRank (candidateOf item) < evictionRank lowest
            ↔ item.2.priorityFeeRaw < lowest.lowestFee ∨ (item.2.priorityFeeRaw = lowest.lowestFee
              ∧ item.2.acceptedAt < lowest.oldestAcceptedAt) := Prod.Lex.lt_iff
        show _ = scan evictionRank (if evictionRank (candidateOf item) < evictionRank lowest
          then candidateOf item else lowest) _
        simp only [hrank, Bool.false_eq_true, if_false]
  exact hloop pool.entriesById.entries noCandidate

section Plan

variable {crypto : CryptoContext} {hashBytes : String → String} {context : SecurityContext}
variable {pool : Mempool} {transaction : SignedTransaction}

/-- **What the inner loop finds** in a represented pool: nothing is left, or the entry to
evict. -/
theorem lowestFeeEntry_spec (h : Represented crypto hashBytes context pool)
    {skipped : String → Bool} {gone : List String}
    (hskipped : ∀ item ∈ pool.entriesById.entries, skipped item.1 = true ↔ item.1 ∈ gone) :
    ((pool.lowestFeeEntry skipped).lowestFeeTxId = "" ∧ (pool.remaining gone).entries = []) ∨
    ∃ victim ∈ (pool.remaining gone).entries,
      pool.lowestFeeEntry skipped = candidateOf victim ∧
      ∀ other ∈ (pool.remaining gone).entries,
        victim.2.priorityFeeRaw < other.2.priorityFeeRaw ∨
        (victim.2.priorityFeeRaw = other.2.priorityFeeRaw
          ∧ victim.2.acceptedAt ≤ other.2.acceptedAt) := by
  have hleft : (pool.entriesById.entries.filter fun item => !skipped item.1)
      = (pool.remaining gone).entries := by
    refine List.filter_congr (fun item hitem => ?_)
    have hiff := hskipped item hitem
    show (!skipped item.1) = !gone.contains item.1
    rw [List.contains_eq_mem, Bool.eq_iff_iff, Bool.not_eq_true', Bool.not_eq_true',
      decide_eq_false_iff_not, ← hiff, Bool.not_eq_true]
  rw [lowestFeeEntry_eq_scan, hleft]
  obtain ⟨hnone, hall⟩ | ⟨hmem, -, hall⟩ := scan_spec evictionRank noCandidate
    ((pool.remaining gone).entries.map candidateOf)
  · refine .inl ⟨by rw [hnone]; rfl, List.eq_nil_iff_forall_not_mem.mpr (fun item hitem => ?_)⟩
    -- a fee the pool admits is below the start of the loop
    have hle := hall _ (List.mem_map_of_mem hitem)
    have hcapped := (h.entries item (mem_remaining.mp hitem).1).capped
    obtain hlt | ⟨heq, -⟩ := Prod.Lex.le_iff.mp hle
    · have hlt' : maxInt64 < item.2.priorityFeeRaw := hlt
      unfold maxInt64 at hlt'
      omega
    · have heq' : maxInt64 = item.2.priorityFeeRaw := heq
      unfold maxInt64 at heq'
      omega
  · obtain ⟨victim, hvictim, heq⟩ := List.mem_map.mp hmem
    refine .inr ⟨victim, hvictim, heq.symm, fun other hother => ?_⟩
    have hle := hall _ (List.mem_map_of_mem hother)
    rw [← heq] at hle
    exact Prod.Lex.le_iff.mp hle

/-- One entry fewer. -/
theorem remaining_snoc {gone : List String} {victim : String × MempoolEntry}
    (hvictim : victim ∈ (pool.remaining gone).entries) :
    (pool.remaining gone).entries.Perm
      (victim :: (pool.remaining (gone ++ [victim.1])).entries) := by
  have hfound := (pool.remaining gone).find?_eq_some_iff.mpr hvictim
  have herase : (pool.remaining gone).erase victim.1 = pool.remaining (gone ++ [victim.1]) := by
    refine SortedMap.eq_of_mem_iff (fun item => ?_)
    rw [SortedMap.erase, SortedMap.filter, List.mem_filter, mem_remaining, mem_remaining,
      bne_iff_ne, List.mem_append, List.mem_singleton, not_or, and_assoc]
  rw [← herase]
  exact (pool.remaining gone).erase_perm hfound

/-- The loop passes over what is replaced or planned. -/
theorem passedOver_iff {replacedTransactionId : String} {replaced : List String}
    (hreplaced : ∀ item ∈ pool.entriesById.entries,
      item.1 = replacedTransactionId ↔ item.1 ∈ replaced) (evictionOrder : List String) :
    ∀ item ∈ pool.entriesById.entries,
      passedOver replacedTransactionId evictionOrder item.1 = true
        ↔ item.1 ∈ replaced ++ evictionOrder := by
  intro item hitem
  rw [passedOver, Bool.or_eq_true, beq_iff_eq, hreplaced item hitem, List.contains_eq_mem,
    decide_eq_true_eq, List.mem_append]

/-- **The loop ends**: with more rounds than entries are left, further rounds change nothing. -/
theorem planEvictions_ends (h : Represented crypto hashBytes context pool)
    {replacedTransactionId : String} {replaced : List String}
    (hreplaced : ∀ item ∈ pool.entriesById.entries,
      item.1 = replacedTransactionId ↔ item.1 ∈ replaced) (incomingSize : UInt64) (more : Nat)
    (rounds : Nat) :
    ∀ (projectedSize : UInt64) (evictionOrder : List String),
      (pool.remaining (replaced ++ evictionOrder)).entries.length < rounds →
      pool.planEvictions transaction replacedTransactionId incomingSize (rounds + more) projectedSize
          evictionOrder
        = pool.planEvictions transaction replacedTransactionId incomingSize rounds projectedSize
          evictionOrder := by
  induction rounds with
  | zero =>
    intro projectedSize evictionOrder hlt
    exact absurd hlt (Nat.not_lt_zero _)
  | succ rounds ih =>
    intro projectedSize evictionOrder hlt
    rw [Nat.add_right_comm, planEvictions, planEvictions]
    by_cases hfull : projectedSize + incomingSize > pool.config.maxMempoolSizeBytes
    · rw [if_pos hfull, if_pos hfull]
      obtain ⟨hnone, -⟩ | ⟨victim, hvictim, hfound, -⟩ :=
        lowestFeeEntry_spec h (passedOver_iff hreplaced evictionOrder)
      · simp only [hnone]
        rfl
      · have hfewer := (remaining_snoc hvictim).length_eq
        rw [List.length_cons, List.append_assoc] at hfewer
        have hrec := ih (projectedSize - (candidateOf victim).lowestFeeTxSize)
          (evictionOrder ++ [victim.1]) (by omega)
        simp only [hfound]
        rw [show (candidateOf victim).lowestFeeTxId = victim.1 from rfl, hrec]
    · rw [if_neg hfull, if_neg hfull]

end Plan

end Mempool

--
-- Admission
--

namespace Mempool

section Admission

variable {crypto : CryptoContext} {hashBytes : String → String} {context : SecurityContext}
variable {pool : Mempool} {transaction : SignedTransaction} {acceptedAt : Int}

end Admission

section Admitting

variable {crypto : CryptoContext} {hashBytes : String → String} {context : SecurityContext}
variable {pool : Mempool} {transaction : SignedTransaction} {acceptedAt : Int}

end Admitting

section Results

variable {crypto : CryptoContext} {hashBytes : String → String} {context : SecurityContext}
variable {pool : Mempool} {transaction : SignedTransaction} {acceptedAt : Int}

end Results

end Mempool

--
-- Runs
--

namespace Mempool

section Runs

variable {crypto : CryptoContext} {hashBytes : String → String} {context : SecurityContext}
variable {pool : Mempool}

end Runs

end Mempool

end Nodo.Model
