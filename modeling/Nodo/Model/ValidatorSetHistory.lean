import Nodo.Lib.FloorLookup
import Nodo.Model.Evidence
import Nodo.Model.RecordCodec
import Nodo.Model.ValidatorSetSchedule

/-!
# Nodo — the history of validator sets

`ValidatorSetHistory` of `core/ValidatorRegistry.cpp` answers which validators voted at a
height. It stores a registry only where it differs from the one before, and decides that by
comparing serialized texts; `ValidatorSetSchedule::recordNext` appends one height at a time.

The text of an entry shows its owner address as it is. Every other text of a valid entry is free
of delimiters; an owner address need not be, and two different registries can then have one text.

## Results

* `serialize_injective` — valid registries whose owner addresses are free of delimiters are
  determined by their texts.
* `afterRecord_keeps` — one call does to the history what it does to the uncompressed list.
* `history_faithful` — after any calls the history answers as the uncompressed list does, and so
  do its windows and what `restore` builds.
* `history_drifts` — an owner address that spells out an entry.
-/

namespace Nodo.Model

--
-- Texts (core/ValidatorRegistry.cpp)
--

/-- `validatorRegistrationStatusToString`. -/
def ValidatorRegistrationStatus.text : ValidatorRegistrationStatus → String
  | .unknown => "UNKNOWN"
  | .pendingActivation => "PENDING_ACTIVATION"
  | .active => "ACTIVE"
  | .jailed => "JAILED"
  | .exitRequested => "EXIT_REQUESTED"
  | .exited => "EXITED"
  | .deactivated => "DEACTIVATED"

def ValidatorRegistrationRecord.serialize (crypto : CryptoContext)
    (record : ValidatorRegistrationRecord) : String :=
  serializeObject "ValidatorRegistrationRecord"
    [("validatorAddress", record.validatorAddress),
      ("publicKey", record.validatorPublicKey.serialize),
      ("publicKeyFingerprint", crypto.fingerprint record.validatorPublicKey),
      ("activationEpoch", toString record.activationEpoch),
      ("metadataHash", record.metadataHash), ("registeredAt", toString record.registeredAt)]

def ValidatorRegistryEntry.serialize (crypto : CryptoContext) (entry : ValidatorRegistryEntry) :
    String :=
  serializeObject "ValidatorRegistryEntry"
    [("status", entry.status.text), ("lastUpdatedAt", toString entry.lastUpdatedAt),
      ("stakeAmount", toString entry.stakeAmount.toNat),
      ("consensusWeight", toString entry.consensusWeight.toNat),
      ("jailUntilEpoch", toString entry.jailUntilEpoch),
      ("exitRequestHeight", toString entry.exitRequestHeight),
      ("ownerAddress", entry.ownerAddress),
      ("registration", entry.registrationRecord.serialize crypto)]

namespace ValidatorRegistry

def activeCount (registry : ValidatorRegistry) : Nat :=
  (registry.entries.entries.filter fun e => e.2.active).length

/-- `serialize`, which throws where `totalConsensusWeight` does. -/
def serialize (crypto : CryptoContext) (registry : ValidatorRegistry) : Except String String :=
  match registry.totalConsensusWeight with
  | none => .error "Validator consensus weight overflow."
  | some total => .ok (serializeObject "ValidatorRegistry"
      [("size", toString registry.entries.entries.length),
        ("activeCount", toString registry.activeCount),
        ("totalConsensusWeight", toString total.toNat),
        ("entries", "[" ++ String.intercalate ","
          (registry.entries.entries.map fun e => e.2.serialize crypto) ++ "]")])

/-- `a.serialize() == b.serialize()`. -/
def sameText (crypto : CryptoContext) (first second : ValidatorRegistry) : Except String Bool := do
  let firstText ← first.serialize crypto
  let secondText ← second.serialize crypto
  return firstText == secondText

end ValidatorRegistry

--
-- The history
--

/-- `std::numeric_limits<std::uint64_t>::max()`, the last height. -/
def maxHeight : Nat := 18446744073709551615

structure ValidatorSetHistory where
  firstHeight : Nat
  highestHeight : Nat
  setsByHeight : SortedMap Nat ValidatorRegistry

/-- A reference to a registry: to an object of the caller or to a stored one, by its key. -/
inductive RegistryReference
  | object (registry : ValidatorRegistry)
  | stored (key : Nat)

namespace ValidatorSetHistory

def empty : ValidatorSetHistory := ⟨0, 0, SortedMap.empty⟩

def hasSet (history : ValidatorSetHistory) (height : Nat) : Bool :=
  history.firstHeight != 0 && history.firstHeight ≤ height && height ≤ history.highestHeight

/-- `setAt`; a history without an entry at its first height has no element to refer to. -/
def setAt (history : ValidatorSetHistory) (height : Nat) : Except String ValidatorRegistry :=
  if !history.hasSet height then .error "No validator set recorded for block height."
  else match history.setsByHeight.floor? height with
    | some registry => .ok registry
    | none => .error "std::prev(begin())"

/-- The registry that a reference refers to. -/
def deref (history : ValidatorSetHistory) : RegistryReference → Except String ValidatorRegistry
  | .object registry => .ok registry
  | .stored key =>
    match history.setsByHeight.find? key with
    | some registry => .ok registry
    | none => .error "dangling reference"

/-- `&m_setsByHeight.rbegin()->second == &registry`. -/
def refersToLast (history : ValidatorSetHistory) : RegistryReference → Bool
  | .object _ => false
  | .stored key => history.setsByHeight.keys.getLast? == some key

/-- `&setAt(height) == &registry`. -/
def refersToSetAt (history : ValidatorSetHistory) (height : Nat) : RegistryReference → Bool
  | .object _ => false
  | .stored key =>
    (history.setsByHeight.keys.takeWhile fun other => other ≤ height).getLast? == some key

/-- The end of `recordSet`: the registry is stored unless it is the one stored last. -/
def append (crypto : CryptoContext) (history : ValidatorSetHistory) (height : Nat)
    (alreadyStored : Bool) (registry : ValidatorRegistry) : Except String ValidatorSetHistory :=
  if history.firstHeight == 0 then
    .ok ⟨height, height, history.setsByHeight.insert height registry⟩
  else if alreadyStored then .ok { history with highestHeight := height }
  else match history.setsByHeight.last? with
    | none => .error "rbegin()"
    | some last => do
      let same ← last.sameText crypto registry
      if same then return { history with highestHeight := height }
      else return { history with
        highestHeight := height
        setsByHeight := history.setsByHeight.insert height registry }

/-- `recordSet`: its answer and the history after it. It throws before it writes. -/
def recordSet (crypto : CryptoContext) (history : ValidatorSetHistory) (height : Nat)
    (reference : RegistryReference) : Except String (Bool × ValidatorSetHistory) := do
  let registry ← history.deref reference
  if height == 0 then return (false, history)
  else if !history.refersToLast reference && !registry.isValid crypto then return (false, history)
  else if history.hasSet height then do
    let existing ← history.setAt height
    if history.refersToSetAt height reference then return (true, history)
    else do
      let same ← existing.sameText crypto registry
      return (same, history)
  else if history.firstHeight != 0
      && (history.highestHeight == maxHeight || height != history.highestHeight + 1) then
    return (false, history)
  else do
    let appended ← history.append crypto height (history.refersToLast reference) registry
    return (true, appended)

/-- The loop of `isValid` over the stored registries. -/
def auditSets (crypto : CryptoContext) (highestHeight : Nat) :
    Option ValidatorRegistry → List (Nat × ValidatorRegistry) → Except String Bool
  | _, [] => .ok true
  | previous, (height, registry) :: rest => do
    if highestHeight < height || !registry.isValid crypto then return false
    else match previous with
      | none => auditSets crypto highestHeight (some registry) rest
      | some before => do
        let same ← before.sameText crypto registry
        if same then return false
        else auditSets crypto highestHeight (some registry) rest

def isValid (crypto : CryptoContext) (history : ValidatorSetHistory) : Except String Bool :=
  if history.firstHeight == 0 then
    .ok (history.highestHeight == 0 && history.setsByHeight.entries.isEmpty)
  else if history.setsByHeight.entries.isEmpty
      || history.setsByHeight.keys.head? != some history.firstHeight
      || history.highestHeight < history.firstHeight
      || history.setsByHeight.keys.getLast?.any (fun key => history.highestHeight < key) then
    .ok false
  else auditSets crypto history.highestHeight none history.setsByHeight.entries

def changesOnlyAtBoundaries (crypto : CryptoContext) (history : ValidatorSetHistory)
    (epochLength : Nat) : Except String Bool := do
  if epochLength == 0 then return false
  else do
    let valid ← history.isValid crypto
    if !valid then return false
    else return history.setsByHeight.keys.tail.all fun height => (height - 1) % epochLength == 0

def windowFrom (history : ValidatorSetHistory) (fromHeight : Nat) :
    Except String ValidatorSetHistory := do
  if !history.hasSet fromHeight then throw "Validator-set window start is not recorded."
  else do
    let registry ← history.setAt fromHeight
    return ⟨fromHeight, history.highestHeight,
      (history.setsByHeight.filter fun height _ => fromHeight < height).insert fromHeight registry⟩

def restore (crypto : CryptoContext) (firstHeight highestHeight : Nat)
    (changes : SortedMap Nat ValidatorRegistry) : Except String (Option ValidatorSetHistory) := do
  let history : ValidatorSetHistory := ⟨firstHeight, highestHeight, changes⟩
  if firstHeight == 0 then return none
  else do
    let valid ← history.isValid crypto
    return if valid then some history else none

end ValidatorSetHistory

--
-- Recording (node/ValidatorSetSchedule.hpp)
--

namespace ValidatorSetSchedule

def isBoundary (finalizedHeight : Nat) : Bool :=
  finalizedHeight != 0 && finalizedHeight % nodoValidatorEpochBlocks == 0

/-- The set after `previous`. -/
def nextSet (crypto : CryptoContext) (finalizedHeight : Nat) (previous target : ValidatorRegistry) :
    Except String ValidatorRegistry :=
  if isBoundary finalizedHeight then
    project crypto previous target (finalizedHeight / nodoValidatorEpochBlocks + 1)
  else .ok previous

/-- `recordNext`; the conditional expression copies `previous`, so `recordSet` gets an object of
the caller. -/
def recordNext (crypto : CryptoContext) (finalizedHeight : Nat) (target : ValidatorRegistry)
    (history : ValidatorSetHistory) : Except String (Bool × ValidatorSetHistory) := do
  if finalizedHeight == 0 || finalizedHeight == maxHeight || !history.hasSet finalizedHeight then
    return (false, history)
  else do
    let previous ← history.setAt finalizedHeight
    let next ← nextSet crypto finalizedHeight previous target
    history.recordSet crypto (finalizedHeight + 1) (.object next)

/-- The history after a call; one that throws leaves it as it was. -/
def afterRecord (crypto : CryptoContext) (history : ValidatorSetHistory)
    (call : Nat × ValidatorRegistry) : ValidatorSetHistory :=
  match recordNext crypto call.1 call.2 history with
  | .ok (_, next) => next
  | .error _ => history

def afterRecords (crypto : CryptoContext) (history : ValidatorSetHistory)
    (calls : List (Nat × ValidatorRegistry)) : ValidatorSetHistory :=
  calls.foldl (afterRecord crypto) history

/-- What a call adds to the uncompressed list of sets, one for each height from 1 on. -/
def extendSets (crypto : CryptoContext) (sets : List ValidatorRegistry)
    (call : Nat × ValidatorRegistry) : List ValidatorRegistry :=
  if call.1 == sets.length && call.1 != maxHeight then
    match sets.getLast? with
    | none => sets
    | some previous =>
      match nextSet crypto call.1 previous call.2 with
      | .ok next => sets ++ [next]
      | .error _ => sets
  else sets

/-- The uncompressed list. -/
def uncompressed (crypto : CryptoContext) (genesis : ValidatorRegistry)
    (calls : List (Nat × ValidatorRegistry)) : List ValidatorRegistry :=
  calls.foldl (extendSets crypto) [genesis]

end ValidatorSetSchedule

--
-- Registries are determined by their texts
--

open NestedText

/-- An owner address as registration takes it: empty or free of delimiters. -/
def ValidatorRegistryEntry.hasSafeOwner (entry : ValidatorRegistryEntry) : Bool :=
  entry.ownerAddress.isEmpty || isSafeScalar entry.ownerAddress

/-- All owner addresses of a registry. -/
def ValidatorRegistry.hasSafeOwners (registry : ValidatorRegistry) : Bool :=
  registry.entries.entries.all fun e => e.2.hasSafeOwner

theorem fieldText_status (status : ValidatorRegistrationStatus) : FieldText status.text := by
  cases status <;> exact fieldText_of_name (by decide)

theorem status_text_injective {first second : ValidatorRegistrationStatus}
    (h : first.text = second.text) : first = second := by
  cases first <;> cases second <;> first | rfl | exact absurd h (by decide)

theorem toString_int_injective {first second : Int} (hfirst : 0 < first) (hsecond : 0 < second)
    (h : toString first = toString second) : first = second := by
  rw [toString_int hfirst, toString_int hsecond] at h
  have hnat := Text.toString_nat_inj h
  omega

theorem algorithm_text_injective {first second : CryptoAlgorithm} (h : first.text = second.text) :
    first = second := by
  have hread := cryptoAlgorithmFromString_text first
  rw [h, cryptoAlgorithmFromString_text second] at hread
  exact (Except.ok.inj hread).symm

theorem closed_owner {entry : ValidatorRegistryEntry} (h : entry.hasSafeOwner = true) :
    Closed ';' entry.ownerAddress.toList := by
  rcases Bool.or_eq_true_iff.mp h with hempty | hsafe
  · have hnil : entry.ownerAddress = "" := by simpa using hempty
    rw [hnil]
    rfl
  · exact (fieldText_of_safe hsafe).closed

section Texts

variable {crypto : CryptoContext} (hfingerprint : ∀ key, isSafeScalar (crypto.fingerprint key) = true)

theorem publicKey_serialize_injective {first second : PublicKey}
    (hfirst : isSafeScalar first.keyMaterial = true)
    (hsecond : isSafeScalar second.keyMaterial = true) (h : first.serialize = second.serialize) :
    first = second := by
  have hfields := serializeObject_injective (by simp)
    (PublicKey.printable (fieldText_of_safe hfirst)).closed
    (PublicKey.printable (fieldText_of_safe hsecond)).closed h
  simp only [List.cons.injEq, Prod.mk.injEq, true_and, and_true] at hfields
  obtain ⟨halgorithm, hmaterial⟩ := hfields
  obtain ⟨firstAlgorithm, firstMaterial⟩ := first
  obtain ⟨secondAlgorithm, secondMaterial⟩ := second
  rw [PublicKey.mk.injEq]
  exact ⟨algorithm_text_injective halgorithm, hmaterial⟩

/-- What the text of a record relies on. -/
structure RecordText (record : ValidatorRegistrationRecord) : Prop where
  address : isSafeScalar record.validatorAddress = true
  metadata : isSafeScalar record.metadataHash = true
  material : isSafeScalar record.validatorPublicKey.keyMaterial = true
  registered : 0 < record.registeredAt

theorem recordText_of_isValid {record : ValidatorRegistrationRecord}
    (h : record.isValid crypto = true) : RecordText record := by
  simp only [ValidatorRegistrationRecord.isValid, Bool.and_eq_true, decide_eq_true_eq] at h
  obtain ⟨⟨⟨⟨⟨⟨⟨haddress, hmetadata⟩, -⟩, hmaterial⟩, -⟩, hregistered⟩, -⟩, -⟩ := h
  exact ⟨haddress, hmetadata, hmaterial, hregistered⟩

include hfingerprint

theorem record_printable {record : ValidatorRegistrationRecord} (h : RecordText record) :
    Printable [("validatorAddress", record.validatorAddress),
      ("publicKey", record.validatorPublicKey.serialize),
      ("publicKeyFingerprint", crypto.fingerprint record.validatorPublicKey),
      ("activationEpoch", toString record.activationEpoch),
      ("metadataHash", record.metadataHash), ("registeredAt", toString record.registeredAt)] := by
  refine @printable_of _ ["validatorAddress", "publicKey", "publicKeyFingerprint",
    "activationEpoch", "metadataHash", "registeredAt"] rfl (by decide) ?_
  simp only [List.forall_mem_cons]
  refine ⟨fieldText_of_safe h.address, ?_, fieldText_of_safe (hfingerprint _), fieldText_nat _,
    fieldText_of_safe h.metadata, fieldText_int _, by simp⟩
  exact fieldText_serializeObject (by decide) (PublicKey.printable (fieldText_of_safe h.material))

theorem record_serialize_injective {first second : ValidatorRegistrationRecord}
    (hfirst : RecordText first) (hsecond : RecordText second)
    (h : first.serialize crypto = second.serialize crypto) : first = second := by
  have hfields := serializeObject_injective (by simp) (record_printable hfingerprint hfirst).closed
    (record_printable hfingerprint hsecond).closed h
  simp only [List.cons.injEq, Prod.mk.injEq, true_and, and_true] at hfields
  obtain ⟨haddress, hkey, -, hepoch, hmetadata, hregistered⟩ := hfields
  have hkeys := publicKey_serialize_injective hfirst.material hsecond.material hkey
  have hepochs := Text.toString_nat_inj hepoch
  have htimes := toString_int_injective hfirst.registered hsecond.registered hregistered
  obtain ⟨firstAddress, firstKey, firstEpoch, firstMetadata, firstTime⟩ := first
  obtain ⟨secondAddress, secondKey, secondEpoch, secondMetadata, secondTime⟩ := second
  rw [ValidatorRegistrationRecord.mk.injEq]
  exact ⟨haddress, hkeys, hepochs, hmetadata, htimes⟩

/-- What the text of an entry relies on. -/
structure EntryText (entry : ValidatorRegistryEntry) : Prop where
  record : RecordText entry.registrationRecord
  updated : 0 < entry.lastUpdatedAt
  owner : entry.hasSafeOwner = true

omit hfingerprint in
theorem entryText_of_isValid {entry : ValidatorRegistryEntry} (h : entry.isValid crypto = true)
    (howner : entry.hasSafeOwner = true) : EntryText entry := by
  simp only [ValidatorRegistryEntry.isValid, Bool.and_eq_true, decide_eq_true_eq] at h
  obtain ⟨⟨⟨⟨hrecord, -⟩, hupdated⟩, -⟩, -⟩ := h
  exact ⟨recordText_of_isValid hrecord, hupdated, howner⟩

theorem entry_closedFields {entry : ValidatorRegistryEntry} (h : EntryText entry) :
    ClosedFields [("status", entry.status.text), ("lastUpdatedAt", toString entry.lastUpdatedAt),
      ("stakeAmount", toString entry.stakeAmount.toNat),
      ("consensusWeight", toString entry.consensusWeight.toNat),
      ("jailUntilEpoch", toString entry.jailUntilEpoch),
      ("exitRequestHeight", toString entry.exitRequestHeight),
      ("ownerAddress", entry.ownerAddress),
      ("registration", entry.registrationRecord.serialize crypto)] := by
  have hnames : ["status", "lastUpdatedAt", "stakeAmount", "consensusWeight", "jailUntilEpoch",
      "exitRequestHeight", "ownerAddress", "registration"].all isFieldName = true := by decide
  refine ⟨hnames, ?_⟩
  simp only [List.forall_mem_cons]
  refine ⟨(fieldText_status _).closed, (fieldText_int _).closed, (fieldText_nat _).closed,
    (fieldText_nat _).closed, (fieldText_nat _).closed, (fieldText_nat _).closed,
    closed_owner h.owner, ?_, by simp⟩
  exact closed_serializeObject (by decide) (Or.inl rfl) (record_printable hfingerprint h.record).closed

theorem entry_serialize_injective {first second : ValidatorRegistryEntry}
    (hfirst : EntryText first) (hsecond : EntryText second)
    (h : first.serialize crypto = second.serialize crypto) : first = second := by
  have hfields := serializeObject_injective (by simp) (entry_closedFields hfingerprint hfirst)
    (entry_closedFields hfingerprint hsecond) h
  simp only [List.cons.injEq, Prod.mk.injEq, true_and, and_true] at hfields
  obtain ⟨hstatus, hupdated, hstake, -, hjail, hexit, howner, hrecord⟩ := hfields
  have hstatuses := status_text_injective hstatus
  have hrecords := record_serialize_injective hfingerprint hfirst.record hsecond.record hrecord
  have htimes := toString_int_injective hfirst.updated hsecond.updated hupdated
  have hstakes := UInt64.toNat_inj.mp (Text.toString_nat_inj hstake)
  have hjails := Text.toString_nat_inj hjail
  have hexits := Text.toString_nat_inj hexit
  obtain ⟨firstRecord, firstStatus, firstTime, firstStake, firstJail, firstExit, firstOwner⟩ := first
  obtain ⟨secondRecord, secondStatus, secondTime, secondStake, secondJail, secondExit,
    secondOwner⟩ := second
  rw [ValidatorRegistryEntry.mk.injEq]
  exact ⟨hrecords, hstatuses, htimes, hstakes, hjails, hexits, howner⟩

/-- The text of an entry may stand in a list. -/
theorem closed_entry {entry : ValidatorRegistryEntry} (h : EntryText entry) :
    (entry.serialize crypto).toList ≠ [] ∧ Closed ',' (entry.serialize crypto).toList :=
  ⟨serializeObject_toList_ne_nil _ _,
    closed_serializeObject (by decide) (Or.inr rfl) (entry_closedFields hfingerprint h)⟩

end Texts

section RegistryTexts

variable {crypto : CryptoContext} (hfingerprint : ∀ key, isSafeScalar (crypto.fingerprint key) = true)

/-- A registry whose texts tell its entries apart. -/
structure Telling (crypto : CryptoContext) (registry : ValidatorRegistry) : Prop where
  valid : registry.isValid crypto = true
  owners : registry.hasSafeOwners = true

theorem Telling.entryText {registry : ValidatorRegistry} (h : Telling crypto registry)
    {e : String × ValidatorRegistryEntry} (hmem : e ∈ registry.entries.entries) :
    EntryText e.2 ∧ e.2.registrationRecord.validatorAddress = e.1 := by
  obtain ⟨hvalid, hbound⟩ := (ValidatorRegistry.isValid_iff.mp h.valid).1 e hmem
  exact ⟨entryText_of_isValid hvalid (List.all_eq_true.mp h.owners e hmem), hbound⟩

/-- The text that `serialize` prints for a valid registry. -/
theorem serialize_of_isValid {registry : ValidatorRegistry} (h : registry.isValid crypto = true) :
    ∃ text, registry.serialize crypto = .ok text := by
  obtain ⟨total, htotal⟩ := ValidatorRegistry.isValid_total h
  unfold ValidatorRegistry.serialize
  rw [htotal]
  exact ⟨_, rfl⟩

include hfingerprint

theorem closed_entryTexts {registry : ValidatorRegistry} (h : Telling crypto registry) :
    ∀ part ∈ registry.entries.entries.map (fun e => e.2.serialize crypto),
      part.toList ≠ [] ∧ Closed ',' part.toList := by
  intro part hpart
  obtain ⟨e, hmem, rfl⟩ := List.mem_map.mp hpart
  exact closed_entry hfingerprint (h.entryText hmem).1

theorem registry_closedFields {registry : ValidatorRegistry} (h : Telling crypto registry)
    (total : UInt64) :
    ClosedFields [("size", toString registry.entries.entries.length),
      ("activeCount", toString registry.activeCount),
      ("totalConsensusWeight", toString total.toNat),
      ("entries", "[" ++ String.intercalate ","
        (registry.entries.entries.map fun e => e.2.serialize crypto) ++ "]")] := by
  have hnames : ["size", "activeCount", "totalConsensusWeight", "entries"].all isFieldName = true := by
    decide
  refine ⟨hnames, ?_⟩
  simp only [List.forall_mem_cons]
  refine ⟨(fieldText_nat _).closed, (fieldText_nat _).closed, (fieldText_nat _).closed, ?_, by simp⟩
  have htext : ("[" ++ String.intercalate ","
      (registry.entries.entries.map fun e => e.2.serialize crypto) ++ "]").toList
        = '[' :: List.intercalate [','] ((registry.entries.entries.map
          fun e => e.2.serialize crypto).map String.toList) ++ [']'] := by
    simp [String.toList_append, String.toList_intercalate]
  rw [htext]
  refine Balanced.brackets (by decide) (balanced_intercalate (by decide) ?_)
  intro text hmem
  obtain ⟨part, hpart, rfl⟩ := List.mem_map.mp hmem
  exact (closed_entryTexts hfingerprint h part hpart).2.balanced

/-- Joined texts of entries are those of the same entries. -/
theorem entryTexts_injective {first second : ValidatorRegistry} (hfirst : Telling crypto first)
    (hsecond : Telling crypto second)
    (h : String.intercalate "," (first.entries.entries.map fun e => e.2.serialize crypto)
      = String.intercalate "," (second.entries.entries.map fun e => e.2.serialize crypto))
    (hlength : first.entries.entries.length = second.entries.entries.length) :
    (first.entries.entries.map fun e => e.2.serialize crypto)
      = second.entries.entries.map fun e => e.2.serialize crypto := by
  by_cases hempty : first.entries.entries = []
  · have hnil : second.entries.entries = [] := by
      rw [hempty, List.length_nil] at hlength
      exact List.length_eq_zero_iff.mp hlength.symm
    rw [hempty, hnil]
  · have hother : second.entries.entries ≠ [] := by
      intro hnil
      rw [hnil, List.length_nil] at hlength
      exact hempty (List.length_eq_zero_iff.mp hlength)
    have hsplit := @splitTopLevel_intercalate ',' (by decide)
      (first.entries.entries.map fun e => e.2.serialize crypto) (by simpa using hempty)
      (closed_entryTexts hfingerprint hfirst)
    have hsplit' := @splitTopLevel_intercalate ',' (by decide)
      (second.entries.entries.map fun e => e.2.serialize crypto) (by simpa using hother)
      (closed_entryTexts hfingerprint hsecond)
    rw [show String.singleton ',' = "," from rfl] at hsplit hsplit'
    rw [h, hsplit'] at hsplit
    exact (Except.ok.inj hsplit).symm

/-- **A registry is determined by its text.** -/
theorem serialize_injective {first second : ValidatorRegistry} (hfirst : Telling crypto first)
    (hsecond : Telling crypto second)
    (h : first.serialize crypto = second.serialize crypto) : first = second := by
  obtain ⟨firstTotal, hfirstTotal⟩ := ValidatorRegistry.isValid_total hfirst.valid
  obtain ⟨secondTotal, hsecondTotal⟩ := ValidatorRegistry.isValid_total hsecond.valid
  unfold ValidatorRegistry.serialize at h
  rw [hfirstTotal, hsecondTotal] at h
  have hfields := serializeObject_injective (by simp)
    (registry_closedFields hfingerprint hfirst firstTotal)
    (registry_closedFields hfingerprint hsecond secondTotal) (Except.ok.inj h)
  simp only [List.cons.injEq, Prod.mk.injEq, true_and, and_true] at hfields
  obtain ⟨hsize, -, -, hentries⟩ := hfields
  have hlength := Text.toString_nat_inj hsize
  have hjoined : String.intercalate "," (first.entries.entries.map fun e => e.2.serialize crypto)
      = String.intercalate "," (second.entries.entries.map fun e => e.2.serialize crypto) := by
    have hlists := congrArg String.toList hentries
    simp only [String.toList_append] at hlists
    exact String.toList_inj.mp (List.append_cancel_left (List.append_cancel_right hlists))
  have htexts := entryTexts_injective hfingerprint hfirst hsecond hjoined hlength
  -- entry by entry: the same text, so the same entry under the same address
  have hsame : ∀ {l l' : List (String × ValidatorRegistryEntry)},
      (∀ e ∈ l, EntryText e.2 ∧ e.2.registrationRecord.validatorAddress = e.1) →
      (∀ e ∈ l', EntryText e.2 ∧ e.2.registrationRecord.validatorAddress = e.1) →
      (l.map fun e => e.2.serialize crypto) = (l'.map fun e => e.2.serialize crypto) → l = l' := by
    intro l
    induction l with
    | nil =>
      intro l' _ _ hmap
      exact (List.map_eq_nil_iff.mp hmap.symm).symm
    | cons e rest ih =>
      intro l' hl hl' hmap
      cases l' with
      | nil => cases hmap
      | cons e' rest' =>
        simp only [List.map_cons, List.cons.injEq] at hmap
        obtain ⟨htext, hbound⟩ := hl e List.mem_cons_self
        obtain ⟨htext', hbound'⟩ := hl' e' List.mem_cons_self
        have hentry := entry_serialize_injective hfingerprint htext htext' hmap.1
        have hpair : e = e' := Prod.ext (by rw [← hbound, ← hbound', hentry]) hentry
        rw [hpair, ih (fun other hmem => hl other (List.mem_cons_of_mem _ hmem))
          (fun other hmem => hl' other (List.mem_cons_of_mem _ hmem)) hmap.2]
  have hlist := hsame (fun e hmem => hfirst.entryText hmem) (fun e hmem => hsecond.entryText hmem)
    htexts
  obtain ⟨⟨firstEntries, hfirstSorted⟩⟩ := first
  obtain ⟨⟨secondEntries, hsecondSorted⟩⟩ := second
  simp only at hlist
  subst hlist
  rfl

theorem sameText_iff {first second : ValidatorRegistry} (hfirst : Telling crypto first)
    (hsecond : Telling crypto second) :
    first.sameText crypto second = .ok true ∧ first = second ∨
      first.sameText crypto second = .ok false ∧ first.serialize crypto ≠ second.serialize crypto := by
  obtain ⟨firstText, hfirstText⟩ := serialize_of_isValid hfirst.valid
  obtain ⟨secondText, hsecondText⟩ := serialize_of_isValid hsecond.valid
  have hsame : first.sameText crypto second = .ok (firstText == secondText) := by
    unfold ValidatorRegistry.sameText
    rw [hfirstText, hsecondText]
    rfl
  by_cases heq : firstText = secondText
  · refine Or.inl ⟨by rw [hsame, heq, beq_self_eq_true], ?_⟩
    exact serialize_injective hfingerprint hfirst hsecond (by rw [hfirstText, hsecondText, heq])
  · refine Or.inr ⟨by rw [hsame, beq_eq_false_iff_ne.mpr heq], ?_⟩
    rw [hfirstText, hsecondText]
    exact fun htexts => heq (Except.ok.inj htexts)

end RegistryTexts

--
-- Projected sets
--

namespace ValidatorSetSchedule

section Projected

variable {crypto : CryptoContext} {previous target : ValidatorRegistry}
  {P : ValidatorRegistryEntry → Prop}

/-- Every selected entry has the property. -/
def Selects (P : ValidatorRegistryEntry → Prop) (plan : Plan) : Prop :=
  ∀ address entry, plan.selected.find? address = some entry → P entry

theorem Selects.emplace {plan : Plan} {remaining : UInt64} {address : String}
    {entry : ValidatorRegistryEntry} (h : Selects P plan) (hentry : P entry) :
    Selects P ⟨plan.emplace address entry, remaining⟩ := by
  intro other found hfind
  simp only [Plan.emplace] at hfind
  split at hfind
  · exact h other found hfind
  · rw [SortedMap.find?_insert] at hfind
    split at hfind
    · exact Option.some.inj hfind ▸ hentry
    · exact h other found hfind

variable (hstake : ∀ {entry} stake, P entry → P (withStake entry stake))
  (hprevious : ∀ {address entry}, previous.entries.find? address = some entry → P entry)
  (htarget : ∀ {address entry}, target.entries.find? address = some entry → P entry)
include hstake hprevious htarget

theorem reduceStep_selects {effectiveEpoch : Nat} {plan : Plan} (h : Selects P plan)
    (address : String) : Selects P (reduceStep previous target effectiveEpoch plan address) := by
  unfold reduceStep
  simp only
  split
  · exact h
  split
  · exact h
  · rename_i old hold
    split
    · exact h.emplace (hprevious hold)
    split
    · split
      · exact h
      · rename_i next hnext
        split
        · exact h
        · exact h.emplace (htarget hnext)
    · exact h.emplace (hstake _ (hprevious hold))

theorem growStep_selects {effectiveEpoch : Nat} {plan : Plan} (h : Selects P plan)
    (address : String) : Selects P (growStep previous target effectiveEpoch plan address) := by
  unfold growStep
  simp only
  split
  · exact h
  split
  · exact h
  split
  · exact h
  · rename_i next hnext
    split
    · exact h
    split
    · exact h
    split
    · exact h
    split
    · exact h.emplace (htarget hnext)
    split
    · exact h.emplace (hstake _ (htarget hnext))
    split
    · exact h
    · rename_i entry hentry
      exact h.emplace (hprevious hentry)

/-- What both passes select comes from one of the two sets, up to the stake. -/
theorem plan_selects (effectiveEpoch : Nat) (budget : UInt64) :
    Selects P (plan previous target effectiveEpoch budget) := by
  have hpass : ∀ {step : Plan → String → Plan} {addresses : List String} {start : Plan},
      (∀ plan, Selects P plan → ∀ address, Selects P (step plan address)) → Selects P start →
      Selects P (addresses.foldl step start) := by
    intro step addresses start hstep hstart
    induction addresses generalizing start with
    | nil => exact hstart
    | cons address rest ih => exact ih (hstep start hstart address)
  refine hpass (fun _ h => growStep_selects hstake hprevious htarget h) ?_
  refine hpass (fun _ h => reduceStep_selects hstake hprevious htarget h) ?_
  intro address entry hfind
  cases hfind

end Projected

variable {crypto : CryptoContext} {previous target result : ValidatorRegistry}

/-- A projected set is a valid registry of selected entries. -/
theorem project_eq_ok {effectiveEpoch : Nat}
    (h : project crypto previous target effectiveEpoch = .ok result) :
    result.isValid crypto = true ∧
      ∃ budget, result.entries = (plan previous target effectiveEpoch budget).selected := by
  have hinput := h
  unfold project at hinput
  split at hinput
  · cases hinput
  rename_i hvalid
  simp only [Bool.or_eq_true, Bool.not_eq_true', not_or, Bool.not_eq_false] at hvalid
  obtain ⟨hprevious, htarget⟩ := hvalid
  split at hinput
  · cases hinput
  rename_i total htotal
  split at hinput
  · cases hinput
  rename_i hpositive
  simp only [Bool.or_eq_true, beq_iff_eq, not_or] at hpositive
  have hspec := plan_spec effectiveEpoch (churnBudget total) hprevious htarget
  rcases Nat.lt_or_ge uint64Max.toNat (ValidatorRegistry.entriesWeight
      (plan previous target effectiveEpoch (churnBudget total)).selected.entries) with hover | hfits
  · rw [project_of_overflow hprevious htarget htotal hpositive.1 hpositive.2 hover] at h
    cases h
  · rw [project_of_fits hprevious htarget htotal hpositive.1 hpositive.2 hfits] at h
    obtain rfl := Except.ok.inj h
    exact ⟨ValidatorRegistry.isValid_iff.mpr ⟨hspec.ok, hfits⟩, _, rfl⟩

theorem hasSafeOwners_iff {registry : ValidatorRegistry} :
    registry.hasSafeOwners = true ↔ ∀ {address entry},
      registry.entries.find? address = some entry → entry.hasSafeOwner = true := by
  unfold ValidatorRegistry.hasSafeOwners
  rw [List.all_eq_true]
  constructor
  · intro h address entry hfind
    exact h _ (registry.entries.find?_eq_some_iff.mp hfind)
  · intro h e hmem
    exact h (registry.entries.find?_eq_some_iff.mpr hmem)

/-- The next set tells its entries apart if the sets it is made of do. -/
theorem nextSet_telling {finalizedHeight : Nat} (hprevious : Telling crypto previous)
    (htarget : target.hasSafeOwners = true)
    (h : nextSet crypto finalizedHeight previous target = .ok result) : Telling crypto result := by
  unfold nextSet at h
  split at h
  · obtain ⟨hvalid, budget, hentries⟩ := project_eq_ok h
    refine ⟨hvalid, hasSafeOwners_iff.mpr ?_⟩
    intro address entry hfind
    rw [hentries] at hfind
    exact plan_selects (fun _ howner => howner) (hasSafeOwners_iff.mp hprevious.owners)
      (hasSafeOwners_iff.mp htarget) _ _ address entry hfind
  · obtain rfl := Except.ok.inj h
    exact hprevious

end ValidatorSetSchedule

--
-- The history and the uncompressed list
--

namespace ValidatorSetSchedule

variable {crypto : CryptoContext} {sets : List ValidatorRegistry} {history : ValidatorSetHistory}

/-- **The invariant.** `sets` holds the set of every height from 1 on; the history answers with it
and stores a set where its text changes, at the first height and at epoch boundaries. -/
structure Keeps (crypto : CryptoContext) (sets : List ValidatorRegistry)
    (history : ValidatorSetHistory) : Prop where
  ne : sets ≠ []
  first : history.firstHeight = 1
  highest : history.highestHeight = sets.length
  telling : ∀ set ∈ sets, Telling crypto set
  lookup : ∀ {height}, 1 ≤ height → height ≤ sets.length →
    history.setsByHeight.floor? height = sets[height - 1]?
  keys : ∀ {key set}, history.setsByHeight.find? key = some set →
    1 ≤ key ∧ key ≤ sets.length ∧ (key = 1 ∨ (key - 1) % nodoValidatorEpochBlocks = 0)
  start : ∃ set, history.setsByHeight.find? 1 = some set
  changes : history.setsByHeight.entries.IsChain fun e e' =>
    e.2.serialize crypto ≠ e'.2.serialize crypto
  steady : ∀ {index}, index + 1 < sets.length →
    (index + 1) % nodoValidatorEpochBlocks ≠ 0 → sets[index + 1]? = sets[index]?

namespace Keeps

theorem hasSet (h : Keeps crypto sets history) (height : Nat) :
    history.hasSet height = decide (1 ≤ height ∧ height ≤ sets.length) := by
  unfold ValidatorSetHistory.hasSet
  rw [h.first, h.highest]
  simp

theorem setAt (h : Keeps crypto sets history) {height : Nat} (hone : 1 ≤ height)
    (hle : height ≤ sets.length) :
    ∃ set, sets[height - 1]? = some set ∧ history.setAt height = .ok set := by
  have hlt : height - 1 < sets.length := by omega
  refine ⟨sets[height - 1], List.getElem?_eq_getElem hlt, ?_⟩
  unfold ValidatorSetHistory.setAt
  rw [h.hasSet, decide_eq_true ⟨hone, hle⟩, h.lookup hone hle, List.getElem?_eq_getElem hlt]
  rfl

/-- A stored set is the set of the height it is stored at. -/
theorem stored (h : Keeps crypto sets history) {key : Nat} {set : ValidatorRegistry}
    (hfind : history.setsByHeight.find? key = some set) : set ∈ sets := by
  obtain ⟨hone, hle, -⟩ := h.keys hfind
  have hfloor : history.setsByHeight.floor? key = some set :=
    SortedMap.floor?_eq_some_iff.mpr ⟨key, hfind, le_refl key, fun _ hother => hother⟩
  rw [h.lookup hone hle] at hfloor
  exact List.mem_of_getElem? hfloor

/-- The set stored last is the last set. -/
theorem last (h : Keeps crypto sets history) :
    ∃ set, sets.getLast? = some set ∧ history.setsByHeight.last? = some set ∧
      history.setsByHeight.floor? sets.length = some set := by
  have hpos : 0 < sets.length := List.length_pos_of_ne_nil h.ne
  have hfloor := h.lookup hpos (le_refl sets.length)
  have hlast := @SortedMap.floor?_eq_last? _ _ _ history.setsByHeight sets.length
    (fun hfind => (h.keys hfind).2.1)
  rw [← List.getLast?_eq_getElem?] at hfloor
  cases hset : sets.getLast? with
  | none => exact absurd (List.getLast?_eq_none_iff.mp hset) h.ne
  | some set =>
    rw [hset] at hfloor
    exact ⟨set, rfl, by rw [← hlast, hfloor], hfloor⟩

/-- One more height with the set as before. -/
theorem extend (h : Keeps crypto sets history) {last : ValidatorRegistry}
    (hlast : sets.getLast? = some last) :
    Keeps crypto (sets ++ [last]) { history with highestHeight := sets.length + 1 } := by
  have hpos : 0 < sets.length := List.length_pos_of_ne_nil h.ne
  have hmem : last ∈ sets := List.mem_of_getLast? hlast
  obtain ⟨stored, hstored, -, hfloor⟩ := h.last
  rw [hlast] at hstored
  obtain rfl := Option.some.inj hstored
  refine ⟨by simp, h.first, by simp, ?_, ?_, ?_, h.start, h.changes, ?_⟩
  · intro set hset
    rcases List.mem_append.mp hset with hset | hset
    · exact h.telling set hset
    · rw [List.mem_singleton.mp hset]
      exact h.telling last hmem
  · intro height hone hle
    rw [List.length_append, List.length_singleton] at hle
    by_cases hold : height ≤ sets.length
    · rw [h.lookup hone hold, List.getElem?_append_left (by omega)]
    · -- the new height finds what the last one finds
      have hheight : height = sets.length + 1 := by omega
      subst hheight
      have hnew : history.setsByHeight.floor? (sets.length + 1) = history.setsByHeight.last? :=
        SortedMap.floor?_eq_last? (fun hfind => Nat.le_succ_of_le (h.keys hfind).2.1)
      have hsame : history.setsByHeight.floor? sets.length = history.setsByHeight.last? :=
        SortedMap.floor?_eq_last? (fun hfind => (h.keys hfind).2.1)
      show history.setsByHeight.floor? (sets.length + 1) = _
      rw [hnew, ← hsame, hfloor]
      simp
  · intro key set hfind
    obtain ⟨hone, hle, hboundary⟩ := h.keys hfind
    exact ⟨hone, by rw [List.length_append]; omega, hboundary⟩
  · intro index hindex hinside
    rw [List.length_append, List.length_singleton] at hindex
    by_cases hold : index + 1 < sets.length
    · rw [List.getElem?_append_left hold, List.getElem?_append_left (by omega)]
      exact h.steady hold hinside
    · have hend : index + 1 = sets.length := by omega
      rw [hend, List.getElem?_concat_length, List.getElem?_append_left (by omega), ← hlast,
        List.getLast?_eq_getElem?]
      congr 1
      omega

/-- One more height with another set, at a boundary. -/
theorem store (h : Keeps crypto sets history) {last next : ValidatorRegistry}
    (hlast : sets.getLast? = some last) (hnext : Telling crypto next)
    (hboundary : sets.length % nodoValidatorEpochBlocks = 0)
    (hdiffers : last.serialize crypto ≠ next.serialize crypto) :
    Keeps crypto (sets ++ [next]) { history with
      highestHeight := sets.length + 1
      setsByHeight := history.setsByHeight.insert (sets.length + 1) next } := by
  have hpos : 0 < sets.length := List.length_pos_of_ne_nil h.ne
  have hbelow : ∀ {other value}, history.setsByHeight.find? other = some value →
      other < sets.length + 1 := fun hfind => Nat.lt_succ_of_le (h.keys hfind).2.1
  refine ⟨by simp, h.first, by simp, ?_, ?_, ?_, ?_, ?_, ?_⟩
  · intro set hset
    rcases List.mem_append.mp hset with hset | hset
    · exact h.telling set hset
    · rw [List.mem_singleton.mp hset]
      exact hnext
  · intro height hone hle
    rw [List.length_append, List.length_singleton] at hle
    show (history.setsByHeight.insert (sets.length + 1) next).floor? height = _
    rw [SortedMap.floor?_insert_last hbelow]
    split_ifs with hnew
    · have hheight : height = sets.length + 1 := by omega
      subst hheight
      simp
    · rw [h.lookup hone (by omega), List.getElem?_append_left (by omega)]
  · intro key set hfind
    rw [List.length_append, List.length_singleton]
    rw [SortedMap.find?_insert] at hfind
    split_ifs at hfind with heq
    · subst heq
      exact ⟨by omega, le_refl _, Or.inr (by simpa using hboundary)⟩
    · obtain ⟨hone, hle, hkey⟩ := h.keys hfind
      exact ⟨hone, by omega, hkey⟩
  · obtain ⟨set, hset⟩ := h.start
    refine ⟨set, ?_⟩
    rw [SortedMap.find?_insert_of_ne _ _ (by omega)]
    exact hset
  · obtain ⟨stored, hstored, hstoredLast, -⟩ := h.last
    rw [hlast] at hstored
    obtain rfl := Option.some.inj hstored
    show (history.setsByHeight.insert (sets.length + 1) next).entries.IsChain _
    rw [SortedMap.entries_insert_last hbelow, List.isChain_append]
    refine ⟨h.changes, List.isChain_singleton _, ?_⟩
    intro e he e' he'
    obtain rfl : (sets.length + 1, next) = e' := by simpa using he'
    unfold SortedMap.last? at hstoredLast
    rw [Option.mem_def.mp he] at hstoredLast
    obtain rfl := Option.some.inj hstoredLast
    exact hdiffers
  · intro index hindex hinside
    rw [List.length_append, List.length_singleton] at hindex
    by_cases hold : index + 1 < sets.length
    · rw [List.getElem?_append_left hold, List.getElem?_append_left (by omega)]
      exact h.steady hold hinside
    · have hend : index + 1 = sets.length := by omega
      rw [hend] at hinside
      exact absurd hboundary hinside

end Keeps

end ValidatorSetSchedule

namespace ValidatorSetHistory

variable {crypto : CryptoContext} {history : ValidatorSetHistory}

/-- **A refused registry changes nothing**, whatever it refers to. -/
theorem recordSet_refused {height : Nat} {reference : RegistryReference}
    {after : ValidatorSetHistory}
    (h : history.recordSet crypto height reference = .ok (false, after)) : after = history := by
  unfold recordSet at h
  obtain ⟨registry, -, h⟩ := Guards.ok_of_bind h
  split at h
  · exact (Prod.mk.inj (Except.ok.inj h)).2.symm
  split at h
  · exact (Prod.mk.inj (Except.ok.inj h)).2.symm
  split at h
  · obtain ⟨existing, -, h⟩ := Guards.ok_of_bind h
    split at h
    · exact (Prod.mk.inj (Except.ok.inj h)).2.symm
    · obtain ⟨same, -, h⟩ := Guards.ok_of_bind h
      exact (Prod.mk.inj (Except.ok.inj h)).2.symm
  split at h
  · exact (Prod.mk.inj (Except.ok.inj h)).2.symm
  · obtain ⟨appended, -, h⟩ := Guards.ok_of_bind h
    cases (Prod.mk.inj (Except.ok.inj h)).1

/-- A registry for a height that is recorded changes nothing either. -/
theorem recordSet_recorded {height : Nat} {reference : RegistryReference} {answer : Bool}
    {after : ValidatorSetHistory} (hrecorded : history.hasSet height = true)
    (h : history.recordSet crypto height reference = .ok (answer, after)) : after = history := by
  unfold recordSet at h
  obtain ⟨registry, -, h⟩ := Guards.ok_of_bind h
  split at h
  · exact (Prod.mk.inj (Except.ok.inj h)).2.symm
  split at h
  · exact (Prod.mk.inj (Except.ok.inj h)).2.symm
  obtain ⟨existing, -, h⟩ := Guards.ok_of_bind h
  split at h
  · exact (Prod.mk.inj (Except.ok.inj h)).2.symm
  · obtain ⟨same, -, h⟩ := Guards.ok_of_bind h
    exact (Prod.mk.inj (Except.ok.inj h)).2.symm

end ValidatorSetHistory

namespace ValidatorSetSchedule

variable {crypto : CryptoContext} {sets : List ValidatorRegistry} {history : ValidatorSetHistory}

/-- A valid registry opens the history. -/
theorem recordSet_first {genesis : ValidatorRegistry} (h : genesis.isValid crypto = true) :
    ValidatorSetHistory.empty.recordSet crypto 1 (.object genesis)
      = .ok (true, ⟨1, 1, SortedMap.empty.insert 1 genesis⟩) := by
  unfold ValidatorSetHistory.recordSet
  simp only [ValidatorSetHistory.deref, ValidatorSetHistory.refersToLast, bind, Except.bind, h]
  rfl

theorem recordFirst_keeps {genesis : ValidatorRegistry} (h : Telling crypto genesis) :
    ∃ first, ValidatorSetHistory.empty.recordSet crypto 1 (.object genesis) = .ok (true, first) ∧
      Keeps crypto [genesis] first := by
  refine ⟨_, recordSet_first h.valid, by simp, rfl, rfl, ?_, ?_, ?_, ⟨genesis, rfl⟩, List.isChain_singleton _, ?_⟩
  · intro set hset
    rw [List.mem_singleton.mp hset]
    exact h
  · intro height hone hle
    obtain rfl : height = 1 := by
      simp only [List.length_singleton] at hle
      omega
    rfl
  · intro key set hfind
    rw [SortedMap.find?_insert] at hfind
    split_ifs at hfind with heq
    · subst heq
      exact ⟨le_refl _, le_refl _, Or.inl rfl⟩
    · cases hfind
  · intro index hindex
    simp only [List.length_singleton] at hindex
    omega

section Record

variable (hfingerprint : ∀ key, isSafeScalar (crypto.fingerprint key) = true)
include hfingerprint

/-- Appending the set after the last one. -/
theorem append_keeps {last next : ValidatorRegistry} (h : Keeps crypto sets history)
    (hlast : sets.getLast? = some last) (hnext : Telling crypto next)
    (hinside : sets.length % nodoValidatorEpochBlocks ≠ 0 → next = last) :
    ∃ after, history.append crypto (sets.length + 1) false next = .ok after ∧
      Keeps crypto (sets ++ [next]) after := by
  obtain ⟨stored, hstored, hstoredLast, -⟩ := h.last
  rw [hlast] at hstored
  obtain rfl := Option.some.inj hstored
  have htelling := h.telling last (List.mem_of_getLast? hlast)
  unfold ValidatorSetHistory.append
  have hfirst : (history.firstHeight == 0) = false := by
    rw [h.first]
    rfl
  rw [hfirst]
  simp only [Bool.false_eq_true, if_false, hstoredLast]
  rcases sameText_iff hfingerprint htelling hnext with ⟨hsame, rfl⟩ | ⟨hsame, hdiffers⟩
  · rw [hsame]
    exact ⟨_, rfl, h.extend hlast⟩
  · rw [hsame]
    have hboundary : sets.length % nodoValidatorEpochBlocks = 0 := by
      by_contra hne
      rw [hinside hne] at hdiffers
      exact hdiffers rfl
    exact ⟨_, rfl, h.store hlast hnext hboundary hdiffers⟩

/-- **One call.** It does to the history what it does to the uncompressed list. -/
theorem afterRecord_keeps {call : Nat × ValidatorRegistry} (h : Keeps crypto sets history)
    (htarget : call.2.hasSafeOwners = true) :
    Keeps crypto (extendSets crypto sets call) (afterRecord crypto history call) := by
  obtain ⟨finalizedHeight, target⟩ := call
  have hpos : 0 < sets.length := List.length_pos_of_ne_nil h.ne
  unfold afterRecord extendSets recordNext
  simp only
  by_cases hguard : (finalizedHeight == 0 || finalizedHeight == maxHeight
      || !history.hasSet finalizedHeight) = true
  · -- refused: the height is not one that can be extended
    rw [if_pos hguard, if_neg]
    · exact h
    · rw [h.hasSet] at hguard
      simp only [Bool.or_eq_true, beq_iff_eq, Bool.not_eq_true', decide_eq_false_iff_not] at hguard
      simp only [Bool.and_eq_true, beq_iff_eq, bne_iff_ne]
      omega
  rw [if_neg hguard]
  rw [h.hasSet] at hguard
  simp only [Bool.or_eq_true, beq_iff_eq, Bool.not_eq_true', decide_eq_false_iff_not, not_or,
    not_not] at hguard
  obtain ⟨⟨hzero, hmax⟩, hone, hle⟩ := hguard
  obtain ⟨previous, hprevious, hsetAt⟩ := h.setAt hone hle
  have hrun : (history.setAt finalizedHeight >>= fun previous =>
      nextSet crypto finalizedHeight previous target >>= fun next =>
        history.recordSet crypto (finalizedHeight + 1) (.object next))
      = nextSet crypto finalizedHeight previous target >>= fun next =>
        history.recordSet crypto (finalizedHeight + 1) (.object next) := by
    rw [hsetAt]
    rfl
  rw [hrun]
  by_cases hend : finalizedHeight = sets.length
  · -- the next height
    subst hend
    rw [if_pos (by simpa using hmax)]
    have hlast : sets.getLast? = some previous := by
      rw [List.getLast?_eq_getElem?]
      exact hprevious
    rw [hlast]
    simp only
    cases hnext : nextSet crypto sets.length previous target with
    | error reason =>
      exact h
    | ok next =>
      have htelling := nextSet_telling (h.telling previous (List.mem_of_getLast? hlast)) htarget hnext
      have hinside : sets.length % nodoValidatorEpochBlocks ≠ 0 → next = previous := by
        intro hne
        unfold nextSet isBoundary at hnext
        rw [if_neg (by simp [hne])] at hnext
        exact (Except.ok.inj hnext).symm
      obtain ⟨after, happend, hkeeps⟩ := append_keeps hfingerprint h hlast htelling hinside
      have hrecord : history.recordSet crypto (sets.length + 1) (.object next)
          = .ok (true, after) := by
        unfold ValidatorSetHistory.recordSet
        simp only [ValidatorSetHistory.deref, ValidatorSetHistory.refersToLast, bind, Except.bind,
          htelling.valid, h.hasSet, h.first, h.highest]
        rw [if_neg (by simp), if_neg (by simp), if_neg (by simp), if_neg (by simpa using hmax),
          happend]
        rfl
      show Keeps crypto (sets ++ [next])
        (match (history.recordSet crypto (sets.length + 1) (.object next) :
          Except String (Bool × ValidatorSetHistory)) with
          | .ok (_, after) => after
          | .error _ => history)
      rw [hrecord]
      exact hkeeps
  · -- an earlier height: its successor is recorded
    rw [if_neg (by simp [hend])]
    show Keeps crypto sets (match (nextSet crypto finalizedHeight previous target >>= fun next =>
      history.recordSet crypto (finalizedHeight + 1) (.object next)) with
        | .ok (_, after) => after
        | .error _ => history)
    cases hnext : (nextSet crypto finalizedHeight previous target >>= fun next =>
        history.recordSet crypto (finalizedHeight + 1) (.object next)) with
    | error reason => exact h
    | ok answer =>
      obtain ⟨next, -, hrecord⟩ := Guards.ok_of_bind hnext
      have hrecorded : history.hasSet (finalizedHeight + 1) = true := by
        rw [h.hasSet]
        simp only [decide_eq_true_eq]
        omega
      have hsame := ValidatorSetHistory.recordSet_recorded hrecorded hrecord
      show Keeps crypto sets answer.2
      rw [hsame]
      exact h

/-- **A run of calls.** -/
theorem afterRecords_keeps {calls : List (Nat × ValidatorRegistry)} (h : Keeps crypto sets history)
    (htargets : ∀ call ∈ calls, call.2.hasSafeOwners = true) :
    Keeps crypto (calls.foldl (extendSets crypto) sets) (afterRecords crypto history calls) := by
  induction calls generalizing sets history with
  | nil => exact h
  | cons call rest ih =>
    exact ih (afterRecord_keeps hfingerprint h (htargets call List.mem_cons_self))
      (fun other hmem => htargets other (List.mem_cons_of_mem _ hmem))

end Record

/-- A call only appends. -/
theorem extendSets_grows (sets : List ValidatorRegistry) (call : Nat × ValidatorRegistry) :
    sets <+: extendSets crypto sets call := by
  unfold extendSets
  split
  · split
    · exact List.prefix_refl sets
    · split
      · exact List.prefix_append _ _
      · exact List.prefix_refl sets
  · exact List.prefix_refl sets

theorem foldl_extendSets_grows (calls : List (Nat × ValidatorRegistry))
    (sets : List ValidatorRegistry) : sets <+: calls.foldl (extendSets crypto) sets := by
  induction calls generalizing sets with
  | nil => exact List.prefix_refl sets
  | cons call rest ih => exact (extendSets_grows sets call).trans (ih _)

end ValidatorSetSchedule

--
-- The audits of the history
--

namespace ValidatorSetSchedule

variable {crypto : CryptoContext} {sets : List ValidatorRegistry} {history : ValidatorSetHistory}

section Audits

variable (hfingerprint : ∀ key, isSafeScalar (crypto.fingerprint key) = true)
include hfingerprint

/-- The loop of `isValid` passes over stored sets whose texts change from one to the next. -/
theorem auditSets_ok {highestHeight : Nat} (previous : Option ValidatorRegistry)
    (stored : List (Nat × ValidatorRegistry))
    (hstored : ∀ e ∈ stored, e.1 ≤ highestHeight ∧ Telling crypto e.2)
    (hchanges : stored.IsChain fun e e' => e.2.serialize crypto ≠ e'.2.serialize crypto)
    (hprevious : ∀ before, previous = some before → Telling crypto before ∧
      ∀ e, stored.head? = some e → before.serialize crypto ≠ e.2.serialize crypto) :
    ValidatorSetHistory.auditSets crypto highestHeight previous stored = .ok true := by
  induction stored generalizing previous with
  | nil => rfl
  | cons e rest ih =>
    obtain ⟨height, registry⟩ := e
    obtain ⟨hle, htelling⟩ := hstored (height, registry) List.mem_cons_self
    have hrest : ValidatorSetHistory.auditSets crypto highestHeight (some registry) rest
        = .ok true := by
      refine ih (some registry) (fun e he => hstored e (List.mem_cons_of_mem _ he))
        hchanges.tail ?_
      intro before hbefore
      obtain rfl := Option.some.inj hbefore
      refine ⟨htelling, ?_⟩
      intro next hnext
      cases rest with
      | nil => cases hnext
      | cons next' rest' =>
        obtain rfl := Option.some.inj hnext
        exact (List.isChain_cons_cons.mp hchanges).1
    have hguard : (decide (highestHeight < height) || !registry.isValid crypto) = false := by
      rw [htelling.valid]
      simpa using hle
    unfold ValidatorSetHistory.auditSets
    rw [hguard]
    cases previous with
    | none => exact hrest
    | some before =>
      obtain ⟨hbefore, hdiffers⟩ := hprevious before rfl
      rcases sameText_iff hfingerprint hbefore htelling with ⟨-, rfl⟩ | ⟨hsame, -⟩
      · exact absurd rfl (hdiffers _ rfl)
      · show (before.sameText crypto registry >>= fun same => if same = true then _ else _) = _
        rw [hsame]
        exact hrest

namespace Keeps

theorem isValid (h : Keeps crypto sets history) : history.isValid crypto = .ok true := by
  have hpos : 0 < sets.length := List.length_pos_of_ne_nil h.ne
  obtain ⟨set, hset⟩ := h.start
  have hhead : history.setsByHeight.keys.head? = some 1 :=
    SortedMap.head?_keys hset (fun hfind => (h.keys hfind).1)
  have hempty : history.setsByHeight.entries.isEmpty = false := by
    have hmem := history.setsByHeight.find?_eq_some_iff.mp hset
    cases hentries : history.setsByHeight.entries with
    | nil =>
      rw [hentries] at hmem
      cases hmem
    | cons => rfl
  have hlast : history.setsByHeight.keys.getLast?.any
      (fun key => decide (history.highestHeight < key)) = false := by
    rw [Option.any_eq_false]
    intro key hkey
    obtain ⟨value, hvalue⟩ := history.setsByHeight.mem_keys_iff.mp (List.mem_of_getLast? hkey)
    have hle := (h.keys (history.setsByHeight.find?_eq_some_iff.mpr hvalue)).2.1
    rw [h.highest]
    simpa using hle
  have haudit := auditSets_ok hfingerprint none history.setsByHeight.entries
    (fun e he => by
      have hfind := history.setsByHeight.find?_eq_some_iff.mpr he
      exact ⟨h.highest ▸ (h.keys hfind).2.1, h.telling e.2 (h.stored hfind)⟩)
    h.changes (fun before hbefore => nomatch hbefore)
  unfold ValidatorSetHistory.isValid
  rw [hempty, hhead, hlast, h.first, if_neg (by simp), if_neg (by simp [h.highest, h.ne]), haudit]

theorem changesOnlyAtBoundaries (h : Keeps crypto sets history) :
    history.changesOnlyAtBoundaries crypto nodoValidatorEpochBlocks = .ok true := by
  obtain ⟨set, hset⟩ := h.start
  have hhead : history.setsByHeight.keys.head? = some 1 :=
    SortedMap.head?_keys hset (fun hfind => (h.keys hfind).1)
  have hall : (history.setsByHeight.keys.tail.all fun height =>
      (height - 1) % nodoValidatorEpochBlocks == 0) = true := by
    rw [List.all_eq_true]
    intro key hkey
    obtain ⟨value, hvalue⟩ := history.setsByHeight.mem_keys_iff.mp (List.mem_of_mem_tail hkey)
    rcases (h.keys (history.setsByHeight.find?_eq_some_iff.mpr hvalue)).2.2 with rfl | hboundary
    · rfl
    · simpa using hboundary
  have hvalid := h.isValid hfingerprint
  unfold ValidatorSetHistory.changesOnlyAtBoundaries
  rw [hvalid, hall]
  rfl

end Keeps

end Audits

--
-- What the history answers
--

namespace Keeps

/-- Two heights of one epoch have one set. -/
theorem constant (h : Keeps crypto sets history) {height height' : Nat} (hone : 1 ≤ height)
    (hle : height ≤ height') (hend : height' ≤ sets.length)
    (hepoch : (height - 1) / nodoValidatorEpochBlocks = (height' - 1) / nodoValidatorEpochBlocks) :
    sets[height' - 1]? = sets[height - 1]? := by
  induction height', hle using Nat.le_induction with
  | base => rfl
  | succ next hnext ih =>
    have hindex : next + 1 - 1 = (next - 1) + 1 := by omega
    have hlow : (height - 1) / nodoValidatorEpochBlocks ≤ (next - 1) / nodoValidatorEpochBlocks :=
      Nat.div_le_div_right (by omega)
    have hhigh : (next - 1) / nodoValidatorEpochBlocks ≤ (next - 1 + 1) / nodoValidatorEpochBlocks :=
      Nat.div_le_div_right (by omega)
    rw [hindex] at hepoch ⊢
    have hsame := ih (by omega) (by omega)
    have hinside : (next - 1 + 1) % nodoValidatorEpochBlocks ≠ 0 := by
      intro hboundary
      rw [Nat.succ_div_of_mod_eq_zero hboundary] at hepoch
      omega
    rw [h.steady (by omega) hinside, hsame]

theorem windowFrom (h : Keeps crypto sets history) {fromHeight : Nat} (hone : 1 ≤ fromHeight)
    (hle : fromHeight ≤ sets.length) :
    ∃ window, history.windowFrom fromHeight = .ok window ∧
      ∀ height, fromHeight ≤ height →
        window.hasSet height = history.hasSet height ∧
          window.setAt height = history.setAt height := by
  obtain ⟨set, hset, hsetAt⟩ := h.setAt hone hle
  have hhas : history.hasSet fromHeight = true := by
    rw [h.hasSet]
    simp [hone, hle]
  have hfloor : history.setsByHeight.floor? fromHeight = some set := by
    rw [h.lookup hone hle, hset]
  refine ⟨⟨fromHeight, history.highestHeight, (history.setsByHeight.filter fun height _ =>
    fromHeight < height).insert fromHeight set⟩, ?_, ?_⟩
  · unfold ValidatorSetHistory.windowFrom
    rw [hhas, hsetAt]
    rfl
  · intro height hfrom
    have hhasSet : ValidatorSetHistory.hasSet ⟨fromHeight, history.highestHeight,
        (history.setsByHeight.filter fun height _ => fromHeight < height).insert fromHeight set⟩
          height = history.hasSet height := by
      rw [h.hasSet]
      unfold ValidatorSetHistory.hasSet
      simp only [h.highest]
      rw [Bool.eq_iff_iff]
      simp only [Bool.and_eq_true, bne_iff_ne, decide_eq_true_eq]
      omega
    refine ⟨hhasSet, ?_⟩
    unfold ValidatorSetHistory.setAt
    rw [hhasSet, SortedMap.floor?_window hfloor hfrom]

theorem restore (hfingerprint : ∀ key, isSafeScalar (crypto.fingerprint key) = true)
    (h : Keeps crypto sets history) :
    ValidatorSetHistory.restore crypto history.firstHeight history.highestHeight
      history.setsByHeight = .ok (some history) := by
  have hvalid := h.isValid hfingerprint
  unfold ValidatorSetHistory.restore
  rw [if_neg (by simp [h.first])]
  show (history.isValid crypto >>= fun valid => _) = _
  rw [hvalid]
  rfl

end Keeps

end ValidatorSetSchedule

--
-- The refinement
--

namespace ValidatorSetSchedule

/-- The history stands for the uncompressed list. -/
structure Faithful (crypto : CryptoContext) (sets : List ValidatorRegistry)
    (history : ValidatorSetHistory) : Prop where
  hasSet : ∀ height, history.hasSet height = true ↔ 1 ≤ height ∧ height ≤ sets.length
  setAt : ∀ height, history.hasSet height = true →
    ∃ set, sets[height - 1]? = some set ∧ history.setAt height = .ok set
  constant : ∀ height height', history.hasSet height = true → history.hasSet height' = true →
    (height - 1) / nodoValidatorEpochBlocks = (height' - 1) / nodoValidatorEpochBlocks →
    history.setAt height = history.setAt height'
  boundaries : history.changesOnlyAtBoundaries crypto nodoValidatorEpochBlocks = .ok true
  window : ∀ fromHeight, history.hasSet fromHeight = true →
    ∃ window, history.windowFrom fromHeight = .ok window ∧
      ∀ height, fromHeight ≤ height →
        window.hasSet height = history.hasSet height ∧ window.setAt height = history.setAt height
  restored : ∃ restored, ValidatorSetHistory.restore crypto history.firstHeight
      history.highestHeight history.setsByHeight = .ok (some restored) ∧
    ∀ height, restored.hasSet height = history.hasSet height ∧
      restored.setAt height = history.setAt height

variable {crypto : CryptoContext} {sets : List ValidatorRegistry} {history : ValidatorSetHistory}

theorem Keeps.hasSet_iff (h : Keeps crypto sets history) (height : Nat) :
    history.hasSet height = true ↔ 1 ≤ height ∧ height ≤ sets.length := by
  rw [h.hasSet, decide_eq_true_eq]

theorem Keeps.setAt_eq (h : Keeps crypto sets history) {height height' : Nat}
    (hone : 1 ≤ height) (hle : height ≤ height') (hend : height' ≤ sets.length)
    (hepoch : (height - 1) / nodoValidatorEpochBlocks = (height' - 1) / nodoValidatorEpochBlocks) :
    history.setAt height = history.setAt height' := by
  obtain ⟨set, hset, hsetAt⟩ := h.setAt hone (hle.trans hend)
  obtain ⟨set', hset', hsetAt'⟩ := h.setAt (hone.trans hle) hend
  have hsame := h.constant hone hle hend hepoch
  rw [hset, hset'] at hsame
  rw [hsetAt, hsetAt', Option.some.inj hsame]

theorem Keeps.faithful (hfingerprint : ∀ key, isSafeScalar (crypto.fingerprint key) = true)
    (h : Keeps crypto sets history) : Faithful crypto sets history where
  hasSet := h.hasSet_iff
  setAt := by
    intro height hhas
    obtain ⟨hone, hle⟩ := (h.hasSet_iff height).mp hhas
    exact h.setAt hone hle
  constant := by
    intro height height' hhas hhas' hepoch
    obtain ⟨hone, hle⟩ := (h.hasSet_iff height).mp hhas
    obtain ⟨hone', hle'⟩ := (h.hasSet_iff height').mp hhas'
    rcases Nat.le_total height height' with horder | horder
    · exact h.setAt_eq hone horder hle' hepoch
    · exact (h.setAt_eq hone' horder hle hepoch.symm).symm
  boundaries := h.changesOnlyAtBoundaries hfingerprint
  window := by
    intro fromHeight hhas
    obtain ⟨hone, hle⟩ := (h.hasSet_iff fromHeight).mp hhas
    exact h.windowFrom hone hle
  restored := ⟨history, h.restore hfingerprint, fun _ => ⟨rfl, rfl⟩⟩

/-- A recorded height keeps its answer when the list grows. -/
theorem Keeps.setAt_later {later : List ValidatorRegistry} {after : ValidatorSetHistory}
    (h : Keeps crypto sets history) (hafter : Keeps crypto later after) (hstarts : sets <+: later)
    {height : Nat} (hhas : history.hasSet height = true) :
    after.setAt height = history.setAt height := by
  obtain ⟨hone, hle⟩ := (h.hasSet_iff height).mp hhas
  obtain ⟨set, hset, hsetAt⟩ := h.setAt hone hle
  obtain ⟨rest, rfl⟩ := hstarts
  obtain ⟨set', hset', hsetAt'⟩ := hafter.setAt hone (by rw [List.length_append]; omega)
  rw [List.getElem?_append_left (by omega), hset] at hset'
  rw [hsetAt, hsetAt', Option.some.inj hset']

/-- **The history is a run-length map.** Where every owner address of the first set and of the
targets is free of delimiters, the history after any calls stands for the uncompressed list, and
later calls leave its answers alone. A refused registry changes no history. -/
theorem history_faithful (crypto : CryptoContext)
    (hfingerprint : ∀ key, isSafeScalar (crypto.fingerprint key) = true)
    (genesis : ValidatorRegistry) (hgenesis : genesis.isValid crypto = true)
    (howners : genesis.hasSafeOwners = true) (calls : List (Nat × ValidatorRegistry))
    (htargets : ∀ call ∈ calls, call.2.hasSafeOwners = true) :
    (∃ first, ValidatorSetHistory.empty.recordSet crypto 1 (.object genesis) = .ok (true, first) ∧
      Faithful crypto (uncompressed crypto genesis calls) (afterRecords crypto first calls) ∧
      ∀ later, (∀ call ∈ later, call.2.hasSafeOwners = true) → ∀ height,
        (afterRecords crypto first calls).hasSet height = true →
        (afterRecords crypto first (calls ++ later)).setAt height
          = (afterRecords crypto first calls).setAt height) ∧
    ∀ (history : ValidatorSetHistory) height reference after,
      history.recordSet crypto height reference = .ok (false, after) → after = history := by
  refine ⟨?_, fun history height reference after h => ValidatorSetHistory.recordSet_refused h⟩
  obtain ⟨first, hfirst, hkeeps⟩ := recordFirst_keeps ⟨hgenesis, howners⟩
  have hafter := afterRecords_keeps hfingerprint hkeeps htargets
  refine ⟨first, hfirst, hafter.faithful hfingerprint, ?_⟩
  intro later hlater height hhas
  have hlaterKeeps := afterRecords_keeps hfingerprint hafter hlater
  unfold afterRecords at hlaterKeeps hafter hhas ⊢
  rw [List.foldl_append]
  exact hafter.setAt_later hlaterKeeps (foldl_extendSets_grows later _) hhas

end ValidatorSetSchedule

--
-- Witness and counterexample
--

namespace ValidatorSetSchedule

/-- A fingerprint without delimiters for every key. -/
def scalarCrypto : CryptoContext :=
  { sampleCrypto with
    fingerprint := fun key => "f" ++ String.ofList (key.keyMaterial.toList.filter Char.isAlphanum) }

theorem scalarCrypto_fingerprint (key : PublicKey) :
    isSafeScalar (scalarCrypto.fingerprint key) = true := by
  have hall : ∀ c ∈ 'f' :: key.keyMaterial.toList.filter Char.isAlphanum, c.isAlphanum = true := by
    intro c hc
    rcases List.mem_cons.mp hc with rfl | hc
    · decide
    · exact (List.mem_filter.mp hc).2
  have htext : (scalarCrypto.fingerprint key).toList
      = 'f' :: key.keyMaterial.toList.filter Char.isAlphanum := by
    simp [scalarCrypto]
  unfold isSafeScalar
  rw [Bool.and_eq_true, Bool.not_eq_true', Bool.not_eq_true', List.any_eq_false]
  refine ⟨?_, ?_⟩
  · rw [← Bool.not_eq_true, String.isEmpty_iff]
    intro hempty
    rw [hempty] at htext
    cases htext
  · intro c hc hdelimiter
    rw [htext] at hc
    have halnum := hall c hc
    simp only [List.contains_eq_mem, decide_eq_true_eq, List.mem_cons, List.not_mem_nil,
      or_false] at hdelimiter
    rcases hdelimiter with rfl | rfl | rfl | rfl | rfl | rfl | rfl | rfl <;> exact absurd halnum (by decide)

/-- A history of four validators with two heights recorded. -/
theorem history_faithful_twoHeights :
    (∃ first, ValidatorSetHistory.empty.recordSet scalarCrypto 1 (.object beforeRotation)
        = .ok (true, first) ∧
      Faithful scalarCrypto (uncompressed scalarCrypto beforeRotation [(1, afterRotation)])
        (afterRecords scalarCrypto first [(1, afterRotation)]) ∧
      ∀ later, (∀ call ∈ later, call.2.hasSafeOwners = true) → ∀ height,
        (afterRecords scalarCrypto first [(1, afterRotation)]).hasSet height = true →
        (afterRecords scalarCrypto first ([(1, afterRotation)] ++ later)).setAt height
          = (afterRecords scalarCrypto first [(1, afterRotation)]).setAt height) ∧
    ∀ (history : ValidatorSetHistory) height reference after,
      history.recordSet scalarCrypto height reference = .ok (false, after) → after = history :=
  history_faithful scalarCrypto scalarCrypto_fingerprint beforeRotation (by decide +kernel)
    (by decide +kernel) [(1, afterRotation)] (by decide +kernel)

/-- What stands between the owner addresses of the two entries below. -/
def ownerGap : String :=
  ";registration=" ++ (ownedEntry "a" "" 4000000 1).2.registrationRecord.serialize sampleCrypto
    ++ "\x7d,ValidatorRegistryEntry\x7bstatus=ACTIVE;lastUpdatedAt=1;stakeAmount=4000000"
    ++ ";consensusWeight=4000000;jailUntilEpoch=0;exitRequestHeight=0;ownerAddress="

/-- The owner of `b` spells out the end of one entry and the start of another. -/
def spelledBefore : ValidatorRegistry where
  entries :=
    ⟨[ownedEntry "a" "x" 4000000 1, ownedEntry "b" ("y" ++ ownerGap ++ "z") 4000000 1], by decide⟩

/-- The same text with the owners of `a` and `b` shifted. -/
def spelledAfter : ValidatorRegistry where
  entries :=
    ⟨[ownedEntry "a" ("x" ++ ownerGap ++ "y") 4000000 1, ownedEntry "b" "z" 4000000 1], by decide⟩

theorem spelled_sameText : spelledBefore.sameText sampleCrypto spelledAfter = .ok true := by
  decide +kernel

theorem eq_of_entries {first second : ValidatorRegistry}
    (h : first.entries.entries = second.entries.entries) : first = second := by
  obtain ⟨⟨entries, hsorted⟩⟩ := first
  obtain ⟨⟨entries', hsorted'⟩⟩ := second
  obtain rfl : entries = entries' := h
  rfl

theorem spelled_project : project sampleCrypto spelledBefore spelledAfter 2 = .ok spelledAfter := by
  have hentries : (project sampleCrypto spelledBefore spelledAfter 2).toOption.map
      (fun registry => registry.entries.entries) = some spelledAfter.entries.entries := by
    decide +kernel
  cases hproject : project sampleCrypto spelledBefore spelledAfter 2 with
  | error reason =>
    rw [hproject] at hentries
    cases hentries
  | ok registry =>
    rw [hproject] at hentries
    exact congrArg Except.ok (eq_of_entries (Option.some.inj hentries))

/-- The history that holds one set for the heights 1 to `highest`. -/
def oneSet (registry : ValidatorRegistry) (highest : Nat) : ValidatorSetHistory :=
  ⟨1, highest, SortedMap.empty.insert 1 registry⟩

theorem oneSet_hasSet (registry : ValidatorRegistry) (highest height : Nat) :
    (oneSet registry highest).hasSet height = decide (1 ≤ height ∧ height ≤ highest) := by
  unfold ValidatorSetHistory.hasSet oneSet
  simp

theorem oneSet_setAt {registry : ValidatorRegistry} {highest height : Nat} (hone : 1 ≤ height)
    (hle : height ≤ highest) : (oneSet registry highest).setAt height = .ok registry := by
  have hfloor : (oneSet registry highest).setsByHeight.floor? height = some registry :=
    SortedMap.floor?_eq_some_iff.mpr ⟨1, rfl, hone, by
      intro other value hfind
      unfold oneSet at hfind
      rw [SortedMap.find?_insert] at hfind
      split_ifs at hfind with heq
      · exact fun _ => heq ▸ le_refl _
      · cases hfind⟩
  unfold ValidatorSetHistory.setAt
  rw [oneSet_hasSet, decide_eq_true ⟨hone, hle⟩, hfloor]
  rfl

/-- A call at the highest height whose set has the text of the one before extends the run. -/
theorem afterRecord_oneSet {crypto : CryptoContext} {registry target next : ValidatorRegistry}
    {highest : Nat} (hone : 1 ≤ highest) (hmax : highest ≠ maxHeight)
    (hnext : nextSet crypto highest registry target = .ok next)
    (hvalid : next.isValid crypto = true) (hsame : registry.sameText crypto next = .ok true) :
    afterRecord crypto (oneSet registry highest) (highest, target)
      = oneSet registry (highest + 1) := by
  have hrecord : (oneSet registry highest).recordSet crypto (highest + 1) (.object next)
      = .ok (true, oneSet registry (highest + 1)) := by
    have happend : (oneSet registry highest).append crypto (highest + 1) false next
        = .ok (oneSet registry (highest + 1)) := by
      show (registry.sameText crypto next >>= fun same => if same = true then _ else _) = _
      rw [hsame]
      rfl
    unfold ValidatorSetHistory.recordSet
    simp only [ValidatorSetHistory.deref, ValidatorSetHistory.refersToLast, bind, Except.bind,
      hvalid, oneSet_hasSet]
    rw [if_neg (by simp), if_neg (by simp), if_neg (by simp), if_neg (by simpa [oneSet] using hmax),
      happend]
    rfl
  unfold afterRecord recordNext
  rw [oneSet_hasSet, if_neg (by simp; omega), oneSet_setAt hone (le_refl _)]
  show (match (nextSet crypto highest registry target >>= fun next =>
      (oneSet registry highest).recordSet crypto (highest + 1) (.object next)) with
    | .ok (_, after) => after
    | .error _ => _) = _
  rw [hnext, show (Except.ok next >>= fun next =>
    (oneSet registry highest).recordSet crypto (highest + 1) (.object next))
      = (oneSet registry highest).recordSet crypto (highest + 1) (.object next) from rfl, hrecord]

/-- The calls at the heights 1 to `count`. -/
def callsUpTo (target : ValidatorRegistry) (count : Nat) : List (Nat × ValidatorRegistry) :=
  (List.range count).map fun index => (index + 1, target)

theorem callsUpTo_succ (target : ValidatorRegistry) (count : Nat) :
    callsUpTo target (count + 1) = callsUpTo target count ++ [(count + 1, target)] := by
  unfold callsUpTo
  rw [List.range_succ, List.map_append]
  rfl

theorem nextSet_inside {crypto : CryptoContext} {height : Nat} (registry target : ValidatorRegistry)
    (hinside : height % nodoValidatorEpochBlocks ≠ 0) :
    nextSet crypto height registry target = .ok registry := by
  unfold nextSet isBoundary
  rw [if_neg (by simp [hinside])]

/-- Up to the boundary the first set stands. -/
theorem spelled_inside {count : Nat} (hcount : count < nodoValidatorEpochBlocks) :
    afterRecords sampleCrypto (oneSet spelledBefore 1) (callsUpTo spelledAfter count)
      = oneSet spelledBefore (count + 1) ∧
    uncompressed sampleCrypto spelledBefore (callsUpTo spelledAfter count)
      = List.replicate (count + 1) spelledBefore := by
  unfold afterRecords uncompressed
  induction count with
  | zero => exact ⟨rfl, rfl⟩
  | succ count ih =>
    obtain ⟨hhistory, hsets⟩ := ih (Nat.lt_of_succ_lt hcount)
    have hinside : (count + 1) % nodoValidatorEpochBlocks ≠ 0 := by
      rw [Nat.mod_eq_of_lt hcount]
      omega
    have hmax : count + 1 ≠ maxHeight := by
      unfold nodoValidatorEpochBlocks at hcount
      unfold maxHeight
      omega
    have hnext := @nextSet_inside sampleCrypto (count + 1) spelledBefore spelledAfter hinside
    rw [callsUpTo_succ, List.foldl_append, List.foldl_append, hhistory, hsets]
    refine ⟨afterRecord_oneSet (Nat.succ_pos count) hmax hnext (by decide +kernel)
      (by decide +kernel), ?_⟩
    show extendSets sampleCrypto _ (count + 1, spelledAfter) = _
    unfold extendSets
    rw [if_pos (by simp [hmax]), List.getLast?_replicate, if_neg (by omega)]
    simp only [hnext]
    rw [← List.replicate_succ']

/-- At the boundary the set changes and its text does not. -/
theorem spelled_boundary {count : Nat} (hcount : count + 1 = nodoValidatorEpochBlocks) :
    afterRecords sampleCrypto (oneSet spelledBefore 1) (callsUpTo spelledAfter (count + 1))
      = oneSet spelledBefore (count + 2) ∧
    uncompressed sampleCrypto spelledBefore (callsUpTo spelledAfter (count + 1))
      = List.replicate (count + 1) spelledBefore ++ [spelledAfter] := by
  obtain ⟨hhistory, hsets⟩ := @spelled_inside count (by omega)
  have hnext : nextSet sampleCrypto (count + 1) spelledBefore spelledAfter = .ok spelledAfter := by
    rw [hcount]
    exact spelled_project
  have hmax : count + 1 ≠ maxHeight := by
    rw [hcount]
    decide
  unfold afterRecords at hhistory ⊢
  unfold uncompressed at hsets ⊢
  rw [callsUpTo_succ, List.foldl_append, List.foldl_append, hhistory, hsets]
  refine ⟨afterRecord_oneSet (Nat.succ_pos count) hmax hnext (by decide +kernel) spelled_sameText, ?_⟩
  show extendSets sampleCrypto _ (count + 1, spelledAfter) = _
  unfold extendSets
  rw [if_pos (by simp [hmax]), List.getLast?_replicate, if_neg (by omega)]
  simp only [hnext]

/-- **A history that drifts.** From the first boundary on it answers with the set before. -/
theorem history_drifts :
    spelledBefore.isValid sampleCrypto = true ∧ spelledAfter.isValid sampleCrypto = true ∧
    ∃ first, ValidatorSetHistory.empty.recordSet sampleCrypto 1 (.object spelledBefore)
        = .ok (true, first) ∧
      (afterRecords sampleCrypto first (callsUpTo spelledAfter nodoValidatorEpochBlocks)).setAt
        (nodoValidatorEpochBlocks + 1) = .ok spelledBefore ∧
      (uncompressed sampleCrypto spelledBefore
        (callsUpTo spelledAfter nodoValidatorEpochBlocks))[nodoValidatorEpochBlocks]?
        = some spelledAfter ∧
      spelledBefore ≠ spelledAfter := by
  have hbefore : spelledBefore.isValid sampleCrypto = true := by decide +kernel
  obtain ⟨count, hcount⟩ : ∃ count, count + 1 = nodoValidatorEpochBlocks := ⟨43199, rfl⟩
  obtain ⟨hhistory, hsets⟩ := spelled_boundary hcount
  rw [← hcount]
  refine ⟨hbefore, by decide +kernel, oneSet spelledBefore 1, recordSet_first hbefore, ?_, ?_, ?_⟩
  · rw [hhistory]
    exact oneSet_setAt (by omega) (le_refl _)
  · rw [hsets, List.getElem?_append_right (by simp), List.length_replicate, Nat.sub_self]
    rfl
  · intro heq
    have howner := congrArg (fun registry : ValidatorRegistry =>
      (registry.entries.entries.map fun e => e.2.ownerAddress)) heq
    exact absurd howner (by decide +kernel)

end ValidatorSetSchedule

end Nodo.Model
