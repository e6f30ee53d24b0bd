import Mathlib.Data.List.Induction
import Nodo.Model.GovernancePayload
import Nodo.Model.HistoryRetention

/-!
# Nodo — archive segments and providers

The commitment to a sealed segment (`archive/ArchiveSegment.cpp`) and the registry of the
providers that keep segments (`archive/ArchiveProvider.cpp`). A provider registers once, with a
signed bond and capacity, becomes active at a later height and is removed for good. Its key in
the draw of segments is hashed from the block of its activation.

Every record of the registry lies under the id it registered. Identifiers are at most 128 bytes
long and a key is a digest, so the canonical writer refuses none of them.

## Results

* `isContiguous_spec` — a segment of a contiguous list carries its place in it.
* `ArchiveProviderRegistry.nodup_activeProviders` — no two active providers share an id.
* `ArchiveProviderRegistry.run_accountedFor`, `ArchiveProviderRegistry.run_movedOn` — what a run
  of calls tells of a provider, and leaves of it.
-/

namespace Nodo.Model

namespace CanonicalWriter

/-- `writeString` of a string that is not too long. -/
def writeText (value : String) : String := writeUInt32 value.length ++ value

end CanonicalWriter

/-- `archive::isDigestHex`. -/
def isDigestHex (value : String) : Bool := isCanonicalHashString value

--
-- Segments
--

structure ArchiveSegmentCommitment where
  chainId : String
  segmentIndex : UInt64
  firstHeight : UInt64
  lastHeight : UInt64
  pieceBytes : UInt32
  totalBytes : UInt64
  pieceCount : UInt64
  pieceRoot : String
  lastBlockHash : String
  deriving DecidableEq

def ArchiveSegmentCommitment.isValid (segment : ArchiveSegmentCommitment) : Bool :=
  if !(isSafeIdentifier "_-." segment.chainId && segment.chainId.utf8ByteSize ≤ 128)
      || segment.firstHeight == 0 || segment.lastHeight < segment.firstHeight
      || segment.pieceBytes == 0 || segment.totalBytes == 0 || segment.pieceCount == 0
      || V1MerkleTree.kMaxLeaves < segment.pieceCount.toNat
      || !isDigestHex segment.pieceRoot || !isDigestHex segment.lastBlockHash then false
  else if segment.lastHeight - segment.firstHeight + 1
      > segment.totalBytes / HistoryParameters.kArchiveBlockFramingBytes.toUInt64 then false
  else segment.pieceCount == (segment.totalBytes - 1) / segment.pieceBytes.toUInt64 + 1

/-- `ArchiveIndex::isContiguous`. -/
def ArchiveIndex.isContiguous (ordered : List ArchiveSegmentCommitment) : Bool :=
  ordered.zipIdx.all fun (segment, index) =>
    segment.isValid && segment.segmentIndex.toNat == index
      && ordered.head?.all (·.chainId == segment.chainId)

/-- **A segment of a contiguous list carries its place in it.** -/
theorem ArchiveIndex.isContiguous_spec {ordered : List ArchiveSegmentCommitment}
    (h : isContiguous ordered = true) {index : ℕ} {segment : ArchiveSegmentCommitment}
    (hget : ordered[index]? = some segment) : segment.segmentIndex.toNat = index := by
  have hmem : (segment, index) ∈ ordered.zipIdx := List.mk_mem_zipIdx_iff_getElem?.mpr hget
  have hchecked := List.all_eq_true.mp h _ hmem
  simp only [Bool.and_eq_true, beq_iff_eq] at hchecked
  exact hchecked.1.2

--
-- Registrations
--

structure ArchiveProviderRegistrationFields where
  chainId : String
  providerId : String
  publicKeyHex : String
  operatorId : String
  bondRawUnits : UInt64
  declaredCapacityBytes : UInt64
  registeredHeight : UInt64
  deriving DecidableEq

structure ArchiveProviderRegistration where
  fields : ArchiveProviderRegistrationFields
  signature : Signature
  deriving DecidableEq

/-- The primitives of the archive. -/
structure ArchiveCrypto where
  /-- `hashHex`: the digits of the hash of a domain and bytes. -/
  hashHex : String → String → String
  /-- `AddressDerivation::deriveFromPublicKey` of an Ed25519 key; `none` where it throws. -/
  deriveFromPublicKey : String → Option String
  /-- `Ed25519SignatureProvider::verify(message, signature).success()`. -/
  providerVerify : String → Signature → Bool

/-- `ArchiveSignature::verify`. -/
def ArchiveSignature.verify (crypto : ArchiveCrypto) (body purpose : String)
    (signature : Signature) (expectedPublicKeyHex : String) : Bool :=
  if signature.domain != .archivalProof || signature.algorithm != .classicEd25519
      || signature.publicKey.keyMaterial != expectedPublicKeyHex then false
  else crypto.providerVerify (crypto.hashHex purpose body) signature

namespace ArchiveProviderRegistration

variable (crypto : ArchiveCrypto) (registration : ArchiveProviderRegistration)

def isStructurallyValid : Bool :=
  let f := registration.fields
  if !(isSafeIdentifier "_-." f.chainId && f.chainId.utf8ByteSize ≤ 128)
      || !(isSafeIdentifier "_-.:" f.providerId && f.providerId.utf8ByteSize ≤ 128)
      || !(isSafeIdentifier "_-.:" f.operatorId && f.operatorId.utf8ByteSize ≤ 128)
      || f.publicKeyHex.length != 64
      || !f.publicKeyHex.toList.all ("0123456789abcdef".toList.contains ·)
      || f.bondRawUnits == 0 || f.bondRawUnits.toNat > 2 ^ 63 - 1
      || f.declaredCapacityBytes == 0 || f.registeredHeight == 0 then false
  else crypto.deriveFromPublicKey f.publicKeyHex == some f.providerId

def encodeBody : String :=
  let f := registration.fields
  CanonicalWriter.writeText "NODO_ARCHIVE_PROVIDER_REGISTRATION_V1"
    ++ CanonicalWriter.writeText f.chainId ++ CanonicalWriter.writeText f.providerId
    ++ CanonicalWriter.writeText f.publicKeyHex ++ CanonicalWriter.writeText f.operatorId
    ++ CanonicalWriter.writeUInt64 f.bondRawUnits
    ++ CanonicalWriter.writeUInt64 f.declaredCapacityBytes
    ++ CanonicalWriter.writeUInt64 f.registeredHeight

def verifySignature : Bool :=
  registration.isStructurallyValid crypto
    && ArchiveSignature.verify crypto registration.encodeBody "ARCHIVE/REGISTRATION"
      registration.signature registration.fields.publicKeyHex

def maxSlots (parameters : HistoryParameters) : UInt64 :=
  if parameters.isValid then
    registration.fields.bondRawUnits / parameters.archiveMinBondPerSlotRawUnits
  else 0

end ArchiveProviderRegistration

--
-- The registry
--

inductive ArchiveProviderStatus
  | pending
  | active
  | removed
  deriving DecidableEq

structure ArchiveProviderRecord where
  registration : ArchiveProviderRegistration
  status : ArchiveProviderStatus
  activationHeight : UInt64
  assignmentKey : String
  successfulEpochStreak : UInt32
  consecutiveFailedEpochs : UInt32
  removedAtHeight : UInt64
  removalReason : String
  deriving DecidableEq

namespace ArchiveProviderRecord

def providerId (record : ArchiveProviderRecord) : String := record.registration.fields.providerId

def operatorId (record : ArchiveProviderRecord) : String := record.registration.fields.operatorId

end ArchiveProviderRecord

inductive ArchiveRegistrationStatus
  | registered
  | malformed
  | badSignature
  | wrongChain
  | insufficientBond
  | duplicateProvider
  deriving DecidableEq

/-- The registry; every record lies under the id it registered. -/
structure ArchiveProviderRegistry where
  chainId : String
  records : SortedMap String ArchiveProviderRecord
  keyed : ∀ entry ∈ records.entries, entry.2.providerId = entry.1

namespace ArchiveProviderRegistry

def empty (chainId : String) : ArchiveProviderRegistry :=
  ⟨chainId, .empty, fun _ hentry => absurd hentry List.not_mem_nil⟩

variable (crypto : ArchiveCrypto) (registry : ArchiveProviderRegistry)

/-- A record put under the id it registered. -/
def put (record : ArchiveProviderRecord) : ArchiveProviderRegistry where
  chainId := registry.chainId
  records := registry.records.insert record.providerId record
  keyed entry hentry := by
    obtain ⟨key, stored⟩ := entry
    have hfind := (SortedMap.find?_eq_some_iff _).mpr hentry
    rw [SortedMap.find?_insert] at hfind
    split_ifs at hfind with hkey
    · cases hfind
      exact hkey
    · exact registry.keyed _ ((SortedMap.find?_eq_some_iff _).mp hfind)

def registerProvider (registration : ArchiveProviderRegistration)
    (parameters : HistoryParameters) : ArchiveRegistrationStatus × ArchiveProviderRegistry :=
  if !registration.isStructurallyValid crypto || !parameters.isValid then (.malformed, registry)
  else if !registration.verifySignature crypto then (.badSignature, registry)
  else if registration.fields.chainId != registry.chainId then (.wrongChain, registry)
  else if registration.maxSlots parameters == 0 then (.insufficientBond, registry)
  else if registry.records.contains registration.fields.providerId then
    (.duplicateProvider, registry)
  else if registration.fields.registeredHeight
      > 18446744073709551615 - parameters.archiveProviderActivationDelayBlocks then
    (.malformed, registry)
  else (.registered, registry.put {
    registration
    status := .pending
    activationHeight := registration.fields.registeredHeight
      + parameters.archiveProviderActivationDelayBlocks
    assignmentKey := ""
    successfulEpochStreak := 0
    consecutiveFailedEpochs := 0
    removedAtHeight := 0
    removalReason := "" })

/-- What `activateAt` does with a record under `providerId`. -/
def activated (height : UInt64) (blockHash providerId : String) (record : ArchiveProviderRecord) :
    ArchiveProviderRecord :=
  if record.status != .pending || record.activationHeight != height then record
  else { record with
    assignmentKey := crypto.hashHex "ARCHIVE/PROVIDER-KEY"
      (CanonicalWriter.writeText providerId ++ CanonicalWriter.writeText blockHash)
    status := .active }

theorem activated_providerId (height : UInt64) (blockHash providerId : String)
    (record : ArchiveProviderRecord) :
    (activated crypto height blockHash providerId record).providerId = record.providerId := by
  unfold activated
  split_ifs <;> rfl

def activateAt (height : UInt64) (blockHash : String) :
    Except String (ℕ × ArchiveProviderRegistry) :=
  if !isDigestHex blockHash then .error "Activation needs a finalized block hash."
  else .ok (registry.records.entries.countP fun entry =>
      entry.2.status == .pending && entry.2.activationHeight == height,
    { chainId := registry.chainId
      records := ⟨registry.records.entries.map fun entry =>
          (entry.1, activated crypto height blockHash entry.1 entry.2),
        List.pairwise_map.mpr registry.records.sorted⟩
      keyed := by
        intro entry hentry
        obtain ⟨old, hold, rfl⟩ := List.mem_map.mp hentry
        exact (activated_providerId ..).trans (registry.keyed old hold) })

def remove (providerId : String) (height : UInt64) (reason : String) :
    Bool × ArchiveProviderRegistry :=
  match registry.records.find? providerId with
  | none => (false, registry)
  | some record =>
    if record.status == .removed then (false, registry)
    else (true, registry.put { record with
      status := .removed
      removedAtHeight := height
      removalReason := reason })

def activeProviders : List ArchiveProviderRecord :=
  (registry.records.entries.map (·.2)).filter (·.status == .active)

/-- **No two active providers share an id.** -/
theorem nodup_activeProviders : (registry.activeProviders.map (·.providerId)).Nodup := by
  have hkeys : (registry.records.entries.map (·.2)).map (·.providerId) = registry.records.keys := by
    rw [List.map_map]
    exact List.map_congr_left registry.keyed
  have hnodup := registry.records.keys_nodup
  rw [← hkeys] at hnodup
  exact hnodup.sublist (List.filter_sublist.map _)

--
-- Runs of the registry
--

inductive Call
  | registerProvider (registration : ArchiveProviderRegistration) (parameters : HistoryParameters)
  | activateAt (height : UInt64) (blockHash : String)
  | remove (providerId : String) (height : UInt64) (reason : String)

def perform (registry : ArchiveProviderRegistry) : Call → ArchiveProviderRegistry
  | .registerProvider registration parameters =>
    (registry.registerProvider crypto registration parameters).2
  | .activateAt height blockHash => match registry.activateAt crypto height blockHash with
    | .error _ => registry
    | .ok (_, next) => next
  | .remove providerId height reason => (registry.remove providerId height reason).2

def run (calls : List Call) : ArchiveProviderRegistry := calls.foldl (perform crypto) registry

/-- What a call does to the record under an id. -/
inductive Moved (id : String) :
    Call → Option ArchiveProviderRecord → Option ArchiveProviderRecord → Prop
  | kept (call : Call) (record : Option ArchiveProviderRecord) :
    Moved id call record record
  | registered {registration : ArchiveProviderRegistration} {parameters : HistoryParameters}
    {record : ArchiveProviderRecord} (hrecord : record.registration = registration)
    (hsigned : registration.verifySignature crypto = true) (hpending : record.status = .pending)
    (hheight : record.activationHeight.toNat = registration.fields.registeredHeight.toNat
      + parameters.archiveProviderActivationDelayBlocks.toNat) :
    Moved id (.registerProvider registration parameters) none (some record)
  | activated {record : ArchiveProviderRecord} {blockHash : String}
    (hpending : record.status = .pending) (hdigest : isDigestHex blockHash = true) :
    Moved id (.activateAt record.activationHeight blockHash) (some record) (some { record with
      assignmentKey := crypto.hashHex "ARCHIVE/PROVIDER-KEY"
        (CanonicalWriter.writeText id ++ CanonicalWriter.writeText blockHash)
      status := .active })
  | removed {record : ArchiveProviderRecord} {height : UInt64} {reason : String}
    (hthere : record.status ≠ .removed) :
    Moved id (.remove id height reason) (some record) (some { record with
      status := .removed
      removedAtHeight := height
      removalReason := reason })

variable {crypto registry}

theorem moved_registerProvider (registration : ArchiveProviderRegistration)
    (parameters : HistoryParameters) (id : String) :
    Moved crypto id (.registerProvider registration parameters)
      (registry.records.find? id)
      ((registry.registerProvider crypto registration parameters).2.records.find? id) := by
  unfold registerProvider
  split_ifs with hformed hsigned hchain hbond hfresh hroom
  all_goals first
    | exact .kept _ _
    | skip
  simp only [put, SortedMap.find?_insert]
  split_ifs with hid
  · change registration.fields.providerId = id at hid
    have hnone : registry.records.find? id = none := by
      rw [← hid]
      simpa [SortedMap.contains] using hfresh
    rw [hnone]
    refine .registered rfl (by simpa using hsigned) rfl ?_
    have hbound := UInt64.toNat_lt parameters.archiveProviderActivationDelayBlocks
    rw [gt_iff_lt, UInt64.lt_iff_toNat_lt, UInt64.toNat_sub_of_le _ _ (by
      rw [UInt64.le_iff_toNat_le]
      exact Nat.le_of_lt_succ hbound)] at hroom
    rw [UInt64.toNat_add]
    have hmax : (18446744073709551615 : UInt64).toNat = 18446744073709551615 := rfl
    omega
  · exact .kept _ _

theorem moved_activateAt (height : UInt64) (blockHash : String) (id : String) :
    Moved crypto id (.activateAt height blockHash) (registry.records.find? id)
      ((registry.perform crypto (.activateAt height blockHash)).records.find? id) := by
  simp only [perform]
  unfold activateAt
  split_ifs with hdigest
  · exact .kept _ _
  · show Moved crypto id _ _ (((registry.records.entries.map fun entry =>
      (entry.1, activated crypto height blockHash entry.1 entry.2)).find? (·.1 == id)).map (·.2))
    rw [List.find?_map]
    show Moved crypto id _ (Option.map _ (registry.records.entries.find? (·.1 == id)))
      (Option.map _ (Option.map _ (registry.records.entries.find? (·.1 == id))))
    cases hentry : registry.records.entries.find? (·.1 == id) with
    | none => exact .kept _ _
    | some entry =>
      have hid : entry.1 = id := by simpa using List.find?_some hentry
      simp only [Option.map_some, hid]
      unfold activated
      split_ifs with hpasses
      · exact .kept _ _
      · simp only [Bool.or_eq_true, bne_iff_ne, ne_eq, not_or, not_not] at hpasses
        obtain ⟨hpending, rfl⟩ := hpasses
        exact .activated hpending (by simpa using hdigest)

theorem moved_remove (providerId : String) (height : UInt64) (reason : String) (id : String) :
    Moved crypto id (.remove providerId height reason) (registry.records.find? id)
      ((registry.remove providerId height reason).2.records.find? id) := by
  unfold remove
  split
  · exact .kept _ _
  · rename_i record hfind
    have hkey : record.providerId = providerId :=
      registry.keyed _ ((SortedMap.find?_eq_some_iff _).mp hfind)
    split_ifs with hremoved
    · exact .kept _ _
    · show Moved crypto id _ _ ((registry.records.insert record.providerId _).find? id)
      rw [SortedMap.find?_insert, hkey]
      split_ifs with hid
      · subst hid
        rw [hfind]
        exact .removed (by simpa using hremoved)
      · exact .kept _ _

/-- **One call**, seen from one id. -/
theorem moved_perform (call : Call) (id : String) :
    Moved crypto id call (registry.records.find? id)
      ((registry.perform crypto call).records.find? id) := by
  cases call with
  | registerProvider registration parameters => exact moved_registerProvider registration parameters id
  | activateAt height blockHash => exact moved_activateAt height blockHash id
  | remove providerId height reason => exact moved_remove providerId height reason id

/-- What a record tells of the calls before it. -/
structure Told (crypto : ArchiveCrypto) (id : String) (calls : List Call)
    (record : ArchiveProviderRecord) : Prop where
  signed : record.registration.verifySignature crypto = true
  registered : ∃ parameters, .registerProvider record.registration parameters ∈ calls
    ∧ record.activationHeight.toNat = record.registration.fields.registeredHeight.toNat
      + parameters.archiveProviderActivationDelayBlocks.toNat
  drawn : record.status = .active → ∃ blockHash, isDigestHex blockHash = true
    ∧ .activateAt record.activationHeight blockHash ∈ calls
    ∧ record.assignmentKey = crypto.hashHex "ARCHIVE/PROVIDER-KEY"
      (CanonicalWriter.writeText id ++ CanonicalWriter.writeText blockHash)

theorem Told.moved {id : String} {calls : List Call} {call : Call}
    {old new : Option ArchiveProviderRecord} (hmoved : Moved crypto id call old new)
    (h : ∀ record ∈ old, Told crypto id calls record) :
    ∀ record ∈ new, Told crypto id (calls ++ [call]) record := by
  intro record hrecord
  have hcall : call ∈ calls ++ [call] := List.mem_append_right _ (List.mem_singleton.mpr rfl)
  have hbefore : ∀ {c}, c ∈ calls → c ∈ calls ++ [call] := fun hc => List.mem_append_left _ hc
  have hkept : ∀ {r}, Told crypto id calls r → Told crypto id (calls ++ [call]) r := by
    intro r ⟨hsigned, ⟨parameters, hin, hheight⟩, hdrawn⟩
    refine ⟨hsigned, ⟨parameters, hbefore hin, hheight⟩, fun hactive => ?_⟩
    obtain ⟨blockHash, hdigest, hin, hkey⟩ := hdrawn hactive
    exact ⟨blockHash, hdigest, hbefore hin, hkey⟩
  cases hmoved with
  | kept => exact hkept (h record hrecord)
  | registered hregistration hsigned hpending hheight =>
    cases hrecord
    subst hregistration
    exact ⟨hsigned, ⟨_, hcall, hheight⟩, fun hactive => by cases hpending.symm.trans hactive⟩
  | activated hpending hdigest =>
    cases hrecord
    obtain ⟨hsigned, hregistered, -⟩ := hkept (h _ rfl)
    exact ⟨hsigned, hregistered, fun _ => ⟨_, hdigest, hcall, rfl⟩⟩
  | removed hthere =>
    cases hrecord
    obtain ⟨hsigned, hregistered, -⟩ := hkept (h _ rfl)
    exact ⟨hsigned, hregistered, fun hactive => by cases hactive⟩

/-- A registry that its calls account for. -/
def AccountedFor (crypto : ArchiveCrypto) (calls : List Call) (registry : ArchiveProviderRegistry) :
    Prop :=
  ∀ id, ∀ record ∈ registry.records.find? id, Told crypto id calls record

/-- **Nobody chooses a key.** In every run a provider was registered under its own signature, and an
active one has the key of its id and the block of its activation height, which its registration
fixed. -/
theorem run_accountedFor (chainId : String) (calls : List Call) :
    AccountedFor crypto calls (run crypto (empty chainId) calls) := by
  induction calls using List.reverseRecOn with
  | nil =>
    intro id record hrecord
    cases hrecord
  | append_singleton calls call ih =>
    intro id
    rw [run, List.foldl_append]
    exact Told.moved (@moved_perform crypto (run crypto (empty chainId) calls) call id) (ih id)

/-- A record of one provider, and what it may become. -/
structure Later (record record' : ArchiveProviderRecord) : Prop where
  registration : record'.registration = record.registration
  height : record'.activationHeight = record.activationHeight
  key : record.status ≠ .pending →
    record'.status ≠ .pending ∧ record'.assignmentKey = record.assignmentKey
  removed : record.status = .removed → record' = record

theorem Later.moved {id : String} {call : Call} {record later : ArchiveProviderRecord}
    {new : Option ArchiveProviderRecord} (h : Later record later)
    (hmoved : Moved crypto id call (some later) new) :
    ∃ record', new = some record' ∧ Later record record' := by
  obtain ⟨hregistration, hheight, hkey, hremoved⟩ := h
  cases hmoved with
  | kept => exact ⟨later, rfl, hregistration, hheight, hkey, hremoved⟩
  | activated hpending hdigest =>
    refine ⟨_, rfl, hregistration, hheight, fun hdrawn => ?_, fun hgone => ?_⟩
    · exact absurd hpending (hkey hdrawn).1
    · rw [hremoved hgone] at hpending
      cases hgone.symm.trans hpending
  | removed hthere =>
    refine ⟨_, rfl, hregistration, hheight, fun hdrawn => ⟨by simp, (hkey hdrawn).2⟩,
      fun hgone => ?_⟩
    rw [hremoved hgone] at hthere
    exact absurd hgone hthere

/-- A registry and one that it may become. -/
structure MovedOn (crypto : ArchiveCrypto) (registry registry' : ArchiveProviderRegistry) :
    Prop where
  record : ∀ id record, registry.records.find? id = some record →
    ∃ record', registry'.records.find? id = some record' ∧ Later record record'
  once : ∀ registration parameters,
    (registry'.registerProvider crypto registration parameters).1 = .registered →
      registry.records.find? registration.fields.providerId = none

/-- **A provider registers once and is removed for good.** Whatever is called, the record of a
provider stays with its registration and its activation height; its key is drawn once, a removed
provider keeps the record it was removed with, and its id is never registered again. -/
theorem run_movedOn (registry : ArchiveProviderRegistry) (calls : List Call) :
    MovedOn crypto registry (registry.run crypto calls) := by
  have hrecord : ∀ id record, registry.records.find? id = some record →
      ∃ record', (registry.run crypto calls).records.find? id = some record'
        ∧ Later record record' := by
    intro id record hfind
    induction calls using List.reverseRecOn with
    | nil => exact ⟨record, hfind, rfl, rfl, fun h => ⟨h, rfl⟩, fun _ => rfl⟩
    | append_singleton calls call ih =>
      obtain ⟨later, hlater, h⟩ := ih
      have hmoved := @moved_perform crypto (registry.run crypto calls) call id
      rw [hlater] at hmoved
      rw [run, List.foldl_append]
      exact h.moved hmoved
  refine ⟨hrecord, fun registration parameters hregistered => ?_⟩
  cases hfind : registry.records.find? registration.fields.providerId with
  | none => rfl
  | some record =>
    obtain ⟨record', hfind', -⟩ := hrecord _ record hfind
    have hthere : (registry.run crypto calls).records.contains registration.fields.providerId = true :=
      (SortedMap.contains_iff _).mpr ⟨record', hfind'⟩
    unfold registerProvider at hregistered
    rw [if_pos hthere] at hregistered
    split_ifs at hregistered

end ArchiveProviderRegistry

end Nodo.Model
