import Nodo.Lib.MapCounts
import Nodo.Model.CommitStorage

/-!
# Nodo — the registry of peers

`p2p/Peer.cpp` and `p2p/PeerRegistry.cpp`: what a node knows of its peers. A peer is known
by its node id and bound to one cryptographic identity. A ban quarantines the peer and
keeps its entry; a lift of expired penalties makes it active again. An update by a new
handshake changes the address and keeps reputation and penalties.

## Results

* `PeerRegistry.Filed` — entries are filed under their node ids and their identities.
* `PeerRegistry.Filed.registerPeer`, `Filed.setPeer`, `Filed.lift` — every operation keeps it.
-/

namespace Nodo.Model

--
-- Peers
--

/-- `isSafePeerScalar`. -/
def isSafePeerScalar (value : String) (maxSize : Nat) : Bool :=
  isSafeIdentifier "_-.:/" value && value.length ≤ maxSize

structure PeerEndpoint where
  host : String
  port : Nat
  deriving DecidableEq, Repr

def PeerEndpoint.isValid (endpoint : PeerEndpoint) : Bool :=
  isSafePeerScalar endpoint.host 255 && endpoint.port != 0

structure PeerMetadata where
  nodeId : String
  endpoint : PeerEndpoint
  publicKeyFingerprint : String
  firstSeenAt : Int
  lastSeenAt : Int
  score : Int
  quarantined : Bool
  bannedUntil : Int
  banReason : String
  deriving DecidableEq, Repr

namespace PeerMetadata

def bannedAt (peer : PeerMetadata) (now : Int) : Bool := 0 < now && now < peer.bannedUntil

/-- `identityKey`; the hash is that of `nodo_hash_string`. -/
def identityKey (hashBytes : String → String) (peer : PeerMetadata) : String :=
  "peer-key-" ++ hashBytes (cString ("NODO_PEER_IDENTITY_V1|" ++
    String.ofList (peer.publicKeyFingerprint.toList.map Char.toLower)))

/-- `withScoreDelta`: the sum stays within 32 bits. -/
def withScoreDelta (peer : PeerMetadata) (delta : Int) : PeerMetadata :=
  { peer with score := max (-2147483648) (min 2147483647 (peer.score + delta)) }

def bannedCopy (peer : PeerMetadata) (bannedUntil : Int) (reason : String) : PeerMetadata :=
  { peer with quarantined := true, bannedUntil := bannedUntil, banReason := reason }

def penaltyLiftedCopy (peer : PeerMetadata) (seenAt : Int) : PeerMetadata :=
  { peer with
    lastSeenAt := if seenAt > peer.lastSeenAt then seenAt else peer.lastSeenAt
    quarantined := false, bannedUntil := 0, banReason := "" }

def isValid (peer : PeerMetadata) : Bool :=
  isSafePeerScalar peer.nodeId 160 && peer.endpoint.isValid
    && isSafePeerScalar peer.publicKeyFingerprint 160 && 0 < peer.firstSeenAt
    && peer.firstSeenAt ≤ peer.lastSeenAt && 0 ≤ peer.bannedUntil
    && (peer.banReason.isEmpty || isSafePeerScalar peer.banReason 200)

/-- Neither quarantined nor under a ban, whatever the time. -/
def isActive (peer : PeerMetadata) : Bool := !peer.quarantined && peer.bannedUntil == 0

/-- The penalty of the peer is a ban that is over. -/
def penaltyExpired (peer : PeerMetadata) (now : Int) : Bool :=
  peer.quarantined && 0 < peer.bannedUntil && peer.bannedUntil ≤ now

end PeerMetadata

--
-- The registry
--

inductive PeerRegistryStatus
  | registered
  | updated
  | rejected
  | notFound
  deriving DecidableEq, Repr

structure PeerRegistryResult where
  status : PeerRegistryStatus
  reason : String
  deriving DecidableEq, Repr

def PeerRegistryResult.success (result : PeerRegistryResult) : Bool :=
  result.status == .registered || result.status == .updated

structure PeerRegistry where
  peersByNodeId : SortedMap String PeerMetadata
  nodeIdByIdentityKey : SortedMap String String

namespace PeerRegistry

def empty : PeerRegistry := ⟨SortedMap.empty, SortedMap.empty⟩

def contains (registry : PeerRegistry) (nodeId : String) : Bool :=
  registry.peersByNodeId.contains nodeId

def peer (registry : PeerRegistry) (nodeId : String) : Option PeerMetadata :=
  registry.peersByNodeId.find? nodeId

def allPeers (registry : PeerRegistry) : List PeerMetadata :=
  registry.peersByNodeId.entries.map (·.2)

def activePeers (registry : PeerRegistry) : List PeerMetadata :=
  registry.allPeers.filter (·.isActive)

def activePeersAt (registry : PeerRegistry) (now : Int) : List PeerMetadata :=
  registry.allPeers.filter fun peer => !peer.quarantined && !peer.bannedAt now

/-- What `registerPeer` keeps of an entry that is there. -/
def mergeWith (existing peer : PeerMetadata) : PeerMetadata where
  nodeId := peer.nodeId
  endpoint := peer.endpoint
  publicKeyFingerprint := existing.publicKeyFingerprint
  firstSeenAt := min existing.firstSeenAt peer.firstSeenAt
  lastSeenAt := max existing.lastSeenAt peer.lastSeenAt
  score := existing.score
  quarantined := existing.quarantined
  bannedUntil := existing.bannedUntil
  banReason := existing.banReason

def registerPeer (hashBytes : String → String) (registry : PeerRegistry) (peer : PeerMetadata) :
    PeerRegistryResult × PeerRegistry :=
  if !peer.isValid then (⟨.rejected, "Peer metadata is invalid."⟩, registry)
  else
    let existing := registry.peersByNodeId.find? peer.nodeId
    if existing.any (·.identityKey hashBytes != peer.identityKey hashBytes) then
      (⟨.rejected, "Peer node id is already bound to a different cryptographic identity."⟩, registry)
    else if (registry.nodeIdByIdentityKey.find? (peer.identityKey hashBytes)).any
        (· != peer.nodeId) then
      (⟨.rejected, "Peer cryptographic identity is already bound to a different node id."⟩,
        registry)
    else
      let status := if existing.isNone then PeerRegistryStatus.registered else .updated
      let kept := (existing.map (mergeWith · peer)).getD peer
      (⟨status, "Peer registry accepted peer metadata."⟩,
        { peersByNodeId := registry.peersByNodeId.insert kept.nodeId kept
          nodeIdByIdentityKey :=
            registry.nodeIdByIdentityKey.insert (kept.identityKey hashBytes) kept.nodeId })

/-- `found->second = ...` of an entry that was found. -/
def setPeer (registry : PeerRegistry) (nodeId : String) (peer : PeerMetadata) : PeerRegistry :=
  { registry with peersByNodeId := registry.peersByNodeId.insert nodeId peer }

def adjustScore (registry : PeerRegistry) (nodeId : String) (delta : Int) (reason : String) :
    PeerRegistryResult × PeerRegistry :=
  match registry.peersByNodeId.find? nodeId with
  | none => (⟨.notFound, "Peer was not found."⟩, registry)
  | some found => (⟨.updated, reason⟩, registry.setPeer nodeId (found.withScoreDelta delta))

def canonicalPenaltyReason (reason : String) : String :=
  if reason.isEmpty then "p2p.temporary-ban"
  else String.ofList ((reason.toList.take 160).map fun c =>
    if ('a' ≤ c && c ≤ 'z') || ('A' ≤ c && c ≤ 'Z') || ('0' ≤ c && c ≤ '9')
      || c == '_' || c == '-' || c == '.' || c == ':' || c == '/' then c else '_')

def banPeer (registry : PeerRegistry) (nodeId : String) (bannedUntil : Int) (reason : String) :
    PeerRegistryResult × PeerRegistry :=
  match registry.peersByNodeId.find? nodeId with
  | none => (⟨.notFound, "Peer was not found."⟩, registry)
  | some found =>
    if bannedUntil ≤ 0 then (⟨.rejected, "Peer ban is invalid."⟩, registry)
    else
      let banned := found.bannedCopy bannedUntil (canonicalPenaltyReason reason)
      if !banned.isValid then (⟨.rejected, "Peer ban produced invalid metadata."⟩, registry)
      else (⟨.updated, "Peer temporary ban applied."⟩, registry.setPeer nodeId banned)

/-- The peers that are active again, counted, and the registry with them. -/
def liftExpiredPeerPenalties (registry : PeerRegistry) (now : Int) : Nat × PeerRegistry :=
  if now ≤ 0 then (0, registry)
  else
    (registry.allPeers.countP (·.penaltyExpired now),
      { registry with
        peersByNodeId := registry.peersByNodeId.mapValues fun peer =>
          if peer.penaltyExpired now then peer.penaltyLiftedCopy now else peer })

end PeerRegistry

--
-- What the operations keep
--

namespace PeerRegistry

/-- Entries are filed under their node ids, and their identities are bound to these. -/
structure Filed (hashBytes : String → String) (registry : PeerRegistry) : Prop where
  nodeId_eq : ∀ nodeId peer, registry.peersByNodeId.find? nodeId = some peer → peer.nodeId = nodeId
  owner : ∀ nodeId peer, registry.peersByNodeId.find? nodeId = some peer →
    registry.nodeIdByIdentityKey.find? (peer.identityKey hashBytes) = some nodeId

variable {hashBytes : String → String} {registry : PeerRegistry} {peer existing : PeerMetadata}
  {nodeId : String}

theorem filed_empty : empty.Filed hashBytes :=
  ⟨(fun _ _ h => nomatch h), (fun _ _ h => nomatch h)⟩

/-- What `registerPeer` files for a peer. -/
def keptEntry (registry : PeerRegistry) (peer : PeerMetadata) : PeerMetadata :=
  ((registry.peersByNodeId.find? peer.nodeId).map (mergeWith · peer)).getD peer

@[simp] theorem nodeId_keptEntry : (registry.keptEntry peer).nodeId = peer.nodeId := by
  unfold keptEntry
  cases registry.peersByNodeId.find? peer.nodeId <;> rfl

@[simp] theorem endpoint_keptEntry : (registry.keptEntry peer).endpoint = peer.endpoint := by
  unfold keptEntry
  cases registry.peersByNodeId.find? peer.nodeId <;> rfl

/-- When `registerPeer` accepts a peer. -/
def Accepts (hashBytes : String → String) (registry : PeerRegistry) (peer : PeerMetadata) : Prop :=
  peer.isValid = true ∧
    (∀ existing, registry.peersByNodeId.find? peer.nodeId = some existing →
      existing.identityKey hashBytes = peer.identityKey hashBytes) ∧
    ∀ nodeId, registry.nodeIdByIdentityKey.find? (peer.identityKey hashBytes) = some nodeId →
      nodeId = peer.nodeId

/-- **The outcomes of `registerPeer`.** -/
theorem registerPeer_spec :
    ((registry.registerPeer hashBytes peer).1.success = false ∧ ¬ registry.Accepts hashBytes peer ∧
      (registry.registerPeer hashBytes peer).2 = registry) ∨
    ((registry.registerPeer hashBytes peer).1.success = true ∧ registry.Accepts hashBytes peer ∧
      (registry.registerPeer hashBytes peer).2 =
        ⟨registry.peersByNodeId.insert peer.nodeId (registry.keptEntry peer),
          registry.nodeIdByIdentityKey.insert (peer.identityKey hashBytes) peer.nodeId⟩) := by
  unfold registerPeer
  dsimp only
  split
  · rename_i hinvalid
    refine .inl ⟨rfl, fun haccepts => ?_, rfl⟩
    rw [haccepts.1] at hinvalid
    exact nomatch hinvalid
  rename_i hvalid
  have hvalid : peer.isValid = true := by simpa using hvalid
  split
  · rename_i hother
    refine .inl ⟨rfl, fun haccepts => ?_, rfl⟩
    obtain ⟨existing, hfind, hne⟩ := (Option.any_eq_true _ _).mp hother
    exact absurd (haccepts.2.1 existing hfind) (by simpa using hne)
  rename_i hsame
  have hsame : ∀ existing, registry.peersByNodeId.find? peer.nodeId = some existing →
      existing.identityKey hashBytes = peer.identityKey hashBytes := by
    intro existing hfind
    simpa [hfind] using hsame
  split
  · rename_i hother
    refine .inl ⟨rfl, fun haccepts => ?_, rfl⟩
    obtain ⟨owner, hfind, hne⟩ := (Option.any_eq_true _ _).mp hother
    exact absurd (haccepts.2.2 owner hfind) (by simpa using hne)
  rename_i howner
  have howner : ∀ nodeId, registry.nodeIdByIdentityKey.find? (peer.identityKey hashBytes) =
      some nodeId → nodeId = peer.nodeId := by
    intro nodeId hfind
    simpa [hfind] using howner
  refine .inr ⟨?_, ⟨hvalid, hsame, howner⟩, ?_⟩
  · cases registry.peersByNodeId.find? peer.nodeId <;> rfl
  · have hidentity : (registry.keptEntry peer).identityKey hashBytes =
        peer.identityKey hashBytes := by
      unfold keptEntry
      cases hfind : registry.peersByNodeId.find? peer.nodeId with
      | none => rfl
      | some existing => exact hsame existing hfind
    have hkept : ((registry.peersByNodeId.find? peer.nodeId).map (mergeWith · peer)).getD peer =
        registry.keptEntry peer := rfl
    rw [hkept, hidentity, nodeId_keptEntry]

namespace Filed

theorem registerPeer (h : registry.Filed hashBytes) (peer : PeerMetadata) :
    (registry.registerPeer hashBytes peer).2.Filed hashBytes := by
  rcases @registerPeer_spec hashBytes registry peer with ⟨-, -, hsame⟩ | ⟨-, haccepts, hnew⟩
  · rwa [hsame]
  obtain ⟨-, hidentity, howner⟩ := haccepts
  rw [hnew]
  refine ⟨fun nodeId entry hfind => ?_, fun nodeId entry hfind => ?_⟩
  · dsimp only at hfind
    rw [SortedMap.find?_insert] at hfind
    split at hfind
    · rename_i heq
      rw [← Option.some.inj hfind, nodeId_keptEntry, heq]
    · exact h.nodeId_eq nodeId entry hfind
  · dsimp only at hfind ⊢
    rw [SortedMap.find?_insert] at hfind
    split at hfind
    · rename_i heq
      obtain rfl := Option.some.inj hfind
      have hkey : (registry.keptEntry peer).identityKey hashBytes = peer.identityKey hashBytes := by
        unfold keptEntry
        cases hold : registry.peersByNodeId.find? peer.nodeId with
        | none => rfl
        | some existing => exact hidentity existing hold
      rw [hkey, SortedMap.find?_insert_self, heq]
    · rename_i hne
      have hold := h.owner nodeId entry hfind
      rw [SortedMap.find?_insert_of_ne _ _ ?_, hold]
      intro hkey
      rw [← hkey] at hold
      exact hne (howner nodeId hold).symm

/-- A write that keeps node id and identity. -/
theorem setPeer (h : registry.Filed hashBytes)
    (hfind : registry.peersByNodeId.find? nodeId = some existing)
    (hnode : peer.nodeId = existing.nodeId)
    (hkey : peer.publicKeyFingerprint = existing.publicKeyFingerprint) :
    (registry.setPeer nodeId peer).Filed hashBytes := by
  have hidentity : peer.identityKey hashBytes = existing.identityKey hashBytes := by
    unfold PeerMetadata.identityKey
    rw [hkey]
  have hentries : ∀ other entry,
      (registry.peersByNodeId.insert nodeId peer).find? other = some entry →
      entry = peer ∧ nodeId = other ∨ registry.peersByNodeId.find? other = some entry := by
    intro other entry hentry
    rw [SortedMap.find?_insert] at hentry
    split at hentry
    · rename_i heq
      exact .inl ⟨(Option.some.inj hentry).symm, heq⟩
    · exact .inr hentry
  refine ⟨fun other entry hentry => ?_, fun other entry hentry => ?_⟩
  · rcases hentries other entry hentry with ⟨rfl, rfl⟩ | hold
    · rw [hnode, h.nodeId_eq nodeId existing hfind]
    · exact h.nodeId_eq other entry hold
  · rcases hentries other entry hentry with ⟨rfl, rfl⟩ | hold
    · rw [hidentity]
      exact h.owner nodeId existing hfind
    · exact h.owner other entry hold

theorem lift (h : registry.Filed hashBytes) (now : Int) :
    (registry.liftExpiredPeerPenalties now).2.Filed hashBytes := by
  unfold liftExpiredPeerPenalties
  split
  · exact h
  have hentries : ∀ nodeId entry, (registry.peersByNodeId.mapValues fun peer =>
      if peer.penaltyExpired now then peer.penaltyLiftedCopy now else peer).find? nodeId =
        some entry → ∃ old, registry.peersByNodeId.find? nodeId = some old ∧
          entry.nodeId = old.nodeId ∧ entry.identityKey hashBytes = old.identityKey hashBytes := by
    intro nodeId entry hfind
    rw [SortedMap.find?_mapValues, Option.map_eq_some_iff] at hfind
    obtain ⟨old, hold, rfl⟩ := hfind
    refine ⟨old, hold, ?_, ?_⟩ <;> split <;> rfl
  refine ⟨fun nodeId entry hfind => ?_, fun nodeId entry hfind => ?_⟩
  · obtain ⟨old, hold, hnode, -⟩ := hentries nodeId entry hfind
    rw [hnode, h.nodeId_eq nodeId old hold]
  · obtain ⟨old, hold, -, hidentity⟩ := hentries nodeId entry hfind
    dsimp only
    rw [hidentity, h.owner nodeId old hold]

end Filed

end PeerRegistry

end Nodo.Model
