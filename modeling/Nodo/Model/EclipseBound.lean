import Nodo.Model.GossipMesh

/-!
# Nodo — how many peers of one subnet

`p2p/GossipMesh.cpp` where it admits and bans peers: `registerPeer` with the guard against
eclipse attacks, `recordInvalidMessage` with the penalties it counts, and
`liftExpiredPeerPenalties`. Of a report of misbehaviour, the answer of the rate limiter is a
parameter; the transport, the store of penalties and the store of evidence are left out.

The guard counts the peers that are active when a peer arrives. A banned peer does not
count and is not gone: a lift makes it active again, and nobody asks the guard. A peer that
comes back from its old subnet is not checked either.

## Results

* `GossipMesh.registerPeer_caps`, `recordInvalidMessage_caps` — admissions and bans keep the
  caps of the guard.
* `GossipMesh.lift_caps_iff` — a lift keeps them exactly where there is room.
* `GossipMesh.registerPeer_moved` — an update from another subnet is checked as a new peer.
* `GossipMesh.eclipse_bound` — over every run.
-/

namespace Nodo.Model

--
-- Admission
--

/-- The subnet of a peer's address; nothing where it has none. -/
def subnetOf (peer : PeerMetadata) : String :=
  PeerSubnetInfo.extractSubnetPrefix peer.endpoint.host

namespace GossipMesh

def subnetInfoForPeer (peer : PeerMetadata) : Option PeerSubnetInfo :=
  if (subnetOf peer).isEmpty then none
  else
    let info : PeerSubnetInfo := ⟨peer.nodeId, peer.endpoint.host, subnetOf peer, peer.endpoint.port⟩
    if info.isValid then some info else none

def activePeerSubnets (registry : PeerRegistry) : List PeerSubnetInfo :=
  registry.activePeers.filterMap subnetInfoForPeer

/-- `skipEclipseCheck`: the address is in the subnet of the entry that is there. -/
def skipsEclipseCheck (existing : Option PeerMetadata) (peer : PeerMetadata) : Bool :=
  match existing.bind subnetInfoForPeer, subnetInfoForPeer peer with
  | some oldInfo, some newInfo => oldInfo.subnetPrefix == newInfo.subnetPrefix
  | _, _ => false

/-- `currentSubnets`: those of the active peers, less the entry that is there. -/
def currentSubnets (registry : PeerRegistry) (existing : Option PeerMetadata) :
    List PeerSubnetInfo :=
  match existing.bind subnetInfoForPeer with
  | none => activePeerSubnets registry
  | some oldInfo => (activePeerSubnets registry).eraseP (·.peerId == oldInfo.peerId)

/-- The part of `registerPeer` under `enforceEclipseGuard`: the reason of a rejection. -/
def eclipseRejection (mesh : GossipMesh) (peer : PeerMetadata) : Option String :=
  if !mesh.config.enforceEclipseGuard then none
  else
    let existing := mesh.peerRegistry.peer peer.nodeId
    if skipsEclipseCheck existing peer then none
    else
      match subnetInfoForPeer peer with
      | none => some "Peer endpoint cannot be classified for eclipse protection."
      | some candidate =>
        let admission := EclipseGuard.checkAdmission mesh.config.eclipseGuardConfig candidate
          (currentSubnets mesh.peerRegistry existing)
        if !admission.isAllowed then
          some ("Eclipse guard rejected peer admission: " ++ admission.detail)
        else none

/-- `GossipMesh::registerPeer`. -/
def registerPeer (hashBytes : String → String) (mesh : GossipMesh) (peer : PeerMetadata) :
    PeerRegistryResult × GossipMesh :=
  if !mesh.config.isValid then (⟨.rejected, "Gossip mesh config is invalid."⟩, mesh)
  else if peer.nodeId == mesh.config.localNodeId then
    (⟨.rejected, "Cannot register local node as remote peer."⟩, mesh)
  else
    match mesh.eclipseRejection peer with
    | some reason => (⟨.rejected, reason⟩, mesh)
    | none =>
      let (result, registry) := mesh.peerRegistry.registerPeer hashBytes peer
      (result, { mesh with peerRegistry := registry })

--
-- Penalties
--

inductive PeerMisbehaviorType
  | invalidMessage
  | rateLimitExceeded
  deriving DecidableEq, Repr

def maxInvalidTracking : Nat := 4096

def identityKeyForNodeId (hashBytes : String → String) (mesh : GossipMesh) (nodeId : String) :
    String :=
  match mesh.peerRegistry.peer nodeId with
  | none => "unverified-node-" ++ nodeId
  | some peer => peer.identityKey hashBytes

def invalidMessageCountForPeer (hashBytes : String → String) (mesh : GossipMesh) (nodeId : String) :
    Nat :=
  (mesh.penalties.invalidMessagesByIdentity.find? (mesh.identityKeyForNodeId hashBytes nodeId)).getD 0

def shouldQuarantinePeer (hashBytes : String → String) (mesh : GossipMesh) (nodeId : String) : Bool :=
  mesh.config.invalidMessageQuarantineThreshold ≤ mesh.invalidMessageCountForPeer hashBytes nodeId

/-- The counting at the beginning of `recordInvalidMessage`; identities past the last 4096 are
forgotten. -/
def countInvalid (mesh : GossipMesh) (identityKey : String) : PeerPenalties :=
  let recent := identityKey :: mesh.penalties.lruInvalidMessages.erase identityKey
  let count := (mesh.penalties.invalidMessagesByIdentity.find? identityKey).getD 0
  let counts := mesh.penalties.invalidMessagesByIdentity.insert identityKey
    (if count < mesh.config.invalidMessageQuarantineThreshold then count + 1 else count)
  { mesh.penalties with
    invalidMessagesByIdentity := (recent.drop maxInvalidTracking).foldl (·.erase ·) counts
    lruInvalidMessages := recent.take maxInvalidTracking }

/-- The seconds of a ban, by the number of bans with it. -/
def banDuration (escalation : Nat) : Int :=
  if escalation = 2 then 300
  else if escalation = 3 then 1800
  else if 4 ≤ escalation then 30 * 86400
  else 60

def setRegistry (mesh : GossipMesh) (registry : PeerRegistry) : GossipMesh :=
  { mesh with peerRegistry := registry }

/-- The ban of `recordInvalidMessage` where the peer crossed the boundary. -/
def banAcrossBoundary (hashBytes : String → String) (mesh : GossipMesh)
    (nodeId identityKey reason : String) (now : Int) : GossipMesh :=
  let crossedBanBoundary := (mesh.peerRegistry.peer nodeId).any fun peer =>
    mesh.shouldQuarantinePeer hashBytes nodeId || peer.score ≤ -50
  if !crossedBanBoundary then mesh
  else
    let escalation := (mesh.penalties.quarantineEscalationByIdentity.find? identityKey).getD 0 + 1
    { mesh with
      penalties :=
        { mesh.penalties with
          quarantineEscalationByIdentity :=
            mesh.penalties.quarantineEscalationByIdentity.insert identityKey escalation }
      peerRegistry :=
        (mesh.peerRegistry.banPeer nodeId (now + banDuration escalation) reason).2 }

/-- `recordInvalidMessage` up to its calls of the transport and the stores; `stillAllowed` is
what the rate limiter answered, or `true` where it was not asked. A peer under a ban is only
counted. -/
def recordInvalidMessage (hashBytes : String → String) (mesh : GossipMesh) (nodeId reason : String)
    (now : Int) (type : PeerMisbehaviorType) (stillAllowed : Bool) : GossipMesh :=
  if nodeId.isEmpty then mesh
  else
    let type := if !stillAllowed then .rateLimitExceeded else type
    let identityKey := mesh.identityKeyForNodeId hashBytes nodeId
    let counted := { mesh with penalties := mesh.countInvalid identityKey }
    let wasBannedBefore := (mesh.peerRegistry.peer nodeId).any (·.bannedAt now)
    if wasBannedBefore then counted
    else
      let scored := counted.setRegistry (counted.peerRegistry.adjustScore nodeId
        (if type == .rateLimitExceeded then -5 else -10) reason).2
      scored.banAcrossBoundary hashBytes nodeId identityKey reason now

/-- `GossipMesh::liftExpiredPeerPenalties`. -/
def liftExpiredPeerPenalties (hashBytes : String → String) (mesh : GossipMesh) (now : Int) :
    Nat × GossipMesh :=
  if now ≤ 0 then (0, mesh)
  else
    let expired := mesh.peerRegistry.allPeers.filter (·.penaltyExpired now)
    let (lifted, registry) := mesh.peerRegistry.liftExpiredPeerPenalties now
    let counts :=
      if 0 < lifted then
        (expired.map (·.identityKey hashBytes)).foldl (fun counts identityKey =>
          counts.insert identityKey 0) mesh.penalties.invalidMessagesByIdentity
      else mesh.penalties.invalidMessagesByIdentity
    (lifted, { mesh with
      peerRegistry := registry
      penalties := { mesh.penalties with invalidMessagesByIdentity := counts } })

end GossipMesh

--
-- Runs
--

/-- A call of a mesh about its peers. -/
inductive PeerCommand
  | registerPeer (peer : PeerMetadata)
  | recordInvalidMessage (nodeId reason : String) (now : Int) (type : GossipMesh.PeerMisbehaviorType)
    (stillAllowed : Bool)
  | liftExpiredPeerPenalties (now : Int)

namespace GossipMesh

def performPeer (hashBytes : String → String) (mesh : GossipMesh) : PeerCommand → GossipMesh
  | .registerPeer peer => (mesh.registerPeer hashBytes peer).2
  | .recordInvalidMessage nodeId reason now type stillAllowed =>
    mesh.recordInvalidMessage hashBytes nodeId reason now type stillAllowed
  | .liftExpiredPeerPenalties now => (mesh.liftExpiredPeerPenalties hashBytes now).2

/-- The meshes that runs reach in which every lift is of the given kind. -/
inductive PeersReachable (hashBytes : String → String) (allowed : GossipMesh → Int → Prop)
    (start : GossipMesh) : GossipMesh → Prop
  | start : PeersReachable hashBytes allowed start start
  | step {mesh : GossipMesh} (h : PeersReachable hashBytes allowed start mesh) (command : PeerCommand)
      (hlift : ∀ now, command = .liftExpiredPeerPenalties now → allowed mesh now) :
      PeersReachable hashBytes allowed start (mesh.performPeer hashBytes command)

end GossipMesh

--
-- Counting active peers
--

/-- The active peers of a subnet. -/
def activeInSubnet (registry : PeerRegistry) (subnet : String) : Nat :=
  registry.activePeers.countP (subnetOf · == subnet)

/-- The caps of the guard, for the active peers of a registry. -/
structure WithinCaps (config : EclipseGuardConfig) (registry : PeerRegistry) : Prop where
  subnet : ∀ subnet, activeInSubnet registry subnet ≤ config.maxPeersPerSubnet
  total : registry.activePeers.length ≤ config.maxTotalPeers

/-- One subnet, or all of them. -/
def inScope : Option String → PeerMetadata → Bool
  | none, _ => true
  | some subnet, peer => subnetOf peer == subnet

def activeIn (peers : SortedMap String PeerMetadata) (scope : Option String) : Nat :=
  peers.countValues fun peer => peer.isActive && inScope scope peer

def capOf (config : EclipseGuardConfig) : Option String → Nat
  | none => config.maxTotalPeers
  | some _ => config.maxPeersPerSubnet

variable {config : EclipseGuardConfig} {registry : PeerRegistry} {peers : SortedMap String PeerMetadata}
  {peer existing : PeerMetadata} {nodeId : String} {scope : Option String}

theorem activeIn_some (subnet : String) :
    activeIn registry.peersByNodeId (some subnet) = activeInSubnet registry subnet := by
  unfold activeIn activeInSubnet PeerRegistry.activePeers PeerRegistry.allPeers
    SortedMap.countValues
  rw [List.countP_filter, List.countP_map]
  refine List.countP_congr (fun entry _ => ?_)
  simp [inScope, and_comm]

theorem activeIn_none : activeIn registry.peersByNodeId none = registry.activePeers.length := by
  unfold activeIn PeerRegistry.activePeers PeerRegistry.allPeers SortedMap.countValues
  rw [← List.countP_eq_length_filter, List.countP_map]
  refine List.countP_congr (fun entry _ => ?_)
  simp [inScope]

theorem withinCaps_iff :
    WithinCaps config registry ↔
      ∀ scope, activeIn registry.peersByNodeId scope ≤ capOf config scope := by
  constructor
  · rintro ⟨hsubnet, htotal⟩ (_ | subnet)
    · rw [activeIn_none]
      exact htotal
    · rw [activeIn_some]
      exact hsubnet subnet
  · intro h
    refine ⟨fun subnet => ?_, ?_⟩
    · rw [← activeIn_some]
      exact h (some subnet)
    · rw [← activeIn_none]
      exact h none

theorem activeIn_insert (entry : PeerMetadata) :
    activeIn (peers.insert nodeId entry) scope =
      activeIn (peers.erase nodeId) scope +
        if entry.isActive && inScope scope entry then 1 else 0 :=
  peers.countValues_insert nodeId entry _

theorem activeIn_erase_le : activeIn (peers.erase nodeId) scope ≤ activeIn peers scope := by
  unfold activeIn
  cases hfind : peers.find? nodeId with
  | none => rw [SortedMap.countValues_erase_of_find?_none _ hfind]
  | some existing =>
    rw [SortedMap.countValues_of_find? peers hfind]
    omega

--
-- The peers that the guard counts
--

namespace GossipMesh

theorem subnetInfoForPeer_some {info : PeerSubnetInfo} (h : subnetInfoForPeer peer = some info) :
    info.peerId = peer.nodeId ∧ info.subnetPrefix = subnetOf peer ∧ (subnetOf peer).isEmpty = false := by
  unfold subnetInfoForPeer at h
  obtain ⟨hnonempty, h⟩ := Guards.some_of_ite_none h
  dsimp only at h
  split at h
  · obtain rfl := Option.some.inj h
    exact ⟨rfl, rfl, Bool.eq_false_of_not_eq_true hnonempty⟩
  · exact nomatch h

/-- Whether a peer can be classified depends on its node id and its address. -/
theorem isSome_subnetInfoForPeer_congr (hnode : peer.nodeId = existing.nodeId)
    (hendpoint : peer.endpoint = existing.endpoint) :
    (subnetInfoForPeer peer).isSome = (subnetInfoForPeer existing).isSome := by
  unfold subnetInfoForPeer subnetOf
  rw [hnode, hendpoint]

theorem classified_counts {list : List PeerMetadata}
    (h : ∀ peer ∈ list, (subnetInfoForPeer peer).isSome = true) :
    (list.filterMap subnetInfoForPeer).length = list.length ∧
      ∀ subnet, EclipseGuard.subnetCount (list.filterMap subnetInfoForPeer) subnet =
        list.countP (subnetOf · == subnet) := by
  induction list with
  | nil => exact ⟨rfl, fun _ => rfl⟩
  | cons peer rest ih =>
    obtain ⟨info, hinfo⟩ := Option.isSome_iff_exists.mp (h peer List.mem_cons_self)
    obtain ⟨hlength, hcount⟩ := ih (fun other hother => h other (List.mem_cons_of_mem _ hother))
    rw [List.filterMap_cons_some hinfo]
    refine ⟨by rw [List.length_cons, List.length_cons, hlength], fun subnet => ?_⟩
    unfold EclipseGuard.subnetCount at hcount ⊢
    rw [List.countP_cons, List.countP_cons, hcount, (subnetInfoForPeer_some hinfo).2.1]

/-- The registry with a peer taken out. -/
def withoutPeer (hashBytes : String → String) (registry : PeerRegistry) (existing : PeerMetadata) :
    PeerRegistry :=
  ⟨registry.peersByNodeId.erase existing.nodeId,
    registry.nodeIdByIdentityKey.erase (existing.identityKey hashBytes)⟩

/-- The subnets of the active peers of a map. -/
def subnetsOf (peers : SortedMap String PeerMetadata) : List PeerSubnetInfo :=
  activePeerSubnets ⟨peers, SortedMap.empty⟩

/-- Every peer of the map can be classified. -/
def Classified (peers : SortedMap String PeerMetadata) : Prop :=
  ∀ nodeId peer, peers.find? nodeId = some peer → (subnetInfoForPeer peer).isSome = true

theorem Classified.erase (h : Classified peers) (nodeId : String) :
    Classified (peers.erase nodeId) := by
  intro other peer hfind
  rw [SortedMap.find?_erase] at hfind
  split at hfind
  · exact nomatch hfind
  · exact h other peer hfind

/-- What the guard counts is what is active. -/
theorem subnetsOf_counts (h : Classified peers) :
    (subnetsOf peers).length = activeIn peers none ∧
      ∀ subnet, EclipseGuard.subnetCount (subnetsOf peers) subnet =
        activeIn peers (some subnet) := by
  have hclassified : ∀ peer ∈ (PeerRegistry.mk peers SortedMap.empty).activePeers,
      (subnetInfoForPeer peer).isSome = true := by
    intro peer hmem
    obtain ⟨hmem, -⟩ := List.mem_filter.mp hmem
    obtain ⟨entry, hentry, rfl⟩ := List.mem_map.mp hmem
    exact h entry.1 entry.2 (peers.find?_eq_some_iff.mpr hentry)
  obtain ⟨hlength, hcount⟩ := classified_counts hclassified
  refine ⟨?_, fun subnet => ?_⟩
  · exact hlength.trans activeIn_none.symm
  · exact (hcount subnet).trans (activeIn_some subnet).symm

/-- The current subnets are those of the other peers. -/
theorem currentSubnets_perm
    (hnode : ∀ other peer, registry.peersByNodeId.find? other = some peer → peer.nodeId = other) :
    (currentSubnets registry (registry.peer nodeId)).Perm
      (subnetsOf (registry.peersByNodeId.erase nodeId)) := by
  unfold currentSubnets PeerRegistry.peer
  cases hfind : registry.peersByNodeId.find? nodeId with
  | none =>
    refine List.Perm.of_eq ?_
    unfold subnetsOf activePeerSubnets PeerRegistry.activePeers PeerRegistry.allPeers
    rw [registry.peersByNodeId.erase_of_find?_none hfind]
    rfl
  | some existing =>
    -- the entry that is there, before the others
    have hperm : (activePeerSubnets registry).Perm
        ((([existing].filter (·.isActive)).filterMap subnetInfoForPeer) ++
          subnetsOf (registry.peersByNodeId.erase nodeId)) := by
      have hentries := ((registry.peersByNodeId.erase_perm hfind).map (·.2)).filter (·.isActive)
      have hsubnets := hentries.filterMap subnetInfoForPeer
      rw [List.map_cons, ← List.singleton_append, List.filter_append, List.filterMap_append]
        at hsubnets
      exact hsubnets
    have hothers : ∀ info ∈ subnetsOf (registry.peersByNodeId.erase nodeId),
        ¬ (info.peerId == existing.nodeId) = true := by
      intro info hinfo heq
      obtain ⟨peer, hpeer, hsome⟩ := List.mem_filterMap.mp hinfo
      obtain ⟨hmem, -⟩ := List.mem_filter.mp hpeer
      obtain ⟨entry, hentry, rfl⟩ := List.mem_map.mp hmem
      have hother := (SortedMap.find?_eq_some_iff _).mpr hentry
      rw [SortedMap.find?_erase] at hother
      split at hother
      · exact nomatch hother
      · rename_i hne
        refine hne ?_
        rw [← hnode _ _ hother, ← (subnetInfoForPeer_some hsome).1, eq_of_beq heq,
          hnode _ _ hfind]
    dsimp only [Option.bind_some]
    cases hinfo : subnetInfoForPeer existing with
    | none =>
      dsimp only
      refine hperm.trans (List.Perm.of_eq ?_)
      cases hactive : existing.isActive <;> simp [hactive, hinfo]
    | some oldInfo =>
      dsimp only
      rw [(subnetInfoForPeer_some hinfo).1]
      cases hactive : existing.isActive with
      | false =>
        have hsame : (activePeerSubnets registry).Perm
            (subnetsOf (registry.peersByNodeId.erase nodeId)) := by
          simpa [hactive] using hperm
        rw [List.eraseP_of_forall_not (fun info hmem => hothers info (hsame.mem_iff.mp hmem))]
        exact hsame
      | true =>
        have hcons : (activePeerSubnets registry).Perm
            (oldInfo :: subnetsOf (registry.peersByNodeId.erase nodeId)) := by
          simpa [hactive, hinfo] using hperm
        have hfirst : (oldInfo.peerId == existing.nodeId) = true := by
          rw [(subnetInfoForPeer_some hinfo).1, beq_self_eq_true]
        have hdrop : (oldInfo :: subnetsOf (registry.peersByNodeId.erase nodeId)).eraseP
            (·.peerId == existing.nodeId) = subnetsOf (registry.peersByNodeId.erase nodeId) :=
          List.eraseP_cons_of_pos (p := fun info : PeerSubnetInfo => info.peerId == existing.nodeId)
            hfirst
        have herase := List.Perm.eraseP (fun info : PeerSubnetInfo => info.peerId == existing.nodeId)
          (List.pairwise_cons.mpr ⟨fun info hmem _ => hothers info hmem,
            List.pairwise_of_forall_mem_list (fun info hmem _ _ heq _ => hothers info hmem heq)⟩)
          hcons.symm
        rw [hdrop] at herase
        exact herase.symm

/-- The guard depends on the counts only. -/
theorem checkAdmission_perm {candidate : PeerSubnetInfo} {list list' : List PeerSubnetInfo}
    (h : list.Perm list') :
    EclipseGuard.checkAdmission config candidate list =
      EclipseGuard.checkAdmission config candidate list' := by
  unfold EclipseGuard.checkAdmission EclipseGuard.subnetCount
  rw [h.length_eq, h.countP_eq]

end GossipMesh

--
-- What admissions and bans keep
--

namespace GossipMesh

/-- The registry of a mesh that enforces the guard. -/
structure Guarded (hashBytes : String → String) (registry : PeerRegistry) : Prop where
  filed : registry.Filed hashBytes
  classified : Classified registry.peersByNodeId

variable {hashBytes : String → String} {mesh : GossipMesh} {registry registry' : PeerRegistry}
  {config : EclipseGuardConfig} {peer existing : PeerMetadata} {nodeId reason : String}

/-- **What the guard lets pass**: an update from the subnet of the entry, or a peer for whom
there is room beside the others. -/
theorem eclipseRejection_none (henforced : mesh.config.enforceEclipseGuard = true)
    (hfiled : mesh.peerRegistry.Filed hashBytes) (h : mesh.eclipseRejection peer = none) :
    ∃ candidate, subnetInfoForPeer peer = some candidate ∧
      ((∃ existing, mesh.peerRegistry.peersByNodeId.find? peer.nodeId = some existing ∧
          subnetOf existing = subnetOf peer) ∨
        (EclipseGuard.checkAdmission mesh.config.eclipseGuardConfig candidate
          (subnetsOf (mesh.peerRegistry.peersByNodeId.erase peer.nodeId))).isAllowed = true) := by
  unfold eclipseRejection at h
  rw [if_neg (by simp [henforced])] at h
  dsimp only at h
  split at h
  · rename_i hskip
    unfold skipsEclipseCheck at hskip
    split at hskip
    · rename_i oldInfo newInfo hold hnew
      obtain ⟨existing, hfind, hinfo⟩ := Option.bind_eq_some_iff.mp hold
      refine ⟨newInfo, hnew, .inl ⟨existing, hfind, ?_⟩⟩
      rw [← (subnetInfoForPeer_some hinfo).2.1, eq_of_beq hskip, (subnetInfoForPeer_some hnew).2.1]
    · exact nomatch hskip
  · split at h
    · exact nomatch h
    · rename_i candidate hcandidate
      refine ⟨candidate, hcandidate, .inr ?_⟩
      split at h
      · exact nomatch h
      · rename_i hallowed
        rw [← checkAdmission_perm (currentSubnets_perm hfiled.nodeId_eq)]
        simpa using hallowed

/-- A mesh refuses a peer, or the registry answers. -/
theorem registerPeer_cases (hashBytes : String → String) (mesh : GossipMesh) (peer : PeerMetadata) :
    ((mesh.registerPeer hashBytes peer).1.success = false ∧
      (mesh.registerPeer hashBytes peer).2 = mesh ∧
      (mesh.config.isValid = false ∨ peer.nodeId = mesh.config.localNodeId ∨
        (mesh.eclipseRejection peer).isSome = true)) ∨
    (mesh.config.isValid = true ∧ peer.nodeId ≠ mesh.config.localNodeId ∧
      mesh.eclipseRejection peer = none ∧
      mesh.registerPeer hashBytes peer = ((mesh.peerRegistry.registerPeer hashBytes peer).1,
        mesh.setRegistry (mesh.peerRegistry.registerPeer hashBytes peer).2)) := by
  unfold registerPeer
  split
  · rename_i hinvalid
    exact .inl ⟨rfl, rfl, .inl (by simpa using hinvalid)⟩
  rename_i hvalid
  split
  · rename_i hlocal
    exact .inl ⟨rfl, rfl, .inr (.inl (eq_of_beq hlocal))⟩
  rename_i hremote
  cases hrejection : mesh.eclipseRejection peer with
  | some reason => exact .inl ⟨rfl, rfl, .inr (.inr rfl)⟩
  | none => exact .inr ⟨by simpa using hvalid, by simpa using hremote, rfl, rfl⟩

theorem isValid_eclipseGuardConfig (hvalid : mesh.config.isValid = true)
    (henforced : mesh.config.enforceEclipseGuard = true) :
    mesh.config.eclipseGuardConfig.isValid = true := by
  unfold GossipMeshConfig.isValid at hvalid
  simp only [Bool.and_eq_true] at hvalid
  simpa [henforced] using hvalid.2

theorem isActive_keptEntry (hfind : registry.peersByNodeId.find? peer.nodeId = some existing) :
    (registry.keptEntry peer).isActive = existing.isActive := by
  unfold PeerRegistry.keptEntry
  rw [hfind]
  rfl

theorem subnetOf_keptEntry : subnetOf (registry.keptEntry peer) = subnetOf peer := by
  unfold subnetOf
  rw [PeerRegistry.endpoint_keptEntry]

theorem inScope_congr (h : subnetOf peer = subnetOf existing) (scope : Option String) :
    inScope scope peer = inScope scope existing := by
  cases scope with
  | none => rfl
  | some subnet => rw [inScope, inScope, h]

/-- **An admission keeps the caps.** -/
theorem registerPeer_caps (henforced : mesh.config.enforceEclipseGuard = true)
    (hguarded : Guarded hashBytes mesh.peerRegistry)
    (hcaps : WithinCaps mesh.config.eclipseGuardConfig mesh.peerRegistry) (peer : PeerMetadata) :
    WithinCaps mesh.config.eclipseGuardConfig
      (mesh.registerPeer hashBytes peer).2.peerRegistry := by
  rcases registerPeer_cases hashBytes mesh peer with ⟨-, hsame, -⟩ | ⟨hvalid, -, hnone, houtcome⟩
  · rwa [hsame]
  rw [houtcome]
  dsimp only [setRegistry]
  rcases @PeerRegistry.registerPeer_spec hashBytes mesh.peerRegistry peer with
    ⟨-, -, hsame⟩ | ⟨-, -, hnew⟩
  · rwa [hsame]
  rw [hnew]
  rw [withinCaps_iff] at hcaps ⊢
  intro scope
  dsimp only
  rw [activeIn_insert]
  obtain ⟨candidate, hcandidate, ⟨existing, hfind, hsubnet⟩ | hallowed⟩ :=
    eclipseRejection_none henforced hguarded.filed hnone
  · -- the entry is replaced by one with its penalties and of its subnet
    have hscope := hcaps scope
    unfold activeIn at hscope ⊢
    rw [SortedMap.countValues_of_find? _ hfind] at hscope
    rwa [isActive_keptEntry hfind,
      inScope_congr (subnetOf_keptEntry.trans hsubnet.symm) scope]
  · obtain ⟨hsubnet, htotal⟩ := EclipseGuard.checkAdmission_allowed
      (isValid_eclipseGuardConfig hvalid henforced) hallowed
    obtain ⟨hlength, hcount⟩ := subnetsOf_counts (hguarded.classified.erase peer.nodeId)
    rw [hcount, (subnetInfoForPeer_some hcandidate).2.1] at hsubnet
    rw [hlength] at htotal
    have hrest := (@activeIn_erase_le mesh.peerRegistry.peersByNodeId peer.nodeId scope).trans
      (hcaps scope)
    cases scope with
    | none =>
      simp only [capOf] at hrest ⊢
      split <;> omega
    | some subnet =>
      simp only [capOf] at hrest ⊢
      split
      · rename_i hin
        simp only [Bool.and_eq_true, inScope, beq_iff_eq, subnetOf_keptEntry] at hin
        rw [← hin.2]
        omega
      · omega

theorem Guarded.registerPeer (henforced : mesh.config.enforceEclipseGuard = true)
    (h : Guarded hashBytes mesh.peerRegistry) (peer : PeerMetadata) :
    Guarded hashBytes (mesh.registerPeer hashBytes peer).2.peerRegistry := by
  rcases registerPeer_cases hashBytes mesh peer with ⟨-, hsame, -⟩ | ⟨-, -, hnone, houtcome⟩
  · rwa [hsame]
  rw [houtcome]
  dsimp only [setRegistry]
  refine ⟨h.filed.registerPeer peer, ?_⟩
  rcases @PeerRegistry.registerPeer_spec hashBytes mesh.peerRegistry peer with
    ⟨-, -, hsame⟩ | ⟨-, -, hnew⟩
  · rw [hsame]
    exact h.classified
  rw [hnew]
  intro nodeId entry hfind
  dsimp only at hfind
  rw [SortedMap.find?_insert] at hfind
  split at hfind
  · obtain ⟨candidate, hcandidate, -⟩ := eclipseRejection_none henforced h.filed hnone
    rw [← Option.some.inj hfind, isSome_subnetInfoForPeer_congr PeerRegistry.nodeId_keptEntry
      PeerRegistry.endpoint_keptEntry, hcandidate, Option.isSome_some]
  · exact h.classified nodeId entry hfind

/-- Nothing, or a write to one entry that keeps who and where the peer is and makes no peer
active. -/
def Penalized (registry registry' : PeerRegistry) : Prop :=
  registry' = registry ∨ ∃ nodeId existing peer,
    registry.peersByNodeId.find? nodeId = some existing ∧
      registry' = registry.setPeer nodeId peer ∧ peer.nodeId = existing.nodeId ∧
      peer.endpoint = existing.endpoint ∧
      peer.publicKeyFingerprint = existing.publicKeyFingerprint ∧
      (peer.isActive = true → existing.isActive = true)

theorem adjustScore_penalized (delta : Int) :
    Penalized registry (registry.adjustScore nodeId delta reason).2 := by
  unfold PeerRegistry.adjustScore
  split
  · exact .inl rfl
  · rename_i found hfind
    exact .inr ⟨nodeId, found, _, hfind, rfl, rfl, rfl, rfl, fun hactive => hactive⟩

theorem banPeer_penalized (bannedUntil : Int) :
    Penalized registry (registry.banPeer nodeId bannedUntil reason).2 := by
  unfold PeerRegistry.banPeer
  split
  · exact .inl rfl
  rename_i found hfind
  split
  · exact .inl rfl
  dsimp only
  split
  · exact .inl rfl
  · exact .inr ⟨nodeId, found, _, hfind, rfl, rfl, rfl, rfl, fun hactive => nomatch hactive⟩

theorem Penalized.guarded (h : Penalized registry registry') (hguarded : Guarded hashBytes registry) :
    Guarded hashBytes registry' := by
  rcases h with rfl | ⟨nodeId, existing, peer, hfind, rfl, hnode, hendpoint, hkey, -⟩
  · exact hguarded
  refine ⟨hguarded.filed.setPeer hfind hnode hkey, fun other entry hentry => ?_⟩
  rw [PeerRegistry.setPeer, SortedMap.find?_insert] at hentry
  split at hentry
  · rw [← Option.some.inj hentry, isSome_subnetInfoForPeer_congr hnode hendpoint]
    exact hguarded.classified nodeId existing hfind
  · exact hguarded.classified other entry hentry

theorem Penalized.caps (h : Penalized registry registry') (hcaps : WithinCaps config registry) :
    WithinCaps config registry' := by
  rcases h with rfl | ⟨nodeId, existing, peer, hfind, rfl, -, hendpoint, -, hactive⟩
  · exact hcaps
  rw [withinCaps_iff] at hcaps ⊢
  intro scope
  refine le_trans (SortedMap.countValues_insert_le _ hfind ?_) (hcaps scope)
  intro hcounted
  have hsubnet : subnetOf peer = subnetOf existing := by
    unfold subnetOf
    rw [hendpoint]
  rw [Bool.and_eq_true, inScope_congr hsubnet] at hcounted
  rw [Bool.and_eq_true]
  exact ⟨hactive hcounted.1, hcounted.2⟩

theorem banAcrossBoundary_penalized (identityKey : String) (now : Int) :
    (mesh.banAcrossBoundary hashBytes nodeId identityKey reason now).config = mesh.config ∧
      Penalized mesh.peerRegistry
        (mesh.banAcrossBoundary hashBytes nodeId identityKey reason now).peerRegistry := by
  unfold banAcrossBoundary
  dsimp only
  split
  · exact ⟨rfl, .inl rfl⟩
  · exact ⟨rfl, banPeer_penalized _⟩

/-- **A report of misbehaviour** penalizes, at most twice. -/
theorem recordInvalidMessage_penalized (now : Int) (type : PeerMisbehaviorType)
    (stillAllowed : Bool) :
    (mesh.recordInvalidMessage hashBytes nodeId reason now type stillAllowed).config = mesh.config ∧
      ∃ between, Penalized mesh.peerRegistry between ∧ Penalized between
        (mesh.recordInvalidMessage hashBytes nodeId reason now type stillAllowed).peerRegistry := by
  unfold recordInvalidMessage
  split
  · exact ⟨rfl, _, .inl rfl, .inl rfl⟩
  dsimp only
  split
  · exact ⟨rfl, _, .inl rfl, .inl rfl⟩
  · obtain ⟨hconfig, hban⟩ := banAcrossBoundary_penalized _ _
    exact ⟨hconfig, _, adjustScore_penalized _, hban⟩

end GossipMesh

--
-- Lifts
--

/-- The peers that a lift makes active. -/
def expiredPeers (registry : PeerRegistry) (now : Int) : List PeerMetadata :=
  registry.allPeers.filter (·.penaltyExpired now)

/-- There is room under the caps for the peers that a lift makes active. -/
def LiftFindsRoom (config : EclipseGuardConfig) (registry : PeerRegistry) (now : Int) : Prop :=
  0 < now →
    (∀ subnet, activeInSubnet registry subnet +
      (expiredPeers registry now).countP (subnetOf · == subnet) ≤ config.maxPeersPerSubnet) ∧
    registry.activePeers.length + (expiredPeers registry now).length ≤ config.maxTotalPeers

namespace GossipMesh

variable {hashBytes : String → String} {mesh start : GossipMesh} {registry : PeerRegistry}
  {config : EclipseGuardConfig} {peer existing : PeerMetadata} {now : Int}

/-- A lift adds the peers whose ban is over. -/
theorem activeIn_lift (hpos : 0 < now) (scope : Option String) :
    activeIn (registry.liftExpiredPeerPenalties now).2.peersByNodeId scope =
      activeIn registry.peersByNodeId scope +
        registry.peersByNodeId.countValues fun peer => peer.penaltyExpired now && inScope scope peer := by
  unfold PeerRegistry.liftExpiredPeerPenalties
  rw [if_neg (not_le.mpr hpos)]
  dsimp only
  unfold activeIn
  rw [SortedMap.countValues_mapValues, ← SortedMap.countValues_or]
  · refine congrArg _ (funext fun peer => ?_)
    cases hexpired : peer.penaltyExpired now with
    | false => simp
    | true =>
      have hscope : inScope scope (peer.penaltyLiftedCopy now) = inScope scope peer :=
        @inScope_congr (peer.penaltyLiftedCopy now) peer rfl scope
      simp only [if_true, hscope, Bool.true_and]
      cases inScope scope peer <;> simp [PeerMetadata.isActive, PeerMetadata.penaltyLiftedCopy]
  · intro peer hactive
    simp only [PeerMetadata.isActive, Bool.and_eq_true, Bool.not_eq_true', beq_iff_eq] at hactive
    simp [PeerMetadata.penaltyExpired, hactive.1.1]

/-- **A lift keeps the caps exactly where there is room.** -/
theorem lift_caps_iff (hcaps : WithinCaps config registry) :
    WithinCaps config (registry.liftExpiredPeerPenalties now).2 ↔
      LiftFindsRoom config registry now := by
  by_cases hpos : 0 < now
  · have hsubnet : ∀ subnet, (registry.peersByNodeId.countValues fun peer =>
        peer.penaltyExpired now && inScope (some subnet) peer) =
        (expiredPeers registry now).countP (subnetOf · == subnet) := by
      intro subnet
      unfold expiredPeers PeerRegistry.allPeers SortedMap.countValues
      rw [List.countP_filter, List.countP_map]
      refine List.countP_congr (fun entry _ => ?_)
      simp [inScope, and_comm]
    have htotal : (registry.peersByNodeId.countValues fun peer =>
        peer.penaltyExpired now && inScope none peer) = (expiredPeers registry now).length := by
      unfold expiredPeers PeerRegistry.allPeers SortedMap.countValues
      rw [← List.countP_eq_length_filter, List.countP_map]
      refine List.countP_congr (fun entry _ => ?_)
      simp [inScope]
    rw [withinCaps_iff]
    unfold LiftFindsRoom
    constructor
    · intro h _
      refine ⟨fun subnet => ?_, ?_⟩
      · have hin := h (some subnet)
        rwa [activeIn_lift hpos, activeIn_some, hsubnet] at hin
      · have hin := h none
        rwa [activeIn_lift hpos, activeIn_none, htotal] at hin
    · intro h scope
      obtain ⟨hroom, hall⟩ := h hpos
      cases scope with
      | none =>
        rw [activeIn_lift hpos, activeIn_none, htotal]
        exact hall
      | some subnet =>
        rw [activeIn_lift hpos, activeIn_some, hsubnet]
        exact hroom subnet
  · have hsame : (registry.liftExpiredPeerPenalties now).2 = registry := by
      unfold PeerRegistry.liftExpiredPeerPenalties
      rw [if_pos (not_lt.mp hpos)]
    rw [hsame]
    exact iff_of_true hcaps (fun h => absurd h hpos)

theorem liftExpiredPeerPenalties_mesh (now : Int) :
    (mesh.liftExpiredPeerPenalties hashBytes now).2.config = mesh.config ∧
      (mesh.liftExpiredPeerPenalties hashBytes now).2.peerRegistry =
        (mesh.peerRegistry.liftExpiredPeerPenalties now).2 := by
  unfold liftExpiredPeerPenalties
  split
  · rename_i hneg
    refine ⟨rfl, ?_⟩
    unfold PeerRegistry.liftExpiredPeerPenalties
    rw [if_pos hneg]
  · exact ⟨rfl, rfl⟩

theorem Guarded.lift (h : Guarded hashBytes registry) (now : Int) :
    Guarded hashBytes (registry.liftExpiredPeerPenalties now).2 := by
  refine ⟨h.filed.lift now, ?_⟩
  unfold PeerRegistry.liftExpiredPeerPenalties
  split
  · exact h.classified
  intro nodeId entry hfind
  dsimp only at hfind
  rw [SortedMap.find?_mapValues, Option.map_eq_some_iff] at hfind
  obtain ⟨old, hold, rfl⟩ := hfind
  split
  · rw [@isSome_subnetInfoForPeer_congr (old.penaltyLiftedCopy now) old rfl rfl]
    exact h.classified nodeId old hold
  · exact h.classified nodeId old hold

--
-- Updates of known peers
--

/-- The guard treats a peer that moved to another subnet as a new peer. -/
theorem eclipseRejection_moved (hguarded : Guarded hashBytes mesh.peerRegistry)
    (hfind : mesh.peerRegistry.peer peer.nodeId = some existing)
    (hsubnet : subnetOf peer ≠ subnetOf existing) :
    mesh.eclipseRejection peer =
      (mesh.setRegistry (withoutPeer hashBytes mesh.peerRegistry existing)).eclipseRejection peer := by
  have hnode : existing.nodeId = peer.nodeId := hguarded.filed.nodeId_eq _ _ hfind
  have hgone : (withoutPeer hashBytes mesh.peerRegistry existing).peer peer.nodeId = none := by
    rw [PeerRegistry.peer, withoutPeer, SortedMap.find?_erase, hnode, if_pos rfl]
  have hmoved : skipsEclipseCheck (some existing) peer = false := by
    unfold skipsEclipseCheck
    split
    · rename_i oldInfo newInfo hold hnew
      rw [(subnetInfoForPeer_some hold).2.1, (subnetInfoForPeer_some hnew).2.1]
      exact beq_false_of_ne (Ne.symm hsubnet)
    · rfl
  have hnew : skipsEclipseCheck none peer = false := rfl
  have hcurrent := @currentSubnets_perm mesh.peerRegistry peer.nodeId hguarded.filed.nodeId_eq
  rw [hfind] at hcurrent
  have hothers : currentSubnets (withoutPeer hashBytes mesh.peerRegistry existing) none =
      subnetsOf (mesh.peerRegistry.peersByNodeId.erase peer.nodeId) := by
    rw [← hnode]
    rfl
  unfold eclipseRejection setRegistry
  dsimp only
  rw [hfind, hgone, hmoved, hnew, hothers]
  cases subnetInfoForPeer peer with
  | none => rfl
  | some candidate =>
    dsimp only
    rw [checkAdmission_perm hcurrent]

/-- Whether the registry accepts a known peer does not depend on its entry. -/
theorem accepts_withoutPeer (hguarded : Guarded hashBytes registry)
    (hfind : registry.peer peer.nodeId = some existing)
    (hidentity : existing.identityKey hashBytes = peer.identityKey hashBytes) :
    registry.Accepts hashBytes peer ↔
      (withoutPeer hashBytes registry existing).Accepts hashBytes peer := by
  have hnode : existing.nodeId = peer.nodeId := hguarded.filed.nodeId_eq _ _ hfind
  have howner := hguarded.filed.owner _ _ hfind
  rw [hidentity] at howner
  unfold PeerRegistry.Accepts withoutPeer
  dsimp only
  rw [hnode, hidentity, SortedMap.find?_erase, if_pos rfl, SortedMap.find?_erase, if_pos rfl, howner]
  constructor
  · rintro ⟨hvalid, -, -⟩
    exact ⟨hvalid, (fun _ h => nomatch h), (fun _ h => nomatch h)⟩
  · rintro ⟨hvalid, -, -⟩
    refine ⟨hvalid, fun other hother => ?_, fun nodeId hnodeId => (Option.some.inj hnodeId).symm⟩
    rw [← Option.some.inj (hfind.symm.trans hother), hidentity]

theorem registerPeer_success_iff :
    (mesh.registerPeer hashBytes peer).1.success = true ↔
      mesh.config.isValid = true ∧ peer.nodeId ≠ mesh.config.localNodeId ∧
        mesh.eclipseRejection peer = none ∧ mesh.peerRegistry.Accepts hashBytes peer := by
  rcases registerPeer_cases hashBytes mesh peer with ⟨hfailed, -, hreason⟩ |
    ⟨hvalid, hremote, hnone, houtcome⟩
  · rw [hfailed]
    refine iff_of_false (fun h => nomatch h) ?_
    rintro ⟨hvalid, hremote, hnone, -⟩
    rcases hreason with hinvalid | hlocal | hrejected
    · rw [hvalid] at hinvalid
      exact nomatch hinvalid
    · exact hremote hlocal
    · rw [hnone] at hrejected
      exact nomatch hrejected
  · rw [houtcome]
    dsimp only
    rcases @PeerRegistry.registerPeer_spec hashBytes mesh.peerRegistry peer with
      ⟨hfailed, hrefused, -⟩ | ⟨hsuccess, haccepts, -⟩
    · rw [hfailed]
      exact iff_of_false (fun h => nomatch h) (fun h => hrefused h.2.2.2)
    · exact iff_of_true hsuccess ⟨hvalid, hremote, hnone, haccepts⟩

/-- **An update from another subnet** is admitted as a new peer would be. -/
theorem registerPeer_moved (hguarded : Guarded hashBytes mesh.peerRegistry)
    (hfind : mesh.peerRegistry.peer peer.nodeId = some existing)
    (hidentity : existing.identityKey hashBytes = peer.identityKey hashBytes)
    (hsubnet : subnetOf peer ≠ subnetOf existing) :
    (mesh.registerPeer hashBytes peer).1.success = true ↔
      ((mesh.setRegistry (withoutPeer hashBytes mesh.peerRegistry existing)).registerPeer hashBytes
        peer).1.success = true := by
  rw [registerPeer_success_iff, registerPeer_success_iff,
    eclipseRejection_moved hguarded hfind hsubnet, accepts_withoutPeer hguarded hfind hidentity]
  rfl

/-- An update from the old subnet passes the guard unchecked. -/
theorem eclipseRejection_sameSubnet (hguarded : Guarded hashBytes mesh.peerRegistry)
    (hfind : mesh.peerRegistry.peer peer.nodeId = some existing)
    (hsubnet : subnetOf peer = subnetOf existing) : mesh.eclipseRejection peer = none := by
  have hnode : existing.nodeId = peer.nodeId := hguarded.filed.nodeId_eq _ _ hfind
  obtain ⟨oldInfo, hold⟩ := Option.isSome_iff_exists.mp (hguarded.classified _ _ hfind)
  obtain ⟨hpeerId, hsubnetOf, hnonempty⟩ := subnetInfoForPeer_some hold
  have hvalid : oldInfo.isValid = true := by
    have hold' := hold
    unfold subnetInfoForPeer at hold'
    obtain ⟨-, hold'⟩ := Guards.some_of_ite_none hold'
    dsimp only at hold'
    split at hold'
    · rename_i hvalid
      obtain rfl := Option.some.inj hold'
      exact hvalid
    · exact nomatch hold'
  have hhost : peer.endpoint.host.isEmpty = false := by
    refine Bool.eq_false_of_not_eq_true (fun hempty => ?_)
    rw [String.isEmpty_iff] at hempty
    rw [← hsubnet, subnetOf, hempty] at hnonempty
    exact nomatch hnonempty
  have hnew : subnetInfoForPeer peer =
      some ⟨peer.nodeId, peer.endpoint.host, subnetOf peer, peer.endpoint.port⟩ := by
    unfold PeerSubnetInfo.isValid at hvalid
    simp only [Bool.and_eq_true, Bool.not_eq_true', hpeerId, hnode] at hvalid
    unfold subnetInfoForPeer
    rw [hsubnet, hnonempty]
    simp [PeerSubnetInfo.isValid, hvalid.1.1, hhost, hnonempty]
  unfold eclipseRejection
  split
  · rfl
  dsimp only
  rw [if_pos]
  unfold skipsEclipseCheck
  rw [hfind, Option.bind_some, hold, hnew]
  simp only [hsubnetOf, hsubnet, beq_self_eq_true]

end GossipMesh

--
-- Every run
--

namespace GossipMesh

variable {hashBytes : String → String} {mesh start : GossipMesh}
  {allowed : GossipMesh → Int → Prop}

theorem performPeer_config (command : PeerCommand) :
    (mesh.performPeer hashBytes command).config = mesh.config := by
  cases command with
  | registerPeer peer =>
    unfold performPeer
    dsimp only
    rcases registerPeer_cases hashBytes mesh peer with ⟨-, hsame, -⟩ | ⟨-, -, -, houtcome⟩
    · rw [hsame]
    · rw [houtcome]
      rfl
  | recordInvalidMessage nodeId reason now type stillAllowed =>
    exact (recordInvalidMessage_penalized now type stillAllowed).1
  | liftExpiredPeerPenalties now => exact (liftExpiredPeerPenalties_mesh now).1

/-- One call keeps the registry in order. -/
theorem performPeer_guarded (henforced : mesh.config.enforceEclipseGuard = true)
    (h : Guarded hashBytes mesh.peerRegistry) (command : PeerCommand) :
    Guarded hashBytes (mesh.performPeer hashBytes command).peerRegistry := by
  cases command with
  | registerPeer peer => exact h.registerPeer henforced peer
  | recordInvalidMessage nodeId reason now type stillAllowed =>
    obtain ⟨-, between, hfirst, hsecond⟩ := @recordInvalidMessage_penalized hashBytes mesh nodeId
      reason now type stillAllowed
    exact hsecond.guarded (hfirst.guarded h)
  | liftExpiredPeerPenalties now =>
    rw [performPeer, (liftExpiredPeerPenalties_mesh now).2]
    exact h.lift now

/-- One call keeps the caps, a lift where there is room. -/
theorem performPeer_caps (henforced : mesh.config.enforceEclipseGuard = true)
    (hguarded : Guarded hashBytes mesh.peerRegistry)
    (hcaps : WithinCaps mesh.config.eclipseGuardConfig mesh.peerRegistry) (command : PeerCommand)
    (hlift : ∀ now, command = .liftExpiredPeerPenalties now →
      LiftFindsRoom mesh.config.eclipseGuardConfig mesh.peerRegistry now) :
    WithinCaps mesh.config.eclipseGuardConfig
      (mesh.performPeer hashBytes command).peerRegistry := by
  cases command with
  | registerPeer peer => exact registerPeer_caps henforced hguarded hcaps peer
  | recordInvalidMessage nodeId reason now type stillAllowed =>
    obtain ⟨-, between, hfirst, hsecond⟩ := @recordInvalidMessage_penalized hashBytes mesh nodeId
      reason now type stillAllowed
    exact hsecond.caps (hfirst.caps hcaps)
  | liftExpiredPeerPenalties now =>
    rw [performPeer, (liftExpiredPeerPenalties_mesh now).2, lift_caps_iff hcaps]
    exact hlift now rfl

theorem guarded_empty : Guarded hashBytes PeerRegistry.empty :=
  ⟨PeerRegistry.filed_empty, (fun _ _ h => nomatch h)⟩

theorem withinCaps_empty (config : EclipseGuardConfig) : WithinCaps config PeerRegistry.empty :=
  ⟨fun _ => Nat.zero_le _, Nat.zero_le _⟩

theorem PeersReachable.guarded (h : PeersReachable hashBytes allowed start mesh)
    (hempty : start.peerRegistry = .empty) (henforced : start.config.enforceEclipseGuard = true) :
    mesh.config = start.config ∧ Guarded hashBytes mesh.peerRegistry := by
  induction h with
  | start =>
    rw [hempty]
    exact ⟨rfl, guarded_empty⟩
  | step _ command _ ih =>
    obtain ⟨hconfig, hguarded⟩ := ih
    refine ⟨(performPeer_config command).trans hconfig, ?_⟩
    exact performPeer_guarded (hconfig ▸ henforced) hguarded command

/-- A run of calls whose lifts are of the given kind in every mesh. -/
theorem peersReachable_foldl (start : GossipMesh) (commands : List PeerCommand)
    (hlifts : ∀ mesh now, .liftExpiredPeerPenalties now ∈ commands → allowed mesh now) :
    PeersReachable hashBytes allowed start (commands.foldl (performPeer hashBytes) start) := by
  have hfold : ∀ (rest : List PeerCommand) (mesh : GossipMesh), (∀ command ∈ rest, command ∈ commands) →
      PeersReachable hashBytes allowed start mesh →
      PeersReachable hashBytes allowed start (rest.foldl (performPeer hashBytes) mesh) := by
    intro rest
    induction rest with
    | nil => exact fun _ _ h => h
    | cons command rest ih =>
      intro mesh hmem h
      refine ih _ (fun other hother => hmem other (List.mem_cons_of_mem _ hother)) ?_
      refine h.step command (fun now hcommand => hlifts mesh now ?_)
      exact hcommand ▸ hmem command List.mem_cons_self
  exact hfold commands start (fun _ h => h) .start

/-- **The bounds of the guard over runs.** From an empty registry, where every lift finds room
for the peers it makes active, the active peers stay within the caps. In every run an update of
a known peer from another subnet is admitted as a new peer would be with its entry taken out,
and one from its old subnet passes the guard unchecked. -/
theorem eclipse_bound (hashBytes : String → String) (start : GossipMesh)
    (hempty : start.peerRegistry = .empty) (henforced : start.config.enforceEclipseGuard = true) :
    (∀ mesh, PeersReachable hashBytes (fun mesh now =>
        LiftFindsRoom mesh.config.eclipseGuardConfig mesh.peerRegistry now) start mesh →
      WithinCaps start.config.eclipseGuardConfig mesh.peerRegistry) ∧
    ∀ mesh peer existing, PeersReachable hashBytes (fun _ _ => True) start mesh →
      mesh.peerRegistry.peer peer.nodeId = some existing →
      existing.identityKey hashBytes = peer.identityKey hashBytes →
      (subnetOf peer ≠ subnetOf existing →
        ((mesh.registerPeer hashBytes peer).1.success = true ↔
          ((mesh.setRegistry (withoutPeer hashBytes mesh.peerRegistry existing)).registerPeer
            hashBytes peer).1.success = true)) ∧
      (subnetOf peer = subnetOf existing → mesh.eclipseRejection peer = none) := by
  refine ⟨fun mesh h => ?_, fun mesh peer existing h hfind hidentity => ?_⟩
  · induction h with
    | start =>
      rw [hempty]
      exact withinCaps_empty _
    | step hreach command hlift ih =>
      obtain ⟨hconfig, hguarded⟩ := hreach.guarded hempty henforced
      rw [← hconfig] at ih henforced ⊢
      exact performPeer_caps henforced hguarded ih command hlift
  · obtain ⟨-, hguarded⟩ := h.guarded hempty henforced
    exact ⟨registerPeer_moved hguarded hfind hidentity, eclipseRejection_sameSubnet hguarded hfind⟩

--
-- A subnet over its cap
--

def guardedMesh : GossipMesh :=
  ⟨{ sampleMeshConfig with enforceEclipseGuard := true, invalidMessageQuarantineThreshold := 1 },
    .empty, .none, .new 1024, 0⟩

def guest (nodeId host : String) : PeerMetadata :=
  ⟨nodeId, ⟨host, 1⟩, nodeId, 1, 1, 100, false, 0, ""⟩

/-- A peer is banned, another takes its place, and the ban ends. -/
def banAndReplace : List PeerCommand :=
  [.registerPeer (guest "p" "10.0.0.1"), .registerPeer (guest "q" "10.0.0.2"),
    .recordInvalidMessage "p" "bad" 10 .invalidMessage true,
    .registerPeer (guest "r" "10.0.0.3"), .liftExpiredPeerPenalties 100]

/-- Four peers in three subnets. -/
def fourPeers : List PeerCommand :=
  [.registerPeer (guest "p" "10.0.0.1"), .registerPeer (guest "q" "10.0.0.2"),
    .registerPeer (guest "r" "10.0.1.1"), .registerPeer (guest "s" "10.0.2.1")]

/-- **Three of two.** The lift puts a third active peer into a subnet with room for two. With
four peers, one that comes back from its old subnet is admitted where a new peer in its place
is refused. -/
theorem cap_exceeded :
    (PeersReachable (fun text => text) (fun _ _ => True) guardedMesh
        (banAndReplace.foldl (performPeer (fun text => text)) guardedMesh) ∧
      activeInSubnet (banAndReplace.foldl (performPeer (fun text => text))
        guardedMesh).peerRegistry "10.0.0" = 3 ∧
      guardedMesh.config.eclipseGuardConfig.maxPeersPerSubnet = 2) ∧
    PeersReachable (fun text => text) (fun _ _ => True) guardedMesh
        (fourPeers.foldl (performPeer (fun text => text)) guardedMesh) ∧
      ((fourPeers.foldl (performPeer (fun text => text)) guardedMesh).registerPeer
        (fun text => text) (guest "q" "10.0.0.9")).1.status = .updated ∧
      (((fourPeers.foldl (performPeer (fun text => text)) guardedMesh).setRegistry
        (withoutPeer (fun text => text) (fourPeers.foldl (performPeer (fun text => text))
          guardedMesh).peerRegistry (guest "q" "10.0.0.2"))).registerPeer
        (fun text => text) (guest "q" "10.0.0.9")).1.status = .rejected := by
  refine ⟨⟨peersReachable_foldl _ _ (fun _ _ _ => trivial), ?_, rfl⟩,
    peersReachable_foldl _ _ (fun _ _ _ => trivial), ?_, ?_⟩
  · decide +kernel
  · decide +kernel
  · decide +kernel

/-- The caps and an update over the run of the four peers. -/
theorem eclipse_bound_fourPeers :
    WithinCaps guardedMesh.config.eclipseGuardConfig
        (fourPeers.foldl (performPeer (fun text => text)) guardedMesh).peerRegistry ∧
      (fourPeers.foldl (performPeer (fun text => text)) guardedMesh).eclipseRejection
        (guest "q" "10.0.0.9") = none := by
  have hbound := eclipse_bound (fun text => text) guardedMesh rfl rfl
  refine ⟨hbound.1 _ ?_, ((hbound.2 _ (guest "q" "10.0.0.9") (guest "q" "10.0.0.2")
    (peersReachable_foldl _ fourPeers (fun _ _ _ => trivial)) ?_ rfl).2 ?_)⟩
  · exact peersReachable_foldl _ _ (fun _ _ h => absurd h (by simp [fourPeers]))
  · decide +kernel
  · decide +kernel

end GossipMesh

end Nodo.Model
