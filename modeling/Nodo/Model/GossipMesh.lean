import Nodo.Lib.PriorityLanes
import Nodo.Model.EclipseGuard
import Nodo.Model.NetworkEnvelope

/-!
# Nodo — what a mesh sends

`p2p/OutboundMessageQueue.cpp` and the sending half of `p2p/GossipMesh.cpp`. A message for a
peer waits in a queue of the peer; consensus, finality and synchronization messages wait
before the others. `flushOutbound` takes the messages out one by one and hands them to the
transport.

The transport stands for what is outside: it answers every call as it likes, so its answers
are functions of the number of calls before. The loops list, beside what they return, the
calls that changed a queue.

## Results

* `OutboundMessageQueue.enqueue_history`, `dequeue_history` — the queue of a peer is a bounded
  queue with an urgent lane.
* `GossipMesh.run_recorded` — so it is over every run of the mesh.
* `GossipMesh.outboundKept_iff` — nothing is lost exactly where the transport takes every
  message it is handed.
-/

namespace Nodo.Model

--
-- The queue
--

inductive OutboundQueueStatus
  | enqueued
  | rejected
  deriving DecidableEq, Repr

structure OutboundQueueResult where
  status : OutboundQueueStatus
  reason : String
  deriving DecidableEq, Repr

def OutboundQueueResult.enqueued (result : OutboundQueueResult) : Bool := result.status == .enqueued

structure OutboundMessageQueue where
  maxMessagesPerPeer : Nat
  messagesByPeer : SortedMap String (List NetworkEnvelope)

namespace OutboundMessageQueue

def new (maxMessagesPerPeer : Nat) : OutboundMessageQueue := ⟨maxMessagesPerPeer, SortedMap.empty⟩

def isPriorityType : NetworkMessageType → Bool
  | .peerChallenge | .peerHello | .peerStatus | .chainStatus | .blockProposal | .validatorVote
  | .quorumCertificate | .finalizedBlockArtifact | .blockSyncRequest | .blockSyncResponse
  | .slashingEvidenceAnnounce | .slashingEvidenceInventory | .slashingEvidenceRequest
  | .slashingEvidenceResponse => true
  | _ => false

def isPriorityEnvelope (envelope : NetworkEnvelope) : Bool := isPriorityType envelope.messageType

/-- `m_messagesByPeer[peerNodeId]`. -/
def messagesFor (queue : OutboundMessageQueue) (peerNodeId : String) : List NetworkEnvelope :=
  (queue.messagesByPeer.find? peerNodeId).getD []

def sizeForPeer (queue : OutboundMessageQueue) (peerNodeId : String) : Nat :=
  (queue.messagesFor peerNodeId).length

def setMessages (queue : OutboundMessageQueue) (peerNodeId : String)
    (messages : List NetworkEnvelope) : OutboundMessageQueue :=
  { queue with messagesByPeer := queue.messagesByPeer.insert peerNodeId messages }

/-- `OutboundMessageQueue::enqueue`, with the envelope that it erases to make room. -/
def enqueue (queue : OutboundMessageQueue) (peerNodeId : String) (envelope : NetworkEnvelope) :
    OutboundQueueResult × Option NetworkEnvelope × OutboundMessageQueue :=
  if peerNodeId.isEmpty || queue.maxMessagesPerPeer == 0 then
    (⟨.rejected, "Outbound queue input is invalid."⟩, none, queue)
  else
    let messages := queue.messagesFor peerNodeId
    if queue.maxMessagesPerPeer ≤ messages.length then
      if !isPriorityEnvelope envelope then
        (⟨.rejected, "Outbound queue for peer is full."⟩, none, queue.setMessages peerNodeId messages)
      else
        match messages.reverse.find? (! isPriorityEnvelope ·) with
        | none =>
          (⟨.rejected, "Outbound queue for peer is full of priority messages."⟩, none,
            queue.setMessages peerNodeId messages)
        | some removable =>
          let kept := (messages.reverse.eraseP (! isPriorityEnvelope ·)).reverse
          (⟨.enqueued, "Priority message queued for peer."⟩, some removable,
            queue.setMessages peerNodeId
              (kept.takeWhile isPriorityEnvelope ++ envelope :: kept.dropWhile isPriorityEnvelope))
    else if isPriorityEnvelope envelope then
      (⟨.enqueued, "Priority message queued for peer."⟩, none,
        queue.setMessages peerNodeId
          (messages.takeWhile isPriorityEnvelope
            ++ envelope :: messages.dropWhile isPriorityEnvelope))
    else
      (⟨.enqueued, "Message queued for peer."⟩, none,
        queue.setMessages peerNodeId (messages ++ [envelope]))

def dequeue (queue : OutboundMessageQueue) (peerNodeId : String) :
    Option NetworkEnvelope × OutboundMessageQueue :=
  match queue.messagesByPeer.find? peerNodeId with
  | none | some [] => (none, queue)
  | some [envelope] => (some envelope, { queue with messagesByPeer := queue.messagesByPeer.erase peerNodeId })
  | some (envelope :: rest) => (some envelope, queue.setMessages peerNodeId rest)

end OutboundMessageQueue

--
-- The transport
--

inductive TransportStatus
  | sent
  | rejected
  | notConnected
  | invalidMessage
  deriving DecidableEq, Repr

structure TransportMessage where
  fromNodeId : String
  toNodeId : String
  envelope : NetworkEnvelope
  sentAt : Int64

/-- The answers of a transport to the calls of a mesh, by the number of calls before.
`hasOutboundSession` answers `false` where the transport has no authenticated sessions. -/
structure Transport where
  send : Nat → TransportMessage → TransportStatus
  hasOutboundSession : Nat → String → String → Bool

--
-- The mesh
--

structure GossipMeshConfig where
  localNodeId : String
  networkId : String
  chainId : String
  protocolVersion : String
  genesisId : String
  defaultTtlSeconds : UInt32
  invalidMessageQuarantineThreshold : Nat
  temporaryBanSeconds : Int
  requireAuthenticatedSessions : Bool
  enforceEclipseGuard : Bool
  eclipseGuardConfig : EclipseGuardConfig

/-- `isSafeScalar` of `p2p/GossipMesh.cpp`. -/
def isSafeMeshScalar (value : String) : Bool :=
  isSafeIdentifier "_-.:/" value && value.length ≤ 200

def GossipMeshConfig.isValid (config : GossipMeshConfig) : Bool :=
  isSafeMeshScalar config.localNodeId && isSafeMeshScalar config.networkId
    && isSafeMeshScalar config.chainId && isSafeMeshScalar config.protocolVersion
    && !config.genesisId.isEmpty && 0 < config.defaultTtlSeconds
    && config.defaultTtlSeconds ≤ 3600 && 0 < config.invalidMessageQuarantineThreshold
    && 0 < config.temporaryBanSeconds && config.temporaryBanSeconds ≤ 86400 * 30
    && (!config.enforceEclipseGuard || config.eclipseGuardConfig.isValid)

/-- What a mesh counts against its peers, by their identities; the identity seen last comes
first in the list. -/
structure PeerPenalties where
  invalidMessagesByIdentity : SortedMap String Nat
  quarantineEscalationByIdentity : SortedMap String Nat
  lruInvalidMessages : List String

def PeerPenalties.none : PeerPenalties := ⟨SortedMap.empty, SortedMap.empty, []⟩

/-- A mesh, with the number of calls it has made to its transport. -/
structure GossipMesh where
  config : GossipMeshConfig
  peerRegistry : PeerRegistry
  penalties : PeerPenalties
  outboundQueue : OutboundMessageQueue
  transportCalls : Nat

/-- A call that changed the queue of a peer. -/
inductive OutboundEvent
  | enqueued (peerNodeId : String) (envelope : NetworkEnvelope) (erased : Option NetworkEnvelope)
  | handed (peerNodeId : String) (envelope : NetworkEnvelope) (sent : Bool)
  | discarded (peerNodeId : String) (envelope : NetworkEnvelope)

/-- The counters of a loop of the mesh, the mesh and the calls so far. -/
structure Delivery where
  accepted : Nat
  rejected : Nat
  mesh : GossipMesh
  events : List OutboundEvent

namespace GossipMesh

def maxNetworkPayloadBytes : Nat := 4 * 1024 * 1024

def createEnvelope (mesh : GossipMesh) (type : NetworkMessageType) (payload : String) (now : Int64) :
    NetworkEnvelope :=
  ⟨mesh.config.networkId, mesh.config.chainId, mesh.config.protocolVersion, type,
    mesh.config.localNodeId, now, mesh.config.defaultTtlSeconds, payload⟩

def requiresAuthenticatedEnvelope (mesh : GossipMesh) (type : NetworkMessageType) : Bool :=
  mesh.config.requireAuthenticatedSessions && type != .peerChallenge && type != .peerHello

/-- `requiresAuthenticatedEnvelope(type) && !hasAuthenticatedOutboundSession(nodeId)`. -/
def lacksSession (transport : Transport) (mesh : GossipMesh) (type : NetworkMessageType)
    (nodeId : String) : Bool × GossipMesh :=
  if mesh.requiresAuthenticatedEnvelope type then
    (!transport.hasOutboundSession mesh.transportCalls mesh.config.localNodeId nodeId,
      { mesh with transportCalls := mesh.transportCalls + 1 })
  else (false, mesh)

/-- `m_outboundQueue.enqueue` with the counting of its answer. -/
def enqueueFor (delivery : Delivery) (peerNodeId : String) (envelope : NetworkEnvelope) : Delivery :=
  let (result, erased, queue) := delivery.mesh.outboundQueue.enqueue peerNodeId envelope
  let mesh := { delivery.mesh with outboundQueue := queue }
  if result.enqueued then
    ⟨delivery.accepted + 1, delivery.rejected, mesh,
      delivery.events ++ [.enqueued peerNodeId envelope erased]⟩
  else ⟨delivery.accepted, delivery.rejected + 1, mesh, delivery.events⟩

/-- The body of the loop of `broadcastExcept`. -/
def broadcastTo (transport : Transport) (envelope : NetworkEnvelope) (now : Int64)
    (excludedNodeId : String) (delivery : Delivery) (peer : PeerMetadata) : Delivery :=
  if peer.nodeId == delivery.mesh.config.localNodeId
      || (!excludedNodeId.isEmpty && peer.nodeId == excludedNodeId) || peer.quarantined
      || peer.bannedAt now.toInt then delivery
  else
    let (lacking, mesh) := delivery.mesh.lacksSession transport envelope.messageType peer.nodeId
    if lacking then { delivery with rejected := delivery.rejected + 1, mesh := mesh }
    else enqueueFor { delivery with mesh := mesh } peer.nodeId envelope

/-- A call that only counts one rejection. -/
def refused (mesh : GossipMesh) : Delivery := ⟨0, 1, mesh, []⟩

def broadcastExcept (transport : Transport) (mesh : GossipMesh) (type : NetworkMessageType)
    (payload : String) (now : Int64) (excludedNodeId : String) : Delivery :=
  if !mesh.config.isValid then refused mesh
  else
    let envelope := mesh.createEnvelope type payload now
    if !envelope.isStructurallyValid maxNetworkPayloadBytes then refused mesh
    else (mesh.peerRegistry.activePeersAt now.toInt).foldl
      (broadcastTo transport envelope now excludedNodeId) ⟨0, 0, mesh, []⟩

def sendTo (transport : Transport) (mesh : GossipMesh) (targetNodeId : String)
    (type : NetworkMessageType) (payload : String) (now : Int64) : Delivery :=
  if !mesh.config.isValid then refused mesh
  else
    let envelope := mesh.createEnvelope type payload now
    if !envelope.isStructurallyValid maxNetworkPayloadBytes then refused mesh
    else if (mesh.peerRegistry.peer targetNodeId).all
        fun peer => peer.quarantined || peer.bannedAt now.toInt then refused mesh
    else
      let (lacking, mesh) := mesh.lacksSession transport type targetNodeId
      if lacking then refused mesh
      else enqueueFor ⟨0, 0, mesh, []⟩ targetNodeId envelope

/-- The inner loop of `flushOutbound`. A pass takes one message out, so the size of the
queue bounds the passes. -/
def flushPeer (transport : Transport) (now : Int64) (peerNodeId : String) :
    Nat → Delivery → Delivery
  | 0, delivery => delivery
  | passes + 1, delivery =>
    match delivery.mesh.outboundQueue.dequeue peerNodeId with
    | (none, _) => delivery
    | (some envelope, queue) =>
      let (lacking, mesh) := { delivery.mesh with outboundQueue := queue }.lacksSession transport
        envelope.messageType peerNodeId
      if lacking then
        flushPeer transport now peerNodeId passes
          ⟨delivery.accepted, delivery.rejected + 1, mesh,
            delivery.events ++ [.discarded peerNodeId envelope]⟩
      else
        let status := transport.send mesh.transportCalls
          ⟨mesh.config.localNodeId, peerNodeId, envelope, now⟩
        let mesh := { mesh with transportCalls := mesh.transportCalls + 1 }
        if status == .sent then
          flushPeer transport now peerNodeId passes
            ⟨delivery.accepted + 1, delivery.rejected, mesh,
              delivery.events ++ [.handed peerNodeId envelope true]⟩
        else
          ⟨delivery.accepted, delivery.rejected + 1, mesh,
            delivery.events ++ [.handed peerNodeId envelope false]⟩

def flushOutbound (transport : Transport) (mesh : GossipMesh) (now : Int64) : Delivery :=
  mesh.peerRegistry.activePeers.foldl
    (fun delivery peer =>
      flushPeer transport now peer.nodeId (delivery.mesh.outboundQueue.sizeForPeer peer.nodeId)
        delivery)
    ⟨0, 0, mesh, []⟩

end GossipMesh

--
-- The queue of a peer as two lanes
--

namespace OutboundMessageQueue

open PriorityLanes

variable {queue : OutboundMessageQueue} {peerNodeId other : String} {envelope : NetworkEnvelope}
  {events : List (Event NetworkEnvelope)}

/-- The messages of a peer are what a history leaves, the urgent lane first. -/
def Recorded (queue : OutboundMessageQueue) (peerNodeId : String)
    (events : List (Event NetworkEnvelope)) : Prop :=
  ∃ lanes, History isPriorityEnvelope queue.maxMessagesPerPeer events lanes ∧
    queue.messagesFor peerNodeId = lanes.urgent ++ lanes.other

@[simp] theorem maxMessagesPerPeer_setMessages (messages : List NetworkEnvelope) :
    (queue.setMessages peerNodeId messages).maxMessagesPerPeer = queue.maxMessagesPerPeer := rfl

@[simp] theorem messagesFor_setMessages (messages : List NetworkEnvelope) :
    (queue.setMessages peerNodeId messages).messagesFor peerNodeId = messages := by
  rw [messagesFor, setMessages, SortedMap.find?_insert_self, Option.getD_some]

theorem messagesFor_setMessages_of_ne (messages : List NetworkEnvelope) (h : peerNodeId ≠ other) :
    (queue.setMessages peerNodeId messages).messagesFor other = queue.messagesFor other := by
  rw [messagesFor, setMessages, SortedMap.find?_insert_of_ne _ _ h, messagesFor]

/-- An enqueue is about one peer. -/
theorem messagesFor_enqueue_of_ne (h : peerNodeId ≠ other) :
    (queue.enqueue peerNodeId envelope).2.2.messagesFor other = queue.messagesFor other := by
  unfold enqueue
  dsimp only
  split
  · rfl
  split
  · split
    · exact messagesFor_setMessages_of_ne _ h
    · split
      · exact messagesFor_setMessages_of_ne _ h
      · exact messagesFor_setMessages_of_ne _ h
  · split
    · exact messagesFor_setMessages_of_ne _ h
    · exact messagesFor_setMessages_of_ne _ h

theorem maxMessagesPerPeer_enqueue :
    (queue.enqueue peerNodeId envelope).2.2.maxMessagesPerPeer = queue.maxMessagesPerPeer := by
  unfold enqueue
  dsimp only
  split
  · rfl
  split
  · split
    · rfl
    · split <;> rfl
  · split <;> rfl

/-- **What an enqueue does to the lanes**: it is refused and changes nothing, or the envelope
arrives. -/
theorem enqueue_history (h : queue.Recorded peerNodeId events) :
    ((queue.enqueue peerNodeId envelope).1.enqueued = false ∧
      (queue.enqueue peerNodeId envelope).2.2.Recorded peerNodeId events) ∨
    ((queue.enqueue peerNodeId envelope).1.enqueued = true ∧
      (queue.enqueue peerNodeId envelope).2.2.Recorded peerNodeId
        (events ++ [.arrived envelope (queue.enqueue peerNodeId envelope).2.1])) := by
  obtain ⟨⟨urgent, others⟩, hhistory, hmessages⟩ := id h
  have hurgent := hhistory.all_urgent
  have hothers := hhistory.all_other
  dsimp only at hmessages hurgent hothers
  unfold enqueue
  dsimp only
  split
  · exact .inl ⟨rfl, h⟩
  rw [hmessages]
  split
  · rename_i hfull
    rw [List.length_append] at hfull
    split
    · exact .inl ⟨rfl, _, hhistory, messagesFor_setMessages _⟩
    · rename_i hpriority
      have hpriority : isPriorityEnvelope envelope = true := by simpa using hpriority
      rcases List.eq_nil_or_concat others with rfl | ⟨kept, newest, rfl⟩
      · rw [List.append_nil, find?_newest_eq_none hurgent]
        exact .inl ⟨rfl, _, hhistory, by simp⟩
      · rw [List.concat_eq_append] at hfull hhistory hothers ⊢
        have hnewest := hothers newest (List.mem_append_right _ List.mem_cons_self)
        obtain ⟨hfind, herase⟩ := @erase_newest _ _ urgent kept _ hnewest
        rw [hfind, herase]
        refine .inr ⟨rfl, _, hhistory.displacing envelope hpriority hfull, ?_⟩
        rw [messagesFor_setMessages, insert_urgent hurgent
          (fun e he => hothers e (List.mem_append_left _ he))]
  · rename_i hroom
    rw [List.length_append, Nat.not_le] at hroom
    split
    · rename_i hpriority
      refine .inr ⟨rfl, _, hhistory.urgent envelope hpriority hroom, ?_⟩
      rw [messagesFor_setMessages, insert_urgent hurgent hothers]
    · rename_i hpriority
      refine .inr ⟨rfl, _, hhistory.other envelope (Bool.eq_false_of_not_eq_true hpriority) hroom, ?_⟩
      rw [messagesFor_setMessages, List.append_assoc]

theorem messagesFor_dequeue_of_ne (h : peerNodeId ≠ other) :
    (queue.dequeue peerNodeId).2.messagesFor other = queue.messagesFor other := by
  unfold dequeue
  split
  · rfl
  · rfl
  · rw [messagesFor, SortedMap.find?_erase, if_neg (Ne.symm h), messagesFor]
  · exact messagesFor_setMessages_of_ne _ h

/-- What a dequeue takes is the first message. -/
theorem dequeue_spec :
    (queue.dequeue peerNodeId).2.maxMessagesPerPeer = queue.maxMessagesPerPeer ∧
      (queue.dequeue peerNodeId).1 = (queue.messagesFor peerNodeId).head? ∧
      (queue.dequeue peerNodeId).2.messagesFor peerNodeId = (queue.messagesFor peerNodeId).tail := by
  unfold dequeue
  split
  · rename_i hfind
    simp [messagesFor, hfind]
  · rename_i hfind
    simp [messagesFor, hfind]
  · rename_i envelope hfind
    simp [messagesFor, hfind, SortedMap.find?_erase]
  · rename_i envelope rest _ hfind
    rw [messagesFor_setMessages]
    simp [messagesFor, hfind]

/-- **What a dequeue does to the lanes**: the message it takes leaves. -/
theorem dequeue_history (h : queue.Recorded peerNodeId events)
    (hsome : (queue.dequeue peerNodeId).1 = some envelope) :
    (queue.dequeue peerNodeId).2.Recorded peerNodeId (events ++ [.left envelope]) := by
  obtain ⟨⟨urgent, others⟩, hhistory, hmessages⟩ := h
  obtain ⟨hmax, hhead, htail⟩ := @dequeue_spec queue peerNodeId
  rw [hhead, hmessages] at hsome
  rw [hmessages] at htail
  unfold Recorded
  rw [hmax, htail]
  cases urgent with
  | cons first rest =>
    obtain rfl := Option.some.inj hsome
    exact ⟨_, hhistory.leftUrgent, rfl⟩
  | nil =>
    cases others with
    | nil => exact nomatch hsome
    | cons first rest =>
      obtain rfl := Option.some.inj hsome
      exact ⟨_, hhistory.leftOther, rfl⟩

end OutboundMessageQueue

--
-- The calls of a mesh
--

namespace GossipMesh

open PriorityLanes OutboundMessageQueue

/-- The calls that changed the queue of one peer. -/
def laneEvents (peerNodeId : String) : List OutboundEvent → List (Event NetworkEnvelope) :=
  List.filterMap fun
    | .enqueued other envelope erased =>
      if other = peerNodeId then some (.arrived envelope erased) else none
    | .handed other envelope _ => if other = peerNodeId then some (.left envelope) else none
    | .discarded other envelope => if other = peerNodeId then some (.left envelope) else none

@[simp] theorem laneEvents_append (peerNodeId : String) (before after : List OutboundEvent) :
    laneEvents peerNodeId (before ++ after) =
      laneEvents peerNodeId before ++ laneEvents peerNodeId after :=
  List.filterMap_append

@[simp] theorem laneEvents_handed (peerNodeId : String) (envelope : NetworkEnvelope)
    (sent : Bool) : laneEvents peerNodeId [.handed peerNodeId envelope sent] = [.left envelope] := by
  simp [laneEvents]

@[simp] theorem laneEvents_enqueued (peerNodeId : String) (envelope : NetworkEnvelope)
    (erased : Option NetworkEnvelope) :
    laneEvents peerNodeId [.enqueued peerNodeId envelope erased] = [.arrived envelope erased] := by
  simp [laneEvents]

/-- Every queue of the mesh is what its calls leave, and has the given bound. -/
def Recorded (maxMessages : Nat) (mesh : GossipMesh) (events : List OutboundEvent) : Prop :=
  mesh.outboundQueue.maxMessagesPerPeer = maxMessages ∧
    ∀ peerNodeId, mesh.outboundQueue.Recorded peerNodeId (laneEvents peerNodeId events)

/-- A part of a run that keeps the record and the configuration, and discards only where a
session is missing. -/
structure Follows (transport : Transport) (maxMessages : Nat) (config : GossipMeshConfig)
    (before : List OutboundEvent) (delivery : Delivery) : Prop where
  recorded : Recorded maxMessages delivery.mesh (before ++ delivery.events)
  config_eq : delivery.mesh.config = config
  discards : ∀ peerNodeId envelope, OutboundEvent.discarded peerNodeId envelope ∈ delivery.events →
    ∃ call, transport.hasOutboundSession call config.localNodeId peerNodeId = false

variable {transport : Transport} {mesh : GossipMesh} {maxMessages : Nat}
  {config : GossipMeshConfig} {before events : List OutboundEvent} {delivery : Delivery}

theorem lacksSession_mesh (type : NetworkMessageType) (nodeId : String) :
    (mesh.lacksSession transport type nodeId).2.outboundQueue = mesh.outboundQueue ∧
      (mesh.lacksSession transport type nodeId).2.config = mesh.config ∧
      (mesh.lacksSession transport type nodeId).2.peerRegistry = mesh.peerRegistry := by
  unfold lacksSession
  split <;> exact ⟨rfl, rfl, rfl⟩

theorem exists_call_of_lacksSession {type : NetworkMessageType} {nodeId : String}
    (h : (mesh.lacksSession transport type nodeId).1 = true) :
    ∃ call, transport.hasOutboundSession call mesh.config.localNodeId nodeId = false := by
  unfold lacksSession at h
  split at h
  · exact ⟨_, by simpa using h⟩
  · exact nomatch h

/-- Calls on other parts of the mesh change no queue. -/
theorem Recorded.of_queue_eq {mesh' : GossipMesh} (h : Recorded maxMessages mesh events)
    (heq : mesh'.outboundQueue = mesh.outboundQueue) : Recorded maxMessages mesh' events := by
  unfold Recorded at h ⊢
  rwa [heq]

theorem enqueueFor_follows (h : Follows transport maxMessages config before delivery) (peerNodeId : String)
    (envelope : NetworkEnvelope) :
    Follows transport maxMessages config before (enqueueFor delivery peerNodeId envelope) := by
  obtain ⟨⟨hmax, hrecorded⟩, hconfig, hdiscards⟩ := h
  have hmax' := hmax ▸ @maxMessagesPerPeer_enqueue delivery.mesh.outboundQueue peerNodeId envelope
  unfold enqueueFor
  dsimp only
  -- the queues of the other peers stay
  have hothers : ∀ other, peerNodeId ≠ other →
      (delivery.mesh.outboundQueue.enqueue peerNodeId envelope).2.2.Recorded other
        (laneEvents other (before ++ delivery.events)) := by
    intro other hne
    obtain ⟨lanes, hhistory, hmessages⟩ := hrecorded other
    refine ⟨lanes, ?_, (messagesFor_enqueue_of_ne hne).trans hmessages⟩
    rw [maxMessagesPerPeer_enqueue]
    exact hhistory
  rcases @enqueue_history _ _ envelope _ (hrecorded peerNodeId) with ⟨hstatus, hkept⟩ | ⟨hstatus, harrived⟩
  · rw [if_neg (by simp [hstatus])]
    refine ⟨⟨hmax', fun other => ?_⟩, hconfig, hdiscards⟩
    by_cases hother : peerNodeId = other
    · exact hother ▸ hkept
    · exact hothers other hother
  · rw [if_pos hstatus]
    refine ⟨⟨hmax', fun other => ?_⟩, hconfig, fun other discarded hmem => ?_⟩
    · dsimp only
      rw [← List.append_assoc, laneEvents_append]
      by_cases hother : peerNodeId = other
      · subst hother
        rw [laneEvents_enqueued]
        exact harrived
      · simpa [laneEvents, hother] using hothers other hother
    · exact hdiscards other discarded (by simpa using hmem)

/-- The state after a message was taken out of the queue of a peer. -/
theorem taken_follows {peerNodeId : String} {envelope : NetworkEnvelope} {mesh : GossipMesh}
    {event : OutboundEvent} (h : Follows transport maxMessages config before delivery)
    (hsome : (delivery.mesh.outboundQueue.dequeue peerNodeId).1 = some envelope)
    (hqueue : mesh.outboundQueue = (delivery.mesh.outboundQueue.dequeue peerNodeId).2)
    (hmesh : mesh.config = delivery.mesh.config)
    (hevent : (∃ sent, event = .handed peerNodeId envelope sent) ∨
      (event = .discarded peerNodeId envelope ∧
        ∃ call, transport.hasOutboundSession call config.localNodeId peerNodeId = false))
    (accepted rejected : Nat) :
    Follows transport maxMessages config before
      ⟨accepted, rejected, mesh, delivery.events ++ [event]⟩ := by
  obtain ⟨⟨hmax, hrecorded⟩, hconfig, hdiscards⟩ := h
  have hspec := @dequeue_spec delivery.mesh.outboundQueue peerNodeId
  have hlane : ∀ other, laneEvents other [event] =
      if peerNodeId = other then [.left envelope] else [] := by
    intro other
    rcases hevent with ⟨sent, rfl⟩ | ⟨rfl, -⟩ <;>
      by_cases hother : peerNodeId = other <;> simp [laneEvents, hother]
  refine ⟨⟨?_, fun other => ?_⟩, hmesh.trans hconfig, fun other discarded hmem => ?_⟩
  · dsimp only
    rw [hqueue, hspec.1, hmax]
  · dsimp only
    rw [hqueue, ← List.append_assoc, laneEvents_append, hlane other]
    by_cases hother : peerNodeId = other
    · subst hother
      rw [if_pos rfl]
      exact dequeue_history (hrecorded peerNodeId) hsome
    · rw [if_neg hother, List.append_nil]
      obtain ⟨lanes, hhistory, hmessages⟩ := hrecorded other
      exact ⟨lanes, hspec.1 ▸ hhistory, (messagesFor_dequeue_of_ne hother).trans hmessages⟩
  · rcases List.mem_append.mp hmem with hold | hnew
    · exact hdiscards other discarded hold
    · rw [List.mem_singleton] at hnew
      rcases hevent with ⟨sent, rfl⟩ | ⟨rfl, hcall⟩
      · exact nomatch hnew
      · obtain ⟨rfl, -⟩ := OutboundEvent.discarded.inj hnew
        exact hcall

theorem broadcastTo_follows (h : Follows transport maxMessages config before delivery)
    (envelope : NetworkEnvelope) (now : Int64) (excludedNodeId : String) (peer : PeerMetadata) :
    Follows transport maxMessages config before
      (broadcastTo transport envelope now excludedNodeId delivery peer) := by
  obtain ⟨hqueue, hconfig, -⟩ := @lacksSession_mesh transport delivery.mesh envelope.messageType
    peer.nodeId
  have hasked : Follows transport maxMessages config before { delivery with
      mesh := (delivery.mesh.lacksSession transport envelope.messageType peer.nodeId).2 } :=
    ⟨h.recorded.of_queue_eq hqueue, hconfig.trans h.config_eq, h.discards⟩
  unfold broadcastTo
  split
  · exact h
  dsimp only
  split
  · exact ⟨hasked.recorded, hasked.config_eq, hasked.discards⟩
  · exact enqueueFor_follows hasked _ _

theorem flushPeer_follows (h : Follows transport maxMessages config before delivery) (now : Int64)
    (peerNodeId : String) (passes : Nat) :
    Follows transport maxMessages config before (flushPeer transport now peerNodeId passes delivery) := by
  induction passes generalizing delivery with
  | zero => exact h
  | succ passes ih =>
    unfold flushPeer
    split
    · exact h
    rename_i envelope queue hdequeue
    obtain ⟨hqueue, hconfig, -⟩ := @lacksSession_mesh transport
      { delivery.mesh with outboundQueue := queue } envelope.messageType peerNodeId
    have hsome := congrArg Prod.fst hdequeue
    have hrest := congrArg Prod.snd hdequeue
    dsimp only at hsome hrest hqueue hconfig
    dsimp only
    split
    · rename_i hlacking
      have hcall := exists_call_of_lacksSession hlacking
      dsimp only at hcall
      rw [h.config_eq] at hcall
      exact ih (taken_follows h hsome (hqueue.trans hrest.symm) hconfig (.inr ⟨rfl, hcall⟩) _ _)
    have hhanded : ∀ accepted rejected calls sent, Follows transport maxMessages config before
        ⟨accepted, rejected, { (lacksSession transport { delivery.mesh with outboundQueue := queue }
          envelope.messageType peerNodeId).2 with transportCalls := calls },
          delivery.events ++ [.handed peerNodeId envelope sent]⟩ := by
      intro accepted rejected calls sent
      refine taken_follows h hsome ?_ ?_ (.inl ⟨sent, rfl⟩) _ _
      · exact hqueue.trans hrest.symm
      · exact hconfig
    split
    · exact ih (hhanded _ _ _ _)
    · exact hhanded _ _ _ _

/-- A loop whose body keeps the record keeps it. -/
theorem foldl_follows {α : Type} (body : Delivery → α → Delivery)
    (hbody : ∀ delivery item, Follows transport maxMessages config before delivery →
      Follows transport maxMessages config before (body delivery item)) (items : List α)
    (h : Follows transport maxMessages config before delivery) :
    Follows transport maxMessages config before (items.foldl body delivery) := by
  induction items generalizing delivery with
  | nil => exact h
  | cons item items ih => exact ih (hbody _ item h)

end GossipMesh

--
-- Runs
--

/-- A call of the mesh; `peersChange` stands for the calls that change the registry of peers
and no queue. -/
inductive OutboundCommand
  | broadcastExcept (type : NetworkMessageType) (payload : String) (now : Int64)
    (excludedNodeId : String)
  | sendTo (targetNodeId : String) (type : NetworkMessageType) (payload : String) (now : Int64)
  | flushOutbound (now : Int64)
  | peersChange (peerRegistry : PeerRegistry)

namespace GossipMesh

open PriorityLanes OutboundMessageQueue

def perform (transport : Transport) (mesh : GossipMesh) : OutboundCommand → Delivery
  | .broadcastExcept type payload now excludedNodeId =>
    mesh.broadcastExcept transport type payload now excludedNodeId
  | .sendTo targetNodeId type payload now => mesh.sendTo transport targetNodeId type payload now
  | .flushOutbound now => mesh.flushOutbound transport now
  | .peersChange peerRegistry => ⟨0, 0, { mesh with peerRegistry := peerRegistry }, []⟩

/-- The mesh after a list of calls, and the calls that changed a queue. -/
def run (transport : Transport) (mesh : GossipMesh) (commands : List OutboundCommand) :
    GossipMesh × List OutboundEvent :=
  commands.foldl (fun state command =>
    ((perform transport state.1 command).mesh, state.2 ++ (perform transport state.1 command).events))
    (mesh, [])

/-- The messages queued for a peer, as they were enqueued. -/
def enqueuedFor (peerNodeId : String) : List OutboundEvent → List NetworkEnvelope :=
  List.filterMap fun
    | .enqueued other envelope _ => if other = peerNodeId then some envelope else none
    | _ => none

/-- The messages for a peer that the transport accepted, as it accepted them. -/
def acceptedFor (peerNodeId : String) : List OutboundEvent → List NetworkEnvelope :=
  List.filterMap fun
    | .handed other envelope true => if other = peerNodeId then some envelope else none
    | _ => none

/-- The messages for a peer that made room for another. -/
def erasedFor (peerNodeId : String) : List OutboundEvent → List NetworkEnvelope :=
  List.filterMap fun
    | .enqueued other _ erased => if other = peerNodeId then erased else none
    | _ => none

/-- What becomes of the messages for a peer, after a run from empty queues. -/
structure OutboundKept (maxMessages : Nat) (peerNodeId : String) (mesh : GossipMesh)
    (events : List OutboundEvent) : Prop where
  /-- A priority message was accepted once or is queued, in the order of the enqueues. -/
  kept : (enqueuedFor peerNodeId events).filter isPriorityEnvelope =
    (acceptedFor peerNodeId events).filter isPriorityEnvelope ++
      (mesh.outboundQueue.messagesFor peerNodeId).filter isPriorityEnvelope
  /-- A low-priority message is handed over when all priority messages enqueued by then were
  accepted. -/
  priority_first : ∀ before envelope sent after,
    events = before ++ .handed peerNodeId envelope sent :: after →
    isPriorityEnvelope envelope = false →
    (enqueuedFor peerNodeId before).filter isPriorityEnvelope =
      (acceptedFor peerNodeId before).filter isPriorityEnvelope
  bounded : mesh.outboundQueue.sizeForPeer peerNodeId ≤ maxMessages
  /-- A low-priority message was accepted, made room or is queued. -/
  low_kept : ((enqueuedFor peerNodeId events).filter (! isPriorityEnvelope ·)).Perm
    ((acceptedFor peerNodeId events).filter (! isPriorityEnvelope ·) ++
      (erasedFor peerNodeId events ++
        (mesh.outboundQueue.messagesFor peerNodeId).filter (! isPriorityEnvelope ·)))
  /-- What makes room, for a priority message at a full queue, is the newest low-priority
  message there. -/
  erased_newest : ∀ before envelope newest after,
    events = before ++ .enqueued peerNodeId envelope (some newest) :: after →
    isPriorityEnvelope envelope = true ∧ ∃ urgent kept,
      History isPriorityEnvelope maxMessages (laneEvents peerNodeId before)
        ⟨urgent, kept ++ [newest]⟩ ∧
      (Lanes.mk urgent (kept ++ [newest])).size = maxMessages

variable {transport : Transport} {mesh : GossipMesh} {maxMessages : Nat}
  {config : GossipMeshConfig} {before events : List OutboundEvent} {peerNodeId : String}

theorem perform_follows (h : Recorded maxMessages mesh before) (command : OutboundCommand) :
    Follows transport maxMessages mesh.config before (perform transport mesh command) := by
  have hstart : ∀ accepted rejected, Follows transport maxMessages mesh.config before
      ⟨accepted, rejected, mesh, []⟩ := fun _ _ =>
    ⟨by simpa using h, rfl, fun _ _ hmem => absurd hmem List.not_mem_nil⟩
  cases command with
  | broadcastExcept type payload now excludedNodeId =>
    unfold perform broadcastExcept
    dsimp only
    split
    · exact hstart _ _
    split
    · exact hstart _ _
    exact foldl_follows _ (fun _ peer hd => broadcastTo_follows hd _ _ _ peer) _ (hstart _ _)
  | sendTo targetNodeId type payload now =>
    obtain ⟨hqueue, hconfig, -⟩ := @lacksSession_mesh transport mesh type targetNodeId
    have hasked : ∀ accepted rejected, Follows transport maxMessages mesh.config before
        ⟨accepted, rejected, (mesh.lacksSession transport type targetNodeId).2, []⟩ :=
      fun _ _ => ⟨by simpa using h.of_queue_eq hqueue, hconfig,
        fun _ _ hmem => absurd hmem List.not_mem_nil⟩
    unfold perform sendTo
    dsimp only
    split
    · exact hstart _ _
    split
    · exact hstart _ _
    split
    · exact hstart _ _
    split
    · exact hasked _ _
    · exact enqueueFor_follows (hasked _ _) _ _
  | flushOutbound now =>
    exact foldl_follows _ (fun _ peer hd => flushPeer_follows hd now peer.nodeId _) _ (hstart _ _)
  | peersChange peerRegistry =>
    have hrecorded : Recorded maxMessages { mesh with peerRegistry := peerRegistry } before :=
      h.of_queue_eq rfl
    exact ⟨by simpa [perform] using hrecorded, rfl,
      fun _ _ hmem => absurd hmem List.not_mem_nil⟩

/-- **Every queue of a run is a bounded queue with an urgent lane**, and messages are
discarded only where a session is missing. -/
theorem run_recorded (hnew : mesh.outboundQueue = .new maxMessages)
    (commands : List OutboundCommand) :
    Recorded maxMessages (run transport mesh commands).1 (run transport mesh commands).2 ∧
      ∀ peerNodeId envelope,
        OutboundEvent.discarded peerNodeId envelope ∈ (run transport mesh commands).2 →
        ∃ call, transport.hasOutboundSession call mesh.config.localNodeId peerNodeId = false := by
  have hstart : Recorded maxMessages mesh [] := by
    unfold Recorded
    rw [hnew]
    exact ⟨rfl, fun _ => ⟨_, .start, rfl⟩⟩
  -- over the calls, for any state that they may start from
  have hfold : ∀ (commands : List OutboundCommand) (state : GossipMesh × List OutboundEvent),
      Recorded maxMessages state.1 state.2 → state.1.config = mesh.config →
      (∀ peerNodeId envelope, OutboundEvent.discarded peerNodeId envelope ∈ state.2 →
        ∃ call, transport.hasOutboundSession call mesh.config.localNodeId peerNodeId = false) →
      let state' := commands.foldl (fun state command =>
        ((perform transport state.1 command).mesh,
          state.2 ++ (perform transport state.1 command).events)) state
      Recorded maxMessages state'.1 state'.2 ∧
        ∀ peerNodeId envelope, OutboundEvent.discarded peerNodeId envelope ∈ state'.2 →
          ∃ call, transport.hasOutboundSession call mesh.config.localNodeId peerNodeId = false := by
    intro commands
    induction commands with
    | nil => exact fun _ hrecorded _ hdiscards => ⟨hrecorded, hdiscards⟩
    | cons command commands ih =>
      intro state hrecorded hconfig hdiscards
      have hperform := @perform_follows transport _ _ _ hrecorded command
      refine ih _ hperform.recorded (hperform.config_eq.trans hconfig) ?_
      intro peerNodeId envelope hmem
      rcases List.mem_append.mp hmem with hold | hnew
      · exact hdiscards _ _ hold
      · exact hconfig ▸ hperform.discards _ _ hnew
  exact hfold commands (mesh, []) hstart rfl (fun _ _ hmem => absurd hmem List.not_mem_nil)

--
-- What becomes of the messages
--

theorem arrivals_laneEvents :
    arrivals (laneEvents peerNodeId events) = enqueuedFor peerNodeId events := by
  unfold arrivals laneEvents enqueuedFor
  rw [List.filterMap_filterMap]
  refine List.filterMap_congr (fun event _ => ?_)
  cases event <;> dsimp only <;> split <;> rfl

theorem displacements_laneEvents :
    displacements (laneEvents peerNodeId events) = erasedFor peerNodeId events := by
  unfold displacements laneEvents erasedFor
  rw [List.filterMap_filterMap]
  refine List.filterMap_congr (fun event _ => ?_)
  cases event <;> dsimp only <;> split <;> rfl

/-- The messages taken out are those accepted where none fails and none is discarded. -/
theorem departures_laneEvents (hsent : ∀ envelope, .handed peerNodeId envelope false ∉ events)
    (hdiscarded : ∀ envelope, .discarded peerNodeId envelope ∉ events) :
    departures (laneEvents peerNodeId events) = acceptedFor peerNodeId events := by
  unfold departures laneEvents acceptedFor
  rw [List.filterMap_filterMap]
  refine List.filterMap_congr (fun event hmem => ?_)
  cases event with
  | enqueued other envelope erased =>
    dsimp only
    split <;> rfl
  | handed other envelope sent =>
    cases sent with
    | true =>
      dsimp only
      split <;> rfl
    | false =>
      have hother : other ≠ peerNodeId := fun heq => hsent envelope (heq ▸ hmem)
      simp [hother]
  | discarded other envelope =>
    have hother : other ≠ peerNodeId := fun heq => hdiscarded envelope (heq ▸ hmem)
    simp [hother]

theorem length_acceptedFor_le :
    (acceptedFor peerNodeId events).length ≤ (departures (laneEvents peerNodeId events)).length := by
  induction events with
  | nil => exact Nat.le_refl _
  | cons event events ih =>
    cases event with
    | enqueued other envelope erased =>
      by_cases hother : other = peerNodeId <;>
        simpa [acceptedFor, departures, laneEvents, hother] using ih
    | handed other envelope sent =>
      cases sent <;> by_cases hother : other = peerNodeId <;>
        simp only [acceptedFor, departures, laneEvents, hother, List.filterMap_cons, if_true,
          if_false, List.length_cons] at ih ⊢ <;> omega
    | discarded other envelope =>
      by_cases hother : other = peerNodeId <;>
        simp only [acceptedFor, departures, laneEvents, hother, List.filterMap_cons, if_true,
          if_false, List.length_cons] at ih ⊢ <;> omega

/-- A failed message is taken out and not accepted. -/
theorem length_acceptedFor_lt {envelope : NetworkEnvelope}
    (h : .handed peerNodeId envelope false ∈ events) :
    (acceptedFor peerNodeId events).length < (departures (laneEvents peerNodeId events)).length := by
  obtain ⟨first, last, rfl⟩ := List.append_of_mem h
  have hfirst := @length_acceptedFor_le first peerNodeId
  have hlast := @length_acceptedFor_le last peerNodeId
  have haccepted : acceptedFor peerNodeId (first ++ .handed peerNodeId envelope false :: last) =
      acceptedFor peerNodeId first ++ acceptedFor peerNodeId last := by
    unfold acceptedFor
    rw [List.filterMap_append, List.filterMap_cons]
  have hdepartures : departures (laneEvents peerNodeId
      (first ++ .handed peerNodeId envelope false :: last)) =
      departures (laneEvents peerNodeId first) ++
        envelope :: departures (laneEvents peerNodeId last) := by
    rw [List.append_cons, laneEvents_append, laneEvents_append, laneEvents_handed,
      departures_append, departures_append, departures_left, List.append_assoc,
      List.singleton_append]
  rw [haccepted, hdepartures, List.length_append, List.length_append, List.length_cons]
  omega

/-- **Nothing is lost exactly where the transport takes every message** that the mesh hands it
for the peer. -/
theorem outboundKept_iff (transport : Transport) (mesh : GossipMesh) (maxMessages : Nat)
    (commands : List OutboundCommand) (peerNodeId : String)
    (hnew : mesh.outboundQueue = .new maxMessages)
    (hsession : ∀ call, transport.hasOutboundSession call mesh.config.localNodeId peerNodeId = true) :
    OutboundKept maxMessages peerNodeId (run transport mesh commands).1
        (run transport mesh commands).2 ↔
      ∀ envelope, OutboundEvent.handed peerNodeId envelope false ∉ (run transport mesh commands).2 := by
  obtain ⟨⟨hmax, hrecorded⟩, hdiscards⟩ :=
    @run_recorded transport mesh maxMessages hnew commands
  generalize (run transport mesh commands).1 = mesh' at *
  generalize (run transport mesh commands).2 = events at *
  have hdiscarded : ∀ envelope, OutboundEvent.discarded peerNodeId envelope ∉ events := by
    intro envelope hmem
    obtain ⟨call, hcall⟩ := hdiscards peerNodeId envelope hmem
    rw [hsession call] at hcall
    exact nomatch hcall
  obtain ⟨lanes, hhistory, hmessages⟩ := hrecorded peerNodeId
  rw [hmax] at hhistory
  have hurgent : (mesh'.outboundQueue.messagesFor peerNodeId).filter isPriorityEnvelope =
      lanes.urgent := by
    rw [hmessages, List.filter_append, List.filter_eq_self.mpr hhistory.all_urgent,
      List.filter_eq_nil_iff.mpr (fun e he => by simp [hhistory.all_other e he]), List.append_nil]
  have hother : (mesh'.outboundQueue.messagesFor peerNodeId).filter (! isPriorityEnvelope ·) =
      lanes.other := by
    rw [hmessages, List.filter_append,
      List.filter_eq_nil_iff.mpr (fun e he => by simp [hhistory.all_urgent e he]),
      List.filter_eq_self.mpr (fun e he => by simp [hhistory.all_other e he]), List.nil_append]
  have hurgent_eq := hhistory.urgent_eq
  have hother_perm := hhistory.other_perm
  rw [arrivals_laneEvents] at hurgent_eq hother_perm
  rw [displacements_laneEvents] at hother_perm
  constructor
  · -- the lengths of the lists would differ
    intro hkept envelope hmem
    have hpriority := congrArg List.length hkept.kept
    have hlow := hkept.low_kept.length_eq
    have htotal := length_acceptedFor_lt hmem
    have hurgent_length := congrArg List.length hurgent_eq
    have hother_length := hother_perm.length_eq
    rw [hurgent] at hpriority
    rw [hother] at hlow
    simp only [List.length_append] at hpriority hlow hurgent_length hother_length
    have haccepted := List.length_eq_length_filter_add isPriorityEnvelope
      (l := acceptedFor peerNodeId events)
    have hleft := List.length_eq_length_filter_add isPriorityEnvelope
      (l := departures (laneEvents peerNodeId events))
    omega
  · intro hsent
    have hdepartures := departures_laneEvents hsent hdiscarded
    rw [hdepartures] at hurgent_eq hother_perm
    refine ⟨by rw [hurgent, hurgent_eq], ?_, ?_, by rwa [hother], ?_⟩
    · rintro before envelope sent after rfl hlow
      rw [List.append_cons, laneEvents_append, laneEvents_append, laneEvents_handed,
        ← List.append_cons] at hhistory
      have hfirst := hhistory.before_other hlow
      rwa [arrivals_laneEvents, departures_laneEvents
        (fun e he => hsent e (List.mem_append_left _ he))
        (fun e he => hdiscarded e (List.mem_append_left _ he))] at hfirst
    · rw [sizeForPeer, hmessages, List.length_append]
      exact hhistory.size_le
    · rintro before envelope newest after rfl
      rw [List.append_cons, laneEvents_append, laneEvents_append, laneEvents_enqueued,
        ← List.append_cons] at hhistory
      exact hhistory.displaced

end GossipMesh

--
-- A message that is lost
--

namespace GossipMesh

open PriorityLanes OutboundMessageQueue

def samplePeer : PeerMetadata := ⟨"b", ⟨"10.0.0.1", 1⟩, "key", 1, 1, 100, false, 0, ""⟩

def sampleMeshConfig : GossipMeshConfig :=
  ⟨"a", "net", "chain", "v1", "genesis", 60, 3, 3600, true, false, .defaults⟩

/-- A mesh with one peer. -/
def sampleMesh : GossipMesh :=
  ⟨sampleMeshConfig, ⟨⟨[("b", samplePeer)], List.pairwise_singleton _ _⟩, SortedMap.empty⟩, .none,
    .new 1024, 0⟩

def sampleEnvelope : NetworkEnvelope := ⟨"net", "chain", "v1", .validatorVote, "a", 10, 60, "vote"⟩

/-- A transport with a session to every peer that answers every message the same. -/
def steadyTransport (status : TransportStatus) : Transport := ⟨fun _ _ => status, fun _ _ _ => true⟩

/-- A vote, and the flush after it. -/
def voteAndFlush : List OutboundCommand := [.sendTo "b" .validatorVote "vote" 10, .flushOutbound 11]

/-- **The vote that is lost.** The vote is enqueued; the flush takes it out and the transport
refuses it. It is neither queued nor was it accepted. -/
theorem vote_lost :
    (run (steadyTransport .notConnected) sampleMesh voteAndFlush).2 =
      [.enqueued "b" sampleEnvelope none, .handed "b" sampleEnvelope false] ∧
    (run (steadyTransport .notConnected) sampleMesh voteAndFlush).1.outboundQueue.messagesFor "b" =
      [] ∧
    ¬ OutboundKept 1024 "b" (run (steadyTransport .notConnected) sampleMesh voteAndFlush).1
      (run (steadyTransport .notConnected) sampleMesh voteAndFlush).2 := by
  have hevents : (run (steadyTransport .notConnected) sampleMesh voteAndFlush).2 =
      [.enqueued "b" sampleEnvelope none, .handed "b" sampleEnvelope false] := by rfl
  have hmessages : (run (steadyTransport .notConnected) sampleMesh
      voteAndFlush).1.outboundQueue.messagesFor "b" = [] := by rfl
  refine ⟨hevents, hmessages, ?_⟩
  rintro ⟨hkept, -, -, -, -⟩
  rw [hevents, hmessages] at hkept
  exact absurd hkept (by decide +kernel)

/-- The same calls where the transport takes the vote. -/
theorem vote_kept :
    OutboundKept 1024 "b" (run (steadyTransport .sent) sampleMesh voteAndFlush).1
      (run (steadyTransport .sent) sampleMesh voteAndFlush).2 := by
  have hevents : (run (steadyTransport .sent) sampleMesh voteAndFlush).2 =
      [.enqueued "b" sampleEnvelope none, .handed "b" sampleEnvelope true] := by rfl
  refine (outboundKept_iff (steadyTransport .sent) sampleMesh 1024 voteAndFlush "b" rfl
    (fun _ => rfl)).mpr (fun envelope hmem => ?_)
  rw [hevents] at hmem
  simp at hmem

end GossipMesh

end Nodo.Model
