import Nodo.Lib.FixedWindow
import Nodo.Lib.SortedMap
import Nodo.Lib.Text
import Nodo.Model.NetworkEnvelope

/-!
# Nodo — inbound messages

`p2p/InboundMessageValidator.cpp`. An envelope passes checks of its own, then it must be new, and
its sender below the limit of the window. The ids of accepted envelopes are remembered until their
time is over, windows until they are; a prune forgets both, at most every five seconds.

An envelope is expired after `createdAt + ttl`, an id is forgotten at `createdAt + ttl + skew`.
Where no skew is allowed these meet: in the last second of the envelope its id may be gone.

## Results

* `messageId_eq` — equal ids, equal times.
* `Kept.validate` — what one call keeps: ids still needed are there, windows count acceptances.
* `Kept.validate_alike` — states that differ in what is over give the same verdict.
* `processed_once` — over every run without a replay in that last second.
-/

namespace Nodo.Model

--
-- The validator (p2p/InboundMessageValidator.cpp)
--

structure InboundMessagePolicy where
  maxPayloadBytes : Nat
  maxPayloadBytesPerType : NetworkMessageType → Option Nat
  maxTtlSeconds : UInt32
  maxClockSkewSeconds : Int
  maxMessagesPerPeerWindow : Nat
  peerWindowSeconds : UInt32

namespace InboundMessagePolicy

/-- `maxPayloadBytes(type)`. -/
def maxPayloadBytesOf (policy : InboundMessagePolicy) (type : NetworkMessageType) : Nat :=
  match policy.maxPayloadBytesPerType type with
  | some maxBytes => maxBytes
  | none => policy.maxPayloadBytes

def isValid (policy : InboundMessagePolicy) : Bool :=
  0 < policy.maxPayloadBytes && 0 < policy.maxTtlSeconds && 0 ≤ policy.maxClockSkewSeconds
    && 0 < policy.maxMessagesPerPeerWindow && 0 < policy.peerWindowSeconds

end InboundMessagePolicy

inductive InboundMessageStatus
  | accepted
  | invalidPolicy
  | invalidEnvelope
  | wrongNetwork
  | wrongChain
  | wrongProtocol
  | expired
  | ttlTooLarge
  | clockSkew
  | duplicateMessage
  | rateLimited
  deriving DecidableEq, Repr

structure InboundMessageResult where
  status : InboundMessageStatus
  reason : String
  deriving DecidableEq, Repr

structure PeerWindowCounter where
  windowStartedAt : Int
  count : Nat
  deriving DecidableEq

structure InboundMessageValidator where
  policy : InboundMessagePolicy
  seenMessageIds : SortedMap String Int
  messagesByPeerInWindow : SortedMap String PeerWindowCounter
  lastPruneTime : Int

/-- The arguments of `validate`. -/
structure InboundCall where
  envelope : NetworkEnvelope
  expectedNetworkId : String
  expectedChainId : String
  expectedProtocolVersion : String
  now : Int

namespace InboundMessageValidator

/-- The largest `std::int64_t`. -/
def maxTime : Int := 2 ^ 63 - 1

/-- `InboundMessageValidator(policy)`. -/
def new (policy : InboundMessagePolicy) : InboundMessageValidator :=
  ⟨policy, SortedMap.empty, SortedMap.empty, 0⟩

/-- A window that does not count at `now`. -/
def windowOver (policy : InboundMessagePolicy) (window : PeerWindowCounter) (now : Int) : Bool :=
  window.windowStartedAt ≤ 0 || now < window.windowStartedAt
    || (policy.peerWindowSeconds.toNat : Int) < now - window.windowStartedAt

def pruneExpiredState (validator : InboundMessageValidator) (now : Int) : InboundMessageValidator :=
  if now ≤ 0 then validator
  else if now - validator.lastPruneTime < 5 then validator
  else
    { validator with
      lastPruneTime := now
      seenMessageIds := validator.seenMessageIds.filter (fun _ expiresAt => now < expiresAt)
      messagesByPeerInWindow := validator.messagesByPeerInWindow.filter
        (fun _ window => !windowOver validator.policy window now) }

/-- The checks of `validate` before it looks at its state: the refusal, if there is one. -/
def refusal (policy : InboundMessagePolicy) (call : InboundCall) : Option InboundMessageResult :=
  let envelope := call.envelope
  if !policy.isValid then some ⟨.invalidPolicy, "Inbound message policy is invalid."⟩
  else if !envelope.isStructurallyValid (policy.maxPayloadBytesOf envelope.messageType) then
    some ⟨.invalidEnvelope, "Network envelope failed structural validation."⟩
  else if envelope.networkId != call.expectedNetworkId then
    some ⟨.wrongNetwork, "Network id mismatch."⟩
  else if envelope.chainId != call.expectedChainId then some ⟨.wrongChain, "Chain id mismatch."⟩
  else if envelope.protocolVersion != call.expectedProtocolVersion then
    some ⟨.wrongProtocol, "Protocol version mismatch."⟩
  else if policy.maxTtlSeconds < envelope.ttlSeconds then
    some ⟨.ttlTooLarge, "Message TTL exceeds local policy."⟩
  else if envelope.expiredAt call.now then some ⟨.expired, "Message already expired."⟩
  else
    let delta := call.now - envelope.createdAt.toInt
    if delta < 0 && policy.maxClockSkewSeconds < (delta.natAbs : Int) then
      some ⟨.clockSkew, "Message timestamp is too far in the future."⟩
    else none

/-- `ttlWithSkew`, within 64 bits. -/
def ttlWithSkew (policy : InboundMessagePolicy) (envelope : NetworkEnvelope) : Int :=
  let ttlSeconds : Int := envelope.ttlSeconds.toNat
  if maxTime - ttlSeconds < policy.maxClockSkewSeconds then maxTime
  else ttlSeconds + policy.maxClockSkewSeconds

/-- `expiresAt`, within 64 bits: how long the id is remembered. -/
def expiresAt (policy : InboundMessagePolicy) (envelope : NetworkEnvelope) : Int :=
  if maxTime - ttlWithSkew policy envelope < envelope.createdAt.toInt then maxTime
  else envelope.createdAt.toInt + ttlWithSkew policy envelope

/-- `m_messagesByPeerInWindow[senderNodeId]`, restarted when it is over. -/
def peerWindow (validator : InboundMessageValidator) (senderNodeId : String) (now : Int) :
    PeerWindowCounter :=
  let found := (validator.messagesByPeerInWindow.find? senderNodeId).getD ⟨0, 0⟩
  if windowOver validator.policy found now then ⟨now, 0⟩ else found

/-- `m_messagesByPeerInWindow[senderNodeId] = window`. -/
def putWindow (validator : InboundMessageValidator) (senderNodeId : String)
    (window : PeerWindowCounter) : InboundMessageValidator :=
  { validator with
    messagesByPeerInWindow := validator.messagesByPeerInWindow.insert senderNodeId window }

section
variable (hashBytes : String → String)

/-- The id remembered and the message counted. -/
def accept (validator : InboundMessageValidator) (call : InboundCall) (window : PeerWindowCounter) :
    InboundMessageValidator :=
  { validator.putWindow call.envelope.senderNodeId { window with count := window.count + 1 } with
    seenMessageIds := validator.seenMessageIds.insert (call.envelope.messageId hashBytes)
      (expiresAt validator.policy call.envelope) }

/-- `validate` behind the prune. -/
def admitNew (validator : InboundMessageValidator) (call : InboundCall) :
    InboundMessageResult × InboundMessageValidator :=
  let envelope := call.envelope
  if validator.seenMessageIds.contains (envelope.messageId hashBytes) then
    (⟨.duplicateMessage, "Duplicate message id."⟩, validator)
  else
    let window := validator.peerWindow envelope.senderNodeId call.now
    if validator.policy.maxMessagesPerPeerWindow ≤ window.count then
      (⟨.rateLimited, "Peer exceeded message window policy."⟩,
        validator.putWindow envelope.senderNodeId window)
    else (⟨.accepted, "Inbound message accepted."⟩, validator.accept hashBytes call window)

def validate (validator : InboundMessageValidator) (call : InboundCall) :
    InboundMessageResult × InboundMessageValidator :=
  match refusal validator.policy call with
  | some result => (result, validator)
  | none => (validator.pruneExpiredState call.now).admitNew hashBytes call

end

--
-- Runs
--

/-- An envelope that was accepted, when, and in which window of its sender. -/
structure Acceptance where
  envelope : NetworkEnvelope
  windowStart : Int
  time : Int

/-- What a verdict adds to the acceptances; the window is the one it was counted in. -/
def acceptances (call : InboundCall) (verdict : InboundMessageResult × InboundMessageValidator) :
    List Acceptance :=
  if verdict.1.status = .accepted then
    [⟨call.envelope, ((verdict.2.messagesByPeerInWindow.find? call.envelope.senderNodeId).map
      (·.windowStartedAt)).getD 0, call.now⟩]
  else []

section
variable (hashBytes : String → String)

/-- The verdicts of a run. -/
def verdicts (validator : InboundMessageValidator) : List InboundCall → List InboundMessageResult
  | [] => []
  | call :: calls =>
    (validator.validate hashBytes call).1 :: (validator.validate hashBytes call).2.verdicts calls

/-- The validator after a run. -/
def after (validator : InboundMessageValidator) (calls : List InboundCall) : InboundMessageValidator :=
  calls.foldl (fun validator call => (validator.validate hashBytes call).2) validator

/-- The acceptances of a run. -/
def accepted (validator : InboundMessageValidator) : List InboundCall → List Acceptance
  | [] => []
  | call :: calls =>
    acceptances call (validator.validate hashBytes call) ++
      (validator.validate hashBytes call).2.accepted calls

end

end InboundMessageValidator

--
-- The id of a message
--

namespace NetworkEnvelope

variable {hashBytes : String → String} {envelope envelope' : NetworkEnvelope}

/-- The fields of the signed text up to the payload hash, with their labels. -/
def signedFields (envelope : NetworkEnvelope) : List (List Char) :=
  ["NodoNetworkEnvelopeSigningPayload\x7bnetworkId=".toList ++ envelope.networkId.toList,
    "chainId=".toList ++ envelope.chainId.toList,
    "protocolVersion=".toList ++ envelope.protocolVersion.toList,
    "messageType=".toList ++ (networkMessageTypeToString envelope.messageType).toList,
    "senderNodeId=".toList ++ envelope.senderNodeId.toList,
    "createdAt=".toList ++ (toString envelope.createdAt.toInt).toList,
    "ttlSeconds=".toList ++ (toString envelope.ttlSeconds.toNat).toList]

theorem toList_signingPayload (envelope : NetworkEnvelope) :
    (envelope.signingPayload hashBytes).toList = envelope.signedFields.flatMap (· ++ [';'])
      ++ ("payloadHash=".toList ++ (envelope.payloadHash hashBytes).toList ++ ['\x7d']) := by
  have hlabels : ";chainId=".toList = ';' :: "chainId=".toList
      ∧ ";protocolVersion=".toList = ';' :: "protocolVersion=".toList
      ∧ ";messageType=".toList = ';' :: "messageType=".toList
      ∧ ";senderNodeId=".toList = ';' :: "senderNodeId=".toList
      ∧ ";createdAt=".toList = ';' :: "createdAt=".toList
      ∧ ";ttlSeconds=".toList = ';' :: "ttlSeconds=".toList
      ∧ ";payloadHash=".toList = ';' :: "payloadHash=".toList
      ∧ "\x7d".toList = ['\x7d'] := by decide
  obtain ⟨hchain, hprotocol, htype, hsender, hcreated, httl, hpayload, hclose⟩ := hlabels
  unfold signingPayload signedFields
  simp only [String.toList_append, hchain, hprotocol, htype, hsender, hcreated, httl, hpayload, hclose,
    List.flatMap_cons, List.flatMap_nil, List.append_assoc, List.cons_append, List.nil_append]

theorem not_mem_of_safe {c : Char} {value : String} (h : isSafeField value = true)
    (hc : c = ';' ∨ c = '\x00') : c ∉ value.toList := by
  unfold isSafeField isSafeIdentifier at h
  simp only [Bool.and_eq_true, List.all_eq_true] at h
  intro hin
  have hchar := h.1.2 c hin
  rcases hc with rfl | rfl
  · revert hchar
    decide
  · revert hchar
    decide

theorem not_mem_typeText {c : Char} (messageType : NetworkMessageType) (hc : c = ';' ∨ c = '\x00') :
    c ∉ (networkMessageTypeToString messageType).toList := by
  rcases hc with rfl | rfl
  · cases messageType <;> decide
  · cases messageType <;> decide

theorem toString_createdAt (h : 0 < envelope.createdAt) :
    toString envelope.createdAt.toInt = toString envelope.createdAt.toInt.toNat := by
  have hpos : 0 < envelope.createdAt.toInt := Int64.lt_iff_toInt_lt.mp h
  obtain ⟨n, hn⟩ := Int.eq_ofNat_of_zero_le (Int.le_of_lt hpos)
  rw [hn]
  rfl

/-- No field of a valid envelope holds a delimiter or ends the text. -/
theorem not_mem_signedFields {maxPayloadBytes : Nat}
    (h : envelope.isStructurallyValid maxPayloadBytes = true) {c : Char} (hc : c = ';' ∨ c = '\x00') :
    ∀ x ∈ envelope.signedFields, c ∉ x := by
  unfold isStructurallyValid at h
  simp only [Bool.and_eq_true, decide_eq_true_eq] at h
  obtain ⟨⟨⟨⟨⟨⟨⟨hnetwork, hchain⟩, hprotocol⟩, hsender⟩, -⟩, hcreated⟩, -⟩, -⟩ := h
  have hlabels : ∀ label ∈ ["NodoNetworkEnvelopeSigningPayload\x7bnetworkId=", "chainId=",
      "protocolVersion=", "messageType=", "senderNodeId=", "createdAt=", "ttlSeconds="],
      c ∉ label.toList := by
    rcases hc with rfl | rfl
    · decide
    · decide
  have hdigit : c.isDigit = false := by
    rcases hc with rfl | rfl
    · rfl
    · rfl
  have hfield : ∀ {label : String} {text : List Char}, label ∈ ["NodoNetworkEnvelopeSigningPayload\x7bnetworkId=", "chainId=",
      "protocolVersion=", "messageType=", "senderNodeId=", "createdAt=", "ttlSeconds="] → c ∉ text →
      c ∉ label.toList ++ text :=
    fun hlabel htext hin => (List.mem_append.mp hin).elim (hlabels _ hlabel) htext
  intro x hx
  unfold signedFields at hx
  simp only [List.mem_cons, List.not_mem_nil, or_false] at hx
  rcases hx with rfl | rfl | rfl | rfl | rfl | rfl | rfl
  · exact hfield (by decide) (not_mem_of_safe hnetwork hc)
  · exact hfield (by decide) (not_mem_of_safe hchain hc)
  · exact hfield (by decide) (not_mem_of_safe hprotocol hc)
  · exact hfield (by decide) (not_mem_typeText _ hc)
  · exact hfield (by decide) (not_mem_of_safe hsender hc)
  · rw [toString_createdAt hcreated]
    exact hfield (by decide) (Text.not_mem_toString hdigit)
  · exact hfield (by decide) (Text.not_mem_toString hdigit)

/-- The text that is hashed to a message id, up to the payload hash. -/
theorem toList_cString_signingPayload {maxPayloadBytes : Nat}
    (h : envelope.isStructurallyValid maxPayloadBytes = true) :
    ∃ rest, (cString (envelope.signingPayload hashBytes)).toList =
      envelope.signedFields.flatMap (· ++ [';']) ++ rest := by
  refine ⟨_, toList_cString envelope.toList_signingPayload ?_⟩
  intro hin
  obtain ⟨x, hx, hmem⟩ := List.mem_flatMap.mp hin
  rcases List.mem_append.mp hmem with hfield | hend
  · exact not_mem_signedFields h (Or.inr rfl) x hx hfield
  · exact absurd (List.mem_singleton.mp hend) (by decide)

/-- **Envelopes with one signed text have one creation time and one time to live.** -/
theorem times_eq {maxPayloadBytes maxPayloadBytes' : Nat}
    (h : envelope.isStructurallyValid maxPayloadBytes = true)
    (h' : envelope'.isStructurallyValid maxPayloadBytes' = true)
    (heq : cString (envelope.signingPayload hashBytes) = cString (envelope'.signingPayload hashBytes)) :
    envelope.createdAt = envelope'.createdAt ∧ envelope.ttlSeconds = envelope'.ttlSeconds := by
  obtain ⟨rest, htext⟩ := @toList_cString_signingPayload hashBytes _ _ h
  obtain ⟨rest', htext'⟩ := @toList_cString_signingPayload hashBytes _ _ h'
  rw [heq, htext'] at htext
  have hfields := Text.segments_inj
    (show envelope'.signedFields.length = envelope.signedFields.length from rfl) (not_mem_signedFields h' (Or.inl rfl))
    (not_mem_signedFields h (Or.inl rfl)) htext
  have hcreated : 0 < envelope.createdAt ∧ 0 < envelope'.createdAt := by
    unfold isStructurallyValid at h h'
    simp only [Bool.and_eq_true, decide_eq_true_eq] at h h'
    exact ⟨h.1.1.2, h'.1.1.2⟩
  unfold signedFields at hfields
  simp only [List.cons.injEq, List.append_cancel_left_eq, and_true] at hfields
  obtain ⟨-, -, -, -, -, htime, httl⟩ := hfields
  rw [toString_createdAt hcreated.1, toString_createdAt hcreated.2] at htime
  have hnat := Text.toString_nat_inj (String.toList_injective htime)
  have hpos := Int64.lt_iff_toInt_lt.mp hcreated.1
  have hpos' := Int64.lt_iff_toInt_lt.mp hcreated.2
  have hzero : (0 : Int64).toInt = 0 := rfl
  rw [hzero] at hpos hpos'
  refine ⟨Int64.toInt_inj.mp (by omega), ?_⟩
  exact UInt32.toNat_inj.mp (Text.toString_nat_inj (String.toList_injective httl)).symm

end NetworkEnvelope

--
-- What the validator holds of its history
--

namespace InboundMessageValidator

variable {hashBytes : String → String} {validator : InboundMessageValidator}
  {history : List Acceptance} {clock now : Int} {call : InboundCall} {sender id : String}

/-- The span that a window covers: up to and with its last second. -/
def windowLength (policy : InboundMessagePolicy) : Int := policy.peerWindowSeconds.toNat + 1

theorem windowLength_pos (policy : InboundMessagePolicy) : 0 < windowLength policy := by
  unfold windowLength
  omega

/-- The acceptances of one sender. -/
def ofSender (history : List Acceptance) (sender : String) : List Acceptance :=
  history.filter (fun a => a.envelope.senderNodeId == sender)

theorem ofSender_concat (history : List Acceptance) (a : Acceptance) (sender : String) :
    ofSender (history ++ [a]) sender =
      if a.envelope.senderNodeId = sender then ofSender history sender ++ [a]
      else ofSender history sender := by
  unfold ofSender
  rw [List.filter_append, List.filter_singleton]
  by_cases hsender : a.envelope.senderNodeId = sender
  · rw [if_pos hsender, beq_iff_eq.mpr hsender]
    rfl
  · rw [if_neg hsender, beq_false_of_ne hsender]
    exact List.append_nil _

theorem windowOver_eq_false {policy : InboundMessagePolicy} {window : PeerWindowCounter}
    (hpos : 0 < window.windowStartedAt) (hle : window.windowStartedAt ≤ now) :
    windowOver policy window now = false ↔ now < window.windowStartedAt + windowLength policy := by
  unfold windowOver windowLength
  simp only [Bool.or_eq_false_iff, decide_eq_false_iff_not]
  omega

/-- **The invariant of a run**: an id is there until its time is over, and each window counts
the acceptances in it. -/
structure Kept (hashBytes : String → String) (validator : InboundMessageValidator)
    (history : List Acceptance) (clock : Int) : Prop where
  seen : ∀ {id until'}, validator.seenMessageIds.find? id = some until' →
    ∃ a ∈ history, id = a.envelope.messageId hashBytes ∧ until' = expiresAt validator.policy a.envelope
  remembered : ∀ a ∈ history, clock < expiresAt validator.policy a.envelope →
    validator.seenMessageIds.contains (a.envelope.messageId hashBytes) = true
  once : (history.map (fun a => a.envelope.messageId hashBytes)).Nodup
  structural : ∀ a ∈ history, ∃ maxPayloadBytes, a.envelope.isStructurallyValid maxPayloadBytes = true
  started : ∀ {sender window}, validator.messagesByPeerInWindow.find? sender = some window →
    0 < window.windowStartedAt ∧ window.windowStartedAt ≤ clock
  counted : ∀ {sender window}, validator.messagesByPeerInWindow.find? sender = some window →
    0 < window.count
  follows : ∀ {sender window}, validator.messagesByPeerInWindow.find? sender = some window →
    FixedWindow.Follows Acceptance.windowStart (windowLength validator.policy)
      (ofSender history sender) window.windowStartedAt window.count
  settled : ∀ {sender}, validator.messagesByPeerInWindow.find? sender = none →
    FixedWindow.Settled Acceptance.windowStart (windowLength validator.policy)
      (ofSender history sender) clock
  spaced : ∀ sender, FixedWindow.Spaced Acceptance.windowStart Acceptance.time
    (windowLength validator.policy) validator.policy.maxMessagesPerPeerWindow (ofSender history sender)
  pruned : 0 ≤ validator.lastPruneTime ∧ validator.lastPruneTime ≤ clock

/-- No two envelopes of the pool have one id and different texts. -/
def NoCollision (hashBytes : String → String) (pool : List NetworkEnvelope) : Prop :=
  ∀ e ∈ pool, ∀ e' ∈ pool, e.messageId hashBytes = e'.messageId hashBytes →
    cString (e.signingPayload hashBytes) = cString (e'.signingPayload hashBytes)

theorem Kept.mono (h : Kept hashBytes validator history clock) (hle : clock ≤ now) :
    Kept hashBytes validator history now where
  seen := h.seen
  remembered a ha hlater := h.remembered a ha (Int.lt_of_le_of_lt hle hlater)
  once := h.once
  structural := h.structural
  started hfind := ⟨(h.started hfind).1, Int.le_trans (h.started hfind).2 hle⟩
  counted := h.counted
  follows := h.follows
  settled hfind := (h.settled hfind).mono hle
  spaced := h.spaced
  pruned := ⟨h.pruned.1, Int.le_trans h.pruned.2 hle⟩

/-- **A prune forgets only what is over.** -/
theorem Kept.prune (h : Kept hashBytes validator history now) :
    Kept hashBytes (validator.pruneExpiredState now) history now := by
  unfold pruneExpiredState
  split
  · exact h
  split
  · exact h
  rename_i hnow _
  refine ⟨fun hfind => ?_, fun a ha hlater => ?_, h.once, h.structural, fun hfind => ?_, fun hfind => ?_,
    fun hfind => ?_, fun {sender} hnone => ?_, h.spaced, ⟨by simp only; omega, Int.le_refl _⟩⟩
  · exact h.seen ((validator.seenMessageIds.find?_filter_eq_some _).mp hfind).1
  · obtain ⟨until', hfind⟩ := (SortedMap.contains_iff _).mp (h.remembered a ha hlater)
    obtain ⟨a', ha', hid, huntil⟩ := h.seen hfind
    obtain rfl : a' = a := List.inj_on_of_nodup_map h.once ha' ha hid.symm
    refine (SortedMap.contains_iff _).mpr ⟨until', ?_⟩
    refine (validator.seenMessageIds.find?_filter_eq_some _).mpr ⟨hfind, ?_⟩
    rw [huntil]
    exact decide_eq_true hlater
  · exact h.started ((validator.messagesByPeerInWindow.find?_filter_eq_some _).mp hfind).1
  · exact h.counted ((validator.messagesByPeerInWindow.find?_filter_eq_some _).mp hfind).1
  · exact h.follows ((validator.messagesByPeerInWindow.find?_filter_eq_some _).mp hfind).1
  · cases hfind : validator.messagesByPeerInWindow.find? sender with
    | none => exact h.settled hfind
    | some window =>
      obtain ⟨hpos, hle⟩ := h.started hfind
      refine (h.follows hfind).settled (Int.le_of_lt (windowLength_pos _))
        (Int.not_lt.mp (fun hopen => ?_))
      have hstays : (validator.messagesByPeerInWindow.filter
          (fun _ window => !windowOver validator.policy window now)).find? sender = some window := by
        refine (validator.messagesByPeerInWindow.find?_filter_eq_some _).mpr ⟨hfind, ?_⟩
        rw [(windowOver_eq_false hpos hle).mpr hopen]
        rfl
      rw [hstays] at hnone
      cases hnone

theorem policy_prune (validator : InboundMessageValidator) (now : Int) :
    (validator.pruneExpiredState now).policy = validator.policy := by
  unfold pruneExpiredState
  split
  · rfl
  split
  · rfl
  · rfl

--
-- The window of a sender
--

/-- The start of the window that an acceptance at `now` is counted in. -/
def openStart (policy : InboundMessagePolicy) (history : List Acceptance) (sender : String)
    (now : Int) : Int :=
  match (ofSender history sender).find? (fun a => now < a.windowStart + windowLength policy) with
  | some a => a.windowStart
  | none => now

/-- The acceptances counted in that window. -/
def openCount (policy : InboundMessagePolicy) (history : List Acceptance) (sender : String)
    (now : Int) : Nat :=
  FixedWindow.alive Acceptance.windowStart (windowLength policy) (ofSender history sender) now

/-- Nothing is open when all windows are over. -/
theorem open_of_settled {policy : InboundMessagePolicy}
    (h : FixedWindow.Settled Acceptance.windowStart (windowLength policy) (ofSender history sender) now) :
    openStart policy history sender now = now ∧ openCount policy history sender now = 0 := by
  refine ⟨?_, h.alive_eq⟩
  have hnone : (ofSender history sender).find?
      (fun a => now < a.windowStart + windowLength policy) = none := by
    rw [List.find?_eq_none]
    intro a ha hopen
    exact absurd (h a ha) (Int.not_le.mpr (of_decide_eq_true hopen))
  unfold openStart
  rw [hnone]

/-- **The window of a sender is told by the history.** -/
theorem Kept.peerWindow_eq (h : Kept hashBytes validator history now) (sender : String) :
    validator.peerWindow sender now =
      ⟨openStart validator.policy history sender now, openCount validator.policy history sender now⟩ := by
  unfold peerWindow
  simp only
  cases hfind : validator.messagesByPeerInWindow.find? sender with
  | none =>
    obtain ⟨hstart, hcount⟩ := open_of_settled (h.settled hfind)
    have hover : windowOver validator.policy ⟨0, 0⟩ now = true := rfl
    rw [Option.getD_none, if_pos hover, hcount, hstart]
  | some window =>
    obtain ⟨hpos, hle⟩ := h.started hfind
    rw [Option.getD_some]
    rcases Int.lt_or_le now (window.windowStartedAt + windowLength validator.policy) with hopen | hover
    · have halive : openCount validator.policy history sender now = window.count :=
        (h.follows hfind).alive_eq hle hopen
      -- The window has counted something, and all that is open started with it.
      have hsome : 0 < (ofSender history sender).countP
          (fun a => now < a.windowStart + windowLength validator.policy) :=
        Nat.lt_of_lt_of_eq (h.counted hfind) halive.symm
      have hany : ((ofSender history sender).find?
          (fun a => now < a.windowStart + windowLength validator.policy)).isSome = true := by
        rw [List.find?_isSome]
        exact List.countP_pos_iff.mp hsome
      obtain ⟨first, hfirst⟩ := Option.isSome_iff_exists.mp hany
      have hin := List.mem_of_find?_eq_some hfirst
      have hfresh : now < first.windowStart + windowLength validator.policy := by
        simpa using List.find?_some hfirst
      have hstart : openStart validator.policy history sender now = window.windowStartedAt := by
        unfold openStart
        rw [hfirst]
        rcases (h.follows hfind).older first hin with heq | hold
        · exact heq
        · omega
      rw [if_neg (by rw [(windowOver_eq_false hpos hle).mpr hopen]; exact Bool.false_ne_true), halive,
        hstart]
    · obtain ⟨hstart, hcount⟩ := open_of_settled
        ((h.follows hfind).settled (Int.le_of_lt (windowLength_pos _)) hover)
      have hover : windowOver validator.policy window now = true := by
        rw [← Bool.not_eq_false, windowOver_eq_false hpos hle]
        exact Int.not_lt.mpr hover
      rw [if_pos hover, hcount, hstart]

end InboundMessageValidator

--
-- One call
--

namespace InboundMessageValidator

variable {hashBytes : String → String} {validator : InboundMessageValidator}
  {history : List Acceptance} {clock now : Int} {call : InboundCall}

/-- The purpose of the validator: what it should answer, told by what was accepted before. -/
def judge (hashBytes : String → String) (policy : InboundMessagePolicy) (history : List Acceptance)
    (call : InboundCall) : InboundMessageResult × List Acceptance :=
  let sender := call.envelope.senderNodeId
  match refusal policy call with
  | some result => (result, [])
  | none =>
    if history.any (fun a => a.envelope.messageId hashBytes == call.envelope.messageId hashBytes) then
      (⟨.duplicateMessage, "Duplicate message id."⟩, [])
    else if policy.maxMessagesPerPeerWindow ≤ openCount policy history sender call.now then
      (⟨.rateLimited, "Peer exceeded message window policy."⟩, [])
    else
      (⟨.accepted, "Inbound message accepted."⟩,
        [⟨call.envelope, openStart policy history sender call.now, call.now⟩])

/-- An accepted envelope comes again in a second in which it is not expired and its id need
not be remembered. -/
def LateReplay (hashBytes : String → String) (policy : InboundMessagePolicy)
    (history : List Acceptance) (call : InboundCall) : Prop :=
  (∃ a ∈ history, a.envelope.messageId hashBytes = call.envelope.messageId hashBytes) ∧
    call.envelope.expiredAt call.now = false ∧ expiresAt policy call.envelope ≤ call.now

/-- What the checks on the envelope alone have shown. -/
theorem of_refusal_none {policy : InboundMessagePolicy} (h : refusal policy call = none) :
    policy.isValid = true ∧ call.envelope.isStructurallyValid
        (policy.maxPayloadBytesOf call.envelope.messageType) = true ∧
      call.envelope.expiredAt call.now = false := by
  unfold refusal at h
  simp only at h
  have hvalid := Guards.none_of_ite_some h
  have hstructural := Guards.none_of_ite_some hvalid.2
  have hnetwork := Guards.none_of_ite_some hstructural.2
  have hchain := Guards.none_of_ite_some hnetwork.2
  have hprotocol := Guards.none_of_ite_some hchain.2
  have httl := Guards.none_of_ite_some hprotocol.2
  have hexpired := Guards.none_of_ite_some httl.2
  exact ⟨by simpa using hvalid.1, by simpa using hstructural.1, by simpa using hexpired.1⟩

theorem pos_of_not_expired {envelope : NetworkEnvelope} (h : envelope.expiredAt now = false) : 0 < now := by
  unfold NetworkEnvelope.expiredAt at h
  split at h
  · cases h
  · rename_i hgo
    simp only [Bool.or_eq_true, decide_eq_true_eq, not_or, Int.not_le] at hgo
    exact hgo.1

theorem expiresAt_eq {policy : InboundMessagePolicy} {envelope envelope' : NetworkEnvelope}
    (hcreated : envelope.createdAt = envelope'.createdAt)
    (httl : envelope.ttlSeconds = envelope'.ttlSeconds) :
    expiresAt policy envelope = expiresAt policy envelope' := by
  unfold expiresAt ttlWithSkew
  rw [hcreated, httl]

/-- **An id is there exactly when an envelope with it was accepted**, unless it comes in that
last second. -/
theorem Kept.contains_iff (h : Kept hashBytes validator history now) {pool : List NetworkEnvelope}
    (hcollision : NoCollision hashBytes pool) (hhistory : ∀ a ∈ history, a.envelope ∈ pool)
    (hcall : call.envelope ∈ pool) (hnow : call.now = now) {maxPayloadBytes : Nat}
    (hstructural : call.envelope.isStructurallyValid maxPayloadBytes = true)
    (hexpired : call.envelope.expiredAt call.now = false)
    (htimely : ¬ LateReplay hashBytes validator.policy history call) :
    validator.seenMessageIds.contains (call.envelope.messageId hashBytes) =
      history.any (fun a => a.envelope.messageId hashBytes == call.envelope.messageId hashBytes) := by
  rw [Bool.eq_iff_iff, SortedMap.contains_iff, List.any_eq_true]
  constructor
  · rintro ⟨until', hfind⟩
    obtain ⟨a, ha, hid, -⟩ := h.seen hfind
    exact ⟨a, ha, beq_iff_eq.mpr hid.symm⟩
  · rintro ⟨a, ha, hid⟩
    rw [beq_iff_eq] at hid
    obtain ⟨_, hvalid⟩ := h.structural a ha
    obtain ⟨hcreated, httl⟩ := NetworkEnvelope.times_eq hvalid hstructural
      (hcollision a.envelope (hhistory a ha) call.envelope hcall hid)
    have hlater : now < expiresAt validator.policy a.envelope := by
      rw [expiresAt_eq hcreated httl]
      refine Int.not_le.mp (fun hover => htimely ⟨⟨a, ha, hid⟩, hexpired, ?_⟩)
      rw [hnow]
      exact hover
    rw [← hid]
    exact (SortedMap.contains_iff _).mp (h.remembered a ha hlater)

/-- **Accepting a new envelope below the limit keeps the invariant.** -/
theorem Kept.accept (h : Kept hashBytes validator history call.now) (hpos : 0 < call.now)
    {maxPayloadBytes : Nat} (hstructural : call.envelope.isStructurallyValid maxPayloadBytes = true)
    (hnew : ∀ a ∈ history, a.envelope.messageId hashBytes ≠ call.envelope.messageId hashBytes)
    (hroom : openCount validator.policy history call.envelope.senderNodeId call.now
      < validator.policy.maxMessagesPerPeerWindow) :
    Kept hashBytes (validator.accept hashBytes call
        (validator.peerWindow call.envelope.senderNodeId call.now))
      (history ++ [⟨call.envelope, openStart validator.policy history call.envelope.senderNodeId call.now,
        call.now⟩]) call.now := by
  set sender := call.envelope.senderNodeId with hsender
  set start := openStart validator.policy history sender call.now with hstart
  set count := openCount validator.policy history sender call.now with hcount
  -- The window is open, and the one that the history tells.
  have hwindow : 0 < start ∧ start ≤ call.now ∧ call.now < start + windowLength validator.policy ∧
      FixedWindow.Follows Acceptance.windowStart (windowLength validator.policy)
        (ofSender history sender) start count := by
    have hpeer := h.peerWindow_eq sender
    rw [← hstart, ← hcount] at hpeer
    unfold peerWindow at hpeer
    simp only at hpeer
    have hlength := windowLength_pos validator.policy
    have hnewWindow : FixedWindow.Settled Acceptance.windowStart (windowLength validator.policy)
        (ofSender history sender) call.now →
        (⟨call.now, 0⟩ : PeerWindowCounter) = ⟨start, count⟩ →
        0 < start ∧ start ≤ call.now ∧ call.now < start + windowLength validator.policy ∧
        FixedWindow.Follows Acceptance.windowStart (windowLength validator.policy)
          (ofSender history sender) start count := by
      intro hsettled heq
      obtain ⟨hs, hc⟩ := PeerWindowCounter.mk.inj heq
      rw [← hs, ← hc]
      exact ⟨hpos, Int.le_refl _, by omega, hsettled.follows hlength⟩
    cases hfind : validator.messagesByPeerInWindow.find? sender with
    | none =>
      have hover : windowOver validator.policy ⟨0, 0⟩ call.now = true := rfl
      rw [hfind, Option.getD_none, if_pos hover] at hpeer
      exact hnewWindow (h.settled hfind) hpeer
    | some window =>
      obtain ⟨hwpos, hwle⟩ := h.started hfind
      rw [hfind, Option.getD_some] at hpeer
      by_cases hover : windowOver validator.policy window call.now = true
      · rw [if_pos hover] at hpeer
        refine hnewWindow ((h.follows hfind).settled (Int.le_of_lt hlength) ?_) hpeer
        exact Int.not_lt.mp (fun hopen => Bool.false_ne_true
          (((windowOver_eq_false hwpos hwle).mpr hopen).symm.trans hover))
      · rw [if_neg hover] at hpeer
        have hopen := (windowOver_eq_false hwpos hwle).mp (Bool.not_eq_true _ ▸ hover)
        have hfollows := h.follows hfind
        rw [hpeer] at hwpos hwle hopen hfollows
        exact ⟨hwpos, hwle, hopen, hfollows⟩
  obtain ⟨hspos, hsle, hopen, hfollows⟩ := hwindow
  rw [h.peerWindow_eq sender]
  have hfindWindow : ∀ other, (InboundMessageValidator.accept hashBytes validator call
      ⟨start, count⟩).messagesByPeerInWindow.find? other =
      if sender = other then some ⟨start, count + 1⟩
      else validator.messagesByPeerInWindow.find? other :=
    fun other => validator.messagesByPeerInWindow.find?_insert _ _ _
  have hfindSeen : ∀ id, (InboundMessageValidator.accept hashBytes validator call
      ⟨start, count⟩).seenMessageIds.find? id =
      if call.envelope.messageId hashBytes = id then some (expiresAt validator.policy call.envelope)
      else validator.seenMessageIds.find? id :=
    fun id => validator.seenMessageIds.find?_insert _ _ _
  have hmine : (⟨call.envelope, start, call.now⟩ : Acceptance).envelope.senderNodeId = sender := rfl
  refine ⟨fun {id until'} hfind => ?_, fun a ha hlater => ?_, ?_, fun a ha => ?_,
    fun {other window} hfind => ?_, fun {other window} hfind => ?_, fun {other window} hfind => ?_,
    fun {other} hnone => ?_, fun other => ?_, h.pruned⟩
  · rw [hfindSeen] at hfind
    split_ifs at hfind with heq
    · obtain rfl := Option.some.inj hfind
      exact ⟨_, List.mem_append_right _ List.mem_cons_self, heq.symm, rfl⟩
    · obtain ⟨a, ha, hrest⟩ := h.seen hfind
      exact ⟨a, List.mem_append_left _ ha, hrest⟩
  · rw [SortedMap.contains_iff]
    rcases List.mem_append.mp ha with hold | hnewest
    · obtain ⟨until', hfind⟩ := (SortedMap.contains_iff _).mp (h.remembered a hold hlater)
      exact ⟨until', by rw [hfindSeen, if_neg (fun heq => hnew a hold heq.symm)]; exact hfind⟩
    · obtain rfl := List.mem_singleton.mp hnewest
      exact ⟨_, by rw [hfindSeen, if_pos rfl]⟩
  · rw [List.map_append, List.nodup_append]
    refine ⟨h.once, List.nodup_singleton _, fun id hid id' hid' => ?_⟩
    obtain ⟨a, ha, rfl⟩ := List.mem_map.mp hid
    obtain rfl := List.mem_singleton.mp hid'
    exact hnew a ha
  · rcases List.mem_append.mp ha with hold | hnewest
    · exact h.structural a hold
    · obtain rfl := List.mem_singleton.mp hnewest
      exact ⟨_, hstructural⟩
  · rw [hfindWindow] at hfind
    split_ifs at hfind with heq
    · obtain rfl := Option.some.inj hfind
      exact ⟨hspos, hsle⟩
    · exact h.started hfind
  · rw [hfindWindow] at hfind
    split_ifs at hfind with heq
    · obtain rfl := Option.some.inj hfind
      exact Nat.succ_pos _
    · exact h.counted hfind
  · rw [hfindWindow] at hfind
    rw [ofSender_concat, hmine]
    split_ifs at hfind ⊢ with heq
    · obtain rfl := Option.some.inj hfind
      rw [← heq]
      exact hfollows.grant rfl
    · exact h.follows hfind
  · rw [hfindWindow] at hnone
    rw [ofSender_concat, hmine]
    split_ifs at hnone ⊢ with heq
    exact h.settled hnone
  · rw [ofSender_concat, hmine]
    split_ifs with heq
    · rw [← heq]
      exact hfollows.spaced_concat (h.spaced sender) rfl ⟨hsle, hopen⟩ hroom
    · exact h.spaced other

end InboundMessageValidator

namespace InboundMessageValidator

variable {hashBytes : String → String} {validator validator' : InboundMessageValidator}
  {history : List Acceptance} {clock now : Int} {call : InboundCall} {pool : List NetworkEnvelope}

theorem refusal_status {policy : InboundMessagePolicy} {result : InboundMessageResult}
    (h : refusal policy call = some result) : result.status ≠ .accepted := by
  unfold refusal at h
  simp only at h
  split at h
  · obtain rfl := Option.some.inj h
    decide
  split at h
  · obtain rfl := Option.some.inj h
    decide
  split at h
  · obtain rfl := Option.some.inj h
    decide
  split at h
  · obtain rfl := Option.some.inj h
    decide
  split at h
  · obtain rfl := Option.some.inj h
    decide
  split at h
  · obtain rfl := Option.some.inj h
    decide
  split at h
  · obtain rfl := Option.some.inj h
    decide
  split at h
  · obtain rfl := Option.some.inj h
    decide
  · cases h

/-- A window that has counted is written back as it is. -/
theorem putWindow_peerWindow {sender : String}
    (h : (validator.peerWindow sender now).count ≠ 0) :
    validator.putWindow sender (validator.peerWindow sender now) = validator := by
  unfold peerWindow at h ⊢
  simp only at h ⊢
  cases hfind : validator.messagesByPeerInWindow.find? sender with
  | none =>
    have hover : windowOver validator.policy ⟨0, 0⟩ now = true := rfl
    rw [hfind, Option.getD_none, if_pos hover] at h
    exact absurd rfl h
  | some window =>
    rw [hfind, Option.getD_some] at h
    rw [Option.getD_some]
    split_ifs at h ⊢ with hover
    · exact absurd rfl h
    · unfold putWindow
      rw [validator.messagesByPeerInWindow.insert_of_find? hfind]

theorem acceptances_of_status {verdict : InboundMessageResult × InboundMessageValidator}
    (h : verdict.1.status ≠ .accepted) : acceptances call verdict = [] := by
  unfold acceptances
  rw [if_neg h]

theorem acceptances_accept (result : InboundMessageResult) (hresult : result.status = .accepted)
    (window : PeerWindowCounter) :
    acceptances call (result, accept hashBytes validator call window) =
      [⟨call.envelope, window.windowStartedAt, call.now⟩] := by
  have hfind : (accept hashBytes validator call window).messagesByPeerInWindow.find?
      call.envelope.senderNodeId = some { window with count := window.count + 1 } :=
    (validator.messagesByPeerInWindow.find?_insert _ _ _).trans (if_pos rfl)
  unfold acceptances
  rw [if_pos hresult, hfind]
  rfl

/-- **An envelope past its own checks, on a pruned state.** -/
theorem Kept.admitNew (h : Kept hashBytes validator history call.now)
    (hcollision : NoCollision hashBytes pool) (hhistory : ∀ a ∈ history, a.envelope ∈ pool)
    (hcall : call.envelope ∈ pool)
    (htimely : ¬ LateReplay hashBytes validator.policy history call)
    (hrefusal : refusal validator.policy call = none) :
    (validator.admitNew hashBytes call).1 = (judge hashBytes validator.policy history call).1 ∧
      acceptances call (validator.admitNew hashBytes call) =
        (judge hashBytes validator.policy history call).2 ∧
      Kept hashBytes (validator.admitNew hashBytes call).2
        (history ++ (judge hashBytes validator.policy history call).2) call.now ∧
      (validator.admitNew hashBytes call).2.policy = validator.policy := by
  obtain ⟨hvalid, hstructural, hexpired⟩ := of_refusal_none hrefusal
  have hcontains := h.contains_iff hcollision hhistory hcall rfl hstructural hexpired htimely
  have hwindow := h.peerWindow_eq call.envelope.senderNodeId
  unfold InboundMessageValidator.admitNew judge
  simp only
  rw [hrefusal, hcontains]
  simp only
  by_cases hduplicate : history.any
      (fun a => a.envelope.messageId hashBytes == call.envelope.messageId hashBytes) = true
  · rw [if_pos hduplicate, if_pos hduplicate]
    refine ⟨rfl, acceptances_of_status (fun hstatus => nomatch hstatus), ?_, rfl⟩
    rw [List.append_nil]
    exact h
  rw [if_neg hduplicate, if_neg hduplicate]
  by_cases hlimited : validator.policy.maxMessagesPerPeerWindow
      ≤ openCount validator.policy history call.envelope.senderNodeId call.now
  · rw [if_pos (by rw [hwindow]; exact hlimited), if_pos hlimited]
    have hcounted : (validator.peerWindow call.envelope.senderNodeId call.now).count ≠ 0 := by
      have hmax : 0 < validator.policy.maxMessagesPerPeerWindow := by
        unfold InboundMessagePolicy.isValid at hvalid
        simp only [Bool.and_eq_true, decide_eq_true_eq] at hvalid
        exact hvalid.1.2
      rw [hwindow]
      exact Nat.ne_of_gt (Nat.lt_of_lt_of_le hmax hlimited)
    refine ⟨rfl, acceptances_of_status (fun hstatus => nomatch hstatus), ?_, rfl⟩
    rw [List.append_nil, putWindow_peerWindow hcounted]
    exact h
  · have hnew : ∀ a ∈ history, a.envelope.messageId hashBytes ≠ call.envelope.messageId hashBytes :=
      fun a ha heq => hduplicate (List.any_eq_true.mpr ⟨a, ha, beq_iff_eq.mpr heq⟩)
    have haccept := h.accept (pos_of_not_expired hexpired) hstructural hnew (Nat.not_le.mp hlimited)
    rw [if_neg (by rw [hwindow]; exact hlimited), if_neg hlimited]
    refine ⟨rfl, ?_, haccept, rfl⟩
    rw [acceptances_accept _ rfl, hwindow]

/-- **One call: the verdict is the judgement of the history**, and the invariant is kept. -/
theorem Kept.validate (h : Kept hashBytes validator history clock) (hle : clock ≤ call.now)
    (hcollision : NoCollision hashBytes pool) (hhistory : ∀ a ∈ history, a.envelope ∈ pool)
    (hcall : call.envelope ∈ pool)
    (htimely : ¬ LateReplay hashBytes validator.policy history call) :
    (validator.validate hashBytes call).1 = (judge hashBytes validator.policy history call).1 ∧
      acceptances call (validator.validate hashBytes call) =
        (judge hashBytes validator.policy history call).2 ∧
      Kept hashBytes (validator.validate hashBytes call).2
        (history ++ (judge hashBytes validator.policy history call).2) call.now ∧
      (validator.validate hashBytes call).2.policy = validator.policy := by
  have hnow := h.mono hle
  unfold InboundMessageValidator.validate
  cases hrefusal : refusal validator.policy call with
  | some result =>
    have hjudge : judge hashBytes validator.policy history call = (result, []) := by
      unfold judge
      rw [hrefusal]
    rw [hjudge, List.append_nil]
    exact ⟨rfl, acceptances_of_status (refusal_status hrefusal), hnow, rfl⟩
  | none =>
    have hpolicy := validator.policy_prune call.now
    have hadmit := hnow.prune.admitNew hcollision hhistory hcall (by rw [hpolicy]; exact htimely)
      (by rw [hpolicy]; exact hrefusal)
    rw [hpolicy] at hadmit
    exact hadmit

end InboundMessageValidator

--
-- Runs
--

namespace InboundMessageValidator

variable {hashBytes : String → String} {validator validator' : InboundMessageValidator}
  {history : List Acceptance} {clock now : Int} {call : InboundCall} {pool : List NetworkEnvelope}

/-- The times of a run go forward, from `clock` on. -/
def Forward (clock : Int) (calls : List InboundCall) : Prop :=
  (∀ call ∈ calls, clock ≤ call.now) ∧ calls.Pairwise (fun call call' => call.now ≤ call'.now)

theorem Forward.tail {calls : List InboundCall} (h : Forward clock (call :: calls)) :
    clock ≤ call.now ∧ Forward call.now calls :=
  ⟨h.1 call List.mem_cons_self, (List.pairwise_cons.mp h.2).1, (List.pairwise_cons.mp h.2).2⟩

/-- The time of the last call. -/
def lastTime (clock : Int) (calls : List InboundCall) : Int :=
  calls.foldl (fun _ call => call.now) clock

/-- No call of the run is a replay in the last second of its envelope. -/
def Timely (hashBytes : String → String) (validator : InboundMessageValidator)
    (history : List Acceptance) (calls : List InboundCall) : Prop :=
  ∀ before call rest, calls = before ++ call :: rest →
    ¬ LateReplay hashBytes validator.policy (history ++ validator.accepted hashBytes before) call

theorem after_cons (validator : InboundMessageValidator) (call : InboundCall) (calls : List InboundCall) :
    validator.after hashBytes (call :: calls) = (validator.validate hashBytes call).2.after hashBytes calls :=
  rfl

theorem accepted_cons (validator : InboundMessageValidator) (call : InboundCall)
    (calls : List InboundCall) :
    validator.accepted hashBytes (call :: calls) = acceptances call (validator.validate hashBytes call) ++
      (validator.validate hashBytes call).2.accepted hashBytes calls := rfl

theorem accepted_append (validator : InboundMessageValidator) (calls later : List InboundCall) :
    validator.accepted hashBytes (calls ++ later) = validator.accepted hashBytes calls ++
      (validator.after hashBytes calls).accepted hashBytes later := by
  induction calls generalizing validator with
  | nil => rfl
  | cons call calls ih =>
    rw [List.cons_append, accepted_cons, ih, accepted_cons, List.append_assoc, after_cons]

/-- What holds of a run holds from its second call on. -/
theorem Timely.tail {calls : List InboundCall}
    (h : Timely hashBytes validator history (call :: calls))
    (hpolicy : (validator.validate hashBytes call).2.policy = validator.policy) :
    ¬ LateReplay hashBytes validator.policy history call ∧
      Timely hashBytes (validator.validate hashBytes call).2
        (history ++ acceptances call (validator.validate hashBytes call)) calls := by
  constructor
  · have hfirst := h [] call calls rfl
    rwa [show validator.accepted hashBytes [] = [] from rfl, List.append_nil] at hfirst
  · intro before other rest hsplit
    have hlater := h (call :: before) other rest (by rw [hsplit]; rfl)
    rw [accepted_cons, ← List.append_assoc] at hlater
    rwa [hpolicy]

theorem mem_acceptances {a : Acceptance} {verdict : InboundMessageResult × InboundMessageValidator}
    (h : a ∈ acceptances call verdict) : a.envelope = call.envelope := by
  unfold acceptances at h
  split at h
  · obtain rfl := List.mem_singleton.mp h
    rfl
  · exact (List.not_mem_nil h).elim

/-- The envelopes of the history are of the pool when those of the calls are. -/
theorem pooled_validate (hhistory : ∀ a ∈ history, a.envelope ∈ pool) (hcall : call.envelope ∈ pool)
    (verdict : InboundMessageResult × InboundMessageValidator) :
    ∀ a ∈ history ++ acceptances call verdict, a.envelope ∈ pool := by
  intro a ha
  rcases List.mem_append.mp ha with hold | hnew
  · exact hhistory a hold
  · rw [mem_acceptances hnew]
    exact hcall

/-- **The invariant along a run.** -/
theorem Kept.run (h : Kept hashBytes validator history clock) (calls : List InboundCall)
    (hforward : Forward clock calls) (hcollision : NoCollision hashBytes pool)
    (hhistory : ∀ a ∈ history, a.envelope ∈ pool) (hcalls : ∀ call ∈ calls, call.envelope ∈ pool)
    (htimely : Timely hashBytes validator history calls) :
    Kept hashBytes (validator.after hashBytes calls) (history ++ validator.accepted hashBytes calls)
        (lastTime clock calls) ∧
      (validator.after hashBytes calls).policy = validator.policy := by
  induction calls generalizing validator history clock with
  | nil =>
    rw [show validator.accepted hashBytes [] = [] from rfl, List.append_nil]
    exact ⟨h, rfl⟩
  | cons call calls ih =>
    obtain ⟨hle, hrest⟩ := hforward.tail
    have hcall := hcalls call List.mem_cons_self
    have hfirst := (h.validate hle hcollision hhistory hcall
      (by simpa [accepted] using htimely [] call calls rfl))
    obtain ⟨-, haccepted, hkept, hpolicy⟩ := hfirst
    rw [← haccepted] at hkept
    obtain ⟨hend, hsame⟩ := ih hkept hrest (pooled_validate hhistory hcall _)
      (fun other hin => hcalls other (List.mem_cons_of_mem _ hin)) (htimely.tail hpolicy).2
    rw [List.append_assoc, ← accepted_cons] at hend
    exact ⟨hend, hsame.trans hpolicy⟩

/-- **States with one history give the same verdicts.** -/
theorem Kept.run_alike (h : Kept hashBytes validator history clock)
    (h' : Kept hashBytes validator' history clock) (hpolicy : validator'.policy = validator.policy)
    (calls : List InboundCall) (hforward : Forward clock calls)
    (hcollision : NoCollision hashBytes pool) (hhistory : ∀ a ∈ history, a.envelope ∈ pool)
    (hcalls : ∀ call ∈ calls, call.envelope ∈ pool)
    (htimely : Timely hashBytes validator history calls) :
    validator'.verdicts hashBytes calls = validator.verdicts hashBytes calls := by
  induction calls generalizing validator validator' history clock with
  | nil => rfl
  | cons call calls ih =>
    obtain ⟨hle, hrest⟩ := hforward.tail
    have hcall := hcalls call List.mem_cons_self
    have hlate : ¬ LateReplay hashBytes validator.policy history call := by
      simpa [accepted] using htimely [] call calls rfl
    obtain ⟨hverdict, haccepted, hkept, hsame⟩ := h.validate hle hcollision hhistory hcall hlate
    obtain ⟨hverdict', haccepted', hkept', hsame'⟩ :=
      h'.validate hle hcollision hhistory hcall (by rw [hpolicy]; exact hlate)
    rw [hpolicy] at hverdict' haccepted' hkept'
    rw [← haccepted] at hkept hkept'
    have htail := ih hkept hkept' (by rw [hsame', hpolicy, hsame]) hrest
      (pooled_validate hhistory hcall _) (fun other hin => hcalls other (List.mem_cons_of_mem _ hin))
      (htimely.tail hsame).2
    simp only [verdicts]
    rw [hverdict', hverdict, htail]

--
-- The times that are computed
--

/-- The 64-bit values that `validate` computes from times once the envelope is structurally valid
and the clock positive, in its prune and behind it. -/
def timeValues (validator : InboundMessageValidator) (call : InboundCall) : List Int :=
  let createdAt := call.envelope.createdAt.toInt
  let ttlSeconds : Int := call.envelope.ttlSeconds.toNat
  let ttlWithSkew := ttlWithSkew validator.policy call.envelope
  [call.now - createdAt, ((call.now - createdAt).natAbs : Int), call.now - validator.lastPruneTime,
    maxTime - ttlSeconds, ttlWithSkew, maxTime - ttlWithSkew, expiresAt validator.policy call.envelope]
  ++ (validator.messagesByPeerInWindow.entries.filter
      (fun entry => 0 < entry.2.windowStartedAt && entry.2.windowStartedAt ≤ call.now)).map
      (fun entry => call.now - entry.2.windowStartedAt)

/-- **No time computation leaves 64 bits.** -/
theorem Kept.timeValues_inRange (h : Kept hashBytes validator history clock) (hle : clock ≤ call.now)
    (hpos : 0 < call.now) (hmax : call.now ≤ maxTime) {maxPayloadBytes : Nat}
    (hstructural : call.envelope.isStructurallyValid maxPayloadBytes = true)
    (hpolicy : validator.policy.isValid = true) :
    ∀ value ∈ validator.timeValues call, -2 ^ 63 ≤ value ∧ value ≤ 2 ^ 63 - 1 := by
  unfold NetworkEnvelope.isStructurallyValid at hstructural
  simp only [Bool.and_eq_true, decide_eq_true_eq] at hstructural
  have hcreated : 0 < call.envelope.createdAt.toInt := Int64.lt_iff_toInt_lt.mp hstructural.1.1.2
  have hbound := call.envelope.createdAt.toInt_lt
  have httl := call.envelope.ttlSeconds.toNat_lt
  have hskew : 0 ≤ validator.policy.maxClockSkewSeconds := by
    unfold InboundMessagePolicy.isValid at hpolicy
    simp only [Bool.and_eq_true, decide_eq_true_eq] at hpolicy
    exact hpolicy.1.1.2
  obtain ⟨hpruned, hprunedLe⟩ := h.pruned
  have hsum : 0 ≤ ttlWithSkew validator.policy call.envelope ∧
      ttlWithSkew validator.policy call.envelope ≤ maxTime := by
    unfold ttlWithSkew maxTime
    simp only
    split <;> omega
  have hexpires : 0 ≤ expiresAt validator.policy call.envelope ∧
      expiresAt validator.policy call.envelope ≤ maxTime := by
    unfold expiresAt
    unfold maxTime at hsum ⊢
    split <;> omega
  unfold maxTime at hmax hsum hexpires
  intro value hvalue
  unfold timeValues at hvalue
  simp only [List.mem_append, List.mem_cons, List.not_mem_nil, or_false, List.mem_map,
    List.mem_filter, Bool.and_eq_true, decide_eq_true_eq, maxTime] at hvalue
  rcases hvalue with (rfl | rfl | rfl | rfl | rfl | rfl | rfl) | ⟨entry, ⟨-, hstart, hstartLe⟩, rfl⟩
  · omega
  · omega
  · omega
  · omega
  · omega
  · omega
  · omega
  · omega

end InboundMessageValidator

--
-- Every message once
--

namespace InboundMessageValidator

variable {hashBytes : String → String} {policy : InboundMessagePolicy}

/-- A validator that has seen no message yet. -/
theorem kept_new (policy : InboundMessagePolicy) {clock : Int} (hclock : 0 ≤ clock) :
    Kept hashBytes (new policy) [] clock := by
  have hnone : ∀ {sender : String} {window : PeerWindowCounter},
      (new policy).messagesByPeerInWindow.find? sender ≠ some window :=
    fun hfind => nomatch hfind
  refine ⟨(fun hfind => nomatch hfind), fun a ha => (List.not_mem_nil ha).elim, List.nodup_nil,
    fun a ha => (List.not_mem_nil ha).elim, fun hfind => absurd hfind hnone,
    fun hfind => absurd hfind hnone, fun hfind => absurd hfind hnone,
    fun _ a ha => (List.not_mem_nil ha).elim, fun _ => FixedWindow.Spaced.nil,
    ⟨Int.le_refl _, hclock⟩⟩

theorem Forward.split {clock : Int} {before rest : List InboundCall} {call : InboundCall}
    (h : Forward clock (before ++ call :: rest)) :
    Forward clock before ∧ lastTime clock before ≤ call.now ∧ Forward call.now rest := by
  induction before generalizing clock with
  | nil => exact ⟨⟨fun _ hin => (List.not_mem_nil hin).elim, List.Pairwise.nil⟩, h.tail⟩
  | cons first before ih =>
    obtain ⟨hle, hlater⟩ := h.tail
    obtain ⟨hbefore, hlast, hrest⟩ := ih hlater
    refine ⟨⟨?_, ?_⟩, hlast, hrest⟩
    · intro other hin
      exact h.1 other (List.mem_append_left _ hin)
    · exact List.Pairwise.sublist (List.sublist_append_left _ _) h.2

/-- Counting the acceptances of one sender. -/
theorem countP_ofSender (history : List Acceptance) (sender : String) (p : Acceptance → Bool) :
    history.countP (fun a => a.envelope.senderNodeId == sender && p a) =
      (ofSender history sender).countP p := by
  rw [ofSender, List.countP_filter]
  refine List.countP_congr (fun a _ => ?_)
  rw [Bool.and_comm]

/-- **Every message is processed once**, in every run without a replay in the last second of an
envelope: no id is accepted twice, the windows of a sender hold, a refused envelope changes no
later verdict and the times stay within 64 bits. -/
theorem processed_once (hpolicy : policy.isValid = true) (calls : List InboundCall)
    (hforward : Forward 1 calls) (hcollision : NoCollision hashBytes (calls.map (·.envelope)))
    (htimely : Timely hashBytes (new policy) [] calls) :
    (((new policy).accepted hashBytes calls).map (fun a => a.envelope.messageId hashBytes)).Nodup ∧
    (∀ sender,
      (∀ windowStart, ((new policy).accepted hashBytes calls).countP
        (fun a => a.envelope.senderNodeId == sender && a.windowStart == windowStart) ≤
          policy.maxMessagesPerPeerWindow) ∧
      ∀ start : Int, ((new policy).accepted hashBytes calls).countP
        (fun a => a.envelope.senderNodeId == sender
          && (start ≤ a.time && a.time ≤ start + policy.peerWindowSeconds.toNat)) ≤
          2 * policy.maxMessagesPerPeerWindow) ∧
    ∀ before call rest, calls = before ++ call :: rest →
      ((((new policy).after hashBytes before).validate hashBytes call).1.status ≠ .accepted →
        (((new policy).after hashBytes before).validate hashBytes call).2.verdicts hashBytes rest =
          ((new policy).after hashBytes before).verdicts hashBytes rest) ∧
      (call.now ≤ maxTime → ∀ maxPayloadBytes, call.envelope.isStructurallyValid maxPayloadBytes = true →
        ∀ value ∈ ((new policy).after hashBytes before).timeValues call,
          -2 ^ 63 ≤ value ∧ value ≤ 2 ^ 63 - 1) := by
  have hpool : ∀ call ∈ calls, call.envelope ∈ calls.map (·.envelope) :=
    fun call hin => List.mem_map_of_mem hin
  have hnone : ∀ a ∈ ([] : List Acceptance), a.envelope ∈ calls.map (·.envelope) :=
    fun a ha => (List.not_mem_nil ha).elim
  have hstart : Kept hashBytes (new policy) [] 1 := kept_new policy (by decide)
  obtain ⟨hend, hsame⟩ := hstart.run calls hforward hcollision hnone hpool htimely
  rw [List.nil_append] at hend
  refine ⟨hend.once, fun sender => ⟨fun windowStart => ?_, fun start => ?_⟩,
    fun before call rest hsplit => ?_⟩
  · have hbounded := (hend.spaced sender).bounded windowStart
    rw [hsame] at hbounded
    rw [countP_ofSender _ sender (fun a => a.windowStart == windowStart)]
    exact hbounded
  · have hspan := (hend.spaced sender).count_span_le start
    rw [hsame] at hspan
    rw [countP_ofSender _ sender
      (fun a => start ≤ a.time && a.time ≤ start + policy.peerWindowSeconds.toNat)]
    refine Nat.le_trans (Nat.le_of_eq (List.countP_congr (fun a _ => ?_))) hspan
    unfold windowLength
    show (_ && _) = true ↔ (_ && _) = true
    simp only [Bool.and_eq_true, decide_eq_true_eq]
    exact and_congr_right (fun _ => by rw [← Int.add_assoc]; exact Int.lt_add_one_iff.symm)
  · subst hsplit
    obtain ⟨hbefore, hle, hrest⟩ := hforward.split
    have htimelyBefore : Timely hashBytes (new policy) [] before := by
      intro front other tail heq
      exact htimely front other (tail ++ call :: rest) (by rw [heq, List.append_assoc]; rfl)
    obtain ⟨hreached, hpolicyReached⟩ := hstart.run before hbefore hcollision hnone
      (fun other hin => hpool other (List.mem_append_left _ hin)) htimelyBefore
    rw [List.nil_append] at hreached
    have hpooled : ∀ a ∈ (new policy).accepted hashBytes before,
        a.envelope ∈ (before ++ call :: rest).map (·.envelope) := by
      intro a ha
      have hin : ∀ (validator : InboundMessageValidator) (calls : List InboundCall),
          a ∈ validator.accepted hashBytes calls → a.envelope ∈ calls.map (·.envelope) := by
        intro validator calls
        induction calls generalizing validator with
        | nil => exact fun ha => (List.not_mem_nil ha).elim
        | cons first calls ih =>
          intro ha
          rw [List.map_cons]
          rcases List.mem_append.mp ha with hfirst | hlater
          · rw [mem_acceptances hfirst]
            exact List.mem_cons_self
          · exact List.mem_cons_of_mem _ (ih _ hlater)
      rw [List.map_append]
      exact List.mem_append_left _ (hin _ _ ha)
    have hcall : call.envelope ∈ (before ++ call :: rest).map (·.envelope) :=
      hpool call (List.mem_append_right _ List.mem_cons_self)
    have hlate : ¬ LateReplay hashBytes ((new policy).after hashBytes before).policy
        ((new policy).accepted hashBytes before) call := by
      rw [hpolicyReached]
      exact htimely before call rest rfl
    constructor
    · intro hrefused
      obtain ⟨-, haccepted, hkept, hsamePolicy⟩ :=
        hreached.validate hle hcollision hpooled hcall hlate
      rw [← haccepted, acceptances_of_status hrefused, List.append_nil] at hkept
      -- Both states have the history of the run so far.
      refine (hkept.run_alike (hreached.mono hle) hsamePolicy.symm rest hrest hcollision hpooled
        (fun other hin => hpool other (List.mem_append_right _ (List.mem_cons_of_mem _ hin))) ?_).symm
      intro front other tail heq
      have hlater := htimely (before ++ call :: front) other tail
        (by rw [heq, List.append_assoc]; rfl)
      rw [accepted_append, accepted_cons, acceptances_of_status hrefused, List.nil_append,
        List.nil_append] at hlater
      rwa [hsamePolicy, hpolicyReached]
    · intro hmax maxPayloadBytes hstructural
      have hpos : 0 < call.now := by
        have hfirst := hforward.1 call (List.mem_append_right _ List.mem_cons_self)
        omega
      exact hreached.timeValues_inRange hle hpos hmax hstructural (by rw [hpolicyReached]; exact hpolicy)


--
-- The last second
--

/-- No skew is allowed. -/
def strictPolicy : InboundMessagePolicy := ⟨100, fun _ => none, 120, 0, 10, 60⟩

def sampleEnvelope : NetworkEnvelope := ⟨"n", "c", "v", .ping, "peer", 1000, 10, "hello"⟩

def sampleCall (now : Int) : InboundCall := ⟨sampleEnvelope, "n", "c", "v", now⟩

/-- One digest for the one text that is hashed to an id. -/
def sampleDigest (_ : String) : String := String.ofList (List.replicate 64 'a')

/-- The envelope comes again when its time to live has just passed. -/
theorem last_second_replay : strictPolicy.isValid = true ∧
    ((new strictPolicy).verdicts sampleDigest [sampleCall 1000, sampleCall 1010]).map (·.status)
      = [.accepted, .accepted] := by
  decide +kernel

/-- A second earlier the replay is caught. -/
theorem processed_once_sample :
    (((new strictPolicy).accepted sampleDigest [sampleCall 1000, sampleCall 1009]).map
      (fun a => a.envelope.messageId sampleDigest)).Nodup := by
  refine (processed_once (show strictPolicy.isValid = true by decide) _ (by unfold Forward; decide) ?_ ?_).1
  · intro e he e' he' _
    have hall : ∀ e ∈ [sampleCall 1000, sampleCall 1009].map (·.envelope), e = sampleEnvelope := by
      intro e he
      simpa [sampleCall] using he
    rw [hall e he, hall e' he']
  · intro before call rest hsplit hlate
    have hin : call ∈ [sampleCall 1000, sampleCall 1009] := by
      rw [hsplit]
      exact List.mem_append_right _ List.mem_cons_self
    have hover : ¬ expiresAt strictPolicy call.envelope ≤ call.now := by
      rcases List.mem_pair.mp hin with rfl | rfl
      · decide
      · decide
    exact hover hlate.2.2

end InboundMessageValidator

end Nodo.Model
