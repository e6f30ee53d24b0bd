import Nodo.Model.PeerChannel

/-!
# Nodo — runs of an encrypted channel

Two sessions with one shared secret and a network between them that may drop, hold back, repeat,
reflect and make up frames. All that is asked of it is what AES-GCM gives: a frame that
authenticates was sealed before, in this session or in another one, under the same key, nonce and
associated data.

## Results

* `openFrame_genuine` — an opened frame carries what the other end sealed under its number.
* `Sound`, `sound_of_reachable` — the invariant of a run.
* `channel_secure` — order, refusals and nonces, while no end runs out of numbers.
* `order_lost` — after 2^64 envelopes an end opens a later one before an earlier one.
-/

namespace Nodo.Model

open EncryptedPeerChannel EncryptedPeerSession NumberedChannel

--
-- The channel
--

inductive ChannelEnd
  | left
  | right
  deriving DecidableEq

def ChannelEnd.other : ChannelEnd → ChannelEnd
  | .left => .right
  | .right => .left

theorem ChannelEnd.eq_or_eq_other (e e' : ChannelEnd) : e' = e ∨ e' = e.other := by
  cases e <;> cases e' <;> simp [ChannelEnd.other]

/-- The sessions of both ends with what they did so far. -/
structure PeerChannel where
  session : ChannelEnd → EncryptedPeerSession
  /-- The calls of `sealEnvelope` that took a number. -/
  numbers : ChannelEnd → ℕ
  /-- The calls of `aesGcmSeal`. -/
  calls : ChannelEnd → List SealCall
  /-- The envelopes that `openFrame` returned, with the numbers of their frames. -/
  opened : ChannelEnd → List (UInt64 × NetworkEnvelope)
  /-- The calls of `aesGcmSeal` in other sessions. -/
  elsewhere : List SealCall

namespace PeerChannel

/-- Both ends as their constructors leave them. -/
def established (left right : EncryptedPeerSession) : PeerChannel where
  session
    | .left => left
    | .right => right
  numbers _ := 0
  calls _ := []
  opened _ := []
  elsewhere := []

/-- The calls of `aesGcmSeal` in one call of `sealEnvelope`. -/
def sealCalls (crypto : ChannelCrypto) (session : EncryptedPeerSession) (envelope : NetworkEnvelope)
    (now : Int64) : List SealCall :=
  if session.refusesSeal envelope now then []
  else
    match session.prepareSeal crypto.hashBytes envelope now session.nextOutboundSequence with
    | .error _ => []
    | .ok call => [call]

/-- One end seals an envelope. -/
def sealAt (crypto : ChannelCrypto) (channel : PeerChannel) (e : ChannelEnd)
    (envelope : NetworkEnvelope) (now : Int64) : PeerChannel :=
  let session := channel.session e
  { channel with
    session := Function.update channel.session e (session.sealEnvelope crypto envelope now).2
    numbers := Function.update channel.numbers e
      (if session.refusesSeal envelope now then channel.numbers e else channel.numbers e + 1)
    calls := Function.update channel.calls e
      (channel.calls e ++ sealCalls crypto session envelope now) }

/-- Another session seals an envelope. -/
def sealElsewhere (crypto : ChannelCrypto) (channel : PeerChannel) (session : EncryptedPeerSession)
    (envelope : NetworkEnvelope) (now : Int64) : PeerChannel :=
  { channel with elsewhere := channel.elsewhere ++ sealCalls crypto session envelope now }

/-- What `openFrame` returned of a frame. -/
def openedOf (frame : EncryptedPeerChannelFrame) (result : EncryptedPeerOpenResult) :
    List (UInt64 × NetworkEnvelope) :=
  match result.envelope with
  | none => []
  | some envelope => if result.opened then [(frame.sequence, envelope)] else []

/-- The network hands a frame to one end. -/
def deliver (crypto : ChannelCrypto) (channel : PeerChannel) (e : ChannelEnd)
    (frame : EncryptedPeerChannelFrame) : PeerChannel :=
  let (result, session) := (channel.session e).openFrame crypto frame
  { channel with
    session := Function.update channel.session e session
    opened := Function.update channel.opened e (channel.opened e ++ openedOf frame result) }

/-- All that was sealed so far. -/
def sealings (channel : PeerChannel) : List SealCall :=
  channel.calls .left ++ channel.calls .right ++ channel.elsewhere

/-- The envelopes that an end sealed, with their numbers, in the order of sealing. -/
def sealed (crypto : ChannelCrypto) (channel : PeerChannel) (e : ChannelEnd) :
    List (UInt64 × NetworkEnvelope) :=
  ((channel.calls e).filter fun call => (crypto.aesGcmSeal call).isSome).map fun call =>
    (call.frameWithoutTag.sequence, call.envelope)

end PeerChannel

/-- Two sessions of one id and one direction. -/
structure SameDirection (session other : EncryptedPeerSession) : Prop where
  sessionId : session.sessionId = other.sessionId
  localNodeId : session.localNodeId = other.localNodeId
  remoteNodeId : session.remoteNodeId = other.remoteNodeId

/-- The runs of a channel between `leftId` and `rightId`. Whatever the cipher opens was sealed. -/
inductive PeerChannel.Reachable (crypto : ChannelCrypto) (leftId rightId sharedSecret : String) :
    PeerChannel → Prop
  | established {left right : EncryptedPeerSession} {leftAt rightAt : Int64}
      (hleft : create crypto.hashBytes leftId rightId sharedSecret leftAt = .ok left)
      (hright : create crypto.hashBytes rightId leftId sharedSecret rightAt = .ok right) :
      Reachable crypto leftId rightId sharedSecret (established left right)
  | sealed {channel : PeerChannel} (h : Reachable crypto leftId rightId sharedSecret channel)
      (e : ChannelEnd) (envelope : NetworkEnvelope) (now : Int64) :
      Reachable crypto leftId rightId sharedSecret (channel.sealAt crypto e envelope now)
  | delivered {channel : PeerChannel} (h : Reachable crypto leftId rightId sharedSecret channel)
      (e : ChannelEnd) (frame : EncryptedPeerChannelFrame)
      (hunforged : ∀ call plaintext,
        (channel.session e).prepareOpen crypto.hashBytes frame = .ok call →
        crypto.aesGcmOpen call = some plaintext → Unforged crypto channel.sealings call) :
      Reachable crypto leftId rightId sharedSecret (channel.deliver crypto e frame)
  | elsewhere {channel : PeerChannel} (h : Reachable crypto leftId rightId sharedSecret channel)
      (session : EncryptedPeerSession) (envelope : NetworkEnvelope) (now : Int64)
      (hother : ∀ e, ¬SameDirection session (channel.session e)) :
      Reachable crypto leftId rightId sharedSecret
        (channel.sealElsewhere crypto session envelope now)

--
-- Sessions and their counters
--

namespace EncryptedPeerSession

/-- A session with other counters. -/
def withCounters (session : EncryptedPeerSession) (next last : UInt64) : EncryptedPeerSession :=
  { session with nextOutboundSequence := next, lastInboundSequence := last }

/-- A call that an end made for an envelope of its own. -/
structure Authored (hashBytes : String → String) (session : EncryptedPeerSession)
    (call : SealCall) : Prop where
  valid : session.isValid = true
  prepared : Prepared hashBytes session call
  sender : call.envelope.senderNodeId = session.localNodeId

variable {crypto : ChannelCrypto} {hashBytes : String → String} {session : EncryptedPeerSession}
  {envelope : NetworkEnvelope} {now : Int64} {next last : UInt64} {call : SealCall}

@[simp] theorem withCounters_nextOutboundSequence :
    (session.withCounters next last).nextOutboundSequence = next := rfl

theorem prepareSeal_withCounters (number : UInt64) :
    (session.withCounters next last).prepareSeal hashBytes envelope now number
      = session.prepareSeal hashBytes envelope now number := rfl

theorem Authored.of_counters (h : Authored hashBytes (session.withCounters next last) call) :
    Authored hashBytes session call :=
  ⟨h.valid, ⟨h.prepared.sessionId, h.prepared.fromNodeId, h.prepared.toNodeId, h.prepared.plaintext,
    h.prepared.key, h.prepared.nonceHex, h.prepared.nonce⟩, h.sender⟩

/-- The fields of its associated data end at their delimiters. -/
theorem Authored.readable (h : Authored hashBytes session call) : call.frameWithoutTag.Readable := by
  have hvalid := h.valid
  simp only [isValid, Bool.and_eq_true] at hvalid
  obtain ⟨⟨⟨⟨⟨hlocal, hremote⟩, -⟩, -⟩, hid⟩, -⟩ := hvalid
  refine ⟨?_, ?_, ?_⟩
  · rw [h.prepared.sessionId]
    exact uncut_of_isHex hid
  · rw [h.prepared.fromNodeId]
    exact uncut_of_isSafeChannelScalar hlocal
  · rw [h.prepared.toNodeId]
    exact uncut_of_isSafeChannelScalar hremote

theorem localNodeId_ne_remoteNodeId (h : session.isValid = true) :
    session.localNodeId ≠ session.remoteNodeId := by
  simp only [isValid, Bool.and_eq_true, bne_iff_ne] at h
  exact h.1.1.1.2

theorem sealEnvelope_of_refused (h : session.refusesSeal envelope now = true) :
    (session.sealEnvelope crypto envelope now).2 = session := by
  unfold sealEnvelope
  rw [if_pos h]

theorem sealEnvelope_of_taken (h : session.refusesSeal envelope now = false) :
    (session.sealEnvelope crypto envelope now).2
      = session.withCounters (session.nextOutboundSequence + 1) session.lastInboundSequence := by
  unfold sealEnvelope
  rw [if_neg (by rw [h]; decide)]
  rfl

end EncryptedPeerSession

namespace PeerChannel

variable {crypto : ChannelCrypto} {session : EncryptedPeerSession} {envelope : NetworkEnvelope}
  {now : Int64} {call : SealCall}

theorem sealCalls_of_refused (h : session.refusesSeal envelope now = true) :
    sealCalls crypto session envelope now = [] := by
  unfold sealCalls
  rw [if_pos h]

/-- A call of `sealEnvelope` calls the cipher once at most, under the number it took. -/
theorem sealCalls_cases (crypto : ChannelCrypto) (session : EncryptedPeerSession)
    (envelope : NetworkEnvelope) (now : Int64) :
    sealCalls crypto session envelope now = []
      ∨ ∃ call, sealCalls crypto session envelope now = [call]
        ∧ Authored crypto.hashBytes session call ∧ call.envelope = envelope
        ∧ call.frameWithoutTag.sequence = session.nextOutboundSequence := by
  unfold sealCalls
  split
  · exact .inl rfl
  rename_i hrefuses
  split
  · exact .inl rfl
  rename_i call hprepare
  obtain ⟨hprepared, henvelope, hsequence⟩ := prepareSeal_spec hprepare
  simp only [refusesSeal, Bool.or_eq_true, Bool.not_eq_true', bne_iff_ne, ne_eq, not_or,
    Decidable.not_not, Bool.not_eq_false] at hrefuses
  exact .inr ⟨call, rfl, ⟨hrefuses.1.1, hprepared, henvelope ▸ hrefuses.1.2⟩, henvelope, hsequence⟩

theorem authored_of_mem_sealCalls (h : call ∈ sealCalls crypto session envelope now) :
    Authored crypto.hashBytes session call := by
  rcases sealCalls_cases crypto session envelope now with hnone | ⟨only, hone, hauthored, -⟩
  · rw [hnone] at h
    cases h
  · rw [hone, List.mem_singleton] at h
    subst h
    exact hauthored

end PeerChannel

--
-- Genuine frames
--

/-- Two sessions of one id and one secret whose directions are opposite. -/
structure Facing (session other : EncryptedPeerSession) : Prop where
  sessionId : other.sessionId = session.sessionId
  sharedSecret : other.sharedSecret = session.sharedSecret
  localNodeId : other.localNodeId = session.remoteNodeId
  remoteNodeId : other.remoteNodeId = session.localNodeId

theorem deriveSessionId_comm (hashBytes : String → String) (a b secret : String) :
    deriveSessionId hashBytes a b secret = deriveSessionId hashBytes b a secret := by
  unfold deriveSessionId
  rcases lt_trichotomy a b with hlt | heq | hgt
  · rw [if_neg (not_lt_of_gt hlt), if_pos hlt]
  · rw [heq]
  · rw [if_pos hgt, if_neg (not_lt_of_gt hgt)]

theorem facing_of_create {hashBytes : String → String} {a b secret : String}
    {at₁ at₂ : Int64} {left right : EncryptedPeerSession}
    (hleft : create hashBytes a b secret at₁ = .ok left)
    (hright : create hashBytes b a secret at₂ = .ok right) : Facing left right := by
  unfold create at hleft hright
  rw [deriveSessionId_comm] at hleft
  obtain ⟨id, hid, hleft⟩ := Guards.ok_of_bind hleft
  obtain ⟨id', hid', hright⟩ := Guards.ok_of_bind hright
  rw [hid] at hid'
  cases hid'
  cases hleft
  cases hright
  exact ⟨rfl, rfl, rfl, rfl⟩

/-- The call of the cipher that a decrypted frame comes from. -/
theorem decryptFrame_eq_ok {crypto : ChannelCrypto} {session : EncryptedPeerSession}
    {frame : EncryptedPeerChannelFrame} {envelope : NetworkEnvelope}
    (h : session.decryptFrame crypto frame = .ok (some envelope)) :
    ∃ call plaintext, session.prepareOpen crypto.hashBytes frame = .ok call
      ∧ call.aad = frame.aadPayload ∧ crypto.aesGcmOpen call = some plaintext
      ∧ ProtocolMessageCodec.decodeNetworkEnvelope plaintext = .ok envelope := by
  unfold decryptFrame at h
  obtain ⟨call, hcall, h⟩ := Guards.ok_of_bind h
  have haad : call.aad = frame.aadPayload := by
    unfold prepareOpen at hcall
    obtain ⟨ciphertext, -, hcall⟩ := Guards.ok_of_bind hcall
    obtain ⟨keyMaterial, -, hcall⟩ := Guards.ok_of_bind hcall
    obtain ⟨key, -, hcall⟩ := Guards.ok_of_bind hcall
    obtain ⟨nonce, -, hcall⟩ := Guards.ok_of_bind hcall
    obtain ⟨tag, -, hcall⟩ := Guards.ok_of_bind hcall
    cases hcall
    rfl
  cases hopen : crypto.aesGcmOpen call with
  | none =>
    rw [hopen] at h
    cases h
  | some plaintext =>
    rw [hopen] at h
    dsimp only at h
    obtain ⟨decoded, hdecode, h⟩ := Guards.ok_of_bind h
    cases h
    exact ⟨call, plaintext, hcall, haad, hopen, hdecode⟩

/-- **An opened frame is genuine**: it carries what a call in its own session and direction sealed
under its number. -/
theorem openFrame_genuine {crypto : ChannelCrypto} {session : EncryptedPeerSession}
    {frame : EncryptedPeerChannelFrame} {envelope : NetworkEnvelope} {sealings : List SealCall}
    (hseals : crypto.Seals) (hopens : Opens crypto session frame envelope)
    (hunforged : ∀ call plaintext, session.prepareOpen crypto.hashBytes frame = .ok call →
      crypto.aesGcmOpen call = some plaintext → Unforged crypto sealings call)
    (hauthored : ∀ call ∈ sealings, ∃ author, Authored crypto.hashBytes author call) :
    ∃ sealing ∈ sealings, sealing.frameWithoutTag.sessionId = session.sessionId
      ∧ sealing.frameWithoutTag.fromNodeId = session.remoteNodeId
      ∧ sealing.frameWithoutTag.toNodeId = session.localNodeId
      ∧ sealing.frameWithoutTag.sequence = frame.sequence
      ∧ (crypto.aesGcmSeal sealing).isSome = true ∧ envelope = sealing.envelope := by
  obtain ⟨call, plaintext, hcall, haad, hopen, hdecode⟩ := decryptFrame_eq_ok hopens.decrypted
  obtain ⟨sealing, hmem, hsame, hsealed, tail, htail⟩ :=
    (hunforged call plaintext hcall hopen).plaintext hseals hopen
  obtain ⟨author, hauthor⟩ := hauthored sealing hmem
  obtain ⟨hid, hfrom, hto, hsequence⟩ := EncryptedPeerChannelFrame.aadPayload_inj hauthor.readable
    (EncryptedPeerChannelFrame.Readable.of_isValid hopens.validFrame) (hsame.trans haad)
  exact ⟨sealing, hmem, hid.trans hopens.sessionId, hfrom.trans hopens.fromNodeId,
    hto.trans hopens.toNodeId, hsequence, hsealed,
    ProtocolMessageCodec.decode_encode hauthor.prepared.plaintext htail hdecode⟩

--
-- Honest frames
--

theorem decodeHex_hexEncode {bytes : String} (hhex : isHex (hexEncode bytes) = true)
    (hbytes : ∀ c ∈ bytes.toList, c.toNat < 256) : decodeHex (hexEncode bytes) = .ok bytes := by
  unfold decodeHex
  rw [if_neg (by rw [hhex]; decide), SignedTransaction.toList_hexEncode, SignedTransaction.hexDecode_flatMap hbytes,
    String.ofList_toList]

theorem length_hexEncode (bytes : String) : (hexEncode bytes).length = 2 * bytes.length := by
  rw [← String.length_toList, SignedTransaction.toList_hexEncode, ← String.length_toList]
  induction bytes.toList with
  | nil => rfl
  | cons c rest ih =>
    rw [List.flatMap_cons, List.length_append, ih, List.length_cons, List.length_cons]
    simp only [List.length_cons, List.length_nil]
    omega

/-- What a receiver gives the cipher for a frame as its author sealed it. -/
theorem prepareOpen_sealedFrame {crypto : ChannelCrypto}
    {author receiver : EncryptedPeerSession} {call : SealCall} {ciphertext tag : String}
    (hseals : crypto.Seals) (hid : author.sessionId = receiver.sessionId)
    (hsecret : author.sharedSecret = receiver.sharedSecret)
    (hprepared : Prepared crypto.hashBytes author call)
    (hseal : crypto.aesGcmSeal call = some (ciphertext, tag))
    (hframe : (sealedFrame crypto call).isValid = true) :
    receiver.prepareOpen crypto.hashBytes (sealedFrame crypto call) = .ok
        { ciphertext, key := call.key, nonce := call.nonce, tag
          aad := call.frameWithoutTag.aadPayload }
      ∧ tag.length = 16 := by
  obtain ⟨-, -, input, -, hencrypt⟩ := ChannelCrypto.aesGcmSeal_eq_some hseal
  obtain ⟨hciphertext, htag⟩ := hseals.bytes hencrypt
  have hsame : sealedFrame crypto call = { call.frameWithoutTag with
      ciphertextHex := hexEncode ciphertext, authenticationTagHex := hexEncode tag } := by
    unfold sealedFrame
    rw [hseal]
  rw [hsame] at hframe ⊢
  simp only [EncryptedPeerChannelFrame.isValid, Bool.and_eq_true, beq_iff_eq] at hframe
  obtain ⟨⟨⟨-, hciphertextHex⟩, htagHex⟩, htagSize⟩ := hframe
  rw [length_hexEncode] at htagSize
  obtain ⟨keyMaterial, hmaterial, hkey⟩ := Guards.ok_of_bind hprepared.key
  have hmaterial : receiver.deriveKeyMaterial crypto.hashBytes = .ok keyMaterial := by
    rw [← hmaterial]
    unfold deriveKeyMaterial
    rw [hid, hsecret]
  refine ⟨?_, by omega⟩
  unfold prepareOpen
  dsimp only
  rw [decodeHex_hexEncode hciphertextHex hciphertext, Guards.ok_bind, hmaterial, Guards.ok_bind,
    hkey, Guards.ok_bind, hprepared.nonce, Guards.ok_bind, decodeHex_hexEncode htagHex htag]
  rfl

/-- A frame as its author sealed it opens at the session that faces the author, when its number is
new there and its envelope fits the reader. -/
theorem opens_sealedFrame {crypto : ChannelCrypto} {author receiver session : EncryptedPeerSession}
    {next last : UInt64} {call : SealCall} (hseals : crypto.Seals) (hfacing : Facing receiver author)
    (hsession : session = receiver.withCounters next last)
    (hauthored : Authored crypto.hashBytes author call)
    (hsealed : (crypto.aesGcmSeal call).isSome = true) (hreceiver : session.isValid = true)
    (hframe : (sealedFrame crypto call).isValid = true)
    (hfits : ProtocolMessageCodec.Fits call.envelope)
    (hnew : session.lastInboundSequence < call.frameWithoutTag.sequence) :
    Opens crypto session (sealedFrame crypto call) call.envelope := by
  subst hsession
  obtain ⟨⟨ciphertext, tag⟩, hseal⟩ := Option.isSome_iff_exists.mp hsealed
  obtain ⟨hkeySize, hnonceSize, input, hinput, hencrypt⟩ := ChannelCrypto.aesGcmSeal_eq_some hseal
  have hsmall := ProtocolMessageCodec.length_lt_of_fits hauthored.prepared.plaintext hfits
  rw [cipherInput_of_lt hsmall] at hinput
  obtain rfl := Option.some.inj hinput
  have hsize : ciphertext.length < 2 ^ 31 := by
    rw [hseals.length hencrypt]
    exact hsmall
  obtain ⟨hprepare, htagSize⟩ := @prepareOpen_sealedFrame crypto author
    (receiver.withCounters next last) call ciphertext tag hseals hfacing.sessionId
    hfacing.sharedSecret hauthored.prepared hseal hframe
  have hopen : crypto.aesGcmOpen
      { ciphertext, key := call.key, nonce := call.nonce, tag
        aad := call.frameWithoutTag.aadPayload } = some call.plaintext := by
    unfold ChannelCrypto.aesGcmOpen
    dsimp only
    rw [if_neg (by simp [hkeySize, hnonceSize, htagSize]), cipherInput_of_lt hsize]
    exact hseals.opens hencrypt
  have hsame : sealedFrame crypto call = { call.frameWithoutTag with
      ciphertextHex := hexEncode ciphertext, authenticationTagHex := hexEncode tag } := by
    unfold sealedFrame
    rw [hseal]
  refine ⟨hreceiver, hframe, ?_, ?_, ?_, ?_, ?_, ?_⟩
  · rw [hsame]
    exact hauthored.prepared.sessionId.trans hfacing.sessionId
  · rw [hsame]
    exact hauthored.prepared.fromNodeId.trans hfacing.localNodeId
  · rw [hsame]
    exact hauthored.prepared.toNodeId.trans hfacing.remoteNodeId
  · rw [hsame]
    exact hnew
  · unfold decryptFrame
    rw [hprepare, Guards.ok_bind, hopen]
    dsimp only
    rw [ProtocolMessageCodec.decode_encode_of_fits hauthored.prepared.plaintext hfits]
    rfl
  · exact hauthored.sender.trans hfacing.localNodeId

/-- Handing over a frame as its author sealed it makes nothing up. -/
theorem unforged_sealedFrame {crypto : ChannelCrypto} {author receiver : EncryptedPeerSession}
    {call : SealCall} {sealings : List SealCall} (hseals : crypto.Seals)
    (hid : author.sessionId = receiver.sessionId)
    (hsecret : author.sharedSecret = receiver.sharedSecret)
    (hauthored : Authored crypto.hashBytes author call) (hcall : call ∈ sealings)
    (hsealed : (crypto.aesGcmSeal call).isSome = true)
    (hframe : (sealedFrame crypto call).isValid = true)
    (hfits : ProtocolMessageCodec.Fits call.envelope) :
    ∀ openCall plaintext,
      receiver.prepareOpen crypto.hashBytes (sealedFrame crypto call) = .ok openCall →
      crypto.aesGcmOpen openCall = some plaintext → Unforged crypto sealings openCall := by
  intro openCall plaintext hprepare _
  obtain ⟨⟨ciphertext, tag⟩, hseal⟩ := Option.isSome_iff_exists.mp hsealed
  obtain ⟨-, -, input, hinput, hencrypt⟩ := ChannelCrypto.aesGcmSeal_eq_some hseal
  have hsmall := ProtocolMessageCodec.length_lt_of_fits hauthored.prepared.plaintext hfits
  rw [cipherInput_of_lt hsmall] at hinput
  obtain rfl := Option.some.inj hinput
  have hsize : ciphertext.length < 2 ^ 31 := by
    rw [hseals.length hencrypt]
    exact hsmall
  rw [(prepareOpen_sealedFrame hseals hid hsecret hauthored.prepared hseal hframe).1] at hprepare
  cases hprepare
  exact ⟨call, hcall, rfl, rfl, rfl, ciphertext, cipherInput_of_lt hsize, hseal⟩

--
-- The invariant of a run
--

def SealCall.number (call : SealCall) : ℕ := call.frameWithoutTag.sequence.toNat

namespace PeerChannel

/-- What holds of every channel that a run reaches from the sessions `first`. -/
structure Sound (crypto : ChannelCrypto) (first : ChannelEnd → EncryptedPeerSession)
    (channel : PeerChannel) : Prop where
  session : ∀ e, channel.session e = (first e).withCounters
    (UInt64.ofNat (channel.numbers e + 1)) (channel.session e).lastInboundSequence
  authored : ∀ e, ∀ call ∈ channel.calls e, Authored crypto.hashBytes (first e) call
  elsewhere : ∀ call ∈ channel.elsewhere,
    ∃ author, Authored crypto.hashBytes author call ∧ ∀ e, ¬SameDirection author (first e)
  numbered : ∀ e, channel.numbers e < 2 ^ 64 →
    Sent SealCall.number (channel.numbers e + 1) (channel.calls e)
  taken : ∀ e, Taken (fun entry => entry.1.toNat) (channel.session e).lastInboundSequence.toNat
    (channel.opened e)
  genuine : ∀ e, channel.opened e ⊆ channel.sealed crypto e.other

variable {crypto : ChannelCrypto} {first : ChannelEnd → EncryptedPeerSession}
  {channel : PeerChannel} {e : ChannelEnd} {envelope : NetworkEnvelope} {now : Int64}
  {frame : EncryptedPeerChannelFrame}

theorem sealAt_of_refused (h : (channel.session e).refusesSeal envelope now = true) :
    channel.sealAt crypto e envelope now = channel := by
  unfold sealAt
  dsimp only
  rw [sealEnvelope_of_refused h, if_pos h, sealCalls_of_refused h, List.append_nil,
    Function.update_eq_self, Function.update_eq_self, Function.update_eq_self]

theorem sealAt_of_taken (h : (channel.session e).refusesSeal envelope now = false) :
    channel.sealAt crypto e envelope now = { channel with
      session := Function.update channel.session e ((channel.session e).withCounters
        ((channel.session e).nextOutboundSequence + 1) (channel.session e).lastInboundSequence)
      numbers := Function.update channel.numbers e (channel.numbers e + 1)
      calls := Function.update channel.calls e
        (channel.calls e ++ sealCalls crypto (channel.session e) envelope now) } := by
  unfold sealAt
  dsimp only
  rw [sealEnvelope_of_taken h, if_neg (by rw [h]; decide)]

/-- A refused frame changes nothing. -/
theorem deliver_of_refused
    (h : ((channel.session e).openFrame crypto frame).1.opened = false) :
    channel.deliver crypto e frame = channel := by
  have hopened : openedOf frame ((channel.session e).openFrame crypto frame).1 = [] := by
    unfold openedOf
    split
    · rfl
    · rw [if_neg (by rw [h]; decide)]
  unfold deliver
  dsimp only
  rw [openFrame_refused h, hopened, List.append_nil, Function.update_eq_self,
    Function.update_eq_self]

/-- An opened frame is logged, and its number becomes the last one. -/
theorem deliver_of_opens (h : Opens crypto (channel.session e) frame envelope) :
    channel.deliver crypto e frame = { channel with
      session := Function.update channel.session e
        { channel.session e with lastInboundSequence := frame.sequence }
      opened := Function.update channel.opened e
        (channel.opened e ++ [(frame.sequence, envelope)]) } := by
  unfold deliver
  rw [openFrame_of_opens h]
  rfl

/-- More calls seal more. -/
theorem sealed_mono {channel' : PeerChannel} (e : ChannelEnd)
    (h : ∃ more, channel'.calls e = channel.calls e ++ more) :
    channel.sealed crypto e ⊆ channel'.sealed crypto e := by
  obtain ⟨more, hmore⟩ := h
  unfold sealed
  rw [hmore, List.filter_append, List.map_append]
  exact List.subset_append_left _ _

namespace Sound

theorem start {left right : EncryptedPeerSession} (first : ChannelEnd → EncryptedPeerSession)
    (hfirst : first = (established left right).session)
    (hcounters : ∀ e, (first e).nextOutboundSequence = 1) :
    Sound crypto first (established left right) := by
  subst hfirst
  refine ⟨?_, ?_, ?_, ?_, ?_, ?_⟩
  · intro e
    unfold withCounters
    have hnext : UInt64.ofNat ((established left right).numbers e + 1) = 1 := rfl
    rw [hnext, ← hcounters e]
  · exact fun _ call hcall => absurd hcall List.not_mem_nil
  · exact fun call hcall => absurd hcall List.not_mem_nil
  · exact fun _ _ => Sent.nil
  · exact fun _ => Taken.nil
  · exact fun _ entry hentry => absurd hentry List.not_mem_nil

/-- The next number of an end that has not run out of numbers. -/
theorem next_toNat (h : Sound crypto first channel) (hnumbers : channel.numbers e + 1 < 2 ^ 64) :
    (channel.session e).nextOutboundSequence.toNat = channel.numbers e + 1 := by
  rw [h.session e]
  show (UInt64.ofNat (channel.numbers e + 1)).toNat = channel.numbers e + 1
  rw [UInt64.toNat_ofNat', Nat.mod_eq_of_lt hnumbers]

theorem sealAt (h : Sound crypto first channel) (e : ChannelEnd) (envelope : NetworkEnvelope)
    (now : Int64) : Sound crypto first (channel.sealAt crypto e envelope now) := by
  cases hrefuses : (channel.session e).refusesSeal envelope now with
  | true =>
    rw [sealAt_of_refused hrefuses]
    exact h
  | false =>
    have hnumbers : (channel.sealAt crypto e envelope now).numbers
        = Function.update channel.numbers e (channel.numbers e + 1) := by
      rw [sealAt_of_taken hrefuses]
    have hsession : (channel.sealAt crypto e envelope now).session
        = Function.update channel.session e ((channel.session e).withCounters
          ((channel.session e).nextOutboundSequence + 1)
          (channel.session e).lastInboundSequence) := by
      rw [sealAt_of_taken hrefuses]
    have hcalls : (channel.sealAt crypto e envelope now).calls = Function.update channel.calls e
        (channel.calls e ++ sealCalls crypto (channel.session e) envelope now) := rfl
    have hlast : ∀ e', ((channel.sealAt crypto e envelope now).session e').lastInboundSequence
        = (channel.session e').lastInboundSequence := by
      intro e'
      rw [hsession]
      by_cases he : e' = e
      · subst he
        rw [Function.update_self]
        rfl
      · rw [Function.update_of_ne he]
    have hauthored : ∀ call ∈ sealCalls crypto (channel.session e) envelope now,
        Authored crypto.hashBytes (first e) call := by
      intro call hcall
      have hown := authored_of_mem_sealCalls hcall
      rw [h.session e] at hown
      exact hown.of_counters
    refine ⟨?_, ?_, h.elsewhere, ?_, ?_, ?_⟩
    · intro e'
      rw [hlast, hsession, hnumbers]
      by_cases he : e' = e
      · subst he
        have hnext : (channel.session e').nextOutboundSequence
            = UInt64.ofNat (channel.numbers e' + 1) := by rw [h.session e']; rfl
        rw [Function.update_self, Function.update_self, hnext, h.session e']
        unfold withCounters
        dsimp only
        rw [UInt64.ofNat_add (channel.numbers e' + 1) 1]
        rfl
      · rw [Function.update_of_ne he, Function.update_of_ne he]
        exact h.session e'
    · intro e' call hcall
      rw [hcalls] at hcall
      by_cases he : e' = e
      · subst he
        rw [Function.update_self] at hcall
        rcases List.mem_append.mp hcall with hold | hnew
        · exact h.authored e' call hold
        · exact hauthored call hnew
      · rw [Function.update_of_ne he] at hcall
        exact h.authored e' call hcall
    · intro e'
      rw [hcalls, hnumbers]
      by_cases he : e' = e
      · subst he
        rw [Function.update_self, Function.update_self]
        intro hbound
        have hlog := h.numbered e' (by omega)
        rcases sealCalls_cases crypto (channel.session e') envelope now
          with hnone | ⟨call, hone, -, -, hsequence⟩
        · rw [hnone, List.append_nil]
          exact hlog.skip
        · rw [hone]
          refine hlog.send ?_
          rw [SealCall.number, hsequence, h.next_toNat hbound]
      · rw [Function.update_of_ne he, Function.update_of_ne he]
        exact h.numbered e'
    · intro e'
      rw [hlast]
      exact h.taken e'
    · intro e'
      refine List.Subset.trans (h.genuine e') (sealed_mono e'.other ?_)
      rw [hcalls]
      by_cases he : e'.other = e
      · rw [← he, Function.update_self]
        exact ⟨_, rfl⟩
      · rw [Function.update_of_ne he]
        exact ⟨[], (List.append_nil _).symm⟩

end Sound

end PeerChannel

namespace PeerChannel

variable {crypto : ChannelCrypto} {first : ChannelEnd → EncryptedPeerSession}
  {channel : PeerChannel} {e : ChannelEnd} {envelope : NetworkEnvelope} {now : Int64}
  {frame : EncryptedPeerChannelFrame} {call : SealCall}

namespace Sound

/-- The sealings of a run, told apart by who made them. -/
theorem mem_sealings (h : Sound crypto first channel) (hcall : call ∈ channel.sealings) :
    (∃ e, call ∈ channel.calls e ∧ Authored crypto.hashBytes (first e) call)
      ∨ ∃ author, Authored crypto.hashBytes author call ∧ ∀ e, ¬SameDirection author (first e) := by
  unfold sealings at hcall
  rcases List.mem_append.mp hcall with hown | helsewhere
  · rcases List.mem_append.mp hown with hleft | hright
    · exact .inl ⟨.left, hleft, h.authored .left call hleft⟩
    · exact .inl ⟨.right, hright, h.authored .right call hright⟩
  · exact .inr (h.elsewhere call helsewhere)

/-- **An opened frame carries what the other end sealed under its number.** -/
theorem opens_genuine (hseals : crypto.Seals) (hfacing : ∀ e, Facing (first e) (first e.other))
    (h : Sound crypto first channel) (hopens : Opens crypto (channel.session e) frame envelope)
    (hunforged : ∀ call plaintext,
      (channel.session e).prepareOpen crypto.hashBytes frame = .ok call →
      crypto.aesGcmOpen call = some plaintext → Unforged crypto channel.sealings call) :
    (frame.sequence, envelope) ∈ channel.sealed crypto e.other := by
  obtain ⟨sealing, hmem, hid, hfrom, hto, hsequence, hsealed, rfl⟩ :=
    openFrame_genuine hseals hopens hunforged fun call hcall => by
      rcases h.mem_sealings hcall with ⟨e', -, hauthored⟩ | ⟨author, hauthored, -⟩
      · exact ⟨_, hauthored⟩
      · exact ⟨_, hauthored⟩
  rw [h.session e] at hid hfrom hto
  rcases h.mem_sealings hmem with ⟨e', hcall, hauthored⟩ | ⟨author, hauthored, hapart⟩
  · rcases ChannelEnd.eq_or_eq_other e e' with rfl | rfl
    · -- its own frame, reflected: the direction is wrong
      have hlocal := hauthored.prepared.fromNodeId.symm.trans hfrom
      exact absurd hlocal (localNodeId_ne_remoteNodeId hauthored.valid)
    · unfold sealed
      rw [← hsequence]
      exact List.mem_map.mpr ⟨sealing, List.mem_filter.mpr ⟨hcall, hsealed⟩, rfl⟩
  · -- a frame of another session: its id or its direction is wrong
    have hface := hfacing e
    refine absurd ?_ (hapart e.other)
    exact ⟨hauthored.prepared.sessionId.symm.trans (hid.trans hface.sessionId.symm),
      hauthored.prepared.fromNodeId.symm.trans (hfrom.trans hface.localNodeId.symm),
      hauthored.prepared.toNodeId.symm.trans (hto.trans hface.remoteNodeId.symm)⟩

theorem deliver (hseals : crypto.Seals) (hfacing : ∀ e, Facing (first e) (first e.other))
    (h : Sound crypto first channel) (e : ChannelEnd) (frame : EncryptedPeerChannelFrame)
    (hunforged : ∀ call plaintext,
      (channel.session e).prepareOpen crypto.hashBytes frame = .ok call →
      crypto.aesGcmOpen call = some plaintext → Unforged crypto channel.sealings call) :
    Sound crypto first (channel.deliver crypto e frame) := by
  rcases openFrame_cases crypto (channel.session e) frame with ⟨envelope, hopens, -⟩ | ⟨hrefused, -⟩
  · rw [deliver_of_opens hopens]
    refine ⟨?_, h.authored, h.elsewhere, h.numbered, ?_, ?_⟩
    · intro e'
      by_cases he : e' = e
      · subst he
        dsimp only
        rw [Function.update_self, h.session e']
        rfl
      · dsimp only
        rw [Function.update_of_ne he]
        exact h.session e'
    · intro e'
      by_cases he : e' = e
      · subst he
        dsimp only
        rw [Function.update_self, Function.update_self]
        have habove : (channel.session e').lastInboundSequence.toNat
            < (fun entry : UInt64 × NetworkEnvelope => entry.1.toNat) (frame.sequence, envelope) :=
          UInt64.lt_iff_toNat_lt.mp hopens.sequence
        exact (h.taken e').take habove
      · dsimp only
        rw [Function.update_of_ne he, Function.update_of_ne he]
        exact h.taken e'
    · intro e'
      by_cases he : e' = e
      · subst he
        dsimp only
        rw [Function.update_self]
        intro entry hentry
        rcases List.mem_append.mp hentry with hold | hnew
        · exact h.genuine e' hold
        · rw [List.mem_singleton] at hnew
          subst hnew
          show (frame.sequence, envelope) ∈ channel.sealed crypto e'.other
          exact opens_genuine hseals hfacing h hopens hunforged
      · dsimp only
        rw [Function.update_of_ne he]
        exact h.genuine e'
  · rw [deliver_of_refused hrefused]
    exact h

theorem sealElsewhere (h : Sound crypto first channel) (session : EncryptedPeerSession)
    (envelope : NetworkEnvelope) (now : Int64)
    (hother : ∀ e, ¬SameDirection session (channel.session e)) :
    Sound crypto first (channel.sealElsewhere crypto session envelope now) := by
  refine ⟨h.session, h.authored, ?_, h.numbered, h.taken, h.genuine⟩
  intro call hcall
  rcases List.mem_append.mp hcall with hold | hnew
  · exact h.elsewhere call hold
  · refine ⟨session, authored_of_mem_sealCalls hnew, fun e hsame => hother e ?_⟩
    rw [h.session e]
    exact ⟨hsame.sessionId, hsame.localNodeId, hsame.remoteNodeId⟩

end Sound

theorem next_of_create {hashBytes : String → String} {a b secret : String} {at₁ : Int64}
    {session : EncryptedPeerSession} (h : create hashBytes a b secret at₁ = .ok session) :
    session.nextOutboundSequence = 1 := by
  unfold create at h
  obtain ⟨id, -, h⟩ := Guards.ok_of_bind h
  cases h
  rfl

/-- **The invariant holds in every run.** -/
theorem sound_of_reachable {leftId rightId sharedSecret : String} (hseals : crypto.Seals)
    (h : Reachable crypto leftId rightId sharedSecret channel) :
    ∃ first, (∀ e, Facing (first e) (first e.other)) ∧ Sound crypto first channel := by
  induction h with
  | established hleft hright =>
    refine ⟨(established _ _).session, ?_, Sound.start _ rfl ?_⟩
    · intro e
      cases e
      · exact facing_of_create hleft hright
      · exact facing_of_create hright hleft
    · intro e
      cases e
      · exact next_of_create hleft
      · exact next_of_create hright
  | sealed _ e envelope now ih =>
    obtain ⟨first, hfacing, hsound⟩ := ih
    exact ⟨first, hfacing, hsound.sealAt e envelope now⟩
  | delivered _ e frame hunforged ih =>
    obtain ⟨first, hfacing, hsound⟩ := ih
    exact ⟨first, hfacing, hsound.deliver hseals hfacing e frame hunforged⟩
  | elsewhere _ session envelope now hother ih =>
    obtain ⟨first, hfacing, hsound⟩ := ih
    exact ⟨first, hfacing, hsound.sealElsewhere session envelope now hother⟩

end PeerChannel

--
-- What the channel gives
--

namespace PeerChannel

/-- The truncated hashes that serve as nonces differ between the ends and between numbers. -/
def NoncesDistinct (hashBytes : String → String) (channel : PeerChannel) : Prop :=
  ∀ e e' number number' text text' nonce,
    (channel.session e).nonceHex hashBytes number = .ok text →
    (channel.session e').nonceHex hashBytes number' = .ok text' →
    decodeHex text = .ok nonce → decodeHex text' = .ok nonce →
    (channel.session e).localNodeId = (channel.session e').localNodeId ∧ number = number'

/-- The security of a channel, in a state of it. -/
structure Secure (crypto : ChannelCrypto) (channel : PeerChannel) : Prop where
  /-- What an end opened is a subsequence of what the other end sealed. -/
  inOrder : ∀ e, (channel.opened e).Sublist (channel.sealed crypto e.other)
  /-- No end opens an envelope of its own. -/
  notOwn : ∀ e, ∀ entry ∈ channel.opened e,
    entry.2.senderNodeId ≠ (channel.session e).localNodeId
  /-- A refused frame changes nothing. -/
  refused : ∀ e frame, ((channel.session e).openFrame crypto frame).1.opened = false →
    channel.deliver crypto e frame = channel
  /-- A frame as the other end sealed it opens, under a number above the last one. -/
  honest : ∀ e, ∀ call ∈ channel.calls e.other, (crypto.aesGcmSeal call).isSome = true →
    (channel.session e).isValid = true → (sealedFrame crypto call).isValid = true →
    ProtocolMessageCodec.Fits call.envelope →
    (channel.session e).lastInboundSequence < call.frameWithoutTag.sequence →
    (channel.deliver crypto e (sealedFrame crypto call)).opened e
      = channel.opened e ++ [(call.frameWithoutTag.sequence, call.envelope)]
  /-- No key is used twice with one nonce. -/
  fresh : ((channel.calls .left ++ channel.calls .right).map fun call =>
    (call.key, call.nonce)).Nodup

variable {crypto : ChannelCrypto} {first : ChannelEnd → EncryptedPeerSession}
  {channel : PeerChannel}

namespace Sound

theorem inOrder (h : Sound crypto first channel) (e : ChannelEnd)
    (hnumbers : channel.numbers e.other < 2 ^ 64) :
    (channel.opened e).Sublist (channel.sealed crypto e.other) := by
  have hlog := (h.numbered e.other hnumbers).filter fun call => (crypto.aesGcmSeal call).isSome
  have hsent : Sent (fun entry : UInt64 × NetworkEnvelope => entry.1.toNat)
      (channel.numbers e.other + 1) (channel.sealed crypto e.other) := hlog.map fun _ => rfl
  exact taken_sublist hsent (h.taken e) (h.genuine e)

theorem notOwn (hfacing : ∀ e, Facing (first e) (first e.other)) (h : Sound crypto first channel)
    (e : ChannelEnd) (entry : UInt64 × NetworkEnvelope) (hentry : entry ∈ channel.opened e) :
    entry.2.senderNodeId ≠ (channel.session e).localNodeId := by
  obtain ⟨call, hcall, rfl⟩ := List.mem_map.mp (h.genuine e hentry)
  have hauthored := h.authored e.other call (List.mem_filter.mp hcall).1
  have hdistinct := localNodeId_ne_remoteNodeId hauthored.valid
  rw [h.session e]
  show call.envelope.senderNodeId ≠ (first e).localNodeId
  rw [hauthored.sender, ← (hfacing e).remoteNodeId]
  exact hdistinct

theorem honest (hseals : crypto.Seals) (hfacing : ∀ e, Facing (first e) (first e.other))
    (h : Sound crypto first channel) (e : ChannelEnd) (call : SealCall)
    (hcall : call ∈ channel.calls e.other) (hsealed : (crypto.aesGcmSeal call).isSome = true)
    (hsession : (channel.session e).isValid = true)
    (hframe : (sealedFrame crypto call).isValid = true)
    (hfits : ProtocolMessageCodec.Fits call.envelope)
    (hnew : (channel.session e).lastInboundSequence < call.frameWithoutTag.sequence) :
    (channel.deliver crypto e (sealedFrame crypto call)).opened e
      = channel.opened e ++ [(call.frameWithoutTag.sequence, call.envelope)] := by
  have hopens := opens_sealedFrame hseals (hfacing e) (h.session e) (h.authored e.other call hcall)
    hsealed hsession hframe hfits hnew
  have hsequence : (sealedFrame crypto call).sequence = call.frameWithoutTag.sequence := by
    obtain ⟨sealed, hseal⟩ := Option.isSome_iff_exists.mp hsealed
    unfold sealedFrame
    rw [hseal]
  rw [deliver_of_opens hopens, hsequence]
  exact Function.update_self ..

/-- The nonce of a call is the one that its author's session gives its number. -/
theorem nonce_of_authored (h : Sound crypto first channel) {e : ChannelEnd} {call : SealCall}
    (hcall : call ∈ channel.calls e) :
    ∃ text, (channel.session e).nonceHex crypto.hashBytes call.frameWithoutTag.sequence = .ok text
      ∧ decodeHex text = .ok call.nonce := by
  have hprepared := (h.authored e call hcall).prepared
  refine ⟨call.frameWithoutTag.nonceHex, ?_, hprepared.nonce⟩
  rw [h.session e]
  exact hprepared.nonceHex

theorem fresh (hfacing : ∀ e, Facing (first e) (first e.other)) (h : Sound crypto first channel)
    (hnonces : channel.NoncesDistinct crypto.hashBytes)
    (hnumbers : ∀ e, channel.numbers e < 2 ^ 64) :
    ((channel.calls .left ++ channel.calls .right).map fun call =>
      (call.key, call.nonce)).Nodup := by
  have hsame : ∀ e e', ∀ a ∈ channel.calls e, ∀ b ∈ channel.calls e',
      (a.key, a.nonce) = (b.key, b.nonce) →
      (channel.session e).localNodeId = (channel.session e').localNodeId
        ∧ a.frameWithoutTag.sequence = b.frameWithoutTag.sequence := by
    intro e e' a ha b hb hlabel
    obtain ⟨text, htext, hnonce⟩ := h.nonce_of_authored ha
    obtain ⟨text', htext', hnonce'⟩ := h.nonce_of_authored hb
    rw [← (Prod.mk.inj hlabel).2] at hnonce'
    exact hnonces e e' _ _ text text' a.nonce htext htext' hnonce hnonce'
  refine nodup_labels (h.numbered .left (hnumbers .left)) (h.numbered .right (hnumbers .right)) _
    ?_ ?_ ?_
  · exact fun a ha b hb hlabel => congrArg UInt64.toNat (hsame .left .left a ha b hb hlabel).2
  · exact fun a ha b hb hlabel => congrArg UInt64.toNat (hsame .right .right a ha b hb hlabel).2
  · intro a ha b hb hlabel
    have hlocal := (hsame .left .right a ha b hb hlabel).1
    rw [h.session .left, h.session .right] at hlocal
    have hface : (first .right).localNodeId = (first .left).remoteNodeId :=
      (hfacing .left).localNodeId
    exact localNodeId_ne_remoteNodeId (h.authored .left a ha).valid (hlocal.trans hface)

end Sound

variable {leftId rightId sharedSecret : String}

/-- **The channel is secure** as long as each end seals fewer than 2^64 - 1 times: each end opens a
subsequence of what the other one sealed, in the order of sealing and each envelope as it was
sealed, refused frames leave no trace, and no key meets a nonce twice. -/
theorem channel_secure (hseals : crypto.Seals)
    (h : Reachable crypto leftId rightId sharedSecret channel)
    (hnonces : channel.NoncesDistinct crypto.hashBytes)
    (hnumbers : ∀ e, channel.numbers e < 2 ^ 64 - 1) : Secure crypto channel := by
  obtain ⟨first, hfacing, hsound⟩ := sound_of_reachable hseals h
  have hbound : ∀ e, channel.numbers e < 2 ^ 64 :=
    fun e => Nat.lt_of_lt_of_le (hnumbers e) (Nat.sub_le _ _)
  exact
    { inOrder := fun e => hsound.inOrder e (hbound e.other)
      notOwn := hsound.notOwn hfacing
      refused := fun _ _ hrefused => deliver_of_refused hrefused
      honest := hsound.honest hseals hfacing
      fresh := hsound.fresh hfacing hnonces hbound }

end PeerChannel

--
-- Running out of numbers
--

/-- The lowest byte first. -/
def littleEndian : ℕ → ℕ → List Char
  | 0, _ => []
  | size + 1, value => Char.ofNat (value % 256) :: littleEndian size (value / 256)

theorem littleEndian_inj {size : ℕ} : ∀ {a b : ℕ}, a < 256 ^ size → b < 256 ^ size →
    littleEndian size a = littleEndian size b → a = b := by
  induction size with
  | zero =>
    intro a b ha hb _
    omega
  | succ size ih =>
    intro a b ha hb h
    rw [littleEndian, littleEndian, List.cons.injEq] at h
    have hlow := CanonicalWriter.byte_inj (Nat.mod_lt a (by decide)) (Nat.mod_lt b (by decide)) h.1
    have hhigh := ih (Nat.div_lt_of_lt_mul (by rw [pow_succ, mul_comm] at ha; exact ha))
      (Nat.div_lt_of_lt_mul (by rw [pow_succ, mul_comm] at hb; exact hb)) h.2
    omega

theorem littleEndian_add (size more value : ℕ) : littleEndian (size + more) value
    = littleEndian size value ++ littleEndian more (value / 256 ^ size) := by
  induction size generalizing value with
  | zero => simp [littleEndian]
  | succ size ih =>
    rw [Nat.add_right_comm, littleEndian, littleEndian, ih, List.cons_append, Nat.div_div_eq_div_mul,
      pow_succ, mul_comm (256 ^ size)]

theorem length_littleEndian (size value : ℕ) : (littleEndian size value).length = size := by
  induction size generalizing value with
  | zero => rfl
  | succ size ih => rw [littleEndian, List.length_cons, ih]

theorem byte_of_mem_littleEndian {size value : ℕ} : ∀ c ∈ littleEndian size value, c.toNat < 256 := by
  induction size generalizing value with
  | zero => exact fun c hc => absurd hc List.not_mem_nil
  | succ size ih =>
    intro c hc
    rcases List.mem_cons.mp hc with rfl | hrest
    · rw [CanonicalReader.toNat_byte]
      exact Nat.mod_lt _ (by decide)
    · exact ih c hrest

theorem littleEndian_ne_empty {size value : ℕ} (h : 0 < size) :
    String.ofList (littleEndian size value) ≠ "" := by
  intro hempty
  have hlength := congrArg (fun text => text.toList.length) hempty
  rw [String.toList_ofList, length_littleEndian] at hlength
  exact absurd hlength (Nat.ne_of_gt h)

/-- What is read behind the last `|` of a text, with the end before it. -/
def sampleCount (text : String) : ℕ :=
  let reversed := text.toList.reverse
  let digits := (reversed.takeWhile (· != '|')).reverse
  let before := (reversed.dropWhile (· != '|')).drop 1
  digits.foldl (fun acc c => acc * 10 + (c.toNat - '0'.toNat)) 0 * 2
    + if before.head? = some 'b' then 0 else 1

def sampleTag : String := String.ofList (List.replicate 16 'T')

/-- A hash that keeps numbers apart, and a cipher that hides nothing. -/
def sampleChannelCrypto : ChannelCrypto where
  hashBytes text := hexEncode (String.ofList (littleEndian 32 (sampleCount text)))
  gcmEncrypt plaintext _ _ _ :=
    if plaintext.toList.all (fun c => c.toNat < 256) then some (plaintext, sampleTag) else none
  gcmDecrypt ciphertext _ _ tag _ := if tag = sampleTag then some ciphertext else none

theorem sampleChannelCrypto_seals : sampleChannelCrypto.Seals := by
  have hcases : ∀ {plaintext key nonce aad ciphertext tag : String},
      sampleChannelCrypto.gcmEncrypt plaintext key nonce aad = some (ciphertext, tag) →
      (∀ c ∈ plaintext.toList, c.toNat < 256) ∧ ciphertext = plaintext ∧ tag = sampleTag := by
    intro plaintext key nonce aad ciphertext tag h
    simp only [sampleChannelCrypto, Option.ite_none_right_eq_some, List.all_eq_true,
      decide_eq_true_eq, Option.some.injEq, Prod.mk.injEq] at h
    exact ⟨h.1, h.2.1.symm, h.2.2.symm⟩
  refine ⟨fun h => ?_, fun h => ?_, fun h => ?_⟩
  · obtain ⟨-, rfl, rfl⟩ := hcases h
    show (if sampleTag = sampleTag then some _ else none) = some _
    rw [if_pos rfl]
  · obtain ⟨-, rfl, -⟩ := hcases h
    rfl
  · obtain ⟨hbytes, rfl, rfl⟩ := hcases h
    have htag : sampleTag.toList.all (fun c => c.toNat < 256) = true := by decide
    exact ⟨hbytes, fun c hc => of_decide_eq_true (List.all_eq_true.mp htag c hc)⟩

/-- The count of the text that a nonce is hashed from. -/
theorem sampleCount_nonce {remoteNodeId : String} {front : List Char} (number : UInt64)
    {text : String} (htext : text.toList
      = front ++ (remoteNodeId.toList ++ '|' :: (toString number.toNat).toList))
    (hremote : remoteNodeId = "a" ∨ remoteNodeId = "b") :
    sampleCount text = number.toNat * 2 + if remoteNodeId = "b" then 0 else 1 := by
  have hdigits : '|' ∉ (toString number.toNat).toList.reverse := fun hmem =>
    Text.not_mem_toString (by decide) (List.mem_reverse.mp hmem)
  have hreverse : text.toList.reverse = (toString number.toNat).toList.reverse
      ++ '|' :: (remoteNodeId.toList.reverse ++ front.reverse) := by
    rw [htext]
    simp only [List.reverse_append, List.reverse_cons, List.append_assoc, List.cons_append,
      List.nil_append]
  unfold sampleCount
  dsimp only
  rw [hreverse, Text.takeWhile_delimiter hdigits, Text.dropWhile_delimiter hdigits,
    List.reverse_reverse, Text.foldl_digits_toString]
  rcases hremote with rfl | rfl
  · rfl
  · rfl

/-- What a hash is taken of ends with the text it is asked for. -/
theorem hashString_eq_ok {hashBytes : String → String} {value domain hash : String}
    (h : CanonicalHash.hashString hashBytes value domain = .ok hash) :
    ∃ text front, hash = hashBytes text ∧ text.toList = front ++ value.toList := by
  unfold CanonicalHash.hashString at h
  obtain ⟨label, -, h⟩ := Guards.ok_of_bind h
  cases hcontent : CanonicalWriter.writeString value with
  | none =>
    rw [hcontent] at h
    cases h
  | some content =>
    rw [hcontent] at h
    unfold CanonicalWriter.writeString at hcontent
    obtain ⟨-, hcontent⟩ := Guards.some_of_ite_none hcontent
    refine ⟨label ++ content, label.toList ++ (CanonicalWriter.writeUInt32 value.length).toList,
      (Except.ok.inj h).symm, ?_⟩
    rw [← Option.some.inj hcontent, String.toList_append, String.toList_append, List.append_assoc]

theorem nonceHex_eq_ok {hashBytes : String → String} {session : EncryptedPeerSession}
    {number : UInt64} {text : String} (h : session.nonceHex hashBytes number = .ok text) :
    ∃ input front, text = String.ofList ((hashBytes input).toList.take 24)
      ∧ input.toList
        = front ++ (session.remoteNodeId.toList ++ '|' :: (toString number.toNat).toList) := by
  unfold nonceHex at h
  obtain ⟨full, hfull, h⟩ := Guards.ok_of_bind h
  obtain ⟨input, front, hhash, hinput⟩ := hashString_eq_ok hfull
  refine ⟨input, front ++ (session.sessionId ++ "|" ++ session.localNodeId ++ "|").toList,
    ?_, ?_⟩
  · rw [← hhash]
    exact (Except.ok.inj h).symm
  · rw [hinput]
    simp only [String.toList_append, List.append_assoc]
    rfl

/-- The digits of a nonce are the lowest twelve bytes of the count. -/
theorem sample_nonceHex {session : EncryptedPeerSession} {number : UInt64} {text : String}
    (h : session.nonceHex sampleChannelCrypto.hashBytes number = .ok text) :
    ∃ input front, text = hexEncode (String.ofList (littleEndian 12 (sampleCount input)))
      ∧ input.toList
        = front ++ (session.remoteNodeId.toList ++ '|' :: (toString number.toNat).toList) := by
  obtain ⟨input, front, rfl, hinput⟩ := nonceHex_eq_ok h
  refine ⟨input, front, ?_, hinput⟩
  show String.ofList ((hexEncode (String.ofList
    (littleEndian (12 + 20) (sampleCount input)))).toList.take 24) = _
  rw [littleEndian_add, SignedTransaction.toList_hexEncode, String.toList_ofList,
    List.flatMap_append, List.take_left', hexEncode, String.toList_ofList]
  rw [List.length_flatMap]
  simp [length_littleEndian]

/-- The nonce under a number, for an end of the sample channel. -/
theorem sample_nonce {session : EncryptedPeerSession} {number : UInt64} {text nonce : String}
    (hremote : session.remoteNodeId = "a" ∨ session.remoteNodeId = "b")
    (htext : session.nonceHex sampleChannelCrypto.hashBytes number = .ok text)
    (hnonce : decodeHex text = .ok nonce) :
    nonce.toList
      = littleEndian 12 (number.toNat * 2 + if session.remoteNodeId = "b" then 0 else 1) := by
  obtain ⟨input, front, rfl, hinput⟩ := sample_nonceHex htext
  rw [sampleCount_nonce number hinput hremote] at hnonce
  unfold decodeHex at hnonce
  obtain ⟨-, hnonce⟩ := Guards.ok_of_ite_error hnonce
  rw [SignedTransaction.toList_hexEncode, String.toList_ofList,
    SignedTransaction.hexDecode_flatMap byte_of_mem_littleEndian] at hnonce
  rw [← Except.ok.inj hnonce, String.toList_ofList]

def sampleSession (localNodeId remoteNodeId : String) : EncryptedPeerSession where
  localNodeId := localNodeId
  remoteNodeId := remoteNodeId
  sharedSecret := "s"
  sessionId := "8600000000000000000000000000000000000000000000000000000000000000"
  nextOutboundSequence := 1
  lastInboundSequence := 0
  establishedAt := 1

def sampleChannel : PeerChannel :=
  PeerChannel.established (sampleSession "a" "b") (sampleSession "b" "a")

def sampleLetter (payload : String) : NetworkEnvelope :=
  ⟨"n", "c", "v", .ping, "a", 1, 1, payload⟩

/-- The call that the left end makes for an envelope under a number. -/
def sampleCall (envelope : NetworkEnvelope) (number : UInt64) : Except String SealCall :=
  (sampleSession "a" "b").prepareSeal sampleChannelCrypto.hashBytes envelope 1 number

/-- The frame of that call. -/
def sampleSealedFrame (envelope : NetworkEnvelope) (number : UInt64) : EncryptedPeerChannelFrame :=
  match sampleCall envelope number with
  | .error _ => .uninitialized
  | .ok call => sealedFrame sampleChannelCrypto call

namespace PeerChannel

theorem reachable_sampleChannel : Reachable sampleChannelCrypto "a" "b" "s" sampleChannel := by
  have hid : deriveSessionId sampleChannelCrypto.hashBytes "a" "b" "s"
      = .ok "8600000000000000000000000000000000000000000000000000000000000000" := by decide +kernel
  refine @Reachable.established _ _ _ _ (sampleSession "a" "b") (sampleSession "b" "a") 1 1 ?_ ?_
  · unfold create
    rw [hid]
    rfl
  · unfold create
    rw [deriveSessionId_comm, hid]
    rfl

/-- The left end seals the same envelope again and again. -/
def sealTimes (envelope : NetworkEnvelope) : ℕ → PeerChannel → PeerChannel
  | 0, channel => channel
  | times + 1, channel =>
    sealTimes envelope times (channel.sealAt sampleChannelCrypto .left envelope 1)

/-- A channel whose left end sealed `count` times, none of them `last`. -/
structure Filled (last : NetworkEnvelope) (count : ℕ) (channel : PeerChannel) : Prop where
  reachable : Reachable sampleChannelCrypto "a" "b" "s" channel
  sound : Sound sampleChannelCrypto sampleChannel.session channel
  numbers : channel.numbers .left = count
  right : channel.session .right = sampleSession "b" "a"
  opened : channel.opened .right = []
  others : ∀ call ∈ channel.calls .left, call.envelope ≠ last

variable {last envelope : NetworkEnvelope} {count : ℕ} {channel : PeerChannel}

theorem filled_sampleChannel (last : NetworkEnvelope) : Filled last 0 sampleChannel := by
  refine ⟨reachable_sampleChannel, Sound.start _ rfl ?_, rfl, rfl, rfl, ?_⟩
  · intro e
    cases e <;> rfl
  · exact fun call hcall => absurd hcall List.not_mem_nil

/-- What one more sealing does to the calls. -/
theorem calls_sealAt (h : Filled last count channel) (hsender : envelope.senderNodeId = "a") :
    (channel.sealAt sampleChannelCrypto .left envelope 1).numbers .left = count + 1
      ∧ (channel.sealAt sampleChannelCrypto .left envelope 1).calls .left = channel.calls .left ++
        match sampleCall envelope (UInt64.ofNat (count + 1)) with
        | .error _ => []
        | .ok call => [call] := by
  have hsession : channel.session .left = (sampleSession "a" "b").withCounters
      (UInt64.ofNat (count + 1)) (channel.session .left).lastInboundSequence := by
    rw [← h.numbers]
    exact h.sound.session .left
  have hrefuses : (channel.session .left).refusesSeal envelope 1 = false := by
    rw [hsession]
    unfold refusesSeal
    show (!(sampleSession "a" "b").isValid || envelope.senderNodeId != "a" || decide ((1 : Int64) ≤ 0))
      = false
    rw [hsender]
    decide
  rw [sealAt_of_taken hrefuses]
  dsimp only
  rw [Function.update_self, Function.update_self, h.numbers]
  refine ⟨rfl, ?_⟩
  unfold sealCalls sampleCall
  rw [if_neg (by rw [hrefuses]; decide), hsession, withCounters_nextOutboundSequence,
    prepareSeal_withCounters]

theorem Filled.sealAt (h : Filled last count channel) (hsender : envelope.senderNodeId = "a")
    (hne : envelope ≠ last) :
    Filled last (count + 1) (channel.sealAt sampleChannelCrypto .left envelope 1) := by
  obtain ⟨hnumbers, hcalls⟩ := calls_sealAt h hsender
  refine ⟨h.reachable.sealed .left envelope 1, h.sound.sealAt .left envelope 1, hnumbers, h.right,
    h.opened, ?_⟩
  intro call hcall
  rw [hcalls] at hcall
  rcases List.mem_append.mp hcall with hold | hnew
  · exact h.others call hold
  · split at hnew
    · cases hnew
    · rename_i only hprepare
      rw [List.mem_singleton] at hnew
      rw [hnew, (prepareSeal_spec hprepare).2.1]
      exact hne

theorem Filled.sealTimes (hsender : envelope.senderNodeId = "a") (hne : envelope ≠ last)
    (times : ℕ) : ∀ {count : ℕ} {channel : PeerChannel}, Filled last count channel →
      Filled last (count + times) (sealTimes envelope times channel)
        ∧ channel.calls .left ⊆ (sealTimes envelope times channel).calls .left := by
  induction times with
  | zero => exact fun h => ⟨h, List.Subset.refl _⟩
  | succ times ih =>
    intro count channel h
    obtain ⟨hfilled, hsubset⟩ := ih (h.sealAt hsender hne)
    have hcount : count + 1 + times = count + (times + 1) := by omega
    rw [hcount] at hfilled
    refine ⟨hfilled, List.Subset.trans ?_ hsubset⟩
    rw [(calls_sealAt h hsender).2]
    exact List.subset_append_left _ _

/-- The nonces of the sample channel do not collide. -/
theorem noncesDistinct_of_sound (h : Sound sampleChannelCrypto sampleChannel.session channel) :
    channel.NoncesDistinct sampleChannelCrypto.hashBytes := by
  have hends : ∀ e, (channel.session e).localNodeId = "a" ∧ (channel.session e).remoteNodeId = "b"
      ∨ (channel.session e).localNodeId = "b" ∧ (channel.session e).remoteNodeId = "a" := by
    intro e
    rw [h.session e]
    cases e
    · exact .inl ⟨rfl, rfl⟩
    · exact .inr ⟨rfl, rfl⟩
  have hremote : ∀ e, (channel.session e).remoteNodeId = "a"
      ∨ (channel.session e).remoteNodeId = "b" := by
    intro e
    rcases hends e with ⟨-, hb⟩ | ⟨-, ha⟩
    · exact .inr hb
    · exact .inl ha
  intro e e' number number' text text' nonce htext htext' hnonce hnonce'
  have hfirst := sample_nonce (hremote e) htext hnonce
  rw [sample_nonce (hremote e') htext' hnonce'] at hfirst
  have hsmall := UInt64.toNat_lt number
  have hsmall' := UInt64.toNat_lt number'
  have hbound : (2 : ℕ) ^ 65 < 256 ^ 12 := by decide
  have hcount := littleEndian_inj (by split <;> omega) (by split <;> omega) hfirst
  rcases hends e with ⟨hl, hr⟩ | ⟨hl, hr⟩
  · rcases hends e' with ⟨hl', hr'⟩ | ⟨hl', hr'⟩
    · rw [hr, hr'] at hcount
      exact ⟨hl.trans hl'.symm, UInt64.toNat_inj.mp (by omega)⟩
    · rw [hr, hr', if_pos rfl, if_neg (by decide)] at hcount
      omega
  · rcases hends e' with ⟨hl', hr'⟩ | ⟨hl', hr'⟩
    · rw [hr, hr', if_pos rfl, if_neg (by decide)] at hcount
      omega
    · rw [hr, hr'] at hcount
      exact ⟨hl.trans hl'.symm, UInt64.toNat_inj.mp (by omega)⟩

end PeerChannel

theorem isHex_hexEncode {bytes : String} (h : bytes ≠ "") : isHex (hexEncode bytes) = true := by
  have hsize := length_hexEncode bytes
  have hpositive : 0 < bytes.length := by
    rw [← String.length_toList]
    exact List.length_pos_iff.mpr fun hnil => h (String.toList_inj.mp hnil)
  rw [← String.length_toList] at hsize
  unfold isHex isHexString
  simp only [Bool.and_eq_true, Bool.not_eq_true', List.isEmpty_eq_false_iff, beq_iff_eq,
    List.all_eq_true]
  refine ⟨⟨List.ne_nil_of_length_pos (by omega), by omega⟩, ?_⟩
  exact fun c hc => SignedTransaction.isHexDigit_of_mem_hexEncode hc

theorem decodeHex_of_isHex {text : String} (h : isHex text = true) :
    decodeHex text = .ok (String.ofList (hexDecode text.toList)) := by
  unfold decodeHex
  rw [if_neg (by rw [h]; decide)]

namespace PeerChannel

/-- The cipher seals the call, and the frame is one that a peer takes. -/
def sampleSeals (envelope : NetworkEnvelope) (number : UInt64) : Bool :=
  match sampleCall envelope number with
  | .error _ => false
  | .ok call =>
    (sampleChannelCrypto.aesGcmSeal call).isSome && (sealedFrame sampleChannelCrypto call).isValid

/-- The bytes of an envelope that the sample cipher seals. -/
def sampleBytes (envelope : NetworkEnvelope) : Bool :=
  match ProtocolMessageCodec.encodeNetworkEnvelope envelope with
  | .error _ => false
  | .ok plaintext => plaintext.toList.all (fun c => c.toNat < 256) && !plaintext.toList.isEmpty
      && plaintext.length < 2 ^ 31

theorem sample_hash_spec (input : String) :
    isHex (sampleChannelCrypto.hashBytes input) = true
      ∧ (hexDecode (sampleChannelCrypto.hashBytes input).toList).length = 32 := by
  refine ⟨isHex_hexEncode (littleEndian_ne_empty (by decide)), ?_⟩
  show (hexDecode (hexEncode (String.ofList (littleEndian 32 (sampleCount input)))).toList).length
    = 32
  rw [SignedTransaction.toList_hexEncode, String.toList_ofList,
    SignedTransaction.hexDecode_flatMap byte_of_mem_littleEndian, length_littleEndian]

/-- The key of the sample channel. -/
theorem sample_key : ∃ keyMaterial,
    (sampleSession "a" "b").deriveKeyMaterial sampleChannelCrypto.hashBytes = .ok keyMaterial
      ∧ isHex keyMaterial = true ∧ (hexDecode keyMaterial.toList).length = 32 := by
  have hok : ((sampleSession "a" "b").deriveKeyMaterial sampleChannelCrypto.hashBytes).isOk
      = true := by decide +kernel
  cases hmaterial : (sampleSession "a" "b").deriveKeyMaterial sampleChannelCrypto.hashBytes with
  | error message =>
    rw [hmaterial] at hok
    cases hok
  | ok keyMaterial =>
    obtain ⟨input, -, rfl, -⟩ := hashString_eq_ok hmaterial
    exact ⟨_, rfl, sample_hash_spec input⟩

/-- A nonce of the sample channel, in hexadecimal digits. -/
theorem sample_nonce_text {number : UInt64} {text : String}
    (h : (sampleSession "a" "b").nonceHex sampleChannelCrypto.hashBytes number = .ok text) :
    isHex text = true ∧ text.length = 24 ∧ (hexDecode text.toList).length = 12 := by
  obtain ⟨input, -, rfl, -⟩ := sample_nonceHex h
  refine ⟨isHex_hexEncode (littleEndian_ne_empty (by decide)), ?_, ?_⟩
  · rw [length_hexEncode, ← String.length_toList, String.toList_ofList, length_littleEndian]
  · rw [SignedTransaction.toList_hexEncode, String.toList_ofList,
      SignedTransaction.hexDecode_flatMap byte_of_mem_littleEndian, length_littleEndian]

theorem sampleSeals_of_bytes {envelope : NetworkEnvelope} {number : UInt64}
    (hbytes : sampleBytes envelope = true)
    (hnonce : ((sampleSession "a" "b").nonceHex sampleChannelCrypto.hashBytes number).isOk = true)
    (hnumber : 0 < number) : sampleSeals envelope number = true := by
  obtain ⟨keyMaterial, hmaterial, hkeyHex, hkey⟩ := sample_key
  unfold sampleBytes at hbytes
  cases htext : (sampleSession "a" "b").nonceHex sampleChannelCrypto.hashBytes number with
  | error message =>
    rw [htext] at hnonce
    cases hnonce
  | ok text =>
  obtain ⟨hhex, hsize, hnonce⟩ := sample_nonce_text htext
  cases hplain : ProtocolMessageCodec.encodeNetworkEnvelope envelope with
  | error message =>
    rw [hplain] at hbytes
    cases hbytes
  | ok plaintext =>
    rw [hplain] at hbytes
    simp only [Bool.and_eq_true, Bool.not_eq_true', decide_eq_true_eq] at hbytes
    obtain ⟨⟨hall, hne⟩, hsmall⟩ := hbytes
    have hne : plaintext ≠ "" := by
      rintro rfl
      cases hne
    have htagHex : isHex (hexEncode sampleTag) = true := isHex_hexEncode (by decide)
    have htagSize : (hexEncode sampleTag).length = 32 := length_hexEncode sampleTag
    have hkeySize : (String.ofList (hexDecode keyMaterial.toList)).length = 32 := by
      rw [← String.length_toList, String.toList_ofList, hkey]
    have hnonceSize : (String.ofList (hexDecode text.toList)).length = 12 := by
      rw [← String.length_toList, String.toList_ofList, hnonce]
    have hgcm : ∀ key nonce aad, sampleChannelCrypto.gcmEncrypt plaintext key nonce aad
        = some (plaintext, sampleTag) := fun _ _ _ => if_pos hall
    have hsession : (isHex (sampleSession "a" "b").sessionId
        && (sampleSession "a" "b").sessionId.length == 64
        && isSafeChannelScalar "a" && isSafeChannelScalar "b" && "a" != "b") = true := by decide
    unfold sampleSeals sampleCall prepareSeal
    rw [htext, Guards.ok_bind, hplain, Guards.ok_bind, hmaterial]
    dsimp only
    rw [Guards.ok_bind, decodeHex_of_isHex hkeyHex, Guards.ok_bind, decodeHex_of_isHex hhex,
      Guards.ok_bind]
    dsimp only
    unfold sealedFrame ChannelCrypto.aesGcmSeal
    dsimp only
    rw [if_neg (by simp only [hkeySize, hnonceSize]; decide), cipherInput_of_lt hsmall]
    dsimp only
    rw [hgcm]
    unfold EncryptedPeerChannelFrame.isValid
    simp only [isHex_hexEncode hne, hhex, hsize, htagHex, htagSize, hnumber]
    show (true && (isHex (sampleSession "a" "b").sessionId
        && (sampleSession "a" "b").sessionId.length == 64
        && isSafeChannelScalar "a" && isSafeChannelScalar "b" && "a" != "b" && _ && _ && _ && _ && _
        && _ && _)) = true
    rw [hsession]
    simp only [decide_true]
    rfl

theorem sampleSeals_late : sampleSeals (sampleLetter "late") 1 = true :=
  sampleSeals_of_bytes (by decide +kernel) (by decide +kernel) (by decide)

theorem sampleSeals_second : sampleSeals (sampleLetter "second") 2 = true :=
  sampleSeals_of_bytes (by decide +kernel) (by decide +kernel) (by decide)

end PeerChannel

namespace PeerChannel

/-- The call and the frame of an envelope that the sample cipher seals. -/
theorem call_of_sampleSeals {envelope : NetworkEnvelope} {number : UInt64}
    (h : sampleSeals envelope number = true) : ∃ call, sampleCall envelope number = .ok call
      ∧ (sampleChannelCrypto.aesGcmSeal call).isSome = true
      ∧ (sealedFrame sampleChannelCrypto call).isValid = true
      ∧ sampleSealedFrame envelope number = sealedFrame sampleChannelCrypto call
      ∧ call.envelope = envelope ∧ call.frameWithoutTag.sequence = number := by
  unfold sampleSeals at h
  cases hcall : sampleCall envelope number with
  | error message =>
    rw [hcall] at h
    cases h
  | ok call =>
    rw [hcall] at h
    simp only [Bool.and_eq_true] at h
    obtain ⟨-, henvelope, hsequence⟩ := prepareSeal_spec hcall
    refine ⟨call, rfl, h.1, h.2, ?_, henvelope, hsequence⟩
    unfold sampleSealedFrame
    rw [hcall]

variable {channel : PeerChannel} {envelope : NetworkEnvelope} {number : UInt64}

/-- The right end opens what the left end sealed under a number above its last one. -/
theorem deliver_sample (hreachable : Reachable sampleChannelCrypto "a" "b" "s" channel)
    (hsound : Sound sampleChannelCrypto sampleChannel.session channel)
    (hsample : sampleSeals envelope number = true)
    (hcall : ∀ call, sampleCall envelope number = .ok call → call ∈ channel.calls .left)
    (hfits : ProtocolMessageCodec.Fits envelope)
    (hnew : (channel.session .right).lastInboundSequence < number) :
    Reachable sampleChannelCrypto "a" "b" "s"
        (channel.deliver sampleChannelCrypto .right (sampleSealedFrame envelope number))
      ∧ Sound sampleChannelCrypto sampleChannel.session
        (channel.deliver sampleChannelCrypto .right (sampleSealedFrame envelope number))
      ∧ (channel.deliver sampleChannelCrypto .right (sampleSealedFrame envelope number)).opened
        .right = channel.opened .right ++ [(number, envelope)]
      ∧ ((channel.deliver sampleChannelCrypto .right
        (sampleSealedFrame envelope number)).session .right).lastInboundSequence = number := by
  obtain ⟨call, hok, hsealed, hvalid, hframe, rfl, rfl⟩ := call_of_sampleSeals hsample
  have hmem := hcall call hok
  have hauthored := hsound.authored .left call hmem
  have hfacing : Facing (sampleSession "b" "a") (sampleSession "a" "b") := ⟨rfl, rfl, rfl, rfl⟩
  have hright : (channel.session .right).isValid = true := by
    rw [hsound.session .right]
    show (sampleSession "b" "a").isValid = true
    decide
  have hopens := opens_sealedFrame sampleChannelCrypto_seals hfacing (hsound.session .right)
    hauthored hsealed hright hvalid hfits hnew
  have hunforged : ∀ openCall plaintext,
      (channel.session .right).prepareOpen sampleChannelCrypto.hashBytes
        (sealedFrame sampleChannelCrypto call) = .ok openCall →
      sampleChannelCrypto.aesGcmOpen openCall = some plaintext →
      Unforged sampleChannelCrypto channel.sealings openCall := by
    refine unforged_sealedFrame sampleChannelCrypto_seals ?_ ?_ hauthored ?_ hsealed hvalid hfits
    · rw [hsound.session .right]
      rfl
    · rw [hsound.session .right]
      rfl
    · exact List.mem_append_left _ (List.mem_append_left _ hmem)
  have hsequence : (sealedFrame sampleChannelCrypto call).sequence
      = call.frameWithoutTag.sequence := by
    obtain ⟨sealed, hseal⟩ := Option.isSome_iff_exists.mp hsealed
    unfold sealedFrame
    rw [hseal]
  rw [hframe]
  refine ⟨hreachable.delivered .right _ hunforged, hsound.deliver sampleChannelCrypto_seals ?_ .right
    _ hunforged, ?_, ?_⟩
  · intro e
    cases e
    · exact ⟨rfl, rfl, rfl, rfl⟩
    · exact ⟨rfl, rfl, rfl, rfl⟩
  · rw [deliver_of_opens hopens]
    dsimp only
    rw [Function.update_self, hsequence]
  · rw [deliver_of_opens hopens]
    dsimp only
    rw [Function.update_self, hsequence]

/-- The left end seals until its numbers begin anew; the right end gets the last envelope first,
then the second one. -/
def wrappedChannel (fillers : ℕ) : PeerChannel :=
  let begun := (sampleChannel.sealAt sampleChannelCrypto .left (sampleLetter "first") 1).sealAt
    sampleChannelCrypto .left (sampleLetter "second") 1
  let sealed := (sealTimes (sampleLetter "first") fillers begun).sealAt sampleChannelCrypto .left
    (sampleLetter "late") 1
  (sealed.deliver sampleChannelCrypto .right (sampleSealedFrame (sampleLetter "late") 1)).deliver
    sampleChannelCrypto .right (sampleSealedFrame (sampleLetter "second") 2)

theorem fits_sampleLetter {payload : String}
    (h : payload.length ≤ ProtocolMessageCodec.maxProtocolFieldBytes) :
    ProtocolMessageCodec.Fits (sampleLetter payload) :=
  ⟨show "n".length ≤ _ by decide, show "c".length ≤ _ by decide, show "v".length ≤ _ by decide,
    show "a".length ≤ _ by decide, h⟩

/-- The channel after as many fillers as bring the number 1 back. -/
theorem wrappedChannel_spec {fillers : ℕ} (hwrap : UInt64.ofNat (2 + fillers + 1) = 1) :
    Reachable sampleChannelCrypto "a" "b" "s" (wrappedChannel fillers)
      ∧ Sound sampleChannelCrypto sampleChannel.session (wrappedChannel fillers)
      ∧ (wrappedChannel fillers).opened .right
        = [(1, sampleLetter "late"), (2, sampleLetter "second")]
      ∧ ∃ before call, (wrappedChannel fillers).calls .left = before ++ [call]
        ∧ ∀ other ∈ before, other.envelope ≠ sampleLetter "late" := by
  have hneFirst : sampleLetter "first" ≠ sampleLetter "late" := by decide
  have hneSecond : sampleLetter "second" ≠ sampleLetter "late" := by decide
  have hsender : ∀ payload, (sampleLetter payload).senderNodeId = "a" := fun _ => rfl
  have hfirst := (filled_sampleChannel (sampleLetter "late")).sealAt (hsender "first") hneFirst
  have hsecond := hfirst.sealAt (hsender "second") hneSecond
  obtain ⟨hfilled, hkept⟩ := Filled.sealTimes (hsender "first") hneFirst fillers hsecond
  obtain ⟨-, hcalls⟩ := calls_sealAt hfilled (hsender "late")
  have hcount : 0 + 1 + 1 + fillers + 1 = 2 + fillers + 1 := by omega
  obtain ⟨late, hlate, -⟩ := call_of_sampleSeals sampleSeals_late
  rw [hcount, hwrap, hlate] at hcalls
  dsimp only at hcalls
  have hreachable := hfilled.reachable.sealed .left (sampleLetter "late") 1
  have hsound := hfilled.sound.sealAt .left (sampleLetter "late") 1
  have hlast : ((sealAt sampleChannelCrypto (sealTimes (sampleLetter "first") fillers
      (sealAt sampleChannelCrypto (sealAt sampleChannelCrypto sampleChannel .left
        (sampleLetter "first") 1) .left (sampleLetter "second") 1)) .left (sampleLetter "late")
          1).session .right).lastInboundSequence = 0 := by
    rw [show (sealAt sampleChannelCrypto _ .left (sampleLetter "late") 1).session .right
      = sampleSession "b" "a" from hfilled.right]
    rfl
  obtain ⟨hreachable, hsound, hopened, hlast⟩ := deliver_sample hreachable hsound sampleSeals_late
    (fun call hcall => by
      rw [hlate] at hcall
      rw [hcalls, ← Except.ok.inj hcall]
      exact List.mem_append_right _ (List.mem_singleton_self late))
    (fits_sampleLetter (by decide)) (by rw [hlast]; decide)
  have hbegun : ∀ call, sampleCall (sampleLetter "second") 2 = .ok call →
      call ∈ (wrappedChannel fillers).calls .left := by
    intro call hcall
    show call ∈ (sealAt sampleChannelCrypto _ .left (sampleLetter "late") 1).calls .left
    rw [hcalls]
    refine List.mem_append_left _ (hkept ?_)
    have htwo : UInt64.ofNat (0 + 1 + 1) = 2 := rfl
    rw [(calls_sealAt hfirst (hsender "second")).2, htwo, hcall]
    exact List.mem_append_right _ (List.mem_singleton_self call)
  obtain ⟨hreachable, hsound, hopened', -⟩ := deliver_sample hreachable hsound sampleSeals_second
    hbegun (fits_sampleLetter (by decide)) (by rw [hlast]; decide)
  refine ⟨hreachable, hsound, ?_, _, late, hcalls, hfilled.others⟩
  refine hopened'.trans ?_
  rw [hopened, show (sealAt sampleChannelCrypto _ .left (sampleLetter "late") 1).opened .right = []
    from hfilled.opened]
  rfl

end PeerChannel

namespace PeerChannel

/-- The late envelope is the last one that was sealed, and the first one that was opened. -/
theorem not_inOrder {fillers : ℕ} (hwrap : UInt64.ofNat (2 + fillers + 1) = 1) :
    ¬((wrappedChannel fillers).opened .right).Sublist
      ((wrappedChannel fillers).sealed sampleChannelCrypto .left) := by
  obtain ⟨-, -, hopened, before, call, hcalls, hothers⟩ := wrappedChannel_spec hwrap
  unfold sealed
  rw [hopened, hcalls, List.filter_append, List.map_append, List.sublist_append_iff]
  rintro ⟨early, end', hsplit, hearly, hend⟩
  cases early with
  | nil =>
    have hlength := hend.length_le
    rw [← List.nil_append end', ← hsplit, List.length_map] at hlength
    have hone : ([call].filter fun call => (sampleChannelCrypto.aesGcmSeal call).isSome).length ≤ 1 :=
      List.length_filter_le _ _
    simp only [List.length_cons, List.length_nil] at hlength
    omega
  | cons entry rest =>
    rw [List.cons_append, List.cons.injEq] at hsplit
    have hmem := hearly.subset List.mem_cons_self
    rw [← hsplit.1] at hmem
    obtain ⟨other, hother, heq⟩ := List.mem_map.mp hmem
    exact hothers other (List.mem_filter.mp hother).1 (Prod.mk.inj heq).2

/-- **Numbers that begin anew lose the order**: after 2^64 envelopes the right end opens the last
one, and then the second one. -/
theorem order_lost : sampleChannelCrypto.Seals
    ∧ Reachable sampleChannelCrypto "a" "b" "s" (wrappedChannel (2 ^ 64 - 2))
    ∧ (wrappedChannel (2 ^ 64 - 2)).NoncesDistinct sampleChannelCrypto.hashBytes
    ∧ ¬((wrappedChannel (2 ^ 64 - 2)).opened .right).Sublist
      ((wrappedChannel (2 ^ 64 - 2)).sealed sampleChannelCrypto .left) := by
  have hwrap : UInt64.ofNat (2 + (2 ^ 64 - 2) + 1) = 1 := by decide
  obtain ⟨hreachable, hsound, -⟩ := wrappedChannel_spec hwrap
  exact ⟨sampleChannelCrypto_seals, hreachable, noncesDistinct_of_sound hsound, not_inOrder hwrap⟩

/-- The left end seals one envelope and the right end gets it. -/
def sampleDelivery : PeerChannel :=
  (sampleChannel.sealAt sampleChannelCrypto .left (sampleLetter "late") 1).deliver
    sampleChannelCrypto .right (sampleSealedFrame (sampleLetter "late") 1)

theorem numbers_deliver (crypto : ChannelCrypto) (channel : PeerChannel) (e : ChannelEnd)
    (frame : EncryptedPeerChannelFrame) :
    (channel.deliver crypto e frame).numbers = channel.numbers := rfl

theorem sampleDelivery_spec : Reachable sampleChannelCrypto "a" "b" "s" sampleDelivery
    ∧ Sound sampleChannelCrypto sampleChannel.session sampleDelivery
    ∧ sampleDelivery.opened .right = [(1, sampleLetter "late")]
    ∧ sampleDelivery.numbers .left = 1 ∧ sampleDelivery.numbers .right = 0 := by
  have hne : sampleLetter "late" ≠ sampleLetter "first" := by decide
  have hempty := filled_sampleChannel (sampleLetter "first")
  have hsender : (sampleLetter "late").senderNodeId = "a" := rfl
  have hfilled := hempty.sealAt hsender hne
  have hone : UInt64.ofNat (0 + 1) = 1 := rfl
  have hcall : ∀ call, sampleCall (sampleLetter "late") 1 = .ok call → call
      ∈ (sampleChannel.sealAt sampleChannelCrypto .left (sampleLetter "late") 1).calls .left := by
    intro call hcall
    rw [(calls_sealAt hempty hsender).2, hone, hcall]
    exact List.mem_append_right _ (List.mem_singleton_self call)
  obtain ⟨hreachable, hsound, hopened, -⟩ := deliver_sample hfilled.reachable hfilled.sound
    sampleSeals_late hcall (fits_sampleLetter (by decide)) (by rw [hfilled.right]; decide)
  unfold sampleDelivery
  refine ⟨hreachable, hsound, ?_, ?_, ?_⟩
  · rw [hopened, hfilled.opened]
    rfl
  · rw [numbers_deliver]
    exact hfilled.numbers
  · rw [numbers_deliver]
    rfl

theorem secure_sampleDelivery : Secure sampleChannelCrypto sampleDelivery
    ∧ sampleDelivery.opened .right = [(1, sampleLetter "late")] := by
  obtain ⟨hreachable, hsound, hopened, hleft, hright⟩ := sampleDelivery_spec
  refine ⟨channel_secure sampleChannelCrypto_seals hreachable (noncesDistinct_of_sound hsound) ?_,
    hopened⟩
  intro e
  cases e
  · rw [hleft]
    decide
  · rw [hright]
    decide

end PeerChannel

end Nodo.Model
