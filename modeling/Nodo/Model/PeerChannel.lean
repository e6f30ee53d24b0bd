import Nodo.Lib.NumberedChannel
import Nodo.Model.EnvelopeCodec
import Nodo.Model.TransactionCodec

/-!
# Nodo — the encrypted channel between two peers

`p2p/EncryptedPeerChannel.cpp`. Both ends of a session derive its id and its key from a shared
secret; a frame carries the sealed bytes of one envelope under the next number of its sender, with
its ends, its number and its time bound to it as associated data. AES-GCM is a parameter.

## Results

* `aadPayload_inj` — associated data name their session, their direction and their number.
* `Unforged.plaintext` — what is opened is what was sealed.
* `openFrame_cases`, `openFrame_refused` — a frame opens, or leaves the session as it was.
-/

namespace Nodo.Model

--
-- Primitives
--

/-- The primitives of the channel; `none` where a call into the cipher fails. -/
structure ChannelCrypto where
  /-- `nodo_hash_bytes`. -/
  hashBytes : String → String
  /-- The ciphertext and the tag of a plaintext, from the key, the nonce and the associated data. -/
  gcmEncrypt : String → String → String → String → Option (String × String)
  /-- The plaintext of a ciphertext, from the key, the nonce, the tag and the associated data. -/
  gcmDecrypt : String → String → String → String → String → Option String

/-- `CanonicalHash::hashString`. -/
def CanonicalHash.hashString (hashBytes : String → String) (value domain : String) :
    Except String String := do
  let label ← ProtocolMessageCodec.writeString domain
  match CanonicalWriter.writeString value with
  | none => .error "Canonical bytes field is too large."
  | some content => .ok (hashBytes (label ++ content))

namespace EncryptedPeerChannel

def sessionDomain : String := "NODO_ENCRYPTED_PEER_SESSION_ID_V1"

def keyDomain : String := "NODO_ENCRYPTED_PEER_SESSION_KEY_V1"

def nonceDomain : String := "NODO_ENCRYPTED_PEER_NONCE_V1"

def isHex (value : String) : Bool := isHexString value.toList

/-- `isSafeScalar` of `p2p/EncryptedPeerChannel.cpp`. -/
def isSafeChannelScalar (value : String) : Bool :=
  isSafeIdentifier "_-.:/" value && value.length ≤ 256

/-- `hexDecode`, with its check. -/
def decodeHex (hex : String) : Except String String :=
  if !isHex hex then .error "Malformed hexadecimal value."
  else .ok (String.ofList (hexDecode hex.toList))

end EncryptedPeerChannel

open EncryptedPeerChannel

--
-- Frames
--

structure EncryptedPeerChannelFrame where
  sessionId : String
  fromNodeId : String
  toNodeId : String
  sequence : UInt64
  createdAt : Int64
  nonceHex : String
  ciphertextHex : String
  authenticationTagHex : String
  deriving DecidableEq

namespace EncryptedPeerChannelFrame

/-- The frame of the default constructor. -/
def uninitialized : EncryptedPeerChannelFrame := ⟨"", "", "", 0, 0, "", "", ""⟩

def isValid (frame : EncryptedPeerChannelFrame) : Bool :=
  isHex frame.sessionId && frame.sessionId.length == 64
    && isSafeChannelScalar frame.fromNodeId && isSafeChannelScalar frame.toNodeId
    && frame.fromNodeId != frame.toNodeId && 0 < frame.sequence && 0 < frame.createdAt
    && isHex frame.nonceHex && frame.nonceHex.length == 24
    && isHex frame.ciphertextHex
    && isHex frame.authenticationTagHex && frame.authenticationTagHex.length == 32

def aadPayload (frame : EncryptedPeerChannelFrame) : String :=
  "EncryptedPeerChannelAAD\x7bsessionId=" ++ frame.sessionId
    ++ ";fromNodeId=" ++ frame.fromNodeId
    ++ ";toNodeId=" ++ frame.toNodeId
    ++ ";sequence=" ++ toString frame.sequence.toNat
    ++ ";createdAt=" ++ toString frame.createdAt.toInt
    ++ ";nonceHex=" ++ frame.nonceHex ++ "\x7d"

end EncryptedPeerChannelFrame

--
-- Calls of the cipher
--

/-- The arguments of `aesGcmSeal`, with the frame and the envelope they are for. -/
structure SealCall where
  envelope : NetworkEnvelope
  frameWithoutTag : EncryptedPeerChannelFrame
  plaintext : String
  key : String
  nonce : String
  deriving DecidableEq

/-- The arguments of `aesGcmOpen`. -/
structure OpenCall where
  ciphertext : String
  key : String
  nonce : String
  tag : String
  aad : String
  deriving DecidableEq

/-- The bytes that a call of the cipher takes: their number is cast to `int`, and a negative number
makes the call fail. -/
def cipherInput (text : String) : Option String :=
  if text.length % 2 ^ 32 < 2 ^ 31 then
    some (String.ofList (text.toList.take (text.length % 2 ^ 32)))
  else none

namespace ChannelCrypto

def aesGcmSeal (crypto : ChannelCrypto) (call : SealCall) : Option (String × String) :=
  if call.key.length != 32 || call.nonce.length != 12 then none
  else
    match cipherInput call.plaintext with
    | none => none
    | some input => crypto.gcmEncrypt input call.key call.nonce call.frameWithoutTag.aadPayload

def aesGcmOpen (crypto : ChannelCrypto) (call : OpenCall) : Option String :=
  if call.key.length != 32 || call.nonce.length != 12 || call.tag.length != 16 then none
  else
    match cipherInput call.ciphertext with
    | none => none
    | some input => crypto.gcmDecrypt input call.key call.nonce call.tag call.aad

end ChannelCrypto

--
-- Sessions
--

structure EncryptedPeerSession where
  localNodeId : String
  remoteNodeId : String
  sharedSecret : String
  sessionId : String
  nextOutboundSequence : UInt64
  lastInboundSequence : UInt64
  establishedAt : Int64
  deriving DecidableEq

inductive EncryptedPeerChannelStatus
  | opened
  | rejected
  | invalidFrame
  | wrongSession
  | authenticationFailed
  | replayDetected
  deriving DecidableEq

structure EncryptedPeerOpenResult where
  status : EncryptedPeerChannelStatus
  reason : String
  envelope : Option NetworkEnvelope
  deriving DecidableEq

def EncryptedPeerOpenResult.opened (result : EncryptedPeerOpenResult) : Bool :=
  result.status == .opened && result.envelope.isSome

namespace EncryptedPeerSession

def deriveSessionId (hashBytes : String → String) (leftNodeId rightNodeId sharedSecret : String) :
    Except String String :=
  if rightNodeId < leftNodeId then
    CanonicalHash.hashString hashBytes (rightNodeId ++ "|" ++ leftNodeId ++ "|" ++ sharedSecret)
      sessionDomain
  else
    CanonicalHash.hashString hashBytes (leftNodeId ++ "|" ++ rightNodeId ++ "|" ++ sharedSecret)
      sessionDomain

/-- The constructor. -/
def create (hashBytes : String → String) (localNodeId remoteNodeId sharedSecret : String)
    (establishedAt : Int64) : Except String EncryptedPeerSession := do
  let sessionId ← deriveSessionId hashBytes localNodeId remoteNodeId sharedSecret
  .ok
    { localNodeId, remoteNodeId, sharedSecret, sessionId, nextOutboundSequence := 1
      lastInboundSequence := 0, establishedAt }

def deriveKeyMaterial (hashBytes : String → String) (session : EncryptedPeerSession) :
    Except String String :=
  CanonicalHash.hashString hashBytes (session.sessionId ++ "|" ++ session.sharedSecret) keyDomain

def isValid (session : EncryptedPeerSession) : Bool :=
  isSafeChannelScalar session.localNodeId && isSafeChannelScalar session.remoteNodeId
    && session.localNodeId != session.remoteNodeId && !session.sharedSecret.isEmpty
    && isHex session.sessionId && 0 < session.establishedAt

/-- `nonceHex` of `sealEnvelope`. -/
def nonceHex (hashBytes : String → String) (session : EncryptedPeerSession) (sequence : UInt64) :
    Except String String := do
  let fullNonceHex ← CanonicalHash.hashString hashBytes
    (session.sessionId ++ "|" ++ session.localNodeId ++ "|" ++ session.remoteNodeId ++ "|"
      ++ toString sequence.toNat) nonceDomain
  .ok (String.ofList (fullNonceHex.toList.take 24))

/-- `sealEnvelope` from the sequence number to the call of the cipher. -/
def prepareSeal (hashBytes : String → String) (session : EncryptedPeerSession)
    (envelope : NetworkEnvelope) (now : Int64) (sequence : UInt64) : Except String SealCall := do
  let nonceHex ← session.nonceHex hashBytes sequence
  let plaintext ← ProtocolMessageCodec.encodeNetworkEnvelope envelope
  let frameWithoutTag : EncryptedPeerChannelFrame :=
    { sessionId := session.sessionId, fromNodeId := session.localNodeId
      toNodeId := session.remoteNodeId, sequence, createdAt := now, nonceHex
      ciphertextHex := "00", authenticationTagHex := String.ofList (List.replicate 32 '0') }
  let keyMaterial ← session.deriveKeyMaterial hashBytes
  let key ← decodeHex keyMaterial
  let nonce ← decodeHex nonceHex
  .ok { envelope, frameWithoutTag, plaintext, key, nonce }

/-- The frame that `sealEnvelope` returns after the call. -/
def sealedFrame (crypto : ChannelCrypto) (call : SealCall) : EncryptedPeerChannelFrame :=
  match crypto.aesGcmSeal call with
  | none => .uninitialized
  | some (ciphertext, tag) =>
    { call.frameWithoutTag with
      ciphertextHex := hexEncode ciphertext, authenticationTagHex := hexEncode tag }

/-- The guard of `sealEnvelope`. -/
def refusesSeal (session : EncryptedPeerSession) (envelope : NetworkEnvelope) (now : Int64) : Bool :=
  !session.isValid || envelope.senderNodeId != session.localNodeId || now ≤ 0

/-- The number is taken before anything else can fail. -/
def sealEnvelope (crypto : ChannelCrypto) (session : EncryptedPeerSession)
    (envelope : NetworkEnvelope) (now : Int64) :
    Except String EncryptedPeerChannelFrame × EncryptedPeerSession :=
  if session.refusesSeal envelope now then (.ok .uninitialized, session)
  else
    ((session.prepareSeal crypto.hashBytes envelope now session.nextOutboundSequence).map
        (sealedFrame crypto),
      { session with nextOutboundSequence := session.nextOutboundSequence + 1 })

/-- The arguments that `openFrame` gives the cipher. -/
def prepareOpen (hashBytes : String → String) (session : EncryptedPeerSession)
    (frame : EncryptedPeerChannelFrame) : Except String OpenCall := do
  let ciphertext ← decodeHex frame.ciphertextHex
  let keyMaterial ← session.deriveKeyMaterial hashBytes
  let key ← decodeHex keyMaterial
  let nonce ← decodeHex frame.nonceHex
  let tag ← decodeHex frame.authenticationTagHex
  .ok { ciphertext, key, nonce, tag, aad := { frame with authenticationTagHex := "00" }.aadPayload }

/-- The `try` block of `openFrame` up to the envelope; `none` where the frame does not
authenticate. -/
def decryptFrame (crypto : ChannelCrypto) (session : EncryptedPeerSession)
    (frame : EncryptedPeerChannelFrame) : Except String (Option NetworkEnvelope) := do
  let call ← session.prepareOpen crypto.hashBytes frame
  match crypto.aesGcmOpen call with
  | none => .ok none
  | some plaintext =>
    let envelope ← ProtocolMessageCodec.decodeNetworkEnvelope plaintext
    .ok (some envelope)

def openFrame (crypto : ChannelCrypto) (session : EncryptedPeerSession)
    (frame : EncryptedPeerChannelFrame) : EncryptedPeerOpenResult × EncryptedPeerSession :=
  if !session.isValid then
    (⟨.rejected, "Encrypted peer session is invalid.", none⟩, session)
  else if !frame.isValid then
    (⟨.invalidFrame, "Encrypted peer frame is invalid.", none⟩, session)
  else if frame.sessionId != session.sessionId || frame.fromNodeId != session.remoteNodeId
      || frame.toNodeId != session.localNodeId then
    (⟨.wrongSession, "Encrypted peer frame does not belong to this session direction.", none⟩,
      session)
  else if frame.sequence ≤ session.lastInboundSequence then
    (⟨.replayDetected, "Encrypted peer frame sequence was already processed.", none⟩, session)
  else
    match session.decryptFrame crypto frame with
    | .error what =>
      (⟨.authenticationFailed, "Encrypted peer frame could not be decoded: " ++ what, none⟩, session)
    | .ok none =>
      (⟨.authenticationFailed, "Encrypted peer frame authentication failed.", none⟩, session)
    | .ok (some envelope) =>
      if envelope.senderNodeId != session.remoteNodeId then
        (⟨.authenticationFailed, "Decrypted envelope sender does not match secure peer session.",
          none⟩, session)
      else
        (⟨.opened, "Encrypted peer frame opened successfully.", some envelope⟩,
          { session with lastInboundSequence := frame.sequence })

end EncryptedPeerSession

--
-- The associated data
--

/-- A text without the delimiter of the associated data. -/
def Uncut (text : String) : Prop := ';' ∉ text.toList

theorem uncut_of_isHex {text : String} (h : isHex text = true) : Uncut text := by
  intro hmem
  simp only [isHex, isHexString, Bool.and_eq_true, List.all_eq_true] at h
  exact absurd (h.2 _ hmem) (by decide)

theorem uncut_of_isSafeChannelScalar {text : String} (h : isSafeChannelScalar text = true) :
    Uncut text := by
  intro hmem
  simp only [isSafeChannelScalar, isSafeIdentifier, Bool.and_eq_true,
    List.all_eq_true] at h
  exact absurd (h.1.2 _ hmem) (by decide)

namespace EncryptedPeerChannelFrame

/-- The fields before the number end at their delimiters. -/
structure Readable (frame : EncryptedPeerChannelFrame) : Prop where
  sessionId : Uncut frame.sessionId
  fromNodeId : Uncut frame.fromNodeId
  toNodeId : Uncut frame.toNodeId

variable {frame other : EncryptedPeerChannelFrame}

theorem Readable.of_isValid (h : frame.isValid = true) : frame.Readable := by
  simp only [isValid, Bool.and_eq_true] at h
  obtain ⟨⟨⟨⟨⟨⟨⟨⟨⟨⟨⟨hsession, -⟩, hfrom⟩, hto⟩, -⟩, -⟩, -⟩, -⟩, -⟩, -⟩, -⟩, -⟩ := h
  exact ⟨uncut_of_isHex hsession, uncut_of_isSafeChannelScalar hfrom, uncut_of_isSafeChannelScalar hto⟩

/-- **Associated data name the session, the direction and the number.** -/
theorem aadPayload_inj (hframe : frame.Readable) (hother : other.Readable)
    (h : frame.aadPayload = other.aadPayload) :
    frame.sessionId = other.sessionId ∧ frame.fromNodeId = other.fromNodeId
      ∧ frame.toNodeId = other.toNodeId ∧ frame.sequence = other.sequence := by
  have hlist := congrArg String.toList h
  unfold aadPayload at hlist
  simp only [String.toList_append, List.append_assoc] at hlist
  have hlist := List.append_cancel_left hlist
  obtain ⟨hsession, hlist⟩ := Text.append_delimiter_inj hframe.sessionId hother.sessionId hlist
  have hlist := @List.append_cancel_left _ "fromNodeId=".toList _ _ hlist
  obtain ⟨hfrom, hlist⟩ := Text.append_delimiter_inj hframe.fromNodeId hother.fromNodeId hlist
  have hlist := @List.append_cancel_left _ "toNodeId=".toList _ _ hlist
  obtain ⟨hto, hlist⟩ := Text.append_delimiter_inj hframe.toNodeId hother.toNodeId hlist
  have hlist := @List.append_cancel_left _ "sequence=".toList _ _ hlist
  obtain ⟨hsequence, -⟩ := Text.append_delimiter_inj (Text.not_mem_toString (by decide))
    (Text.not_mem_toString (by decide)) hlist
  exact ⟨String.toList_injective hsession, String.toList_injective hfrom,
    String.toList_injective hto,
    UInt64.toNat_inj.mp (Text.toString_nat_inj (String.toList_injective hsequence))⟩

end EncryptedPeerChannelFrame

--
-- The cipher
--

/-- What the channel relies on in the cipher: a sealed text opens, it is as long as what was sealed,
and characters stand for bytes. -/
structure ChannelCrypto.Seals (crypto : ChannelCrypto) : Prop where
  opens {plaintext key nonce aad ciphertext tag : String}
    (h : crypto.gcmEncrypt plaintext key nonce aad = some (ciphertext, tag)) :
    crypto.gcmDecrypt ciphertext key nonce tag aad = some plaintext
  length {plaintext key nonce aad ciphertext tag : String}
    (h : crypto.gcmEncrypt plaintext key nonce aad = some (ciphertext, tag)) :
    ciphertext.length = plaintext.length
  bytes {plaintext key nonce aad ciphertext tag : String}
    (h : crypto.gcmEncrypt plaintext key nonce aad = some (ciphertext, tag)) :
    (∀ c ∈ ciphertext.toList, c.toNat < 256) ∧ ∀ c ∈ tag.toList, c.toNat < 256

theorem cipherInput_prefix {text input : String} (h : cipherInput text = some input) :
    ∃ tail, input.toList ++ tail = text.toList := by
  unfold cipherInput at h
  split at h
  · cases h
    rw [String.toList_ofList]
    exact ⟨_, List.take_append_drop _ _⟩
  · cases h

theorem cipherInput_of_lt {text : String} (h : text.length < 2 ^ 31) :
    cipherInput text = some text := by
  unfold cipherInput
  rw [Nat.mod_eq_of_lt (by omega), if_pos h, ← String.length_toList, List.take_length,
    String.ofList_toList]

namespace ChannelCrypto

variable {crypto : ChannelCrypto}

theorem aesGcmSeal_eq_some {call : SealCall} {sealed : String × String}
    (h : crypto.aesGcmSeal call = some sealed) :
    call.key.length = 32 ∧ call.nonce.length = 12 ∧ ∃ input, cipherInput call.plaintext = some input
      ∧ crypto.gcmEncrypt input call.key call.nonce call.frameWithoutTag.aadPayload
        = some sealed := by
  unfold aesGcmSeal at h
  obtain ⟨hsizes, h⟩ := Guards.some_of_ite_none h
  simp only [Bool.or_eq_true, bne_iff_ne, ne_eq, not_or, Decidable.not_not] at hsizes
  cases hinput : cipherInput call.plaintext with
  | none =>
    rw [hinput] at h
    cases h
  | some input =>
    rw [hinput] at h
    exact ⟨hsizes.1, hsizes.2, input, rfl, h⟩

theorem aesGcmOpen_eq_some {call : OpenCall} {plaintext : String}
    (h : crypto.aesGcmOpen call = some plaintext) :
    ∃ input, cipherInput call.ciphertext = some input
      ∧ crypto.gcmDecrypt input call.key call.nonce call.tag call.aad = some plaintext := by
  unfold aesGcmOpen at h
  obtain ⟨-, h⟩ := Guards.some_of_ite_none h
  cases hinput : cipherInput call.ciphertext with
  | none =>
    rw [hinput] at h
    cases h
  | some input =>
    rw [hinput] at h
    exact ⟨input, rfl, h⟩

end ChannelCrypto

/-- The call opens what one of these calls sealed, under the same key, nonce and associated data. -/
def Unforged (crypto : ChannelCrypto) (sealings : List SealCall) (call : OpenCall) : Prop :=
  ∃ sealing ∈ sealings, sealing.key = call.key ∧ sealing.nonce = call.nonce
    ∧ sealing.frameWithoutTag.aadPayload = call.aad
    ∧ ∃ input, cipherInput call.ciphertext = some input
      ∧ crypto.aesGcmSeal sealing = some (input, call.tag)

/-- What is opened is what was sealed. -/
theorem Unforged.plaintext {crypto : ChannelCrypto} {sealings : List SealCall} {call : OpenCall}
    {plaintext : String} (hseals : crypto.Seals) (hunforged : Unforged crypto sealings call)
    (hopen : crypto.aesGcmOpen call = some plaintext) :
    ∃ sealing ∈ sealings, sealing.frameWithoutTag.aadPayload = call.aad
      ∧ (crypto.aesGcmSeal sealing).isSome = true
      ∧ ∃ tail, plaintext.toList ++ tail = sealing.plaintext.toList := by
  obtain ⟨sealing, hmem, hkey, hnonce, haad, input, hinput, hsealed⟩ := hunforged
  obtain ⟨input', hinput', hopened⟩ := ChannelCrypto.aesGcmOpen_eq_some hopen
  rw [hinput] at hinput'
  cases hinput'
  obtain ⟨-, -, taken, htaken, hencrypt⟩ := ChannelCrypto.aesGcmSeal_eq_some hsealed
  have hback := hseals.opens hencrypt
  rw [hkey, hnonce, haad, hopened] at hback
  cases hback
  exact ⟨sealing, hmem, haad, by rw [hsealed]; rfl, cipherInput_prefix htaken⟩

--
-- Sealing and opening
--

namespace EncryptedPeerSession

variable {crypto : ChannelCrypto} {session : EncryptedPeerSession} {envelope : NetworkEnvelope}
  {frame : EncryptedPeerChannelFrame} {call : SealCall}

/-- The call that `sealEnvelope` makes under a number. -/
structure Prepared (hashBytes : String → String) (session : EncryptedPeerSession)
    (call : SealCall) : Prop where
  sessionId : call.frameWithoutTag.sessionId = session.sessionId
  fromNodeId : call.frameWithoutTag.fromNodeId = session.localNodeId
  toNodeId : call.frameWithoutTag.toNodeId = session.remoteNodeId
  plaintext : ProtocolMessageCodec.encodeNetworkEnvelope call.envelope = .ok call.plaintext
  key : (session.deriveKeyMaterial hashBytes).bind decodeHex = .ok call.key
  nonceHex : session.nonceHex hashBytes call.frameWithoutTag.sequence
    = .ok call.frameWithoutTag.nonceHex
  nonce : decodeHex call.frameWithoutTag.nonceHex = .ok call.nonce

theorem prepareSeal_spec {hashBytes : String → String} {now : Int64} {sequence : UInt64}
    (h : session.prepareSeal hashBytes envelope now sequence = .ok call) :
    Prepared hashBytes session call ∧ call.envelope = envelope
      ∧ call.frameWithoutTag.sequence = sequence := by
  unfold prepareSeal at h
  obtain ⟨nonceHex, hnonceHex, h⟩ := Guards.ok_of_bind h
  obtain ⟨plaintext, hplaintext, h⟩ := Guards.ok_of_bind h
  obtain ⟨keyMaterial, hkeyMaterial, h⟩ := Guards.ok_of_bind h
  obtain ⟨key, hkey, h⟩ := Guards.ok_of_bind h
  obtain ⟨nonce, hnonce, h⟩ := Guards.ok_of_bind h
  cases h
  refine ⟨⟨rfl, rfl, rfl, hplaintext, ?_, hnonceHex, hnonce⟩, rfl, rfl⟩
  rw [hkeyMaterial]
  exact hkey

/-- A frame that opens: what was checked, and what the session becomes. -/
structure Opens (crypto : ChannelCrypto) (session : EncryptedPeerSession)
    (frame : EncryptedPeerChannelFrame) (envelope : NetworkEnvelope) : Prop where
  validSession : session.isValid = true
  validFrame : frame.isValid = true
  sessionId : frame.sessionId = session.sessionId
  fromNodeId : frame.fromNodeId = session.remoteNodeId
  toNodeId : frame.toNodeId = session.localNodeId
  sequence : session.lastInboundSequence < frame.sequence
  decrypted : session.decryptFrame crypto frame = .ok (some envelope)
  sender : envelope.senderNodeId = session.remoteNodeId

/-- **`openFrame` opens or refuses**, and a refusal leaves the session as it was. -/
theorem openFrame_cases (crypto : ChannelCrypto) (session : EncryptedPeerSession)
    (frame : EncryptedPeerChannelFrame) :
    (∃ envelope, Opens crypto session frame envelope ∧ session.openFrame crypto frame
        = (⟨.opened, "Encrypted peer frame opened successfully.", some envelope⟩,
          { session with lastInboundSequence := frame.sequence }))
      ∨ ((session.openFrame crypto frame).1.opened = false
        ∧ (session.openFrame crypto frame).2 = session) := by
  unfold openFrame
  split
  · exact .inr ⟨rfl, rfl⟩
  rename_i hsession
  split
  · exact .inr ⟨rfl, rfl⟩
  rename_i hframe
  split
  · exact .inr ⟨rfl, rfl⟩
  rename_i hdirection
  split
  · exact .inr ⟨rfl, rfl⟩
  rename_i hsequence
  split
  · exact .inr ⟨rfl, rfl⟩
  · exact .inr ⟨rfl, rfl⟩
  rename_i envelope hdecrypted
  split
  · exact .inr ⟨rfl, rfl⟩
  rename_i hsender
  simp only [Bool.or_eq_true, bne_iff_ne, ne_eq, not_or, Decidable.not_not] at hdirection
  refine .inl ⟨envelope, ⟨by simpa using hsession, by simpa using hframe, hdirection.1.1,
    hdirection.1.2, hdirection.2, ?_, hdecrypted, by simpa using hsender⟩, rfl⟩
  rw [UInt64.lt_iff_toNat_lt]
  rw [UInt64.le_iff_toNat_le] at hsequence
  omega

theorem openFrame_of_opens (h : Opens crypto session frame envelope) :
    session.openFrame crypto frame
      = (⟨.opened, "Encrypted peer frame opened successfully.", some envelope⟩,
        { session with lastInboundSequence := frame.sequence }) := by
  have hsequence := h.sequence
  rw [UInt64.lt_iff_toNat_lt] at hsequence
  unfold openFrame
  rw [if_neg (by simp [h.validSession]), if_neg (by simp [h.validFrame]),
    if_neg (by simp [h.sessionId, h.fromNodeId, h.toNodeId]),
    if_neg (by rw [UInt64.le_iff_toNat_le]; omega), h.decrypted]
  dsimp only
  rw [if_neg (by simp [h.sender])]

/-- A frame that is not opened, for whatever reason, leaves the session as it was. -/
theorem openFrame_refused (h : (session.openFrame crypto frame).1.opened = false) :
    (session.openFrame crypto frame).2 = session := by
  rcases openFrame_cases crypto session frame with ⟨envelope, -, hopen⟩ | ⟨-, hsame⟩
  · rw [hopen] at h
    cases h
  · exact hsame

end EncryptedPeerSession

end Nodo.Model
