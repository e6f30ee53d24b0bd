import Nodo.Model.GovernancePayload
import Nodo.Model.NetworkEnvelope

/-!
# Nodo — envelopes as bytes

`serialization/ProtocolMessageCodec.cpp` for envelopes: a header, then the fields one after
another, strings with their size in front. The reader refuses fields above 16 MiB, so a long
envelope is written and not read.

## Results

* `decode_encode` — bytes that were written and are accepted are read back as what was written.
* `decode_encode_of_fits` — they are accepted where every string fits the reader.
* `ignoresTail_readNetworkEnvelope` — what follows an envelope does not change what is read.
-/

namespace Nodo.Model

open ThrowingState

--
-- More canonical fields
--

namespace CanonicalReader

def readUInt32 : CanonicalReader UInt32 := do
  let value ← readUInt 4
  pure value.toUInt32

theorem readUInt32_append {value : Nat} (hvalue : value < 2 ^ 32) (rest : List Char) :
    readUInt32 ((CanonicalWriter.writeUInt32 value).toList ++ rest) = .ok value.toUInt32 rest := by
  unfold readUInt32 CanonicalWriter.writeUInt32
  rw [String.toList_ofList, run_bind (readUInt_append (by rfl))]
  have hfold : [Char.ofNat (value / 2 ^ 24 % 256), Char.ofNat (value / 2 ^ 16 % 256),
      Char.ofNat (value / 2 ^ 8 % 256), Char.ofNat (value % 256)].foldl
        (fun value byte => value * 256 + byte.toNat) 0 = value := by
    simp only [List.foldl_cons, List.foldl_nil, toNat_byte]
    omega
  rw [hfold]
  rfl

/-- A signed value of either sign is read back. -/
theorem readInt64_write (value : Int64) (rest : List Char) :
    readInt64 ((CanonicalWriter.writeInt64 value.toInt).toList ++ rest) = .ok value.toInt rest := by
  have hlow := value.le_toInt
  have hhigh := value.toInt_lt
  unfold readInt64 CanonicalWriter.writeInt64
  rw [run_bind (readUInt64_append _ rest)]
  have hnat : ((value.toInt % 2 ^ 64).toNat.toUInt64).toNat = (value.toInt % 2 ^ 64).toNat := by
    rw [Nat.toUInt64_eq, UInt64.toNat_ofNat']
    omega
  show EStateM.Result.ok _ rest = .ok value.toInt rest
  congr 1
  rw [hnat]
  split <;> omega

/-- A written string that is read was within the limit, and is read as it was written. -/
theorem readString_written {value text read : String} {limit : Nat} {rest left : List Char}
    (hwritten : CanonicalWriter.writeString value = some text)
    (h : readString limit (text.toList ++ rest) = .ok read left) : read = value ∧ left = rest := by
  by_cases hlimit : value.length ≤ limit
  · rw [readString_append hlimit hwritten] at h
    cases h
    exact ⟨rfl, rfl⟩
  · unfold CanonicalWriter.writeString at hwritten
    obtain ⟨hsize, hwritten⟩ := Guards.some_of_ite_none hwritten
    cases hwritten
    have hfold : [Char.ofNat (value.length / 2 ^ 24 % 256),
        Char.ofNat (value.length / 2 ^ 16 % 256), Char.ofNat (value.length / 2 ^ 8 % 256),
        Char.ofNat (value.length % 256)].foldl
          (fun value byte => value * 256 + byte.toNat) 0 = value.length := by
      simp only [List.foldl_cons, List.foldl_nil, toNat_byte]
      omega
    unfold CanonicalWriter.writeUInt32 readString at h
    rw [String.toList_append, String.toList_ofList, List.append_assoc,
      run_bind (readUInt_append (by rfl)), hfold] at h
    obtain ⟨hwithin, -⟩ := passed_refuseIf h
    simp only [decide_eq_false_iff_not, not_lt] at hwithin
    exact absurd hwithin hlimit

/-- Bytes behind what a reader consumed do not change what it read. -/
def IgnoresTail {α : Type} (reader : CanonicalReader α) : Prop :=
  ∀ {bytes rest : List Char} {value : α}, reader bytes = .ok value rest →
    ∀ tail, reader (bytes ++ tail) = .ok value (rest ++ tail)

theorem IgnoresTail.bind {α β : Type} {reader : CanonicalReader α} {next : α → CanonicalReader β}
    (h : IgnoresTail reader) (hnext : ∀ a, IgnoresTail (next a)) : IgnoresTail (reader >>= next) := by
  intro bytes rest value hread tail
  obtain ⟨a, between, hfirst, hrest⟩ := ok_of_bind hread
  rw [run_bind (h hfirst tail)]
  exact hnext a hrest tail

theorem ignoresTail_pure {α : Type} (value : α) : IgnoresTail (pure value) := by
  intro bytes rest value' hread tail
  cases hread
  rfl

theorem ignoresTail_refuseIf (bad : Bool) (message : String) : IgnoresTail (refuseIf bad message) := by
  intro bytes rest value hread tail
  obtain ⟨rfl, rfl⟩ := ok_of_refuseIf hread
  rfl

theorem ignoresTail_readUInt (count : Nat) : IgnoresTail (readUInt count) := by
  intro bytes rest value hread tail
  unfold readUInt at hread ⊢
  split at hread
  · cases hread
  · cases hread
    rw [if_neg (by rw [List.length_append]; omega), List.take_append_of_le_length (by omega),
      List.drop_append_of_le_length (by omega)]

theorem ignoresTail_readUInt32 : IgnoresTail readUInt32 :=
  IgnoresTail.bind (ignoresTail_readUInt 4) fun _ => ignoresTail_pure _

theorem ignoresTail_readInt64 : IgnoresTail readInt64 :=
  IgnoresTail.bind (IgnoresTail.bind (ignoresTail_readUInt 8) fun _ => ignoresTail_pure _)
    fun _ => ignoresTail_pure _

theorem ignoresTail_readString (limit : Nat) : IgnoresTail (readString limit) := by
  refine IgnoresTail.bind (ignoresTail_readUInt 4) fun length => ?_
  refine IgnoresTail.bind (ignoresTail_refuseIf _ _) fun _ => ?_
  intro bytes rest value hread tail
  rw [run_get] at hread
  obtain ⟨hsize, hread⟩ := passed_refuseIf hread
  rw [run_set] at hread
  simp only [decide_eq_false_iff_not, not_lt] at hsize
  cases hread
  rw [run_get, run_refuseIf (by rw [List.length_append]; simpa using by omega), run_set,
    List.take_append_of_le_length hsize, List.drop_append_of_le_length hsize]
  rfl

end CanonicalReader

--
-- The codec
--

namespace ProtocolMessageCodec

def codecVersion : String := "NODO_CANONICAL_PROTOCOL_V1"

def maxProtocolFieldBytes : Nat := 16 * 1024 * 1024

/-- The message types in the order of their numbers. -/
def messageTypes : List NetworkMessageType :=
  [.unknown, .ping, .pong, .peerChallenge, .peerHello, .peerStatus, .peerExchange,
    .transactionAnnounce, .transactionRequest, .transactionResponse, .transactionGossip,
    .blockAnnounce, .blockRequest, .blockResponse, .blockProposal, .voteAnnounce, .validatorVote,
    .quorumCertificateAnnounce, .quorumCertificate, .finalizedBlockArtifact, .chainStatus,
    .blockSyncRequest, .blockSyncResponse, .slashingEvidenceAnnounce, .slashingEvidenceInventory,
    .slashingEvidenceRequest, .slashingEvidenceResponse]

def encodeMessageType (type : NetworkMessageType) : Nat := messageTypes.idxOf type

def decodeMessageType (value : UInt32) : NetworkMessageType :=
  messageTypes.getD value.toNat .unknown

/-- The exception of a string that is too long to be written. -/
def writeString (value : String) : Except String String :=
  match CanonicalWriter.writeString value with
  | none => .error "Canonical string field is too large."
  | some text => .ok text

def encodeNetworkEnvelope (envelope : NetworkEnvelope) : Except String String := do
  let version ← writeString codecVersion
  let type ← writeString "NetworkEnvelope"
  let networkId ← writeString envelope.networkId
  let chainId ← writeString envelope.chainId
  let protocolVersion ← writeString envelope.protocolVersion
  let senderNodeId ← writeString envelope.senderNodeId
  let payload ← writeString envelope.payload
  .ok (version ++ type ++ networkId ++ chainId ++ protocolVersion
    ++ CanonicalWriter.writeUInt32 (encodeMessageType envelope.messageType) ++ senderNodeId
    ++ CanonicalWriter.writeInt64 envelope.createdAt.toInt
    ++ CanonicalWriter.writeUInt32 envelope.ttlSeconds.toNat ++ payload)

/-- `readHeader`, then the fields. -/
def readNetworkEnvelope : CanonicalReader NetworkEnvelope := do
  let version ← CanonicalReader.readString maxProtocolFieldBytes
  let type ← CanonicalReader.readString maxProtocolFieldBytes
  refuseIf (version != codecVersion) "Unsupported canonical protocol codec version."
  refuseIf (type != "NetworkEnvelope") "Unexpected canonical protocol message type."
  let networkId ← CanonicalReader.readString maxProtocolFieldBytes
  let chainId ← CanonicalReader.readString maxProtocolFieldBytes
  let protocolVersion ← CanonicalReader.readString maxProtocolFieldBytes
  let messageType ← CanonicalReader.readUInt32
  let senderNodeId ← CanonicalReader.readString maxProtocolFieldBytes
  let createdAt ← CanonicalReader.readInt64
  let ttlSeconds ← CanonicalReader.readUInt32
  let payload ← CanonicalReader.readString maxProtocolFieldBytes
  pure
    { networkId, chainId, protocolVersion, messageType := decodeMessageType messageType
      senderNodeId, createdAt := Int64.ofInt createdAt, ttlSeconds, payload }

def decodeNetworkEnvelope (bytes : String) : Except String NetworkEnvelope :=
  match readNetworkEnvelope bytes.toList with
  | .error message _ => .error message
  | .ok envelope rest =>
    if !rest.isEmpty then .error "Canonical payload contains trailing bytes."
    else .ok envelope

--
-- Round trip
--

variable {envelope decoded : NetworkEnvelope} {bytes : String}

theorem encodeMessageType_lt (type : NetworkMessageType) : encodeMessageType type < 2 ^ 32 := by
  cases type <;> decide

theorem decodeMessageType_encodeMessageType (type : NetworkMessageType) :
    decodeMessageType (encodeMessageType type).toUInt32 = type := by
  cases type <;> rfl

theorem writeString_eq_ok {value text : String} :
    writeString value = .ok text ↔ CanonicalWriter.writeString value = some text := by
  unfold writeString
  cases CanonicalWriter.writeString value <;> simp

/-- The strings of an envelope, with their sizes in front. -/
structure Written (envelope : NetworkEnvelope) (bytes : String) where
  (version type networkId chainId protocolVersion senderNodeId payload : String)
  hversion : CanonicalWriter.writeString codecVersion = some version
  htype : CanonicalWriter.writeString "NetworkEnvelope" = some type
  hnetworkId : CanonicalWriter.writeString envelope.networkId = some networkId
  hchainId : CanonicalWriter.writeString envelope.chainId = some chainId
  hprotocolVersion : CanonicalWriter.writeString envelope.protocolVersion = some protocolVersion
  hsenderNodeId : CanonicalWriter.writeString envelope.senderNodeId = some senderNodeId
  hpayload : CanonicalWriter.writeString envelope.payload = some payload
  hbytes : bytes.toList = version.toList ++ (type.toList ++ (networkId.toList ++ (chainId.toList
    ++ (protocolVersion.toList
      ++ ((CanonicalWriter.writeUInt32 (encodeMessageType envelope.messageType)).toList
        ++ (senderNodeId.toList
          ++ ((CanonicalWriter.writeInt64 envelope.createdAt.toInt).toList
            ++ ((CanonicalWriter.writeUInt32 envelope.ttlSeconds.toNat).toList
              ++ (payload.toList ++ [])))))))))

theorem written_of_encode (h : encodeNetworkEnvelope envelope = .ok bytes) :
    Nonempty (Written envelope bytes) := by
  unfold encodeNetworkEnvelope at h
  obtain ⟨version, hversion, h⟩ := Guards.ok_of_bind h
  obtain ⟨type, htype, h⟩ := Guards.ok_of_bind h
  obtain ⟨networkId, hnetworkId, h⟩ := Guards.ok_of_bind h
  obtain ⟨chainId, hchainId, h⟩ := Guards.ok_of_bind h
  obtain ⟨protocolVersion, hprotocolVersion, h⟩ := Guards.ok_of_bind h
  obtain ⟨senderNodeId, hsenderNodeId, h⟩ := Guards.ok_of_bind h
  obtain ⟨payload, hpayload, h⟩ := Guards.ok_of_bind h
  cases h
  exact ⟨version, type, networkId, chainId, protocolVersion, senderNodeId, payload,
    writeString_eq_ok.mp hversion, writeString_eq_ok.mp htype, writeString_eq_ok.mp hnetworkId,
    writeString_eq_ok.mp hchainId, writeString_eq_ok.mp hprotocolVersion,
    writeString_eq_ok.mp hsenderNodeId, writeString_eq_ok.mp hpayload,
    by simp only [String.toList_append, List.append_assoc, List.append_nil]⟩

/-- Reading written bytes gives the envelope, or stops with an error. -/
theorem read_written {rest : List Char} (written : Written envelope bytes)
    (hread : readNetworkEnvelope bytes.toList = .ok decoded rest) :
    decoded = envelope ∧ rest = [] := by
  rw [written.hbytes] at hread
  unfold readNetworkEnvelope at hread
  obtain ⟨version, s, hstep, hread⟩ := ok_of_bind hread
  obtain ⟨-, rfl⟩ := CanonicalReader.readString_written written.hversion hstep
  obtain ⟨type, s, hstep, hread⟩ := ok_of_bind hread
  obtain ⟨-, rfl⟩ := CanonicalReader.readString_written written.htype hstep
  obtain ⟨-, hread⟩ := passed_refuseIf hread
  obtain ⟨-, hread⟩ := passed_refuseIf hread
  obtain ⟨networkId, s, hstep, hread⟩ := ok_of_bind hread
  obtain ⟨rfl, rfl⟩ := CanonicalReader.readString_written written.hnetworkId hstep
  obtain ⟨chainId, s, hstep, hread⟩ := ok_of_bind hread
  obtain ⟨rfl, rfl⟩ := CanonicalReader.readString_written written.hchainId hstep
  obtain ⟨protocolVersion, s, hstep, hread⟩ := ok_of_bind hread
  obtain ⟨rfl, rfl⟩ := CanonicalReader.readString_written written.hprotocolVersion hstep
  rw [run_bind (CanonicalReader.readUInt32_append (encodeMessageType_lt _) _)] at hread
  obtain ⟨senderNodeId, s, hstep, hread⟩ := ok_of_bind hread
  obtain ⟨rfl, rfl⟩ := CanonicalReader.readString_written written.hsenderNodeId hstep
  rw [run_bind (CanonicalReader.readInt64_write _ _),
    run_bind (CanonicalReader.readUInt32_append (UInt32.toNat_lt _) _)] at hread
  obtain ⟨payload, s, hstep, hread⟩ := ok_of_bind hread
  obtain ⟨rfl, rfl⟩ := CanonicalReader.readString_written written.hpayload hstep
  cases hread
  simp only [decodeMessageType_encodeMessageType, Int64.ofInt_toInt, Nat.toUInt32_eq,
    UInt32.ofNat_toNat, and_self]

open CanonicalReader in
theorem ignoresTail_readNetworkEnvelope : IgnoresTail readNetworkEnvelope := by
  refine IgnoresTail.bind (ignoresTail_readString _) fun version => ?_
  refine IgnoresTail.bind (ignoresTail_readString _) fun type => ?_
  refine IgnoresTail.bind (ignoresTail_refuseIf _ _) fun _ => ?_
  refine IgnoresTail.bind (ignoresTail_refuseIf _ _) fun _ => ?_
  refine IgnoresTail.bind (ignoresTail_readString _) fun networkId => ?_
  refine IgnoresTail.bind (ignoresTail_readString _) fun chainId => ?_
  refine IgnoresTail.bind (ignoresTail_readString _) fun protocolVersion => ?_
  refine IgnoresTail.bind ignoresTail_readUInt32 fun messageType => ?_
  refine IgnoresTail.bind (ignoresTail_readString _) fun senderNodeId => ?_
  refine IgnoresTail.bind ignoresTail_readInt64 fun createdAt => ?_
  refine IgnoresTail.bind ignoresTail_readUInt32 fun ttlSeconds => ?_
  exact IgnoresTail.bind (ignoresTail_readString _) fun payload => ignoresTail_pure _

/-- **What is accepted was written so**: decoding a part of the bytes of an envelope, from their
beginning, gives that envelope or an error. -/
theorem decode_encode {part : String} {tail : List Char}
    (hencode : encodeNetworkEnvelope envelope = .ok bytes)
    (hpart : part.toList ++ tail = bytes.toList)
    (hdecode : decodeNetworkEnvelope part = .ok decoded) : decoded = envelope := by
  obtain ⟨written⟩ := written_of_encode hencode
  unfold decodeNetworkEnvelope at hdecode
  cases hread : readNetworkEnvelope part.toList with
  | error message rest =>
    rw [hread] at hdecode
    cases hdecode
  | ok envelope' rest =>
    rw [hread] at hdecode
    obtain ⟨-, hdecode⟩ := Guards.ok_of_ite_error hdecode
    cases hdecode
    have hwhole := ignoresTail_readNetworkEnvelope hread tail
    rw [hpart] at hwhole
    exact (read_written written hwhole).1

/-- The strings of an envelope are within the limit of the reader. -/
structure Fits (envelope : NetworkEnvelope) : Prop where
  networkId : envelope.networkId.length ≤ maxProtocolFieldBytes
  chainId : envelope.chainId.length ≤ maxProtocolFieldBytes
  protocolVersion : envelope.protocolVersion.length ≤ maxProtocolFieldBytes
  senderNodeId : envelope.senderNodeId.length ≤ maxProtocolFieldBytes
  payload : envelope.payload.length ≤ maxProtocolFieldBytes

/-- The bytes of an envelope that fits are accepted. -/
theorem decode_encode_of_fits (hencode : encodeNetworkEnvelope envelope = .ok bytes)
    (hfits : Fits envelope) : decodeNetworkEnvelope bytes = .ok envelope := by
  obtain ⟨written⟩ := written_of_encode hencode
  have hread : readNetworkEnvelope bytes.toList = .ok envelope [] := by
    rw [written.hbytes]
    unfold readNetworkEnvelope
    rw [run_bind (CanonicalReader.readString_append (by decide) written.hversion _),
      run_bind (CanonicalReader.readString_append (by decide) written.htype _),
      run_refuseIf (by decide), run_refuseIf (by decide),
      run_bind (CanonicalReader.readString_append hfits.networkId written.hnetworkId _),
      run_bind (CanonicalReader.readString_append hfits.chainId written.hchainId _),
      run_bind (CanonicalReader.readString_append hfits.protocolVersion written.hprotocolVersion _),
      run_bind (CanonicalReader.readUInt32_append (encodeMessageType_lt _) _),
      run_bind (CanonicalReader.readString_append hfits.senderNodeId written.hsenderNodeId _),
      run_bind (CanonicalReader.readInt64_write _ _),
      run_bind (CanonicalReader.readUInt32_append (UInt32.toNat_lt _) _),
      run_bind (CanonicalReader.readString_append hfits.payload written.hpayload _)]
    simp only [decodeMessageType_encodeMessageType, Int64.ofInt_toInt, Nat.toUInt32_eq,
      UInt32.ofNat_toNat]
    rfl
  unfold decodeNetworkEnvelope
  rw [hread]
  rfl

theorem length_of_writeString {value text : String}
    (h : CanonicalWriter.writeString value = some text) : text.length = 4 + value.length := by
  unfold CanonicalWriter.writeString at h
  obtain ⟨-, h⟩ := Guards.some_of_ite_none h
  cases h
  rw [← String.length_toList, String.toList_append, List.length_append,
    CanonicalWriter.length_writeUInt32, String.length_toList]

/-- An envelope that fits takes far less than 2 GiB. -/
theorem length_lt_of_fits (hencode : encodeNetworkEnvelope envelope = .ok bytes)
    (hfits : Fits envelope) : bytes.length < 2 ^ 31 := by
  obtain ⟨written⟩ := written_of_encode hencode
  have hversion := length_of_writeString written.hversion
  have htype := length_of_writeString written.htype
  have hnetworkId := length_of_writeString written.hnetworkId
  have hchainId := length_of_writeString written.hchainId
  have hprotocolVersion := length_of_writeString written.hprotocolVersion
  have hsenderNodeId := length_of_writeString written.hsenderNodeId
  have hpayload := length_of_writeString written.hpayload
  have hbytes := congrArg List.length written.hbytes
  have hcreatedAt : (CanonicalWriter.writeInt64 envelope.createdAt.toInt).length = 8 := by
    rw [← String.length_toList, CanonicalWriter.writeInt64, CanonicalWriter.writeUInt64,
      String.toList_ofList]
    rfl
  have hword : ∀ value, (CanonicalWriter.writeUInt32 value).length = 4 := by
    intro value
    rw [← String.length_toList, CanonicalWriter.length_writeUInt32]
  simp only [List.length_append, String.length_toList, hcreatedAt, hword, List.length_nil] at hbytes
  have hnames : codecVersion.length = 26 ∧ "NetworkEnvelope".length = 15 := by decide
  obtain ⟨hnetworkId', hchainId', hprotocolVersion', hsenderNodeId', hpayload'⟩ := hfits
  unfold maxProtocolFieldBytes at hnetworkId' hchainId' hprotocolVersion' hsenderNodeId' hpayload'
  omega

end ProtocolMessageCodec

end Nodo.Model
