import Nodo.Model.CommitStorage

/-!
# Nodo — envelopes of the network

`p2p/NetworkEnvelope.cpp`: the messages that peers exchange. The message id and the payload
hash of an envelope are functions of its other fields, which its constructor computes; they
are no fields here, and the two checks that compare them are left out.
-/

namespace Nodo.Model

inductive NetworkMessageType
  | unknown
  | ping
  | pong
  | peerChallenge
  | peerHello
  | peerStatus
  | peerExchange
  | transactionAnnounce
  | transactionRequest
  | transactionResponse
  | transactionGossip
  | blockAnnounce
  | blockRequest
  | blockResponse
  | blockProposal
  | voteAnnounce
  | validatorVote
  | quorumCertificateAnnounce
  | quorumCertificate
  | finalizedBlockArtifact
  | chainStatus
  | blockSyncRequest
  | blockSyncResponse
  | slashingEvidenceAnnounce
  | slashingEvidenceInventory
  | slashingEvidenceRequest
  | slashingEvidenceResponse
  deriving DecidableEq, Repr

def networkMessageTypeToString : NetworkMessageType → String
  | .ping => "PING"
  | .pong => "PONG"
  | .peerChallenge => "PEER_CHALLENGE"
  | .peerHello => "PEER_HELLO"
  | .peerStatus => "PEER_STATUS"
  | .peerExchange => "PEER_EXCHANGE"
  | .transactionAnnounce => "TRANSACTION_ANNOUNCE"
  | .transactionRequest => "TRANSACTION_REQUEST"
  | .transactionResponse => "TRANSACTION_RESPONSE"
  | .transactionGossip => "TRANSACTION_GOSSIP"
  | .blockAnnounce => "BLOCK_ANNOUNCE"
  | .blockRequest => "BLOCK_REQUEST"
  | .blockResponse => "BLOCK_RESPONSE"
  | .blockProposal => "BLOCK_PROPOSAL"
  | .voteAnnounce => "VOTE_ANNOUNCE"
  | .validatorVote => "VALIDATOR_VOTE"
  | .quorumCertificateAnnounce => "QUORUM_CERTIFICATE_ANNOUNCE"
  | .quorumCertificate => "QUORUM_CERTIFICATE"
  | .finalizedBlockArtifact => "FINALIZED_BLOCK_ARTIFACT"
  | .chainStatus => "CHAIN_STATUS"
  | .blockSyncRequest => "BLOCK_SYNC_REQUEST"
  | .blockSyncResponse => "BLOCK_SYNC_RESPONSE"
  | .slashingEvidenceAnnounce => "SLASHING_EVIDENCE_ANNOUNCE"
  | .slashingEvidenceInventory => "SLASHING_EVIDENCE_INVENTORY"
  | .slashingEvidenceRequest => "SLASHING_EVIDENCE_REQUEST"
  | .slashingEvidenceResponse => "SLASHING_EVIDENCE_RESPONSE"
  | .unknown => "UNKNOWN"

def networkMessageTypeFromString (value : String) : NetworkMessageType :=
  if value = "PING" then .ping
  else if value = "PONG" then .pong
  else if value = "PEER_CHALLENGE" then .peerChallenge
  else if value = "PEER_HELLO" then .peerHello
  else if value = "PEER_STATUS" then .peerStatus
  else if value = "PEER_EXCHANGE" then .peerExchange
  else if value = "TRANSACTION_ANNOUNCE" then .transactionAnnounce
  else if value = "TRANSACTION_REQUEST" then .transactionRequest
  else if value = "TRANSACTION_RESPONSE" then .transactionResponse
  else if value = "TRANSACTION_GOSSIP" then .transactionGossip
  else if value = "BLOCK_ANNOUNCE" then .blockAnnounce
  else if value = "BLOCK_REQUEST" then .blockRequest
  else if value = "BLOCK_RESPONSE" then .blockResponse
  else if value = "BLOCK_PROPOSAL" then .blockProposal
  else if value = "VOTE_ANNOUNCE" then .voteAnnounce
  else if value = "VALIDATOR_VOTE" then .validatorVote
  else if value = "QUORUM_CERTIFICATE_ANNOUNCE" then .quorumCertificateAnnounce
  else if value = "QUORUM_CERTIFICATE" then .quorumCertificate
  else if value = "FINALIZED_BLOCK_ARTIFACT" then .finalizedBlockArtifact
  else if value = "CHAIN_STATUS" then .chainStatus
  else if value = "BLOCK_SYNC_REQUEST" then .blockSyncRequest
  else if value = "BLOCK_SYNC_RESPONSE" then .blockSyncResponse
  else if value = "SLASHING_EVIDENCE_ANNOUNCE" then .slashingEvidenceAnnounce
  else if value = "SLASHING_EVIDENCE_INVENTORY" then .slashingEvidenceInventory
  else if value = "SLASHING_EVIDENCE_REQUEST" then .slashingEvidenceRequest
  else if value = "SLASHING_EVIDENCE_RESPONSE" then .slashingEvidenceResponse
  else .unknown

structure NetworkEnvelope where
  networkId : String
  chainId : String
  protocolVersion : String
  messageType : NetworkMessageType
  senderNodeId : String
  createdAt : Int64
  ttlSeconds : UInt32
  payload : String
  deriving DecidableEq

namespace NetworkEnvelope

/-- `isSafeScalar` of `p2p/NetworkEnvelope.cpp`. -/
def isSafeField (value : String) : Bool :=
  isSafeIdentifier "_-.:/" value && value.length ≤ 160

def isStructurallyValid (envelope : NetworkEnvelope) (maxPayloadBytes : Nat) : Bool :=
  isSafeField envelope.networkId && isSafeField envelope.chainId
    && isSafeField envelope.protocolVersion && isSafeField envelope.senderNodeId
    && envelope.messageType != .unknown && 0 < envelope.createdAt && 0 < envelope.ttlSeconds
    && envelope.payload.length ≤ maxPayloadBytes

def expiredAt (envelope : NetworkEnvelope) (now : Int) : Bool :=
  if now ≤ 0 || envelope.createdAt.toInt ≤ 0 then true
  else envelope.createdAt.toInt < now && (envelope.ttlSeconds.toNat : Int) < now - envelope.createdAt.toInt

section
variable (hashBytes : String → String)

/-- `hashPayload`. -/
def payloadHash (envelope : NetworkEnvelope) : String :=
  hashBytes (cString ("NODO_NETWORK_PAYLOAD_V1|" ++ envelope.payload))

def signingPayload (envelope : NetworkEnvelope) : String :=
  "NodoNetworkEnvelopeSigningPayload\x7bnetworkId=" ++ envelope.networkId ++ ";chainId="
    ++ envelope.chainId ++ ";protocolVersion=" ++ envelope.protocolVersion ++ ";messageType="
    ++ networkMessageTypeToString envelope.messageType ++ ";senderNodeId=" ++ envelope.senderNodeId
    ++ ";createdAt=" ++ toString envelope.createdAt.toInt ++ ";ttlSeconds="
    ++ toString envelope.ttlSeconds.toNat ++ ";payloadHash=" ++ envelope.payloadHash hashBytes ++ "\x7d"

/-- `computeMessageId`. -/
def messageId (envelope : NetworkEnvelope) : String :=
  hashBytes (cString (envelope.signingPayload hashBytes))

end

end NetworkEnvelope

end Nodo.Model
