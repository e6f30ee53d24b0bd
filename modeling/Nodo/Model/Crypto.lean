import Mathlib.Data.String.Basic

/-!
# Nodo — keys, signatures, and the data they bind

The records that validators sign and register (`consensus/ValidatorVoteRecord`,
`core/ValidatorRegistry`) with the keys and signatures they carry. The
primitives of `crypto/` (key shapes, hashing of canonical text, address
derivation, the signature scheme) are the fields of a `CryptoContext`; each is
a function of the value whose canonical text the source hashes or signs.
-/

namespace Nodo.Model

--
-- Delimiter-safe text (utils/SafeScalar.hpp)
--

/-- `utils::isSafeDelimitedText(value, npos, ";{}[]\n\r\t")`: non-empty and free
of the delimiters of the text codecs. -/
def isSafeScalar (value : String) : Bool :=
  !value.isEmpty &&
    !value.toList.any (fun c => [';', '{', '}', '[', ']', '\n', '\r', '\t'].contains c)

--
-- Keys and signatures
--

inductive CryptoAlgorithm
  | developmentFakeSignature
  | classicEd25519
  | classicEcdsaSecp256k1
  | bls12381
  deriving DecidableEq, Repr

inductive CryptoSuiteId
  | unknown
  | nodoCryptoSuiteV1
  deriving DecidableEq, Repr

inductive SigningDomain
  | unknown
  | peerHandshake
  | userTransaction
  | validatorVote
  | quorumCertificate
  | mintAuthorization
  | treasuryProposal
  | governanceVote
  | validatorBlockProposal
  | archivalProof
  deriving DecidableEq, Repr

structure PublicKey where
  algorithm : CryptoAlgorithm
  keyMaterial : String
  deriving DecidableEq, Repr

structure Signature where
  suite : CryptoSuiteId
  domain : SigningDomain
  algorithm : CryptoAlgorithm
  publicKey : PublicKey
  signatureHex : String
  createdAt : Int
  deriving DecidableEq, Repr

/-- `SignatureBundle::m_signatures`. -/
abbrev SignatureBundle := List Signature

--
-- Votes
--

inductive ValidatorVoteDecision
  | unknown
  | reject
  | prevote
  | precommit
  deriving DecidableEq, Repr

/-- The fields of `ValidatorVoteRecord::buildSigningPayload`: what a validator
signs. -/
structure VoteSigningPayload where
  validatorAddress : String
  validatorPublicKey : PublicKey
  blockIndex : Nat
  blockHash : String
  previousHash : String
  round : Nat
  decision : ValidatorVoteDecision
  reasonHash : String
  createdAt : Int
  deriving DecidableEq, Repr

structure ValidatorVoteRecord extends VoteSigningPayload where
  signatureBundle : SignatureBundle
  deriving DecidableEq, Repr

--
-- Validator registration
--

inductive ValidatorRegistrationStatus
  | unknown
  | pendingActivation
  | active
  | jailed
  | exitRequested
  | exited
  | deactivated
  deriving DecidableEq, Repr

structure ValidatorRegistrationRecord where
  validatorAddress : String
  validatorPublicKey : PublicKey
  activationEpoch : Nat
  metadataHash : String
  registeredAt : Int
  deriving DecidableEq, Repr

structure ValidatorRegistryEntry where
  registrationRecord : ValidatorRegistrationRecord
  status : ValidatorRegistrationStatus
  lastUpdatedAt : Int
  stakeAmount : UInt64
  jailUntilEpoch : Nat
  exitRequestHeight : Nat
  ownerAddress : String
  deriving DecidableEq, Repr

--
-- Primitives
--

/-- The policy flag and the primitives that the protocol takes from `crypto/`. -/
structure CryptoContext where
  /-- `CryptoPolicy::developmentMode()`. -/
  developmentMode : Bool
  /-- `PublicKey::isValid`: the key material has the shape its algorithm asks for. -/
  publicKeyIsValid : PublicKey → Bool
  /-- `PublicKey::fingerprint`: the hash of the serialized key. -/
  fingerprint : PublicKey → String
  /-- `Address::isValid` on `Address::fromString`. -/
  addressIsValid : String → Bool
  /-- `AddressDerivation::deriveFromPublicKey`. -/
  deriveFromPublicKey : PublicKey → String
  /-- `SignatureProvider::algorithm()` of the validator provider. -/
  providerAlgorithm : CryptoAlgorithm
  /-- `SignatureProvider::verify(signingPayload, signature).success()`. -/
  providerVerify : VoteSigningPayload → Signature → Bool
  /-- `ValidatorVoteRecord::deterministicId`: the hash of the serialized vote. -/
  voteRecordId : ValidatorVoteRecord → String
  /-- `DoubleVoteEvidence::payloadHash`: the hash of the two serialized votes. -/
  doubleVotePayloadHash : ValidatorVoteRecord → ValidatorVoteRecord → String
  /-- The hash of a payload hash, as `DoubleVoteEvidence::evidenceId` takes it. -/
  doubleVoteEvidenceId : String → String
  /-- The hash of the serialized entries, as `ValidatorRegistry::validatorSetRoot`
  takes it. -/
  registryDigest : List (String × ValidatorRegistryEntry) → String

namespace CryptoContext

/-- `AddressDerivation::verifyAddressForPublicKey`. -/
def verifyAddressForPublicKey (crypto : CryptoContext) (address : String)
    (key : PublicKey) : Bool :=
  crypto.addressIsValid address && crypto.publicKeyIsValid key
    && address == crypto.deriveFromPublicKey key

/-- One hexadecimal digit, of either case. -/
def isHexDigit (c : Char) : Bool :=
  ('0' ≤ c && c ≤ '9') || ('a' ≤ c && c ≤ 'f') || ('A' ≤ c && c ≤ 'F')

/-- `Signature::isValid`. -/
def signatureIsValid (crypto : CryptoContext) (signature : Signature) : Bool :=
  signature.suite == .nodoCryptoSuiteV1
    && signature.domain != .unknown
    && crypto.publicKeyIsValid signature.publicKey
    && !signature.signatureHex.isEmpty && signature.signatureHex.toList.all isHexDigit
    && 0 < signature.createdAt
    && signature.algorithm == signature.publicKey.algorithm

/-- `CryptoPolicy::isAlgorithmAllowed(algorithm, VALIDATOR_OPERATION)`: the
development-only algorithm needs another context, so BLS is what remains. -/
def isValidatorAlgorithmAllowed (algorithm : CryptoAlgorithm) : Bool :=
  algorithm == .bls12381

/-- `isSigningDomainAllowedForContext(domain, VALIDATOR_OPERATION)`. -/
def isValidatorDomainAllowed (domain : SigningDomain) : Bool :=
  domain == .validatorVote || domain == .validatorBlockProposal || domain == .quorumCertificate

/-- `SignatureBundle::isValidForPolicy(policy, VALIDATOR_OPERATION)`. -/
def bundleIsValidForPolicy (crypto : CryptoContext) (bundle : SignatureBundle) : Bool :=
  !bundle.isEmpty && bundle.all fun signature =>
    crypto.signatureIsValid signature && isValidatorAlgorithmAllowed signature.algorithm
      && isValidatorDomainAllowed signature.domain

/-- `SignatureBundle::verifyForPolicy(message, policy, VALIDATOR_OPERATION, provider)`. -/
def bundleVerifyForPolicy (crypto : CryptoContext) (message : VoteSigningPayload)
    (bundle : SignatureBundle) : Bool :=
  crypto.bundleIsValidForPolicy bundle && bundle.all fun signature =>
    signature.algorithm == crypto.providerAlgorithm && crypto.providerVerify message signature

end CryptoContext

end Nodo.Model
