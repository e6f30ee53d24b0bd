import Nodo.Lib.NestedText
import Nodo.Lib.Text
import Nodo.Model.Blockchain
import Nodo.Model.Finalization

/-!
# Nodo — the text codec of finality records

`serialize` and `deserialize` of `FinalizedBlockRecord`, `QuorumCertificate` and
`ValidatorVoteRecord`, with the keys and signatures they carry. Three source files hold the
same parser of nested objects; it is modelled once. Each `deserialize` ends with a
comparison of what it read, printed again, with its input.

A vote may be structurally valid with a signature that carries another key than the vote
does. The parser of votes refuses it.

## Results

* `parseObjectFields_serializeObject` — the fields of a printed object are read back.
* `VoteText.deserialize_serialize`, `QuorumCertificate.deserialize_serialize` —
  the same for votes and certificates.
* `ValidatorVoteRecord.readable_iff` — which votes are read back from their own text.
* `finalizedRecord_codec` — records whose signatures carry the keys of their votes survive
  the codec, accepted texts are canonical, and no two accepted records share a text.
* `foreign_signature_not_reloaded` — a structurally valid record that does not survive.
-/

namespace Nodo.Model

open NestedText

--
-- Objects
--

/-- The fields of an object, in the order of the text. -/
abbrev ObjectFields := List (String × String)

/-- The texts of the exceptions of `splitTopLevel`. -/
def splitMessage : SplitError → String
  | .malformed => "Malformed nested serialized value."
  | .emptyPart => "Empty serialized field."
  | .unbalanced => "Unbalanced nested serialized value."
  | .trailingSeparator => "Serialized value has a trailing separator."

def splitTopLevel (value : String) (separator : Char) : Except String (List String) :=
  match split separator value.toList with
  | .error e => .error (splitMessage e)
  | .ok parts => .ok (parts.map String.ofList)

/-- What stands between `opening` and the last character, which must be `closing`. -/
def enclosedBody (serialized opening : String) (closing : Char) : Option String :=
  if opening.toList.isPrefixOf serialized.toList
      && opening.toList.length < serialized.toList.length
      && serialized.toList.getLast? == some closing then
    some (String.ofList (serialized.toList.drop opening.toList.length).dropLast)
  else none

/-- The body of `typeName{…}`. -/
def objectBody (serialized typeName : String) : Except String String :=
  match enclosedBody serialized (typeName ++ "\x7b") '}' with
  | none => .error ("Serialized data is not a " ++ typeName ++ ".")
  | some body =>
    if body.isEmpty then .error ("Serialized " ++ typeName ++ " is empty.") else .ok body

/-- One part `key=value`, cut at its first `=`. -/
def parseField (typeName part : String) : Except String (String × String) :=
  let key := part.toList.takeWhile (· != '=')
  let rest := part.toList.dropWhile (· != '=')
  if rest.isEmpty || key.isEmpty || rest.length ≤ 1 then
    .error ("Malformed serialized " ++ typeName ++ " field.")
  else .ok (String.ofList key, String.ofList rest.tail)

/-- The loop of `parseObjectFields`. -/
def addFields (typeName : String) : ObjectFields → List String → Except String ObjectFields
  | fields, [] => .ok fields
  | fields, part :: rest => do
    let field ← parseField typeName part
    if fields.any (·.1 == field.1) then
      .error ("Duplicate serialized " ++ typeName ++ " field: " ++ field.1)
    else addFields typeName (fields ++ [field]) rest

def parseObjectFields (serialized typeName : String) : Except String ObjectFields := do
  let body ← objectBody serialized typeName
  let parts ← splitTopLevel body ';'
  addFields typeName [] parts

/-- `requireExactFields`; the sets of the source report their least offender. -/
def requireExactFields (fields : ObjectFields) (expected : List String) (typeName : String) :
    Except String Unit :=
  match (expected.filter (fun key => !fields.any (·.1 == key))).min? with
  | some key => .error ("Missing serialized " ++ typeName ++ " field: " ++ key)
  | none =>
    match ((fields.map Prod.fst).filter (fun key => !expected.contains key)).min? with
    | some key => .error ("Unknown serialized " ++ typeName ++ " field: " ++ key)
    | none => .ok ()

def requireField (fields : ObjectFields) (key typeName : String) : Except String String :=
  match fields.find? (·.1 == key) with
  | some field => .ok field.2
  | none => .error ("Missing serialized " ++ typeName ++ " field: " ++ key)

/-- A check that throws its message. -/
def ensure (check : Bool) (message : String) : Except String Unit :=
  if check then .ok () else .error message

/-- What every `serialize` of an object prints. -/
def serializeObject (typeName : String) (fields : ObjectFields) : String :=
  typeName ++ "\x7b" ++ String.intercalate ";" (fields.map fun field => field.1 ++ "=" ++ field.2)
    ++ "\x7d"

--
-- Numbers
--

def decimalValue (digits : List Char) : Nat :=
  digits.foldl (fun value c => value * 10 + (c.toNat - '0'.toNat)) 0

/-- `parseU64Strict`: digits only; `stoull` throws where the number does not fit. -/
def parseU64Strict (value fieldName : String) : Except String Nat :=
  if value.isEmpty then .error ("Empty numeric field: " ++ fieldName)
  else if !value.toList.all Char.isDigit then .error ("Malformed numeric field: " ++ fieldName)
  else if 2 ^ 64 ≤ decimalValue value.toList then .error "stoull"
  else .ok (decimalValue value.toList)

/-- `parseI64Strict`: a minus sign may stand before at least one digit. -/
def parseI64Strict (value fieldName : String) : Except String Int :=
  let negative := value.toList.head? == some '-' && 1 < value.toList.length
  let digits := if negative then value.toList.tail else value.toList
  let magnitude : Int := decimalValue digits
  let parsed := if negative then -magnitude else magnitude
  if value.isEmpty then .error ("Empty numeric field: " ++ fieldName)
  else if !digits.all Char.isDigit then .error ("Malformed numeric field: " ++ fieldName)
  else if parsed < -2 ^ 63 || 2 ^ 63 ≤ parsed then .error "stoll"
  else .ok parsed

--
-- Keys and signatures
--

/-- `cryptoAlgorithmToString`. -/
def CryptoAlgorithm.text : CryptoAlgorithm → String
  | developmentFakeSignature => "DEVELOPMENT_FAKE_SIGNATURE"
  | classicEd25519 => "CLASSIC_ED25519"
  | classicEcdsaSecp256k1 => "CLASSIC_ECDSA_SECP256K1"
  | bls12381 => "BLS12_381"

def cryptoAlgorithmFromString (value : String) : Except String CryptoAlgorithm :=
  if value == "DEVELOPMENT_FAKE_SIGNATURE" then .ok .developmentFakeSignature
  else if value == "CLASSIC_ED25519" then .ok .classicEd25519
  else if value == "CLASSIC_ECDSA_SECP256K1" then .ok .classicEcdsaSecp256k1
  else if value == "BLS12_381" then .ok .bls12381
  else .error ("Unknown CryptoAlgorithm: " ++ value)

/-- `cryptoSuiteIdToString`. -/
def CryptoSuiteId.text : CryptoSuiteId → String
  | unknown => "UNKNOWN"
  | nodoCryptoSuiteV1 => "NODO_CRYPTO_SUITE_V1"

def cryptoSuiteIdFromString (value : String) : CryptoSuiteId :=
  if value == "NODO_CRYPTO_SUITE_V1" then .nodoCryptoSuiteV1 else .unknown

/-- `signingDomainToString`. -/
def SigningDomain.text : SigningDomain → String
  | unknown => "UNKNOWN"
  | peerHandshake => "NODO_PEER_HANDSHAKE_V1"
  | userTransaction => "NODO_TX_V1"
  | validatorVote => "NODO_VALIDATOR_VOTE_V1"
  | quorumCertificate => "NODO_QUORUM_CERTIFICATE_V1"
  | mintAuthorization => "NODO_MINT_AUTHORIZATION_V1"
  | treasuryProposal => "NODO_TREASURY_PROPOSAL_V1"
  | governanceVote => "NODO_GOVERNANCE_VOTE_V1"
  | validatorBlockProposal => "NODO_VALIDATOR_BLOCK_PROPOSAL_V1"
  | archivalProof => "NODO_ARCHIVAL_PROOF_V1"

def signingDomainFromString (value : String) : SigningDomain :=
  if value == "NODO_PEER_HANDSHAKE_V1" then .peerHandshake
  else if value == "NODO_TX_V1" then .userTransaction
  else if value == "NODO_VALIDATOR_VOTE_V1" then .validatorVote
  else if value == "NODO_QUORUM_CERTIFICATE_V1" then .quorumCertificate
  else if value == "NODO_MINT_AUTHORIZATION_V1" then .mintAuthorization
  else if value == "NODO_TREASURY_PROPOSAL_V1" then .treasuryProposal
  else if value == "NODO_GOVERNANCE_VOTE_V1" then .governanceVote
  else if value == "NODO_VALIDATOR_BLOCK_PROPOSAL_V1" then .validatorBlockProposal
  else if value == "NODO_ARCHIVAL_PROOF_V1" then .archivalProof
  else .unknown

/-- `hasHexByteSize`. -/
def hasHexByteSize (hex : String) (byteSize : Nat) : Bool :=
  hex.toList.length == byteSize * 2 && hex.toList.length != 0
    && hex.toList.all CryptoContext.isHexDigit

namespace PublicKey

def isValid (key : PublicKey) : Bool :=
  if key.keyMaterial.isEmpty then false
  else match key.algorithm with
    | .classicEd25519 => hasHexByteSize key.keyMaterial 32
    | .bls12381 => hasHexByteSize key.keyMaterial 48
    | _ => true

def serialize (key : PublicKey) : String :=
  serializeObject "PublicKey" [("algorithm", key.algorithm.text), ("keyMaterial", key.keyMaterial)]

end PublicKey

/-- A context with the key check and the fingerprint of the source; `hashBytes` is
`nodo_hash_string`. -/
def CryptoContext.withKeys (crypto : CryptoContext) (hashBytes : String → String) :
    CryptoContext :=
  { crypto with
    publicKeyIsValid := PublicKey.isValid
    fingerprint := fun key => hashBytes (cString key.serialize) }

/-- `parsePublicKey`. -/
def parsePublicKey (crypto : CryptoContext) (serialized : String) : Except String PublicKey := do
  let fields ← parseObjectFields serialized "PublicKey"
  requireExactFields fields ["algorithm", "keyMaterial"] "PublicKey"
  let algorithmText ← requireField fields "algorithm" "PublicKey"
  let algorithm ← cryptoAlgorithmFromString algorithmText
  ensure (algorithm.text == algorithmText) "Unknown serialized PublicKey algorithm."
  let keyMaterial ← requireField fields "keyMaterial" "PublicKey"
  let key : PublicKey := ⟨algorithm, keyMaterial⟩
  ensure (crypto.publicKeyIsValid key && key.serialize == serialized)
    "Serialized PublicKey is invalid or non-canonical."
  .ok key

def Signature.serialize (signature : Signature) : String :=
  serializeObject "Signature" [("suite", signature.suite.text), ("domain", signature.domain.text),
    ("algorithm", signature.algorithm.text), ("publicKey", signature.publicKey.serialize),
    ("signatureHex", signature.signatureHex), ("createdAt", toString signature.createdAt)]

/-- `parseSignature`: the signature must carry the key of the vote. -/
def parseSignature (crypto : CryptoContext) (serialized : String) (expectedPublicKey : PublicKey) :
    Except String Signature := do
  let fields ← parseObjectFields serialized "Signature"
  requireExactFields fields
    ["suite", "domain", "algorithm", "publicKey", "signatureHex", "createdAt"] "Signature"
  let algorithmText ← requireField fields "algorithm" "Signature"
  let algorithm ← cryptoAlgorithmFromString algorithmText
  ensure (algorithm.text == algorithmText) "Unknown serialized Signature algorithm."
  let suiteText ← requireField fields "suite" "Signature"
  ensure (cryptoSuiteIdFromString suiteText == .nodoCryptoSuiteV1)
    "Unknown serialized Signature suite."
  let domainText ← requireField fields "domain" "Signature"
  ensure (signingDomainFromString domainText != .unknown) "Unknown serialized Signature domain."
  let publicKeyText ← requireField fields "publicKey" "Signature"
  let embeddedPublicKey ← parsePublicKey crypto publicKeyText
  ensure (algorithm == expectedPublicKey.algorithm
      && embeddedPublicKey.serialize == expectedPublicKey.serialize)
    "Serialized Signature algorithm does not match vote public key."
  let signatureHex ← requireField fields "signatureHex" "Signature"
  let createdAtText ← requireField fields "createdAt" "Signature"
  let createdAt ← parseI64Strict createdAtText "Signature.createdAt"
  let signature : Signature := ⟨cryptoSuiteIdFromString suiteText,
    signingDomainFromString domainText, algorithm, expectedPublicKey, signatureHex, createdAt⟩
  ensure (crypto.signatureIsValid signature && signature.serialize == serialized)
    "Serialized Signature is invalid or non-canonical."
  .ok signature

/-- `SignatureBundle::serialize`. -/
def serializeBundle (bundle : SignatureBundle) : String :=
  "SignatureBundle" ++ "\x7b" ++ String.intercalate ";" (bundle.map Signature.serialize) ++ "\x7d"

/-- The loop of `parseSignatureBundle`, with the checks of `addSignature`. -/
def addSignatures (crypto : CryptoContext) (expectedPublicKey : PublicKey) :
    SignatureBundle → List String → Except String SignatureBundle
  | bundle, [] => .ok bundle
  | bundle, serialized :: rest => do
    let signature ← parseSignature crypto serialized expectedPublicKey
    ensure (crypto.signatureIsValid signature) "Invalid signature rejected by SignatureBundle."
    ensure (!bundle.any (·.algorithm == signature.algorithm))
      "Duplicated signature algorithm rejected."
    addSignatures crypto expectedPublicKey (bundle ++ [signature]) rest

/-- `parseSignatureBundle`. -/
def parseSignatureBundle (crypto : CryptoContext) (serialized : String)
    (expectedPublicKey : PublicKey) : Except String SignatureBundle := do
  let body ← objectBody serialized "SignatureBundle"
  let parts ← splitTopLevel body ';'
  let bundle ← addSignatures crypto expectedPublicKey [] parts
  ensure (serializeBundle bundle == serialized) "Serialized SignatureBundle is non-canonical."
  .ok bundle

--
-- Votes, certificates and records
--

/-- `validatorVoteDecisionToString`. -/
def ValidatorVoteDecision.text : ValidatorVoteDecision → String
  | unknown => "UNKNOWN"
  | reject => "REJECT"
  | prevote => "PREVOTE"
  | precommit => "PRECOMMIT"

def parseVoteDecision (value : String) : Except String ValidatorVoteDecision :=
  if value == "REJECT" then .ok .reject
  else if value == "PREVOTE" then .ok .prevote
  else if value == "PRECOMMIT" then .ok .precommit
  else .error ("Unknown validator vote decision: " ++ value)

namespace ValidatorVoteRecord

def serialize (crypto : CryptoContext) (vote : ValidatorVoteRecord) : String :=
  serializeObject "ValidatorVoteRecord" [("validatorAddress", vote.validatorAddress),
    ("validatorPublicKey", vote.validatorPublicKey.serialize),
    ("validatorPublicKeyFingerprint", crypto.fingerprint vote.validatorPublicKey),
    ("blockIndex", toString vote.blockIndex), ("blockHash", vote.blockHash),
    ("previousHash", vote.previousHash), ("round", toString vote.round),
    ("decision", vote.decision.text), ("reasonHash", vote.reasonHash),
    ("createdAt", toString vote.createdAt),
    ("signatureBundle", serializeBundle vote.signatureBundle)]

def deserialize (crypto : CryptoContext) (serialized : String) :
    Except String ValidatorVoteRecord := do
  let fields ← parseObjectFields serialized "ValidatorVoteRecord"
  requireExactFields fields ["validatorAddress", "validatorPublicKey",
    "validatorPublicKeyFingerprint", "blockIndex", "blockHash", "previousHash", "round", "decision",
    "reasonHash", "createdAt", "signatureBundle"] "ValidatorVoteRecord"
  let validatorPublicKeyText ← requireField fields "validatorPublicKey" "ValidatorVoteRecord"
  let validatorPublicKey ← parsePublicKey crypto validatorPublicKeyText
  let fingerprint ← requireField fields "validatorPublicKeyFingerprint" "ValidatorVoteRecord"
  ensure (fingerprint == crypto.fingerprint validatorPublicKey)
    "Serialized validator public key fingerprint does not match public key."
  let validatorAddress ← requireField fields "validatorAddress" "ValidatorVoteRecord"
  let blockIndexText ← requireField fields "blockIndex" "ValidatorVoteRecord"
  let blockIndex ← parseU64Strict blockIndexText "ValidatorVoteRecord.blockIndex"
  let blockHash ← requireField fields "blockHash" "ValidatorVoteRecord"
  let previousHash ← requireField fields "previousHash" "ValidatorVoteRecord"
  let roundText ← requireField fields "round" "ValidatorVoteRecord"
  let round ← parseU64Strict roundText "ValidatorVoteRecord.round"
  let decisionText ← requireField fields "decision" "ValidatorVoteRecord"
  let decision ← parseVoteDecision decisionText
  let reasonHash ← requireField fields "reasonHash" "ValidatorVoteRecord"
  let createdAtText ← requireField fields "createdAt" "ValidatorVoteRecord"
  let createdAt ← parseI64Strict createdAtText "ValidatorVoteRecord.createdAt"
  let bundleText ← requireField fields "signatureBundle" "ValidatorVoteRecord"
  let signatureBundle ← parseSignatureBundle crypto bundleText validatorPublicKey
  let vote : ValidatorVoteRecord := ⟨⟨validatorAddress, validatorPublicKey, blockIndex, blockHash,
    previousHash, round, decision, reasonHash, createdAt⟩, signatureBundle⟩
  ensure (vote.serialize crypto == serialized) "Serialized ValidatorVoteRecord is non-canonical."
  .ok vote

end ValidatorVoteRecord

/-- `parseVotes`. -/
def parseVotes (crypto : CryptoContext) (serializedVotes : String) :
    Except String (List ValidatorVoteRecord) :=
  match enclosedBody serializedVotes "[" ']' with
  | none => .error "Serialized quorum vote list is malformed."
  | some body =>
    if body.isEmpty then .ok []
    else do
      let parts ← splitTopLevel body ','
      parts.mapM (ValidatorVoteRecord.deserialize crypto)

namespace QuorumCertificate

def serialize (crypto : CryptoContext) (certificate : QuorumCertificate) : String :=
  serializeObject "QuorumCertificate" [("blockIndex", toString certificate.blockIndex),
    ("blockHash", certificate.blockHash), ("previousHash", certificate.previousHash),
    ("round", toString certificate.round),
    ("requiredVotingWeight", toString certificate.requiredVotingWeight.toNat),
    ("totalVotingWeight", toString certificate.totalVotingWeight.toNat),
    ("signedVotingWeight", toString certificate.signedVotingWeight.toNat),
    ("validatorSetRoot", certificate.validatorSetRoot),
    ("votes", "[" ++ String.intercalate "," (certificate.votes.map (·.serialize crypto)) ++ "]")]

def deserialize (crypto : CryptoContext) (serialized : String) :
    Except String QuorumCertificate := do
  let fields ← parseObjectFields serialized "QuorumCertificate"
  requireExactFields fields ["blockIndex", "blockHash", "previousHash", "round",
    "requiredVotingWeight", "totalVotingWeight", "signedVotingWeight", "validatorSetRoot",
    "votes"] "QuorumCertificate"
  let blockIndexText ← requireField fields "blockIndex" "QuorumCertificate"
  let blockIndex ← parseU64Strict blockIndexText "QuorumCertificate.blockIndex"
  let blockHash ← requireField fields "blockHash" "QuorumCertificate"
  let previousHash ← requireField fields "previousHash" "QuorumCertificate"
  let roundText ← requireField fields "round" "QuorumCertificate"
  let round ← parseU64Strict roundText "QuorumCertificate.round"
  let requiredText ← requireField fields "requiredVotingWeight" "QuorumCertificate"
  let required ← parseU64Strict requiredText "QuorumCertificate.requiredVotingWeight"
  let totalText ← requireField fields "totalVotingWeight" "QuorumCertificate"
  let total ← parseU64Strict totalText "QuorumCertificate.totalVotingWeight"
  let signedText ← requireField fields "signedVotingWeight" "QuorumCertificate"
  let signed ← parseU64Strict signedText "QuorumCertificate.signedVotingWeight"
  let validatorSetRoot ← requireField fields "validatorSetRoot" "QuorumCertificate"
  let votesText ← requireField fields "votes" "QuorumCertificate"
  let votes ← parseVotes crypto votesText
  let certificate : QuorumCertificate := ⟨blockIndex, blockHash, previousHash, round,
    .ofNat required, .ofNat total, .ofNat signed, validatorSetRoot, votes⟩
  ensure certificate.isStructurallyValid "Serialized QuorumCertificate is structurally invalid."
  ensure (certificate.serialize crypto == serialized)
    "Serialized QuorumCertificate is non-canonical."
  .ok certificate

end QuorumCertificate

namespace FinalizedBlockRecord

def serialize (crypto : CryptoContext) (record : FinalizedBlockRecord) : String :=
  serializeObject "FinalizedBlockRecord" [("blockIndex", toString record.blockIndex),
    ("blockHash", record.blockHash), ("previousHash", record.previousHash),
    ("round", toString record.round), ("finalizedAt", toString record.finalizedAt),
    ("quorumCertificate", record.quorumCertificate.serialize crypto)]

def deserialize (crypto : CryptoContext) (serialized : String) :
    Except String FinalizedBlockRecord := do
  let fields ← parseObjectFields serialized "FinalizedBlockRecord"
  requireExactFields fields ["blockIndex", "blockHash", "previousHash", "round", "finalizedAt",
    "quorumCertificate"] "FinalizedBlockRecord"
  let blockIndexText ← requireField fields "blockIndex" "FinalizedBlockRecord"
  let blockIndex ← parseU64Strict blockIndexText "FinalizedBlockRecord.blockIndex"
  let blockHash ← requireField fields "blockHash" "FinalizedBlockRecord"
  let previousHash ← requireField fields "previousHash" "FinalizedBlockRecord"
  let roundText ← requireField fields "round" "FinalizedBlockRecord"
  let round ← parseU64Strict roundText "FinalizedBlockRecord.round"
  let finalizedAtText ← requireField fields "finalizedAt" "FinalizedBlockRecord"
  let finalizedAt ← parseI64Strict finalizedAtText "FinalizedBlockRecord.finalizedAt"
  let certificateText ← requireField fields "quorumCertificate" "FinalizedBlockRecord"
  let quorumCertificate ← QuorumCertificate.deserialize crypto certificateText
  let record : FinalizedBlockRecord :=
    ⟨blockIndex, blockHash, previousHash, round, finalizedAt, quorumCertificate⟩
  ensure record.isStructurallyValid "Serialized FinalizedBlockRecord is structurally invalid."
  ensure (record.serialize crypto == serialized)
    "Serialized FinalizedBlockRecord is non-canonical."
  .ok record

end FinalizedBlockRecord

--
-- Objects are read back
--

/-- A text that may stand as the value of a field. -/
structure FieldText (value : String) : Prop where
  ne : value.toList ≠ []
  closed : Closed ';' value.toList

/-- The names of fields and types hold no delimiter. -/
def isFieldName (name : String) : Bool :=
  !name.toList.isEmpty && name.toList.all (fun c =>
    c != '=' && c != ';' && c != ',' && c != '{' && c != '}' && c != '[' && c != ']')

theorem isFieldName_spec {name : String} (h : isFieldName name = true) :
    name.toList ≠ [] ∧ '=' ∉ name.toList ∧ ';' ∉ name.toList ∧ ',' ∉ name.toList ∧
      Plain name.toList := by
  simp only [isFieldName, Bool.and_eq_true, Bool.not_eq_true', List.all_eq_true, bne_iff_ne] at h
  obtain ⟨hne, hall⟩ := h
  refine ⟨by simpa using hne, ?_, ?_, ?_, ?_⟩
  · exact fun hmem => (hall _ hmem).1.1.1.1.1.1 rfl
  · exact fun hmem => (hall _ hmem).1.1.1.1.1.2 rfl
  · exact fun hmem => (hall _ hmem).1.1.1.1.2 rfl
  · intro c hc
    have hchars := hall c hc
    exact ⟨hchars.1.1.1.2, hchars.1.1.2, hchars.1.2, hchars.2⟩

/-- Fields that are read back from the object they are printed in. -/
structure Printable (fields : ObjectFields) : Prop where
  ne : fields ≠ []
  names : (fields.map Prod.fst).all isFieldName = true
  nodup : (fields.map Prod.fst).Nodup
  values : ∀ field ∈ fields, FieldText field.2

theorem enclosedBody_append (opening body : String) (closing : Char) :
    enclosedBody (opening ++ body ++ String.singleton closing) opening closing = some body := by
  have htext : (opening ++ body ++ String.singleton closing).toList
      = opening.toList ++ (body.toList ++ [closing]) := by
    simp [String.toList_append, List.append_assoc]
  unfold enclosedBody
  rw [htext, if_pos]
  · rw [List.drop_left, List.dropLast_concat, String.ofList_toList]
  · simp [List.isPrefixOf_iff_prefix]

theorem splitTopLevel_intercalate {separator : Char} (hplain : Plain [separator])
    {parts : List String} (hne : parts ≠ [])
    (hparts : ∀ part ∈ parts, part.toList ≠ [] ∧ Closed separator part.toList) :
    splitTopLevel (String.intercalate (String.singleton separator) parts) separator = .ok parts := by
  have hsplit : split separator
      (List.intercalate [separator] (parts.map String.toList)) = .ok (parts.map String.toList) := by
    refine split_intercalate hplain (by simpa using hne) ?_
    intro text htext
    obtain ⟨part, hpart, rfl⟩ := List.mem_map.mp htext
    exact hparts part hpart
  unfold splitTopLevel
  rw [String.toList_intercalate, String.toList_singleton, hsplit]
  simp

theorem parseField_print {typeName : String} {field : String × String}
    (hname : isFieldName field.1 = true) (hvalue : FieldText field.2) :
    parseField typeName (field.1 ++ "=" ++ field.2) = .ok field := by
  obtain ⟨hne, heq, -⟩ := isFieldName_spec hname
  have htext : (field.1 ++ "=" ++ field.2).toList = field.1.toList ++ '=' :: field.2.toList := by
    simp [String.toList_append]
  unfold parseField
  simp only [htext, Text.takeWhile_delimiter heq, Text.dropWhile_delimiter heq]
  rw [if_neg]
  · simp
  · simp [hne, hvalue.ne]

/-- The loop over the parts collects the fields in their order. -/
theorem addFields_print {typeName : String} {fields rest : ObjectFields}
    (hnames : (rest.map Prod.fst).all isFieldName = true)
    (hvalues : ∀ field ∈ rest, FieldText field.2)
    (hnodup : ((fields ++ rest).map Prod.fst).Nodup) :
    addFields typeName fields (rest.map fun field => field.1 ++ "=" ++ field.2)
      = .ok (fields ++ rest) := by
  induction rest generalizing fields with
  | nil => simp [addFields]
  | cons field rest ih =>
    simp only [List.map_cons, List.all_cons, Bool.and_eq_true] at hnames
    have hfield := @parseField_print typeName field hnames.1 (hvalues field List.mem_cons_self)
    have hnew : fields.any (fun other => other.1 == field.1) = false := by
      rw [List.any_eq_false]
      intro other hother heq
      rw [beq_iff_eq] at heq
      rw [List.map_append, List.nodup_append] at hnodup
      exact hnodup.2.2 other.1 (List.mem_map_of_mem hother) field.1 (by simp) heq
    rw [List.map_cons, addFields, hfield]
    show (if fields.any (fun other => other.1 == field.1) = true then _
      else addFields typeName (fields ++ [field]) _) = _
    rw [hnew, if_neg Bool.false_ne_true, ih hnames.2
      (fun other hother => hvalues other (List.mem_cons_of_mem _ hother)) (by simpa using hnodup)]
    simp

/-- Fields that are determined by the object they are printed in; values may be empty. -/
structure ClosedFields (fields : ObjectFields) : Prop where
  names : (fields.map Prod.fst).all isFieldName = true
  values : ∀ field ∈ fields, Closed ';' field.2.toList

theorem Printable.closed {fields : ObjectFields} (h : Printable fields) : ClosedFields fields :=
  ⟨h.names, fun field hfield => (h.values field hfield).closed⟩

/-- A part with a name and a value that may be empty. -/
theorem closed_part {field : String × String} (hname : isFieldName field.1 = true)
    (hvalue : Closed ';' field.2.toList) :
    (field.1 ++ "=" ++ field.2).toList ≠ [] ∧ Closed ';' (field.1 ++ "=" ++ field.2).toList := by
  obtain ⟨hne, -, hsemicolon, -, hplain⟩ := isFieldName_spec hname
  have htext : (field.1 ++ "=" ++ field.2).toList = field.1.toList ++ (['='] ++ field.2.toList) := by
    simp [String.toList_append]
  rw [htext]
  refine ⟨by simp, ?_⟩
  refine (hplain.closed hsemicolon).append (Closed.append ?_ hvalue)
  rfl

theorem ClosedFields.parts {fields : ObjectFields} (h : ClosedFields fields) :
    ∀ part ∈ fields.map (fun field => field.1 ++ "=" ++ field.2),
      part.toList ≠ [] ∧ Closed ';' part.toList := by
  intro part hpart
  obtain ⟨field, hfield, rfl⟩ := List.mem_map.mp hpart
  exact closed_part (List.all_eq_true.mp h.names field.1 (List.mem_map_of_mem hfield))
    (h.values field hfield)

theorem objectBody_append {typeName body : String} (hbody : body ≠ "") :
    objectBody (typeName ++ "\x7b" ++ body ++ "\x7d") typeName = .ok body := by
  have henclosed := enclosedBody_append (typeName ++ "\x7b") body '}'
  rw [show String.singleton '}' = "\x7d" from rfl] at henclosed
  unfold objectBody
  rw [henclosed]
  show (if body.isEmpty = true then _ else _) = _
  rw [if_neg (by simpa using hbody)]

/-- Joined parts are not the empty text, since the empty text does not split. -/
theorem intercalate_ne_empty {separator : Char} (hplain : Plain [separator])
    {parts : List String} (hne : parts ≠ [])
    (hparts : ∀ part ∈ parts, part.toList ≠ [] ∧ Closed separator part.toList) :
    String.intercalate (String.singleton separator) parts ≠ "" := by
  intro hempty
  have hsplit := splitTopLevel_intercalate hplain hne hparts
  rw [hempty] at hsplit
  cases hsplit

/-- **The fields of a printed object are read back**. -/
theorem parseObjectFields_serializeObject {typeName : String} {fields : ObjectFields}
    (h : Printable fields) :
    parseObjectFields (serializeObject typeName fields) typeName = .ok fields := by
  have hne : fields.map (fun field => field.1 ++ "=" ++ field.2) ≠ [] := by simpa using h.ne
  have hsplit := splitTopLevel_intercalate (by decide) hne h.closed.parts
  have hbody := intercalate_ne_empty (by decide) hne h.closed.parts
  rw [show String.singleton ';' = ";" from rfl] at hsplit hbody
  unfold parseObjectFields serializeObject
  rw [objectBody_append hbody]
  show (splitTopLevel _ ';' >>= fun parts => addFields typeName [] parts) = _
  rw [hsplit]
  exact addFields_print h.names h.values (by simpa using h.nodup)

/-- A part determines its field: the name ends at the first equals sign. -/
theorem eq_of_parts {fields fields' : ObjectFields}
    (hnames : (fields.map Prod.fst).all isFieldName = true)
    (hnames' : (fields'.map Prod.fst).all isFieldName = true)
    (hparts : (fields.map fun field => field.1 ++ "=" ++ field.2)
      = fields'.map fun field => field.1 ++ "=" ++ field.2) : fields = fields' := by
  induction fields generalizing fields' with
  | nil =>
    cases fields' with
    | nil => rfl
    | cons => cases hparts
  | cons field rest ih =>
    cases fields' with
    | nil => cases hparts
    | cons field' rest' =>
      obtain ⟨name, value⟩ := field
      obtain ⟨name', value'⟩ := field'
      simp only [List.map_cons, List.cons.injEq] at hparts
      simp only [List.map_cons, List.all_cons, Bool.and_eq_true] at hnames hnames'
      have htext := congrArg String.toList hparts.1
      simp only [String.toList_append, show "=".toList = ['='] from rfl, List.append_assoc,
        List.singleton_append] at htext
      obtain ⟨hname, hvalue⟩ := Text.append_delimiter_inj (isFieldName_spec hnames.1).2.1
        (isFieldName_spec hnames'.1).2.1 htext
      rw [String.toList_inj.mp hname, String.toList_inj.mp hvalue,
        ih hnames.2 hnames'.2 hparts.2]

/-- **An object is determined by its text.** -/
theorem serializeObject_injective {typeName : String} {fields fields' : ObjectFields}
    (hne : fields ≠ []) (hclosed : ClosedFields fields) (hclosed' : ClosedFields fields')
    (h : serializeObject typeName fields = serializeObject typeName fields') : fields = fields' := by
  have hbody := congrArg (fun text => enclosedBody text (typeName ++ "\x7b") '}') h
  simp only [serializeObject] at hbody
  rw [show "\x7d" = String.singleton '}' from rfl, enclosedBody_append, enclosedBody_append] at hbody
  have hsplit := @splitTopLevel_intercalate ';' (by decide)
    (fields.map fun field => field.1 ++ "=" ++ field.2) (by simpa using hne) hclosed.parts
  rw [show String.singleton ';' = ";" from rfl, Option.some.inj hbody] at hsplit
  have hne' : fields' ≠ [] := by
    rintro rfl
    cases hsplit
  have hsplit' := @splitTopLevel_intercalate ';' (by decide)
    (fields'.map fun field => field.1 ++ "=" ++ field.2) (by simpa using hne') hclosed'.parts
  rw [show String.singleton ';' = ";" from rfl, hsplit] at hsplit'
  exact eq_of_parts hclosed.names hclosed'.names (Except.ok.inj hsplit')

theorem requireExactFields_ok {fields : ObjectFields} {expected : List String}
    (h : fields.map Prod.fst = expected) (typeName : String) :
    requireExactFields fields expected typeName = .ok () := by
  have hmissing : expected.filter (fun key => !fields.any (·.1 == key)) = [] := by
    rw [List.filter_eq_nil_iff]
    intro key hkey
    rw [← h] at hkey
    obtain ⟨field, hfield, rfl⟩ := List.mem_map.mp hkey
    simpa using ⟨field.2, hfield⟩
  have hunknown : (fields.map Prod.fst).filter (fun key => !expected.contains key) = [] := by
    rw [h, List.filter_eq_nil_iff]
    intro key hkey
    simpa using hkey
  unfold requireExactFields
  rw [hmissing, hunknown]
  rfl

--
-- Values
--

theorem fieldText_of_chars {value : String} (hne : value.toList ≠ []) (hplain : Plain value.toList)
    (hsemicolon : ';' ∉ value.toList) : FieldText value :=
  ⟨hne, hplain.closed hsemicolon⟩

theorem fieldText_of_name {value : String} (h : isFieldName value = true) : FieldText value := by
  obtain ⟨hne, -, hsemicolon, -, hplain⟩ := isFieldName_spec h
  exact fieldText_of_chars hne hplain hsemicolon

/-- A class of characters without the delimiters of objects. -/
theorem fieldText_of_all {value : String} (p : Char → Bool) (hne : value.toList ≠ [])
    (hall : value.toList.all p = true)
    (hp : [';', '{', '}', '[', ']'].any p = false) : FieldText value := by
  have hnot : ∀ c ∈ [';', '{', '}', '[', ']'], c ∉ value.toList := by
    intro c hc hmem
    have htrue := List.all_eq_true.mp hall c hmem
    exact List.any_eq_false.mp hp c hc htrue
  refine fieldText_of_chars hne ?_ (hnot ';' (by decide))
  intro c hc
  refine ⟨?_, ?_, ?_, ?_⟩
  · rintro rfl
    exact hnot '{' (by decide) hc
  · rintro rfl
    exact hnot '}' (by decide) hc
  · rintro rfl
    exact hnot '[' (by decide) hc
  · rintro rfl
    exact hnot ']' (by decide) hc

theorem fieldText_of_safe {value : String} (h : isSafeScalar value = true) : FieldText value := by
  simp only [isSafeScalar, Bool.and_eq_true, Bool.not_eq_true'] at h
  obtain ⟨hne, hsafe⟩ := h
  refine fieldText_of_all (fun c => !([';', '{', '}', '[', ']', '\n', '\r', '\t'].contains c))
    (by simpa using hne) ?_ (by decide)
  rw [← List.not_any_eq_all_not, hsafe]
  rfl

theorem all_isDigit_toString (n : Nat) : (toString n).toList.all Char.isDigit = true :=
  List.all_eq_true.mpr fun _ hc => Text.isDigit_of_mem_toString hc

theorem fieldText_nat (n : Nat) : FieldText (toString n) :=
  fieldText_of_all Char.isDigit (Text.toString_nat_ne_nil n) (all_isDigit_toString n) (by decide)

theorem toString_int {i : Int} (h : 0 < i) : toString i = toString i.toNat := by
  obtain ⟨n, rfl⟩ := Int.eq_ofNat_of_zero_le (Int.le_of_lt h)
  rfl

theorem toList_toString_neg (n : Nat) :
    (toString (Int.negSucc n)).toList = '-' :: (toString (n + 1)).toList := by
  show ("-" ++ toString (n + 1)).toList = _
  rw [String.toList_append]
  rfl

theorem fieldText_int (i : Int) : FieldText (toString i) := by
  cases i with
  | ofNat n => exact fieldText_nat n
  | negSucc n =>
    refine fieldText_of_all (fun c => c == '-' || c.isDigit) ?_ ?_ (by decide)
    · rw [toList_toString_neg]
      exact List.cons_ne_nil _ _
    · rw [toList_toString_neg, List.all_cons, List.all_eq_true.mpr]
      · rfl
      · intro c hc
        rw [Text.isDigit_of_mem_toString hc, Bool.or_true]

theorem parseU64Strict_toString {n : Nat} (h : n < 2 ^ 64) (fieldName : String) :
    parseU64Strict (toString n) fieldName = .ok n := by
  have hvalue : decimalValue (toString n).toList = n := Text.foldl_digits_toString n
  have hne : (toString n).isEmpty = false := by simp
  unfold parseU64Strict
  rw [hvalue, hne, all_isDigit_toString]
  simp only [Bool.false_eq_true, if_false, Bool.not_true]
  rw [if_neg (Nat.not_le.mpr h)]

/-- A number of the signed type is read back, a negative one too. -/
theorem parseI64Strict_toString {i : Int} (hlow : -2 ^ 63 ≤ i) (h : i < 2 ^ 63)
    (fieldName : String) : parseI64Strict (toString i) fieldName = .ok i := by
  cases i with
  | ofNat n =>
    have hvalue : decimalValue (toString n).toList = n := Text.foldl_digits_toString _
    have hsign : ((toString n).toList.head? == some '-') = false := by
      rw [beq_eq_false_iff_ne]
      intro hminus
      exact Text.not_mem_toString rfl (List.mem_of_mem_head? hminus)
    show parseI64Strict (toString n) fieldName = .ok (n : Int)
    have hfits : (n : Int) < 2 ^ 63 := h
    unfold parseI64Strict
    simp only [hsign, Bool.false_and, Bool.false_eq_true, if_false, hvalue, all_isDigit_toString,
      Bool.not_true]
    rw [if_neg (by simp), if_neg]
    simp only [Bool.or_eq_true, decide_eq_true_eq, not_or]
    omega
  | negSucc n =>
    have hvalue : decimalValue (toString (n + 1)).toList = n + 1 := Text.foldl_digits_toString _
    have hlength : 1 < ('-' :: (toString (n + 1)).toList).length := by
      have hne := Text.toString_nat_ne_nil (n + 1)
      have hpositive := List.length_pos_iff.mpr hne
      rw [List.length_cons]
      omega
    have hfits : -2 ^ 63 ≤ -((n + 1 : Nat) : Int) := hlow
    have hempty : (toString (Int.negSucc n)).isEmpty = false := by
      rw [← Bool.not_eq_true, String.isEmpty_iff]
      intro hnil
      have htext := toList_toString_neg n
      rw [hnil] at htext
      cases htext
    unfold parseI64Strict
    rw [hempty]
    simp only [toList_toString_neg, List.head?_cons, beq_self_eq_true, Bool.true_and, decide_eq_true hlength,
      if_true, List.tail_cons, hvalue, all_isDigit_toString, Bool.not_true, Bool.false_eq_true, if_false]
    rw [if_neg]
    · rfl
    · simp only [Bool.or_eq_true, decide_eq_true_eq, not_or]
      omega

/-- An object is closed under every separator that its name and the closing brace are not. -/
theorem closed_serializeObject {typeName : String} {fields : ObjectFields} {separator : Char}
    (hname : isFieldName typeName = true) (hseparator : separator = ';' ∨ separator = ',')
    (h : ClosedFields fields) : Closed separator (serializeObject typeName fields).toList := by
  obtain ⟨-, -, hsemicolon, hcomma, hplain⟩ := isFieldName_spec hname
  have htext : (serializeObject typeName fields).toList = typeName.toList ++
      ('{' :: List.intercalate [';'] ((fields.map fun field => field.1 ++ "=" ++ field.2).map
        String.toList) ++ ['}']) := by
    unfold serializeObject
    simp [String.toList_append, String.toList_intercalate, List.append_assoc]
  rw [htext]
  refine (hplain.closed ?_).append (Balanced.braces ?_ (balanced_intercalate (by decide) ?_))
  · rcases hseparator with rfl | rfl
    · exact hsemicolon
    · exact hcomma
  · rcases hseparator with rfl | rfl <;> decide
  · intro text htext
    obtain ⟨part, hpart, rfl⟩ := List.mem_map.mp htext
    exact (h.parts part hpart).2.balanced

theorem serializeObject_toList_ne_nil (typeName : String) (fields : ObjectFields) :
    (serializeObject typeName fields).toList ≠ [] := by
  unfold serializeObject
  simp

theorem fieldText_serializeObject {typeName : String} {fields : ObjectFields}
    (hname : isFieldName typeName = true) (h : Printable fields) :
    FieldText (serializeObject typeName fields) :=
  ⟨serializeObject_toList_ne_nil _ _, closed_serializeObject hname (Or.inl rfl) h.closed⟩

--
-- Keys and signatures are read back
--

/-- Fields with the given names, each with a value that may stand in a field. -/
theorem printable_of {fields : ObjectFields} {names : List String}
    (hkeys : fields.map Prod.fst = names)
    (hnames : (names ≠ [] ∧ names.all isFieldName = true) ∧ names.Nodup)
    (hvalues : ∀ field ∈ fields, FieldText field.2) : Printable fields := by
  obtain ⟨⟨hne, hall⟩, hnodup⟩ := hnames
  refine ⟨?_, hkeys ▸ hall, hkeys ▸ hnodup, hvalues⟩
  rintro rfl
  exact hne hkeys.symm

theorem ensure_true (message : String) : ensure true message = .ok () := rfl

theorem cryptoAlgorithmFromString_text (algorithm : CryptoAlgorithm) :
    cryptoAlgorithmFromString algorithm.text = .ok algorithm := by
  cases algorithm <;> decide

theorem cryptoSuiteIdFromString_text (suite : CryptoSuiteId) :
    cryptoSuiteIdFromString suite.text = suite := by
  cases suite <;> decide

theorem signingDomainFromString_text (domain : SigningDomain) :
    signingDomainFromString domain.text = domain := by
  cases domain <;> decide

theorem fieldText_algorithm (algorithm : CryptoAlgorithm) : FieldText algorithm.text := by
  refine fieldText_of_name ?_
  cases algorithm <;> decide

theorem fieldText_suite (suite : CryptoSuiteId) : FieldText suite.text := by
  refine fieldText_of_name ?_
  cases suite <;> decide

theorem fieldText_domain (domain : SigningDomain) : FieldText domain.text := by
  refine fieldText_of_name ?_
  cases domain <;> decide +kernel

theorem fieldText_decision (decision : ValidatorVoteDecision) : FieldText decision.text := by
  refine fieldText_of_name ?_
  cases decision <;> decide

theorem requireField_cons (name value : String) (fields : ObjectFields) (key typeName : String) :
    requireField ((name, value) :: fields) key typeName =
      if name = key then .ok value else requireField fields key typeName := by
  unfold requireField
  by_cases h : name = key
  · rw [if_pos h, List.find?_cons_of_pos (by simpa using h)]
  · rw [if_neg h, List.find?_cons_of_neg (by simpa using h)]

theorem PublicKey.printable {key : PublicKey} (hmaterial : FieldText key.keyMaterial) :
    Printable [("algorithm", key.algorithm.text), ("keyMaterial", key.keyMaterial)] := by
  refine @printable_of _ ["algorithm", "keyMaterial"] rfl (by decide) ?_
  simp only [List.forall_mem_cons]
  exact ⟨fieldText_algorithm _, hmaterial, by simp⟩

theorem parsePublicKey_serialize {crypto : CryptoContext} {key : PublicKey}
    (hvalid : crypto.publicKeyIsValid key = true) (hmaterial : FieldText key.keyMaterial) :
    parsePublicKey crypto key.serialize = .ok key := by
  have hfields : parseObjectFields key.serialize "PublicKey" = _ :=
    parseObjectFields_serializeObject (PublicKey.printable hmaterial)
  simp only [parsePublicKey, hfields, requireExactFields_ok,
    List.map_cons, List.map_nil, Guards.ok_bind, requireField_cons, String.reduceEq, if_true,
    if_false, cryptoAlgorithmFromString_text, beq_self_eq_true, ensure_true, hvalid, Bool.true_and]

theorem signatureIsValid_spec {crypto : CryptoContext} {signature : Signature}
    (h : crypto.signatureIsValid signature = true) :
    signature.suite = .nodoCryptoSuiteV1 ∧ signature.domain ≠ .unknown ∧
      crypto.publicKeyIsValid signature.publicKey = true ∧ FieldText signature.signatureHex ∧
      0 < signature.createdAt ∧ signature.algorithm = signature.publicKey.algorithm := by
  simp only [CryptoContext.signatureIsValid, Bool.and_eq_true, beq_iff_eq, bne_iff_ne,
    Bool.not_eq_true', decide_eq_true_eq] at h
  obtain ⟨⟨⟨⟨⟨⟨hsuite, hdomain⟩, hkey⟩, hne⟩, hhex⟩, hcreated⟩, halgorithm⟩ := h
  refine ⟨hsuite, hdomain, hkey, ?_, hcreated, halgorithm⟩
  exact fieldText_of_all CryptoContext.isHexDigit (by simpa using hne) hhex (by decide)

section Signatures

variable {crypto : CryptoContext} {signature : Signature}
  (hvalid : crypto.signatureIsValid signature = true)
  (hmaterial : FieldText signature.publicKey.keyMaterial)

include hvalid hmaterial

theorem Signature.printable :
    Printable [("suite", signature.suite.text), ("domain", signature.domain.text),
      ("algorithm", signature.algorithm.text), ("publicKey", signature.publicKey.serialize),
      ("signatureHex", signature.signatureHex), ("createdAt", toString signature.createdAt)] := by
  obtain ⟨-, -, -, hhex, hcreated, -⟩ := signatureIsValid_spec hvalid
  refine @printable_of _
    ["suite", "domain", "algorithm", "publicKey", "signatureHex", "createdAt"] rfl (by decide) ?_
  simp only [List.forall_mem_cons]
  exact ⟨fieldText_suite _, fieldText_domain _, fieldText_algorithm _,
    fieldText_serializeObject (by decide) (PublicKey.printable hmaterial), hhex,
    fieldText_int _, by simp⟩

theorem parseSignature_serialize (hcreated : signature.createdAt < 2 ^ 63) :
    parseSignature crypto signature.serialize signature.publicKey = .ok signature := by
  have hfields : parseObjectFields signature.serialize "Signature" = _ :=
    parseObjectFields_serializeObject (Signature.printable hvalid hmaterial)
  obtain ⟨hsuite, hdomain, hkey, -, hpositive, halgorithm⟩ := signatureIsValid_spec hvalid
  have hsuite' : (signature.suite == .nodoCryptoSuiteV1) = true := beq_iff_eq.mpr hsuite
  have hdomain' : (signature.domain != .unknown) = true := bne_iff_ne.mpr hdomain
  have halgorithm' : (signature.algorithm == signature.publicKey.algorithm) = true :=
    beq_iff_eq.mpr halgorithm
  simp only [parseSignature, hfields, requireExactFields_ok,
    List.map_cons, List.map_nil, Guards.ok_bind, requireField_cons, String.reduceEq, if_true,
    if_false, cryptoAlgorithmFromString_text, cryptoSuiteIdFromString_text,
    signingDomainFromString_text, parsePublicKey_serialize hkey hmaterial,
    parseI64Strict_toString (by omega) hcreated, beq_self_eq_true, ensure_true, hsuite', hdomain',
    halgorithm', hvalid, Bool.true_and]

theorem closed_signature : signature.serialize.toList ≠ [] ∧ Closed ';' signature.serialize.toList :=
  ⟨serializeObject_toList_ne_nil _ _,
    closed_serializeObject (by decide) (Or.inl rfl) (Signature.printable hvalid hmaterial).closed⟩

end Signatures

/-- Signatures of one key that the parser of the vote accepts. -/
structure BundleText (crypto : CryptoContext) (key : PublicKey) (bundle : SignatureBundle) :
    Prop where
  valid : ∀ signature ∈ bundle, crypto.signatureIsValid signature = true
  carries : ∀ signature ∈ bundle, signature.publicKey = key
  material : FieldText key.keyMaterial
  fits : ∀ signature ∈ bundle, signature.createdAt < 2 ^ 63
  distinct : (bundle.map Signature.algorithm).Nodup

theorem addSignatures_print {crypto : CryptoContext} {key : PublicKey}
    {bundle rest : SignatureBundle} (h : BundleText crypto key (bundle ++ rest)) :
    addSignatures crypto key bundle (rest.map Signature.serialize) = .ok (bundle ++ rest) := by
  induction rest generalizing bundle with
  | nil => simp [addSignatures]
  | cons signature rest ih =>
    have hmem : signature ∈ bundle ++ signature :: rest := by simp
    have hvalid := h.valid signature hmem
    have hkey := h.carries signature hmem
    have hparse : parseSignature crypto signature.serialize key = .ok signature := by
      rw [← hkey]
      exact parseSignature_serialize hvalid (hkey ▸ h.material) (h.fits signature hmem)
    have hnew : (!bundle.any (fun other => other.algorithm == signature.algorithm)) = true := by
      rw [Bool.not_eq_true', List.any_eq_false]
      intro other hother heq
      rw [beq_iff_eq] at heq
      have hdistinct := h.distinct
      rw [List.map_append, List.nodup_append] at hdistinct
      exact hdistinct.2.2 _ (List.mem_map_of_mem hother) signature.algorithm (by simp) heq
    rw [List.map_cons, addSignatures]
    simp only [hparse, Guards.ok_bind, hvalid, ensure_true, hnew]
    rw [ih (by simpa using h)]
    simp

theorem closed_bundle {crypto : CryptoContext} {key : PublicKey} {bundle : SignatureBundle}
    (h : BundleText crypto key bundle) :
    ∀ part ∈ bundle.map Signature.serialize, part.toList ≠ [] ∧ Closed ';' part.toList := by
  intro part hpart
  obtain ⟨signature, hsignature, rfl⟩ := List.mem_map.mp hpart
  exact closed_signature (h.valid signature hsignature)
    ((h.carries signature hsignature) ▸ h.material)

theorem parseSignatureBundle_serialize {crypto : CryptoContext} {key : PublicKey}
    {bundle : SignatureBundle} (h : BundleText crypto key bundle) (hne : bundle ≠ []) :
    parseSignatureBundle crypto (serializeBundle bundle) key = .ok bundle := by
  have hparts : bundle.map Signature.serialize ≠ [] := by simpa using hne
  have hsplit := splitTopLevel_intercalate (by decide) hparts (closed_bundle h)
  have hjoined := intercalate_ne_empty (by decide) hparts (closed_bundle h)
  rw [show String.singleton ';' = ";" from rfl] at hsplit hjoined
  have hbody : objectBody (serializeBundle bundle) "SignatureBundle" =
      .ok (String.intercalate ";" (bundle.map Signature.serialize)) :=
    objectBody_append hjoined
  have hadd : addSignatures crypto key [] (bundle.map Signature.serialize) = .ok bundle :=
    @addSignatures_print crypto key [] bundle h
  simp only [parseSignatureBundle, hbody, hsplit, hadd, Guards.ok_bind, beq_self_eq_true, ensure_true]

theorem fieldText_bundle {crypto : CryptoContext} {key : PublicKey} {bundle : SignatureBundle}
    (h : BundleText crypto key bundle) : FieldText (serializeBundle bundle) := by
  have htext : (serializeBundle bundle).toList = "SignatureBundle".toList ++
      ('{' :: List.intercalate [';'] ((bundle.map Signature.serialize).map String.toList)
        ++ ['}']) := by
    unfold serializeBundle
    simp [String.toList_append, String.toList_intercalate]
  refine ⟨by rw [htext]; simp, ?_⟩
  rw [htext]
  refine (Plain.closed (by decide) (by decide)).append
    (Balanced.braces (by decide) (balanced_intercalate (by decide) ?_))
  intro text htext
  obtain ⟨part, hpart, rfl⟩ := List.mem_map.mp htext
  exact (closed_bundle h part hpart).2.balanced

--
-- Votes, certificates and records are read back
--

/-- What a vote needs to be read back from its text. -/
structure ReadableVote (crypto : CryptoContext) (vote : ValidatorVoteRecord) : Prop where
  validatorAddress : FieldText vote.validatorAddress
  publicKey : crypto.publicKeyIsValid vote.validatorPublicKey = true
  fingerprint : FieldText (crypto.fingerprint vote.validatorPublicKey)
  blockIndex : vote.blockIndex < 2 ^ 64
  blockHash : FieldText vote.blockHash
  previousHash : FieldText vote.previousHash
  round : vote.round < 2 ^ 64
  decision : vote.decision ≠ .unknown
  reasonHash : FieldText vote.reasonHash
  createdAt : -2 ^ 63 ≤ vote.createdAt ∧ vote.createdAt < 2 ^ 63
  signed : vote.signatureBundle ≠ []
  bundle : BundleText crypto vote.validatorPublicKey vote.signatureBundle

/-- A vote that its text determines. -/
structure VoteText (crypto : CryptoContext) (vote : ValidatorVoteRecord) : Prop where
  validatorAddress : FieldText vote.validatorAddress
  publicKey : crypto.publicKeyIsValid vote.validatorPublicKey = true
  fingerprint : FieldText (crypto.fingerprint vote.validatorPublicKey)
  blockIndex : vote.blockIndex < 2 ^ 64
  blockHash : FieldText vote.blockHash
  previousHash : FieldText vote.previousHash
  round : vote.round < 2 ^ 64
  decision : vote.decision ≠ .unknown
  reasonHash : FieldText vote.reasonHash
  createdAt : 0 < vote.createdAt ∧ vote.createdAt < 2 ^ 63
  signed : vote.signatureBundle ≠ []
  bundle : BundleText crypto vote.validatorPublicKey vote.signatureBundle

theorem parseVoteDecision_text {decision : ValidatorVoteDecision} (h : decision ≠ .unknown) :
    parseVoteDecision decision.text = .ok decision := by
  cases decision with
  | unknown => exact absurd rfl h
  | reject => decide
  | prevote => decide
  | precommit => decide

namespace ReadableVote

variable {crypto : CryptoContext} {vote : ValidatorVoteRecord} (h : ReadableVote crypto vote)

include h

theorem printable : Printable [("validatorAddress", vote.validatorAddress),
    ("validatorPublicKey", vote.validatorPublicKey.serialize),
    ("validatorPublicKeyFingerprint", crypto.fingerprint vote.validatorPublicKey),
    ("blockIndex", toString vote.blockIndex), ("blockHash", vote.blockHash),
    ("previousHash", vote.previousHash), ("round", toString vote.round),
    ("decision", vote.decision.text), ("reasonHash", vote.reasonHash),
    ("createdAt", toString vote.createdAt),
    ("signatureBundle", serializeBundle vote.signatureBundle)] := by
  refine @printable_of _ ["validatorAddress", "validatorPublicKey",
    "validatorPublicKeyFingerprint", "blockIndex", "blockHash", "previousHash", "round", "decision",
    "reasonHash", "createdAt", "signatureBundle"] rfl (by decide) ?_
  simp only [List.forall_mem_cons]
  exact ⟨h.validatorAddress,
    fieldText_serializeObject (by decide) (PublicKey.printable h.bundle.material), h.fingerprint,
    fieldText_nat _, h.blockHash, h.previousHash, fieldText_nat _, fieldText_decision _,
    h.reasonHash, fieldText_int _, fieldText_bundle h.bundle, by simp⟩

/-- A vote is read back. -/
theorem deserialize_serialize :
    ValidatorVoteRecord.deserialize crypto (vote.serialize crypto) = .ok vote := by
  have hfields : parseObjectFields (vote.serialize crypto) "ValidatorVoteRecord" = _ :=
    parseObjectFields_serializeObject h.printable
  simp only [ValidatorVoteRecord.deserialize, hfields, requireExactFields_ok,
    List.map_cons, List.map_nil, Guards.ok_bind, requireField_cons,
    String.reduceEq, if_true, if_false, parsePublicKey_serialize h.publicKey h.bundle.material,
    beq_self_eq_true, ensure_true, parseU64Strict_toString h.blockIndex,
    parseU64Strict_toString h.round, parseVoteDecision_text h.decision,
    parseI64Strict_toString h.createdAt.1 h.createdAt.2,
    parseSignatureBundle_serialize h.bundle h.signed]

theorem closed : (vote.serialize crypto).toList ≠ [] ∧ Closed ',' (vote.serialize crypto).toList :=
  ⟨serializeObject_toList_ne_nil _ _, closed_serializeObject (by decide) (Or.inr rfl) h.printable.closed⟩

end ReadableVote

namespace VoteText

variable {crypto : CryptoContext} {vote : ValidatorVoteRecord} (h : VoteText crypto vote)

include h

theorem readable : ReadableVote crypto vote := by
  have hlow : -2 ^ 63 ≤ vote.createdAt := by
    have hpositive := h.createdAt.1
    omega
  exact ⟨h.validatorAddress, h.publicKey, h.fingerprint, h.blockIndex, h.blockHash, h.previousHash,
    h.round, h.decision, h.reasonHash, ⟨hlow, h.createdAt.2⟩, h.signed, h.bundle⟩

/-- A vote is read back. -/
theorem deserialize_serialize :
    ValidatorVoteRecord.deserialize crypto (vote.serialize crypto) = .ok vote :=
  h.readable.deserialize_serialize

theorem closed : (vote.serialize crypto).toList ≠ [] ∧ Closed ',' (vote.serialize crypto).toList :=
  h.readable.closed

end VoteText

theorem mapM_deserialize {crypto : CryptoContext} {votes : List ValidatorVoteRecord}
    (h : ∀ vote ∈ votes, VoteText crypto vote) :
    (votes.map (·.serialize crypto)).mapM (ValidatorVoteRecord.deserialize crypto) = .ok votes := by
  induction votes with
  | nil => rfl
  | cons vote rest ih =>
    rw [List.map_cons, List.mapM_cons, (h vote List.mem_cons_self).deserialize_serialize, Guards.ok_bind,
      ih (fun other hother => h other (List.mem_cons_of_mem _ hother)), Guards.ok_bind]
    rfl

section VoteLists

variable {crypto : CryptoContext} {votes : List ValidatorVoteRecord}
  (h : ∀ vote ∈ votes, VoteText crypto vote)

include h

theorem closed_votes :
    ∀ part ∈ votes.map (·.serialize crypto), part.toList ≠ [] ∧ Closed ',' part.toList := by
  intro part hpart
  obtain ⟨vote, hvote, rfl⟩ := List.mem_map.mp hpart
  exact (h vote hvote).closed

theorem parseVotes_serialize (hne : votes ≠ []) :
    parseVotes crypto ("[" ++ String.intercalate "," (votes.map (·.serialize crypto)) ++ "]")
      = .ok votes := by
  have hparts : votes.map (·.serialize crypto) ≠ [] := by simpa using hne
  have hsplit := splitTopLevel_intercalate (by decide) hparts (closed_votes h)
  have hbody := intercalate_ne_empty (by decide) hparts (closed_votes h)
  rw [show String.singleton ',' = "," from rfl] at hsplit hbody
  have henclosed := enclosedBody_append "["
    (String.intercalate "," (votes.map (·.serialize crypto))) ']'
  rw [show String.singleton ']' = "]" from rfl] at henclosed
  unfold parseVotes
  rw [henclosed]
  show (if _ then _ else _) = _
  rw [if_neg (by simpa using hbody), hsplit, Guards.ok_bind]
  exact mapM_deserialize h

theorem fieldText_votes :
    FieldText ("[" ++ String.intercalate "," (votes.map (·.serialize crypto)) ++ "]") := by
  have htext : ("[" ++ String.intercalate "," (votes.map (·.serialize crypto)) ++ "]").toList =
      '[' :: List.intercalate [','] ((votes.map (·.serialize crypto)).map String.toList)
        ++ [']'] := by
    simp [String.toList_append, String.toList_intercalate]
  refine ⟨by rw [htext]; simp, ?_⟩
  rw [htext]
  refine Balanced.brackets (by decide) (balanced_intercalate (by decide) ?_)
  intro text htext
  obtain ⟨part, hpart, rfl⟩ := List.mem_map.mp htext
  exact (closed_votes h part hpart).2.balanced

end VoteLists

/-- What the text of a certificate needs of its structural checks. -/
theorem QuorumCertificate.isStructurallyValid_text {certificate : QuorumCertificate}
    (h : certificate.isStructurallyValid = true) :
    FieldText certificate.blockHash ∧ FieldText certificate.previousHash ∧
      FieldText certificate.validatorSetRoot ∧ certificate.votes ≠ [] ∧
      ∀ vote ∈ certificate.votes, vote.blockIndex = certificate.blockIndex ∧
        vote.round = certificate.round := by
  obtain ⟨-, h⟩ := Guards.true_of_ite_false h
  obtain ⟨hsafe, h⟩ := Guards.true_of_ite_false h
  obtain ⟨-, h⟩ := Guards.true_of_ite_false h
  obtain ⟨-, h⟩ := Guards.true_of_ite_false h
  obtain ⟨hvotes, h⟩ := Guards.true_of_ite_false h
  obtain ⟨-, h⟩ := Guards.true_of_ite_false h
  simp only [Bool.or_eq_true, Bool.not_eq_true', not_or, Bool.not_eq_false] at hsafe
  refine ⟨fieldText_of_safe hsafe.1.1, fieldText_of_safe hsafe.1.2, fieldText_of_safe hsafe.2,
    by simpa using hvotes, ?_⟩
  intro vote hvote
  have hchecks := List.all_eq_true.mp h vote hvote
  simp only [Bool.and_eq_true] at hchecks
  obtain ⟨hindex, -, hround⟩ := ValidatorVoteRecord.matchesBlock_iff.mp hchecks.1.1
  exact ⟨hindex, hround⟩

section Certificates

variable {crypto : CryptoContext} {certificate : QuorumCertificate}
  (hvalid : certificate.isStructurallyValid = true)
  (hvotes : ∀ vote ∈ certificate.votes, VoteText crypto vote)

include hvalid hvotes

theorem QuorumCertificate.printable : Printable [("blockIndex", toString certificate.blockIndex),
    ("blockHash", certificate.blockHash), ("previousHash", certificate.previousHash),
    ("round", toString certificate.round),
    ("requiredVotingWeight", toString certificate.requiredVotingWeight.toNat),
    ("totalVotingWeight", toString certificate.totalVotingWeight.toNat),
    ("signedVotingWeight", toString certificate.signedVotingWeight.toNat),
    ("validatorSetRoot", certificate.validatorSetRoot),
    ("votes", "[" ++ String.intercalate "," (certificate.votes.map (·.serialize crypto)) ++ "]")] := by
  obtain ⟨hblock, hprevious, hroot, -, -⟩ := QuorumCertificate.isStructurallyValid_text hvalid
  refine @printable_of _ ["blockIndex", "blockHash", "previousHash", "round",
    "requiredVotingWeight", "totalVotingWeight", "signedVotingWeight", "validatorSetRoot",
    "votes"] rfl (by decide) ?_
  simp only [List.forall_mem_cons]
  exact ⟨fieldText_nat _, hblock, hprevious, fieldText_nat _, fieldText_nat _, fieldText_nat _,
    fieldText_nat _, hroot, fieldText_votes hvotes, by simp⟩

/-- A certificate is read back. -/
theorem QuorumCertificate.deserialize_serialize (hindex : certificate.blockIndex < 2 ^ 64)
    (hround : certificate.round < 2 ^ 64) :
    QuorumCertificate.deserialize crypto (certificate.serialize crypto) = .ok certificate := by
  obtain ⟨-, -, -, hne, -⟩ := QuorumCertificate.isStructurallyValid_text hvalid
  have hfields : parseObjectFields (certificate.serialize crypto) "QuorumCertificate" = _ :=
    parseObjectFields_serializeObject (QuorumCertificate.printable hvalid hvotes)
  simp only [QuorumCertificate.deserialize, hfields, requireExactFields_ok,
    List.map_cons, List.map_nil, Guards.ok_bind, requireField_cons,
    String.reduceEq, if_true, if_false, parseU64Strict_toString hindex,
    parseU64Strict_toString hround, parseU64Strict_toString (UInt64.toNat_lt _),
    UInt64.ofNat_toNat, parseVotes_serialize hvotes hne, hvalid, beq_self_eq_true, ensure_true]

theorem QuorumCertificate.fieldText : FieldText (certificate.serialize crypto) :=
  fieldText_serializeObject (by decide) (QuorumCertificate.printable hvalid hvotes)

end Certificates

namespace FinalizedBlockRecord

/-- The numbers fit the integer types of the source, and no bundle holds two signatures of
one algorithm, as `SignatureBundle::addSignature` sees to. -/
structure Representable (record : FinalizedBlockRecord) : Prop where
  blockIndex : record.blockIndex < 2 ^ 64
  round : record.round < 2 ^ 64
  finalizedAt : record.finalizedAt < 2 ^ 63
  votes : ∀ vote ∈ record.quorumCertificate.votes, vote.createdAt < 2 ^ 63 ∧
    (∀ signature ∈ vote.signatureBundle, signature.createdAt < 2 ^ 63) ∧
    (vote.signatureBundle.map Signature.algorithm).Nodup

/-- Every signature carries the key of its vote. -/
def SignaturesCarryKeys (record : FinalizedBlockRecord) : Prop :=
  ∀ vote ∈ record.quorumCertificate.votes, ∀ signature ∈ vote.signatureBundle,
    signature.publicKey = vote.validatorPublicKey

theorem isStructurallyValid_text {record : FinalizedBlockRecord}
    (h : record.isStructurallyValid = true) :
    0 < record.finalizedAt ∧ FieldText record.blockHash ∧ FieldText record.previousHash ∧
      record.quorumCertificate.isStructurallyValid = true ∧
      record.quorumCertificate.blockIndex = record.blockIndex ∧
      record.quorumCertificate.round = record.round := by
  simp only [isStructurallyValid, Bool.and_eq_true, beq_iff_eq, decide_eq_true_eq] at h
  obtain ⟨⟨⟨⟨⟨⟨⟨⟨⟨-, -⟩, hfinalized⟩, hblock⟩, hprevious⟩, hcertificate⟩, hindex⟩, -⟩, -⟩, hround⟩ := h
  exact ⟨hfinalized, fieldText_of_safe hblock, fieldText_of_safe hprevious, hcertificate, hindex,
    hround⟩

/-- A record is read back. -/
theorem deserialize_serialize {crypto : CryptoContext} {record : FinalizedBlockRecord}
    (hvalid : record.isStructurallyValid = true) (hfits : record.Representable)
    (hvotes : ∀ vote ∈ record.quorumCertificate.votes, VoteText crypto vote) :
    FinalizedBlockRecord.deserialize crypto (record.serialize crypto) = .ok record := by
  obtain ⟨hfinalized, hblock, hprevious, hcertificate, hindex, hround⟩ :=
    isStructurallyValid_text hvalid
  have hprint : Printable [("blockIndex", toString record.blockIndex),
      ("blockHash", record.blockHash), ("previousHash", record.previousHash),
      ("round", toString record.round), ("finalizedAt", toString record.finalizedAt),
      ("quorumCertificate", record.quorumCertificate.serialize crypto)] := by
    refine @printable_of _ ["blockIndex", "blockHash", "previousHash", "round", "finalizedAt",
      "quorumCertificate"] rfl (by decide) ?_
    simp only [List.forall_mem_cons]
    exact ⟨fieldText_nat _, hblock, hprevious, fieldText_nat _, fieldText_int _,
      QuorumCertificate.fieldText hcertificate hvotes, by simp⟩
  have hfields : parseObjectFields (record.serialize crypto) "FinalizedBlockRecord" = _ :=
    parseObjectFields_serializeObject hprint
  have hread := QuorumCertificate.deserialize_serialize hcertificate hvotes
    (by rw [hindex]; exact hfits.blockIndex) (by rw [hround]; exact hfits.round)
  simp only [FinalizedBlockRecord.deserialize, hfields, requireExactFields_ok,
    List.map_cons, List.map_nil, Guards.ok_bind, requireField_cons,
    String.reduceEq, if_true, if_false, parseU64Strict_toString hfits.blockIndex,
    parseU64Strict_toString hfits.round, parseI64Strict_toString (by omega) hfits.finalizedAt, hread,
    hvalid, beq_self_eq_true, ensure_true]

end FinalizedBlockRecord

--
-- What an accepted text says
--

theorem true_of_ensure {check : Bool} {message : String} {u : Unit}
    (h : ensure check message = .ok u) : check = true := by
  cases check with
  | false => cases h
  | true => rfl

theorem parseSignature_carries {crypto : CryptoContext} {serialized : String} {key : PublicKey}
    {signature : Signature} (h : parseSignature crypto serialized key = .ok signature) :
    signature.publicKey = key := by
  unfold parseSignature at h
  iterate 16 obtain ⟨_, -, h⟩ := Guards.ok_of_bind h
  cases h
  rfl

theorem addSignatures_carries {crypto : CryptoContext} {key : PublicKey} {parts : List String}
    {bundle result : SignatureBundle} (hbundle : ∀ signature ∈ bundle, signature.publicKey = key)
    (h : addSignatures crypto key bundle parts = .ok result) :
    ∀ signature ∈ result, signature.publicKey = key := by
  induction parts generalizing bundle with
  | nil =>
    cases h
    exact hbundle
  | cons part rest ih =>
    obtain ⟨signature, hparse, h⟩ := Guards.ok_of_bind h
    obtain ⟨_, -, h⟩ := Guards.ok_of_bind h
    obtain ⟨_, -, h⟩ := Guards.ok_of_bind h
    refine ih ?_ h
    intro other hother
    rcases List.mem_append.mp hother with hold | hnew
    · exact hbundle other hold
    · rw [List.mem_singleton.mp hnew]
      exact parseSignature_carries hparse

theorem parseSignatureBundle_carries {crypto : CryptoContext} {serialized : String}
    {key : PublicKey} {bundle : SignatureBundle}
    (h : parseSignatureBundle crypto serialized key = .ok bundle) :
    ∀ signature ∈ bundle, signature.publicKey = key := by
  obtain ⟨_, -, h⟩ := Guards.ok_of_bind h
  obtain ⟨parts, -, h⟩ := Guards.ok_of_bind h
  obtain ⟨result, hadd, h⟩ := Guards.ok_of_bind h
  obtain ⟨_, -, h⟩ := Guards.ok_of_bind h
  cases h
  exact addSignatures_carries (by simp) hadd

/-- A vote that was read carries its own key in its signatures. -/
theorem ValidatorVoteRecord.deserialize_carries {crypto : CryptoContext} {serialized : String}
    {vote : ValidatorVoteRecord} (h : deserialize crypto serialized = .ok vote) :
    ∀ signature ∈ vote.signatureBundle, signature.publicKey = vote.validatorPublicKey := by
  unfold deserialize at h
  iterate 19 obtain ⟨_, -, h⟩ := Guards.ok_of_bind h
  obtain ⟨bundle, hbundle, h⟩ := Guards.ok_of_bind h
  obtain ⟨_, -, h⟩ := Guards.ok_of_bind h
  cases h
  exact parseSignatureBundle_carries hbundle

theorem parseVotes_carries {crypto : CryptoContext} {serialized : String}
    {votes : List ValidatorVoteRecord} (h : parseVotes crypto serialized = .ok votes) :
    ∀ vote ∈ votes, ∀ signature ∈ vote.signatureBundle,
      signature.publicKey = vote.validatorPublicKey := by
  unfold parseVotes at h
  split at h
  · cases h
  · split at h
    · cases h
      simp
    · obtain ⟨parts, -, h⟩ := Guards.ok_of_bind h
      clear * - h
      induction parts generalizing votes with
      | nil =>
        cases h
        simp
      | cons part rest ih =>
        rw [List.mapM_cons] at h
        obtain ⟨vote, hvote, h⟩ := Guards.ok_of_bind h
        obtain ⟨others, hothers, h⟩ := Guards.ok_of_bind h
        cases h
        intro other hother
        rcases List.mem_cons.mp hother with rfl | hrest
        · exact ValidatorVoteRecord.deserialize_carries hvote
        · exact ih hothers other hrest

theorem QuorumCertificate.deserialize_carries {crypto : CryptoContext} {serialized : String}
    {certificate : QuorumCertificate} (h : deserialize crypto serialized = .ok certificate) :
    ∀ vote ∈ certificate.votes, ∀ signature ∈ vote.signatureBundle,
      signature.publicKey = vote.validatorPublicKey := by
  unfold deserialize at h
  iterate 16 obtain ⟨_, -, h⟩ := Guards.ok_of_bind h
  obtain ⟨votes, hvotes, h⟩ := Guards.ok_of_bind h
  obtain ⟨_, -, h⟩ := Guards.ok_of_bind h
  obtain ⟨_, -, h⟩ := Guards.ok_of_bind h
  cases h
  exact parseVotes_carries hvotes

namespace FinalizedBlockRecord

theorem deserialize_carries {crypto : CryptoContext} {serialized : String}
    {record : FinalizedBlockRecord} (h : deserialize crypto serialized = .ok record) :
    record.SignaturesCarryKeys := by
  unfold deserialize at h
  iterate 11 obtain ⟨_, -, h⟩ := Guards.ok_of_bind h
  obtain ⟨certificate, hcertificate, h⟩ := Guards.ok_of_bind h
  obtain ⟨_, -, h⟩ := Guards.ok_of_bind h
  obtain ⟨_, -, h⟩ := Guards.ok_of_bind h
  cases h
  exact QuorumCertificate.deserialize_carries hcertificate

/-- An accepted text is what its record prints. -/
theorem serialize_of_deserialize {crypto : CryptoContext} {serialized : String}
    {record : FinalizedBlockRecord} (h : deserialize crypto serialized = .ok record) :
    record.serialize crypto = serialized := by
  unfold deserialize at h
  iterate 13 obtain ⟨_, -, h⟩ := Guards.ok_of_bind h
  obtain ⟨_, hcanonical, h⟩ := Guards.ok_of_bind h
  cases h
  exact beq_iff_eq.mp (true_of_ensure hcanonical)

end FinalizedBlockRecord

--
-- What an accepted text says of its values
--

theorem toList_parts_of_splitTopLevel {value : String} {separator : Char} {parts : List String}
    (h : splitTopLevel value separator = .ok parts) :
    split separator value.toList = .ok (parts.map String.toList) := by
  unfold splitTopLevel at h
  cases hsplit : split separator value.toList with
  | error e =>
    rw [hsplit] at h
    cases h
  | ok texts =>
    rw [hsplit] at h
    cases h
    simp

/-- The value of a field read from a closed part, if the name of the field is one. -/
theorem fieldText_of_parseField {typeName part : String} {field : String × String}
    (hclosed : Closed ';' part.toList) (h : parseField typeName part = .ok field)
    (hname : isFieldName field.1 = true) : FieldText field.2 := by
  obtain ⟨hbad, h⟩ := Guards.ok_of_ite_error h
  simp only [Bool.or_eq_true, decide_eq_true_eq, not_or, Bool.not_eq_true] at hbad
  obtain ⟨⟨-, -⟩, hlong⟩ := hbad
  cases h
  obtain ⟨-, -, hsemicolon, -, hplain⟩ := isFieldName_spec hname
  simp only [String.toList_ofList] at hsemicolon hplain
  cases hrest : part.toList.dropWhile (· != '=') with
  | nil =>
    rw [hrest] at hlong
    exact absurd (Nat.zero_le 1) hlong
  | cons c value =>
    have hequals : c = '=' := by
      have hfirst := List.dropWhile_get_zero_not (· != '=') part.toList (by rw [hrest]; simp)
      simpa [hrest] using hfirst
    have htext : part.toList = part.toList.takeWhile (· != '=') ++ (['='] ++ value) := by
      conv_lhs => rw [← @List.takeWhile_append_dropWhile _ (· != '=') part.toList, hrest, hequals]
      rfl
    rw [hrest, List.length_cons, Nat.not_le] at hlong
    refine ⟨?_, ?_⟩
    · rw [String.toList_ofList, List.tail_cons]
      exact List.ne_nil_of_length_pos (Nat.lt_of_succ_lt_succ hlong)
    · rw [htext] at hclosed
      rw [String.toList_ofList, List.tail_cons]
      exact (hclosed.of_append hplain hsemicolon).of_append (by decide) (by decide)

theorem fieldText_of_addFields {typeName : String} {parts : List String}
    {fields result : ObjectFields} (hparts : ∀ part ∈ parts, Closed ';' part.toList)
    (h : addFields typeName fields parts = .ok result)
    (hfields : ∀ field ∈ fields, isFieldName field.1 = true → FieldText field.2) :
    ∀ field ∈ result, isFieldName field.1 = true → FieldText field.2 := by
  induction parts generalizing fields with
  | nil =>
    cases h
    exact hfields
  | cons part rest ih =>
    obtain ⟨field, hparse, h⟩ := Guards.ok_of_bind h
    obtain ⟨-, h⟩ := Guards.ok_of_ite_error h
    refine ih (fun other hother => hparts other (List.mem_cons_of_mem _ hother)) h ?_
    intro other hother hname
    rcases List.mem_append.mp hother with hold | hnew
    · exact hfields other hold hname
    · rw [List.mem_singleton.mp hnew] at hname ⊢
      exact fieldText_of_parseField (hparts part List.mem_cons_self) hparse hname

/-- **The fields of an accepted object hold field texts.** -/
theorem fieldText_of_parseObjectFields {serialized typeName : String} {fields : ObjectFields}
    (h : parseObjectFields serialized typeName = .ok fields) :
    ∀ field ∈ fields, isFieldName field.1 = true → FieldText field.2 := by
  obtain ⟨body, -, h⟩ := Guards.ok_of_bind h
  obtain ⟨parts, hsplit, h⟩ := Guards.ok_of_bind h
  obtain ⟨-, hclosed⟩ := closed_of_split (by decide) (toList_parts_of_splitTopLevel hsplit)
  refine fieldText_of_addFields ?_ h (by simp)
  intro part hpart
  exact (hclosed part.toList (List.mem_map_of_mem hpart)).2

theorem fieldText_of_requireField {serialized typeName key value : String} {fields : ObjectFields}
    (h : parseObjectFields serialized typeName = .ok fields)
    (hrequire : requireField fields key typeName = .ok value) (hname : isFieldName key = true) :
    FieldText value := by
  unfold requireField at hrequire
  cases hfind : fields.find? (·.1 == key) with
  | none =>
    rw [hfind] at hrequire
    cases hrequire
  | some field =>
    rw [hfind] at hrequire
    cases hrequire
    refine fieldText_of_parseObjectFields h field (List.mem_of_find?_eq_some hfind) ?_
    have hkey : field.1 = key := by simpa using List.find?_some hfind
    rw [hkey]
    exact hname

theorem lt_of_parseU64Strict {value fieldName : String} {n : Nat}
    (h : parseU64Strict value fieldName = .ok n) : n < 2 ^ 64 := by
  obtain ⟨-, h⟩ := Guards.ok_of_ite_error h
  obtain ⟨-, h⟩ := Guards.ok_of_ite_error h
  obtain ⟨hfits, h⟩ := Guards.ok_of_ite_error h
  cases h
  exact Nat.not_le.mp hfits

theorem fits_of_parseI64Strict {value fieldName : String} {i : Int}
    (h : parseI64Strict value fieldName = .ok i) : -2 ^ 63 ≤ i ∧ i < 2 ^ 63 := by
  unfold parseI64Strict at h
  simp only at h
  obtain ⟨-, h⟩ := Guards.ok_of_ite_error h
  obtain ⟨-, h⟩ := Guards.ok_of_ite_error h
  obtain ⟨hfits, h⟩ := Guards.ok_of_ite_error h
  cases h
  simp only [Bool.or_eq_true, decide_eq_true_eq, not_or] at hfits
  omega

theorem parsePublicKey_spec {crypto : CryptoContext} {serialized : String} {key : PublicKey}
    (h : parsePublicKey crypto serialized = .ok key) :
    crypto.publicKeyIsValid key = true ∧ FieldText key.keyMaterial := by
  unfold parsePublicKey at h
  obtain ⟨fields, hfields, h⟩ := Guards.ok_of_bind h
  iterate 4 obtain ⟨_, -, h⟩ := Guards.ok_of_bind h
  obtain ⟨material, hmaterial, h⟩ := Guards.ok_of_bind h
  obtain ⟨_, hvalid, h⟩ := Guards.ok_of_bind h
  cases h
  have hchecks := true_of_ensure hvalid
  rw [Bool.and_eq_true] at hchecks
  exact ⟨hchecks.1, fieldText_of_requireField hfields hmaterial (by decide)⟩

theorem parseSignature_spec {crypto : CryptoContext} {serialized : String} {key : PublicKey}
    {signature : Signature} (h : parseSignature crypto serialized key = .ok signature) :
    crypto.signatureIsValid signature = true ∧ signature.createdAt < 2 ^ 63 := by
  unfold parseSignature at h
  iterate 14 obtain ⟨_, -, h⟩ := Guards.ok_of_bind h
  obtain ⟨createdAt, hcreated, h⟩ := Guards.ok_of_bind h
  obtain ⟨_, hvalid, h⟩ := Guards.ok_of_bind h
  cases h
  have hchecks := true_of_ensure hvalid
  rw [Bool.and_eq_true] at hchecks
  exact ⟨hchecks.1, (fits_of_parseI64Strict hcreated).2⟩

/-- The signatures collected so far, and after the loop. -/
theorem addSignatures_spec {crypto : CryptoContext} {key : PublicKey} {parts : List String}
    {bundle result : SignatureBundle} (hmaterial : FieldText key.keyMaterial)
    (hbundle : BundleText crypto key bundle)
    (h : addSignatures crypto key bundle parts = .ok result) :
    BundleText crypto key result ∧ result.length = bundle.length + parts.length := by
  induction parts generalizing bundle with
  | nil =>
    cases h
    exact ⟨hbundle, rfl⟩
  | cons part rest ih =>
    obtain ⟨signature, hparse, h⟩ := Guards.ok_of_bind h
    obtain ⟨_, -, h⟩ := Guards.ok_of_bind h
    obtain ⟨_, hnew, h⟩ := Guards.ok_of_bind h
    obtain ⟨hvalid, hfits⟩ := parseSignature_spec hparse
    have hcarries := parseSignature_carries hparse
    have hfresh := true_of_ensure hnew
    rw [Bool.not_eq_true', List.any_eq_false] at hfresh
    have hlonger : BundleText crypto key (bundle ++ [signature]) := by
      refine ⟨?_, ?_, hmaterial, ?_, ?_⟩
      · simpa [or_imp, forall_and] using ⟨hbundle.valid, hvalid⟩
      · simpa [or_imp, forall_and] using ⟨hbundle.carries, hcarries⟩
      · simpa [or_imp, forall_and] using ⟨hbundle.fits, hfits⟩
      · rw [List.map_append, List.nodup_append]
        refine ⟨hbundle.distinct, List.nodup_singleton _, ?_⟩
        intro algorithm halgorithm other hother hsame
        obtain ⟨earlier, hearlier, rfl⟩ := List.mem_map.mp halgorithm
        rw [List.map_singleton, List.mem_singleton] at hother
        exact hfresh earlier hearlier (beq_iff_eq.mpr (hsame.trans hother))
    obtain ⟨hresult, hlength⟩ := ih hlonger h
    refine ⟨hresult, ?_⟩
    rw [hlength, List.length_append, List.length_singleton, List.length_cons]
    omega

theorem parseSignatureBundle_spec {crypto : CryptoContext} {serialized : String} {key : PublicKey}
    {bundle : SignatureBundle} (hmaterial : FieldText key.keyMaterial)
    (h : parseSignatureBundle crypto serialized key = .ok bundle) :
    BundleText crypto key bundle ∧ bundle ≠ [] := by
  obtain ⟨body, -, h⟩ := Guards.ok_of_bind h
  obtain ⟨parts, hsplit, h⟩ := Guards.ok_of_bind h
  obtain ⟨result, hadd, h⟩ := Guards.ok_of_bind h
  obtain ⟨_, -, h⟩ := Guards.ok_of_bind h
  cases h
  have hempty : BundleText crypto key [] :=
    ⟨by simp, by simp, hmaterial, by simp, List.nodup_nil⟩
  obtain ⟨hbundle, hlength⟩ := addSignatures_spec hmaterial hempty hadd
  refine ⟨hbundle, ?_⟩
  obtain ⟨hsome, -⟩ := closed_of_split (by decide) (toList_parts_of_splitTopLevel hsplit)
  rintro rfl
  rw [List.length_nil] at hlength
  exact hsome (by rw [List.map_eq_nil_iff, ← List.length_eq_zero_iff]; omega)

theorem parseVoteDecision_known {value : String} {decision : ValidatorVoteDecision}
    (h : parseVoteDecision value = .ok decision) : decision ≠ .unknown := by
  unfold parseVoteDecision at h
  rintro rfl
  split_ifs at h <;> cases h

/-- **A vote is read back from its own text exactly when it is readable.** -/
theorem ValidatorVoteRecord.readable_iff {crypto : CryptoContext}
    {vote : ValidatorVoteRecord} :
    deserialize crypto (vote.serialize crypto) = .ok vote ↔ ReadableVote crypto vote := by
  refine ⟨fun h => ?_, fun h => h.deserialize_serialize⟩
  generalize vote.serialize crypto = serialized at h
  unfold deserialize at h
  obtain ⟨fields, hfields, h⟩ := Guards.ok_of_bind h
  obtain ⟨_, -, h⟩ := Guards.ok_of_bind h
  obtain ⟨_, -, h⟩ := Guards.ok_of_bind h
  obtain ⟨key, hkey, h⟩ := Guards.ok_of_bind h
  obtain ⟨fingerprint, hfingerprint, h⟩ := Guards.ok_of_bind h
  obtain ⟨_, hsame, h⟩ := Guards.ok_of_bind h
  obtain ⟨address, haddress, h⟩ := Guards.ok_of_bind h
  obtain ⟨_, -, h⟩ := Guards.ok_of_bind h
  obtain ⟨blockIndex, hindex, h⟩ := Guards.ok_of_bind h
  obtain ⟨blockHash, hblock, h⟩ := Guards.ok_of_bind h
  obtain ⟨previousHash, hprevious, h⟩ := Guards.ok_of_bind h
  obtain ⟨_, -, h⟩ := Guards.ok_of_bind h
  obtain ⟨round, hround, h⟩ := Guards.ok_of_bind h
  obtain ⟨_, -, h⟩ := Guards.ok_of_bind h
  obtain ⟨decision, hdecision, h⟩ := Guards.ok_of_bind h
  obtain ⟨reasonHash, hreason, h⟩ := Guards.ok_of_bind h
  obtain ⟨_, -, h⟩ := Guards.ok_of_bind h
  obtain ⟨createdAt, hcreated, h⟩ := Guards.ok_of_bind h
  obtain ⟨_, -, h⟩ := Guards.ok_of_bind h
  obtain ⟨bundle, hbundle, h⟩ := Guards.ok_of_bind h
  obtain ⟨_, -, h⟩ := Guards.ok_of_bind h
  obtain ⟨hvalid, hmaterial⟩ := parsePublicKey_spec hkey
  obtain ⟨hsignatures, hsigned⟩ := parseSignatureBundle_spec hmaterial hbundle
  have hprint := fieldText_of_requireField hfields hfingerprint (by decide)
  rw [beq_iff_eq.mp (true_of_ensure hsame)] at hprint
  cases h
  exact {
    validatorAddress := fieldText_of_requireField hfields haddress (by decide)
    publicKey := hvalid
    fingerprint := hprint
    blockIndex := lt_of_parseU64Strict hindex
    blockHash := fieldText_of_requireField hfields hblock (by decide)
    previousHash := fieldText_of_requireField hfields hprevious (by decide)
    round := lt_of_parseU64Strict hround
    decision := parseVoteDecision_known hdecision
    reasonHash := fieldText_of_requireField hfields hreason (by decide)
    createdAt := fits_of_parseI64Strict hcreated
    signed := hsigned
    bundle := hsignatures }

--
-- The codec
--

theorem fieldText_digest {text : String} (h : ChainBlock.isCanonicalCommitmentRoot text = true) :
    FieldText text := by
  obtain ⟨hlength, hdigits⟩ := Guards.true_of_ite_false h
  refine fieldText_of_all _ ?_ hdigits (by decide)
  intro hnil
  apply hlength
  rw [← String.length_toList, hnil]
  decide

/-- The key material of a valid BLS key is hexadecimal. -/
theorem PublicKey.fieldText_of_isValid {key : PublicKey} (halgorithm : key.algorithm = .bls12381)
    (h : key.isValid = true) : FieldText key.keyMaterial := by
  obtain ⟨hne, h⟩ := Guards.true_of_ite_false h
  rw [halgorithm] at h
  have hhex : hasHexByteSize key.keyMaterial 48 = true := h
  simp only [hasHexByteSize, Bool.and_eq_true] at hhex
  exact fieldText_of_all CryptoContext.isHexDigit (by simpa using hne) hhex.2 (by decide)

/-- A structurally valid vote whose signatures carry its key is determined by its text. -/
theorem voteText_of_isStructurallyValid {crypto : CryptoContext} {hashBytes : String → String}
    (hdigest : ∀ text, ChainBlock.isCanonicalCommitmentRoot (hashBytes text) = true)
    {vote : ValidatorVoteRecord}
    (hvalid : vote.isStructurallyValid (crypto.withKeys hashBytes) = true)
    (hindex : vote.blockIndex < 2 ^ 64) (hround : vote.round < 2 ^ 64)
    (hcreated : vote.createdAt < 2 ^ 63)
    (hfits : ∀ signature ∈ vote.signatureBundle, signature.createdAt < 2 ^ 63)
    (hdistinct : (vote.signatureBundle.map Signature.algorithm).Nodup)
    (hcarries : ∀ signature ∈ vote.signatureBundle, signature.publicKey = vote.validatorPublicKey) :
    VoteText (crypto.withKeys hashBytes) vote := by
  simp only [ValidatorVoteRecord.isStructurallyValid, CryptoContext.bundleIsValidForPolicy,
    Bool.and_eq_true, bne_iff_ne, decide_eq_true_eq, List.all_eq_true, Bool.not_eq_true'] at hvalid
  obtain ⟨⟨⟨⟨⟨⟨⟨⟨⟨⟨⟨haddress, hblock⟩, hprevious⟩, hreason⟩, hkey⟩, -⟩, -⟩, -⟩, hpositive⟩,
    hdecision⟩, -⟩, hempty, hbundle⟩ := hvalid
  have hne : vote.signatureBundle ≠ [] := by simpa using hempty
  have hmaterial : FieldText vote.validatorPublicKey.keyMaterial := by
    -- the policy admits BLS signatures only, and the first one carries the key of the vote
    obtain ⟨signature, hsignature⟩ := List.exists_mem_of_ne_nil _ hne
    obtain ⟨⟨hsignatureValid, hallowed⟩, -⟩ := hbundle signature hsignature
    obtain ⟨-, -, -, -, -, halgorithm⟩ := signatureIsValid_spec hsignatureValid
    refine PublicKey.fieldText_of_isValid ?_ hkey
    rw [← hcarries signature hsignature, ← halgorithm]
    exact beq_iff_eq.mp hallowed
  exact {
    validatorAddress := fieldText_of_safe haddress
    publicKey := hkey
    fingerprint := fieldText_digest (hdigest _)
    blockIndex := hindex
    blockHash := fieldText_of_safe hblock
    previousHash := fieldText_of_safe hprevious
    round := hround
    decision := hdecision
    reasonHash := fieldText_of_safe hreason
    createdAt := ⟨hpositive, hcreated⟩
    signed := hne
    bundle := {
      valid := fun signature hsignature => (hbundle signature hsignature).1.1
      carries := hcarries
      material := hmaterial
      fits := hfits
      distinct := hdistinct } }

/-- **Finality records survive the text codec**: a structurally valid record with
structurally valid votes whose signatures carry the keys of their votes is read back from its
text; an accepted text is what its record prints; and two accepted records with one text are
the same. -/
theorem finalizedRecord_codec (crypto : CryptoContext) (hashBytes : String → String)
    (hdigest : ∀ text, ChainBlock.isCanonicalCommitmentRoot (hashBytes text) = true) :
    let context := crypto.withKeys hashBytes
    (∀ record : FinalizedBlockRecord, record.isStructurallyValid = true →
      (∀ vote ∈ record.quorumCertificate.votes, vote.isStructurallyValid context = true) →
      record.Representable → record.SignaturesCarryKeys →
      FinalizedBlockRecord.deserialize context (record.serialize context) = .ok record) ∧
    (∀ serialized record, FinalizedBlockRecord.deserialize context serialized = .ok record →
      record.serialize context = serialized) ∧
    (∀ serialized serialized' record record',
      FinalizedBlockRecord.deserialize context serialized = .ok record →
      FinalizedBlockRecord.deserialize context serialized' = .ok record' →
      record.serialize context = record'.serialize context → record = record') := by
  intro context
  refine ⟨?_, fun _ _ h => FinalizedBlockRecord.serialize_of_deserialize h, ?_⟩
  · intro record hvalid hvotes hfits hcarries
    obtain ⟨-, -, -, hcertificate, hindex, hround⟩ :=
      FinalizedBlockRecord.isStructurallyValid_text hvalid
    obtain ⟨-, -, -, -, htarget⟩ := QuorumCertificate.isStructurallyValid_text hcertificate
    refine FinalizedBlockRecord.deserialize_serialize hvalid hfits ?_
    intro vote hvote
    obtain ⟨hcreated, hsignatures, hdistinct⟩ := hfits.votes vote hvote
    obtain ⟨hvoteIndex, hvoteRound⟩ := htarget vote hvote
    exact voteText_of_isStructurallyValid hdigest (hvotes vote hvote)
      (by rw [hvoteIndex, hindex]; exact hfits.blockIndex)
      (by rw [hvoteRound, hround]; exact hfits.round) hcreated hsignatures hdistinct
      (hcarries vote hvote)
  · intro serialized serialized' record record' h h' hsame
    rw [FinalizedBlockRecord.serialize_of_deserialize h,
      FinalizedBlockRecord.serialize_of_deserialize h'] at hsame
    rw [hsame, h'] at h
    exact (Except.ok.inj h).symm

/-- A BLS key of 48 equal bytes. -/
def sampleBlsKey (c : Char) : PublicKey := ⟨.bls12381, String.ofList (List.replicate 96 c)⟩

/-- The digest of the text of the first of these keys. -/
def sampleKeyDigest : String := "c35ac5b70cefe8d2465d0efa91e20c0168c7f76b6fd13479bd14f418914d6afd"

/-- A record whose one vote of key `a` is signed by the given key. -/
def sampleSignedBy (signer : Char) : FinalizedBlockRecord :=
  ⟨1, "B", "G", 1, 20, ⟨1, "B", "G", 1, 2666667, 4000000, 3000000, "root",
    [⟨⟨(sampleBlsKey 'a').keyMaterial, sampleBlsKey 'a', 1, "B", "G", 1, .precommit, "reason", 10⟩,
      [⟨.nodoCryptoSuiteV1, .validatorVote, .bls12381, sampleBlsKey signer, "00", 10⟩]⟩]⟩⟩

theorem sampleSignedBy_representable (signer : Char) : (sampleSignedBy signer).Representable where
  blockIndex := show 1 < 2 ^ 64 by decide
  round := show 1 < 2 ^ 64 by decide
  finalizedAt := show (20 : Int) < 2 ^ 63 by decide
  votes vote hvote := by
    rw [List.mem_singleton.mp hvote]
    refine ⟨show (10 : Int) < 2 ^ 63 by decide, ?_, List.nodup_singleton _⟩
    intro signature hsignature
    rw [List.mem_singleton.mp hsignature]
    exact show (10 : Int) < 2 ^ 63 by decide

/-- A record signed by the key of its vote is read back. -/
theorem own_signature_reloaded :
    FinalizedBlockRecord.deserialize (sampleCrypto.withKeys fun _ => sampleKeyDigest)
      ((sampleSignedBy 'a').serialize (sampleCrypto.withKeys fun _ => sampleKeyDigest))
      = .ok (sampleSignedBy 'a') := by
  refine (finalizedRecord_codec sampleCrypto (fun _ => sampleKeyDigest)
    (fun _ => by decide +kernel)).1 (sampleSignedBy 'a') (by decide +kernel) ?_
    (sampleSignedBy_representable 'a') ?_
  · decide +kernel
  · intro vote hvote signature hsignature
    rw [List.mem_singleton.mp hvote] at hsignature ⊢
    rw [List.mem_singleton.mp hsignature]

/-- **A structurally valid record that is not read back**: its vote carries one key and the
signature another. -/
theorem foreign_signature_not_reloaded :
    (sampleSignedBy 'b').isStructurallyValid = true ∧
      (∀ vote ∈ (sampleSignedBy 'b').quorumCertificate.votes,
        vote.isStructurallyValid (sampleCrypto.withKeys fun _ => sampleKeyDigest) = true) ∧
      (sampleSignedBy 'b').Representable ∧
      FinalizedBlockRecord.deserialize (sampleCrypto.withKeys fun _ => sampleKeyDigest)
        ((sampleSignedBy 'b').serialize (sampleCrypto.withKeys fun _ => sampleKeyDigest))
        ≠ .ok (sampleSignedBy 'b') := by
  refine ⟨by decide +kernel, by decide +kernel, sampleSignedBy_representable 'b', ?_⟩
  intro haccepted
  have hcarries := FinalizedBlockRecord.deserialize_carries haccepted _ List.mem_cons_self _
    List.mem_cons_self
  revert hcarries
  decide +kernel

end Nodo.Model
