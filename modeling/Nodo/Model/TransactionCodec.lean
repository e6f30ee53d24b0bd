import Nodo.Lib.FieldSearch
import Nodo.Model.CoinLotTransfer
import Nodo.Model.RecordCodec
import Nodo.Model.VotePoolRuns

/-!
# Nodo — transactions and their text

`core/Transaction.cpp`, `core/TransactionTypePolicy.cpp` and the parser of `SignatureBundle`.
`deserialize` finds the fields of the payload by searching `name=` in the whole payload and ends
with comparisons of what it read, printed again, with its input.

Addresses and chain ids hold no equals sign. Ids of input lots may hold one, and they stand before
the nonce: an id that spells out a later field is taken for that field.

## Results

* `Constructed` — what the constructors, `withChainId` and `attachSignatureBundle` leave.
* `signingPayload_injective` — two structurally valid transactions with one payload agree.
* `deserialize_serialize_iff` — when a structurally valid transaction is read back from its text.
* `transaction_codec` — both, and that accepted texts are canonical.
* `spelled_nonce_not_read` — a lot id that spells out a nonce.
-/

namespace Nodo.Model

open NestedText FieldSearch

--
-- Policies (core/TransactionTypePolicy.cpp)
--

inductive TransactionAmountRule
  | zero
  | positive
  deriving DecidableEq

inductive TransactionDebitRule
  | feeOnly
  | amountPlusFee
  deriving DecidableEq

inductive TransactionCreditRule
  | none
  | targetAmount
  | senderAmount
  deriving DecidableEq

/-- The rules of a type; its handler is chosen by the type itself. -/
structure TransactionTypePolicy where
  amountRule : TransactionAmountRule
  debitRule : TransactionDebitRule
  creditRule : TransactionCreditRule
  payloadRequired : Bool
  payloadAllowed : Bool
  deriving DecidableEq

/-- `policyFor`; every type has a policy. -/
def policyFor : TransactionType → TransactionTypePolicy
  | .transfer => ⟨.positive, .amountPlusFee, .targetAmount, false, false⟩
  | .burn => ⟨.positive, .amountPlusFee, .none, false, false⟩
  | .stakeDeposit => ⟨.positive, .amountPlusFee, .none, false, false⟩
  | .stakeUnlock => ⟨.positive, .feeOnly, .none, false, false⟩
  | .stakeWithdraw => ⟨.positive, .feeOnly, .senderAmount, false, false⟩
  | .stakeTopUp => ⟨.positive, .amountPlusFee, .none, false, false⟩
  | .validatorRegister => ⟨.positive, .amountPlusFee, .none, true, true⟩
  | .validatorExitRequest => ⟨.zero, .feeOnly, .none, false, false⟩
  | .validatorUnjailRequest => ⟨.zero, .feeOnly, .none, false, false⟩
  | .validatorKeyRotate => ⟨.zero, .feeOnly, .none, true, true⟩
  | .governancePropose => ⟨.zero, .feeOnly, .none, true, true⟩
  | .governanceVote => ⟨.zero, .feeOnly, .none, true, true⟩
  | .governanceExecute => ⟨.zero, .feeOnly, .none, false, false⟩

/-- `validateShape`; `some reason` is a refusal. -/
def validateShape (transaction : Transaction) : Option String :=
  let policy := policyFor transaction.type
  if policy.amountRule == .zero && !transaction.amount.isZero then
    some "Transaction amount must be zero for this type."
  else if policy.amountRule == .positive && !transaction.amount.isPositive then
    some "Transaction amount must be positive for this type."
  else if transaction.toAddress.isEmpty then some "Transaction target is required."
  else if policy.payloadRequired && transaction.data.isEmpty then
    some "Transaction payload is required for this type."
  else if !policy.payloadAllowed && !transaction.data.isEmpty then
    some "Transaction payload is not allowed for this type."
  else if transaction.type == .transfer && transaction.fromAddress == transaction.toAddress then
    some "Transfer sender and recipient must differ."
  else if transaction.type == .burn && transaction.toAddress != "nodo_burn" then
    some "Burn target must be the canonical burn address."
  else if transaction.type == .governancePropose && transaction.toAddress != "nodo_governance" then
    some "Governance proposal target must be the canonical governance address."
  else none

/-- `maximumDebit`, which throws where the sum does. -/
def maximumDebit (transaction : Transaction) : Except String Amount :=
  match (policyFor transaction.type).debitRule with
  | .amountPlusFee => transaction.amount.plus transaction.fee
  | .feeOnly => .ok transaction.fee

--
-- Signature policies (crypto/CryptoPolicy.cpp, crypto/SigningDomain.cpp)
--

inductive SecurityContext
  | peerAuthentication
  | userTransaction
  | validatorOperation
  | treasuryOperation
  | mintOperation
  | developmentOnly
  deriving DecidableEq

/-- `CryptoPolicy::isAlgorithmAllowed`. -/
def isAlgorithmAllowed (developmentMode : Bool) (algorithm : CryptoAlgorithm)
    (context : SecurityContext) : Bool :=
  if algorithm == .developmentFakeSignature then context == .developmentOnly && developmentMode
  else if context == .userTransaction then algorithm == .classicEd25519
  else if context == .peerAuthentication then algorithm == .classicEd25519
  else if context == .validatorOperation then algorithm == .bls12381
  else if context == .treasuryOperation || context == .mintOperation then algorithm == .bls12381
  else if algorithm == .classicEd25519 || algorithm == .classicEcdsaSecp256k1 then true
  else algorithm == .bls12381

def signingDomainForSecurityContext : SecurityContext → SigningDomain
  | .peerAuthentication => .peerHandshake
  | .userTransaction => .userTransaction
  | .validatorOperation => .validatorVote
  | .treasuryOperation => .treasuryProposal
  | .mintOperation => .mintAuthorization
  | .developmentOnly => .unknown

def isSigningDomainAllowedForContext (domain : SigningDomain) (context : SecurityContext) : Bool :=
  if domain == .unknown then false
  else if context == .validatorOperation then
    domain == .validatorVote || domain == .validatorBlockProposal || domain == .quorumCertificate
  else domain == signingDomainForSecurityContext context

/-- `SignatureBundle::isValidForPolicy`. -/
def bundleIsValidFor (crypto : CryptoContext) (context : SecurityContext)
    (bundle : SignatureBundle) : Bool :=
  !bundle.isEmpty && bundle.all fun signature =>
    crypto.signatureIsValid signature
      && isAlgorithmAllowed crypto.developmentMode signature.algorithm context
      && isSigningDomainAllowedForContext signature.domain context

--
-- Numbers and bytes
--

/-- `std::stoll` with the rest of the text: blanks, a sign, then the longest run of digits; `none`
where it throws. -/
def stoll (text : List Char) : Option (Int × List Char) :=
  let trimmed := text.dropWhile fun c => [' ', '\t', '\n', '\x0b', '\x0c', '\r'].contains c
  let (negative, body) := splitSign trimmed
  let digits := body.takeWhile Char.isDigit
  let value : Int := if negative then -decimalValue digits else decimalValue digits
  if digits.isEmpty || value < -2 ^ 63 || 2 ^ 63 ≤ value then none
  else some (value, body.dropWhile Char.isDigit)

/-- The exception of a reading that failed. -/
def orThrow {α : Type} (message : String) : Option α → Except String α
  | none => .error message
  | some value => .ok value

/-- `Amount::fromRawUnits`. -/
def Amount.fromRawUnits (rawUnits : Int) : Except String Amount :=
  if rawUnits < 0 then .error "Amount cannot be negative."
  else if h : rawUnits.toNat ≤ maxRawUnits then .ok ⟨rawUnits.toNat, h⟩
  else .error "int64"

/-- The digits of `hexEncode`. -/
def hexDigit (value : Nat) : Char := "0123456789abcdef".toList.getD value '0'

/-- `hexEncode`; a character stands for its byte. -/
def hexEncode (data : String) : String :=
  String.ofList (data.toList.flatMap fun c => [hexDigit (c.toNat / 16), hexDigit (c.toNat % 16)])

def decodeNibble (c : Char) : Nat :=
  if c.isDigit then c.toNat - '0'.toNat
  else if 'a' ≤ c && c ≤ 'f' then c.toNat - 'a'.toNat + 10
  else c.toNat - 'A'.toNat + 10

/-- `hexDecode` of a text that `isHexString` accepts. -/
def hexDecode : List Char → List Char
  | high :: low :: rest => Char.ofNat (decodeNibble high * 16 + decodeNibble low) :: hexDecode rest
  | _ => []

def isHexString (hex : List Char) : Bool :=
  !hex.isEmpty && hex.length % 2 == 0 && hex.all CryptoContext.isHexDigit

--
-- Transactions (core/Transaction.cpp)
--

/-- A transaction with the fields that only its text and its signature concern; an empty bundle
stands for `m_hasSignatureBundle == false`. -/
structure SignedTransaction extends Transaction where
  chainId : String
  signatureBundle : SignatureBundle

def maxExplicitInputCoinLots : Nat := 128
def maxCoinLotIdLength : Nat := 256
def maxTransactionDataBytes : Nat := 4096
def maxAddressLength : Nat := 256

def isSafeTransactionAddress (address : String) : Bool :=
  !address.toList.isEmpty && address.toList.length ≤ maxAddressLength
    && !address.toList.any fun c =>
      [';', '=', '{', '}', '[', ']', ',', '\n', '\r', '\t', ' '].contains c

/-- Unlike an address, the id of a lot may hold an equals sign. -/
def isSafeCoinLotInputId (value : String) : Bool :=
  !value.toList.isEmpty && value.toList.length ≤ maxCoinLotIdLength
    && !value.toList.any fun c =>
      [';', ',', '[', ']', '{', '}', ' ', '\t', '\n', '\r'].contains c

def areInputCoinLotIdsStructurallyValid (inputCoinLotIds : List String) : Bool :=
  inputCoinLotIds.length ≤ maxExplicitInputCoinLots && decide inputCoinLotIds.Nodup
    && inputCoinLotIds.all isSafeCoinLotInputId

def serializeInputCoinLotIds (inputCoinLotIds : List String) : String :=
  "[" ++ String.intercalate "," inputCoinLotIds ++ "]"

/-- `transactionTypeToString`. -/
def TransactionType.text : TransactionType → String
  | transfer => "TRANSFER"
  | burn => "BURN"
  | stakeDeposit => "STAKE_DEPOSIT"
  | stakeUnlock => "STAKE_UNLOCK"
  | stakeWithdraw => "STAKE_WITHDRAW"
  | stakeTopUp => "STAKE_TOP_UP"
  | validatorRegister => "VALIDATOR_REGISTER"
  | validatorExitRequest => "VALIDATOR_EXIT_REQUEST"
  | validatorUnjailRequest => "VALIDATOR_UNJAIL_REQUEST"
  | validatorKeyRotate => "VALIDATOR_KEY_ROTATE"
  | governancePropose => "GOVERNANCE_PROPOSE"
  | governanceVote => "GOVERNANCE_VOTE"
  | governanceExecute => "GOVERNANCE_EXECUTE"

def transactionTypeFromString (value : String) : Except String TransactionType :=
  if value == "TRANSFER" then .ok .transfer
  else if value == "VALIDATOR_REGISTER" then .ok .validatorRegister
  else if value == "BURN" then .ok .burn
  else if value == "STAKE_DEPOSIT" then .ok .stakeDeposit
  else if value == "STAKE_UNLOCK" then .ok .stakeUnlock
  else if value == "STAKE_WITHDRAW" then .ok .stakeWithdraw
  else if value == "STAKE_TOP_UP" then .ok .stakeTopUp
  else if value == "VALIDATOR_EXIT_REQUEST" then .ok .validatorExitRequest
  else if value == "VALIDATOR_UNJAIL_REQUEST" then .ok .validatorUnjailRequest
  else if value == "VALIDATOR_KEY_ROTATE" then .ok .validatorKeyRotate
  else if value == "GOVERNANCE_PROPOSE" then .ok .governancePropose
  else if value == "GOVERNANCE_VOTE" then .ok .governanceVote
  else if value == "GOVERNANCE_EXECUTE" then .ok .governanceExecute
  else .error ("Unknown TransactionType: " ++ value)

namespace SignedTransaction

def headFields (transaction : SignedTransaction) : ObjectFields :=
  [("type", transaction.type.text), ("from", transaction.fromAddress),
    ("to", transaction.toAddress), ("amountRaw", toString transaction.amount.rawUnits),
    ("feeRaw", toString transaction.fee.rawUnits)]

def inputLotsField (transaction : SignedTransaction) : ObjectFields :=
  if transaction.inputCoinLotIds.isEmpty then []
  else [("inputLots", serializeInputCoinLotIds transaction.inputCoinLotIds)]

def dataHexField (transaction : SignedTransaction) : ObjectFields :=
  if transaction.data.isEmpty then [] else [("dataHex", hexEncode transaction.data)]

def chainIdField (transaction : SignedTransaction) : ObjectFields :=
  if transaction.chainId.isEmpty then [] else [("chainId", transaction.chainId)]

/-- The fields of the payload; three of them come and go. -/
def payloadFields (transaction : SignedTransaction) : ObjectFields :=
  transaction.headFields ++ transaction.inputLotsField ++ transaction.dataHexField
    ++ [("nonce", toString transaction.nonce.toNat), ("timestamp", toString transaction.timestamp)]
    ++ transaction.chainIdField

def signingPayload (transaction : SignedTransaction) : String :=
  serializeObject "TransactionPayload" transaction.payloadFields

/-- `computeTransactionIdFromPayload`; `hashBytes` is `nodo_hash_string`, which stops at a zero
byte. -/
def computeTransactionIdFromPayload (hashBytes : String → String) (signingPayload : String) :
    String :=
  hashBytes (cString signingPayload)

/-- The id that belongs to the other fields. -/
def withId (hashBytes : String → String) (transaction : SignedTransaction) : SignedTransaction :=
  { transaction with
    id := computeTransactionIdFromPayload hashBytes transaction.signingPayload }

/-- The constructor with explicit inputs; the shortest one passes none. -/
def ofInputs (hashBytes : String → String) (type : TransactionType)
    (fromAddress toAddress : String) (amount fee : Amount) (nonce : UInt64) (timestamp : Int)
    (inputCoinLotIds : List String) : Except String SignedTransaction :=
  if !areInputCoinLotIdsStructurallyValid inputCoinLotIds then
    .error "Invalid explicit input CoinLot id list."
  else if type != .transfer && !inputCoinLotIds.isEmpty then
    .error "Only TRANSFER transactions can declare input CoinLot ids."
  else .ok (withId hashBytes ⟨⟨"", type, fromAddress, toAddress, amount, fee, nonce, timestamp,
    inputCoinLotIds, ""⟩, "", []⟩)

/-- The constructor with data. -/
def ofData (hashBytes : String → String) (type : TransactionType)
    (fromAddress toAddress : String) (amount fee : Amount) (nonce : UInt64) (timestamp : Int)
    (data : String) : Except String SignedTransaction :=
  if maxTransactionDataBytes < data.toList.length then
    .error "Transaction data exceeds protocol limit."
  else .ok (withId hashBytes ⟨⟨"", type, fromAddress, toAddress, amount, fee, nonce, timestamp, [],
    data⟩, "", []⟩)

def withChainId (hashBytes : String → String) (transaction : SignedTransaction)
    (chainId : String) : Except String SignedTransaction :=
  if !transaction.signatureBundle.isEmpty then
    .error "Cannot change chainId after transaction signing."
  else if !isSafeTransactionAddress chainId then
    .error "Transaction chainId is empty or unsafe."
  else .ok (withId hashBytes { transaction with chainId := chainId })

def attachSignatureBundle (transaction : SignedTransaction) (bundle : SignatureBundle) :
    Except String SignedTransaction :=
  if bundle.isEmpty then .error "Empty SignatureBundle rejected by Transaction."
  else if !transaction.signatureBundle.isEmpty then
    .error "Transaction SignatureBundle is immutable once attached."
  else .ok { transaction with signatureBundle := bundle }

def serialize (transaction : SignedTransaction) : String :=
  serializeObject "Transaction" [("id", transaction.id), ("payload", transaction.signingPayload),
    ("signatureBundle", if transaction.signatureBundle.isEmpty then "NONE"
      else serializeBundle transaction.signatureBundle)]

/-- `isStructurallyValid`; every type requires a signature. -/
def isStructurallyValid (crypto : CryptoContext) (hashBytes : String → String)
    (context : SecurityContext) (transaction : SignedTransaction) : Bool :=
  if transaction.id.isEmpty then false
  else if transaction.timestamp ≤ 0 then false
  else if transaction.nonce == 0 then false
  else if (validateShape transaction.toTransaction).isSome then false
  else if transaction.fee.isNegative then false
  else if !areInputCoinLotIdsStructurallyValid transaction.inputCoinLotIds then false
  else if transaction.type != .transfer && !transaction.inputCoinLotIds.isEmpty then false
  else if transaction.id
      != computeTransactionIdFromPayload hashBytes transaction.signingPayload then false
  else if !isSafeTransactionAddress transaction.fromAddress
      || !isSafeTransactionAddress transaction.toAddress
      || maxTransactionDataBytes < transaction.data.toList.length then false
  else if transaction.signatureBundle.isEmpty then false
  else if !bundleIsValidFor crypto context transaction.signatureBundle then false
  else if context != .developmentOnly && !crypto.developmentMode && transaction.chainId.isEmpty then
    false
  else true

end SignedTransaction

--
-- Reading bundles (crypto/SignatureBundle.cpp)
--

namespace BundleReader

/-- `splitAtDepthZero`, which counts braces only; `part` is the current part, reversed. -/
def splitFrom (separator : Char) : Nat → List Char → List Char → Except String (List (List Char))
  | depth, part, [] =>
    if depth ≠ 0 then .error "Unbalanced braces in SignatureBundle body."
    else if part.isEmpty then .ok []
    else .ok [part.reverse]
  | depth, part, c :: rest =>
    if c = '}' ∧ depth = 0 then .error "Unbalanced braces in SignatureBundle."
    else
      let next := if c = '{' then depth + 1 else if c = '}' then depth - 1 else depth
      if next = 0 ∧ c = separator then
        if part.isEmpty then .error "Empty field in SignatureBundle."
        else (splitFrom separator 0 [] rest).map (part.reverse :: ·)
      else splitFrom separator next (c :: part) rest

def splitAtDepthZero (body : String) (separator : Char) : Except String (List String) :=
  (splitFrom separator 0 [] body.toList).map fun parts => parts.map String.ofList

def extractBody (serialized typeName : String) : Except String String :=
  match enclosedBody serialized (typeName ++ "\x7b") '}' with
  | none => .error ("Serialized data is not a " ++ typeName ++ ".")
  | some body => .ok body

/-- The loop of `parseFields`. -/
def addFields : ObjectFields → List String → Except String ObjectFields
  | fields, [] => .ok fields
  | fields, token :: rest => do
    let key := token.toList.takeWhile (· != '=')
    let tail := token.toList.dropWhile (· != '=')
    if tail.isEmpty || key.isEmpty then .error ("Malformed field: " ++ token)
    else if fields.any (·.1 == String.ofList key) then
      .error ("Duplicate field: " ++ String.ofList key)
    else addFields (fields ++ [(String.ofList key, String.ofList tail.tail)]) rest

def parseFields (body : String) : Except String ObjectFields := do
  let tokens ← splitAtDepthZero body ';'
  addFields [] tokens

def requireField (fields : ObjectFields) (key : String) : Except String String :=
  match fields.find? (·.1 == key) with
  | some field => .ok field.2
  | none => .error ("Missing field: " ++ key)

/-- `parseI64`: all of the text must be the number. -/
def parseI64 (value : String) : Except String Int := do
  if value.isEmpty then .error "Empty integer field."
  else
    let (parsed, rest) ← orThrow "stoll" (stoll value.toList)
    if !rest.isEmpty then .error ("Non-numeric integer field: " ++ value) else .ok parsed

def parsePublicKey (serialized : String) : Except String PublicKey := do
  let body ← extractBody serialized "PublicKey"
  let fields ← parseFields body
  ensure (fields.length == 2) "PublicKey contains unexpected fields."
  let algorithmText ← requireField fields "algorithm"
  let algorithm ← cryptoAlgorithmFromString algorithmText
  let keyMaterial ← requireField fields "keyMaterial"
  let key : PublicKey := ⟨algorithm, keyMaterial⟩
  ensure (key.isValid && key.serialize == serialized) "PublicKey is invalid or non-canonical."
  .ok key

def parseSignatureChunk (crypto : CryptoContext) (chunk : String) : Except String Signature := do
  let body ← extractBody chunk "Signature"
  let fields ← parseFields body
  ensure (fields.length == 6) "Signature contains unexpected fields."
  let algorithmText ← requireField fields "algorithm"
  let algorithm ← cryptoAlgorithmFromString algorithmText
  let suiteText ← requireField fields "suite"
  let domainText ← requireField fields "domain"
  ensure (signingDomainFromString domainText != .unknown) "Unknown SigningDomain in Signature."
  let publicKeyText ← requireField fields "publicKey"
  let publicKey ← parsePublicKey publicKeyText
  ensure (algorithm == publicKey.algorithm)
    "Signature algorithm does not match embedded public key."
  let signatureHex ← requireField fields "signatureHex"
  let createdAtText ← requireField fields "createdAt"
  let createdAt ← parseI64 createdAtText
  let signature : Signature := ⟨cryptoSuiteIdFromString suiteText,
    signingDomainFromString domainText, algorithm, publicKey, signatureHex, createdAt⟩
  ensure (crypto.signatureIsValid signature && signature.serialize == chunk)
    "Signature is invalid or non-canonical."
  .ok signature

/-- The loop of `deserialize`, with the checks of `addSignature`. -/
def addSignatures (crypto : CryptoContext) :
    SignatureBundle → List String → Except String SignatureBundle
  | bundle, [] => .ok bundle
  | bundle, chunk :: rest => do
    let signature ← parseSignatureChunk crypto chunk
    ensure (crypto.signatureIsValid signature) "Invalid signature rejected by SignatureBundle."
    ensure (!bundle.any (·.algorithm == signature.algorithm))
      "Duplicated signature algorithm rejected."
    addSignatures crypto (bundle ++ [signature]) rest

/-- `SignatureBundle::deserialize`. -/
def deserialize (crypto : CryptoContext) (serialized : String) : Except String SignatureBundle := do
  let body ← extractBody serialized "SignatureBundle"
  ensure (!body.isEmpty) "SignatureBundle body is empty."
  let chunks ← splitAtDepthZero body ';'
  let bundle ← addSignatures crypto [] chunks
  ensure (serializeBundle bundle == serialized)
    "SignatureBundle is non-canonical after deserialization."
  .ok bundle

end BundleReader

--
-- Reading transactions
--

namespace SignedTransaction

/-- The value that starts a text: up to a semicolon, or to a closing brace if there is none. -/
def fieldValue (text : List Char) : Option (List Char) :=
  let value :=
    if text.contains ';' then some (text.takeWhile (· != ';'))
    else if text.contains '}' then some (text.takeWhile (· != '}'))
    else none
  value.filter fun value => !value.isEmpty

def extractField (serialized : List Char) (key : String) : Except String (List Char) :=
  match after? (key.toList ++ ['=']) serialized with
  | none => .error ("Missing serialized Transaction field: " ++ key)
  | some text =>
    match fieldValue text with
    | none => .error ("Invalid serialized Transaction field: " ++ key)
    | some value => .ok value

def hasField (serialized : List Char) (key : String) : Bool :=
  (after? (key.toList ++ ['=']) serialized).isSome

def extractTransactionPayload (serialized : List Char) : Except String (List Char) :=
  match after? "payload=TransactionPayload\x7b".toList serialized with
  | none => .error "Serialized Transaction payload not found."
  | some rest =>
    match before? ";signatureBundle=".toList ("TransactionPayload\x7b".toList ++ rest) with
    | none => .error "Serialized Transaction payload is malformed."
    | some payload =>
      if payload.isEmpty then .error "Serialized Transaction payload is malformed." else .ok payload

/-- The text behind the marker without its last character. -/
def extractSignatureBundle (serialized : List Char) : Except String (List Char) :=
  match after? ";signatureBundle=".toList serialized with
  | none => .error "Serialized Transaction signature bundle is malformed."
  | some rest =>
    if serialized.getLast? != some '}' then
      .error "Serialized Transaction signature bundle is malformed."
    else if rest.length ≤ 1 then .error "Serialized Transaction signature bundle is empty."
    else .ok rest.dropLast

/-- The loop of `parseInputCoinLotIds`: the parts between commas, each a safe id. -/
def readLotIds : List Char → List Char → Except String (List String)
  | part, [] =>
    if isSafeCoinLotInputId (String.ofList part.reverse) then .ok [String.ofList part.reverse]
    else .error "Serialized input CoinLot id is unsafe."
  | part, c :: rest =>
    if c = ',' then
      if isSafeCoinLotInputId (String.ofList part.reverse) then
        (readLotIds [] rest).map (String.ofList part.reverse :: ·)
      else .error "Serialized input CoinLot id is unsafe."
    else readLotIds (c :: part) rest

def parseInputCoinLotIds (text : List Char) : Except String (List String) :=
  if text.length < 2 || text.head? != some '[' || text.getLast? != some ']' then
    .error "Serialized input CoinLot id list is malformed."
  else
    let content := text.tail.dropLast
    if content.isEmpty then .ok []
    else do
      let inputCoinLotIds ← readLotIds [] content
      ensure (areInputCoinLotIdsStructurallyValid inputCoinLotIds)
        "Serialized input CoinLot id list is invalid."
      .ok inputCoinLotIds

def extractInputCoinLotIdsFromPayload (payload : List Char) : Except String (List String) := do
  if !hasField payload "inputLots" then .ok []
  else
    let text ← extractField payload "inputLots"
    parseInputCoinLotIds text

def decodeTransactionData (hex : List Char) : Except String String :=
  if hex.isEmpty || !isHexString hex then
    .error "Serialized transaction data is not canonical hex."
  else if maxTransactionDataBytes < (hexDecode hex).length then
    .error "Serialized transaction data exceeds protocol limit."
  else .ok (String.ofList (hexDecode hex))

/-- The constructor that `deserialize` picks. -/
def construct (hashBytes : String → String) (payload : List Char) (type : TransactionType)
    (fromAddress toAddress : String) (amount fee : Amount) (nonce : UInt64) (timestamp : Int)
    (inputLots : List String) : Except String SignedTransaction := do
  if hasField payload "dataHex" then
    let hex ← extractField payload "dataHex"
    let data ← decodeTransactionData hex
    ofData hashBytes type fromAddress toAddress amount fee nonce timestamp data
  else ofInputs hashBytes type fromAddress toAddress amount fee nonce timestamp inputLots

/-- `withChainId` where the payload has a chain id. -/
def bindChainId (hashBytes : String → String) (payload : List Char)
    (transaction : SignedTransaction) : Except String SignedTransaction := do
  if hasField payload "chainId" then
    let chainId ← extractField payload "chainId"
    transaction.withChainId hashBytes (String.ofList chainId)
  else .ok transaction

/-- The transaction that the payload describes, without signatures. -/
def readPayload (hashBytes : String → String) (payload : List Char) :
    Except String SignedTransaction := do
  let typeText ← extractField payload "type"
  let type ← transactionTypeFromString (String.ofList typeText)
  let fromAddress ← extractField payload "from"
  let toAddress ← extractField payload "to"
  let amountText ← extractField payload "amountRaw"
  let amountRaw ← orThrow "stoll" (stoll amountText)
  let amount ← Amount.fromRawUnits amountRaw.1
  let feeText ← extractField payload "feeRaw"
  let feeRaw ← orThrow "stoll" (stoll feeText)
  let fee ← Amount.fromRawUnits feeRaw.1
  let nonceText ← extractField payload "nonce"
  let nonce ← orThrow "stoull" (stoull (String.ofList nonceText))
  let timestampText ← extractField payload "timestamp"
  let timestamp ← orThrow "stoll" (stoll timestampText)
  let inputLots ← extractInputCoinLotIdsFromPayload payload
  let transaction ← construct hashBytes payload type (String.ofList fromAddress)
    (String.ofList toAddress) amount fee (UInt64.ofNat nonce) timestamp.1 inputLots
  bindChainId hashBytes payload transaction

/-- `attachSignatureBundle` unless the text says `NONE`. -/
def attachRead (crypto : CryptoContext) (transaction : SignedTransaction) (text : List Char) :
    Except String SignedTransaction := do
  if String.ofList text != "NONE" then
    let bundle ← BundleReader.deserialize crypto (String.ofList text)
    transaction.attachSignatureBundle bundle
  else .ok transaction

def deserialize (crypto : CryptoContext) (hashBytes : String → String) (serialized : String) :
    Except String SignedTransaction := do
  ensure ("Transaction\x7b".toList.isPrefixOf serialized.toList
    && serialized.toList.getLast? == some '}') "Serialized data is not a Transaction."
  let serializedId ← extractField serialized.toList "id"
  let payload ← extractTransactionPayload serialized.toList
  ensure ("TransactionPayload\x7b".toList.isPrefixOf payload)
    "Serialized Transaction payload is invalid."
  let unsigned ← readPayload hashBytes payload
  let bundleText ← extractSignatureBundle serialized.toList
  let transaction ← attachRead crypto unsigned bundleText
  ensure (transaction.id == String.ofList serializedId)
    "Serialized Transaction id does not match payload."
  ensure (transaction.signingPayload == String.ofList payload)
    "Transaction serialization round-trip failed."
  ensure (transaction.serialize == serialized) "Transaction serialization is non-canonical."
  .ok transaction

end SignedTransaction

--
-- Searching through printed fields
--

namespace SignedTransaction

/-- Printed fields behind the delimiter that opens them. -/
def chain (delimiter : Char) : ObjectFields → List Char
  | [] => ['}']
  | field :: rest => delimiter :: (field.1.toList ++ '=' :: (field.2.toList ++ chain ';' rest))

theorem chain_append (delimiter : Char) {field : String × String} (fields : ObjectFields) :
    chain delimiter (field :: fields)
      = delimiter :: (List.intercalate [';']
        ((field :: fields).map fun field => (field.1 ++ "=" ++ field.2).toList) ++ ['}']) := by
  induction fields generalizing delimiter field with
  | nil => simp [chain, String.toList_append]
  | cons next fields ih =>
    rw [chain, ih ';']
    simp [String.toList_append, List.intercalate]

theorem toList_serializeObject (typeName : String) {fields : ObjectFields} (hne : fields ≠ []) :
    (serializeObject typeName fields).toList = typeName.toList ++ chain '{' fields := by
  obtain ⟨field, rest, rfl⟩ := List.exists_cons_of_ne_nil hne
  rw [chain_append]
  unfold serializeObject
  rw [String.toList_append, String.toList_append, String.toList_append, String.toList_intercalate,
    List.map_map, List.append_assoc, List.append_assoc]
  rfl

/-- What follows a value starts with a delimiter. -/
theorem chain_cons (fields : ObjectFields) :
    ∃ d rest, chain ';' fields = d :: rest ∧ (d = ';' ∨ d = '}') := by
  cases fields with
  | nil => exact ⟨'}', [], rfl, Or.inr rfl⟩
  | cons field fields => exact ⟨';', _, rfl, Or.inl rfl⟩

/-- A name that can be searched: no delimiter, no equals sign. -/
def isKey (key : String) : Bool :=
  key.toList.all fun c => c != '=' && c != ';' && c != '{' && c != '}'

variable {key : String}

theorem not_mem_key (h : isKey key = true) :
    '=' ∉ key.toList ∧ ';' ∉ key.toList ∧ '{' ∉ key.toList ∧ '}' ∉ key.toList := by
  have hall : ∀ c ∈ key.toList, ((c ≠ '=' ∧ c ≠ ';') ∧ c ≠ '{') ∧ c ≠ '}' := by
    simpa [isKey] using h
  exact ⟨fun hmem => (hall _ hmem).1.1.1 rfl, fun hmem => (hall _ hmem).1.1.2 rfl,
    fun hmem => (hall _ hmem).1.2 rfl, fun hmem => (hall _ hmem).2 rfl⟩

/-- A field that a search for the key passes by. -/
structure Passes (key : String) (field : String × String) : Prop where
  name : '=' ∉ field.1.toList
  other : ¬ key.toList <:+ field.1.toList
  value : after? (key.toList ++ ['=']) field.2.toList = none

section Search

variable (hkey : isKey key = true)
include hkey

theorem after?_behind (value : List Char) (fields : ObjectFields) :
    after? (key.toList ++ ['=']) (value ++ chain ';' fields)
      = match after? (key.toList ++ ['=']) value with
        | some found => some (found ++ chain ';' fields)
        | none => after? (key.toList ++ ['=']) (chain ';' fields) := by
  obtain ⟨-, hsemicolon, -, hbrace⟩ := not_mem_key hkey
  obtain ⟨d, rest, hchain, hd⟩ := chain_cons fields
  rw [hchain]
  rcases hd with rfl | rfl
  · rw [after?_value hsemicolon (show ';' ≠ '=' by decide) value]
    cases after? (key.toList ++ ['=']) value <;> rfl
  · rw [after?_value hbrace (show '}' ≠ '=' by decide) value]
    cases after? (key.toList ++ ['=']) value <;> rfl

/-- The search at the first of some fields. -/
theorem after?_chain_cons {front : List Char} {delimiter : Char}
    (hfront : '=' ∉ front) (hdelimiter : delimiter = '{' ∨ delimiter = ';')
    {field : String × String} (hname : '=' ∉ field.1.toList) (fields : ObjectFields) :
    after? (key.toList ++ ['=']) (front ++ chain delimiter (field :: fields))
      = if key.toList <:+ field.1.toList then some (field.2.toList ++ chain ';' fields)
        else after? (key.toList ++ ['=']) (field.2.toList ++ chain ';' fields) := by
  obtain ⟨hequals, hsemicolon, hbrace, -⟩ := not_mem_key hkey
  have hd : delimiter ∉ key.toList ∧ delimiter ≠ '=' := by
    rcases hdelimiter with rfl | rfl
    · exact ⟨hbrace, by decide⟩
    · exact ⟨hsemicolon, by decide⟩
  have htext : front ++ chain delimiter (field :: fields)
      = (front ++ delimiter :: field.1.toList) ++ '=' :: (field.2.toList ++ chain ';' fields) := by
    rw [chain, List.append_assoc, List.cons_append]
  have hnone : '=' ∉ front ++ delimiter :: field.1.toList := by
    intro hmem
    rcases List.mem_append.mp hmem with hmem | hmem
    · exact hfront hmem
    rcases List.mem_cons.mp hmem with heq | hmem
    · exact hd.2 heq.symm
    · exact hname hmem
  have hcut : key.toList <:+ front ++ delimiter :: field.1.toList ↔
      key.toList <:+ field.1.toList :=
    ⟨suffix_of_cut hd.1, fun h => h.trans ((List.suffix_cons _ _).trans (List.suffix_append _ _))⟩
  rw [htext, after?_append_equals hequals hnone]
  simp only [hcut]

/-- The search goes by fields that it passes. -/
theorem after?_passes {front : List Char} {delimiter : Char} (hfront : '=' ∉ front)
    (hdelimiter : delimiter = '{' ∨ delimiter = ';') {before : ObjectFields}
    (hbefore : ∀ field ∈ before, Passes key field) (fields : ObjectFields) (hne : before ≠ []) :
    after? (key.toList ++ ['=']) (front ++ chain delimiter (before ++ fields))
      = after? (key.toList ++ ['=']) (chain ';' fields) := by
  induction before generalizing front delimiter with
  | nil => exact absurd rfl hne
  | cons field before ih =>
    have hfield := hbefore field List.mem_cons_self
    rw [List.cons_append, after?_chain_cons hkey hfront hdelimiter hfield.name,
      if_neg hfield.other, after?_behind hkey, hfield.value]
    cases before with
    | nil => rfl
    | cons next before =>
      exact @ih [] ';' (by simp) (Or.inr rfl)
        (fun other hother => hbefore other (List.mem_cons_of_mem _ hother)) (by simp)

/-- A field found under its own name. -/
theorem after?_found {front : List Char} (hfront : '=' ∉ front) {before : ObjectFields}
    (hbefore : ∀ field ∈ before, Passes key field) (value : String) (fields : ObjectFields) :
    after? (key.toList ++ ['=']) (front ++ chain '{' (before ++ (key, value) :: fields))
      = some (value.toList ++ chain ';' fields) := by
  have hname : '=' ∉ (key, value).1.toList := (not_mem_key hkey).1
  cases before with
  | nil =>
    rw [List.nil_append, after?_chain_cons hkey hfront (Or.inl rfl) hname,
      if_pos (List.suffix_refl _)]
  | cons field before =>
    rw [after?_passes hkey hfront (Or.inl rfl) hbefore _ (by simp)]
    have hfound := @after?_chain_cons key hkey [] ';' (by simp) (Or.inr rfl) _ hname fields
    rw [List.nil_append, if_pos (List.suffix_refl _)] at hfound
    exact hfound

/-- A field found within the value of another. -/
theorem after?_inside {front : List Char} (hfront : '=' ∉ front) {before : ObjectFields}
    (hbefore : ∀ field ∈ before, Passes key field) {name value : String} {found : List Char}
    (hname : '=' ∉ name.toList) (hother : ¬ key.toList <:+ name.toList)
    (hfound : after? (key.toList ++ ['=']) value.toList = some found) (fields : ObjectFields) :
    after? (key.toList ++ ['=']) (front ++ chain '{' (before ++ (name, value) :: fields))
      = some (found ++ chain ';' fields) := by
  cases before with
  | nil =>
    rw [List.nil_append, after?_chain_cons hkey hfront (Or.inl rfl) hname, if_neg hother,
      after?_behind hkey, hfound]
  | cons field before =>
    rw [after?_passes hkey hfront (Or.inl rfl) hbefore _ (by simp)]
    have hcons := @after?_chain_cons key hkey [] ';' (by simp) (Or.inr rfl) (name, value) hname fields
    rw [List.nil_append, if_neg hother, after?_behind hkey, hfound] at hcons
    exact hcons

/-- A name that no field has and no value spells out. -/
theorem after?_absent {front : List Char} (hfront : '=' ∉ front) {fields : ObjectFields}
    (hfields : ∀ field ∈ fields, Passes key field) (hne : fields ≠ []) :
    after? (key.toList ++ ['=']) (front ++ chain '{' fields) = none := by
  have hall := after?_passes hkey hfront (Or.inl rfl) hfields [] hne
  rw [List.append_nil] at hall
  rw [hall]
  exact after?_of_not_mem (by decide)

end Search

/-- A value that is cut off where it ends. -/
structure ValueText (value : List Char) : Prop where
  ne : value ≠ []
  semicolon : ';' ∉ value
  brace : '}' ∉ value

theorem fieldValue_behind {value : List Char} (h : ValueText value) (fields : ObjectFields) :
    fieldValue (value ++ chain ';' fields) = some value := by
  have hempty : value.isEmpty = false := by simpa using h.ne
  cases fields with
  | nil =>
    have hcontains : (value ++ chain ';' []).contains ';' = false := by
      simpa [chain] using h.semicolon
    have hbrace : (value ++ chain ';' []).contains '}' = true := by simp [chain]
    unfold fieldValue
    rw [hcontains, hbrace]
    simp only [Bool.false_eq_true, if_false, if_true, chain]
    rw [Text.takeWhile_delimiter h.brace]
    simp [hempty]
  | cons field fields =>
    have hcontains : (value ++ chain ';' (field :: fields)).contains ';' = true := by simp [chain]
    unfold fieldValue
    rw [hcontains]
    simp only [if_true, chain]
    rw [Text.takeWhile_delimiter h.semicolon]
    simp [hempty]

end SignedTransaction

--
-- What transactions are made of
--

/-- What `addSignature` leaves. -/
structure BundleBuilt (crypto : CryptoContext) (bundle : SignatureBundle) : Prop where
  valid : ∀ signature ∈ bundle, crypto.signatureIsValid signature = true
  fits : ∀ signature ∈ bundle, signature.createdAt < 2 ^ 63
  distinct : (bundle.map Signature.algorithm).Nodup

namespace SignedTransaction

/-- The transactions that the operations of the class can build. -/
inductive Built (crypto : CryptoContext) (hashBytes : String → String) : SignedTransaction → Prop
  | inputs {type fromAddress toAddress amount fee nonce timestamp inputCoinLotIds transaction}
      (hfits : timestamp < 2 ^ 63)
      (h : ofInputs hashBytes type fromAddress toAddress amount fee nonce timestamp inputCoinLotIds
        = .ok transaction) : Built crypto hashBytes transaction
  | data {type fromAddress toAddress amount fee nonce timestamp data transaction}
      (hfits : timestamp < 2 ^ 63) (hbytes : ∀ c ∈ data.toList, c.toNat < 256)
      (h : ofData hashBytes type fromAddress toAddress amount fee nonce timestamp data
        = .ok transaction) : Built crypto hashBytes transaction
  | chainId {chainId before transaction} (hbefore : Built crypto hashBytes before)
      (h : before.withChainId hashBytes chainId = .ok transaction) :
      Built crypto hashBytes transaction
  | signed {bundle before transaction} (hbefore : Built crypto hashBytes before)
      (hbundle : BundleBuilt crypto bundle)
      (h : before.attachSignatureBundle bundle = .ok transaction) :
      Built crypto hashBytes transaction

/-- What they all have in common. -/
structure Constructed (crypto : CryptoContext) (hashBytes : String → String)
    (transaction : SignedTransaction) : Prop where
  id : transaction.id = computeTransactionIdFromPayload hashBytes transaction.signingPayload
  lots : areInputCoinLotIdsStructurallyValid transaction.inputCoinLotIds = true
  transferOnly : transaction.type = .transfer ∨ transaction.inputCoinLotIds = []
  exclusive : transaction.inputCoinLotIds = [] ∨ transaction.data = ""
  bytes : ∀ c ∈ transaction.data.toList, c.toNat < 256
  size : transaction.data.toList.length ≤ maxTransactionDataBytes
  chain : transaction.chainId = "" ∨ isSafeTransactionAddress transaction.chainId = true
  stamp : transaction.timestamp < 2 ^ 63
  bundle : BundleBuilt crypto transaction.signatureBundle

theorem bundleBuilt_nil (crypto : CryptoContext) : BundleBuilt crypto [] :=
  ⟨by simp, by simp, by simp⟩

theorem Built.constructed {crypto : CryptoContext} {hashBytes : String → String}
    {transaction : SignedTransaction} (h : Built crypto hashBytes transaction) :
    Constructed crypto hashBytes transaction := by
  induction h with
  | inputs hfits h =>
    unfold ofInputs at h
    obtain ⟨hlots, h⟩ := Guards.ok_of_ite_error h
    obtain ⟨hother, h⟩ := Guards.ok_of_ite_error h
    obtain rfl := Except.ok.inj h
    simp only [Bool.not_eq_true', Bool.not_eq_false] at hlots
    refine ⟨rfl, hlots, ?_, Or.inr rfl, by simp [withId], by simp [withId], Or.inl rfl, hfits,
      bundleBuilt_nil crypto⟩
    simp only [Bool.and_eq_true, bne_iff_ne, Bool.not_eq_true', List.isEmpty_eq_false_iff,
      not_and, not_not] at hother
    exact or_iff_not_imp_left.mpr hother
  | data hfits hbytes h =>
    unfold ofData at h
    obtain ⟨hsize, h⟩ := Guards.ok_of_ite_error h
    obtain rfl := Except.ok.inj h
    exact ⟨rfl, rfl, Or.inr rfl, Or.inl rfl, hbytes, Nat.le_of_not_lt hsize, Or.inl rfl, hfits,
      bundleBuilt_nil crypto⟩
  | chainId hbefore h ih =>
    unfold withChainId at h
    obtain ⟨-, h⟩ := Guards.ok_of_ite_error h
    obtain ⟨hsafe, h⟩ := Guards.ok_of_ite_error h
    obtain rfl := Except.ok.inj h
    simp only [Bool.not_eq_true', Bool.not_eq_false] at hsafe
    exact ⟨rfl, ih.lots, ih.transferOnly, ih.exclusive, ih.bytes, ih.size, Or.inr hsafe, ih.stamp,
      ih.bundle⟩
  | signed hbefore hbundle h ih =>
    unfold attachSignatureBundle at h
    obtain ⟨-, h⟩ := Guards.ok_of_ite_error h
    obtain ⟨-, h⟩ := Guards.ok_of_ite_error h
    obtain rfl := Except.ok.inj h
    exact ⟨ih.id, ih.lots, ih.transferOnly, ih.exclusive, ih.bytes, ih.size, ih.chain, ih.stamp,
      hbundle⟩

/-- What `isStructurallyValid` adds. -/
structure Wellformed (crypto : CryptoContext) (context : SecurityContext)
    (transaction : SignedTransaction) : Prop where
  sender : isSafeTransactionAddress transaction.fromAddress = true
  target : isSafeTransactionAddress transaction.toAddress = true
  stamp : 0 < transaction.timestamp
  signed : transaction.signatureBundle ≠ []
  policy : bundleIsValidFor crypto context transaction.signatureBundle = true

theorem wellformed_of_isStructurallyValid {crypto : CryptoContext} {hashBytes : String → String}
    {context : SecurityContext} {transaction : SignedTransaction}
    (h : transaction.isStructurallyValid crypto hashBytes context = true) :
    Wellformed crypto context transaction := by
  unfold isStructurallyValid at h
  obtain ⟨-, h⟩ := Guards.true_of_ite_false h
  obtain ⟨hstamp, h⟩ := Guards.true_of_ite_false h
  obtain ⟨-, h⟩ := Guards.true_of_ite_false h
  obtain ⟨-, h⟩ := Guards.true_of_ite_false h
  obtain ⟨-, h⟩ := Guards.true_of_ite_false h
  obtain ⟨-, h⟩ := Guards.true_of_ite_false h
  obtain ⟨-, h⟩ := Guards.true_of_ite_false h
  obtain ⟨-, h⟩ := Guards.true_of_ite_false h
  obtain ⟨haddresses, h⟩ := Guards.true_of_ite_false h
  obtain ⟨hsigned, h⟩ := Guards.true_of_ite_false h
  obtain ⟨hpolicy, -⟩ := Guards.true_of_ite_false h
  simp only [Bool.or_eq_true, Bool.not_eq_true', not_or, Bool.not_eq_false] at haddresses
  exact ⟨haddresses.1.1, haddresses.1.2, by omega, by simpa using hsigned, by simpa using hpolicy⟩

end SignedTransaction

--
-- The values of the payload
--

namespace SignedTransaction

/-- A value without equals sign. -/
structure PlainValue (value : String) : Prop where
  text : ValueText value.toList
  equals : '=' ∉ value.toList
  closed : Closed ';' value.toList

theorem plainValue_type (type : TransactionType) : PlainValue type.text := by
  have hname : isFieldName type.text = true := by cases type <;> decide +kernel
  obtain ⟨hne, hequals, hsemicolon, -, hplain⟩ := isFieldName_spec hname
  exact ⟨⟨hne, hsemicolon, fun hmem => (hplain _ hmem).2.1 rfl⟩, hequals,
    (fieldText_of_name hname).closed⟩

theorem plainValue_address {address : String} (h : isSafeTransactionAddress address = true) :
    PlainValue address := by
  simp only [isSafeTransactionAddress, Bool.and_eq_true, Bool.not_eq_true', List.any_eq_false,
    List.isEmpty_eq_false_iff] at h
  obtain ⟨⟨hne, -⟩, hchars⟩ := h
  have hplain : Plain address.toList := by
    intro c hc
    refine ⟨?_, ?_, ?_, ?_⟩ <;> rintro rfl <;> exact hchars _ hc (by decide)
  have hsemicolon : ';' ∉ address.toList := fun hmem => hchars _ hmem (by decide)
  exact ⟨⟨hne, hsemicolon, fun hmem => hchars _ hmem (by decide)⟩,
    fun hmem => hchars _ hmem (by decide), hplain.closed hsemicolon⟩

theorem plainValue_nat (n : Nat) : PlainValue (toString n) :=
  ⟨⟨Text.toString_nat_ne_nil n, Text.not_mem_toString (by decide), Text.not_mem_toString (by decide)⟩,
    Text.not_mem_toString (by decide), (fieldText_nat n).closed⟩

theorem plainValue_stamp {i : Int} (h : 0 < i) : PlainValue (toString i) := by
  rw [toString_int h]
  exact plainValue_nat _

theorem hexDigit_isHexDigit (value : Nat) : CryptoContext.isHexDigit (hexDigit value) = true := by
  have hall : "0123456789abcdef".toList.all CryptoContext.isHexDigit = true := by decide
  unfold hexDigit
  rw [List.getD_eq_getElem?_getD]
  cases hget : "0123456789abcdef".toList[value]? with
  | none => decide
  | some c => exact List.all_eq_true.mp hall c (List.mem_of_getElem? hget)

theorem toList_hexEncode (data : String) : (hexEncode data).toList
    = data.toList.flatMap fun c => [hexDigit (c.toNat / 16), hexDigit (c.toNat % 16)] := by
  simp [hexEncode]

theorem isHexDigit_of_mem_hexEncode {data : String} {c : Char} (h : c ∈ (hexEncode data).toList) :
    CryptoContext.isHexDigit c = true := by
  rw [toList_hexEncode, List.mem_flatMap] at h
  obtain ⟨byte, -, hc⟩ := h
  simp only [List.mem_cons, List.not_mem_nil, or_false] at hc
  rcases hc with rfl | rfl <;> exact hexDigit_isHexDigit _

theorem plainValue_hex {data : String} (hne : data ≠ "") : PlainValue (hexEncode data) := by
  have hnot : ∀ c : Char, CryptoContext.isHexDigit c = false → c ∉ (hexEncode data).toList := by
    intro c hc hmem
    rw [isHexDigit_of_mem_hexEncode hmem] at hc
    cases hc
  have hplain : Plain (hexEncode data).toList := by
    intro c hc
    refine ⟨?_, ?_, ?_, ?_⟩ <;> rintro rfl <;> exact hnot _ (by decide) hc
  refine ⟨⟨?_, hnot _ (by decide), hnot _ (by decide)⟩, hnot _ (by decide),
    hplain.closed (hnot _ (by decide))⟩
  obtain ⟨first, rest, hdata⟩ := List.exists_cons_of_ne_nil
    (fun hnil => hne (String.toList_inj.mp hnil))
  rw [toList_hexEncode, hdata]
  simp

/-- The text of the input lots. -/
def lotsText (transaction : SignedTransaction) : List Char :=
  (serializeInputCoinLotIds transaction.inputCoinLotIds).toList

theorem toList_serializeInputCoinLotIds (lots : List String) :
    (serializeInputCoinLotIds lots).toList
      = '[' :: (List.intercalate [','] (lots.map String.toList) ++ [']']) := by
  unfold serializeInputCoinLotIds
  rw [String.toList_append, String.toList_append, String.toList_intercalate]
  rfl

/-- What the id of a lot cannot hold. -/
theorem not_mem_lot {lot : String} (h : isSafeCoinLotInputId lot = true) {c : Char}
    (hc : [';', ',', '[', ']', '{', '}', ' ', '\t', '\n', '\r'].contains c = true) :
    c ∉ lot.toList := by
  simp only [isSafeCoinLotInputId, Bool.and_eq_true, Bool.not_eq_true', List.any_eq_false] at h
  exact fun hmem => h.2 _ hmem hc

theorem mem_intercalate {α : Type} {separator : α} {parts : List (List α)} {c : α}
    (h : c ∈ List.intercalate [separator] parts) : c = separator ∨ ∃ part ∈ parts, c ∈ part := by
  induction parts with
  | nil => simp [List.intercalate] at h
  | cons part rest ih =>
    cases rest with
    | nil =>
      exact Or.inr ⟨part, List.mem_cons_self, by simpa [List.intercalate] using h⟩
    | cons next rest =>
      rw [List.intercalate_cons_cons] at h
      rcases List.mem_append.mp h with h | h
      · rcases List.mem_append.mp h with h | h
        · exact Or.inr ⟨part, List.mem_cons_self, h⟩
        · exact Or.inl (List.mem_singleton.mp h)
      · rcases ih h with heq | ⟨other, hother, hmem⟩
        · exact Or.inl heq
        · exact Or.inr ⟨other, List.mem_cons_of_mem _ hother, hmem⟩

theorem valueText_lots {lots : List String}
    (h : areInputCoinLotIdsStructurallyValid lots = true) :
    ValueText (serializeInputCoinLotIds lots).toList := by
  simp only [areInputCoinLotIdsStructurallyValid, Bool.and_eq_true, List.all_eq_true] at h
  have hnot : ∀ c : Char, [';', ',', '[', ']', '{', '}', ' ', '\t', '\n', '\r'].contains c = true →
      c ≠ '[' → c ≠ ',' → c ≠ ']' → c ∉ (serializeInputCoinLotIds lots).toList := by
    intro c hc hopen hcomma hclose hmem
    rw [toList_serializeInputCoinLotIds] at hmem
    rcases List.mem_cons.mp hmem with heq | hmem
    · exact hopen heq
    rcases List.mem_append.mp hmem with hmem | hmem
    · rcases mem_intercalate hmem with heq | ⟨part, hpart, hmem⟩
      · exact hcomma heq
      · obtain ⟨lot, hlot, rfl⟩ := List.mem_map.mp hpart
        exact not_mem_lot (h.2 lot hlot) hc hmem
    · exact hclose (List.mem_singleton.mp hmem)
  refine ⟨?_, hnot _ (by decide) (by decide) (by decide) (by decide),
    hnot _ (by decide) (by decide) (by decide) (by decide)⟩
  rw [toList_serializeInputCoinLotIds]
  simp

end SignedTransaction

--
-- Reading the fields of a payload
--

namespace SignedTransaction

def payloadNames : List String :=
  ["type", "from", "to", "amountRaw", "feeRaw", "inputLots", "dataHex", "nonce", "timestamp",
    "chainId"]

theorem isKey_of_mem {key : String} (h : key ∈ payloadNames) : isKey key = true := by
  have hall : payloadNames.all isKey = true := by decide
  exact List.all_eq_true.mp hall key h

theorem toList_payloadNames : payloadNames.map String.toList
    = [['t', 'y', 'p', 'e'], ['f', 'r', 'o', 'm'], ['t', 'o'],
      ['a', 'm', 'o', 'u', 'n', 't', 'R', 'a', 'w'], ['f', 'e', 'e', 'R', 'a', 'w'],
      ['i', 'n', 'p', 'u', 't', 'L', 'o', 't', 's'], ['d', 'a', 't', 'a', 'H', 'e', 'x'],
      ['n', 'o', 'n', 'c', 'e'], ['t', 'i', 'm', 'e', 's', 't', 'a', 'm', 'p'],
      ['c', 'h', 'a', 'i', 'n', 'I', 'd']] := by decide +kernel

/-- No name of a field ends with the name of another. -/
theorem not_suffix_of_ne {key name : String} (hkey : key ∈ payloadNames)
    (hname : name ∈ payloadNames) (hne : name ≠ key) : ¬ key.toList <:+ name.toList := by
  have hall : ∀ key ∈ payloadNames.map String.toList, ∀ name ∈ payloadNames.map String.toList,
      key <:+ name → name = key := by
    rw [toList_payloadNames]
    decide +kernel
  intro hsuffix
  exact hne (String.toList_inj.mp
    (hall _ (List.mem_map_of_mem hkey) _ (List.mem_map_of_mem hname) hsuffix))

/-- A field of the payload has a known name and, unless it lists lots, a plain value. -/
structure PayloadField (transaction : SignedTransaction) (field : String × String) : Prop where
  name : field.1 ∈ payloadNames
  plain : field.1 ≠ "inputLots" → PlainValue field.2
  lots : field.1 = "inputLots" → field.2.toList = transaction.lotsText

theorem payloadField_plain {transaction : SignedTransaction} {name value : String}
    (hname : name ∈ payloadNames) (hother : name ≠ "inputLots") (hvalue : PlainValue value) :
    PayloadField transaction (name, value) :=
  ⟨hname, fun _ => hvalue, fun heq => absurd heq hother⟩

section Payload

variable {crypto : CryptoContext} {hashBytes : String → String} {context : SecurityContext}
  {transaction : SignedTransaction} (hbuilt : Constructed crypto hashBytes transaction)
  (hvalid : Wellformed crypto context transaction)
include hbuilt hvalid

omit hbuilt in
theorem payloadField_head : ∀ field ∈ transaction.headFields, PayloadField transaction field := by
  simp only [headFields, List.forall_mem_cons]
  refine ⟨payloadField_plain (by decide) (by decide) (plainValue_type _),
    payloadField_plain (by decide) (by decide) (plainValue_address hvalid.sender),
    payloadField_plain (by decide) (by decide) (plainValue_address hvalid.target),
    payloadField_plain (by decide) (by decide) (plainValue_nat _),
    payloadField_plain (by decide) (by decide) (plainValue_nat _), by simp⟩

omit hbuilt hvalid in
theorem payloadField_lots :
    ∀ field ∈ transaction.inputLotsField, PayloadField transaction field := by
  unfold inputLotsField
  split
  · simp
  · simp only [List.forall_mem_cons]
    exact ⟨⟨show "inputLots" ∈ payloadNames by decide, fun hne => absurd rfl hne, fun _ => rfl⟩, by simp⟩

omit hbuilt hvalid in
theorem payloadField_data :
    ∀ field ∈ transaction.dataHexField, PayloadField transaction field := by
  unfold dataHexField
  split
  · simp
  · rename_i hne
    simp only [List.forall_mem_cons]
    exact ⟨payloadField_plain (by decide) (by decide) (plainValue_hex (by simpa using hne)), by simp⟩

omit hvalid in
theorem payloadField_chain :
    ∀ field ∈ transaction.chainIdField, PayloadField transaction field := by
  unfold chainIdField
  split
  · simp
  · rename_i hne
    simp only [List.forall_mem_cons]
    rcases hbuilt.chain with hempty | hsafe
    · exact absurd (by simpa using hempty) hne
    · exact ⟨payloadField_plain (by decide) (by decide) (plainValue_address hsafe), by simp⟩

omit hbuilt in
theorem payloadField_order :
    ∀ field ∈ [("nonce", toString transaction.nonce.toNat),
      ("timestamp", toString transaction.timestamp)], PayloadField transaction field := by
  simp only [List.forall_mem_cons]
  exact ⟨payloadField_plain (by decide) (by decide) (plainValue_nat _),
    payloadField_plain (by decide) (by decide) (plainValue_stamp hvalid.stamp), by simp⟩

theorem payloadField_of_mem :
    ∀ field ∈ transaction.payloadFields, PayloadField transaction field := by
  intro field hfield
  unfold payloadFields at hfield
  rcases List.mem_append.mp hfield with hfield | hfield
  · rcases List.mem_append.mp hfield with hfield | hfield
    · rcases List.mem_append.mp hfield with hfield | hfield
      · rcases List.mem_append.mp hfield with hfield | hfield
        · exact payloadField_head hvalid field hfield
        · exact payloadField_lots field hfield
      · exact payloadField_data field hfield
    · exact payloadField_order hvalid field hfield
  · exact payloadField_chain hbuilt field hfield

end Payload

variable {transaction : SignedTransaction} {key : String}

/-- A search for another key passes the field, if it passes the list of lots. -/
theorem PayloadField.passes {field : String × String} (h : PayloadField transaction field)
    (hkey : key ∈ payloadNames) (hne : field.1 ≠ key)
    (hlots : field.1 = "inputLots" →
      after? (key.toList ++ ['=']) transaction.lotsText = none) : Passes key field := by
  refine ⟨(not_mem_key (isKey_of_mem h.name)).1, not_suffix_of_ne hkey h.name hne, ?_⟩
  by_cases hinput : field.1 = "inputLots"
  · rw [h.lots hinput]
    exact hlots hinput
  · exact after?_of_not_mem (h.plain hinput).equals

theorem payloadFields_ne_nil (transaction : SignedTransaction) : transaction.payloadFields ≠ [] := by
  simp [payloadFields, headFields]

theorem toList_signingPayload (transaction : SignedTransaction) :
    transaction.signingPayload.toList
      = "TransactionPayload".toList ++ chain '{' transaction.payloadFields :=
  toList_serializeObject _ (payloadFields_ne_nil transaction)

/-- Extracting a field that stands under its own name. -/
theorem extractField_own (hkey : key ∈ payloadNames)
    (hfields : ∀ field ∈ transaction.payloadFields, PayloadField transaction field)
    {before rest : ObjectFields} {value : String}
    (hsplit : transaction.payloadFields = before ++ (key, value) :: rest)
    (hvalue : ValueText value.toList)
    (hbefore : ∀ field ∈ before, field.1 ≠ key ∧ (field.1 = "inputLots" →
      after? (key.toList ++ ['=']) transaction.lotsText = none)) :
    extractField transaction.signingPayload.toList key = .ok value.toList := by
  have hpasses : ∀ field ∈ before, Passes key field := by
    intro field hfield
    have hmem : field ∈ transaction.payloadFields := by
      rw [hsplit]
      exact List.mem_append_left _ hfield
    exact (hfields field hmem).passes hkey (hbefore field hfield).1 (hbefore field hfield).2
  have hfound := after?_found (isKey_of_mem hkey) (show '=' ∉ "TransactionPayload".toList by decide)
    hpasses value rest
  unfold extractField
  rw [toList_signingPayload, hsplit, hfound]
  simp only [fieldValue_behind hvalue]

/-- Extracting a field that the list of lots spells out. -/
theorem extractField_spelled (hkey : key ∈ payloadNames)
    (hfields : ∀ field ∈ transaction.payloadFields, PayloadField transaction field)
    {before rest : ObjectFields} {value : String}
    (hsplit : transaction.payloadFields = before ++ ("inputLots", value) :: rest)
    (hbefore : ∀ field ∈ before, field.1 ≠ key ∧ field.1 ≠ "inputLots")
    (hother : "inputLots" ≠ key) {found : List Char}
    (hfound : after? (key.toList ++ ['=']) transaction.lotsText = some found)
    (hvalue : ValueText found) :
    hasField transaction.signingPayload.toList key = true ∧
      extractField transaction.signingPayload.toList key = .ok found := by
  have hpasses : ∀ field ∈ before, Passes key field := by
    intro field hfield
    have hmem : field ∈ transaction.payloadFields := by
      rw [hsplit]
      exact List.mem_append_left _ hfield
    exact (hfields field hmem).passes hkey (hbefore field hfield).1
      (fun heq => absurd heq (hbefore field hfield).2)
  have hlots : value.toList = transaction.lotsText := by
    have hmem : ("inputLots", value) ∈ transaction.payloadFields := by
      rw [hsplit]
      simp
    exact (hfields _ hmem).lots rfl
  rw [← hlots] at hfound
  have hinside := after?_inside (isKey_of_mem hkey)
    (show '=' ∉ "TransactionPayload".toList by decide) hpasses
    (show '=' ∉ "inputLots".toList by decide)
    (not_suffix_of_ne hkey (by decide) hother) hfound rest
  unfold hasField extractField
  rw [toList_signingPayload, hsplit, hinside]
  simp only [fieldValue_behind hvalue]
  exact ⟨rfl, trivial⟩

/-- A field that is neither there nor spelled out. -/
theorem hasField_absent (hkey : key ∈ payloadNames)
    (hfields : ∀ field ∈ transaction.payloadFields, PayloadField transaction field)
    (hnames : ∀ field ∈ transaction.payloadFields, field.1 ≠ key)
    (hlots : (∃ field ∈ transaction.payloadFields, field.1 = "inputLots") →
      after? (key.toList ++ ['=']) transaction.lotsText = none) :
    hasField transaction.signingPayload.toList key = false := by
  have habsent := after?_absent (isKey_of_mem hkey)
    (show '=' ∉ "TransactionPayload".toList by decide)
    (fun field hfield => (hfields field hfield).passes hkey (hnames field hfield)
      (fun heq => hlots ⟨field, hfield, heq⟩)) (payloadFields_ne_nil transaction)
  unfold hasField
  rw [toList_signingPayload, habsent]
  rfl

theorem hasField_of_extractField {serialized value : List Char}
    (h : extractField serialized key = .ok value) : hasField serialized key = true := by
  unfold extractField at h
  unfold hasField
  cases hafter : after? (key.toList ++ ['=']) serialized with
  | none =>
    rw [hafter] at h
    cases h
  | some rest => rfl

end SignedTransaction

--
-- Numbers, data and lots are read back
--

theorem stoll_toString {n : Nat} (h : n < 2 ^ 63) : stoll (toString n).toList = some ((n : Int), []) := by
  have hall : ∀ c ∈ (toString n).toList, c.isDigit = true := fun c hc =>
    Text.isDigit_of_mem_toString hc
  have htake : (toString n).toList.takeWhile Char.isDigit = (toString n).toList := by
    rw [List.takeWhile_eq_self_iff]
    exact hall
  have hdrop : (toString n).toList.dropWhile Char.isDigit = [] := by
    rw [List.dropWhile_eq_nil_iff]
    exact hall
  have hvalue : decimalValue (toString n).toList = n := Text.foldl_digits_toString n
  have hne : (toString n).toList.isEmpty = false := by simp
  have hlow : decide ((n : Int) < -2 ^ 63) = false := by
    rw [decide_eq_false_iff_not]
    omega
  have hhigh : decide ((2 : Int) ^ 63 ≤ n) = false := by
    rw [decide_eq_false_iff_not]
    omega
  unfold stoll
  dsimp only
  rw [splitSign_toString]
  dsimp only
  rw [htake, hdrop, hvalue, hne]
  simp only [Bool.false_eq_true, if_false, hlow, hhigh, Bool.or_self]

theorem Amount.fromRawUnits_nat (amount : Amount) :
    Amount.fromRawUnits (amount.rawUnits : Int) = .ok amount := by
  unfold Amount.fromRawUnits
  rw [if_neg (by omega), dif_pos (show (amount.rawUnits : Int).toNat ≤ maxRawUnits from amount.inRange)]
  rfl

theorem transactionTypeFromString_text (type : TransactionType) :
    transactionTypeFromString type.text = .ok type := by
  cases type <;> rfl

namespace SignedTransaction

theorem decodeNibble_hexDigit {value : Nat} (h : value < 16) :
    decodeNibble (hexDigit value) = value := by
  have hall : ∀ value < 16, decodeNibble (hexDigit value) = value := by decide
  exact hall value h

theorem hexDecode_flatMap {bytes : List Char} (h : ∀ c ∈ bytes, c.toNat < 256) :
    hexDecode (bytes.flatMap fun c => [hexDigit (c.toNat / 16), hexDigit (c.toNat % 16)])
      = bytes := by
  induction bytes with
  | nil => rfl
  | cons c rest ih =>
    have hc := h c List.mem_cons_self
    have hbyte : c.toNat / 16 * 16 + c.toNat % 16 = c.toNat := by omega
    rw [List.flatMap_cons, List.cons_append, List.cons_append, List.nil_append, hexDecode,
      decodeNibble_hexDigit (by omega), decodeNibble_hexDigit (by omega), hbyte,
      Char.ofNat_toNat, ih (fun other hother => h other (List.mem_cons_of_mem _ hother))]

theorem hexDecode_hexEncode {data : String} (h : ∀ c ∈ data.toList, c.toNat < 256) :
    hexDecode (hexEncode data).toList = data.toList := by
  rw [toList_hexEncode]
  exact hexDecode_flatMap h

theorem isHexString_hexEncode {data : String} (hne : data ≠ "") :
    isHexString (hexEncode data).toList = true := by
  have hnonempty : (hexEncode data).toList.isEmpty = false := by
    simpa using (plainValue_hex hne).text.ne
  have hlength : (hexEncode data).toList.length % 2 = 0 := by
    rw [toList_hexEncode, List.length_flatMap]
    simp
  unfold isHexString
  rw [hnonempty, hlength]
  simp only [Bool.not_false, beq_self_eq_true, Bool.and_self, Bool.true_and, List.all_eq_true]
  exact fun c hc => isHexDigit_of_mem_hexEncode hc

theorem decodeTransactionData_hexEncode {data : String} (hne : data ≠ "")
    (hbytes : ∀ c ∈ data.toList, c.toNat < 256)
    (hsize : data.toList.length ≤ maxTransactionDataBytes) :
    decodeTransactionData (hexEncode data).toList = .ok data := by
  have hnonempty : (hexEncode data).toList.isEmpty = false := by
    simpa using (plainValue_hex hne).text.ne
  unfold decodeTransactionData
  rw [hnonempty, isHexString_hexEncode hne, hexDecode_hexEncode hbytes, if_neg (by simp),
    if_neg (Nat.not_lt.mpr hsize),
    String.ofList_toList]

theorem readLotIds_part {part rest : List Char} (hcomma : ',' ∉ rest) (read : List Char) :
    readLotIds read (rest ++ part) = readLotIds (rest.reverse ++ read) part := by
  induction rest generalizing read with
  | nil => rfl
  | cons c rest ih =>
    have hne : c ≠ ',' := fun heq => hcomma (heq ▸ List.mem_cons_self)
    rw [List.cons_append, readLotIds, if_neg hne,
      ih (fun hmem => hcomma (List.mem_cons_of_mem _ hmem))]
    simp

theorem readLotIds_intercalate {lots : List String} (hne : lots ≠ [])
    (hsafe : ∀ lot ∈ lots, isSafeCoinLotInputId lot = true) :
    readLotIds [] (List.intercalate [','] (lots.map String.toList)) = .ok lots := by
  induction lots with
  | nil => exact absurd rfl hne
  | cons lot lots ih =>
    have hlot := hsafe lot List.mem_cons_self
    have hcomma : ',' ∉ lot.toList := not_mem_lot hlot (by decide)
    have htext : String.ofList (lot.toList.reverse ++ []).reverse = lot := by simp
    cases lots with
    | nil =>
      have hread := @readLotIds_part [] lot.toList hcomma []
      rw [List.append_nil] at hread
      simp only [List.map_cons, List.map_nil, List.intercalate_singleton]
      rw [hread, readLotIds, htext, if_pos hlot]
    | cons next lots =>
      have hrest := ih (by simp) (fun other hother => hsafe other (List.mem_cons_of_mem _ hother))
      simp only [List.map_cons] at hrest ⊢
      rw [List.intercalate_cons_cons, List.append_assoc, readLotIds_part hcomma,
        List.singleton_append, readLotIds, if_pos rfl, htext, if_pos hlot, hrest]
      rfl

theorem parseInputCoinLotIds_serialize {lots : List String} (hne : lots ≠ [])
    (h : areInputCoinLotIdsStructurallyValid lots = true) :
    parseInputCoinLotIds (serializeInputCoinLotIds lots).toList = .ok lots := by
  have hsafe : ∀ lot ∈ lots, isSafeCoinLotInputId lot = true := by
    simp only [areInputCoinLotIdsStructurallyValid, Bool.and_eq_true, List.all_eq_true] at h
    exact h.2
  have hread := readLotIds_intercalate hne hsafe
  have hcontent : (List.intercalate [','] (lots.map String.toList)).isEmpty = false := by
    rw [Bool.eq_false_iff]
    intro hempty
    rw [List.isEmpty_iff.mp hempty] at hread
    cases hread
  unfold parseInputCoinLotIds
  have hlast : ('[' :: (List.intercalate [','] (lots.map String.toList) ++ [']'])).getLast?
      = some ']' := by
    rw [← List.cons_append, List.getLast?_concat]
  rw [toList_serializeInputCoinLotIds, if_neg (by rw [hlast]; simp)]
  simp only [List.tail_cons, List.dropLast_concat, hcontent, Bool.false_eq_true, if_false, hread]
  show (ensure (areInputCoinLotIdsStructurallyValid lots) _ >>= fun _ => _) = _
  rw [h]
  rfl

end SignedTransaction

--
-- The fields of a payload, one by one
--

namespace SignedTransaction

/-- The list of lots spells out no later field, or spells it as it is. -/
def lotsReadAsWritten (transaction : SignedTransaction) : Bool :=
  !hasField transaction.lotsText "dataHex" && !hasField transaction.lotsText "chainId"
    && (match after? "nonce=".toList transaction.lotsText with
      | none => true
      | some rest => stoull (String.ofList rest) == some transaction.nonce.toNat)
    && (match after? "timestamp=".toList transaction.lotsText with
      | none => true
      | some rest => (stoll rest).map (·.1) == some transaction.timestamp)

section Extract

variable {transaction : SignedTransaction}
  (hfields : ∀ field ∈ transaction.payloadFields, PayloadField transaction field)

theorem inputLotsField_of_ne (h : transaction.inputCoinLotIds ≠ []) :
    transaction.inputLotsField
      = [("inputLots", serializeInputCoinLotIds transaction.inputCoinLotIds)] := by
  unfold inputLotsField
  rw [if_neg (by simpa using h)]

theorem name_of_mem_head {field : String × String} (h : field ∈ transaction.headFields) :
    field.1 ∈ ["type", "from", "to", "amountRaw", "feeRaw"] := by
  simp only [headFields, List.mem_cons, List.not_mem_nil, or_false] at h
  rcases h with rfl | rfl | rfl | rfl | rfl <;> simp

theorem name_of_mem_lots {field : String × String} (h : field ∈ transaction.inputLotsField) :
    field.1 = "inputLots" := by
  unfold inputLotsField at h
  split at h
  · cases h
  · rw [List.mem_singleton.mp h]

theorem name_of_mem_data {field : String × String} (h : field ∈ transaction.dataHexField) :
    field.1 = "dataHex" := by
  unfold dataHexField at h
  split at h
  · cases h
  · rw [List.mem_singleton.mp h]

theorem name_of_mem_chain {field : String × String} (h : field ∈ transaction.chainIdField) :
    field.1 = "chainId" := by
  unfold chainIdField at h
  split at h
  · cases h
  · rw [List.mem_singleton.mp h]

/-- No list of lots, no field of that name. -/
theorem name_ne_lots (h : transaction.inputCoinLotIds = []) {field : String × String}
    (hfield : field ∈ transaction.payloadFields) : field.1 ≠ "inputLots" := by
  unfold payloadFields inputLotsField at hfield
  rw [h] at hfield
  simp only [List.isEmpty_nil, if_true, List.append_nil, List.mem_append, List.mem_cons,
    List.not_mem_nil, or_false] at hfield
  rcases hfield with ((hfield | hfield) | rfl | rfl) | hfield
  · intro heq
    have hname := name_of_mem_head hfield
    rw [heq] at hname
    exact absurd hname (by decide)
  · rw [name_of_mem_data hfield]
    decide
  · simp
  · simp
  · rw [name_of_mem_chain hfield]
    decide

/-- The payload around its list of lots. -/
theorem payloadFields_lots (h : transaction.inputCoinLotIds ≠ []) : ∃ rest,
    transaction.payloadFields = transaction.headFields
      ++ ("inputLots", serializeInputCoinLotIds transaction.inputCoinLotIds) :: rest := by
  refine ⟨transaction.dataHexField ++ [("nonce", toString transaction.nonce.toNat),
    ("timestamp", toString transaction.timestamp)] ++ transaction.chainIdField, ?_⟩
  unfold payloadFields
  rw [inputLotsField_of_ne h]
  simp

include hfields

/-- A later field that the lots spell out is taken from there. -/
theorem extractField_lots {key : String} (hkey : key ∈ ["dataHex", "nonce", "timestamp", "chainId"])
    (hlots : transaction.inputCoinLotIds ≠ [])
    (hvalid : areInputCoinLotIdsStructurallyValid transaction.inputCoinLotIds = true)
    {found : List Char} (hfound : after? (key.toList ++ ['=']) transaction.lotsText = some found) :
    hasField transaction.signingPayload.toList key = true ∧
      extractField transaction.signingPayload.toList key = .ok found ∧ ']' ∈ found := by
  have hnames : ∀ key ∈ ["dataHex", "nonce", "timestamp", "chainId"], key ∈ payloadNames ∧
      "inputLots" ≠ key ∧ ∀ name ∈ ["type", "from", "to", "amountRaw", "feeRaw"],
        name ≠ key ∧ name ≠ "inputLots" := by decide
  obtain ⟨hmem, hother, hhead⟩ := hnames key hkey
  obtain ⟨rest, hsplit⟩ := payloadFields_lots hlots
  obtain ⟨front, hfront⟩ := eq_of_after? hfound
  have htext := valueText_lots hvalid
  -- the list ends with a bracket, the needle with an equals sign
  have hlast : ']' ∈ found := by
    have hend : transaction.lotsText.getLast? = some ']' := by
      unfold lotsText
      rw [toList_serializeInputCoinLotIds, ← List.cons_append, List.getLast?_concat]
    rw [hfront] at hend
    cases found with
    | nil =>
      rw [List.append_nil, ← List.append_assoc, List.getLast?_concat] at hend
      exact absurd hend (by decide)
    | cons c found =>
      rw [← List.append_assoc, List.getLast?_append_of_ne_nil _ (by simp)] at hend
      exact List.mem_of_getLast? hend
  have hsub : ∀ c, c ∉ transaction.lotsText → c ∉ found := by
    intro c hc hin
    exact hc (by rw [hfront]; simp [hin])
  have hvalue : ValueText found :=
    ⟨List.ne_nil_of_mem hlast, hsub _ htext.semicolon, hsub _ htext.brace⟩
  obtain ⟨hhas, hextract⟩ := extractField_spelled hmem hfields hsplit
    (fun field hfield => hhead field.1 (name_of_mem_head hfield)) hother hfound hvalue
  exact ⟨hhas, hextract, hlast⟩

/-- Where the lots do not spell it out, a later field is the payload's own. -/
theorem extractField_later {key value : String}
    (hkey : key ∈ ["dataHex", "nonce", "timestamp", "chainId"]) {middle rest : ObjectFields}
    (hsplit : transaction.payloadFields = transaction.headFields ++ transaction.inputLotsField
      ++ middle ++ (key, value) :: rest)
    (hmiddle : ∀ field ∈ middle, field.1 ≠ key ∧ field.1 ≠ "inputLots")
    (hlots : transaction.inputCoinLotIds ≠ [] →
      after? (key.toList ++ ['=']) transaction.lotsText = none)
    (hvalue : ValueText value.toList) :
    extractField transaction.signingPayload.toList key = .ok value.toList := by
  have hnames : ∀ key ∈ ["dataHex", "nonce", "timestamp", "chainId"], key ∈ payloadNames ∧
      "inputLots" ≠ key ∧ ∀ name ∈ ["type", "from", "to", "amountRaw", "feeRaw"],
        name ≠ key ∧ name ≠ "inputLots" := by decide
  obtain ⟨hmem, hother, hhead⟩ := hnames key hkey
  refine extractField_own hmem hfields hsplit hvalue ?_
  intro field hfield
  rcases List.mem_append.mp hfield with hfield | hfield
  · rcases List.mem_append.mp hfield with hfield | hfield
    · obtain ⟨hne, hnotLots⟩ := hhead field.1 (name_of_mem_head hfield)
      exact ⟨hne, fun heq => absurd heq hnotLots⟩
    · rw [name_of_mem_lots hfield]
      refine ⟨hother, fun _ => hlots ?_⟩
      rintro hnil
      unfold inputLotsField at hfield
      rw [hnil] at hfield
      cases hfield
  · obtain ⟨hne, hnotLots⟩ := hmiddle field hfield
    exact ⟨hne, fun heq => absurd heq hnotLots⟩

/-- A later field that is not printed and not spelled out is not found. -/
theorem hasField_later {key : String} (hkey : key ∈ ["dataHex", "chainId"])
    (hnames : ∀ field ∈ transaction.payloadFields, field.1 ≠ key)
    (hlots : transaction.inputCoinLotIds ≠ [] →
      after? (key.toList ++ ['=']) transaction.lotsText = none) :
    hasField transaction.signingPayload.toList key = false := by
  have hmem : ∀ key ∈ ["dataHex", "chainId"], key ∈ payloadNames := by decide
  refine hasField_absent (hmem key hkey) hfields hnames ?_
  rintro ⟨field, hfield, hname⟩
  exact hlots (fun hnil => name_ne_lots hnil hfield hname)

end Extract

end SignedTransaction

--
-- Payloads are read back
--

namespace SignedTransaction

section Read

variable {crypto : CryptoContext} {hashBytes : String → String} {context : SecurityContext}
  {transaction : SignedTransaction} (hbuilt : Constructed crypto hashBytes transaction)
  (hvalid : Wellformed crypto context transaction)

theorem readAsWritten_spec (h : transaction.lotsReadAsWritten = true) :
    after? "dataHex=".toList transaction.lotsText = none ∧
      after? "chainId=".toList transaction.lotsText = none ∧
      (∀ rest, after? "nonce=".toList transaction.lotsText = some rest →
        stoull (String.ofList rest) = some transaction.nonce.toNat) ∧
      ∀ rest, after? "timestamp=".toList transaction.lotsText = some rest →
        ∃ tail, stoll rest = some (transaction.timestamp, tail) := by
  simp only [lotsReadAsWritten, Bool.and_eq_true, Bool.not_eq_true', hasField,
    Option.isSome_eq_false_iff, Option.isNone_iff_eq_none] at h
  obtain ⟨⟨⟨hdata, hchain⟩, hnonce⟩, hstamp⟩ := h
  refine ⟨hdata, hchain, ?_, ?_⟩
  · intro rest hrest
    rw [hrest] at hnonce
    simpa using hnonce
  · intro rest hrest
    rw [hrest] at hstamp
    simp only [beq_iff_eq, Option.map_eq_some_iff] at hstamp
    obtain ⟨⟨value, tail⟩, hread, rfl⟩ := hstamp
    exact ⟨tail, hread⟩

include hbuilt hvalid

theorem read_head :
    extractField transaction.signingPayload.toList "type" = .ok transaction.type.text.toList ∧
    extractField transaction.signingPayload.toList "from" = .ok transaction.fromAddress.toList ∧
    extractField transaction.signingPayload.toList "to" = .ok transaction.toAddress.toList ∧
    extractField transaction.signingPayload.toList "amountRaw"
      = .ok (toString transaction.amount.rawUnits).toList ∧
    extractField transaction.signingPayload.toList "feeRaw"
      = .ok (toString transaction.fee.rawUnits).toList := by
  have hfields := payloadField_of_mem hbuilt hvalid
  refine ⟨?_, ?_, ?_, ?_, ?_⟩
  · exact @extractField_own _ "type" (by decide) hfields [] _ _ rfl (plainValue_type _).text
      (by simp)
  · exact @extractField_own _ "from" (by decide) hfields [("type", transaction.type.text)] _ _ rfl
      (plainValue_address hvalid.sender).text (by simp)
  · exact @extractField_own _ "to" (by decide) hfields
      [("type", transaction.type.text), ("from", transaction.fromAddress)] _ _ rfl
      (plainValue_address hvalid.target).text (by simp)
  · exact @extractField_own _ "amountRaw" (by decide) hfields
      [("type", transaction.type.text), ("from", transaction.fromAddress),
        ("to", transaction.toAddress)] _ _ rfl (plainValue_nat _).text (by simp)
  · exact @extractField_own _ "feeRaw" (by decide) hfields
      [("type", transaction.type.text), ("from", transaction.fromAddress),
        ("to", transaction.toAddress), ("amountRaw", toString transaction.amount.rawUnits)] _ _ rfl
      (plainValue_nat _).text (by simp)

theorem read_inputLots :
    extractInputCoinLotIdsFromPayload transaction.signingPayload.toList
      = .ok transaction.inputCoinLotIds := by
  have hfields := payloadField_of_mem hbuilt hvalid
  unfold extractInputCoinLotIdsFromPayload
  by_cases hlots : transaction.inputCoinLotIds = []
  · have habsent := @hasField_absent _ "inputLots" (by decide) hfields
      (fun field hfield => name_ne_lots hlots hfield)
      (fun ⟨field, hfield, hname⟩ => absurd hname (name_ne_lots hlots hfield))
    rw [habsent, hlots]
    rfl
  · obtain ⟨rest, hsplit⟩ := payloadFields_lots hlots
    have hhead : ∀ name ∈ ["type", "from", "to", "amountRaw", "feeRaw"], name ≠ "inputLots" := by
      decide
    have hextract := @extractField_own _ "inputLots" (by decide) hfields _ _ _ hsplit
      (valueText_lots hbuilt.lots) (fun field hfield => ⟨hhead _ (name_of_mem_head hfield),
        fun heq => absurd heq (hhead _ (name_of_mem_head hfield))⟩)
    rw [hasField_of_extractField hextract, hextract]
    exact parseInputCoinLotIds_serialize hlots hbuilt.lots

omit hbuilt hvalid in
/-- An empty value has no field. -/
theorem name_ne_of_empty {key : String} (hkey : key = "dataHex" ∧ transaction.data = "" ∨
      key = "chainId" ∧ transaction.chainId = "") {field : String × String}
    (hfield : field ∈ transaction.payloadFields) : field.1 ≠ key := by
  have hhead : ∀ name ∈ ["type", "from", "to", "amountRaw", "feeRaw"], name ≠ "dataHex" ∧
      name ≠ "chainId" := by decide
  unfold payloadFields at hfield
  simp only [List.mem_append, List.mem_cons, List.not_mem_nil, or_false] at hfield
  rcases hfield with (((hfield | hfield) | hfield) | rfl | rfl) | hfield
  · have hname := hhead _ (name_of_mem_head hfield)
    rcases hkey with ⟨rfl, -⟩ | ⟨rfl, -⟩
    · exact hname.1
    · exact hname.2
  · rw [name_of_mem_lots hfield]
    rcases hkey with ⟨rfl, -⟩ | ⟨rfl, -⟩ <;> decide
  · rw [name_of_mem_data hfield]
    rcases hkey with ⟨rfl, hempty⟩ | ⟨rfl, -⟩
    · unfold dataHexField at hfield
      rw [hempty] at hfield
      cases hfield
    · decide
  · rcases hkey with ⟨rfl, -⟩ | ⟨rfl, -⟩ <;> simp
  · rcases hkey with ⟨rfl, -⟩ | ⟨rfl, -⟩ <;> simp
  · rw [name_of_mem_chain hfield]
    rcases hkey with ⟨rfl, -⟩ | ⟨rfl, hempty⟩
    · decide
    · unfold chainIdField at hfield
      rw [hempty] at hfield
      cases hfield

/-- The nonce, from the payload or from lots that spell it. -/
theorem read_nonce (hread : transaction.lotsReadAsWritten = true) :
    ∃ text, extractField transaction.signingPayload.toList "nonce" = .ok text ∧
      stoull (String.ofList text) = some transaction.nonce.toNat := by
  have hfields := payloadField_of_mem hbuilt hvalid
  obtain ⟨-, -, hnonce, -⟩ := readAsWritten_spec hread
  by_cases hspelled : transaction.inputCoinLotIds ≠ [] ∧
      (after? "nonce=".toList transaction.lotsText).isSome = true
  · obtain ⟨hlots, hsome⟩ := hspelled
    obtain ⟨found, hfound⟩ := Option.isSome_iff_exists.mp hsome
    obtain ⟨-, hextract, -⟩ := @extractField_lots _ hfields "nonce" (by decide) hlots hbuilt.lots
      found hfound
    exact ⟨found, hextract, hnonce found hfound⟩
  · refine ⟨(toString transaction.nonce.toNat).toList, ?_, ?_⟩
    · refine @extractField_later _ hfields "nonce" _ (by decide) transaction.dataHexField
        (("timestamp", toString transaction.timestamp) :: transaction.chainIdField) ?_ ?_ ?_
        (plainValue_nat _).text
      · simp [payloadFields]
      · intro field hfield
        rw [name_of_mem_data hfield]
        decide
      · intro hlots
        cases hafter : after? ("nonce".toList ++ ['=']) transaction.lotsText with
        | none => rfl
        | some found => exact absurd ⟨hlots, Option.isSome_iff_exists.mpr ⟨found, hafter⟩⟩ hspelled
    · rw [String.ofList_toList]
      exact stoull_toString transaction.nonce.toNat_lt

theorem read_timestamp (hread : transaction.lotsReadAsWritten = true) :
    ∃ text tail, extractField transaction.signingPayload.toList "timestamp" = .ok text ∧
      stoll text = some (transaction.timestamp, tail) := by
  have hfields := payloadField_of_mem hbuilt hvalid
  obtain ⟨-, -, -, hstamp⟩ := readAsWritten_spec hread
  by_cases hspelled : transaction.inputCoinLotIds ≠ [] ∧
      (after? "timestamp=".toList transaction.lotsText).isSome = true
  · obtain ⟨hlots, hsome⟩ := hspelled
    obtain ⟨found, hfound⟩ := Option.isSome_iff_exists.mp hsome
    obtain ⟨-, hextract, -⟩ := @extractField_lots _ hfields "timestamp" (by decide) hlots
      hbuilt.lots found hfound
    obtain ⟨tail, htail⟩ := hstamp found hfound
    exact ⟨found, tail, hextract, htail⟩
  · refine ⟨(toString transaction.timestamp).toList, [], ?_, ?_⟩
    · refine @extractField_later _ hfields "timestamp" _ (by decide)
        (transaction.dataHexField ++ [("nonce", toString transaction.nonce.toNat)])
        transaction.chainIdField ?_ ?_ ?_ (plainValue_stamp hvalid.stamp).text
      · simp [payloadFields]
      · intro field hfield
        rcases List.mem_append.mp hfield with hfield | hfield
        · rw [name_of_mem_data hfield]
          decide
        · rw [List.mem_singleton.mp hfield]
          simp
      · intro hlots
        cases hafter : after? ("timestamp".toList ++ ['=']) transaction.lotsText with
        | none => rfl
        | some found => exact absurd ⟨hlots, Option.isSome_iff_exists.mpr ⟨found, hafter⟩⟩ hspelled
    · have hpos := hvalid.stamp
      have hfits := hbuilt.stamp
      rw [toString_int hpos, stoll_toString (by omega)]
      congr 2
      omega

/-- The constructor is the one that built the transaction. -/
theorem read_construct (hread : transaction.lotsReadAsWritten = true) :
    construct hashBytes transaction.signingPayload.toList transaction.type transaction.fromAddress
      transaction.toAddress transaction.amount transaction.fee transaction.nonce
      transaction.timestamp transaction.inputCoinLotIds
      = .ok (withId hashBytes { transaction with chainId := "", signatureBundle := [] }) := by
  have hfields := payloadField_of_mem hbuilt hvalid
  obtain ⟨hdata, -⟩ := readAsWritten_spec hread
  unfold construct
  by_cases hempty : transaction.data = ""
  · have habsent := @hasField_later _ hfields "dataHex" (by decide)
      (fun field hfield => name_ne_of_empty (Or.inl ⟨rfl, hempty⟩) hfield) (fun _ => hdata)
    have hother : (transaction.type != .transfer && !transaction.inputCoinLotIds.isEmpty) = false := by
      rcases hbuilt.transferOnly with htransfer | hnone
      · simp [htransfer]
      · simp [hnone]
    rw [habsent]
    simp only [Bool.false_eq_true, if_false]
    unfold ofInputs
    rw [hbuilt.lots, hother]
    simp only [Bool.not_true, Bool.false_eq_true, if_false]
    obtain ⟨⟨id, type, sender, target, amount, fee, nonce, stamp, lots, data⟩, chain, bundle⟩ :=
      transaction
    obtain rfl : data = "" := hempty
    rfl
  · have hlots : transaction.inputCoinLotIds = [] := by
      rcases hbuilt.exclusive with hnone | hnone
      · exact hnone
      · exact absurd hnone hempty
    have hextract := @extractField_later _ hfields "dataHex" (hexEncode transaction.data) (by decide)
      [] ([("nonce", toString transaction.nonce.toNat),
        ("timestamp", toString transaction.timestamp)] ++ transaction.chainIdField)
      (by simp [payloadFields, dataHexField, hempty]) (by simp) (fun hne => absurd hlots hne)
      (plainValue_hex hempty).text
    have hdecode := decodeTransactionData_hexEncode hempty hbuilt.bytes hbuilt.size
    rw [hasField_of_extractField hextract, if_pos rfl, hextract, Guards.ok_bind, hdecode, Guards.ok_bind]
    unfold ofData
    rw [if_neg (Nat.not_lt.mpr hbuilt.size)]
    obtain ⟨⟨id, type, sender, target, amount, fee, nonce, stamp, lots, data⟩, chain, bundle⟩ :=
      transaction
    obtain rfl : lots = [] := hlots
    rfl

/-- The chain id comes last and sets the id of the transaction. -/
theorem read_chainId (hread : transaction.lotsReadAsWritten = true) :
    bindChainId hashBytes transaction.signingPayload.toList
      (withId hashBytes { transaction with chainId := "", signatureBundle := [] })
      = .ok { transaction with signatureBundle := [] } := by
  have hfields := payloadField_of_mem hbuilt hvalid
  obtain ⟨-, hchain, -⟩ := readAsWritten_spec hread
  have hid : withId hashBytes { transaction with signatureBundle := [] }
      = { transaction with signatureBundle := [] } := by
    show ({ transaction with
      id := computeTransactionIdFromPayload hashBytes transaction.signingPayload
      signatureBundle := [] } : SignedTransaction) = _
    rw [← hbuilt.id]
  unfold bindChainId
  by_cases hempty : transaction.chainId = ""
  · have habsent := @hasField_later _ hfields "chainId" (by decide)
      (fun field hfield => name_ne_of_empty (Or.inr ⟨rfl, hempty⟩) hfield) (fun _ => hchain)
    rw [habsent, ← hempty]
    simp only [Bool.false_eq_true, if_false]
    exact congrArg Except.ok hid
  · have hsafe : isSafeTransactionAddress transaction.chainId = true := by
      rcases hbuilt.chain with hnone | hsafe
      · exact absurd hnone hempty
      · exact hsafe
    have hextract := @extractField_later _ hfields "chainId" transaction.chainId (by decide)
      (transaction.dataHexField ++ [("nonce", toString transaction.nonce.toNat),
        ("timestamp", toString transaction.timestamp)]) []
      (by simp [payloadFields, chainIdField, hempty])
      (by
        intro field hfield
        rcases List.mem_append.mp hfield with hfield | hfield
        · rw [name_of_mem_data hfield]
          decide
        · simp only [List.mem_cons, List.not_mem_nil, or_false] at hfield
          rcases hfield with rfl | rfl <;> simp)
      (fun _ => hchain) (plainValue_address hsafe).text
    rw [hasField_of_extractField hextract, if_pos rfl, hextract]
    rw [Guards.ok_bind, String.ofList_toList]
    unfold withChainId
    rw [hsafe]
    exact congrArg Except.ok hid

/-- **A payload is read back** where its lots spell out nothing else. -/
theorem readPayload_signingPayload (hread : transaction.lotsReadAsWritten = true) :
    readPayload hashBytes transaction.signingPayload.toList
      = .ok { transaction with signatureBundle := [] } := by
  obtain ⟨htype, hfrom, hto, hamount, hfee⟩ := read_head hbuilt hvalid
  obtain ⟨nonceText, hnonceText, hnonce⟩ := read_nonce hbuilt hvalid hread
  obtain ⟨stampText, tail, hstampText, hstamp⟩ := read_timestamp hbuilt hvalid hread
  have hlots := read_inputLots hbuilt hvalid
  have hamountRead := stoll_toString (Nat.lt_succ_of_le transaction.amount.inRange)
  have hfeeRead := stoll_toString (Nat.lt_succ_of_le transaction.fee.inRange)
  have hconstruct := read_construct hbuilt hvalid hread
  have hchain := read_chainId hbuilt hvalid hread
  unfold readPayload
  simp only [htype, hfrom, hto, hamount, hfee, hnonceText, hnonce, hstampText, hstamp, hlots,
    hamountRead, hfeeRead, orThrow, Guards.ok_bind, String.ofList_toList, transactionTypeFromString_text,
    Amount.fromRawUnits_nat, UInt64.ofNat_toNat, hconstruct, hchain]

end Read

end SignedTransaction

--
-- Lots that spell out another field
--

theorem some_of_orThrow {α : Type} {message : String} {value : Option α} {result : α}
    (h : orThrow message value = .ok result) : value = some result := by
  cases value with
  | none => cases h
  | some found => rw [Except.ok.inj h]

theorem stoull_lt {text : String} {n : Nat} (h : stoull text = some n) : n < 2 ^ 64 := by
  unfold stoull at h
  dsimp only at h
  split at h
  · cases h
  · rename_i hguard
    simp only [Bool.or_eq_true, decide_eq_true_eq, not_or, Nat.not_le] at hguard
    obtain rfl := Option.some.inj h
    split
    · exact Nat.mod_lt _ (by norm_num)
    · exact hguard.2

namespace SignedTransaction

section Spelled

variable {hashBytes : String → String} {payload : List Char} {built : SignedTransaction}

theorem construct_keeps {type : TransactionType} {fromAddress toAddress : String}
    {amount fee : Amount} {nonce : UInt64} {timestamp : Int} {inputLots : List String}
    (h : construct hashBytes payload type fromAddress toAddress amount fee nonce timestamp inputLots
      = .ok built) : built.nonce = nonce ∧ built.timestamp = timestamp := by
  unfold construct at h
  split at h
  · obtain ⟨hex, -, h⟩ := Guards.ok_of_bind h
    obtain ⟨data, -, h⟩ := Guards.ok_of_bind h
    obtain ⟨-, h⟩ := Guards.ok_of_ite_error h
    obtain rfl := Except.ok.inj h
    exact ⟨rfl, rfl⟩
  · obtain ⟨-, h⟩ := Guards.ok_of_ite_error h
    obtain ⟨-, h⟩ := Guards.ok_of_ite_error h
    obtain rfl := Except.ok.inj h
    exact ⟨rfl, rfl⟩

theorem bindChainId_keeps {bound : SignedTransaction}
    (h : bindChainId hashBytes payload built = .ok bound) :
    bound.nonce = built.nonce ∧ bound.timestamp = built.timestamp := by
  unfold bindChainId at h
  split at h
  · obtain ⟨chainId, -, h⟩ := Guards.ok_of_bind h
    obtain ⟨-, h⟩ := Guards.ok_of_ite_error h
    obtain ⟨-, h⟩ := Guards.ok_of_ite_error h
    obtain rfl := Except.ok.inj h
    exact ⟨rfl, rfl⟩
  · obtain rfl := Except.ok.inj h
    exact ⟨rfl, rfl⟩

/-- Data with a bracket is no hexadecimal text. -/
theorem construct_refuses {type : TransactionType} {fromAddress toAddress : String}
    {amount fee : Amount} {nonce : UInt64} {timestamp : Int} {inputLots : List String}
    {found : List Char} (hhas : hasField payload "dataHex" = true)
    (hextract : extractField payload "dataHex" = .ok found) (hbracket : ']' ∈ found) :
    construct hashBytes payload type fromAddress toAddress amount fee nonce timestamp inputLots
      ≠ .ok built := by
  have hhex : isHexString found = false := by
    rw [Bool.eq_false_iff]
    intro hhex
    simp only [isHexString, Bool.and_eq_true, List.all_eq_true] at hhex
    exact absurd (hhex.2 _ hbracket) (by decide)
  intro h
  unfold construct at h
  rw [hhas, if_pos rfl, hextract, Guards.ok_bind] at h
  obtain ⟨data, hdata, -⟩ := Guards.ok_of_bind h
  unfold decodeTransactionData at hdata
  rw [hhex, if_pos (by simp)] at hdata
  cases hdata

/-- Nor is a text with a bracket a chain id. -/
theorem bindChainId_refuses {bound : SignedTransaction} {found : List Char}
    (hhas : hasField payload "chainId" = true)
    (hextract : extractField payload "chainId" = .ok found) (hbracket : ']' ∈ found) :
    bindChainId hashBytes payload built ≠ .ok bound := by
  have hnotSafe : isSafeTransactionAddress (String.ofList found) = false := by
    rw [Bool.eq_false_iff]
    intro hsafe
    simp only [isSafeTransactionAddress, Bool.and_eq_true, Bool.not_eq_true', List.any_eq_false,
      String.toList_ofList] at hsafe
    exact hsafe.2 _ hbracket (by decide)
  intro h
  unfold bindChainId at h
  rw [hhas, if_pos rfl, hextract, Guards.ok_bind] at h
  obtain ⟨-, h⟩ := Guards.ok_of_ite_error h
  obtain ⟨hsafe, -⟩ := Guards.ok_of_ite_error h
  rw [hnotSafe] at hsafe
  exact hsafe rfl

/-- What an accepted payload was read from. -/
theorem readPayload_inv {unsigned : SignedTransaction}
    (h : readPayload hashBytes payload = .ok unsigned) :
    (∃ text n, extractField payload "nonce" = .ok text ∧ stoull (String.ofList text) = some n ∧
      unsigned.nonce = UInt64.ofNat n) ∧
    (∃ text stamp, extractField payload "timestamp" = .ok text ∧ stoll text = some stamp ∧
      unsigned.timestamp = stamp.1) ∧
    (∀ found, hasField payload "dataHex" = true → extractField payload "dataHex" = .ok found →
      ']' ∉ found) ∧
    ∀ found, hasField payload "chainId" = true → extractField payload "chainId" = .ok found →
      ']' ∉ found := by
  unfold readPayload at h
  iterate 10 obtain ⟨_, -, h⟩ := Guards.ok_of_bind h
  obtain ⟨nonceText, hnonceText, h⟩ := Guards.ok_of_bind h
  obtain ⟨n, hn, h⟩ := Guards.ok_of_bind h
  obtain ⟨stampText, hstampText, h⟩ := Guards.ok_of_bind h
  obtain ⟨stamp, hstamp, h⟩ := Guards.ok_of_bind h
  obtain ⟨_, -, h⟩ := Guards.ok_of_bind h
  obtain ⟨built, hbuilt, hbound⟩ := Guards.ok_of_bind h
  obtain ⟨hnonce, htime⟩ := construct_keeps hbuilt
  obtain ⟨hnonce', htime'⟩ := bindChainId_keeps hbound
  refine ⟨⟨nonceText, n, hnonceText, some_of_orThrow hn, hnonce'.trans hnonce⟩,
    ⟨stampText, stamp, hstampText, some_of_orThrow hstamp, htime'.trans htime⟩, ?_, ?_⟩
  · intro found hhas hextract hbracket
    exact construct_refuses hhas hextract hbracket hbuilt
  · intro found hhas hextract hbracket
    exact bindChainId_refuses hhas hextract hbracket hbound

end Spelled

/-- **A payload that is read back** has lots that spell out nothing else. -/
theorem readAsWritten_of_readPayload {crypto : CryptoContext} {hashBytes : String → String}
    {context : SecurityContext} {transaction unsigned : SignedTransaction}
    (hbuilt : Constructed crypto hashBytes transaction)
    (hvalid : Wellformed crypto context transaction)
    (h : readPayload hashBytes transaction.signingPayload.toList = .ok unsigned)
    (hnonce : unsigned.nonce = transaction.nonce)
    (hstamp : unsigned.timestamp = transaction.timestamp) :
    transaction.lotsReadAsWritten = true := by
  have hfields := payloadField_of_mem hbuilt hvalid
  obtain ⟨⟨nonceText, n, hnonceText, hn, hnonceEq⟩, ⟨stampText, stamp, hstampText, hstampRead,
    hstampEq⟩, hdata, hchain⟩ := readPayload_inv h
  by_cases hlots : transaction.inputCoinLotIds = []
  · -- an empty list holds no equals sign
    have htext : transaction.lotsText = ['[', ']'] := by
      unfold lotsText
      rw [hlots]
      rfl
    unfold lotsReadAsWritten
    rw [htext]
    rfl
  have hspelled := fun (key : String)
      (hkey : key ∈ ["dataHex", "nonce", "timestamp", "chainId"]) found
      (hfound : after? (key.toList ++ ['=']) transaction.lotsText = some found) =>
    @extractField_lots _ hfields key hkey hlots hbuilt.lots found hfound
  have hnone : ∀ key ∈ ["dataHex", "chainId"],
      (∀ found, hasField transaction.signingPayload.toList key = true →
        extractField transaction.signingPayload.toList key = .ok found → ']' ∉ found) →
      hasField transaction.lotsText key = false := by
    intro key hkey hrefused
    unfold hasField
    cases hafter : after? (key.toList ++ ['=']) transaction.lotsText with
    | none => rfl
    | some found =>
      have hmem : ∀ key ∈ ["dataHex", "chainId"],
          key ∈ ["dataHex", "nonce", "timestamp", "chainId"] := by decide
      obtain ⟨hhas, hextract, hbracket⟩ := hspelled key (hmem key hkey) found hafter
      exact absurd hbracket (hrefused found hhas hextract)
  unfold lotsReadAsWritten
  rw [hnone "dataHex" (by decide) hdata, hnone "chainId" (by decide) hchain]
  simp only [Bool.not_false, Bool.true_and, Bool.and_eq_true]
  constructor
  · cases hafter : after? "nonce=".toList transaction.lotsText with
    | none => rfl
    | some found =>
      obtain ⟨-, hextract, -⟩ := hspelled "nonce" (by decide) found hafter
      rw [hnonceText] at hextract
      obtain rfl := Except.ok.inj hextract
      show (stoull (String.ofList nonceText) == some transaction.nonce.toNat) = true
      rw [← hnonce, hnonceEq, UInt64.toNat_ofNat_of_lt' (stoull_lt hn), hn]
      exact beq_self_eq_true _
  · cases hafter : after? "timestamp=".toList transaction.lotsText with
    | none => rfl
    | some found =>
      obtain ⟨-, hextract, -⟩ := hspelled "timestamp" (by decide) found hafter
      rw [hstampText] at hextract
      obtain rfl := Except.ok.inj hextract
      show ((stoll stampText).map (·.1) == some transaction.timestamp) = true
      rw [← hstamp, hstampEq, hstampRead]
      exact beq_self_eq_true _

end SignedTransaction

--
-- Bundles are read back
--

namespace BundleReader

/-- Without square brackets the two splits agree. -/
theorem splitFrom_of_nested {separator : Char} (hopen : separator ≠ '{') (hclose : separator ≠ '}')
    {text : List Char} (hbrackets : '[' ∉ text ∧ ']' ∉ text) {depth : Nat} {part : List Char}
    {parts : List (List Char)}
    (h : NestedText.splitFrom separator ⟨depth, 0⟩ part text = .ok parts) :
    splitFrom separator depth part text = .ok parts := by
  induction text generalizing depth part parts with
  | nil =>
    rw [NestedText.splitFrom] at h
    split at h
    · cases h
    rename_i hzero
    split at h
    · cases h
    rename_i hpart
    have hdepth : depth = 0 := by
      simpa [Depth.zero] using hzero
    rw [splitFrom, if_neg (by simpa using hdepth), if_neg (by simpa using hpart)]
    exact congrArg Except.ok (Except.ok.inj h)
  | cons c rest ih =>
    obtain ⟨hc, hrest⟩ : (c ≠ '[' ∧ c ≠ ']') ∧ '[' ∉ rest ∧ ']' ∉ rest := by
      simp only [List.mem_cons, not_or] at hbrackets
      exact ⟨⟨Ne.symm hbrackets.1.1, Ne.symm hbrackets.2.1⟩, hbrackets.1.2, hbrackets.2.2⟩
    rw [NestedText.splitFrom] at h
    rw [splitFrom]
    by_cases hbrace : c = '{'
    · subst hbrace
      have hstep : (⟨depth, 0⟩ : Depth).step '{' = some ⟨depth + 1, 0⟩ := rfl
      rw [hstep] at h
      simp only [Ne.symm hopen, false_and, if_false] at h
      rw [if_neg (by simp)]
      simp only [if_true, Ne.symm hopen, and_false, if_false]
      exact ih hrest h
    by_cases hend : c = '}'
    · subst hend
      cases depth with
      | zero =>
        rw [show (⟨0, 0⟩ : Depth).step '}' = none from rfl] at h
        cases h
      | succ depth =>
        have hstep : (⟨depth + 1, 0⟩ : Depth).step '}' = some ⟨depth, 0⟩ := rfl
        rw [hstep] at h
        simp only [Ne.symm hclose, false_and, if_false] at h
        rw [if_neg (by simp)]
        simp only [Ne.symm hclose, and_false, if_false, if_true, Nat.add_sub_cancel]
        exact ih hrest h
    · have hstep : (⟨depth, 0⟩ : Depth).step c = some ⟨depth, 0⟩ := by
        unfold Depth.step
        rw [if_neg hbrace, if_neg hend, if_neg hc.1, if_neg hc.2]
      have hzero : (⟨depth, 0⟩ : Depth) = .zero ↔ depth = 0 := by simp [Depth.zero]
      rw [hstep] at h
      simp only [hzero] at h
      rw [if_neg (fun hand => hend hand.1)]
      simp only [hbrace, hend, if_false, and_comm]
      by_cases hcut : c = separator ∧ depth = 0
      · rw [if_pos hcut] at h
        rw [if_pos hcut]
        split at h
        · cases h
        · rename_i hpart
          rw [if_neg (by simpa using hpart)]
          cases htail : NestedText.splitFrom separator .zero [] rest with
          | error e =>
            rw [htail] at h
            cases h
          | ok tail =>
            rw [htail] at h
            rw [ih hrest htail]
            exact congrArg Except.ok (Except.ok.inj h)
      · rw [if_neg hcut] at h
        rw [if_neg hcut]
        exact ih hrest h

theorem splitAtDepthZero_intercalate {parts : List String} (hne : parts ≠ [])
    (hparts : ∀ part ∈ parts, part.toList ≠ [] ∧ Closed ';' part.toList)
    (hbrackets : ∀ part ∈ parts, '[' ∉ part.toList ∧ ']' ∉ part.toList) :
    splitAtDepthZero (String.intercalate ";" parts) ';' = .ok parts := by
  have hsplit : split ';' (List.intercalate [';'] (parts.map String.toList))
      = .ok (parts.map String.toList) := by
    refine split_intercalate (by decide) (by simpa using hne) ?_
    intro text htext
    obtain ⟨part, hpart, rfl⟩ := List.mem_map.mp htext
    exact hparts part hpart
  have hfree : ∀ c : Char, c ≠ ';' → (∀ part ∈ parts, c ∉ part.toList) →
      c ∉ List.intercalate [';'] (parts.map String.toList) := by
    intro c hc hall hmem
    rcases SignedTransaction.mem_intercalate hmem with heq | ⟨text, htext, hin⟩
    · exact hc heq
    · obtain ⟨part, hpart, rfl⟩ := List.mem_map.mp htext
      exact hall part hpart hin
  have hread := splitFrom_of_nested (by decide) (by decide)
    ⟨hfree '[' (by decide) (fun part hpart => (hbrackets part hpart).1),
      hfree ']' (by decide) (fun part hpart => (hbrackets part hpart).2)⟩ hsplit
  unfold splitAtDepthZero
  rw [String.toList_intercalate, show ";".toList = [';'] from rfl, hread]
  show Except.ok _ = _
  simp

theorem addFields_print {fields rest : ObjectFields}
    (hnames : (rest.map Prod.fst).all isFieldName = true)
    (hnodup : ((fields ++ rest).map Prod.fst).Nodup) :
    addFields fields (rest.map fun field => field.1 ++ "=" ++ field.2) = .ok (fields ++ rest) := by
  induction rest generalizing fields with
  | nil => simp [addFields]
  | cons field rest ih =>
    simp only [List.map_cons, List.all_cons, Bool.and_eq_true] at hnames
    obtain ⟨hne, hequals, -⟩ := isFieldName_spec hnames.1
    have htext : (field.1 ++ "=" ++ field.2).toList = field.1.toList ++ '=' :: field.2.toList := by
      simp [String.toList_append]
    have hnew : fields.any (fun other => other.1 == field.1) = false := by
      rw [List.any_eq_false]
      intro other hother heq
      rw [beq_iff_eq] at heq
      rw [List.map_append, List.nodup_append] at hnodup
      exact hnodup.2.2 _ (List.mem_map_of_mem hother) field.1 (by simp) heq
    have hkey : field.1.toList.isEmpty = false := by simpa using hne
    rw [List.map_cons, addFields, htext, Text.takeWhile_delimiter hequals,
      Text.dropWhile_delimiter hequals]
    simp only [List.isEmpty_cons, hkey, Bool.or_self, Bool.false_eq_true, if_false,
      String.ofList_toList, hnew, List.tail_cons]
    rw [ih hnames.2 (by simpa using hnodup)]
    simp

theorem extractBody_append (typeName body : String) :
    extractBody (typeName ++ "\x7b" ++ body ++ "\x7d") typeName = .ok body := by
  have henclosed := enclosedBody_append (typeName ++ "\x7b") body '}'
  rw [show String.singleton '}' = "\x7d" from rfl] at henclosed
  unfold extractBody
  rw [henclosed]

/-- **The fields of a printed object are read back**, if it holds no list. -/
theorem parseFields_serializeObject {typeName : String} {fields : ObjectFields}
    (h : Printable fields)
    (hbrackets : ∀ field ∈ fields, ('[' ∉ field.1.toList ∧ ']' ∉ field.1.toList) ∧
      '[' ∉ field.2.toList ∧ ']' ∉ field.2.toList) :
    ∃ body, extractBody (serializeObject typeName fields) typeName = .ok body ∧
      parseFields body = .ok fields := by
  have hparts : ∀ part ∈ fields.map (fun field => field.1 ++ "=" ++ field.2),
      '[' ∉ part.toList ∧ ']' ∉ part.toList := by
    intro part hpart
    obtain ⟨field, hfield, rfl⟩ := List.mem_map.mp hpart
    obtain ⟨hname, hvalue⟩ := hbrackets field hfield
    simp only [String.toList_append, List.mem_append, show "=".toList = ['='] from rfl,
      List.mem_singleton, not_or]
    exact ⟨⟨⟨hname.1, by decide⟩, hvalue.1⟩, ⟨hname.2, by decide⟩, hvalue.2⟩
  refine ⟨_, extractBody_append typeName _, ?_⟩
  have hsplit := splitAtDepthZero_intercalate (by simpa using h.ne) h.closed.parts hparts
  unfold parseFields
  rw [hsplit, Guards.ok_bind]
  exact addFields_print h.names (by simpa using h.nodup)

theorem requireField_cons (name value : String) (fields : ObjectFields) (key : String) :
    requireField ((name, value) :: fields) key =
      if name = key then .ok value else requireField fields key := by
  unfold requireField
  by_cases h : name = key
  · rw [if_pos h, List.find?_cons_of_pos (by simpa using h)]
  · rw [if_neg h, List.find?_cons_of_neg (by simpa using h)]

theorem parseI64_toString {i : Int} (hpos : 0 < i) (h : i < 2 ^ 63) :
    parseI64 (toString i) = .ok i := by
  have hne : (toString i).isEmpty = false := by
    rw [toString_int hpos]
    simp
  have hread := stoll_toString (show i.toNat < 2 ^ 63 by omega)
  rw [← toString_int hpos] at hread
  unfold parseI64
  rw [hne, hread]
  show Except.ok ((i.toNat : Nat) : Int) = _
  congr 1
  omega

end BundleReader

--
-- Signatures under a policy
--

/-- A hexadecimal text. -/
structure HexText (value : String) : Prop where
  ne : value.toList ≠ []
  digits : value.toList.all CryptoContext.isHexDigit = true

theorem HexText.fieldText {value : String} (h : HexText value) : FieldText value :=
  fieldText_of_all CryptoContext.isHexDigit h.ne h.digits (by decide)

theorem HexText.not_mem {value : String} (h : HexText value) {c : Char}
    (hc : CryptoContext.isHexDigit c = false) : c ∉ value.toList := by
  intro hmem
  rw [List.all_eq_true.mp h.digits c hmem] at hc
  cases hc

theorem hexText_of_hasHexByteSize {value : String} {size : Nat}
    (h : hasHexByteSize value size = true) : HexText value := by
  simp only [hasHexByteSize, Bool.and_eq_true, bne_iff_ne] at h
  obtain ⟨⟨-, hlength⟩, hdigits⟩ := h
  exact ⟨fun hnil => hlength (by rw [hnil]; rfl), hdigits⟩

/-- A policy admits no signature in the development context, and elsewhere only algorithms with
hexadecimal keys. -/
theorem hexText_of_policy {crypto : CryptoContext} {hashBytes : String → String}
    {context : SecurityContext} {bundle : SignatureBundle}
    (h : bundleIsValidFor (crypto.withKeys hashBytes) context bundle = true) :
    ∀ signature ∈ bundle, HexText signature.publicKey.keyMaterial := by
  intro signature hsignature
  simp only [bundleIsValidFor, Bool.and_eq_true, List.all_eq_true] at h
  obtain ⟨⟨hvalid, halgorithm⟩, hdomain⟩ := h.2 signature hsignature
  obtain ⟨-, -, hkey, -, -, hsame⟩ := signatureIsValid_spec hvalid
  have hmaterial : signature.publicKey.isValid = true := hkey
  have hcases : signature.algorithm = .classicEd25519 ∨ signature.algorithm = .bls12381 := by
    unfold isAlgorithmAllowed at halgorithm
    unfold isSigningDomainAllowedForContext at hdomain
    cases context <;> cases hcase : signature.algorithm <;>
      simp_all [signingDomainForSecurityContext]
  rw [hsame] at hcases
  unfold PublicKey.isValid at hmaterial
  obtain ⟨-, hmaterial⟩ := Guards.true_of_ite_false hmaterial
  rcases hcases with hcase | hcase <;> rw [hcase] at hmaterial <;>
    exact hexText_of_hasHexByteSize hmaterial

namespace BundleReader

theorem publicKey_brackets {key : PublicKey} (h : HexText key.keyMaterial) :
    ∀ field ∈ [("algorithm", key.algorithm.text), ("keyMaterial", key.keyMaterial)],
      ('[' ∉ field.1.toList ∧ ']' ∉ field.1.toList) ∧
        '[' ∉ field.2.toList ∧ ']' ∉ field.2.toList := by
  have halgorithm : ∀ algorithm : CryptoAlgorithm,
      '[' ∉ algorithm.text.toList ∧ ']' ∉ algorithm.text.toList := by
    intro algorithm
    cases algorithm <;> decide +kernel
  simp only [List.forall_mem_cons]
  exact ⟨⟨by decide, halgorithm _⟩, ⟨by decide, h.not_mem (by decide), h.not_mem (by decide)⟩,
    by simp⟩

theorem parsePublicKey_serialize {key : PublicKey} (hvalid : key.isValid = true)
    (h : HexText key.keyMaterial) : parsePublicKey key.serialize = .ok key := by
  obtain ⟨body, hbody, hfields⟩ := @parseFields_serializeObject "PublicKey" _
    (PublicKey.printable h.fieldText) (publicKey_brackets h)
  have hbody' : extractBody key.serialize "PublicKey" = .ok body := hbody
  have hlength : ([("algorithm", key.algorithm.text),
    ("keyMaterial", key.keyMaterial)].length == 2) = true := rfl
  unfold parsePublicKey
  simp only [hbody', hfields, Guards.ok_bind, hlength, ensure_true, requireField_cons, String.reduceEq,
    if_true, if_false, cryptoAlgorithmFromString_text, hvalid, beq_self_eq_true, Bool.true_and]

/-- A character of a printed object comes from its parts. -/
theorem mem_serializeObject {typeName : String} {fields : ObjectFields} {c : Char}
    (h : c ∈ (serializeObject typeName fields).toList) :
    c ∈ typeName.toList ∨ c ∈ ['{', '}', ';', '='] ∨
      ∃ field ∈ fields, c ∈ field.1.toList ∨ c ∈ field.2.toList := by
  unfold serializeObject at h
  simp only [String.toList_append, String.toList_intercalate, List.mem_append, List.map_map,
    show "\x7b".toList = ['{'] from rfl, show "\x7d".toList = ['}'] from rfl,
    show ";".toList = [';'] from rfl, List.mem_singleton] at h
  rcases h with ((h | rfl) | h) | rfl
  · exact Or.inl h
  · exact Or.inr (Or.inl (by decide))
  · rcases SignedTransaction.mem_intercalate h with rfl | ⟨part, hpart, hin⟩
    · exact Or.inr (Or.inl (by decide))
    · obtain ⟨field, hfield, rfl⟩ := List.mem_map.mp hpart
      simp only [Function.comp, String.toList_append, List.mem_append,
        show "=".toList = ['='] from rfl, List.mem_singleton] at hin
      rcases hin with (hin | rfl) | hin
      · exact Or.inr (Or.inr ⟨field, hfield, Or.inl hin⟩)
      · exact Or.inr (Or.inl (by decide))
      · exact Or.inr (Or.inr ⟨field, hfield, Or.inr hin⟩)
  · exact Or.inr (Or.inl (by decide))

theorem not_mem_serializeObject {typeName : String} {fields : ObjectFields} {c : Char}
    (hc : c ∉ typeName.toList ∧ c ∉ ['{', '}', ';', '='])
    (hfields : ∀ field ∈ fields, c ∉ field.1.toList ∧ c ∉ field.2.toList) :
    c ∉ (serializeObject typeName fields).toList := by
  intro hmem
  rcases mem_serializeObject hmem with h | h | ⟨field, hfield, h | h⟩
  · exact hc.1 h
  · exact hc.2 h
  · exact (hfields field hfield).1 h
  · exact (hfields field hfield).2 h

theorem publicKey_serialize_brackets {key : PublicKey} (h : HexText key.keyMaterial) :
    '[' ∉ key.serialize.toList ∧ ']' ∉ key.serialize.toList :=
  ⟨not_mem_serializeObject (by decide) (fun field hfield =>
      ⟨(publicKey_brackets h field hfield).1.1, (publicKey_brackets h field hfield).2.1⟩),
    not_mem_serializeObject (by decide) (fun field hfield =>
      ⟨(publicKey_brackets h field hfield).1.2, (publicKey_brackets h field hfield).2.2⟩)⟩

section Signatures

variable {crypto : CryptoContext} {hashBytes : String → String} {signature : Signature}
  (hvalid : (crypto.withKeys hashBytes).signatureIsValid signature = true)
  (hmaterial : HexText signature.publicKey.keyMaterial)
include hvalid hmaterial

theorem signature_brackets :
    ∀ field ∈ [("suite", signature.suite.text), ("domain", signature.domain.text),
      ("algorithm", signature.algorithm.text), ("publicKey", signature.publicKey.serialize),
      ("signatureHex", signature.signatureHex), ("createdAt", toString signature.createdAt)],
      ('[' ∉ field.1.toList ∧ ']' ∉ field.1.toList) ∧
        '[' ∉ field.2.toList ∧ ']' ∉ field.2.toList := by
  obtain ⟨-, -, -, -, hpositive, -⟩ := signatureIsValid_spec hvalid
  have halgorithm : ∀ algorithm : CryptoAlgorithm,
      '[' ∉ algorithm.text.toList ∧ ']' ∉ algorithm.text.toList := by
    intro algorithm
    cases algorithm <;> decide +kernel
  have hsuite : ∀ suite : CryptoSuiteId, '[' ∉ suite.text.toList ∧ ']' ∉ suite.text.toList := by
    intro suite
    cases suite <;> decide +kernel
  have hdomain : ∀ domain : SigningDomain,
      '[' ∉ domain.text.toList ∧ ']' ∉ domain.text.toList := by
    intro domain
    cases domain <;> decide +kernel
  have hhex : HexText signature.signatureHex := by
    simp only [CryptoContext.signatureIsValid, Bool.and_eq_true, Bool.not_eq_true'] at hvalid
    exact ⟨by simpa using hvalid.1.1.1.2, hvalid.1.1.2⟩
  simp only [List.forall_mem_cons, toString_int hpositive]
  exact ⟨⟨by decide, hsuite _⟩, ⟨by decide, hdomain _⟩, ⟨by decide, halgorithm _⟩,
    ⟨by decide, publicKey_serialize_brackets hmaterial⟩,
    ⟨by decide, hhex.not_mem (by decide), hhex.not_mem (by decide)⟩,
    ⟨by decide, Text.not_mem_toString (by decide), Text.not_mem_toString (by decide)⟩, by simp⟩

theorem signature_serialize_brackets :
    '[' ∉ signature.serialize.toList ∧ ']' ∉ signature.serialize.toList :=
  ⟨not_mem_serializeObject (by decide) (fun field hfield =>
      ⟨(signature_brackets hvalid hmaterial field hfield).1.1,
        (signature_brackets hvalid hmaterial field hfield).2.1⟩),
    not_mem_serializeObject (by decide) (fun field hfield =>
      ⟨(signature_brackets hvalid hmaterial field hfield).1.2,
        (signature_brackets hvalid hmaterial field hfield).2.2⟩)⟩

theorem parseSignatureChunk_serialize (hcreated : signature.createdAt < 2 ^ 63) :
    parseSignatureChunk (crypto.withKeys hashBytes) signature.serialize = .ok signature := by
  obtain ⟨body, hbody, hfields⟩ := @parseFields_serializeObject "Signature" _
    (Signature.printable hvalid hmaterial.fieldText) (signature_brackets hvalid hmaterial)
  have hbody' : extractBody signature.serialize "Signature" = .ok body := hbody
  obtain ⟨-, hdomain, hkey, -, hpositive, halgorithm⟩ := signatureIsValid_spec hvalid
  have hdomain' : (signature.domain != .unknown) = true := bne_iff_ne.mpr hdomain
  have halgorithm' : (signature.algorithm == signature.publicKey.algorithm) = true :=
    beq_iff_eq.mpr halgorithm
  unfold parseSignatureChunk
  simp only [hbody', hfields, Guards.ok_bind, List.length_cons, List.length_nil, Nat.reduceAdd,
    beq_self_eq_true, ensure_true, requireField_cons, String.reduceEq, if_true, if_false,
    cryptoAlgorithmFromString_text, cryptoSuiteIdFromString_text, signingDomainFromString_text,
    hdomain', halgorithm', parsePublicKey_serialize hkey hmaterial,
    parseI64_toString hpositive hcreated, hvalid, Bool.true_and]

end Signatures

theorem addSignatures_print {crypto : CryptoContext} {hashBytes : String → String}
    {bundle rest : SignatureBundle}
    (h : BundleBuilt (crypto.withKeys hashBytes) (bundle ++ rest))
    (hmaterial : ∀ signature ∈ rest, HexText signature.publicKey.keyMaterial) :
    addSignatures (crypto.withKeys hashBytes) bundle (rest.map Signature.serialize)
      = .ok (bundle ++ rest) := by
  induction rest generalizing bundle with
  | nil => simp [addSignatures]
  | cons signature rest ih =>
    have hmem : signature ∈ bundle ++ signature :: rest := by simp
    have hvalid := h.valid signature hmem
    have hparse := parseSignatureChunk_serialize hvalid (hmaterial signature List.mem_cons_self)
      (h.fits signature hmem)
    have hnew : (!bundle.any (fun other => other.algorithm == signature.algorithm)) = true := by
      rw [Bool.not_eq_true', List.any_eq_false]
      intro other hother heq
      rw [beq_iff_eq] at heq
      have hdistinct := h.distinct
      rw [List.map_append, List.nodup_append] at hdistinct
      exact hdistinct.2.2 _ (List.mem_map_of_mem hother) signature.algorithm (by simp) heq
    rw [List.map_cons, addSignatures]
    simp only [hparse, Guards.ok_bind, hvalid, ensure_true, hnew]
    rw [ih (by simpa using h) (fun other hother => hmaterial other (List.mem_cons_of_mem _ hother))]
    simp

/-- **A bundle is read back.** -/
theorem deserialize_serializeBundle {crypto : CryptoContext} {hashBytes : String → String}
    {bundle : SignatureBundle} (h : BundleBuilt (crypto.withKeys hashBytes) bundle)
    (hne : bundle ≠ []) (hmaterial : ∀ signature ∈ bundle, HexText signature.publicKey.keyMaterial) :
    deserialize (crypto.withKeys hashBytes) (serializeBundle bundle) = .ok bundle := by
  have hparts : bundle.map Signature.serialize ≠ [] := by simpa using hne
  have hclosed : ∀ part ∈ bundle.map Signature.serialize,
      part.toList ≠ [] ∧ Closed ';' part.toList := by
    intro part hpart
    obtain ⟨signature, hsignature, rfl⟩ := List.mem_map.mp hpart
    exact closed_signature (h.valid signature hsignature) (hmaterial signature hsignature).fieldText
  have hbrackets : ∀ part ∈ bundle.map Signature.serialize,
      '[' ∉ part.toList ∧ ']' ∉ part.toList := by
    intro part hpart
    obtain ⟨signature, hsignature, rfl⟩ := List.mem_map.mp hpart
    exact signature_serialize_brackets (h.valid signature hsignature) (hmaterial signature hsignature)
  have hsplit := splitAtDepthZero_intercalate hparts hclosed hbrackets
  have hjoined := intercalate_ne_empty (by decide) hparts hclosed
  rw [show String.singleton ';' = ";" from rfl] at hjoined
  have hbody : extractBody (serializeBundle bundle) "SignatureBundle"
      = .ok (String.intercalate ";" (bundle.map Signature.serialize)) :=
    extractBody_append "SignatureBundle" _
  have hempty : (!(String.intercalate ";" (bundle.map Signature.serialize)).isEmpty) = true := by
    simpa using hjoined
  have hadd := @addSignatures_print crypto hashBytes [] bundle h hmaterial
  rw [List.nil_append] at hadd
  unfold deserialize
  simp only [hbody, hempty, hsplit, hadd, Guards.ok_bind, beq_self_eq_true, ensure_true]

end BundleReader

--
-- Transactions are read back
--

namespace SignedTransaction

def bundleMarker : List Char := ";signatureBundle=".toList

/-- The names of a payload are not the one that the marker announces. -/
theorem name_head {name : String} (h : name ∈ payloadNames) :
    ∃ c rest, name.toList = c :: rest ∧ c ≠ 's' := by
  have hall : payloadNames.all (fun name => name.toList.head?.any (· != 's')) = true := by decide
  have hname := List.all_eq_true.mp hall name h
  cases hlist : name.toList with
  | nil =>
    rw [hlist] at hname
    cases hname
  | cons c rest =>
    rw [hlist] at hname
    exact ⟨c, rest, rfl, by simpa using hname⟩

/-- A search for the marker goes by the fields of a payload. -/
theorem marker_behind {front : List Char} (hfront : ';' ∉ front) {fields : ObjectFields}
    (hfields : ∀ field ∈ fields, field.1 ∈ payloadNames ∧ ';' ∉ field.2.toList)
    (rest : List Char) :
    before? bundleMarker (front ++ chain ';' fields ++ (bundleMarker ++ rest))
      = some (front ++ chain ';' fields) ∧
    after? bundleMarker (front ++ chain ';' fields ++ (bundleMarker ++ rest)) = some rest := by
  have hmarker : bundleMarker = ';' :: "signatureBundle=".toList := rfl
  induction fields generalizing front with
  | nil =>
    have hskip : ';' ∉ front ++ chain ';' [] := by
      simp only [chain, List.mem_append, List.mem_singleton, not_or]
      exact ⟨hfront, by decide⟩
    have hstarts : bundleMarker <+: bundleMarker ++ rest := List.prefix_append _ _
    constructor
    · rw [hmarker, before?_skip_text hskip, ← hmarker, before?_of_starts hstarts]
      simp
    · rw [hmarker, after?_skip_text hskip, ← hmarker, after?_of_starts hstarts, List.drop_left]
  | cons field fields ih =>
    obtain ⟨hname, hvalue⟩ := hfields field List.mem_cons_self
    obtain ⟨c, tail, hlist, hc⟩ := name_head hname
    have hnext : ';' ∉ field.1.toList ++ '=' :: field.2.toList := by
      simp only [List.mem_append, List.mem_cons, not_or]
      exact ⟨(not_mem_key (isKey_of_mem hname)).2.1, by decide, hvalue⟩
    obtain ⟨hbefore, hafter⟩ := ih hnext
      (fun other hother => hfields other (List.mem_cons_of_mem _ hother))
    have htext : front ++ chain ';' (field :: fields) ++ (bundleMarker ++ rest)
        = front ++ ';' :: ((field.1.toList ++ '=' :: field.2.toList) ++ chain ';' fields
          ++ (bundleMarker ++ rest)) := by
      rw [chain]
      simp
    have hnot : ¬ bundleMarker <+: ';' :: ((field.1.toList ++ '=' :: field.2.toList)
        ++ chain ';' fields ++ (bundleMarker ++ rest)) := by
      rw [hmarker, hlist]
      rintro ⟨suffix, hsuffix⟩
      simp only [List.cons_append, List.cons.injEq, true_and, show "signatureBundle=".toList
        = 's' :: "ignatureBundle=".toList from rfl] at hsuffix
      exact hc hsuffix.1.symm
    have hresult : front ++ ';' :: ((field.1.toList ++ '=' :: field.2.toList) ++ chain ';' fields)
        = front ++ chain ';' (field :: fields) := by
      rw [chain]
      simp
    rw [htext]
    constructor
    · rw [hmarker, before?_skip_text hfront, ← hmarker, before?_cons_of_not_starts hnot, hbefore]
      exact congrArg some hresult
    · rw [hmarker, after?_skip_text hfront, ← hmarker, after?_cons_of_not_starts hnot]
      exact hafter

/-- The text of a transaction. -/
theorem toList_serialize (transaction : SignedTransaction)
    (hsigned : transaction.signatureBundle ≠ []) :
    transaction.serialize.toList
      = "Transaction\x7bid=".toList ++ transaction.id.toList ++ [';'] ++ ("payload=".toList
        ++ (transaction.signingPayload.toList ++ (bundleMarker
          ++ ((serializeBundle transaction.signatureBundle).toList ++ ['}'])))) := by
  have hopen : "Transaction\x7bid=".toList = "Transaction".toList ++ '{' :: ("id".toList ++ ['=']) := by
    decide
  have hmiddle : "payload=".toList = "payload".toList ++ ['='] := by decide
  have hmarker : bundleMarker = ';' :: ("signatureBundle".toList ++ ['=']) := by decide
  unfold serialize
  rw [if_neg (by simpa using hsigned), toList_serializeObject _ (by simp), hopen, hmiddle, hmarker]
  simp only [chain, List.append_assoc, List.cons_append, List.nil_append]

section Serialized

variable {crypto : CryptoContext} {hashBytes : String → String} {context : SecurityContext}
  {transaction : SignedTransaction}
  (hdigest : ∀ text, ChainBlock.isCanonicalCommitmentRoot (hashBytes text) = true)
  (hbuilt : Constructed (crypto.withKeys hashBytes) hashBytes transaction)
  (hvalid : Wellformed (crypto.withKeys hashBytes) context transaction)
include hbuilt hvalid

/-- Where the payload ends. -/
theorem marker_payload (rest : List Char) :
    before? bundleMarker (transaction.signingPayload.toList ++ (bundleMarker ++ rest))
      = some transaction.signingPayload.toList ∧
    after? bundleMarker (transaction.signingPayload.toList ++ (bundleMarker ++ rest))
      = some rest := by
  have hfields := payloadField_of_mem hbuilt hvalid
  have hvalues : ∀ field ∈ transaction.payloadFields,
      field.1 ∈ payloadNames ∧ ';' ∉ field.2.toList := by
    intro field hfield
    refine ⟨(hfields field hfield).name, ?_⟩
    by_cases hlots : field.1 = "inputLots"
    · rw [(hfields field hfield).lots hlots]
      exact (valueText_lots hbuilt.lots).semicolon
    · exact ((hfields field hfield).plain hlots).text.semicolon
  obtain ⟨first, fields, hsplit⟩ := List.exists_cons_of_ne_nil (payloadFields_ne_nil transaction)
  rw [hsplit] at hvalues
  obtain ⟨hname, hvalue⟩ := hvalues first List.mem_cons_self
  have hfront : ';' ∉ "TransactionPayload".toList ++ '{' :: (first.1.toList ++ '='
      :: first.2.toList) := by
    simp only [List.mem_append, List.mem_cons, not_or]
    exact ⟨by decide, by decide, (not_mem_key (isKey_of_mem hname)).2.1, by decide, hvalue⟩
  have htext : transaction.signingPayload.toList
      = "TransactionPayload".toList ++ '{' :: (first.1.toList ++ '=' :: first.2.toList)
        ++ chain ';' fields := by
    rw [toList_signingPayload, hsplit, chain]
    simp
  rw [htext]
  exact marker_behind hfront
    (fun field hfield => hvalues field (List.mem_cons_of_mem _ hfield)) rest

theorem extractTransactionPayload_serialize (hid : 'p' ∉ transaction.id.toList) :
    extractTransactionPayload transaction.serialize.toList
      = .ok transaction.signingPayload.toList := by
  obtain ⟨first, fields, hsplit⟩ := List.exists_cons_of_ne_nil (payloadFields_ne_nil transaction)
  obtain ⟨rest, hpayload⟩ : ∃ rest, transaction.signingPayload.toList
      = "TransactionPayload\x7b".toList ++ rest := by
    rw [toList_signingPayload, hsplit, chain]
    exact ⟨_, by simp [show "TransactionPayload\x7b".toList
      = "TransactionPayload".toList ++ ['{'] from rfl]; rfl⟩
  have hskip : 'p' ∉ "Transaction\x7bid=".toList ++ transaction.id.toList ++ [';'] := by
    simp only [List.mem_append, List.mem_singleton, not_or]
    exact ⟨⟨by decide, hid⟩, by decide⟩
  have hneedle : "payload=TransactionPayload\x7b".toList
      = 'p' :: "ayload=TransactionPayload\x7b".toList := rfl
  have hafter : after? "payload=TransactionPayload\x7b".toList transaction.serialize.toList
      = some (rest ++ (bundleMarker ++ ((serializeBundle transaction.signatureBundle).toList
        ++ ['}']))) := by
    have hstarts : "payload=TransactionPayload\x7b".toList <+: "payload=".toList
        ++ (("TransactionPayload\x7b".toList ++ rest) ++ (bundleMarker
          ++ ((serializeBundle transaction.signatureBundle).toList ++ ['}']))) :=
      ⟨rest ++ (bundleMarker ++ ((serializeBundle transaction.signatureBundle).toList ++ ['}'])),
        by simp [show "payload=TransactionPayload\x7b".toList
          = "payload=".toList ++ "TransactionPayload\x7b".toList from rfl]⟩
    rw [toList_serialize transaction hvalid.signed, hneedle, after?_skip_text hskip, ← hneedle,
      hpayload, after?_of_starts hstarts]
    rfl
  have hbefore := (marker_payload hbuilt hvalid
    ((serializeBundle transaction.signatureBundle).toList ++ ['}'])).1
  have hne : transaction.signingPayload.toList.isEmpty = false := by
    rw [hpayload]
    rfl
  unfold extractTransactionPayload
  rw [hafter]
  simp only
  rw [← List.append_assoc, ← hpayload, show ";signatureBundle=".toList = bundleMarker from rfl,
    hbefore]
  simp only [hne, Bool.false_eq_true, if_false]

theorem extractSignatureBundle_serialize (hid : ';' ∉ transaction.id.toList) :
    extractSignatureBundle transaction.serialize.toList
      = .ok (serializeBundle transaction.signatureBundle).toList := by
  have hskip : ';' ∉ "Transaction\x7bid=".toList ++ transaction.id.toList := by
    simp only [List.mem_append, not_or]
    exact ⟨by decide, hid⟩
  have hmarker : bundleMarker = ';' :: "signatureBundle=".toList := rfl
  have hpayload := (marker_payload hbuilt hvalid
    ((serializeBundle transaction.signatureBundle).toList ++ ['}'])).2
  have hafter : after? bundleMarker transaction.serialize.toList
      = some ((serializeBundle transaction.signatureBundle).toList ++ ['}']) := by
    have hnot : ¬ bundleMarker <+: ';' :: ("payload=".toList ++ (transaction.signingPayload.toList
        ++ (bundleMarker ++ ((serializeBundle transaction.signatureBundle).toList ++ ['}'])))) := by
      rw [hmarker]
      rintro ⟨suffix, hsuffix⟩
      simp only [List.cons_append, List.cons.injEq, true_and, show "signatureBundle=".toList
        = 's' :: "ignatureBundle=".toList from rfl, show "payload=".toList
        = 'p' :: "ayload=".toList from rfl] at hsuffix
      exact absurd hsuffix.1 (by decide)
    rw [toList_serialize transaction hvalid.signed, List.append_assoc, List.singleton_append,
      hmarker, after?_skip_text hskip, ← hmarker, after?_cons_of_not_starts hnot, hmarker,
      after?_skip_text (show ';' ∉ "payload=".toList by decide), ← hmarker]
    exact hpayload
  have hlast : transaction.serialize.toList.getLast? = some '}' := by
    rw [toList_serialize transaction hvalid.signed]
    simp only [← List.append_assoc, List.getLast?_concat]
  have hbundle : (serializeBundle transaction.signatureBundle).toList ≠ [] := by
    unfold serializeBundle
    simp [String.toList_append]
  have hlength : ¬ ((serializeBundle transaction.signatureBundle).toList ++ ['}']).length ≤ 1 := by
    have hpos := List.length_pos_of_ne_nil hbundle
    simp only [List.length_append, List.length_singleton]
    omega
  unfold extractSignatureBundle
  rw [show ";signatureBundle=".toList = bundleMarker from rfl, hafter]
  simp only
  rw [hlast, if_neg (by simp), if_neg hlength, List.dropLast_concat]

end Serialized

end SignedTransaction

namespace SignedTransaction

section RoundTrip

variable {crypto : CryptoContext} {hashBytes : String → String} {context : SecurityContext}
  {transaction : SignedTransaction}
  (hdigest : ∀ text, ChainBlock.isCanonicalCommitmentRoot (hashBytes text) = true)
  (hbuilt : Constructed (crypto.withKeys hashBytes) hashBytes transaction)
  (hvalid : Wellformed (crypto.withKeys hashBytes) context transaction)
include hdigest hbuilt

theorem hexText_id : HexText transaction.id := by
  have hroot := hdigest (cString transaction.signingPayload)
  have hid : transaction.id = hashBytes (cString transaction.signingPayload) := hbuilt.id
  rw [← hid] at hroot
  unfold ChainBlock.isCanonicalCommitmentRoot at hroot
  obtain ⟨hlength, hall⟩ := Guards.true_of_ite_false hroot
  refine ⟨?_, ?_⟩
  · intro hnil
    exact hlength (by rw [← String.length_toList, hnil]; decide)
  · rw [List.all_eq_true] at hall ⊢
    intro c hc
    have hdigit := hall c hc
    unfold CryptoContext.isHexDigit
    rw [hdigit]
    rfl

include hvalid

theorem extractField_id :
    extractField transaction.serialize.toList "id" = .ok transaction.id.toList := by
  have hhex := hexText_id hdigest hbuilt
  have hvalue : ValueText transaction.id.toList :=
    ⟨hhex.ne, hhex.not_mem (by decide), hhex.not_mem (by decide)⟩
  have hfound := @after?_found "id" (by decide) "Transaction".toList (by decide) [] (by simp)
    transaction.id [("payload", transaction.signingPayload),
      ("signatureBundle", serializeBundle transaction.signatureBundle)]
  unfold extractField serialize
  rw [if_neg (by simpa using hvalid.signed), toList_serializeObject _ (by simp)]
  rw [List.nil_append] at hfound
  rw [hfound]
  simp only [fieldValue_behind hvalue]

omit hdigest hbuilt in
theorem isTransactionText :
    ("Transaction\x7b".toList.isPrefixOf transaction.serialize.toList
      && transaction.serialize.toList.getLast? == some '}') = true := by
  have hopen : "Transaction\x7bid=".toList = "Transaction\x7b".toList ++ "id=".toList := by decide
  rw [toList_serialize transaction hvalid.signed, Bool.and_eq_true, List.isPrefixOf_iff_prefix,
    beq_iff_eq]
  constructor
  · rw [hopen]
    simp only [List.append_assoc]
    exact List.prefix_append _ _
  · simp only [← List.append_assoc, List.getLast?_concat]

omit hdigest in
theorem attachRead_serializeBundle :
    attachRead (crypto.withKeys hashBytes) { transaction with signatureBundle := [] }
      (serializeBundle transaction.signatureBundle).toList = .ok transaction := by
  have hnone : (serializeBundle transaction.signatureBundle != "NONE") = true := by
    rw [bne_iff_ne]
    intro heq
    have hhead := congrArg (fun text => text.toList.head?) heq
    unfold serializeBundle at hhead
    simp [String.toList_append] at hhead
  have hread := BundleReader.deserialize_serializeBundle hbuilt.bundle hvalid.signed
    (hexText_of_policy hvalid.policy)
  unfold attachRead
  rw [String.ofList_toList, hnone, if_pos rfl, hread, Guards.ok_bind]
  unfold attachSignatureBundle
  rw [if_neg (by simpa using hvalid.signed), if_neg (by simp)]

/-- What `deserialize` makes of the text of a transaction. -/
theorem deserialize_serialize_eq :
    deserialize (crypto.withKeys hashBytes) hashBytes transaction.serialize
      = (do
        let unsigned ← readPayload hashBytes transaction.signingPayload.toList
        let read ← attachRead (crypto.withKeys hashBytes) unsigned
          (serializeBundle transaction.signatureBundle).toList
        ensure (read.id == transaction.id) "Serialized Transaction id does not match payload."
        ensure (read.signingPayload == transaction.signingPayload)
          "Transaction serialization round-trip failed."
        ensure (read.serialize == transaction.serialize)
          "Transaction serialization is non-canonical."
        .ok read) := by
  have hhex := hexText_id hdigest hbuilt
  have hpayload := extractTransactionPayload_serialize hbuilt hvalid (hhex.not_mem (by decide))
  have hbundle := extractSignatureBundle_serialize hbuilt hvalid (hhex.not_mem (by decide))
  have hstarts : "TransactionPayload\x7b".toList.isPrefixOf transaction.signingPayload.toList
      = true := by
    obtain ⟨first, fields, hsplit⟩ := List.exists_cons_of_ne_nil (payloadFields_ne_nil transaction)
    have hopen : "TransactionPayload\x7b".toList = "TransactionPayload".toList ++ ['{'] := by decide
    rw [toList_signingPayload, hsplit, chain, hopen, List.isPrefixOf_iff_prefix]
    exact ⟨_, by rw [List.append_assoc]; rfl⟩
  unfold deserialize
  rw [isTransactionText hvalid, extractField_id hdigest hbuilt hvalid, hpayload]
  simp only [ensure_true, Guards.ok_bind, hstarts, hbundle, String.ofList_toList]

/-- **When a transaction is read back from its text.** -/
theorem deserialize_serialize_iff :
    deserialize (crypto.withKeys hashBytes) hashBytes transaction.serialize = .ok transaction ↔
      transaction.lotsReadAsWritten = true := by
  rw [deserialize_serialize_eq hdigest hbuilt hvalid]
  constructor
  · intro h
    obtain ⟨unsigned, hunsigned, h⟩ := Guards.ok_of_bind h
    obtain ⟨read, hread, h⟩ := Guards.ok_of_bind h
    obtain ⟨_, -, h⟩ := Guards.ok_of_bind h
    obtain ⟨_, -, h⟩ := Guards.ok_of_bind h
    obtain ⟨_, -, h⟩ := Guards.ok_of_bind h
    obtain rfl := Except.ok.inj h
    have hkept : unsigned.nonce = read.nonce ∧ unsigned.timestamp = read.timestamp := by
      unfold attachRead at hread
      split at hread
      · obtain ⟨bundle, -, hattach⟩ := Guards.ok_of_bind hread
        obtain ⟨-, hattach⟩ := Guards.ok_of_ite_error hattach
        obtain ⟨-, hattach⟩ := Guards.ok_of_ite_error hattach
        obtain rfl := Except.ok.inj hattach
        exact ⟨rfl, rfl⟩
      · obtain rfl := Except.ok.inj hread
        exact ⟨rfl, rfl⟩
    exact readAsWritten_of_readPayload hbuilt hvalid hunsigned hkept.1 hkept.2
  · intro hread
    rw [readPayload_signingPayload hbuilt hvalid hread, Guards.ok_bind,
      attachRead_serializeBundle hbuilt hvalid]
    simp only [Guards.ok_bind, beq_self_eq_true, ensure_true]

end RoundTrip

/-- An accepted text is what its transaction prints. -/
theorem serialize_of_deserialize {crypto : CryptoContext} {hashBytes : String → String}
    {serialized : String} {transaction : SignedTransaction}
    (h : deserialize crypto hashBytes serialized = .ok transaction) :
    transaction.serialize = serialized := by
  unfold deserialize at h
  iterate 9 obtain ⟨_, -, h⟩ := Guards.ok_of_bind h
  obtain ⟨_, hcanonical, h⟩ := Guards.ok_of_bind h
  obtain rfl := Except.ok.inj h
  exact beq_iff_eq.mp (true_of_ensure hcanonical)

--
-- What a signature binds
--

/-- Two transactions with one meaning. -/
structure Agree (first second : SignedTransaction) : Prop where
  type : first.type = second.type
  sender : first.fromAddress = second.fromAddress
  target : first.toAddress = second.toAddress
  amount : first.amount = second.amount
  fee : first.fee = second.fee
  nonce : first.nonce = second.nonce
  timestamp : first.timestamp = second.timestamp
  lots : first.inputCoinLotIds = second.inputCoinLotIds
  data : first.data = second.data
  chainId : first.chainId = second.chainId

section Binding

variable {crypto : CryptoContext} {hashBytes : String → String} {context : SecurityContext}
  {transaction : SignedTransaction} (hbuilt : Constructed crypto hashBytes transaction)
  (hvalid : Wellformed crypto context transaction)
include hbuilt hvalid

omit hvalid in
theorem closed_lots : Closed ';' transaction.lotsText := by
  have hlots := hbuilt.lots
  simp only [areInputCoinLotIdsStructurallyValid, Bool.and_eq_true, List.all_eq_true] at hlots
  have hplain : ∀ part ∈ transaction.inputCoinLotIds.map String.toList, Balanced part := by
    intro part hpart
    obtain ⟨lot, hlot, rfl⟩ := List.mem_map.mp hpart
    refine Plain.balanced (fun c hc => ?_)
    refine ⟨?_, ?_, ?_, ?_⟩ <;> rintro rfl <;>
      exact not_mem_lot (hlots.2 lot hlot) (by decide) hc
  unfold lotsText
  rw [toList_serializeInputCoinLotIds]
  exact Balanced.brackets (by decide) (balanced_intercalate (by decide) hplain)

theorem payload_closedFields : ClosedFields transaction.payloadFields := by
  have hfields := payloadField_of_mem hbuilt hvalid
  have hnames : payloadNames.all isFieldName = true := by decide
  constructor
  · rw [List.all_eq_true]
    intro name hname
    obtain ⟨field, hfield, rfl⟩ := List.mem_map.mp hname
    exact List.all_eq_true.mp hnames _ (hfields field hfield).name
  · intro field hfield
    by_cases hlots : field.1 = "inputLots"
    · rw [(hfields field hfield).lots hlots]
      exact closed_lots hbuilt
    · exact ((hfields field hfield).plain hlots).closed

end Binding

/-- The field of a name. -/
theorem lookup_inputLots (transaction : SignedTransaction) :
    transaction.payloadFields.lookup "inputLots"
      = if transaction.inputCoinLotIds.isEmpty then none
        else some (serializeInputCoinLotIds transaction.inputCoinLotIds) := by
  unfold payloadFields headFields inputLotsField dataHexField chainIdField
  split_ifs <;> simp [List.lookup_cons]

theorem lookup_dataHex (transaction : SignedTransaction) :
    transaction.payloadFields.lookup "dataHex"
      = if transaction.data.isEmpty then none else some (hexEncode transaction.data) := by
  unfold payloadFields headFields inputLotsField dataHexField chainIdField
  split_ifs <;> simp [List.lookup_cons]

theorem lookup_chainId (transaction : SignedTransaction) :
    transaction.payloadFields.lookup "chainId"
      = if transaction.chainId.isEmpty then none else some transaction.chainId := by
  unfold payloadFields headFields inputLotsField dataHexField chainIdField
  split_ifs <;> simp [List.lookup_cons]

theorem lookup_order (transaction : SignedTransaction) :
    transaction.payloadFields.lookup "nonce" = some (toString transaction.nonce.toNat) ∧
      transaction.payloadFields.lookup "timestamp" = some (toString transaction.timestamp) := by
  unfold payloadFields headFields inputLotsField dataHexField chainIdField
  split_ifs <;> simp [List.lookup_cons]

end SignedTransaction

namespace SignedTransaction

/-- **The payload binds the meaning.** -/
theorem signingPayload_injective {crypto : CryptoContext} {hashBytes : String → String}
    {context context' : SecurityContext} {first second : SignedTransaction}
    (hfirst : Constructed crypto hashBytes first) (hfirstValid : Wellformed crypto context first)
    (hsecond : Constructed crypto hashBytes second)
    (hsecondValid : Wellformed crypto context' second)
    (h : first.signingPayload = second.signingPayload) : Agree first second := by
  have hfields : first.payloadFields = second.payloadFields :=
    serializeObject_injective (payloadFields_ne_nil first) (payload_closedFields hfirst hfirstValid)
      (payload_closedFields hsecond hsecondValid) h
  have hhead : first.headFields = second.headFields := by
    have htake := congrArg (List.take 5) hfields
    exact htake
  simp only [headFields, List.cons.injEq, Prod.mk.injEq, true_and, and_true] at hhead
  obtain ⟨htype, hsender, htarget, hamount, hfee⟩ := hhead
  have hnonce := congrArg (List.lookup "nonce") hfields
  have hstamp := congrArg (List.lookup "timestamp") hfields
  have hlots := congrArg (List.lookup "inputLots") hfields
  have hdata := congrArg (List.lookup "dataHex") hfields
  have hchain := congrArg (List.lookup "chainId") hfields
  rw [(lookup_order first).1, (lookup_order second).1] at hnonce
  rw [(lookup_order first).2, (lookup_order second).2] at hstamp
  rw [lookup_inputLots, lookup_inputLots] at hlots
  rw [lookup_dataHex, lookup_dataHex] at hdata
  rw [lookup_chainId, lookup_chainId] at hchain
  refine ⟨?_, hsender, htarget, Amount.ext (Text.toString_nat_inj hamount),
    Amount.ext (Text.toString_nat_inj hfee), ?_, ?_, ?_, ?_, ?_⟩
  · have hread := transactionTypeFromString_text first.type
    rw [htype, transactionTypeFromString_text] at hread
    exact (Except.ok.inj hread).symm
  · exact UInt64.toNat_inj.mp (Text.toString_nat_inj (Option.some.inj hnonce))
  · have htext := Option.some.inj hstamp
    rw [toString_int hfirstValid.stamp, toString_int hsecondValid.stamp] at htext
    have hnat := Text.toString_nat_inj htext
    have hpos := hfirstValid.stamp
    have hpos' := hsecondValid.stamp
    omega
  · split_ifs at hlots with hnil hnil' hother
    · rw [List.isEmpty_iff.mp hnil, List.isEmpty_iff.mp hnil']
    · have hread := parseInputCoinLotIds_serialize (by simpa using hnil) hfirst.lots
      rw [Option.some.inj hlots, parseInputCoinLotIds_serialize (by simpa using hother) hsecond.lots]
        at hread
      exact (Except.ok.inj hread).symm
  · split_ifs at hdata with hnil hnil' hother
    · rw [String.isEmpty_iff.mp hnil, String.isEmpty_iff.mp hnil']
    · have hread := decodeTransactionData_hexEncode (by simpa using hnil) hfirst.bytes hfirst.size
      rw [Option.some.inj hdata,
        decodeTransactionData_hexEncode (by simpa using hother) hsecond.bytes hsecond.size] at hread
      exact (Except.ok.inj hread).symm
  · split_ifs at hchain with hnil hnil' hother
    · rw [String.isEmpty_iff.mp hnil, String.isEmpty_iff.mp hnil']
    · exact Option.some.inj hchain

/-- **The text codec of transactions.** A structurally valid transaction is read back from its
text exactly if its list of lots spells out no later field in another way; an accepted text is what
its transaction prints; and two structurally valid transactions with one payload agree. -/
theorem transaction_codec (crypto : CryptoContext) (hashBytes : String → String)
    (hdigest : ∀ text, ChainBlock.isCanonicalCommitmentRoot (hashBytes text) = true) :
    let policy := crypto.withKeys hashBytes
    (∀ transaction context, Built policy hashBytes transaction →
      transaction.isStructurallyValid policy hashBytes context = true →
      (deserialize policy hashBytes transaction.serialize = .ok transaction ↔
        transaction.lotsReadAsWritten = true)) ∧
    (∀ serialized transaction, deserialize policy hashBytes serialized = .ok transaction →
      transaction.serialize = serialized) ∧
    ∀ first second context context', Built policy hashBytes first →
      Built policy hashBytes second →
      first.isStructurallyValid policy hashBytes context = true →
      second.isStructurallyValid policy hashBytes context' = true →
      first.signingPayload = second.signingPayload → Agree first second := by
  intro policy
  refine ⟨?_, fun serialized transaction h => serialize_of_deserialize h, ?_⟩
  · intro transaction context hbuilt hvalid
    exact deserialize_serialize_iff hdigest hbuilt.constructed
      (wellformed_of_isStructurallyValid hvalid)
  · intro first second context context' hfirst hsecond hfirstValid hsecondValid h
    exact signingPayload_injective hfirst.constructed
      (wellformed_of_isStructurallyValid hfirstValid) hsecond.constructed
      (wellformed_of_isStructurallyValid hsecondValid) h

--
-- Witness and counterexample
--

def sampleUserKey : PublicKey := ⟨.classicEd25519, String.ofList (List.replicate 64 'a')⟩

/-- A transfer of `alice` that spends one lot. -/
def sampleTransfer (digest lot : String) : SignedTransaction :=
  ⟨⟨digest, .transfer, "alice", "bob", ⟨5, Amount.five_inRange⟩, ⟨1, Amount.one_inRange⟩, 1, 1, [lot], ""⟩, "nodo",
    [⟨.nodoCryptoSuiteV1, .userTransaction, .classicEd25519, sampleUserKey, "00", 1⟩]⟩

/-- The digest of the transfer that spends the lot `lot`. -/
def sampleTransferDigest : String :=
  "87ce390d1f59c34b9e646c9145969733c9a431e6a56a961fc046e26774a1b957"

/-- The digest of the transfer that spends the lot `nonce=9`. -/
def spelledTransferDigest : String :=
  "bf81f19bf6edf420f820c17ab01a31f14df141d64bf5e59222b88f6abfa518fe"

theorem sampleTransfer_built {digest lot : String}
    (hlot : areInputCoinLotIdsStructurallyValid [lot] = true) :
    Built (sampleCrypto.withKeys fun _ => digest) (fun _ => digest) (sampleTransfer digest lot) := by
  have hinputs : ofInputs (fun _ => digest) .transfer "alice" "bob" ⟨5, by decide⟩ ⟨1, by decide⟩ 1 1
      [lot] = .ok { sampleTransfer digest lot with chainId := "", signatureBundle := [] } := by
    unfold ofInputs
    rw [hlot]
    rfl
  refine .signed (.chainId (.inputs (by decide) hinputs) (show withChainId _ _ "nodo"
    = .ok { sampleTransfer digest lot with signatureBundle := [] } from rfl))
    ⟨?_, ?_, ?_⟩ (show attachSignatureBundle _ (sampleTransfer digest lot).signatureBundle
      = .ok (sampleTransfer digest lot) from rfl)
  · intro signature hsignature
    have hkey : (sampleCrypto.withKeys fun _ => digest).publicKeyIsValid sampleUserKey = true :=
      show sampleUserKey.isValid = true by decide +kernel
    rw [List.mem_singleton.mp hsignature]
    unfold CryptoContext.signatureIsValid
    rw [hkey]
    rfl
  · intro signature hsignature
    rw [List.mem_singleton.mp hsignature]
    decide
  · exact List.nodup_singleton _

/-- A transfer that is read back. -/
theorem sampleTransfer_read :
    deserialize (sampleCrypto.withKeys fun _ => sampleTransferDigest) (fun _ => sampleTransferDigest)
      (sampleTransfer sampleTransferDigest "lot").serialize
        = .ok (sampleTransfer sampleTransferDigest "lot") := by
  have hcodec := transaction_codec sampleCrypto (fun _ => sampleTransferDigest)
    (fun _ => by decide +kernel)
  exact (hcodec.1 _ .userTransaction (sampleTransfer_built (by decide +kernel))
    (by decide +kernel)).mpr (by decide +kernel)

/-- **A lot id that spells out a nonce.** The transfer is structurally valid and is not read back
from its own text. -/
theorem spelled_nonce_not_read :
    Built (sampleCrypto.withKeys fun _ => spelledTransferDigest) (fun _ => spelledTransferDigest)
      (sampleTransfer spelledTransferDigest "nonce=9") ∧
    (sampleTransfer spelledTransferDigest "nonce=9").isStructurallyValid
      (sampleCrypto.withKeys fun _ => spelledTransferDigest) (fun _ => spelledTransferDigest)
      .userTransaction = true ∧
    deserialize (sampleCrypto.withKeys fun _ => spelledTransferDigest)
      (fun _ => spelledTransferDigest) (sampleTransfer spelledTransferDigest "nonce=9").serialize
        ≠ .ok (sampleTransfer spelledTransferDigest "nonce=9") := by
  have hbuilt := @sampleTransfer_built spelledTransferDigest "nonce=9" (by decide +kernel)
  have hvalid : (sampleTransfer spelledTransferDigest "nonce=9").isStructurallyValid
      (sampleCrypto.withKeys fun _ => spelledTransferDigest) (fun _ => spelledTransferDigest)
      .userTransaction = true := by decide +kernel
  refine ⟨hbuilt, hvalid, ?_⟩
  intro h
  have hread := (deserialize_serialize_iff (fun _ => by decide +kernel) hbuilt.constructed
    (wellformed_of_isStructurallyValid hvalid)).mp h
  exact absurd hread (by decide +kernel)

end SignedTransaction

end Nodo.Model
