import Nodo.Model.BlockCodec
import Nodo.Model.StateRoot

/-!
# Nodo — proofs for light clients

`node/LightClientProtocol.cpp`: what a wallet without the chain checks of the answers of a node. The
texts that the answers show are made by `node/LightClientService.cpp`; `jsonString` prints a text as
JSON and is a parameter.

The header is read back from the text that is hashed, so a block whose previous hash is no digest can
show other fields than its own. A transaction proof binds the record and its position. An account
proof binds nothing: the root that it is checked against comes with it.

## Results

* `LightClientTransactionProof.shows_of_verifies` — a transaction proof shows the record of the block.
* `LightClientAccountProof.shows_iff_refused` — an account proof is sound under no header that is accepted.
-/

namespace Nodo.Model

--
-- Fields
--

namespace FieldCodec

/-- The value of a field ends at a semicolon, where there is none at a closing brace. -/
def fieldEnd (rest : List Char) : Option (List Char) :=
  if rest.contains ';' then some (rest.takeWhile (· != ';'))
  else if rest.contains '}' then some (rest.takeWhile (· != '}'))
  else none

/-- `none` where it throws. -/
def extractField (serialized key : String) : Option String :=
  if key.isEmpty then none
  else
    let text := serialized.toList
    match FieldSearch.after? (';' :: (key.toList ++ ['='])) text with
    | some rest => (fieldEnd rest).map String.ofList
    | none =>
      match FieldSearch.after? ('{' :: (key.toList ++ ['='])) text with
      | some rest => (fieldEnd rest).map String.ofList
      | none => none

end FieldCodec

--
-- Headers
--

structure LightClientHeader where
  networkName : String
  chainId : String
  genesisConfigId : String
  height : UInt64
  blockHash : String
  previousHash : String
  stateRoot : String
  receiptsRoot : String
  timestamp : Int
  headerPayload : String
  validatorSetRoot : String
  finalizedRecord : String
  quorumCertificate : String

namespace LightClientHeader

def isValid (header : LightClientHeader) : Bool :=
  !header.networkName.isEmpty && !header.chainId.isEmpty && !header.genesisConfigId.isEmpty
    && !header.blockHash.isEmpty && !header.previousHash.isEmpty && !header.headerPayload.isEmpty
    && !header.validatorSetRoot.isEmpty && !header.finalizedRecord.isEmpty
    && !header.quorumCertificate.isEmpty && 0 < header.timestamp

/-- The text of the fields with the count and the root of the records. -/
def expectedPayload (header : LightClientHeader) (count root : String) : String :=
  "BlockHeader\x7bindex=" ++ toString header.height.toNat ++ ";previousHash=" ++ header.previousHash
    ++ ";timestamp=" ++ toString header.timestamp ++ ";recordCount=" ++ count
    ++ ";recordsMerkleRoot=" ++ root ++ ";stateRoot=" ++ header.stateRoot ++ ";receiptsRoot="
    ++ header.receiptsRoot ++ "\x7d"

/-- The count and the root of the records are read from the text, which is then printed anew. -/
def headerHashMatches (hashBytes : String → String) (header : LightClientHeader) : Bool :=
  if header.headerPayload.isEmpty || hashBytes header.headerPayload != header.blockHash then false
  else
    match FieldCodec.extractField header.headerPayload "recordCount",
      FieldCodec.extractField header.headerPayload "recordsMerkleRoot" with
    | some count, some root =>
      if !ChainBlock.isCanonicalCommitmentRoot root || count.isEmpty
          || count.toList.head? == some '0' then false
      else
        match stoull count with
        | none => false
        | some parsed =>
          if parsed == 0 || parsed > ChainBlock.maxRecords || count != toString parsed then false
          else header.expectedPayload count root == header.headerPayload
    | _, _ => false

end LightClientHeader

--
-- Proofs of accounts
--

/-- `accountJson` of the service. -/
def accountJson (jsonString : String → String) (account : AccountState) : String :=
  "\x7b\"address\":" ++ jsonString account.address ++ ",\"balance\":"
    ++ toString account.balance.rawUnits ++ ",\"nonce\":" ++ toString account.nonce.toNat ++ "\x7d"

structure LightClientAccountProof where
  header : LightClientHeader
  address : String
  accountJson : String
  accountRoot : String
  proof : MerkleProof

namespace LightClientAccountProof

def isValid (bundle : LightClientAccountProof) : Bool :=
  bundle.header.isValid && !bundle.address.isEmpty && !bundle.accountJson.isEmpty
    && !bundle.accountRoot.isEmpty && bundle.proof.isValid

def verifies (hashBytes : String → String) (bundle : LightClientAccountProof) : Bool :=
  bundle.isValid && bundle.header.headerHashMatches hashBytes
    && bundle.proof.verify hashBytes bundle.accountRoot

end LightClientAccountProof

--
-- Proofs of transactions
--

/-- `recordJson` of the service. -/
def recordJson (jsonString : String → String) (record : LedgerRecord) : String :=
  "\x7b\"id\":" ++ jsonString record.id ++ ",\"sourceId\":" ++ jsonString record.sourceId
    ++ ",\"type\":" ++ jsonString record.type.text ++ ",\"payloadHash\":"
    ++ jsonString record.payloadHash ++ ",\"timestamp\":" ++ toString record.timestamp ++ "\x7d"

structure LightClientTransactionProof where
  header : LightClientHeader
  transactionId : String
  recordJson : String
  recordsRoot : String
  proof : MerkleProof
  recordIndex : Nat
  serializedRecord : String

namespace LightClientTransactionProof

def isValid (bundle : LightClientTransactionProof) : Bool :=
  bundle.header.isValid && !bundle.transactionId.isEmpty && !bundle.recordJson.isEmpty
    && !bundle.recordsRoot.isEmpty && bundle.proof.isValid
    && bundle.recordIndex < ChainBlock.maxRecords && !bundle.serializedRecord.isEmpty

def verifies (hashBytes jsonString : String → String) (bundle : LightClientTransactionProof) :
    Bool :=
  if !bundle.isValid || !bundle.header.headerHashMatches hashBytes
      || !bundle.proof.verify hashBytes bundle.recordsRoot then false
  else
    match FieldCodec.extractField bundle.header.headerPayload "recordsMerkleRoot" with
    | none => false
    | some root =>
      if root != bundle.recordsRoot then false
      else
        match (FieldCodec.extractField bundle.header.headerPayload "recordCount").bind stoull with
        | none => false
        | some count =>
          if bundle.recordIndex ≥ count || bundle.proof.leafHash !=
              MerkleTree.hashOrderedLeaf hashBytes bundle.recordIndex bundle.serializedRecord then
            false
          else
            match LedgerRecord.deserialize hashBytes bundle.serializedRecord with
            | none => false
            | some record =>
              if record.id != bundle.transactionId && record.sourceId != bundle.transactionId then
                false
              else Nodo.Model.recordJson jsonString record == bundle.recordJson

end LightClientTransactionProof

--
-- Digests beside other texts
--

/-- The digests of `HexHash` can be cut off at either end of a text, as they all have one length. -/
structure DigestHash (hashBytes : String → String) : Prop extends HexHash hashBytes where
  front : ∀ {a b : String} {s t : List Char},
    (hashBytes a).toList ++ s = (hashBytes b).toList ++ t → hashBytes a = hashBytes b
  back : ∀ {a b : String} {s t : List Char},
    s ++ (hashBytes a).toList = t ++ (hashBytes b).toList → hashBytes a = hashBytes b

namespace MerkleTree

variable {hashBytes : String → String} (hhash : DigestHash hashBytes)

include hhash

theorem digests_hashNode : HashTree.Digests (hashNode hashBytes)
    (fun digest => ∃ text, digest = hashBytes text) where
  made := fun a b => ⟨_, rfl⟩
  left := by
    rintro _ sibling _ b ⟨x, rfl⟩ ⟨y, rfl⟩ h
    have hlist := congrArg String.toList (hhash.injective h)
    simp only [String.toList_append, List.append_assoc] at hlist
    exact hhash.front (List.append_cancel_left hlist)
  right := by
    rintro _ sibling a _ ⟨x, rfl⟩ ⟨y, rfl⟩ h
    have hlist := congrArg String.toList (hhash.injective h)
    simp only [String.toList_append, List.append_assoc] at hlist
    exact hhash.back (List.append_cancel_left hlist)

theorem hashOrderedLeaf_ne_node (index : Nat) (payload a b : String) :
    hashOrderedLeaf hashBytes index payload ≠ hashNode hashBytes a b := by
  intro h
  have htext := hhash.injective h
  exact leaf_ne_node _ _ (htext.trans String.append_assoc)

/-- A leaf has one position and one text. -/
theorem hashOrderedLeaf_inj {index index' : Nat} {payload payload' : String}
    (h : hashOrderedLeaf hashBytes index payload = hashOrderedLeaf hashBytes index' payload') :
    index = index' ∧ payload = payload' :=
  orderedPayload_inj (leaf_inj (hhash.injective h))

/-- **A proof against the ordered root** shows a payload at its position, whatever its steps. -/
theorem getElem?_of_orderedProof {payloads : List String} (hne : payloads ≠ [])
    {proof : MerkleProof} {index : Nat} {payload : String}
    (hverify : proof.verify hashBytes (buildOrderedRoot hashBytes payloads) = true)
    (hleaf : proof.leafHash = hashOrderedLeaf hashBytes index payload) :
    payloads[index]? = some payload := by
  unfold MerkleProof.verify at hverify
  rw [Bool.and_eq_true, beq_iff_eq] at hverify
  have hclimb : HashTree.climb (hashNode hashBytes) proof.leafHash
      (proof.steps.map fun step => (step.siblingIsLeft, step.siblingHash)) =
      HashTree.layerRoot (hashNode hashBytes) (hashBytes emptyPayload)
        (payloads.mapIdx (hashOrderedLeaf hashBytes)) := by
    unfold HashTree.climb
    rw [List.foldl_map]
    exact hverify.2
  have hlayer : ∀ digest ∈ payloads.mapIdx (hashOrderedLeaf hashBytes),
      (∃ text, digest = hashBytes text) ∧ ∀ a b, digest ≠ hashNode hashBytes a b := by
    intro digest hdigest
    obtain ⟨i, hi, rfl⟩ := List.mem_mapIdx.mp hdigest
    exact ⟨⟨_, rfl⟩, hashOrderedLeaf_ne_node hhash _ _⟩
  have hmem := HashTree.mem_of_climb (digests_hashNode hhash)
    (by rwa [ne_eq, List.mapIdx_eq_nil_iff]) hlayer (hleaf ▸ ⟨_, rfl⟩)
    (hleaf ▸ hashOrderedLeaf_ne_node hhash _ _) hclimb
  obtain ⟨i, hi, hsame⟩ := List.mem_mapIdx.mp hmem
  obtain ⟨rfl, hpayload⟩ := hashOrderedLeaf_inj hhash (hsame.trans hleaf)
  rw [List.getElem?_eq_getElem hi, hpayload]

end MerkleTree

--
-- The fields of a header
--

namespace FieldCodec

/-- A search for a field steps over another one. -/
theorem after?_skip_field {d : Char} {key name value behind : List Char} (hd : d ∉ name ++ '=' :: value)
    (hname : '=' ∉ name) (hkey : '=' ∉ key) (hne : key ≠ name) :
    FieldSearch.after? (d :: (key ++ ['='])) (d :: (name ++ '=' :: value) ++ behind) =
      FieldSearch.after? (d :: (key ++ ['='])) behind := by
  have hstarts : ¬ d :: (key ++ ['=']) <+: d :: ((name ++ '=' :: value) ++ behind) := by
    rw [List.cons_prefix_cons, List.append_assoc, List.cons_append,
      FieldSearch.starts_append_iff hkey hname]
    exact fun h => hne h.2
  rw [List.cons_append, FieldSearch.after?_cons_of_not_starts hstarts,
    FieldSearch.after?_skip_text hd]

theorem after?_field {d : Char} {key value : List Char} :
    FieldSearch.after? (d :: (key ++ ['='])) (d :: (key ++ '=' :: value)) = some value := by
  have hstarts : d :: (key ++ ['=']) <+: d :: (key ++ '=' :: value) := ⟨value, by simp⟩
  rw [FieldSearch.after?_of_starts hstarts]
  congr 1
  simp

theorem fieldEnd_semicolon {value behind : List Char} (hvalue : ';' ∉ value) :
    fieldEnd (value ++ ';' :: behind) = some value := by
  unfold fieldEnd
  rw [if_pos (by simp), Text.takeWhile_delimiter hvalue]

/-- The value of a field behind others. -/
theorem extractField_of_after? {serialized key : String} {value behind : List Char}
    (hkey : key ≠ "") (hvalue : ';' ∉ value)
    (hafter : FieldSearch.after? (';' :: (key.toList ++ ['='])) serialized.toList =
      some (value ++ ';' :: behind)) :
    extractField serialized key = some (String.ofList value) := by
  unfold extractField
  rw [if_neg (by rwa [String.isEmpty_iff])]
  simp only [hafter, fieldEnd_semicolon hvalue, Option.map_some]

end FieldCodec

/-- The count and the root of the records in a header whose previous hash has no semicolon. -/
theorem extractField_header {payload : String} {index previousHash timestamp count root rest : List Char}
    (hindex : ';' ∉ index) (hprevious : ';' ∉ previousHash) (htimestamp : ';' ∉ timestamp)
    (hcount : ';' ∉ count) (hroot : ';' ∉ root)
    (hpayload : payload.toList = ("BlockHeader\x7bindex=".toList ++ index) ++
      (';' :: ("previousHash".toList ++ '=' :: previousHash) ++
        (';' :: ("timestamp".toList ++ '=' :: timestamp) ++
          (';' :: ("recordCount".toList ++ '=' :: count) ++
            ';' :: ("recordsMerkleRoot".toList ++ '=' :: (root ++ ';' :: rest)))))) :
    FieldCodec.extractField payload "recordCount" = some (String.ofList count) ∧
      FieldCodec.extractField payload "recordsMerkleRoot" = some (String.ofList root) := by
  have hlabels : ';' ∉ "BlockHeader\x7bindex=".toList ∧ ';' ∉ "previousHash".toList ∧
      ';' ∉ "timestamp".toList ∧ ';' ∉ "recordCount".toList := by decide
  have hnames : '=' ∉ "previousHash".toList ∧ '=' ∉ "timestamp".toList ∧
      '=' ∉ "recordCount".toList ∧ '=' ∉ "recordsMerkleRoot".toList := by decide
  have hfield : ∀ {name value : List Char}, ';' ∉ name → ';' ∉ value → ';' ∉ name ++ '=' :: value := by
    intro name value hname hvalue hmem
    rcases List.mem_append.mp hmem with hmem | hmem
    · exact hname hmem
    · rcases List.mem_cons.mp hmem with heq | hmem
      · exact absurd heq (by decide)
      · exact hvalue hmem
  have hfirst : ';' ∉ "BlockHeader\x7bindex=".toList ++ index := by
    rw [List.mem_append, not_or]
    exact ⟨hlabels.1, hindex⟩
  refine ⟨@FieldCodec.extractField_of_after? _ _ _ ("recordsMerkleRoot".toList ++ '=' ::
      (root ++ ';' :: rest)) (by decide) hcount ?_,
    @FieldCodec.extractField_of_after? _ _ _ rest (by decide) hroot ?_⟩
  · rw [hpayload, FieldSearch.after?_skip_text hfirst,
      FieldCodec.after?_skip_field (hfield hlabels.2.1 hprevious) hnames.1 hnames.2.2.1 (by decide),
      FieldCodec.after?_skip_field (hfield hlabels.2.2.1 htimestamp) hnames.2.1 hnames.2.2.1
        (by decide), List.cons_append, List.append_assoc, List.cons_append, FieldCodec.after?_field]
  · rw [hpayload, FieldSearch.after?_skip_text hfirst,
      FieldCodec.after?_skip_field (hfield hlabels.2.1 hprevious) hnames.1 hnames.2.2.2 (by decide),
      FieldCodec.after?_skip_field (hfield hlabels.2.2.1 htimestamp) hnames.2.1 hnames.2.2.2
        (by decide),
      FieldCodec.after?_skip_field (hfield hlabels.2.2.2 hcount) hnames.2.2.1 hnames.2.2.2
        (by decide), FieldCodec.after?_field]

theorem LightClientHeader.toList_expectedPayload (header : LightClientHeader) (count root : String) :
    (header.expectedPayload count root).toList =
      ("BlockHeader\x7bindex=".toList ++ (toString header.height.toNat).toList) ++
      (';' :: ("previousHash".toList ++ '=' :: header.previousHash.toList) ++
        (';' :: ("timestamp".toList ++ '=' :: (toString header.timestamp).toList) ++
          (';' :: ("recordCount".toList ++ '=' :: count.toList) ++
            ';' :: ("recordsMerkleRoot".toList ++ '=' :: (root.toList ++
              ';' :: ("stateRoot=" ++ header.stateRoot ++ ";receiptsRoot=" ++ header.receiptsRoot ++
                "\x7d").toList))))) := by
  have hlabels : ";previousHash=".toList = ';' :: ("previousHash".toList ++ ['=']) ∧
      ";timestamp=".toList = ';' :: ("timestamp".toList ++ ['=']) ∧
      ";recordCount=".toList = ';' :: ("recordCount".toList ++ ['=']) ∧
      ";recordsMerkleRoot=".toList = ';' :: ("recordsMerkleRoot".toList ++ ['=']) ∧
      ";stateRoot=".toList = ';' :: "stateRoot=".toList := by decide
  unfold expectedPayload
  simp only [String.toList_append, hlabels, List.append_assoc, List.cons_append, List.nil_append]

namespace ChainBlock

variable {hashBytes : String → String}

/-- The header of a block is what a light client prints of its fields. -/
theorem headerPayload_eq {block : ChainBlock} {header : LightClientHeader}
    (hheight : header.height = block.index) (hprevious : header.previousHash = block.previousHash)
    (htimestamp : header.timestamp = block.timestamp) (hstate : header.stateRoot = block.stateRoot)
    (hreceipts : header.receiptsRoot = block.receiptsRoot) :
    block.headerPayload hashBytes =
      header.expectedPayload (toString block.records.length) (block.recordsRoot hashBytes) := by
  have hlabel : ";timestamp=" = ";" ++ "timestamp=" := by decide
  unfold headerPayload headerTail LightClientHeader.expectedPayload
  rw [hheight, hprevious, htimestamp, hstate, hreceipts, hlabel]
  simp only [String.append_assoc]

/-- The root of the records is a digest. -/
theorem exists_recordsRoot (block : ChainBlock) : ∃ text, block.recordsRoot hashBytes = hashBytes text := by
  unfold recordsRoot
  rw [MerkleTree.buildOrderedRoot_eq]
  exact ⟨_, rfl⟩

end ChainBlock

/-- Digits and a sign. -/
theorem not_mem_toString_int {c : Char} (hc : c.isDigit = false) (hsign : c ≠ '-') (n : Int) :
    c ∉ (toString n).toList := by
  cases n with
  | ofNat n => exact Text.not_mem_toString hc
  | negSucc n =>
    show c ∉ ("-" ++ toString (n + 1)).toList
    rw [String.toList_append, List.mem_append, not_or]
    refine ⟨?_, Text.not_mem_toString hc⟩
    show c ∉ ['-']
    rwa [List.mem_singleton]

/-- **The header text with the hash of a block** shows the count and the root of its records. -/
theorem extractField_of_blockHash {hashBytes : String → String} (hhash : DigestHash hashBytes)
    {header : LightClientHeader} {block : ChainBlock}
    (hsame : hashBytes header.headerPayload = block.calculateHash hashBytes)
    (hsemicolon : ';' ∉ block.previousHash.toList) (hnul : '\x00' ∉ block.previousHash.toList) :
    FieldCodec.extractField header.headerPayload "recordCount" =
        some (toString block.records.length) ∧
      FieldCodec.extractField header.headerPayload "recordsMerkleRoot" =
        some (block.recordsRoot hashBytes) := by
  obtain ⟨text, htext⟩ := @ChainBlock.exists_recordsRoot hashBytes block
  have hpayload := congrArg String.toList (hhash.injective hsame)
  let shown : LightClientHeader :=
    { header with
      height := block.index, previousHash := block.previousHash, timestamp := block.timestamp
      stateRoot := block.stateRoot, receiptsRoot := block.receiptsRoot }
  have hlist := shown.toList_expectedPayload (toString block.records.length)
    (block.recordsRoot hashBytes)
  rw [← ChainBlock.headerPayload_eq rfl rfl rfl rfl rfl] at hlist
  have hnumber : ∀ {c : Char}, c.isDigit = false → ∀ n : Nat, c ∉ (toString n).toList :=
    fun hc n => Text.not_mem_toString hc
  have hroot : ∀ {c : Char}, ¬ (('0' ≤ c ∧ c ≤ '9') ∨ ('a' ≤ c ∧ c ≤ 'f')) →
      c ∉ (block.recordsRoot hashBytes).toList := fun hc => htext ▸ hhash.not_mem hc text
  have hfields := @extractField_header header.headerPayload (toString block.index.toNat).toList
    block.previousHash.toList (toString block.timestamp).toList
    (toString block.records.length).toList (block.recordsRoot hashBytes).toList
    (("stateRoot=" ++ block.stateRoot ++ ";receiptsRoot=" ++ block.receiptsRoot ++
      "\x7d").toList.takeWhile (· != '\x00'))
    (hnumber rfl _) hsemicolon (not_mem_toString_int rfl (by decide) _) (hnumber rfl _)
    (hroot (by decide))
  rw [String.ofList_toList, String.ofList_toList] at hfields
  refine hfields ?_
  rw [hpayload]
  -- No field up to the root has a NUL, so the C string has them all.
  refine (toList_cString (x := ("BlockHeader\x7bindex=".toList ++ (toString block.index.toNat).toList) ++
      (';' :: ("previousHash".toList ++ '=' :: block.previousHash.toList) ++
        (';' :: ("timestamp".toList ++ '=' :: (toString block.timestamp).toList) ++
          (';' :: ("recordCount".toList ++ '=' :: (toString block.records.length).toList) ++
            ';' :: ("recordsMerkleRoot".toList ++ '=' :: ((block.recordsRoot hashBytes).toList ++
              [';'])))))) (y := ("stateRoot=" ++ block.stateRoot ++ ";receiptsRoot=" ++
    block.receiptsRoot ++ "\x7d").toList) ?_ ?_).trans ?_
  · rw [hlist]
    simp only [List.append_assoc, List.cons_append, List.nil_append]
    rfl
  · have hlabels : '\x00' ∉ "BlockHeader\x7bindex=".toList ∧ '\x00' ∉ "previousHash".toList ∧
        '\x00' ∉ "timestamp".toList ∧ '\x00' ∉ "recordCount".toList ∧
        '\x00' ∉ "recordsMerkleRoot".toList := by decide
    have hdelimiters : '\x00' ≠ ';' ∧ '\x00' ≠ '=' := by decide
    simp only [List.mem_append, List.mem_cons, hlabels, hdelimiters, hnul,
      hnumber (show Char.isDigit '\x00' = false from rfl), List.not_mem_nil,
      not_mem_toString_int (show Char.isDigit '\x00' = false from rfl) (by decide),
      hroot (show ¬ (('0' ≤ '\x00' ∧ '\x00' ≤ '9') ∨ ('a' ≤ '\x00' ∧ '\x00' ≤ 'f')) by decide),
      or_self, not_false_eq_true]
  · simp only [List.append_assoc, List.cons_append, List.nil_append]

--
-- The fields of a record
--

theorem fieldValue_prefix (depth : Nat) (text : List Char) : fieldValue depth text <+: text := by
  induction text generalizing depth with
  | nil => exact List.nil_prefix
  | cons c rest ih =>
    rw [fieldValue]
    split
    · exact (List.cons_prefix_cons).mpr ⟨rfl, ih _⟩
    · split
      · split
        · exact List.nil_prefix
        · exact (List.cons_prefix_cons).mpr ⟨rfl, ih _⟩
      · split
        · exact List.nil_prefix
        · exact (List.cons_prefix_cons).mpr ⟨rfl, ih _⟩

/-- A value without brackets ends at its delimiter. -/
theorem fieldValue_plain {value behind : List Char} {d : Char}
    (hvalue : ∀ c ∈ value, c ∉ ['{', '[', '}', ']', ';']) (hd : d = ';' ∨ d = '}') :
    fieldValue 0 (value ++ d :: behind) = value := by
  induction value with
  | nil =>
    rw [List.nil_append, fieldValue]
    rcases hd with rfl | rfl
    · rw [if_neg (by decide), if_neg (by decide), if_pos (by decide)]
    · rw [if_neg (by decide), if_pos (by decide), if_pos (by decide)]
  | cons c value ih =>
    have hc := hvalue c List.mem_cons_self
    simp only [List.mem_cons, List.not_mem_nil, or_false, not_or] at hc
    rw [List.cons_append, fieldValue, if_neg (by simp [hc]), if_neg (by simp [hc]),
      if_neg (by simp [hc]), ih fun d hd => hvalue d (List.mem_cons_of_mem _ hd)]

namespace LedgerRecord

/-- The text of a record up to its source. -/
theorem toList_serialize (record : LedgerRecord) :
    record.serialize.toList = "LedgerRecord\x7bid".toList ++ '=' :: (record.id.toList ++
      ";type".toList ++ '=' :: (record.type.text.toList ++ ";sourceId".toList ++ '=' ::
        (record.sourceId.toList ++ (";payloadHash=" ++ record.payloadHash ++ ";timestamp=" ++
          toString record.timestamp).toList ++ ';' :: ("payload=" ++ record.payload ++
            "\x7d").toList))) := by
  have hlabels : "LedgerRecord\x7bid=".toList = "LedgerRecord\x7bid".toList ++ ['='] ∧
      ";type=".toList = ";type".toList ++ ['='] ∧
      ";sourceId=".toList = ";sourceId".toList ++ ['='] ∧
      ";payload=".toList = ';' :: "payload=".toList := by decide
  unfold serialize
  simp only [String.toList_append, hlabels, List.append_assoc, List.cons_append, List.nil_append]

theorem type_text_plain (type : LedgerRecordType) :
    ∀ c ∈ type.text.toList, c ∉ ['{', '[', '}', ']', ';', '='] := by
  have hall : type.text.toList.all (fun c => !(['{', '[', '}', ']', ';', '='].contains c)) = true := by
    cases type <;> decide
  intro c hc hmem
  have hnot := List.all_eq_true.mp hall c hc
  rw [List.contains_iff_mem.mpr hmem] at hnot
  cases hnot

theorem ledgerRecordTypeFromString_text (type : LedgerRecordType) :
    ledgerRecordTypeFromString type.text = some type := by
  cases type <;> decide

/-- The identity, the type and the source that are read from a text. -/
theorem extract_fields {text : String} {id type rest : List Char}
    (hid : ∀ c ∈ id, c ∉ ['{', '[', '}', ']', ';', '='])
    (htype : ∀ c ∈ type, c ∉ ['{', '[', '}', ']', ';', '='])
    (htext : text.toList = "LedgerRecord\x7bid".toList ++ '=' :: (id ++ ";type".toList ++ '=' ::
      (type ++ ";sourceId".toList ++ '=' :: rest))) :
    extractNestedField text "id" = String.ofList id ∧
      extractNestedField text "type" = String.ofList type ∧
      extractNestedField text "sourceId" = String.ofList (fieldValue 0 rest) := by
  have hkeys : '=' ∉ "id".toList ∧ '=' ∉ "type".toList ∧ '=' ∉ "sourceId".toList ∧
      '=' ∉ "LedgerRecord\x7bid".toList ∧ '=' ∉ ";type".toList ∧ '=' ∉ ";sourceId".toList := by decide
  have hlabel : ∀ key : String, (key ++ "=").toList = key.toList ++ ['='] := fun key => by
    rw [String.toList_append]
    rfl
  have hcut : ";type".toList = ';' :: "type".toList ∧ ";sourceId".toList = ';' :: "sourceId".toList := by
    decide
  have hplain : ∀ {value : List Char}, (∀ c ∈ value, c ∉ ['{', '[', '}', ']', ';', '=']) →
      (∀ c ∈ value, c ∉ ['{', '[', '}', ']', ';']) ∧ '=' ∉ value := fun hvalue =>
    ⟨fun c hc hmem => hvalue c hc (List.mem_append_left ['='] hmem),
      fun hmem => hvalue _ hmem (by decide)⟩
  have hfirst : '=' ∉ id ++ ";type".toList := by
    rw [List.mem_append, not_or]
    exact ⟨(hplain hid).2, hkeys.2.2.2.2.1⟩
  have hsecond : '=' ∉ type ++ ";sourceId".toList := by
    rw [List.mem_append, not_or]
    exact ⟨(hplain htype).2, hkeys.2.2.2.2.2⟩
  refine ⟨?_, ?_, ?_⟩
  · unfold extractNestedField
    rw [hlabel, htext, FieldSearch.after?_first hkeys.1 hkeys.2.2.2.1 (by decide)]
    dsimp only
    rw [hcut.1, List.append_assoc, List.cons_append, fieldValue_plain (hplain hid).1 (Or.inl rfl)]
  · unfold extractNestedField
    rw [hlabel, htext, FieldSearch.after?_skip hkeys.2.1 hkeys.2.2.2.1 (by decide),
      FieldSearch.after?_first hkeys.2.1 hfirst
        ((show "type".toList <:+ ";type".toList by decide).trans (List.suffix_append _ _))]
    dsimp only
    rw [hcut.2, List.append_assoc, List.cons_append, fieldValue_plain (hplain htype).1 (Or.inl rfl)]
  · unfold extractNestedField
    rw [hlabel, htext, FieldSearch.after?_skip hkeys.2.2.1 hkeys.2.2.2.1 (by decide),
      FieldSearch.after?_skip hkeys.2.2.1 hfirst ?_,
      FieldSearch.after?_first hkeys.2.2.1 hsecond
        ((show "sourceId".toList <:+ ";sourceId".toList by decide).trans (List.suffix_append _ _))]
    intro hsuffix
    rw [hcut.1] at hsuffix
    exact absurd (FieldSearch.suffix_of_cut (by decide) hsuffix) (by decide)

end LedgerRecord

namespace LedgerRecord

variable {hashBytes : String → String}

theorem of_isValid {record : LedgerRecord} (h : record.isValid hashBytes = true) :
    0 < record.timestamp ∧ record.payloadHash = hashPayload hashBytes record.payload ∧
      record.id = computeRecordId hashBytes record.type record.sourceId record.payloadHash
        record.timestamp := by
  unfold isValid at h
  obtain ⟨-, h⟩ := Guards.true_of_ite_false h
  obtain ⟨htimestamp, h⟩ := Guards.true_of_ite_false h
  obtain ⟨hpayload, h⟩ := Guards.true_of_ite_false h
  obtain ⟨hid, -⟩ := Guards.true_of_ite_false h
  rw [bne_iff_ne, ne_eq, not_not] at hpayload hid
  exact ⟨Int.not_le.mp htimestamp, hpayload, hid⟩

/-- What was read passed the check. -/
theorem deserialize_spec {text : String} {record : LedgerRecord}
    (h : deserialize hashBytes text = some record) :
    record.isValid hashBytes = true ∧ record.id = extractNestedField text "id" ∧
      ledgerRecordTypeFromString (extractNestedField text "type") = some record.type ∧
      record.sourceId = extractNestedField text "sourceId" := by
  unfold deserialize at h
  obtain ⟨-, h⟩ := Guards.some_of_ite_none h
  obtain ⟨-, h⟩ := Guards.some_of_ite_none h
  split at h
  next timestamp behind type htimestamp htype =>
    obtain ⟨-, h⟩ := Guards.some_of_ite_none h
    dsimp only at h
    split at h
    next hvalid =>
      obtain rfl := Option.some.inj h
      exact ⟨hvalid, rfl, htype, rfl⟩
    next => cases h
  next => cases h

/-- The fields behind the source, as they are hashed and as they are printed. -/
def tail (record : LedgerRecord) : List Char :=
  (";payloadHash=" ++ record.payloadHash ++ ";timestamp=" ++ toString record.timestamp).toList

theorem not_mem_tail (hhash : HexHash hashBytes) {record : LedgerRecord}
    (h : record.isValid hashBytes = true) : '\x00' ∉ record.tail := by
  obtain ⟨-, hpayload, -⟩ := of_isValid h
  have hlabels : '\x00' ∉ ";payloadHash=".toList ∧ '\x00' ∉ ";timestamp=".toList := by decide
  have hdigest : '\x00' ∉ record.payloadHash.toList := hpayload ▸ hhash.not_mem (by decide) _
  unfold tail
  simp only [String.toList_append, List.mem_append, hlabels, hdigest,
    not_mem_toString_int (show Char.isDigit '\x00' = false from rfl) (by decide), or_self,
    not_false_eq_true]

/-- The tail is cut off in one way. -/
theorem tail_inj (hhash : HexHash hashBytes) {record record' : LedgerRecord}
    (hvalid : record.isValid hashBytes = true) (hvalid' : record'.isValid hashBytes = true)
    {front front' : List Char} (h : front ++ record.tail = front' ++ record'.tail) :
    front = front' ∧ record.payloadHash = record'.payloadHash ∧
      record.timestamp = record'.timestamp := by
  obtain ⟨hpositive, hpayload, -⟩ := of_isValid hvalid
  obtain ⟨hpositive', hpayload', -⟩ := of_isValid hvalid'
  have hlabels : ";payloadHash=".toList = ';' :: "payloadHash=".toList ∧
      ";timestamp=".toList = ';' :: "timestamp=".toList := by decide
  have hsemicolon : ';' ∉ "payloadHash=".toList ∧ ';' ∉ "timestamp=".toList := by decide
  have hstamp : ∀ n : Int, ';' ∉ "timestamp=".toList ++ (toString n).toList := by
    intro n
    rw [List.mem_append, not_or]
    exact ⟨hsemicolon.2, not_mem_toString_int rfl (by decide) n⟩
  have hdigest : ∀ text, ';' ∉ "payloadHash=".toList ++ (hashBytes text).toList := by
    intro text
    rw [List.mem_append, not_or]
    exact ⟨hsemicolon.1, hhash.not_mem (by decide) text⟩
  unfold tail at h
  simp only [String.toList_append, hlabels, List.append_assoc, List.cons_append] at h
  have hfirst : (front ++ ';' :: ("payloadHash=".toList ++ record.payloadHash.toList)) ++
      ';' :: ("timestamp=".toList ++ (toString record.timestamp).toList) =
      (front' ++ ';' :: ("payloadHash=".toList ++ record'.payloadHash.toList)) ++
        ';' :: ("timestamp=".toList ++ (toString record'.timestamp).toList) := by
    simpa only [List.append_assoc, List.cons_append] using h
  obtain ⟨hfirst, htime⟩ := Text.append_last_delimiter_inj (hstamp _) (hstamp _) hfirst
  rw [hpayload, hpayload'] at hfirst
  obtain ⟨hfront, hhashes⟩ := Text.append_last_delimiter_inj (hdigest _) (hdigest _) hfirst
  have htime := String.toList_injective (List.append_cancel_left htime)
  rw [toString_int hpositive, toString_int hpositive'] at htime
  have hnat := Text.toString_nat_inj htime
  refine ⟨hfront, ?_, by omega⟩
  rw [hpayload, hpayload']
  exact String.toList_injective (List.append_cancel_left hhashes)

/-- The text whose digest is the identity. -/
theorem id_eq {record : LedgerRecord} (h : record.isValid hashBytes = true) :
    record.id = hashBytes (cString ("LedgerRecordId\x7btype=" ++ record.type.text ++ ";sourceId=" ++
      record.sourceId ++ ";payloadHash=" ++ record.payloadHash ++ ";timestamp=" ++
      toString record.timestamp ++ "\x7d")) :=
  (of_isValid h).2.2

/-- **One identity, one source**: a record whose source has no NUL is read back from its text. -/
theorem fields_of_deserialize (hhash : HexHash hashBytes) {record read : LedgerRecord}
    (hvalid : record.isValid hashBytes = true) (hnul : '\x00' ∉ record.sourceId.toList)
    (h : deserialize hashBytes record.serialize = some read) :
    read.id = record.id ∧ read.type = record.type ∧ read.sourceId = record.sourceId ∧
      read.payloadHash = record.payloadHash ∧ read.timestamp = record.timestamp := by
  obtain ⟨hread, hid, htype, hsource⟩ := deserialize_spec h
  have hplain : ∀ c ∈ record.id.toList, c ∉ ['{', '[', '}', ']', ';', '='] := by
    intro c hc hmem
    rw [id_eq hvalid] at hc
    refine hhash.not_mem ?_ _ hc
    simp only [List.mem_cons, List.not_mem_nil, or_false] at hmem
    rcases hmem with rfl | rfl | rfl | rfl | rfl | rfl <;> decide
  obtain ⟨hidField, htypeField, hsourceField⟩ :=
    extract_fields hplain (type_text_plain record.type) record.toList_serialize
  rw [hidField, String.ofList_toList] at hid
  rw [htypeField, String.ofList_toList, ledgerRecordTypeFromString_text, Option.some.injEq] at htype
  rw [hsourceField] at hsource
  -- The source that is read is a beginning of what stands behind its name.
  have hfront : read.sourceId.toList <+: record.sourceId.toList ++ record.tail ++
      ';' :: ("payload=" ++ record.payload ++ "\x7d").toList := by
    rw [hsource, String.toList_ofList]
    exact fieldValue_prefix 0 _
  have hhashed := congrArg String.toList (hhash.injective ((id_eq hread).symm.trans
    (hid.trans (id_eq hvalid))))
  rw [← htype] at hhashed
  have hsplit : ∀ other : LedgerRecord, ("LedgerRecordId\x7btype=" ++ record.type.text ++
      ";sourceId=" ++ other.sourceId ++ ";payloadHash=" ++ other.payloadHash ++ ";timestamp=" ++
      toString other.timestamp ++ "\x7d").toList =
      ("LedgerRecordId\x7btype=".toList ++ record.type.text.toList ++ ";sourceId=".toList) ++
        (other.sourceId.toList ++ (other.tail ++ ['}'])) := by
    intro other
    have hbrace : "\x7d".toList = ['}'] := by decide
    unfold tail
    simp only [String.toList_append, hbrace, List.append_assoc]
  have hlabels : '\x00' ∉ "LedgerRecordId\x7btype=".toList ++ record.type.text.toList ++
      ";sourceId=".toList := by
    cases record.type <;> decide
  rw [toList_cString (hsplit read) hlabels, toList_cString (hsplit record) hlabels] at hhashed
  have hhashed := List.append_cancel_left hhashed
  have hclean : ∀ {other : LedgerRecord}, other.isValid hashBytes = true →
      '\x00' ∉ other.sourceId.toList →
      (other.sourceId.toList ++ (other.tail ++ ['}'])).takeWhile (· != '\x00') =
        (other.sourceId.toList ++ other.tail) ++ ['}'] := by
    intro other hother hsafe
    rw [List.takeWhile_eq_self_iff.mpr, List.append_assoc]
    intro c hc
    rw [bne_iff_ne]
    rintro rfl
    simp only [List.mem_append, hsafe, not_mem_tail hhash hother, List.mem_singleton, false_or] at hc
    exact absurd hc (by decide)
  rw [hclean hvalid hnul] at hhashed
  by_cases hsafe : '\x00' ∈ read.sourceId.toList
  · -- The closing brace would have to stand where the text has a semicolon.
    exfalso
    have hcut : (record.sourceId.toList ++ record.tail) ++ ['}'] <+: (record.sourceId.toList ++
        record.tail) ++ ';' :: ("payload=" ++ record.payload ++ "\x7d").toList := by
      refine List.IsPrefix.trans ?_ hfront
      rw [← hhashed, List.takeWhile_append, if_neg]
      · exact List.takeWhile_prefix _
      · intro hlength
        have hall := List.takeWhile_eq_self_iff.mp
          ((List.takeWhile_prefix (· != '\x00')).eq_of_length hlength) _ hsafe
        exact absurd hall (by decide)
    rw [List.prefix_append_right_inj, List.cons_prefix_cons] at hcut
    exact absurd hcut.1 (by decide)
  · rw [hclean hread hsafe] at hhashed
    obtain ⟨hsame, hpayload, htime⟩ := tail_inj hhash hread hvalid
      (List.append_cancel_right hhashed)
    exact ⟨hid, htype.symm, String.toList_injective hsame, hpayload, htime⟩

end LedgerRecord

--
-- What a transaction proof shows
--

theorem LightClientHeader.of_headerHashMatches {hashBytes : String → String}
    {header : LightClientHeader} (h : header.headerHashMatches hashBytes = true) :
    hashBytes header.headerPayload = header.blockHash ∧
      ∀ count, FieldCodec.extractField header.headerPayload "recordCount" = some count →
        count.toList.head? ≠ some '0' := by
  unfold headerHashMatches at h
  obtain ⟨hhash, h⟩ := Guards.true_of_ite_false h
  rw [Bool.or_eq_true, bne_iff_ne, not_or, ne_eq, not_not] at hhash
  refine ⟨hhash.2, fun count hcount => ?_⟩
  rw [hcount] at h
  split at h
  next shown root hshown hroot =>
    obtain rfl := Option.some.inj hshown
    obtain ⟨hchecks, -⟩ := Guards.true_of_ite_false h
    simp only [Bool.or_eq_true, beq_iff_eq, not_or] at hchecks
    exact hchecks.2
  next => cases h

/-- A block is what its constructor makes of its fields. -/
def ChainBlock.IsBuilt (hashBytes : String → String) (block : ChainBlock) : Prop :=
  ChainBlock.build hashBytes block.index block.previousHash block.records block.timestamp
    block.stateRoot block.receiptsRoot = some block

theorem ChainBlock.IsBuilt.spec {hashBytes : String → String} {block : ChainBlock}
    (h : block.IsBuilt hashBytes) : block.hash = block.calculateHash hashBytes ∧
      ∀ record ∈ block.records, record.isValid hashBytes = true := by
  refine ⟨(ChainBlock.build_spec h).1, ?_⟩
  unfold IsBuilt build at h
  obtain ⟨-, h⟩ := Guards.some_of_ite_none h
  obtain ⟨-, h⟩ := Guards.some_of_ite_none h
  obtain ⟨-, h⟩ := Guards.some_of_ite_none h
  obtain ⟨hrecords, -⟩ := Guards.some_of_ite_none h
  rw [Bool.not_eq_true', Bool.not_eq_false, List.all_eq_true] at hrecords
  exact fun record hrecord => (Bool.and_eq_true_iff.mp (hrecords record hrecord)).1

namespace LightClientTransactionProof

/-- The record of the block at the position is the one that the proof shows. -/
def Shows (jsonString : String → String) (bundle : LightClientTransactionProof)
    (block : ChainBlock) : Prop :=
  ∃ record, block.records[bundle.recordIndex]? = some record ∧
    record.serialize = bundle.serializedRecord ∧
    (record.id = bundle.transactionId ∨ record.sourceId = bundle.transactionId) ∧
    bundle.recordJson = Nodo.Model.recordJson jsonString record

variable {hashBytes jsonString : String → String}

/-- The checks of a transaction proof. -/
theorem of_verifies {bundle : LightClientTransactionProof}
    (h : bundle.verifies hashBytes jsonString = true) :
    bundle.header.headerHashMatches hashBytes = true ∧
      bundle.proof.verify hashBytes bundle.recordsRoot = true ∧
      FieldCodec.extractField bundle.header.headerPayload "recordsMerkleRoot" =
        some bundle.recordsRoot ∧
      bundle.proof.leafHash =
        MerkleTree.hashOrderedLeaf hashBytes bundle.recordIndex bundle.serializedRecord ∧
      ∃ record, LedgerRecord.deserialize hashBytes bundle.serializedRecord = some record ∧
        (record.id = bundle.transactionId ∨ record.sourceId = bundle.transactionId) ∧
        bundle.recordJson = Nodo.Model.recordJson jsonString record := by
  unfold verifies at h
  obtain ⟨hchecks, h⟩ := Guards.true_of_ite_false h
  simp only [Bool.or_eq_true, Bool.not_eq_true', not_or, Bool.not_eq_false] at hchecks
  split at h
  next => cases h
  next root hroot =>
    obtain ⟨hsame, h⟩ := Guards.true_of_ite_false h
    rw [bne_iff_ne, ne_eq, not_not] at hsame
    split at h
    next => cases h
    next count hcount =>
      obtain ⟨hleaf, h⟩ := Guards.true_of_ite_false h
      simp only [Bool.or_eq_true, bne_iff_ne, ne_eq, not_or, not_not] at hleaf
      split at h
      next => cases h
      next record hrecord =>
        obtain ⟨hid, h⟩ := Guards.true_of_ite_false h
        simp only [Bool.and_eq_true, bne_iff_ne, ne_eq] at hid
        exact ⟨hchecks.1.2, hchecks.2, by rw [hroot, hsame], hleaf.2, record, hrecord,
          or_iff_not_and_not.mpr hid,
          (beq_iff_eq.mp h).symm⟩

/-- **A transaction proof is sound** for the blocks of a chain: the previous hash is a digest or a
word, and no record has a NUL in its source. -/
theorem shows_of_verifies (hhash : DigestHash hashBytes) (jsonString : String → String)
    {bundle : LightClientTransactionProof} {block : ChainBlock}
    (hbuilt : block.IsBuilt hashBytes) (hsame : bundle.header.blockHash = block.hash)
    (hsemicolon : ';' ∉ block.previousHash.toList) (hnul : '\x00' ∉ block.previousHash.toList)
    (hsources : ∀ record ∈ block.records, '\x00' ∉ record.sourceId.toList)
    (h : bundle.verifies hashBytes jsonString = true) : bundle.Shows jsonString block := by
  obtain ⟨hheader, hverify, hroot, hleaf, read, hread, hid, hjson⟩ := of_verifies h
  obtain ⟨hblock, hvalid⟩ := hbuilt.spec
  obtain ⟨hblockHash, hcount⟩ := LightClientHeader.of_headerHashMatches hheader
  obtain ⟨hcountField, hrootField⟩ := extractField_of_blockHash hhash (hblockHash.trans
    (hsame.trans hblock))
    hsemicolon hnul
  rw [hrootField, Option.some.injEq] at hroot
  have hsome : block.records.map LedgerRecord.serialize ≠ [] := by
    intro hnone
    rw [List.map_eq_nil_iff] at hnone
    refine hcount _ hcountField ?_
    rw [hnone]
    decide
  rw [← hroot] at hverify
  have hpayload := MerkleTree.getElem?_of_orderedProof hhash hsome hverify hleaf
  rw [List.getElem?_map, Option.map_eq_some_iff] at hpayload
  obtain ⟨record, hrecord, hserialized⟩ := hpayload
  have hmem := List.mem_of_getElem? hrecord
  rw [← hserialized] at hread
  obtain ⟨hsameId, htype, hsource, hpayloadHash, htimestamp⟩ :=
    LedgerRecord.fields_of_deserialize hhash.toHexHash (hvalid record hmem) (hsources record hmem)
      hread
  refine ⟨record, hrecord, hserialized, ?_, ?_⟩
  · rwa [← hsameId, ← hsource]
  · rw [hjson]
    unfold Nodo.Model.recordJson
    rw [hsameId, htype, hsource, hpayloadHash, htimestamp]

end LightClientTransactionProof

--
-- What an account proof shows
--

/-- A header over one record whose text is printed from its fields. -/
theorem LightClientHeader.headerHashMatches_of_payload {hashBytes : String → String}
    {header : LightClientHeader} {root : String} (hprevious : ';' ∉ header.previousHash.toList)
    (hroot : ChainBlock.isCanonicalCommitmentRoot root = true)
    (hpayload : header.headerPayload = header.expectedPayload "1" root)
    (hhash : header.blockHash = hashBytes header.headerPayload) :
    header.headerHashMatches hashBytes = true := by
  have hlist := header.toList_expectedPayload "1" root
  rw [← hpayload] at hlist
  have hdigits : ';' ∉ root.toList := by
    unfold ChainBlock.isCanonicalCommitmentRoot at hroot
    obtain ⟨-, hdigits⟩ := Guards.true_of_ite_false hroot
    exact fun hmem => absurd (List.all_eq_true.mp hdigits _ hmem) (by decide)
  obtain ⟨hcount, hrootField⟩ := extractField_header (Text.not_mem_toString rfl) hprevious
    (not_mem_toString_int rfl (by decide) _) (by decide) hdigits hlist
  have hsome : header.headerPayload ≠ "" := by
    intro hnone
    have hlength := congrArg String.length (hpayload.symm.trans hnone)
    have hlabel : "BlockHeader\x7bindex=".length = 18 := by decide
    have hempty : "".length = 0 := by decide
    unfold expectedPayload at hlength
    simp only [String.length_append] at hlength
    omega
  unfold headerHashMatches
  rw [if_neg (by
      rw [Bool.or_eq_true, String.isEmpty_iff, bne_iff_ne, ne_eq, not_or, not_not]
      exact ⟨hsome, hhash.symm⟩), hcount, hrootField]
  have hread : stoull (String.ofList "1".toList) = some 1 := by decide
  have hone : String.ofList "1".toList = "1" := by decide
  simp only [String.ofList_toList] at hread hone ⊢
  rw [hroot, hread, if_neg (by decide)]
  dsimp only
  rw [if_neg (by decide), ← hpayload, beq_self_eq_true]

namespace LightClientAccountProof

variable {hashBytes jsonString : String → String}

/-- The balance and the nonce that are shown are those of the account. -/
def Shows (jsonString : String → String) (bundle : LightClientAccountProof)
    (view : AccountStateView) : Prop :=
  ∀ account : AccountState, bundle.accountJson = Nodo.Model.accountJson jsonString account →
    (view.accountOrDefault bundle.address).balance = account.balance ∧
      (view.accountOrDefault bundle.address).nonce = account.nonce

/-- **Any account under any header**: the root and the leaf are not looked for in the header, nor
the account in the leaf. -/
theorem verifies_forged {header : LightClientHeader} (hvalid : header.isValid = true)
    (hmatches : header.headerHashMatches hashBytes = true) {address json : String}
    (haddress : address ≠ "") (hjson : json ≠ "") :
    (⟨header, address, json, "root", ⟨"root", []⟩⟩ : LightClientAccountProof).verifies hashBytes =
      true := by
  have haddress : address.isEmpty = false := by rwa [← Bool.not_eq_true, String.isEmpty_iff]
  have hjson : json.isEmpty = false := by rwa [← Bool.not_eq_true, String.isEmpty_iff]
  have hproof : (⟨"root", []⟩ : MerkleProof).verify hashBytes "root" = true := by
    show (!"root".isEmpty && ("root" == "root")) = true
    decide
  unfold verifies isValid
  rw [hvalid, hmatches, haddress, hjson, hproof]
  show (true && !false && !false && !"root".isEmpty && !"root".isEmpty && true && true) = true
  decide

/-- The text of an account is never empty. -/
theorem accountJson_ne_empty (account : AccountState) :
    Nodo.Model.accountJson jsonString account ≠ "" := by
  intro h
  have hlength := congrArg String.length h
  have hlabel : "\x7b\"address\":".length = 11 := by decide
  have hempty : "".length = 0 := by decide
  unfold Nodo.Model.accountJson at hlength
  simp only [String.length_append] at hlength
  omega

/-- **An account proof is sound under a header** exactly when the header is refused: under every
other one a balance can be invented. -/
theorem shows_iff_refused (hashBytes jsonString : String → String) (header : LightClientHeader)
    (view : AccountStateView) :
    (∀ address json accountRoot proof,
      (⟨header, address, json, accountRoot, proof⟩ : LightClientAccountProof).verifies hashBytes =
        true →
      (⟨header, address, json, accountRoot, proof⟩ : LightClientAccountProof).Shows jsonString
        view) ↔
      ¬ (header.isValid = true ∧ header.headerHashMatches hashBytes = true) := by
  constructor
  · rintro h ⟨hvalid, hmatches⟩
    -- One of two balances is not that of the account.
    have hshown : ∀ balance, (view.accountOrDefault "a").balance = balance := by
      intro balance
      have hforged := verifies_forged hvalid hmatches (show "a" ≠ "" by decide)
        (@accountJson_ne_empty jsonString ⟨"a", balance, 0⟩)
      exact (h _ _ _ _ hforged ⟨"a", balance, 0⟩ rfl).1
    have hboth := (hshown ⟨0, by decide⟩).symm.trans (hshown ⟨1, by decide⟩)
    exact absurd hboth (by decide)
  · intro h address json accountRoot proof hverifies
    unfold verifies isValid at hverifies
    simp only [Bool.and_eq_true] at hverifies
    exact absurd ⟨hverifies.1.1.1.1.1.1, hverifies.1.2⟩ h

end LightClientAccountProof

--
-- Texts that are read back
--

/-- A value that a field search goes over and that ends at its delimiter. -/
def PlainField (value : String) : Prop :=
  ∀ c ∈ value.toList, c ∉ ['{', '[', '}', ']', ';', '=']

instance (value : String) : Decidable (PlainField value) :=
  List.decidableBAll (fun c => c ∉ ['{', '[', '}', ']', ';', '=']) value.toList

theorem plainField_digest {hashBytes : String → String} (hhash : HexHash hashBytes) (text : String) :
    PlainField (hashBytes text) := by
  intro c hc hmem
  refine hhash.not_mem ?_ text hc
  simp only [List.mem_cons, List.not_mem_nil, or_false] at hmem
  rcases hmem with rfl | rfl | rfl | rfl | rfl | rfl <;> decide

open SignedTransaction (chain isKey Passes)

theorem passes_plain {key : String} {field : String × String} (hname : '=' ∉ field.1.toList)
    (hother : ¬ key.toList <:+ field.1.toList) (hvalue : '=' ∉ field.2.toList) : Passes key field :=
  ⟨hname, hother, FieldSearch.after?_of_not_mem hvalue⟩

/-- A field of a printed record is found behind others, where its value is cut. -/
theorem extractNestedField_chain {text key value shown : String} {behind : List Char} {d : Char}
    {before rest : ObjectFields} (hkey : isKey key = true)
    (hbefore : ∀ field ∈ before, Passes key field) (hshown : PlainField shown)
    (hvalue : value.toList ++ chain ';' rest = shown.toList ++ d :: behind) (hd : d = ';' ∨ d = '}')
    (htext : text.toList = "LedgerRecord".toList ++ chain '{' (before ++ (key, value) :: rest)) :
    extractNestedField text key = shown := by
  have hlabel : (key ++ "=").toList = key.toList ++ ['='] := by
    rw [String.toList_append]
    rfl
  unfold extractNestedField
  rw [hlabel, htext, SignedTransaction.after?_found hkey (by decide) hbefore]
  dsimp only
  rw [hvalue, fieldValue_plain (fun c hc hmem => hshown c hc (List.mem_append_left ['='] hmem)) hd,
    String.ofList_toList]

namespace LedgerRecord

variable {hashBytes : String → String}

theorem deserialize_of_extracted {text : String} {record : LedgerRecord} {behind : List Char}
    (hstart : "LedgerRecord\x7b".toList <+: text.toList)
    (hvalid : record.isValid hashBytes = true)
    (hid : extractNestedField text "id" = record.id)
    (htype : extractNestedField text "type" = record.type.text)
    (hsource : extractNestedField text "sourceId" = record.sourceId)
    (hpayloadHash : extractNestedField text "payloadHash" = record.payloadHash)
    (htimestamp : stoll (extractNestedField text "timestamp").toList = some (record.timestamp, behind))
    (hpayload : extractNestedField text "payload" = record.payload) :
    deserialize hashBytes text = some record := by
  have hsome : record.id ≠ "" := by
    intro hnone
    unfold isValid at hvalid
    rw [hnone] at hvalid
    cases hvalid
  have htyped : record.type.text ≠ "" := by cases record.type <;> decide
  have htimed : extractNestedField text "timestamp" ≠ "" := by
    intro hnone
    rw [hnone] at htimestamp
    cases htimestamp
  have hfront : "LedgerRecord\x7b".toList.isPrefixOf text.toList = true :=
    List.isPrefixOf_iff_prefix.mpr hstart
  unfold deserialize
  rw [if_neg (by rw [hfront]; decide), hid, htype, hsource, hpayloadHash, hpayload]
  dsimp only
  rw [if_neg (by
      simp only [Bool.or_eq_true, String.isEmpty_iff, not_or]
      exact ⟨⟨hsome, htyped⟩, htimed⟩), htimestamp, ledgerRecordTypeFromString_text]
  dsimp only
  rw [if_neg (Int.not_le.mpr (of_isValid hvalid).1), if_pos hvalid]

theorem toList_serialize_chain (record : LedgerRecord) :
    record.serialize.toList = "LedgerRecord".toList ++ chain '{' [("id", record.id),
      ("type", record.type.text), ("sourceId", record.sourceId), ("payloadHash", record.payloadHash),
      ("timestamp", toString record.timestamp), ("payload", record.payload)] := by
  have hlabels : "LedgerRecord\x7bid=".toList = "LedgerRecord".toList ++ '{' :: ("id".toList ++ ['=']) ∧
      ";type=".toList = ';' :: ("type".toList ++ ['=']) ∧
      ";sourceId=".toList = ';' :: ("sourceId".toList ++ ['=']) ∧
      ";payloadHash=".toList = ';' :: ("payloadHash".toList ++ ['=']) ∧
      ";timestamp=".toList = ';' :: ("timestamp".toList ++ ['=']) ∧
      ";payload=".toList = ';' :: ("payload".toList ++ ['=']) ∧ "\x7d".toList = ['}'] := by decide
  unfold serialize
  simp only [String.toList_append, hlabels, chain, List.append_assoc, List.cons_append,
    List.nil_append]

end LedgerRecord

namespace LedgerRecord

variable {hashBytes : String → String}

/-- A text whose first fields are those of a valid record is read as this record; what stands
between its timestamp and its payload is not looked at. -/
theorem deserialize_of_chain (hhash : HexHash hashBytes) {text stamp : String} {record : LedgerRecord}
    {rest : ObjectFields} {behind : List Char} {d : Char} (hvalid : record.isValid hashBytes = true)
    (hsource : PlainField record.sourceId) (hpayload : PlainField record.payload)
    (hfits : record.timestamp < 2 ^ 63) (hstamp : '=' ∉ stamp.toList) (hd : d = ';' ∨ d = '}')
    (hcut : stamp.toList ++ chain ';' (rest ++ [("payload", record.payload)]) =
      (toString record.timestamp).toList ++ d :: behind)
    (hrest : ∀ field ∈ rest, Passes "payload" field)
    (htext : text.toList = "LedgerRecord".toList ++ chain '{' (("id", record.id) ::
      ("type", record.type.text) :: ("sourceId", record.sourceId) ::
        ("payloadHash", record.payloadHash) :: ("timestamp", stamp) ::
          (rest ++ [("payload", record.payload)]))) :
    deserialize hashBytes text = some record := by
  obtain ⟨hpositive, hhashed, hid⟩ := of_isValid hvalid
  have hidPlain : PlainField record.id := hid ▸ plainField_digest hhash _
  have hhashPlain : PlainField record.payloadHash := hhashed ▸ plainField_digest hhash _
  have htypePlain : PlainField record.type.text := type_text_plain record.type
  have hequals : ∀ {value : String}, PlainField value → '=' ∉ value.toList := fun hvalue hmem =>
    hvalue _ hmem (by decide)
  have hstampPlain : PlainField (toString record.timestamp) := by
    intro c hc hmem
    refine not_mem_toString_int ?_ ?_ _ hc <;>
      (simp only [List.mem_cons, List.not_mem_nil, or_false] at hmem
       rcases hmem with rfl | rfl | rfl | rfl | rfl | rfl <;> decide)
  have hvalue : ∀ (value : String) (fields : ObjectFields), ∃ d behind,
      value.toList ++ chain ';' fields = value.toList ++ d :: behind ∧ (d = ';' ∨ d = '}') := by
    intro value fields
    obtain ⟨d, behind, hchain, hd⟩ := SignedTransaction.chain_cons fields
    exact ⟨d, behind, by rw [hchain], hd⟩
  -- Each field is found behind the ones before it.
  have hfound : ∀ {key value : String} (before : ObjectFields) {after : ObjectFields}, isKey key = true →
      PlainField value → (∀ field ∈ before, Passes key field) →
      text.toList = "LedgerRecord".toList ++ chain '{' (before ++ (key, value) :: after) →
      extractNestedField text key = value := by
    intro key value before after hkey hplain hbefore hshape
    obtain ⟨d, behind, hcut, hd⟩ := hvalue value after
    exact extractNestedField_chain hkey hbefore hplain hcut hd hshape
  have hpasses : ∀ key ∈ ["type", "sourceId", "payloadHash", "timestamp", "payload"],
      ¬ key.toList <:+ "id".toList := by decide
  have hpassesType : ∀ key ∈ ["sourceId", "payloadHash", "timestamp", "payload"],
      ¬ key.toList <:+ "type".toList := by decide
  have hpassesSource : ∀ key ∈ ["payloadHash", "timestamp", "payload"],
      ¬ key.toList <:+ "sourceId".toList := by decide
  have hpassesHash : ∀ key ∈ ["timestamp", "payload"], ¬ key.toList <:+ "payloadHash".toList := by
    decide
  have hnames : '=' ∉ "id".toList ∧ '=' ∉ "type".toList ∧ '=' ∉ "sourceId".toList ∧
      '=' ∉ "payloadHash".toList ∧ '=' ∉ "timestamp".toList := by decide
  refine @deserialize_of_extracted _ _ _ [] ?_ hvalid ?_ ?_ ?_ ?_ ?_ ?_
  · rw [htext]
    exact ⟨_, by rw [chain]; rfl⟩
  · exact hfound [] (by decide) hidPlain (by simp) htext
  · refine hfound [("id", record.id)] (by decide) htypePlain ?_ htext
    simp only [List.forall_mem_singleton]
    exact passes_plain hnames.1 (hpasses _ (by decide)) (hequals hidPlain)
  · refine hfound [("id", record.id), ("type", record.type.text)] (by decide) hsource ?_
      htext
    simp only [List.forall_mem_cons]
    exact ⟨passes_plain hnames.1 (hpasses _ (by decide)) (hequals hidPlain),
      passes_plain hnames.2.1 (hpassesType _ (by decide)) (hequals htypePlain), by simp⟩
  · refine hfound [("id", record.id), ("type", record.type.text),
      ("sourceId", record.sourceId)] (by decide) hhashPlain ?_ htext
    simp only [List.forall_mem_cons]
    exact ⟨passes_plain hnames.1 (hpasses _ (by decide)) (hequals hidPlain),
      passes_plain hnames.2.1 (hpassesType _ (by decide)) (hequals htypePlain),
      passes_plain hnames.2.2.1 (hpassesSource _ (by decide)) (hequals hsource), by simp⟩
  · have hread := @extractNestedField_chain text "timestamp" stamp (toString record.timestamp) behind
      d [("id", record.id), ("type", record.type.text), ("sourceId", record.sourceId),
        ("payloadHash", record.payloadHash)] (rest ++ [("payload", record.payload)]) (by decide)
      (by
        simp only [List.forall_mem_cons]
        exact ⟨passes_plain hnames.1 (hpasses _ (by decide)) (hequals hidPlain),
          passes_plain hnames.2.1 (hpassesType _ (by decide)) (hequals htypePlain),
          passes_plain hnames.2.2.1 (hpassesSource _ (by decide)) (hequals hsource),
          passes_plain hnames.2.2.2.1 (hpassesHash _ (by decide)) (hequals hhashPlain), by simp⟩)
      hstampPlain hcut hd htext
    rw [hread, toString_int hpositive, stoll_toString (by omega)]
    simp only [Option.some.injEq, Prod.mk.injEq, and_true]
    omega
  · refine hfound (("id", record.id) :: ("type", record.type.text) ::
      ("sourceId", record.sourceId) :: ("payloadHash", record.payloadHash) ::
        ("timestamp", stamp) :: rest) (by decide) hpayload ?_ htext
    simp only [List.forall_mem_cons]
    exact ⟨passes_plain hnames.1 (hpasses _ (by decide)) (hequals hidPlain),
      passes_plain hnames.2.1 (hpassesType _ (by decide)) (hequals htypePlain),
      passes_plain hnames.2.2.1 (hpassesSource _ (by decide)) (hequals hsource),
      passes_plain hnames.2.2.2.1 (hpassesHash _ (by decide)) (hequals hhashPlain),
      passes_plain hnames.2.2.2.2
        (show ¬ "payload".toList <:+ "timestamp".toList by decide) hstamp, hrest⟩

/-- A record without delimiters in its source and its payload is read back. -/
theorem deserialize_serialize (hhash : HexHash hashBytes) {record : LedgerRecord}
    (hvalid : record.isValid hashBytes = true) (hsource : PlainField record.sourceId)
    (hpayload : PlainField record.payload) (hfits : record.timestamp < 2 ^ 63) :
    deserialize hashBytes record.serialize = some record :=
  @deserialize_of_chain _ hhash _ _ _ [] _ _ hvalid hsource hpayload hfits
    (not_mem_toString_int rfl (by decide) _) (Or.inl rfl) rfl (by simp) record.toList_serialize_chain

end LedgerRecord

--
-- A hasher with one digest of 64 digits
--

/-- The octal digits of a character. -/
def octal (c : Char) : List Char :=
  (List.range 7).map fun i => Nat.digitChar (c.toNat / 8 ^ i % 8)

/-- Texts are written out between two marks; one text has a digest of 64 digits. -/
def markedHash (marked text : String) : String :=
  if text = marked then SparseMerkleTree.zeroKey
  else String.ofList ('f' :: (text.toList.flatMap octal ++ ['f']))

theorem mem_octal {c d : Char} (h : d ∈ octal c) : '0' ≤ d ∧ d ≤ '7' := by
  have hdigit : ∀ n : Fin 8, '0' ≤ Nat.digitChar n ∧ Nat.digitChar n ≤ '7' := by decide
  obtain ⟨i, -, rfl⟩ := List.mem_map.mp h
  exact hdigit ⟨_, Nat.mod_lt _ (by decide)⟩

theorem octal_inj {c d : Char} (h : octal c = octal d) : c = d := by
  have hdigit : ∀ n m : Fin 8, Nat.digitChar n = Nat.digitChar m → n = m := by decide
  have hvalue : ∀ i < 7, c.toNat / 8 ^ i % 8 = d.toNat / 8 ^ i % 8 := by
    intro i hi
    have hsame := List.map_inj_left.mp h i (List.mem_range.mpr hi)
    exact congrArg Fin.val (hdigit ⟨_, Nat.mod_lt _ (by decide)⟩ ⟨_, Nat.mod_lt _ (by decide)⟩ hsame)
  have hbound : ∀ c : Char, c.toNat < 8 ^ 7 := by
    intro c
    rcases c.valid with hlow | ⟨-, hhigh⟩
    · exact Nat.lt_trans hlow (by decide)
    · exact Nat.lt_trans hhigh (by decide)
  have hlow : ∀ count ≤ 7, c.toNat % 8 ^ count = d.toNat % 8 ^ count := by
    intro count hcount
    induction count with
    | zero => rw [Nat.pow_zero, Nat.mod_one, Nat.mod_one]
    | succ count ih =>
      rw [Nat.mod_pow_succ, Nat.mod_pow_succ, ih (by omega), hvalue count (by omega)]
  refine Char.toNat_inj.mp ?_
  rw [← Nat.mod_eq_of_lt (hbound c), ← Nat.mod_eq_of_lt (hbound d)]
  exact hlow 7 (Nat.le_refl _)

theorem flatMap_octal_inj {x y : List Char} (h : x.flatMap octal = y.flatMap octal) : x = y := by
  have hlength : ∀ c, (octal c).length = 7 := fun c => by
    rw [octal, List.length_map, List.length_range]
  have hcons : ∀ (c : Char) (rest : List Char), (c :: rest).flatMap octal ≠ [] := by
    intro c rest hnil
    have hzero := congrArg List.length hnil
    rw [List.flatMap_cons, List.length_append, hlength, List.length_nil] at hzero
    omega
  induction x generalizing y with
  | nil =>
    cases y with
    | nil => rfl
    | cons d rest => exact absurd h.symm (hcons d rest)
  | cons c x ih =>
    cases y with
    | nil => exact absurd h (hcons c x)
    | cons d y =>
      rw [List.flatMap_cons, List.flatMap_cons] at h
      obtain ⟨hfirst, hrest⟩ := List.append_inj h (by rw [hlength, hlength])
      rw [octal_inj hfirst, ih hrest]

/-- The two forms of a digest. -/
theorem toList_markedHash (marked text : String) :
    (text = marked ∧ (markedHash marked text).toList = List.replicate 64 '0') ∨
      (markedHash marked text).toList = 'f' :: (text.toList.flatMap octal ++ ['f']) := by
  unfold markedHash
  split
  · exact Or.inl ⟨‹_›, by decide +kernel⟩
  · exact Or.inr String.toList_ofList

theorem not_mem_flatMap_octal (text : List Char) : 'f' ∉ text.flatMap octal := by
  intro hmem
  obtain ⟨c, -, hdigit⟩ := List.mem_flatMap.mp hmem
  exact absurd (mem_octal hdigit).2 (by decide)

theorem digestHash_markedHash (marked : String) : DigestHash (markedHash marked) := by
  have hfront : ∀ {a b : String} {s t : List Char}, (markedHash marked a).toList ++ s =
      (markedHash marked b).toList ++ t → a = b := by
    intro a b s t h
    rcases toList_markedHash marked a with ⟨ha', ha⟩ | ha <;>
      rcases toList_markedHash marked b with ⟨hb', hb⟩ | hb
    · exact ha'.trans hb'.symm
    · rw [ha, hb] at h
      exact absurd (List.cons.inj h).1 (by decide)
    · rw [ha, hb] at h
      exact absurd (List.cons.inj h).1 (by decide)
    · rw [ha, hb] at h
      simp only [List.cons_append, List.append_assoc, List.nil_append, List.cons.injEq,
        true_and] at h
      exact String.toList_injective (flatMap_octal_inj (Text.append_delimiter_inj
        (not_mem_flatMap_octal _) (not_mem_flatMap_octal _) h).1)
  have hback : ∀ {a b : String} {s t : List Char}, s ++ (markedHash marked a).toList =
      t ++ (markedHash marked b).toList → a = b := by
    have hzeros : List.replicate 64 '0' = List.replicate 63 '0' ++ ['0'] := by decide
    have hlast : ∀ (s x : List Char), s ++ 'f' :: (x ++ ['f']) = (s ++ 'f' :: x) ++ ['f'] := by
      intro s x
      simp only [List.append_assoc, List.cons_append]
    intro a b s t h
    rcases toList_markedHash marked a with ⟨ha', ha⟩ | ha <;>
      rcases toList_markedHash marked b with ⟨hb', hb⟩ | hb
    · exact ha'.trans hb'.symm
    · rw [ha, hb, hzeros, ← List.append_assoc, hlast] at h
      exact absurd (List.append_inj_right' h rfl) (by decide)
    · rw [ha, hb, hzeros, ← List.append_assoc, hlast] at h
      exact absurd (List.append_inj_right' h rfl) (by decide)
    · rw [ha, hb, hlast, hlast] at h
      exact String.toList_injective (flatMap_octal_inj (Text.append_last_delimiter_inj
        (not_mem_flatMap_octal _) (not_mem_flatMap_octal _) (List.append_cancel_right h)).2)
  refine ⟨⟨fun x y h => hfront (s := []) (t := []) (by rw [h]), fun text c hc => ?_⟩,
    fun h => by rw [hfront h], fun h => by rw [hback h]⟩
  rcases toList_markedHash marked text with ⟨-, hx⟩ | hx <;> rw [hx] at hc
  · rw [List.eq_of_mem_replicate hc]
    decide
  · simp only [List.mem_cons, List.mem_append, List.not_mem_nil, or_false] at hc
    rcases hc with rfl | hc | rfl
    · decide
    · obtain ⟨d, -, hdigit⟩ := List.mem_flatMap.mp hc
      exact Or.inl ⟨(mem_octal hdigit).1, Nat.le_trans (mem_octal hdigit).2 (by decide)⟩
    · decide

--
-- Blocks over one record
--

theorem length_markedHash_le (marked text : String) :
    (markedHash marked text).length ≤ 7 * text.length + 66 := by
  have hcode : ∀ x : List Char, (x.flatMap octal).length = 7 * x.length := by
    intro x
    induction x with
    | nil => rfl
    | cons c rest ih =>
      rw [List.flatMap_cons, List.length_append, ih, octal, List.length_map, List.length_range,
        List.length_cons]
      omega
  rw [← String.length_toList]
  rcases toList_markedHash marked text with ⟨-, hx⟩ | hx
  · rw [hx, List.length_replicate]
    omega
  · rw [hx, List.length_cons, List.length_append, List.length_singleton, hcode,
      String.length_toList]
    omega

theorem markedHash_ne_empty (marked text : String) : markedHash marked text ≠ "" := by
  intro h
  have hlist := congrArg String.toList h
  rcases toList_markedHash marked text with ⟨-, hx⟩ | hx <;> rw [hx] at hlist <;> cases hlist

theorem cString_eq_self {text : String} (h : '\x00' ∉ text.toList) : cString text = text := by
  rw [cString, List.takeWhile_eq_self_iff.mpr, String.ofList_toList]
  intro c hc
  rw [bne_iff_ne]
  rintro rfl
  exact h hc

/-- The text of a leaf at the first position. -/
def firstLeafText (record : LedgerRecord) : String :=
  MerkleTree.leafPrefix ++ ("NODO_BLOCK_RECORD_0.6:" ++ toString 0 ++ ":" ++
    toString record.serialize.length ++ ":" ++ record.serialize)

def sampleMint (hashBytes : String → String) (sourceId : String) (timestamp : Int) : LedgerRecord where
  id := LedgerRecord.computeRecordId hashBytes .mint sourceId (LedgerRecord.hashPayload hashBytes "p")
    timestamp
  type := .mint
  sourceId := sourceId
  payload := "p"
  payloadHash := LedgerRecord.hashPayload hashBytes "p"
  timestamp := timestamp

def sampleOneRecordBlock (hashBytes : String → String) (previousHash : String)
    (record : LedgerRecord) : ChainBlock :=
  let unhashed : ChainBlock :=
    { index := 1, previousHash, hash := "", records := [record], timestamp := 2
      stateRoot := "s", receiptsRoot := "r" }
  { unhashed with hash := unhashed.calculateHash hashBytes }

section Samples

variable {hashBytes : String → String}

theorem sampleMint_isValid (hne : ∀ text, hashBytes text ≠ "") {sourceId : String} {timestamp : Int}
    (hsource : sourceId ≠ "") (hpositive : 0 < timestamp) :
    (sampleMint hashBytes sourceId timestamp).isValid hashBytes = true := by
  have hid : (sampleMint hashBytes sourceId timestamp).id ≠ "" := hne _
  have hhashed : (sampleMint hashBytes sourceId timestamp).payloadHash ≠ "" := hne _
  have hpayload : (sampleMint hashBytes sourceId timestamp).payload ≠ "" := by
    show "p" ≠ ""
    decide
  have hname : (sampleMint hashBytes sourceId timestamp).sourceId = sourceId := rfl
  have htime : (sampleMint hashBytes sourceId timestamp).timestamp = timestamp := rfl
  unfold LedgerRecord.isValid
  rw [if_neg (by
      simp only [Bool.or_eq_true, String.isEmpty_iff, hid, hhashed, hname, hsource, hpayload,
        or_false, not_false_eq_true]), htime, if_neg (by omega),
    if_neg (by rw [bne_iff_ne, ne_eq, not_not]; rfl),
    if_neg (by rw [bne_iff_ne, ne_eq, not_not]; rfl)]

theorem length_cString_le (text : String) : (cString text).length ≤ text.length := by
  rw [cString, String.length_ofList, ← String.length_toList]
  exact (List.takeWhile_prefix _).length_le

variable (hlength : ∀ text, (hashBytes text).length ≤ 7 * text.length + 66)

include hlength

theorem sampleMint_length {sourceId : String} {timestamp : Int}
    (hsource : sourceId.length ≤ 200) (htimestamp : (toString timestamp).length ≤ 10) :
    (sampleMint hashBytes sourceId timestamp).serialize.length ≤ 4000 := by
  have hhashed : (LedgerRecord.hashPayload hashBytes "p").length ≤ 7 * 1 + 66 := by
    have hp : (cString "p").length = 1 := by decide
    unfold LedgerRecord.hashPayload
    rw [← hp]
    exact hlength _
  have hid : (LedgerRecord.computeRecordId hashBytes .mint sourceId
      (LedgerRecord.hashPayload hashBytes "p") timestamp).length ≤ 7 * 400 + 66 := by
    unfold LedgerRecord.computeRecordId
    generalize LedgerRecord.hashPayload hashBytes "p" = digest at hhashed ⊢
    unfold LedgerRecord.hashPayload
    refine Nat.le_trans (hlength _) ?_
    refine Nat.add_le_add_right (Nat.mul_le_mul_left 7 (Nat.le_trans (length_cString_le _) ?_)) _
    have hlabels : "LedgerRecordId\x7btype=".length = 20 ∧ LedgerRecordType.mint.text.length = 4 ∧
        ";sourceId=".length = 10 ∧ ";payloadHash=".length = 13 ∧ ";timestamp=".length = 11 ∧
        "\x7d".length = 1 := by decide +kernel
    simp only [String.length_append]
    omega
  have hlabels : "LedgerRecord\x7bid=".length = 16 ∧ ";type=".length = 6 ∧
      LedgerRecordType.mint.text.length = 4 ∧ ";sourceId=".length = 10 ∧
      ";payloadHash=".length = 13 ∧ ";timestamp=".length = 11 ∧ ";payload=".length = 9 ∧
      "p".length = 1 ∧ "\x7d".length = 1 := by decide +kernel
  unfold LedgerRecord.serialize sampleMint
  dsimp only
  generalize LedgerRecord.computeRecordId hashBytes .mint sourceId
    (LedgerRecord.hashPayload hashBytes "p") timestamp = id at hid
  generalize LedgerRecord.hashPayload hashBytes "p" = digest at hhashed
  simp only [String.length_append]
  omega

omit hlength in
theorem recordsRoot_one {previousHash : String} {record : LedgerRecord} :
    (sampleOneRecordBlock hashBytes previousHash record).recordsRoot hashBytes =
      hashBytes (firstLeafText record) := by
  show MerkleTree.buildOrderedRoot hashBytes [record.serialize] = _
  unfold MerkleTree.buildOrderedRoot MerkleTree.hashLayer
  rw [List.mapIdx_cons, List.mapIdx_nil, HashTree.layerRoot]
  rfl

/-- The limits of a block are far away. -/
theorem sampleOneRecordBlock_length {previousHash : String} {record : LedgerRecord}
    (hprevious : previousHash.length ≤ 500) (hrecord : record.serialize.length ≤ 4000) :
    ((sampleOneRecordBlock hashBytes previousHash record).serialize hashBytes).length ≤ 500000 := by
  have hroot : (hashBytes (firstLeafText record)).length ≤ 7 * 4100 + 66 := by
    refine Nat.le_trans (hlength _) (Nat.add_le_add_right (Nat.mul_le_mul_left 7 ?_) _)
    have hlabels : MerkleTree.leafPrefix.length = 17 ∧ "NODO_BLOCK_RECORD_0.6:".length = 22 ∧
        (toString 0).length = 1 ∧ ":".length = 1 := by decide +kernel
    have hdigits : (toString record.serialize.length).length ≤ 4 := by
      rw [← String.length_toList, Text.toList_toString_nat]
      exact (Nat.length_toDigits_le_iff (by decide) (by decide)).mpr (by omega)
    unfold firstLeafText
    simp only [String.length_append]
    omega
  have hheader : ((sampleOneRecordBlock hashBytes previousHash record).headerPayload
      hashBytes).length ≤ 30000 := by
    have hlabels : "BlockHeader\x7bindex=".length = 18 ∧ (toString (1 : UInt64).toNat).length = 1 ∧
        ";previousHash=".length = 14 ∧ ";".length = 1 ∧ "timestamp=".length = 10 ∧
        (toString (2 : Int)).length = 1 ∧ ";recordCount=".length = 13 ∧ (toString 1).length = 1 ∧
        ";recordsMerkleRoot=".length = 19 ∧ ";stateRoot=".length = 11 ∧ "s".length = 1 ∧
        ";receiptsRoot=".length = 14 ∧ "r".length = 1 ∧ "\x7d".length = 1 := by decide +kernel
    unfold ChainBlock.headerPayload ChainBlock.headerTail
    rw [recordsRoot_one]
    unfold sampleOneRecordBlock
    dsimp only
    rw [List.length_singleton]
    simp only [String.length_append]
    omega
  have hhash : (sampleOneRecordBlock hashBytes previousHash record).hash.length ≤ 7 * 30000 + 66 := by
    show (hashBytes (cString ((sampleOneRecordBlock hashBytes previousHash record).headerPayload
      hashBytes))).length ≤ _
    exact Nat.le_trans (hlength _) (Nat.add_le_add_right (Nat.mul_le_mul_left 7
      (Nat.le_trans (length_cString_le _) hheader)) _)
  unfold ChainBlock.serialize
  generalize ChainBlock.headerPayload hashBytes (sampleOneRecordBlock hashBytes previousHash record) =
    header at hheader
  have hlabels : "Block\x7bindex=".length = 12 ∧ (toString (1 : UInt64).toNat).length = 1 ∧
      ";previousHash=".length = 14 ∧ ";hash=".length = 6 ∧ ";timestamp=".length = 11 ∧
      (toString (2 : Int)).length = 1 ∧ ";stateRoot=".length = 11 ∧ "s".length = 1 ∧
      ";receiptsRoot=".length = 14 ∧ "r".length = 1 ∧ ";recordCount=".length = 13 ∧
      (toString 1).length = 1 ∧ ";payload=".length = 9 ∧ ";records=[".length = 10 ∧
      "]\x7d".length = 2 := by decide +kernel
  have hrecords : (String.intercalate "," ((sampleOneRecordBlock hashBytes previousHash
      record).records.map LedgerRecord.serialize)).length ≤ 4000 := by
    show (String.intercalate "," [record.serialize]).length ≤ 4000
    rw [String.intercalate_singleton]
    exact hrecord
  have hfields : (sampleOneRecordBlock hashBytes previousHash record).index = 1 ∧
      (sampleOneRecordBlock hashBytes previousHash record).previousHash = previousHash ∧
      (sampleOneRecordBlock hashBytes previousHash record).timestamp = 2 ∧
      (sampleOneRecordBlock hashBytes previousHash record).stateRoot = "s" ∧
      (sampleOneRecordBlock hashBytes previousHash record).receiptsRoot = "r" ∧
      (sampleOneRecordBlock hashBytes previousHash record).records.length = 1 :=
    ⟨rfl, rfl, rfl, rfl, rfl, rfl⟩
  rw [hfields.1, hfields.2.1, hfields.2.2.1, hfields.2.2.2.1, hfields.2.2.2.2.1, hfields.2.2.2.2.2]
  simp only [String.length_append]
  omega

end Samples

example : (sampleMint id "s" 1).isValid id = true := by decide +kernel

theorem sampleOneRecordBlock_isBuilt {hashBytes : String → String}
    (hlength : ∀ text, (hashBytes text).length ≤ 7 * text.length + 66) {previousHash : String}
    {record : LedgerRecord} (hsome : previousHash ≠ "") (hvalid : record.isValid hashBytes = true)
    (hpayload : record.payload = "p") (hprevious : previousHash.length ≤ 500)
    (hrecord : record.serialize.length ≤ 4000) :
    (sampleOneRecordBlock hashBytes previousHash record).IsBuilt hashBytes := by
  have hblock := sampleOneRecordBlock_length hlength hprevious hrecord
  have hlimits : (sampleOneRecordBlock hashBytes previousHash record).isWithinResourceLimits
      hashBytes = true := by
    have hbytes : ChainBlock.recordBytes 0 [record] = some (0 + record.serialize.length) := by
      unfold ChainBlock.recordBytes
      rw [hpayload, if_neg (by decide), if_neg (by unfold ChainBlock.maxSerializedBytes; omega)]
      rfl
    have hrecords : (sampleOneRecordBlock hashBytes previousHash record).records = [record] := rfl
    unfold ChainBlock.isWithinResourceLimits
    rw [hrecords, hbytes, if_neg (by
      rw [List.isEmpty_cons, Bool.false_or, List.length_singleton]
      decide)]
    unfold ChainBlock.maxSerializedBytes
    refine Bool.and_eq_true_iff.mpr ⟨decide_eq_true ?_, decide_eq_true ?_⟩ <;> omega
  show ChainBlock.build hashBytes 1 previousHash [record] 2 "s" "r" = _
  unfold ChainBlock.build
  rw [if_neg (by rwa [String.isEmpty_iff]), if_neg (by
      rw [List.isEmpty_cons, Bool.false_or, List.length_singleton, Bool.and_eq_true]
      exact fun h => absurd h.1 (by decide)), if_neg (by decide), if_neg (by
      rw [List.all_cons, List.all_nil, hvalid, hpayload]
      decide)]
  dsimp only
  rw [if_neg]
  · rfl
  · rw [Bool.and_eq_true, not_and]
    intro h
    rw [Bool.not_eq_true'] at h
    exact absurd (h.symm.trans hlimits) (by decide)

--
-- Proofs that are accepted
--

/-- A header over one record, with its own text and hash. -/
def sampleLightHeader (hashBytes : String → String) (previousHash stateRoot receiptsRoot root : String)
    (timestamp : Int) : LightClientHeader :=
  let fields : LightClientHeader :=
    { networkName := "localnet", chainId := "nodo", genesisConfigId := "genesis", height := 1
      blockHash := "", previousHash, stateRoot, receiptsRoot, timestamp, headerPayload := ""
      validatorSetRoot := "v", finalizedRecord := "f", quorumCertificate := "q" }
  { fields with
    headerPayload := fields.expectedPayload "1" root
    blockHash := hashBytes (fields.expectedPayload "1" root) }

theorem sampleLightHeader_accepted {hashBytes : String → String} (hne : ∀ text, hashBytes text ≠ "")
    {previousHash stateRoot receiptsRoot root : String} {timestamp : Int}
    (hsome : previousHash ≠ "") (hprevious : ';' ∉ previousHash.toList)
    (hroot : ChainBlock.isCanonicalCommitmentRoot root = true) (hpositive : 0 < timestamp) :
    (sampleLightHeader hashBytes previousHash stateRoot receiptsRoot root timestamp).isValid = true ∧
      (sampleLightHeader hashBytes previousHash stateRoot receiptsRoot root
        timestamp).headerHashMatches hashBytes = true := by
  generalize hheader : sampleLightHeader hashBytes previousHash stateRoot receiptsRoot root timestamp =
    header
  have hpayload : header.headerPayload = header.expectedPayload "1" root := by
    rw [← hheader]
    rfl
  have hhash : header.blockHash = hashBytes header.headerPayload := by
    rw [← hheader]
    rfl
  have hprevious' : header.previousHash = previousHash := by rw [← hheader]; rfl
  have hmatches := LightClientHeader.headerHashMatches_of_payload (by rwa [hprevious']) hroot hpayload
    hhash
  refine ⟨?_, hmatches⟩
  have htexts : header.networkName = "localnet" ∧ header.chainId = "nodo" ∧
      header.genesisConfigId = "genesis" ∧ header.validatorSetRoot = "v" ∧
      header.finalizedRecord = "f" ∧ header.quorumCertificate = "q" ∧ header.timestamp = timestamp := by
    rw [← hheader]
    exact ⟨rfl, rfl, rfl, rfl, rfl, rfl, rfl⟩
  have hwritten : header.headerPayload ≠ "" := by
    intro hnone
    unfold LightClientHeader.headerHashMatches at hmatches
    rw [hnone] at hmatches
    cases hmatches
  have hhashed : header.blockHash ≠ "" := by
    rw [hhash]
    exact hne _
  unfold LightClientHeader.isValid
  rw [htexts.1, htexts.2.1, htexts.2.2.1, htexts.2.2.2.1, htexts.2.2.2.2.1, htexts.2.2.2.2.2.1,
    htexts.2.2.2.2.2.2, hprevious']
  simp only [Bool.and_eq_true, Bool.not_eq_true', ← Bool.not_eq_true, String.isEmpty_iff, hsome,
    hwritten, hhashed, decide_eq_true_eq, not_false_eq_true, and_true, hpositive]
  decide

def quoted (text : String) : String := "\"" ++ text ++ "\""

/-- A proof for the first record of a block, where the root is its leaf; another record may be
shown. -/
def sampleTransactionProof (header : LightClientHeader) (record shown : LedgerRecord) :
    LightClientTransactionProof where
  header := header
  transactionId := shown.sourceId
  recordJson := recordJson quoted shown
  recordsRoot := SparseMerkleTree.zeroKey
  proof := { leafHash := SparseMerkleTree.zeroKey, steps := [] }
  recordIndex := 0
  serializedRecord := record.serialize

theorem sampleTransactionProof_verifies {hashBytes : String → String}
    (hne : ∀ text, hashBytes text ≠ "") {previousHash stateRoot receiptsRoot : String}
    {timestamp : Int} {record shown : LedgerRecord} (hsome : previousHash ≠ "")
    (hprevious : ';' ∉ previousHash.toList) (hpositive : 0 < timestamp)
    (hleaf : hashBytes (firstLeafText record) = SparseMerkleTree.zeroKey)
    (hsource : shown.sourceId ≠ "")
    (hread : LedgerRecord.deserialize hashBytes record.serialize = some shown) :
    (sampleTransactionProof (sampleLightHeader hashBytes previousHash stateRoot receiptsRoot
      SparseMerkleTree.zeroKey timestamp) record shown).verifies hashBytes quoted = true := by
  have hzero : ChainBlock.isCanonicalCommitmentRoot SparseMerkleTree.zeroKey = true := by
    decide +kernel
  obtain ⟨hvalid, hmatches⟩ := @sampleLightHeader_accepted _ hne previousHash stateRoot receiptsRoot _
    timestamp hsome hprevious hzero hpositive
  generalize hheader : sampleLightHeader hashBytes previousHash stateRoot receiptsRoot
    SparseMerkleTree.zeroKey timestamp = header at hvalid hmatches
  have hpayload : header.headerPayload = header.expectedPayload "1" SparseMerkleTree.zeroKey := by
    rw [← hheader]
    rfl
  have hprevious' : header.previousHash = previousHash := by rw [← hheader]; rfl
  have hdigits : ';' ∉ SparseMerkleTree.zeroKey.toList := by
    rw [SparseMerkleTree.toList_zeroKey]
    decide
  have hlist := header.toList_expectedPayload "1" SparseMerkleTree.zeroKey
  rw [← hpayload] at hlist
  obtain ⟨hcount, hroot⟩ := extractField_header (Text.not_mem_toString rfl)
    (by rwa [hprevious']) (not_mem_toString_int rfl (by decide) _) (by decide) hdigits hlist
  rw [String.ofList_toList] at hcount hroot
  have hserialized : record.serialize ≠ "" := by
    intro hnone
    unfold LedgerRecord.deserialize at hread
    rw [hnone] at hread
    cases hread
  have hjson : recordJson quoted shown ≠ "" := by
    intro h
    have hlength := congrArg String.length h
    have hlabel : "\x7b\"id\":".length = 6 ∧ "".length = 0 := by decide
    unfold recordJson at hlength
    simp only [String.length_append] at hlength
    omega
  generalize hbundle : sampleTransactionProof header record shown = bundle
  have hfields : bundle.header = header ∧ bundle.transactionId = shown.sourceId ∧
      bundle.recordJson = recordJson quoted shown ∧
      bundle.recordsRoot = SparseMerkleTree.zeroKey ∧
      bundle.proof = ⟨SparseMerkleTree.zeroKey, []⟩ ∧ bundle.recordIndex = 0 ∧
      bundle.serializedRecord = record.serialize := by
    rw [← hbundle]
    exact ⟨rfl, rfl, rfl, rfl, rfl, rfl, rfl⟩
  have hverify : (⟨SparseMerkleTree.zeroKey, []⟩ : MerkleProof).verify hashBytes
      SparseMerkleTree.zeroKey = true := by
    show (!SparseMerkleTree.zeroKey.isEmpty &&
      SparseMerkleTree.zeroKey == SparseMerkleTree.zeroKey) = true
    rw [beq_self_eq_true]
    decide +kernel
  have hbundleValid : bundle.isValid = true := by
    unfold LightClientTransactionProof.isValid
    rw [hfields.1, hfields.2.1, hfields.2.2.1, hfields.2.2.2.1, hfields.2.2.2.2.1,
      hfields.2.2.2.2.2.1, hfields.2.2.2.2.2.2, hvalid]
    simp only [Bool.and_eq_true, Bool.not_eq_true', ← Bool.not_eq_true, String.isEmpty_iff, hsource,
      hjson, hserialized, not_false_eq_true, and_true, true_and]
    unfold MerkleProof.isValid
    decide +kernel
  have hleaf' : SparseMerkleTree.zeroKey =
      MerkleTree.hashOrderedLeaf hashBytes 0 record.serialize := hleaf.symm
  have hone : stoull "1" = some 1 := by decide
  unfold LightClientTransactionProof.verifies
  rw [hbundleValid, hfields.1, hfields.2.1, hfields.2.2.1, hfields.2.2.2.1, hfields.2.2.2.2.1,
    hfields.2.2.2.2.2.1, hfields.2.2.2.2.2.2, hmatches, hverify, hcount, hroot, Option.bind_some,
    hone, hread, ← hleaf']
  dsimp only
  rw [if_neg (by decide), if_neg (by rw [bne_self_eq_false]; decide),
    if_neg (by rw [bne_self_eq_false]; decide), if_neg (by
      rw [bne_self_eq_false, Bool.and_false]
      decide), beq_self_eq_true]

example : MerkleProof.isValid ⟨SparseMerkleTree.zeroKey, []⟩ = true := by decide +kernel

--
-- Blocks that show other records
--

theorem markedHash_eq {marked text : String} (hmarked : text ≠ marked) (hsome : text ≠ "") :
    markedHash marked text = markedHash "" text := by
  unfold markedHash
  rw [if_neg hmarked, if_neg hsome]

attribute [irreducible] markedHash

/-- A text that starts otherwise than a leaf is not the marked one. -/
theorem markedHash_start {record : LedgerRecord} {c : Char} {rest : List Char} {text : String}
    (htext : text.toList = c :: rest) (hc : c ≠ 'N') :
    markedHash (firstLeafText record) text = markedHash "" text := by
  have hfront : MerkleTree.leafPrefix.toList = 'N' :: "ODO_MERKLE_LEAF:".toList := by decide
  have hleaf : ∃ behind, (firstLeafText record).toList = 'N' :: behind := by
    unfold firstLeafText
    rw [String.toList_append, hfront, List.cons_append]
    exact ⟨_, rfl⟩
  obtain ⟨behind, hleaf⟩ := hleaf
  refine markedHash_eq ?_ ?_
  · intro heq
    rw [heq, hleaf, List.cons.injEq] at htext
    exact hc htext.1.symm
  · intro heq
    rw [heq] at htext
    cases htext

theorem hashPayload_marked (record : LedgerRecord) :
    LedgerRecord.hashPayload (markedHash (firstLeafText record)) "p" =
      LedgerRecord.hashPayload (markedHash "") "p" := by
  have hp : (cString "p").toList = ['p'] := by decide
  unfold LedgerRecord.hashPayload
  exact markedHash_start hp (by decide)

/-- The mark is not among the texts that a record hashes. -/
theorem sampleMint_marked (record : LedgerRecord) (sourceId : String) (timestamp : Int) :
    sampleMint (markedHash (firstLeafText record)) sourceId timestamp =
      sampleMint (markedHash "") sourceId timestamp := by
  have hid : ∀ digest, LedgerRecord.computeRecordId (markedHash (firstLeafText record)) .mint sourceId
      digest timestamp = LedgerRecord.computeRecordId (markedHash "") .mint sourceId digest timestamp := by
    intro digest
    unfold LedgerRecord.computeRecordId LedgerRecord.hashPayload
    have hlabel : "LedgerRecordId\x7btype=".toList = 'L' :: "edgerRecordId\x7btype=".toList := by decide
    generalize htext : "LedgerRecordId\x7btype=" ++ LedgerRecordType.mint.text ++ ";sourceId=" ++
      sourceId ++ ";payloadHash=" ++ digest ++ ";timestamp=" ++ toString timestamp ++ "\x7d" = text
    have hsplit : ∃ rest, text.toList = ['L'] ++ rest := by
      rw [← htext]
      simp only [String.toList_append, hlabel, List.cons_append]
      exact ⟨_, rfl⟩
    obtain ⟨rest, hsplit⟩ := hsplit
    have hcut := toList_cString hsplit (by decide)
    rw [List.cons_append, List.nil_append] at hcut
    exact markedHash_start hcut (by decide)
  unfold sampleMint
  rw [hashPayload_marked, hid]

/-- The records that are shown, of which one hides its source behind a NUL. -/
def shownSource (source : String) : LedgerRecord := sampleMint (markedHash "") source 1

def hiddenSource : LedgerRecord :=
  sampleMint (markedHash "") ("s;payloadHash=" ++ LedgerRecord.hashPayload (markedHash "") "p" ++
    ";timestamp=1\x7d\x00") 2

theorem shownSource_read {marked : LedgerRecord} {source : String} (hsource : source ≠ "")
    (hplain : PlainField source) :
    LedgerRecord.deserialize (markedHash (firstLeafText marked)) (shownSource source).serialize =
      some (shownSource source) := by
  have hvalid := @sampleMint_isValid (markedHash (firstLeafText marked)) (markedHash_ne_empty _)
    source 1 hsource (by decide)
  rw [sampleMint_marked marked source 1] at hvalid
  exact LedgerRecord.deserialize_serialize (digestHash_markedHash _).toHexHash hvalid hplain
    (by show PlainField "p"; decide) (by show (1 : Int) < 2 ^ 63; decide)

/-- The NUL cuts the text of the identity behind the fields that are read. -/
theorem cString_hiddenSource {digest : String} (hdigest : '\x00' ∉ digest.toList) :
    cString ("LedgerRecordId\x7btype=" ++ LedgerRecordType.mint.text ++ ";sourceId=" ++
        ("s;payloadHash=" ++ digest ++ ";timestamp=1\x7d\x00") ++ ";payloadHash=" ++ digest ++
        ";timestamp=" ++ toString (2 : Int) ++ "\x7d") =
      cString ("LedgerRecordId\x7btype=" ++ LedgerRecordType.mint.text ++ ";sourceId=" ++ "s" ++
        ";payloadHash=" ++ digest ++ ";timestamp=" ++ toString (1 : Int) ++ "\x7d") := by
  have htoday : ("LedgerRecordId\x7btype=" ++ LedgerRecordType.mint.text ++ ";sourceId=" ++ "s" ++
      ";payloadHash=" ++ digest ++ ";timestamp=" ++ toString (1 : Int) ++ "\x7d").toList =
      "LedgerRecordId\x7btype=MINT;sourceId=s;payloadHash=".toList ++ (digest.toList ++
        ";timestamp=1\x7d".toList) := by
    have hlabels : "LedgerRecordId\x7btype=".toList ++ (LedgerRecordType.mint.text.toList ++
        (";sourceId=".toList ++ ("s".toList ++ ";payloadHash=".toList))) =
        "LedgerRecordId\x7btype=MINT;sourceId=s;payloadHash=".toList ∧
        ";timestamp=".toList ++ ((toString (1 : Int)).toList ++ "\x7d".toList) =
          ";timestamp=1\x7d".toList := by decide
    simp only [String.toList_append, List.append_assoc]
    rw [← hlabels.1, ← hlabels.2]
    simp only [List.append_assoc]
  have hclean : '\x00' ∉ "LedgerRecordId\x7btype=MINT;sourceId=s;payloadHash=".toList ++
      (digest.toList ++ ";timestamp=1\x7d".toList) := by
    have hlabels : '\x00' ∉ "LedgerRecordId\x7btype=MINT;sourceId=s;payloadHash=".toList ∧
        '\x00' ∉ ";timestamp=1\x7d".toList := by decide
    simp only [List.mem_append, hlabels, hdigest, or_self, not_false_eq_true]
  have hshown := hclean
  rw [← htoday] at hshown
  refine String.toList_injective ?_
  rw [cString_eq_self hshown, htoday]
  have hhidden : ("LedgerRecordId\x7btype=" ++ LedgerRecordType.mint.text ++ ";sourceId=" ++
      ("s;payloadHash=" ++ digest ++ ";timestamp=1\x7d\x00") ++ ";payloadHash=" ++ digest ++
      ";timestamp=" ++ toString (2 : Int) ++ "\x7d").toList =
      ("LedgerRecordId\x7btype=MINT;sourceId=s;payloadHash=".toList ++ (digest.toList ++
        ";timestamp=1\x7d".toList)) ++ '\x00' :: (";payloadHash=".toList ++ (digest.toList ++
          (";timestamp=".toList ++ ((toString (2 : Int)).toList ++ "\x7d".toList)))) := by
    have hlabels : "LedgerRecordId\x7btype=".toList ++ (LedgerRecordType.mint.text.toList ++
        (";sourceId=".toList ++ "s;payloadHash=".toList)) =
        "LedgerRecordId\x7btype=MINT;sourceId=s;payloadHash=".toList ∧
        ";timestamp=1\x7d\x00".toList = ";timestamp=1\x7d".toList ++ ['\x00'] := by decide
    simp only [String.toList_append, List.append_assoc]
    rw [← hlabels.1, hlabels.2]
    simp only [List.append_assoc, List.singleton_append]
  rw [toList_cString hhidden hclean, List.takeWhile_cons_of_neg (by decide), List.append_nil]

theorem hiddenSource_id : hiddenSource.id = (shownSource "s").id := by
  have hdigest : '\x00' ∉ (LedgerRecord.hashPayload (markedHash "") "p").toList :=
    (digestHash_markedHash "").not_mem (by decide) _
  unfold hiddenSource shownSource sampleMint
  dsimp only
  generalize LedgerRecord.hashPayload (markedHash "") "p" = digest at hdigest
  unfold LedgerRecord.computeRecordId LedgerRecord.hashPayload
  rw [cString_hiddenSource hdigest]

/-- The record with the hidden source is read as one with the source in front. -/
theorem hiddenSource_read (marked : LedgerRecord) :
    LedgerRecord.deserialize (markedHash (firstLeafText marked)) hiddenSource.serialize =
      some (shownSource "s") := by
  have hvalid := @sampleMint_isValid (markedHash (firstLeafText marked)) (markedHash_ne_empty _)
    "s" 1 (by decide) (by decide)
  rw [sampleMint_marked marked "s" 1] at hvalid
  have hplain : '=' ∉ (LedgerRecord.hashPayload (markedHash "") "p").toList :=
    (digestHash_markedHash "").not_mem (by decide) _
  have hstamp : "1\x7d\x00".toList = ['1', '\x7d', '\x00'] := by decide
  have htimes : (toString (1 : Int)).toList = ['1'] ∧ (toString (2 : Int)).toList = ['2'] := by decide
  let others : ObjectFields :=
    [("payloadHash", LedgerRecord.hashPayload (markedHash "") "p"), ("timestamp", "2")]
  refine @LedgerRecord.deserialize_of_chain _ (digestHash_markedHash _).toHexHash _ "1\x7d\x00" _
    others ('\x00' :: chain ';' (others ++ [("payload", "p")])) '\x7d' hvalid (by decide)
    (by show PlainField "p"; decide) (by show (1 : Int) < 2 ^ 63; decide) (by decide) (Or.inr rfl)
    ?_ ?_ ?_
  · show _ = (toString (1 : Int)).toList ++ _
    rw [hstamp, htimes.1]
    rfl
  · simp only [others, List.forall_mem_cons]
    exact ⟨passes_plain (show '=' ∉ "payloadHash".toList by decide)
        (show ¬ "payload".toList <:+ "payloadHash".toList by decide) hplain,
      passes_plain (show '=' ∉ "timestamp".toList by decide)
        (show ¬ "payload".toList <:+ "timestamp".toList by decide) (by decide), by simp⟩
  · rw [LedgerRecord.toList_serialize_chain, hiddenSource_id]
    have hsource : hiddenSource.sourceId.toList = "s".toList ++ ';' :: ("payloadHash".toList ++
        '=' :: ((LedgerRecord.hashPayload (markedHash "") "p").toList ++
          ';' :: ("timestamp".toList ++ '=' :: "1\x7d\x00".toList))) := by
      have hlabels : "s;payloadHash=".toList = "s".toList ++ ';' :: ("payloadHash".toList ++ ['=']) ∧
          ";timestamp=1\x7d\x00".toList = ';' :: ("timestamp".toList ++ '=' :: "1\x7d\x00".toList) := by
        decide
      unfold hiddenSource sampleMint
      dsimp only
      generalize LedgerRecord.hashPayload (markedHash "") "p" = digest
      simp only [String.toList_append, hlabels, List.append_assoc, List.cons_append, List.nil_append]
    have hfields : hiddenSource.type.text = (shownSource "s").type.text ∧
        hiddenSource.payloadHash = LedgerRecord.hashPayload (markedHash "") "p" ∧
        (shownSource "s").payloadHash = LedgerRecord.hashPayload (markedHash "") "p" ∧
        hiddenSource.timestamp = 2 ∧ hiddenSource.payload = "p" ∧ (shownSource "s").payload = "p" ∧
        (shownSource "s").sourceId = "s" ∧ toString (2 : Int) = "2" :=
      ⟨rfl, rfl, rfl, rfl, rfl, rfl, rfl, by decide⟩
    rw [hfields.1, hfields.2.1, hfields.2.2.1, hfields.2.2.2.1, hfields.2.2.2.2.1,
      hfields.2.2.2.2.2.1, hfields.2.2.2.2.2.2.1, hfields.2.2.2.2.2.2.2]
    simp only [others, chain, hsource, List.append_assoc, List.cons_append, List.nil_append]

/-- A block that has another record than its header shows: the previous hash has the fields. -/
def forgedHeaderBlock : ChainBlock :=
  sampleOneRecordBlock (markedHash (firstLeafText (shownSource "b")))
    ("x;timestamp=1;recordCount=1;recordsMerkleRoot=" ++ SparseMerkleTree.zeroKey ++ ";stateRoot=y")
    (shownSource "a")

def forgedHeaderProof : LightClientTransactionProof :=
  sampleTransactionProof (sampleLightHeader (markedHash (firstLeafText (shownSource "b"))) "x"
    ("y;timestamp=2;recordCount=1;recordsMerkleRoot=" ++
      forgedHeaderBlock.recordsRoot (markedHash (firstLeafText (shownSource "b"))) ++ ";stateRoot=s")
    "r" SparseMerkleTree.zeroKey 1) (shownSource "b") (shownSource "b")

/-- A block whose record has its source behind a NUL. -/
def hiddenSourceBlock : ChainBlock :=
  sampleOneRecordBlock (markedHash (firstLeafText hiddenSource)) "x" hiddenSource

def hiddenSourceProof : LightClientTransactionProof :=
  sampleTransactionProof (sampleLightHeader (markedHash (firstLeafText hiddenSource)) "x" "s" "r"
    SparseMerkleTree.zeroKey 2) hiddenSource (shownSource "s")

/-- A block that shows its record. -/
def shownBlock : ChainBlock :=
  sampleOneRecordBlock (markedHash (firstLeafText (shownSource "b"))) "x" (shownSource "b")

def shownProof : LightClientTransactionProof :=
  sampleTransactionProof (sampleLightHeader (markedHash (firstLeafText (shownSource "b"))) "x" "s" "r"
    SparseMerkleTree.zeroKey 2) (shownSource "b") (shownSource "b")

/-- A header text without NUL is hashed as it stands. -/
theorem hash_sampleOneRecordBlock {hashBytes : String → String} (hhash : HexHash hashBytes)
    {previousHash : String} {record : LedgerRecord} (hnul : '\x00' ∉ previousHash.toList) :
    (sampleOneRecordBlock hashBytes previousHash record).hash =
      hashBytes ((sampleOneRecordBlock hashBytes previousHash record).headerPayload hashBytes) := by
  have hroot : '\x00' ∉ (hashBytes (firstLeafText record)).toList := hhash.not_mem (by decide) _
  have hclean : '\x00' ∉ ((sampleOneRecordBlock hashBytes previousHash record).headerPayload
      hashBytes).toList := by
    have hlabels : '\x00' ∉ "BlockHeader\x7bindex=".toList ∧
        '\x00' ∉ (toString (1 : UInt64).toNat).toList ∧ '\x00' ∉ ";previousHash=".toList ∧
        '\x00' ∉ ";".toList ∧ '\x00' ∉ "timestamp=".toList ∧ '\x00' ∉ (toString (2 : Int)).toList ∧
        '\x00' ∉ ";recordCount=".toList ∧ '\x00' ∉ (toString 1).toList ∧
        '\x00' ∉ ";recordsMerkleRoot=".toList ∧ '\x00' ∉ ";stateRoot=".toList ∧ '\x00' ∉ "s".toList ∧
        '\x00' ∉ ";receiptsRoot=".toList ∧ '\x00' ∉ "r".toList ∧ '\x00' ∉ "\x7d".toList := by
      decide +kernel
    unfold ChainBlock.headerPayload ChainBlock.headerTail
    rw [recordsRoot_one]
    unfold sampleOneRecordBlock
    dsimp only
    rw [List.length_singleton]
    simp only [String.toList_append, List.mem_append, hlabels, hnul, hroot, or_self,
      not_false_eq_true]
  have hsame := cString_eq_self hclean
  show hashBytes (cString ((sampleOneRecordBlock hashBytes previousHash record).headerPayload
    hashBytes)) = _
  rw [hsame]

/-- The fields of a header stand in the previous hash of the block. -/
theorem headerPayload_forged (root own : String) :
    "BlockHeader\x7bindex=" ++ toString (1 : UInt64).toNat ++ ";previousHash=" ++ "x" ++ ";timestamp=" ++
        toString (1 : Int) ++ ";recordCount=" ++ "1" ++ ";recordsMerkleRoot=" ++ root ++ ";stateRoot=" ++
        ("y;timestamp=2;recordCount=1;recordsMerkleRoot=" ++ own ++ ";stateRoot=s") ++
        ";receiptsRoot=" ++ "r" ++ "\x7d" =
      "BlockHeader\x7bindex=" ++ toString (1 : UInt64).toNat ++ ";previousHash=" ++
        ("x;timestamp=1;recordCount=1;recordsMerkleRoot=" ++ root ++ ";stateRoot=y") ++ ";" ++
        ("timestamp=" ++ toString (2 : Int) ++ ";recordCount=" ++ toString 1 ++ ";recordsMerkleRoot=" ++
          own ++ ";stateRoot=" ++ "s" ++ ";receiptsRoot=" ++ "r" ++ "\x7d") := by
  have hlabels : "x;timestamp=1;recordCount=1;recordsMerkleRoot=" =
      "x" ++ (";timestamp=" ++ (toString (1 : Int) ++ (";recordCount=" ++ ("1" ++
        ";recordsMerkleRoot=")))) ∧
      ";stateRoot=y" = ";stateRoot=" ++ "y" ∧ ";stateRoot=s" = ";stateRoot=" ++ "s" ∧
      "y;timestamp=2;recordCount=1;recordsMerkleRoot=" = "y" ++ (";" ++ ("timestamp=" ++
        (toString (2 : Int) ++ (";recordCount=" ++ (toString 1 ++ ";recordsMerkleRoot="))))) := by
    decide +kernel
  rw [hlabels.1, hlabels.2.1, hlabels.2.2.1, hlabels.2.2.2]
  simp only [String.append_assoc]

example : ChainBlock.isCanonicalCommitmentRoot SparseMerkleTree.zeroKey = true := by decide +kernel

/-- The header of a block whose record is the marked one. -/
theorem blockHash_shown {record : LedgerRecord} {previousHash : String}
    (hnul : '\x00' ∉ previousHash.toList) :
    (sampleLightHeader (markedHash (firstLeafText record)) previousHash "s" "r"
      SparseMerkleTree.zeroKey 2).blockHash =
      (sampleOneRecordBlock (markedHash (firstLeafText record)) previousHash record).hash := by
  have hzero : markedHash (firstLeafText record) (firstLeafText record) = SparseMerkleTree.zeroKey := by
    unfold markedHash
    rw [if_pos rfl]
  have hpayload := @ChainBlock.headerPayload_eq (markedHash (firstLeafText record))
    (sampleOneRecordBlock (markedHash (firstLeafText record)) previousHash record)
    (sampleLightHeader (markedHash (firstLeafText record)) previousHash "s" "r"
      SparseMerkleTree.zeroKey 2) rfl rfl rfl rfl rfl
  have hcount : toString (sampleOneRecordBlock (markedHash (firstLeafText record)) previousHash
      record).records.length = "1" := by
    show toString 1 = "1"
    decide
  rw [recordsRoot_one, hzero, hcount] at hpayload
  rw [hash_sampleOneRecordBlock (digestHash_markedHash _).toHexHash hnul, hpayload]
  rfl

theorem length_sample {source : String} {timestamp : Int} (hsource : source.length ≤ 200)
    (htimestamp : (toString timestamp).length ≤ 10) :
    (sampleMint (markedHash "") source timestamp).serialize.length ≤ 4000 :=
  sampleMint_length (length_markedHash_le "") hsource htimestamp

/-- The hypotheses of `shows_of_verifies` hold of a block that shows its record. -/
theorem LightClientTransactionProof.shows_shownBlock : shownProof.Shows quoted shownBlock := by
  have hvalid := @sampleMint_isValid (markedHash (firstLeafText (shownSource "b")))
    (markedHash_ne_empty _) "b" 1 (by decide) (by decide)
  rw [sampleMint_marked] at hvalid
  have hleaf : markedHash (firstLeafText (shownSource "b")) (firstLeafText (shownSource "b")) =
      SparseMerkleTree.zeroKey := by
    unfold markedHash
    rw [if_pos rfl]
  exact LightClientTransactionProof.shows_of_verifies (digestHash_markedHash (firstLeafText (shownSource "b")))
    quoted
    (sampleOneRecordBlock_isBuilt (length_markedHash_le _) (by decide) hvalid rfl (by decide)
      (length_sample (by decide) (by decide)))
    (blockHash_shown (by decide))
    (show ';' ∉ "x".toList by decide) (show '\x00' ∉ "x".toList by decide)
    (fun record hrecord => by
      rw [List.mem_singleton.mp (show record ∈ [shownSource "b"] from hrecord)]
      show '\x00' ∉ "b".toList
      decide)
    (sampleTransactionProof_verifies (markedHash_ne_empty _) (by decide) (by decide) (by decide) hleaf
      (by show "b" ≠ ""; decide) (shownSource_read (by decide) (by decide)))

/-- A digest of the samples starts with a mark or a zero. -/
theorem markedHash_ne {marked text word : String} {c : Char} {rest : List Char}
    (hword : word.toList = c :: rest) (hc : c ≠ 'f' ∧ c ≠ '0') : markedHash marked text ≠ word := by
  intro heq
  rcases toList_markedHash marked text with ⟨-, hx⟩ | hx <;>
    rw [heq, hword] at hx
  · exact hc.2 (List.cons.inj hx).1
  · exact hc.1 (List.cons.inj hx).1

theorem sampleMint_id_ne {source word : String} {timestamp : Int} {c : Char} {rest : List Char}
    (hword : word.toList = c :: rest) (hc : c ≠ 'f' ∧ c ≠ '0') :
    (sampleMint (markedHash "") source timestamp).id ≠ word := by
  unfold sampleMint LedgerRecord.computeRecordId
  dsimp only
  generalize LedgerRecord.hashPayload (markedHash "") "p" = digest
  unfold LedgerRecord.hashPayload
  exact markedHash_ne hword hc

theorem hiddenSource_sourceId : ∃ rest, hiddenSource.sourceId.toList = 's' :: ';' :: rest ∧
    hiddenSource.sourceId.length ≤ 200 := by
  have hlength : (LedgerRecord.hashPayload (markedHash "") "p").length ≤ 7 * 1 + 66 := by
    have hp : (cString "p").length = 1 := by decide
    unfold LedgerRecord.hashPayload
    rw [← hp]
    exact length_markedHash_le _ _
  unfold hiddenSource sampleMint
  dsimp only
  generalize LedgerRecord.hashPayload (markedHash "") "p" = digest at hlength
  have hlabels : "s;payloadHash=".toList = 's' :: ';' :: "payloadHash=".toList ∧
      "s;payloadHash=".length = 14 ∧ ";timestamp=1\x7d\x00".length = 14 := by decide
  refine ⟨"payloadHash=".toList ++ (digest ++ ";timestamp=1\x7d\x00").toList, ?_, ?_⟩
  · simp only [String.toList_append, hlabels, List.append_assoc, List.cons_append]
  · simp only [String.length_append]
    omega

/-- **A header or a NUL can hide the record.** Both blocks are built by the constructor: one has the
fields of another header in its previous hash, one has a record with a NUL in its source. -/
theorem transaction_proof_forged :
    (DigestHash (markedHash (firstLeafText (shownSource "b"))) ∧
      forgedHeaderBlock.IsBuilt (markedHash (firstLeafText (shownSource "b"))) ∧
      forgedHeaderProof.header.blockHash = forgedHeaderBlock.hash ∧
      forgedHeaderProof.verifies (markedHash (firstLeafText (shownSource "b"))) quoted = true ∧
      ¬ forgedHeaderProof.Shows quoted forgedHeaderBlock) ∧
    DigestHash (markedHash (firstLeafText hiddenSource)) ∧
      hiddenSourceBlock.IsBuilt (markedHash (firstLeafText hiddenSource)) ∧
      hiddenSourceProof.header.blockHash = hiddenSourceBlock.hash ∧
      hiddenSourceProof.verifies (markedHash (firstLeafText hiddenSource)) quoted = true ∧
      ¬ hiddenSourceProof.Shows quoted hiddenSourceBlock := by
  have hleaf : ∀ record : LedgerRecord, markedHash (firstLeafText record) (firstLeafText record) =
      SparseMerkleTree.zeroKey := by
    intro record
    unfold markedHash
    rw [if_pos rfl]
  have hvalid : ∀ (marked : LedgerRecord) {source : String} {timestamp : Int}, source ≠ "" →
      0 < timestamp → (sampleMint (markedHash "") source timestamp).isValid
        (markedHash (firstLeafText marked)) = true := by
    intro marked source timestamp hsource hpositive
    rw [← sampleMint_marked marked source timestamp]
    exact sampleMint_isValid (markedHash_ne_empty _) hsource hpositive
  refine ⟨⟨digestHash_markedHash _, ?_, ?_, ?_, ?_⟩, digestHash_markedHash _, ?_, ?_, ?_, ?_⟩
  · refine sampleOneRecordBlock_isBuilt (length_markedHash_le _) (by decide +kernel)
      (hvalid _ (by decide) (by decide)) rfl ?_ (length_sample (by decide) (by decide))
    decide +kernel
  · have hnul : '\x00' ∉ ("x;timestamp=1;recordCount=1;recordsMerkleRoot=" ++
        SparseMerkleTree.zeroKey ++ ";stateRoot=y").toList := by decide +kernel
    have hhash := @hash_sampleOneRecordBlock _
      (digestHash_markedHash (firstLeafText (shownSource "b"))).toHexHash _ (shownSource "a") hnul
    refine Eq.trans ?_ hhash.symm
    exact congrArg (markedHash (firstLeafText (shownSource "b"))) (headerPayload_forged
      SparseMerkleTree.zeroKey (forgedHeaderBlock.recordsRoot
        (markedHash (firstLeafText (shownSource "b")))))
  · exact sampleTransactionProof_verifies (markedHash_ne_empty _) (by decide) (by decide) (by decide)
      (hleaf _) (by show "b" ≠ ""; decide) (shownSource_read (by decide) (by decide))
  · rintro ⟨record, hrecord, -, hid, -⟩
    have hrecord := Option.some.inj (show some (shownSource "a") = some record from hrecord)
    rw [← hrecord] at hid
    rcases hid with hid | hid
    · exact sampleMint_id_ne (show "b".toList = 'b' :: [] by decide) (by decide) hid
    · exact absurd (show "a" = "b" from hid) (by decide)
  · obtain ⟨rest, hsource, hlength⟩ := hiddenSource_sourceId
    refine sampleOneRecordBlock_isBuilt (length_markedHash_le _) (by decide)
      (hvalid _ ?_ (by decide)) rfl (by decide) (length_sample hlength (by decide))
    intro hnone
    rw [show hiddenSource.sourceId = "" from hnone] at hsource
    cases hsource
  · exact blockHash_shown (by decide)
  · exact sampleTransactionProof_verifies (markedHash_ne_empty _) (by decide) (by decide) (by decide)
      (hleaf _) (by show "s" ≠ ""; decide) (hiddenSource_read _)
  · rintro ⟨record, hrecord, -, hid, -⟩
    have hrecord := Option.some.inj (show some hiddenSource = some record from hrecord)
    rw [← hrecord] at hid
    rcases hid with hid | hid
    · exact sampleMint_id_ne (show "s".toList = 's' :: [] by decide) (by decide) hid
    · obtain ⟨rest, hsource, -⟩ := hiddenSource_sourceId
      rw [show hiddenSource.sourceId = "s" from hid] at hsource
      exact absurd (congrArg List.tail hsource) (by
        show ([] : List Char) ≠ ';' :: rest
        exact (List.cons_ne_nil _ _).symm)

/-- An account proof with a balance of a thousand units for the account that has five. -/
def forgedAccountProof : LightClientAccountProof where
  header := sampleLightHeader SampleHash.hash "p" (SampleHash.digest true 256) ""
    SparseMerkleTree.zeroKey 1
  address := "a\x00c"
  accountJson := accountJson quoted ⟨"a\x00c", ⟨1000, by decide⟩, 0⟩
  accountRoot := "root"
  proof := { leafHash := "root", steps := [] }

/-- **A fabricated balance is verified** under the root of the true state. -/
theorem account_proof_forged :
    CollisionFree SampleHash.hash ∧
      StateRootCalculator.calculateProtocolStateRoot SampleHash.hash StateRootCalculator.ownKeyView
        SortedMap.empty = some forgedAccountProof.header.stateRoot ∧
      forgedAccountProof.verifies SampleHash.hash = true ∧
      ¬ forgedAccountProof.Shows quoted StateRootCalculator.ownKeyView := by
  refine ⟨SampleHash.collisionFree, ?_, ?_, ?_⟩
  · have hne : (SampleHash.digest true 256).isEmpty = false := by
      rw [← SampleHash.hash_text]
      simpa using SampleHash.collisionFree.ne_empty _
    unfold StateRootCalculator.calculateProtocolStateRoot
    rw [StateRootCalculator.calculateAccountStateRoot_ownKeyView]
    dsimp only
    rw [hne, if_neg (by decide), if_pos (by decide)]
    rfl
  · obtain ⟨hvalid, hmatches⟩ := @sampleLightHeader_accepted _ SampleHash.collisionFree.ne_empty "p"
      (SampleHash.digest true 256) "" SparseMerkleTree.zeroKey 1 (by decide) (by decide)
      (by decide +kernel) (by decide)
    exact LightClientAccountProof.verifies_forged hvalid hmatches (by decide)
      (LightClientAccountProof.accountJson_ne_empty _)
  · intro hshows
    have hbalance := (hshows ⟨"a\x00c", ⟨1000, by decide⟩, 0⟩ rfl).1
    have haccount : StateRootCalculator.ownKeyView.accountOrDefault "a\x00c" =
        StateRootCalculator.shownAccount := by decide
    rw [show forgedAccountProof.address = "a\x00c" from rfl, haccount] at hbalance
    exact absurd hbalance (by decide)

end Nodo.Model
