import Nodo.Model.Merkle
import Nodo.Lib.Text
import Nodo.Model.Validators

/-!
# Nodo — blocks and the chain

`core/LedgerRecord.cpp`, `core/Block.cpp` and `core/Blockchain.cpp`: what a record, a
block and a chain must satisfy. The hash of a block covers its header, and through it
the hash of the block before. A chain restored from a snapshot starts with a block
whose previous hash is the text `SNAPSHOT`; it is exempt from most checks, so a chain
is known by its hashes only where it goes back to the genesis block.

## Results

* `ChainBlock.previousHash_eq_of_hash_eq` — equal hashes, equal previous hashes.
* `Blockchain.isValid_link` — what a valid chain says about a block and the next one.
* `Blockchain.hash_eq_below` — chains from the genesis block that agree at one height
  agree at every height below.
-/

namespace Nodo.Model

--
-- Records
--

inductive LedgerRecordType
  | mint
  | transaction
  | validationWork
  | validatorScore
  | protectionEpoch
  | genesisReward
  | validatorPenalty
  | slashingEvidence
  deriving DecidableEq

/-- `ledgerRecordTypeToString`. -/
def LedgerRecordType.text : LedgerRecordType → String
  | mint => "MINT"
  | transaction => "TRANSACTION"
  | validationWork => "VALIDATION_WORK"
  | validatorScore => "VALIDATOR_SCORE"
  | protectionEpoch => "PROTECTION_EPOCH"
  | genesisReward => "GENESIS_REWARD"
  | validatorPenalty => "VALIDATOR_PENALTY"
  | slashingEvidence => "SLASHING_EVIDENCE"

structure LedgerRecord where
  id : String
  type : LedgerRecordType
  sourceId : String
  payload : String
  payloadHash : String
  timestamp : Int
  deriving DecidableEq

namespace LedgerRecord

def hashPayload (hashBytes : String → String) (payload : String) : String :=
  hashBytes (cString payload)

def computeRecordId (hashBytes : String → String) (type : LedgerRecordType)
    (sourceId payloadHash : String) (timestamp : Int) : String :=
  hashPayload hashBytes ("LedgerRecordId\x7btype=" ++ type.text ++ ";sourceId=" ++ sourceId ++
    ";payloadHash=" ++ payloadHash ++ ";timestamp=" ++ toString timestamp ++ "\x7d")

def isValid (hashBytes : String → String) (record : LedgerRecord) : Bool :=
  if record.id.isEmpty || record.sourceId.isEmpty || record.payload.isEmpty ||
      record.payloadHash.isEmpty then false
  else if record.timestamp ≤ 0 then false
  else if record.payloadHash != hashPayload hashBytes record.payload then false
  else if record.id != computeRecordId hashBytes record.type record.sourceId record.payloadHash
      record.timestamp then false
  else true

def serialize (record : LedgerRecord) : String :=
  "LedgerRecord\x7bid=" ++ record.id ++ ";type=" ++ record.type.text ++ ";sourceId=" ++
    record.sourceId ++ ";payloadHash=" ++ record.payloadHash ++ ";timestamp=" ++
    toString record.timestamp ++ ";payload=" ++ record.payload ++ "\x7d"

end LedgerRecord

--
-- Blocks
--

/-- `core::Block` with all it holds. -/
structure ChainBlock where
  index : UInt64
  previousHash : String
  hash : String
  records : List LedgerRecord
  timestamp : Int
  stateRoot : String
  receiptsRoot : String
  deriving DecidableEq

namespace ChainBlock

def maxRecords : Nat := 10000

def maxSerializedBytes : Nat := 1048576

def maxRecordPayloadBytes : Nat := 524288

variable (hashBytes : String → String)

def recordsRoot (block : ChainBlock) : String :=
  MerkleTree.buildOrderedRoot hashBytes (block.records.map LedgerRecord.serialize)

def isGenesisBlock (block : ChainBlock) : Bool :=
  block.index == 0 && block.previousHash == "GENESIS"

/-- 64 hexadecimal digits in lower case. -/
def isCanonicalCommitmentRoot (root : String) : Bool :=
  if root.length ≠ 64 then false
  else root.toList.all (fun c => ('0' ≤ c && c ≤ '9') || ('a' ≤ c && c ≤ 'f'))

/-- The fields after the hash of the block before. -/
def headerTail (block : ChainBlock) : String :=
  "timestamp=" ++ toString block.timestamp ++ ";recordCount=" ++ toString block.records.length ++
    ";recordsMerkleRoot=" ++ block.recordsRoot hashBytes ++ ";stateRoot=" ++ block.stateRoot ++
    ";receiptsRoot=" ++ block.receiptsRoot ++ "\x7d"

def headerPayload (block : ChainBlock) : String :=
  "BlockHeader\x7bindex=" ++ toString block.index.toNat ++ ";previousHash=" ++
    block.previousHash ++ ";" ++ block.headerTail hashBytes

def serialize (block : ChainBlock) : String :=
  "Block\x7bindex=" ++ toString block.index.toNat ++ ";previousHash=" ++ block.previousHash ++
    ";hash=" ++ block.hash ++ ";timestamp=" ++ toString block.timestamp ++ ";stateRoot=" ++
    block.stateRoot ++ ";receiptsRoot=" ++ block.receiptsRoot ++ ";recordCount=" ++
    toString block.records.length ++ ";payload=" ++ block.headerPayload hashBytes ++
    ";records=[" ++ String.intercalate "," (block.records.map LedgerRecord.serialize) ++ "]\x7d"

def calculateHash (block : ChainBlock) : String := hashBytes (cString (block.headerPayload hashBytes))

/-- The bytes of the records, or `none` where one of them breaks a limit. -/
def recordBytes : Nat → List LedgerRecord → Option Nat
  | total, [] => some total
  | total, record :: rest =>
    if record.payload.length > maxRecordPayloadBytes then none
    else if record.serialize.length > maxSerializedBytes - total then none
    else recordBytes (total + record.serialize.length) rest

def isWithinResourceLimits (block : ChainBlock) : Bool :=
  if block.records.isEmpty || block.records.length > maxRecords then false
  else
    match recordBytes 0 block.records with
    | none => false
    | some total => total ≤ maxSerializedBytes &&
        (block.serialize hashBytes).length ≤ maxSerializedBytes

def isValid (block : ChainBlock) (requireProtocolCommitments : Bool) : Bool :=
  if block.previousHash.isEmpty then false
  else if block.hash.isEmpty then false
  else if (block.records.isEmpty || !block.isWithinResourceLimits hashBytes) &&
      block.previousHash != "SNAPSHOT" then false
  else if block.timestamp ≤ 0 then false
  else if !block.records.all (LedgerRecord.isValid hashBytes) then false
  else if block.previousHash != "SNAPSHOT" && block.hash != block.calculateHash hashBytes then false
  else if block.index == 0 && block.previousHash != "GENESIS" then false
  else if block.index > 0 && block.previousHash == "GENESIS" then false
  else if requireProtocolCommitments && block.index > 0 && block.previousHash != "SNAPSHOT" then
    isCanonicalCommitmentRoot block.stateRoot && isCanonicalCommitmentRoot block.receiptsRoot
  else true

end ChainBlock

--
-- Chains
--

structure Blockchain where
  blocks : List ChainBlock
  deriving DecidableEq

namespace Blockchain

variable (hashBytes : String → String)

def size (chain : Blockchain) : Nat := chain.blocks.length

def isValidGenesisBlock (block : ChainBlock) : Bool :=
  if !block.isValid hashBytes true then false
  else if !block.isGenesisBlock then false
  else if block.index != 0 then false
  else if block.previousHash != "GENESIS" then false
  else true

/-- The limit of 2 MiB stands beside the one the block checks itself. -/
def isValidNextBlock (previousBlock currentBlock : ChainBlock)
    (requireProtocolCommitments : Bool) : Bool :=
  if (currentBlock.serialize hashBytes).length > 2097152 then false
  else if !previousBlock.isValid hashBytes requireProtocolCommitments then false
  else if !currentBlock.isValid hashBytes requireProtocolCommitments then false
  else if currentBlock.isGenesisBlock then false
  else if previousBlock.index == uint64Max || currentBlock.index != previousBlock.index + 1 then false
  else if currentBlock.previousHash != previousBlock.hash then false
  else if currentBlock.timestamp ≤ previousBlock.timestamp then false
  else true

/-- Every block follows the one before. -/
def linked (requireProtocolCommitments : Bool) : List ChainBlock → Bool
  | [] => true
  | [_] => true
  | previousBlock :: currentBlock :: rest =>
    isValidNextBlock hashBytes previousBlock currentBlock requireProtocolCommitments &&
      linked requireProtocolCommitments (currentBlock :: rest)

def isValid (chain : Blockchain) (requireProtocolCommitments : Bool) : Bool :=
  match chain.blocks with
  | [] => false
  | front :: _ =>
    (front.previousHash == "SNAPSHOT" || isValidGenesisBlock hashBytes front) &&
      linked hashBytes requireProtocolCommitments chain.blocks

end Blockchain

--
-- What a hash commits to
--

/-- `nodo_hash_string` prints hexadecimal digits in lower case; that it has no
collisions is the assumption. -/
structure HexHash (hashBytes : String → String) : Prop where
  injective : Function.Injective hashBytes
  digits : ∀ text, ∀ c ∈ (hashBytes text).toList, ('0' ≤ c ∧ c ≤ '9') ∨ ('a' ≤ c ∧ c ≤ 'f')

namespace HexHash

variable {hashBytes : String → String} (hhash : HexHash hashBytes)

include hhash

theorem not_mem {c : Char} (hc : ¬ (('0' ≤ c ∧ c ≤ '9') ∨ ('a' ≤ c ∧ c ≤ 'f'))) (text : String) :
    c ∉ (hashBytes text).toList :=
  fun hmem => hc (hhash.digits text c hmem)

/-- A digest is not the mark of a snapshot. -/
theorem ne_snapshot (text : String) : hashBytes text ≠ "SNAPSHOT" := by
  intro heq
  have hmem : 'S' ∈ (hashBytes text).toList := by
    rw [heq]
    decide
  exact hhash.not_mem (by decide) text hmem

end HexHash

/-- Up to a text without NUL the C string is the string. -/
theorem toList_cString {x y : List Char} {text : String} (htext : text.toList = x ++ y)
    (hx : '\x00' ∉ x) : (cString text).toList = x ++ y.takeWhile (· != '\x00') := by
  rw [cString, String.toList_ofList, htext]
  exact List.takeWhile_append_of_pos (fun c hc => bne_iff_ne.mpr (fun h => hx (h ▸ hc)))

namespace ChainBlock

variable {hashBytes : String → String}

/-- The header up to the hash of the block before. -/
theorem toList_headerPayload (block : ChainBlock) :
    (block.headerPayload hashBytes).toList =
      ("BlockHeader\x7bindex=".toList ++ ((toString block.index.toNat).toList ++
        ';' :: ("previousHash=".toList ++ (block.previousHash.toList ++ [';'])))) ++
        (block.headerTail hashBytes).toList := by
  have hlabel : ";previousHash=".toList = ';' :: "previousHash=".toList ∧ ";".toList = [';'] := by
    decide
  unfold headerPayload
  simp only [String.toList_append, hlabel.1, hlabel.2, List.append_assoc, List.cons_append]

/-- **Equal hashes, equal previous hashes**, where both previous hashes are digests. -/
theorem previousHash_eq_of_hash_eq (hhash : HexHash hashBytes) {block block' : ChainBlock}
    {text text' : String} (hprevious : block.previousHash = hashBytes text)
    (hprevious' : block'.previousHash = hashBytes text')
    (h : block.calculateHash hashBytes = block'.calculateHash hashBytes) :
    block.previousHash = block'.previousHash := by
  have hdigits : ∀ n : Nat, ';' ∉ (toString n).toList := fun n => Text.not_mem_toString rfl
  have hnul : ∀ (block : ChainBlock) {text : String}, block.previousHash = hashBytes text →
      '\x00' ∉ "BlockHeader\x7bindex=".toList ++ ((toString block.index.toNat).toList ++
        ';' :: ("previousHash=".toList ++ (block.previousHash.toList ++ [';']))) := by
    intro block text hprevious hmem
    have hfirst : '\x00' ∉ "BlockHeader\x7bindex=".toList := by decide
    have hsecond : '\x00' ∉ "previousHash=".toList := by decide
    have hnumber : '\x00' ∉ (toString block.index.toNat).toList := Text.not_mem_toString rfl
    have hdigest : '\x00' ∉ block.previousHash.toList := hprevious ▸ hhash.not_mem (by decide) text
    simp only [List.mem_append, List.mem_cons, hfirst, hsecond, hnumber, hdigest, false_or] at hmem
    revert hmem
    decide
  have hlist := congrArg String.toList (hhash.injective h)
  rw [toList_cString (toList_headerPayload block) (hnul block hprevious),
    toList_cString (toList_headerPayload block') (hnul block' hprevious')] at hlist
  simp only [List.append_assoc, List.cons_append] at hlist
  obtain ⟨-, hlist⟩ := Text.append_delimiter_inj (hdigits _) (hdigits _)
    (List.append_cancel_left hlist)
  have hsemicolon : ';' ∉ block.previousHash.toList := hprevious ▸ hhash.not_mem (by decide) text
  have hsemicolon' : ';' ∉ block'.previousHash.toList :=
    hprevious' ▸ hhash.not_mem (by decide) text'
  obtain ⟨hsame, -⟩ := Text.append_delimiter_inj hsemicolon hsemicolon'
    (List.append_cancel_left hlist)
  exact String.toList_injective hsame

/-- What the hash of a block is taken of. -/
theorem toList_cString_headerPayload (block : ChainBlock) :
    (cString (block.headerPayload hashBytes)).toList =
      "BlockHeader\x7bindex=".toList ++ ((toString block.index.toNat).toList ++
        ';' :: ("previousHash=".toList ++
          (block.previousHash.toList ++ ';' :: (block.headerTail hashBytes).toList).takeWhile
            (· != '\x00'))) := by
  have hpayload : (block.headerPayload hashBytes).toList =
      ("BlockHeader\x7bindex=".toList ++
        ((toString block.index.toNat).toList ++ ';' :: "previousHash=".toList)) ++
        (block.previousHash.toList ++ ';' :: (block.headerTail hashBytes).toList) := by
    rw [toList_headerPayload]
    simp only [List.append_assoc, List.cons_append, List.nil_append]
  have hnul : '\x00' ∉ "BlockHeader\x7bindex=".toList ++
      ((toString block.index.toNat).toList ++ ';' :: "previousHash=".toList) := by
    intro hmem
    have hfirst : '\x00' ∉ "BlockHeader\x7bindex=".toList := by decide
    have hsecond : '\x00' ∉ "previousHash=".toList := by decide
    have hnumber : '\x00' ∉ (toString block.index.toNat).toList := Text.not_mem_toString rfl
    simp only [List.mem_append, List.mem_cons, hfirst, hsecond, hnumber, or_false, false_or] at hmem
    revert hmem
    decide
  rw [toList_cString hpayload hnul]
  simp only [List.append_assoc, List.cons_append]

/-- Equal hashes: one index, and the same behind it up to a NUL. -/
theorem header_eq_of_hash_eq (hhash : HexHash hashBytes) {block block' : ChainBlock}
    (h : block.calculateHash hashBytes = block'.calculateHash hashBytes) :
    block.index = block'.index
      ∧ (block.previousHash.toList ++ ';' :: (block.headerTail hashBytes).toList).takeWhile
          (· != '\x00')
        = (block'.previousHash.toList ++ ';' :: (block'.headerTail hashBytes).toList).takeWhile
          (· != '\x00') := by
  have hlist := congrArg String.toList (hhash.injective h)
  rw [toList_cString_headerPayload, toList_cString_headerPayload] at hlist
  have hdigits : ∀ n : Nat, ';' ∉ (toString n).toList := fun n => Text.not_mem_toString rfl
  obtain ⟨hindex, hlist⟩ := Text.append_delimiter_inj (hdigits _) (hdigits _)
    (List.append_cancel_left hlist)
  exact ⟨UInt64.toNat_inj.mp (Text.toString_nat_inj (String.toList_injective hindex)),
    List.append_cancel_left hlist⟩

/-- The checks of a block that fork choice rests on. -/
theorem of_isValid {block : ChainBlock} {requireProtocolCommitments : Bool}
    (h : block.isValid hashBytes requireProtocolCommitments = true) :
    (block.previousHash ≠ "SNAPSHOT" → block.hash = block.calculateHash hashBytes) ∧
      (block.index = 0 → block.previousHash = "GENESIS") := by
  unfold isValid at h
  obtain ⟨-, h⟩ := Guards.true_of_ite_false h
  obtain ⟨-, h⟩ := Guards.true_of_ite_false h
  obtain ⟨-, h⟩ := Guards.true_of_ite_false h
  obtain ⟨-, h⟩ := Guards.true_of_ite_false h
  obtain ⟨-, h⟩ := Guards.true_of_ite_false h
  obtain ⟨hhash, h⟩ := Guards.true_of_ite_false h
  obtain ⟨hgenesis, -⟩ := Guards.true_of_ite_false h
  simp only [Bool.and_eq_true, bne_iff_ne, beq_iff_eq, ne_eq, not_and, not_not] at hhash hgenesis
  exact ⟨hhash, hgenesis⟩

end ChainBlock

namespace Blockchain

variable {hashBytes : String → String}

/-- What holds between a block of a valid chain and the next one. -/
theorem of_isValidNextBlock {previousBlock currentBlock : ChainBlock}
    {requireProtocolCommitments : Bool}
    (h : isValidNextBlock hashBytes previousBlock currentBlock requireProtocolCommitments = true) :
    previousBlock.isValid hashBytes requireProtocolCommitments = true ∧
      currentBlock.isValid hashBytes requireProtocolCommitments = true ∧
      currentBlock.index.toNat = previousBlock.index.toNat + 1 ∧
      currentBlock.previousHash = previousBlock.hash := by
  unfold isValidNextBlock at h
  obtain ⟨-, h⟩ := Guards.true_of_ite_false h
  obtain ⟨hprevious, h⟩ := Guards.true_of_ite_false h
  obtain ⟨hcurrent, h⟩ := Guards.true_of_ite_false h
  obtain ⟨-, h⟩ := Guards.true_of_ite_false h
  obtain ⟨hindex, h⟩ := Guards.true_of_ite_false h
  obtain ⟨hlink, -⟩ := Guards.true_of_ite_false h
  simp only [Bool.or_eq_true, bne_iff_ne, beq_iff_eq, ne_eq, not_or, not_not] at hindex hlink
  refine ⟨by simpa using hprevious, by simpa using hcurrent, ?_, hlink⟩
  rw [hindex.2, toNat_succ hindex.1]

theorem linked_cons {requireProtocolCommitments : Bool} {a b : ChainBlock} {rest : List ChainBlock} :
    linked hashBytes requireProtocolCommitments (a :: b :: rest) = true ↔
      isValidNextBlock hashBytes a b requireProtocolCommitments = true ∧
        linked hashBytes requireProtocolCommitments (b :: rest) = true := by
  rw [linked, Bool.and_eq_true]

theorem linked_get {requireProtocolCommitments : Bool} {blocks : List ChainBlock}
    (h : linked hashBytes requireProtocolCommitments blocks = true) {i : Nat}
    {previousBlock currentBlock : ChainBlock} (hprevious : blocks[i]? = some previousBlock)
    (hcurrent : blocks[i + 1]? = some currentBlock) :
    isValidNextBlock hashBytes previousBlock currentBlock requireProtocolCommitments = true := by
  induction i generalizing blocks with
  | zero =>
    cases blocks with
    | nil => cases hprevious
    | cons a tail =>
      cases tail with
      | nil => cases hcurrent
      | cons b rest =>
        rw [List.getElem?_cons_zero, Option.some.injEq] at hprevious
        rw [List.getElem?_cons_succ, List.getElem?_cons_zero, Option.some.injEq] at hcurrent
        rw [← hprevious, ← hcurrent]
        exact (linked_cons.mp h).1
  | succ i ih =>
    cases blocks with
    | nil => cases hprevious
    | cons a tail =>
      cases tail with
      | nil => cases hprevious
      | cons b rest =>
        rw [List.getElem?_cons_succ] at hprevious hcurrent
        exact ih (linked_cons.mp h).2 hprevious hcurrent

/-- What a valid chain says about a block and the next one. -/
theorem isValid_link {chain : Blockchain} {requireProtocolCommitments : Bool}
    (h : chain.isValid hashBytes requireProtocolCommitments = true) {i : Nat}
    {previousBlock currentBlock : ChainBlock} (hprevious : chain.blocks[i]? = some previousBlock)
    (hcurrent : chain.blocks[i + 1]? = some currentBlock) :
    isValidNextBlock hashBytes previousBlock currentBlock requireProtocolCommitments = true := by
  unfold isValid at h
  cases hblocks : chain.blocks with
  | nil =>
    rw [hblocks] at hprevious
    cases hprevious
  | cons front rest =>
    rw [hblocks] at h hprevious hcurrent
    exact linked_get (Bool.and_eq_true_iff.mp h).2 hprevious hcurrent

/-- The indices count up from that of the first block. -/
theorem index_of_isValid {chain : Blockchain} {requireProtocolCommitments : Bool}
    (h : chain.isValid hashBytes requireProtocolCommitments = true) {front : ChainBlock}
    (hfront : chain.blocks[0]? = some front) {i : Nat} {block : ChainBlock}
    (hblock : chain.blocks[i]? = some block) : block.index.toNat = front.index.toNat + i := by
  induction i generalizing block with
  | zero =>
    rw [Option.some.inj (hblock.symm.trans hfront)]
    rfl
  | succ i ih =>
    have hlt : i < chain.blocks.length := Nat.lt_of_succ_lt (List.getElem?_eq_some_iff.mp hblock).1
    have hbefore : chain.blocks[i]? = some (chain.blocks[i]) := List.getElem?_eq_getElem hlt
    rw [(of_isValidNextBlock (isValid_link h hbefore hblock)).2.2.1, ih hbefore]
    omega

/-- In a chain of several blocks from index zero every block carries its own hash. -/
theorem hash_eq_calculateHash (hhash : HexHash hashBytes) {chain : Blockchain}
    {requireProtocolCommitments : Bool}
    (h : chain.isValid hashBytes requireProtocolCommitments = true) {front : ChainBlock}
    (hfront : chain.blocks[0]? = some front) (hzero : front.index = 0) (hsize : 1 < chain.size)
    {i : Nat} {block : ChainBlock} (hblock : chain.blocks[i]? = some block) :
    block.hash = block.calculateHash hashBytes := by
  induction i generalizing block with
  | zero =>
    obtain rfl := Option.some.inj (hblock.symm.trans hfront)
    -- the block after it makes the chain check the first one too
    have hnext : chain.blocks[1]? = some (chain.blocks[1]) := List.getElem?_eq_getElem hsize
    obtain ⟨hvalid, -⟩ := of_isValidNextBlock (isValid_link h hblock hnext)
    obtain ⟨hown, hgenesis⟩ := ChainBlock.of_isValid hvalid
    refine hown ?_
    rw [hgenesis hzero]
    decide
  | succ i ih =>
    have hlt : i < chain.blocks.length := Nat.lt_of_succ_lt (List.getElem?_eq_some_iff.mp hblock).1
    have hbefore : chain.blocks[i]? = some (chain.blocks[i]) := List.getElem?_eq_getElem hlt
    obtain ⟨-, hvalid, -, hlink⟩ := of_isValidNextBlock (isValid_link h hbefore hblock)
    refine (ChainBlock.of_isValid hvalid).1 ?_
    rw [hlink, ih hbefore]
    exact hhash.ne_snapshot _

/-- A valid chain of several blocks whose first has index zero. -/
structure FromGenesis (hashBytes : String → String) (chain : Blockchain) : Prop where
  valid : chain.isValid hashBytes false = true
  index : ∀ front, chain.blocks[0]? = some front → front.index = 0
  size : 1 < chain.size

/-- A block of such a chain carries its own hash and its place. -/
theorem FromGenesis.own (hhash : HexHash hashBytes) {chain : Blockchain}
    (h : FromGenesis hashBytes chain) {i : Nat} {block : ChainBlock}
    (hblock : chain.blocks[i]? = some block) :
    block.hash = block.calculateHash hashBytes ∧ block.index.toNat = i := by
  have hpos : 0 < chain.blocks.length := Nat.lt_trans Nat.zero_lt_one h.size
  have hfront : chain.blocks[0]? = some (chain.blocks[0]) := List.getElem?_eq_getElem hpos
  have hzero := h.index _ hfront
  refine ⟨hash_eq_calculateHash hhash h.valid hfront hzero h.size hblock, ?_⟩
  rw [index_of_isValid h.valid hfront hblock, hzero]
  exact Nat.zero_add i

/-- **Agreement below.** Chains from the genesis block with the same hash at one height
have the same hashes at every height below. -/
theorem hash_eq_below (hhash : HexHash hashBytes) {chain chain' : Blockchain}
    (h : FromGenesis hashBytes chain) (h' : FromGenesis hashBytes chain') {k : Nat}
    {block block' : ChainBlock} (hblock : chain.blocks[k]? = some block)
    (hblock' : chain'.blocks[k]? = some block') (hsame : block.hash = block'.hash) {i : Nat}
    (hi : i ≤ k) :
    ∃ b b', chain.blocks[i]? = some b ∧ chain'.blocks[i]? = some b' ∧ b.hash = b'.hash := by
  induction k generalizing block block' with
  | zero =>
    obtain rfl := Nat.le_zero.mp hi
    exact ⟨block, block', hblock, hblock', hsame⟩
  | succ k ih =>
    rcases Nat.lt_or_eq_of_le hi with hlt | rfl
    · have hbelow : ∀ {chain : Blockchain} {b : ChainBlock}, chain.blocks[k + 1]? = some b →
          ∃ c, chain.blocks[k]? = some c := fun hb =>
        ⟨_, List.getElem?_eq_getElem (Nat.lt_of_succ_lt (List.getElem?_eq_some_iff.mp hb).1)⟩
      obtain ⟨before, hbefore⟩ := hbelow hblock
      obtain ⟨before', hbefore'⟩ := hbelow hblock'
      obtain ⟨-, -, -, hlink⟩ := of_isValidNextBlock (isValid_link h.valid hbefore hblock)
      obtain ⟨-, -, -, hlink'⟩ := of_isValidNextBlock (isValid_link h'.valid hbefore' hblock')
      have hcalculated : block.calculateHash hashBytes = block'.calculateHash hashBytes := by
        rw [← (h.own hhash hblock).1, ← (h'.own hhash hblock').1, hsame]
      have hprevious := ChainBlock.previousHash_eq_of_hash_eq hhash
        (hlink.trans (h.own hhash hbefore).1) (hlink'.trans (h'.own hhash hbefore').1) hcalculated
      rw [hlink, hlink'] at hprevious
      exact ih hbefore hbefore' hprevious (Nat.le_of_lt_succ hlt)
    · exact ⟨block, block', hblock, hblock', hsame⟩

end Blockchain

end Nodo.Model
