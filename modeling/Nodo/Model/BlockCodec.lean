import Nodo.Lib.FieldSearch
import Nodo.Model.Blockchain
import Nodo.Model.TransactionCodec

/-!
# Nodo — reading blocks

`deserialize` of `core/LedgerRecord.cpp` and `core/Block.cpp`. A field is searched by its name
anywhere in the text and ends at a delimiter outside of brackets. What makes the reading of a block
safe stands at its end: the block is built anew and must have the hash, the header and the text
that were read.

## Results

* `ChainBlock.deserialize_spec` — what is read has the hash of its header and is printed as the text.
* `ChainBlock.same_header` — two blocks that were read with one hash have one index, and one
  previous hash where that of the first is a digest.
-/

namespace Nodo.Model

--
-- Fields and numbers
--

/-- The value behind the name of a field; the number is the depth of the brackets. -/
def fieldValue : Nat → List Char → List Char
  | _, [] => []
  | depth, c :: rest =>
    if c == '{' || c == '[' then c :: fieldValue (depth + 1) rest
    else if c == '}' || c == ']' then
      if depth == 0 then [] else c :: fieldValue (depth - 1) rest
    else if c == ';' && depth == 0 then []
    else c :: fieldValue depth rest

/-- `extractLedgerField`, and `extractField` in `Block::deserialize`. -/
def extractNestedField (text key : String) : String :=
  match FieldSearch.after? (key ++ "=").toList text.toList with
  | none => ""
  | some rest => String.ofList (fieldValue 0 rest)

/-- `std::stoull` of a text that must be read to its end. -/
def stoullWhole (text : String) : Option Nat :=
  let trimmed := text.toList.dropWhile fun c => [' ', '\t', '\n', '\x0b', '\x0c', '\r'].contains c
  if (splitSign trimmed).2.all Char.isDigit then stoull text else none

--
-- Records
--

/-- `ledgerRecordTypeFromString`; `none` where it throws. -/
def ledgerRecordTypeFromString (value : String) : Option LedgerRecordType :=
  if value == "MINT" then some .mint
  else if value == "TRANSACTION" then some .transaction
  else if value == "VALIDATION_WORK" then some .validationWork
  else if value == "VALIDATOR_SCORE" then some .validatorScore
  else if value == "PROTECTION_EPOCH" then some .protectionEpoch
  else if value == "GENESIS_REWARD" then some .genesisReward
  else if value == "VALIDATOR_PENALTY" then some .validatorPenalty
  else if value == "SLASHING_EVIDENCE" then some .slashingEvidence
  else none

namespace LedgerRecord

/-- What follows the digits of the timestamp is not looked at. -/
def deserialize (hashBytes : String → String) (text : String) : Option LedgerRecord :=
  if !"LedgerRecord\x7b".toList.isPrefixOf text.toList then none
  else
    let id := extractNestedField text "id"
    let typeText := extractNestedField text "type"
    let timestampText := extractNestedField text "timestamp"
    if id.isEmpty || typeText.isEmpty || timestampText.isEmpty then none
    else
      match stoll timestampText.toList, ledgerRecordTypeFromString typeText with
      | some (timestamp, _), some type =>
        if timestamp ≤ 0 then none
        else
          let record : LedgerRecord :=
            { id, type, timestamp
              sourceId := extractNestedField text "sourceId"
              payload := extractNestedField text "payload"
              payloadHash := extractNestedField text "payloadHash" }
          if record.isValid hashBytes then some record else none
      | _, _ => none

end LedgerRecord

--
-- Blocks
--

namespace ChainBlock

variable (hashBytes : String → String)

/-- `Block(index, previousHash, records, timestamp, stateRoot, receiptsRoot)`; `none` where it
throws. -/
def build (index : UInt64) (previousHash : String) (records : List LedgerRecord) (timestamp : Int)
    (stateRoot receiptsRoot : String) : Option ChainBlock :=
  if previousHash.isEmpty then none
  else if (records.isEmpty || records.length > maxRecords) && previousHash != "SNAPSHOT" then none
  else if timestamp ≤ 0 then none
  else if !records.all (fun record =>
      record.isValid hashBytes && record.payload.length ≤ maxRecordPayloadBytes) then none
  else
    let unhashed : ChainBlock :=
      { index, previousHash, records, timestamp, stateRoot, receiptsRoot, hash := "" }
    let block := { unhashed with hash := unhashed.calculateHash hashBytes }
    if !block.isWithinResourceLimits hashBytes && previousHash != "SNAPSHOT" then none
    else some block

/-- An object up to its closing brace, and the text behind it. -/
def objectEnd : Nat → List Char → Option (List Char × List Char)
  | _, [] => none
  | depth, c :: rest =>
    if c == '}' && depth == 1 then some ([c], rest)
    else
      let depth := if c == '{' then depth + 1 else if c == '}' then depth - 1 else depth
      (objectEnd depth rest).map fun (object, behind) => (c :: object, behind)

theorem length_objectEnd {depth : Nat} {text object behind : List Char}
    (h : objectEnd depth text = some (object, behind)) : behind.length < text.length := by
  induction text generalizing depth object with
  | nil => cases h
  | cons c rest ih =>
    rw [objectEnd] at h
    by_cases hend : (c == '}' && depth == 1) = true
    · rw [if_pos hend] at h
      cases h
      exact Nat.lt_succ_self _
    · rw [if_neg hend] at h
      obtain ⟨⟨object', behind'⟩, hrest, hpair⟩ := Option.map_eq_some_iff.mp h
      cases hpair
      exact Nat.lt_succ_of_lt (ih hrest)

/-- The records between the brackets, with commas and blanks before each. -/
def readRecords (text : List Char) : Option (List LedgerRecord) :=
  match htext : text.dropWhile fun c => c == ',' || c == ' ' with
  | [] => some []
  | c :: rest =>
    if !"LedgerRecord\x7b".toList.isPrefixOf (c :: rest) then none
    else
      match hobject : objectEnd 0 (c :: rest) with
      | none => none
      | some (object, behind) =>
        match LedgerRecord.deserialize hashBytes (String.ofList object) with
        | none => none
        | some record => (readRecords behind).map (record :: ·)
termination_by text.length
decreasing_by
  have hbehind := length_objectEnd hobject
  have hdrop := (List.dropWhile_suffix (fun c => c == ',' || c == ' ') (l := text)).length_le
  rw [htext] at hdrop
  omega

/-- The fields of a text with the header that it shows. -/
structure BlockText where
  index : UInt64
  previousHash : String
  hash : String
  timestamp : Int
  stateRoot : String
  receiptsRoot : String
  recordCount : Nat
  payload : String

def readFields (text : String) : Option BlockText :=
  let indexText := extractNestedField text "index"
  let previousHash := extractNestedField text "previousHash"
  let hash := extractNestedField text "hash"
  let timestampText := extractNestedField text "timestamp"
  let recordCountText := extractNestedField text "recordCount"
  let payload := extractNestedField text "payload"
  if indexText.isEmpty || previousHash.isEmpty || hash.isEmpty || timestampText.isEmpty
      || recordCountText.isEmpty || payload.isEmpty then none
  else
    match stoullWhole indexText, stoll timestampText.toList, stoullWhole recordCountText with
    | some index, some (timestamp, []), some recordCount =>
      if recordCount == 0 || recordCount > maxRecords then none
      else if !"BlockHeader\x7b".toList.isPrefixOf payload.toList
          || payload.toList.getLast? != some '}' then none
      else
        some { previousHash, hash, timestamp, recordCount, payload
               index := index.toUInt64
               stateRoot := extractNestedField text "stateRoot"
               receiptsRoot := extractNestedField text "receiptsRoot" }
    | _, _, _ => none

/-- The text between `;records=[` and the closing `]}`. -/
def recordsText (text : String) : Option (List Char) :=
  match FieldSearch.after? ";records=[".toList text.toList with
  | none => none
  | some behind =>
    if behind.length < 2 || !"]\x7d".toList.isSuffixOf behind then none
    else some (behind.take (behind.length - 2))

def deserialize (text : String) : Option ChainBlock := do
  if text.length > maxSerializedBytes || !"Block\x7b".toList.isPrefixOf text.toList
      || text.length < 8 || text.toList.getLast? != some '}' then none
  else
    let fields ← readFields text
    let between ← recordsText text
    let records ← readRecords hashBytes between
    if records.isEmpty || records.length != fields.recordCount then none
    else
      let block ← build hashBytes fields.index fields.previousHash records fields.timestamp
        fields.stateRoot fields.receiptsRoot
      if block.hash != fields.hash || block.headerPayload hashBytes != fields.payload
          || block.serialize hashBytes != text then none
      else some block

end ChainBlock

--
-- What was read
--

/-- No field begins with the delimiter that ends it. -/
theorem fieldValue_ne_semicolon {text rest : List Char} : fieldValue 0 text ≠ ';' :: rest := by
  intro h
  cases text with
  | nil => cases h
  | cons c text =>
    rw [fieldValue] at h
    split at h
    next hopen =>
      cases (List.cons.inj h).1
      exact absurd hopen (by decide)
    next =>
      split at h
      next hclose =>
        rw [if_pos (by decide)] at h
        cases h
      next =>
        split at h
        next => cases h
        next hend =>
          cases (List.cons.inj h).1
          exact hend (by decide)

/-- A character outside of brackets does not change the depth. -/
theorem fieldValue_of_cons {text rest : List Char} {c : Char} (hc : c ∉ ['{', '[', '}', ']'])
    (h : fieldValue 0 text = c :: rest) : ∃ behind, fieldValue 0 behind = rest := by
  cases text with
  | nil => cases h
  | cons c' text =>
    rw [fieldValue] at h
    split at h
    next hopen =>
      cases (List.cons.inj h).1
      simp only [Bool.or_eq_true, beq_iff_eq] at hopen
      rcases hopen with rfl | rfl <;> exact absurd hc (by decide)
    next =>
      split at h
      next =>
        rw [if_pos (by decide)] at h
        cases h
      next =>
        split at h
        next => cases h
        next => exact ⟨text, (List.cons.inj h).2⟩

/-- A field that is followed by its delimiter is cut in one way, where it has no brackets. -/
theorem fieldValue_eq_of_prefix {value text behind : List Char}
    (hvalue : ∀ c ∈ value, c ∉ ['{', '[', '}', ']', ';'])
    (h : value ++ [';'] <+: fieldValue 0 text ++ ';' :: behind) : fieldValue 0 text = value := by
  induction value generalizing text with
  | nil =>
    cases hfield : fieldValue 0 text with
    | nil => rfl
    | cons c rest =>
      rw [hfield, List.nil_append, List.cons_append, List.cons_prefix_cons] at h
      rw [← h.1] at hfield
      exact absurd hfield fieldValue_ne_semicolon
  | cons c value ih =>
    have hc := hvalue c List.mem_cons_self
    cases hfield : fieldValue 0 text with
    | nil =>
      rw [hfield, List.nil_append, List.cons_append, List.cons_prefix_cons] at h
      rw [h.1] at hc
      exact absurd hc (by decide)
    | cons c' rest =>
      rw [hfield, List.cons_append, List.cons_append, List.cons_prefix_cons] at h
      obtain ⟨rfl, h⟩ := h
      obtain ⟨behind', hrest⟩ := fieldValue_of_cons
        (fun hmem => hc (by simp only [List.mem_cons, List.not_mem_nil, or_false] at hmem ⊢; tauto))
        hfield
      rw [← hrest] at h
      rw [← hrest, ih (fun d hd => hvalue d (List.mem_cons_of_mem _ hd)) h]

theorem toList_extractNestedField (text key : String) :
    ∃ behind, (extractNestedField text key).toList = fieldValue 0 behind := by
  unfold extractNestedField
  cases FieldSearch.after? (key ++ "=").toList text.toList with
  | none => exact ⟨[], rfl⟩
  | some behind => exact ⟨behind, String.toList_ofList⟩

namespace ChainBlock

variable {hashBytes : String → String}

theorem build_spec {index : UInt64} {previousHash stateRoot receiptsRoot : String}
    {records : List LedgerRecord} {timestamp : Int} {block : ChainBlock}
    (h : build hashBytes index previousHash records timestamp stateRoot receiptsRoot = some block) :
    block.hash = block.calculateHash hashBytes ∧ block.previousHash = previousHash := by
  unfold build at h
  obtain ⟨-, h⟩ := Guards.some_of_ite_none h
  obtain ⟨-, h⟩ := Guards.some_of_ite_none h
  obtain ⟨-, h⟩ := Guards.some_of_ite_none h
  obtain ⟨-, h⟩ := Guards.some_of_ite_none h
  obtain ⟨-, h⟩ := Guards.some_of_ite_none h
  obtain rfl := Option.some.inj h
  exact ⟨rfl, rfl⟩

/-- **What is read** has the hash of its header and is printed as the text. -/
theorem deserialize_spec {text : String} {block : ChainBlock}
    (h : deserialize hashBytes text = some block) :
    block.hash = block.calculateHash hashBytes ∧ block.serialize hashBytes = text ∧
      block.previousHash = extractNestedField text "previousHash" := by
  unfold deserialize at h
  obtain ⟨-, h⟩ := Guards.some_of_ite_none h
  obtain ⟨fields, hfields, h⟩ := Option.bind_eq_some_iff.mp h
  obtain ⟨between, -, h⟩ := Option.bind_eq_some_iff.mp h
  obtain ⟨records, -, h⟩ := Option.bind_eq_some_iff.mp h
  obtain ⟨-, h⟩ := Guards.some_of_ite_none h
  obtain ⟨built, hbuilt, h⟩ := Option.bind_eq_some_iff.mp h
  obtain ⟨hchecks, h⟩ := Guards.some_of_ite_none h
  obtain rfl := Option.some.inj h
  simp only [Bool.or_eq_true, bne_iff_ne, ne_eq, not_or, not_not] at hchecks
  obtain ⟨hhash, hprevious⟩ := build_spec hbuilt
  refine ⟨hhash, hchecks.2, ?_⟩
  rw [hprevious]
  unfold readFields at hfields
  obtain ⟨-, hfields⟩ := Guards.some_of_ite_none hfields
  split at hfields
  next =>
    obtain ⟨-, hfields⟩ := Guards.some_of_ite_none hfields
    obtain ⟨-, hfields⟩ := Guards.some_of_ite_none hfields
    obtain rfl := Option.some.inj hfields
    rfl
  next => cases hfields

/-- **Two blocks that were read with one hash** have one index, and one previous hash where that of
the first is a digest. -/
theorem same_header (hhash : HexHash hashBytes) {text text' : String} {block block' : ChainBlock}
    (hread : deserialize hashBytes text = some block)
    (hread' : deserialize hashBytes text' = some block') (hsame : block.hash = block'.hash) :
    block'.index = block.index ∧ ∀ digested, block.previousHash = hashBytes digested →
      block'.previousHash = block.previousHash := by
  obtain ⟨hhashed, -⟩ := deserialize_spec hread
  obtain ⟨hhashed', -, hfield⟩ := deserialize_spec hread'
  rw [hhashed, hhashed'] at hsame
  obtain ⟨hindex, hlist⟩ := header_eq_of_hash_eq hhash hsame
  refine ⟨hindex.symm, ?_⟩
  intro digested hprevious
  have hdigest : ∀ c ∈ block.previousHash.toList, c ∉ ['\x00', '{', '[', '}', ']', ';'] := by
    intro c hc hmem
    rw [hprevious] at hc
    refine hhash.not_mem ?_ digested hc
    simp only [List.mem_cons, List.not_mem_nil, or_false] at hmem
    rcases hmem with rfl | rfl | rfl | rfl | rfl | rfl <;> decide
  have hshown : block.previousHash.toList ++ [';'] <+:
      block'.previousHash.toList ++ ';' :: (block'.headerTail hashBytes).toList := by
    refine List.IsPrefix.trans ?_ (List.takeWhile_prefix (· != '\x00'))
    rw [← hlist, List.takeWhile_append_of_pos
      (fun c hc => bne_iff_ne.mpr fun hzero => hdigest c hc (by rw [hzero]; decide)),
      List.takeWhile_cons_of_pos (by decide)]
    exact ⟨_, by rw [List.append_assoc]; rfl⟩
  -- The previous hash of the second block is a field of its text.
  obtain ⟨behind, hvalue⟩ := toList_extractNestedField text' "previousHash"
  rw [← hfield] at hvalue
  rw [hvalue] at hshown
  have hcut := fieldValue_eq_of_prefix
    (fun c hc hmem => hdigest c hc (List.mem_cons_of_mem _ hmem)) hshown
  exact String.toList_injective (hvalue.trans hcut)

end ChainBlock

end Nodo.Model
