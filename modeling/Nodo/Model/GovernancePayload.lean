import Mathlib.Algebra.Group.Int.Defs
import Nodo.Lib.Guards
import Nodo.Lib.ThrowingState
import Nodo.Model.StateRoot

/-!
# Nodo — the payloads of governance proposals

`core/TransactionPayload.cpp` for proposals, over `serialization/CanonicalReader.cpp`. A payload is
a row of fields, each with its size in front; a text is accepted only if it is the text of the
payload that was read from it. A string of the source is a string of bytes: characters stand for
them.

## Results

* `deserialize_valid` — what is accepted is a valid payload.
* `deserialize_serialize` — the text of a valid payload is accepted and read back.
* `deserialize_eq_ok_iff` — the texts that are accepted.
-/

namespace Nodo.Model

open ThrowingState

--
-- Canonical fields
--

namespace CanonicalWriter

/-- Eight bytes, the highest first. -/
def writeUInt64 (value : UInt64) : String :=
  String.ofList ([56, 48, 40, 32, 24, 16, 8, 0].map fun shift =>
    Char.ofNat (value.toNat / 2 ^ shift % 256))

/-- The two's complement of a signed value. -/
def writeInt64 (value : Int) : String := writeUInt64 (value % 2 ^ 64).toNat.toUInt64

end CanonicalWriter

/-- A reader of bytes; the state is what is left of them. -/
abbrev CanonicalReader := EStateM String (List Char)

namespace CanonicalReader

/-- The loops of `readUInt32` and `readUInt64`. -/
def readUInt (count : Nat) : CanonicalReader Nat := fun bytes =>
  if bytes.length < count then .error "Canonical payload is truncated." bytes
  else .ok ((bytes.take count).foldl (fun value byte => value * 256 + byte.toNat) 0)
    (bytes.drop count)

def readUInt64 : CanonicalReader UInt64 := do
  let value ← readUInt 8
  pure value.toUInt64

def readInt64 : CanonicalReader Int := do
  let value ← readUInt64
  pure (if value.toNat < 2 ^ 63 then value.toNat else (value.toNat : Int) - 2 ^ 64)

def readString (maxFieldBytes : Nat) : CanonicalReader String := do
  let length ← readUInt 4
  refuseIf (length > maxFieldBytes) "Canonical field exceeds configured size limit."
  let bytes ← get
  refuseIf (bytes.length < length) "Canonical payload is truncated."
  set (bytes.drop length)
  pure (String.ofList (bytes.take length))

end CanonicalReader

--
-- The payload
--

inductive GovernanceProposalType
  | parameterChange
  | treasurySpend
  | text
  deriving DecidableEq

def governanceProposalTypeToString : GovernanceProposalType → String
  | .parameterChange => "PARAMETER_CHANGE"
  | .treasurySpend => "TREASURY_SPEND"
  | .text => "TEXT"

def governanceProposalTypeFromString (value : String) : Except String GovernanceProposalType :=
  if value == "PARAMETER_CHANGE" then .ok .parameterChange
  else if value == "TREASURY_SPEND" then .ok .treasurySpend
  else if value == "TEXT" then .ok .text
  else .error "Unknown governance proposal type."

structure GovernanceProposalPayload where
  type : GovernanceProposalType
  title : String
  description : String
  votingStartDelayBlocks : UInt64
  votingPeriodBlocks : UInt64
  quorumNumerator : UInt64
  quorumDenominator : UInt64
  approvalNumerator : UInt64
  approvalDenominator : UInt64
  parameterTarget : String
  parameterValue : String
  parameterEffectiveHeight : UInt64
  treasuryRecipient : String
  treasuryAmountRaw : Int
  deriving DecidableEq

namespace GovernanceProposalPayload

def proposalSchema : String := "NODO_GOVERNANCE_PROPOSAL_PAYLOAD_V1"

def maxGovernanceTitleBytes : Nat := 120

def maxGovernanceDescriptionBytes : Nat := 1024

def maxGovernanceScalarBytes : Nat := 256

def maxGovernanceVotingDelayBlocks : UInt64 := 1000000

def maxGovernanceVotingPeriodBlocks : UInt64 := 1000000

def safeScalar (value : String) (limit : Nat) : Bool :=
  !value.isEmpty && value.length ≤ limit && value.toList.all fun c =>
    ('a' ≤ c && c ≤ 'z') || ('A' ≤ c && c ≤ 'Z') || ('0' ≤ c && c ≤ '9') || c == '_' || c == '-'
      || c == '.' || c == ':'

def safeText (value : String) (limit : Nat) : Bool :=
  !value.isEmpty && value.length ≤ limit && value.toList.all fun c => 0x20 ≤ c.toNat

def validRatio (numerator denominator : UInt64) : Bool :=
  denominator > 0 && numerator > 0 && numerator ≤ denominator

def isValid (payload : GovernanceProposalPayload) : Bool :=
  if !safeText payload.title maxGovernanceTitleBytes
      || !safeText payload.description maxGovernanceDescriptionBytes
      || payload.votingStartDelayBlocks > maxGovernanceVotingDelayBlocks
      || payload.votingPeriodBlocks == 0
      || payload.votingPeriodBlocks > maxGovernanceVotingPeriodBlocks
      || !validRatio payload.quorumNumerator payload.quorumDenominator
      || !validRatio payload.approvalNumerator payload.approvalDenominator then false
  else
    match payload.type with
    | .parameterChange =>
      safeScalar payload.parameterTarget maxGovernanceScalarBytes
        && safeScalar payload.parameterValue maxGovernanceScalarBytes
        && payload.parameterEffectiveHeight > 0 && payload.treasuryRecipient.isEmpty
        && payload.treasuryAmountRaw == 0
    | .treasurySpend =>
      payload.parameterTarget.isEmpty && payload.parameterValue.isEmpty
        && payload.parameterEffectiveHeight == 0
        && safeScalar payload.treasuryRecipient maxGovernanceScalarBytes
        && payload.treasuryAmountRaw > 0
    | .text =>
      payload.parameterTarget.isEmpty && payload.parameterValue.isEmpty
        && payload.parameterEffectiveHeight == 0 && payload.treasuryRecipient.isEmpty
        && payload.treasuryAmountRaw == 0

/-- The fields one after another; `none` where a string is too long. -/
def encode (payload : GovernanceProposalPayload) : Option String := do
  let schema ← CanonicalWriter.writeString proposalSchema
  let type ← CanonicalWriter.writeString (governanceProposalTypeToString payload.type)
  let title ← CanonicalWriter.writeString payload.title
  let description ← CanonicalWriter.writeString payload.description
  let target ← CanonicalWriter.writeString payload.parameterTarget
  let value ← CanonicalWriter.writeString payload.parameterValue
  let recipient ← CanonicalWriter.writeString payload.treasuryRecipient
  some (schema ++ type ++ title ++ description
    ++ CanonicalWriter.writeUInt64 payload.votingStartDelayBlocks
    ++ CanonicalWriter.writeUInt64 payload.votingPeriodBlocks
    ++ CanonicalWriter.writeUInt64 payload.quorumNumerator
    ++ CanonicalWriter.writeUInt64 payload.quorumDenominator
    ++ CanonicalWriter.writeUInt64 payload.approvalNumerator
    ++ CanonicalWriter.writeUInt64 payload.approvalDenominator
    ++ target ++ value
    ++ CanonicalWriter.writeUInt64 payload.parameterEffectiveHeight
    ++ recipient ++ CanonicalWriter.writeInt64 payload.treasuryAmountRaw)

def serialize (payload : GovernanceProposalPayload) : Except String String :=
  if !payload.isValid then .error "Invalid governance proposal payload."
  else
    match payload.encode with
    | none => .error "Canonical string field is too large."
    | some text => .ok text

/-- The fields as `deserialize` reads them, with its limit for a field. -/
def read : CanonicalReader GovernanceProposalPayload := do
  let schema ← CanonicalReader.readString 4096
  refuseIf (schema != proposalSchema) "Unknown governance proposal payload schema."
  let typeText ← CanonicalReader.readString 4096
  let type ← call (governanceProposalTypeFromString typeText)
  let title ← CanonicalReader.readString 4096
  let description ← CanonicalReader.readString 4096
  let votingStartDelayBlocks ← CanonicalReader.readUInt64
  let votingPeriodBlocks ← CanonicalReader.readUInt64
  let quorumNumerator ← CanonicalReader.readUInt64
  let quorumDenominator ← CanonicalReader.readUInt64
  let approvalNumerator ← CanonicalReader.readUInt64
  let approvalDenominator ← CanonicalReader.readUInt64
  let parameterTarget ← CanonicalReader.readString 4096
  let parameterValue ← CanonicalReader.readString 4096
  let parameterEffectiveHeight ← CanonicalReader.readUInt64
  let treasuryRecipient ← CanonicalReader.readString 4096
  let treasuryAmountRaw ← CanonicalReader.readInt64
  pure
    { type, title, description, votingStartDelayBlocks, votingPeriodBlocks, quorumNumerator
      quorumDenominator, approvalNumerator, approvalDenominator, parameterTarget, parameterValue
      parameterEffectiveHeight, treasuryRecipient, treasuryAmountRaw }

def deserialize (serialized : String) : Except String GovernanceProposalPayload :=
  match read serialized.toList with
  | .error message _ => .error message
  | .ok payload rest =>
    if !rest.isEmpty then .error "Canonical payload contains trailing bytes."
    else if !payload.isValid then .error "Non-canonical governance proposal payload."
    else do
      let text ← payload.serialize
      if text != serialized then .error "Non-canonical governance proposal payload."
      else .ok payload

end GovernanceProposalPayload

--
-- Round trip
--

namespace CanonicalReader

theorem toNat_byte (n : Nat) : (Char.ofNat (n % 256)).toNat = n % 256 := by
  have hvalid : (n % 256).isValidChar := Or.inl (by omega)
  unfold Char.ofNat
  rw [dif_pos hvalid]
  rfl

theorem readUInt_append {digits rest : List Char} {count : Nat} (hcount : digits.length = count) :
    readUInt count (digits ++ rest)
      = .ok (digits.foldl (fun value byte => value * 256 + byte.toNat) 0) rest := by
  unfold readUInt
  rw [if_neg (by rw [List.length_append]; omega), ← hcount, List.take_left, List.drop_left]

/-- One byte further down. -/
theorem shift_step (n k : Nat) : n / 2 ^ (k + 8) * 256 + n / 2 ^ k % 256 = n / 2 ^ k := by
  rw [Nat.pow_add, ← Nat.div_div_eq_div_mul, Nat.mul_comm]
  exact Nat.div_add_mod _ 256

theorem readUInt64_append (value : UInt64) (rest : List Char) :
    readUInt64 ((CanonicalWriter.writeUInt64 value).toList ++ rest) = .ok value rest := by
  unfold readUInt64 CanonicalWriter.writeUInt64
  rw [String.toList_ofList, run_bind (readUInt_append (by rfl))]
  have hbound := UInt64.toNat_lt value
  have hfold : ([56, 48, 40, 32, 24, 16, 8, 0].map fun shift =>
      Char.ofNat (value.toNat / 2 ^ shift % 256)).foldl
        (fun value byte => value * 256 + byte.toNat) 0 = value.toNat := by
    simp only [List.map_cons, List.map_nil, List.foldl_cons, List.foldl_nil, toNat_byte,
      Nat.zero_mul, Nat.zero_add]
    have htop : value.toNat / 2 ^ 56 < 256 := Nat.div_lt_of_lt_mul hbound
    rw [Nat.mod_eq_of_lt htop, shift_step _ 48, shift_step _ 40,
      shift_step _ 32, shift_step _ 24, shift_step _ 16, shift_step _ 8, shift_step _ 0,
      Nat.pow_zero, Nat.div_one]
  rw [hfold]
  show EStateM.Result.ok value.toNat.toUInt64 rest = .ok value rest
  rw [Nat.toUInt64_eq, UInt64.ofNat_toNat]

theorem readInt64_append {value : Int} (hlow : 0 ≤ value) (hhigh : value < 2 ^ 63)
    (rest : List Char) :
    readInt64 ((CanonicalWriter.writeInt64 value).toList ++ rest) = .ok value rest := by
  unfold readInt64 CanonicalWriter.writeInt64
  rw [run_bind (readUInt64_append _ rest)]
  have hnat : ((value % 2 ^ 64).toNat.toUInt64).toNat = value.toNat := by
    rw [Nat.toUInt64_eq, UInt64.toNat_ofNat']
    omega
  show EStateM.Result.ok _ rest = .ok value rest
  rw [hnat, if_pos (by omega), Int.toNat_of_nonneg hlow]

theorem readString_append {value text : String} {limit : Nat} (hlimit : value.length ≤ limit)
    (h : CanonicalWriter.writeString value = some text) (rest : List Char) :
    readString limit (text.toList ++ rest) = .ok value rest := by
  unfold CanonicalWriter.writeString at h
  obtain ⟨hsize, h⟩ := Guards.some_of_ite_none h
  cases h
  unfold CanonicalWriter.writeUInt32 readString
  rw [String.toList_append, String.toList_ofList, List.append_assoc,
    run_bind (readUInt_append (by rfl))]
  have hfold : [Char.ofNat (value.length / 2 ^ 24 % 256), Char.ofNat (value.length / 2 ^ 16 % 256),
      Char.ofNat (value.length / 2 ^ 8 % 256), Char.ofNat (value.length % 256)].foldl
        (fun value byte => value * 256 + byte.toNat) 0 = value.length := by
    simp only [List.foldl_cons, List.foldl_nil, toNat_byte]
    omega
  have hlength : value.toList.length = value.length := String.length_toList
  rw [hfold, run_refuseIf (by simpa using hlimit), run_get,
    run_refuseIf (by rw [List.length_append, hlength]; simp), run_set, ← hlength, List.take_left,
    List.drop_left, String.ofList_toList]
  rfl

end CanonicalReader

namespace GovernanceProposalPayload

open CanonicalReader

variable {payload : GovernanceProposalPayload} {text : String}

/-- **What is accepted is valid**, and its text is the one that was accepted. -/
theorem deserialize_valid (h : deserialize text = .ok payload) :
    payload.isValid = true ∧ payload.serialize = .ok text := by
  unfold deserialize at h
  cases hread : read text.toList with
  | error message rest =>
    rw [hread] at h
    cases h
  | ok decoded rest =>
    rw [hread] at h
    obtain ⟨-, h⟩ := Guards.ok_of_ite_error h
    obtain ⟨hvalid, h⟩ := Guards.ok_of_ite_error h
    obtain ⟨encoded, hencoded, h⟩ := Guards.ok_of_bind h
    obtain ⟨hsame, h⟩ := Guards.ok_of_ite_error h
    cases h
    have hsame : encoded = text := by simpa using hsame
    exact ⟨by simpa using hvalid, hsame ▸ hencoded⟩

theorem length_le_of_safeScalar {value : String} {limit : Nat} (h : safeScalar value limit = true) :
    value.length ≤ limit := by
  unfold safeScalar at h
  simp only [Bool.and_eq_true, decide_eq_true_eq] at h
  exact h.1.2

theorem length_le_of_safeText {value : String} {limit : Nat} (h : safeText value limit = true) :
    value.length ≤ limit := by
  unfold safeText at h
  simp only [Bool.and_eq_true, decide_eq_true_eq] at h
  exact h.1.2

theorem length_le_of_isEmpty {value : String} (h : value.isEmpty = true) : value.length ≤ 256 := by
  rw [String.isEmpty_iff.mp h]
  exact Nat.zero_le _

/-- The sizes of the fields of a valid payload. -/
structure Sized (payload : GovernanceProposalPayload) : Prop where
  title : payload.title.length ≤ 120
  description : payload.description.length ≤ 1024
  target : payload.parameterTarget.length ≤ 256
  value : payload.parameterValue.length ≤ 256
  recipient : payload.treasuryRecipient.length ≤ 256
  amount : 0 ≤ payload.treasuryAmountRaw

theorem sized_of_valid (h : payload.isValid = true) : Sized payload := by
  unfold isValid at h
  obtain ⟨hcommon, h⟩ := Guards.true_of_ite_false h
  simp only [Bool.or_eq_true, Bool.not_eq_true', not_or, Bool.not_eq_false] at hcommon
  obtain ⟨⟨⟨⟨⟨⟨htitle, hdescription⟩, -⟩, -⟩, -⟩, -⟩, -⟩ := hcommon
  cases htype : payload.type with
  | parameterChange =>
    rw [htype] at h
    simp only [Bool.and_eq_true, beq_iff_eq] at h
    obtain ⟨⟨⟨⟨htarget, hvalue⟩, -⟩, hrecipient⟩, hamount⟩ := h
    exact ⟨length_le_of_safeText htitle, length_le_of_safeText hdescription,
      length_le_of_safeScalar htarget, length_le_of_safeScalar hvalue,
      length_le_of_isEmpty hrecipient, le_of_eq hamount.symm⟩
  | treasurySpend =>
    rw [htype] at h
    simp only [Bool.and_eq_true, decide_eq_true_eq] at h
    obtain ⟨⟨⟨⟨htarget, hvalue⟩, -⟩, hrecipient⟩, hamount⟩ := h
    exact ⟨length_le_of_safeText htitle, length_le_of_safeText hdescription,
      length_le_of_isEmpty htarget, length_le_of_isEmpty hvalue,
      length_le_of_safeScalar hrecipient, le_of_lt hamount⟩
  | text =>
    rw [htype] at h
    simp only [Bool.and_eq_true, beq_iff_eq] at h
    obtain ⟨⟨⟨⟨htarget, hvalue⟩, -⟩, hrecipient⟩, hamount⟩ := h
    exact ⟨length_le_of_safeText htitle, length_le_of_safeText hdescription,
      length_le_of_isEmpty htarget, length_le_of_isEmpty hvalue,
      length_le_of_isEmpty hrecipient, le_of_eq hamount.symm⟩

/-- **The text of a valid payload is read back.** Its amount is a signed 64-bit number. -/
theorem deserialize_serialize (hvalid : payload.isValid = true)
    (hamount : payload.treasuryAmountRaw < 2 ^ 63) :
    ∃ text, payload.serialize = .ok text ∧ deserialize text = .ok payload := by
  obtain ⟨htitle, hdescription, htarget, hvalue, hrecipient, hpositive⟩ := sized_of_valid hvalid
  have hwrite : ∀ value : String, value.length ≤ 4096 →
      ∃ text, CanonicalWriter.writeString value = some text := by
    intro value hlength
    unfold CanonicalWriter.writeString
    rw [if_neg (by omega)]
    exact ⟨_, rfl⟩
  have hschemaSize : proposalSchema.length ≤ 4096 := by decide
  have htypeSize : (governanceProposalTypeToString payload.type).length ≤ 4096 := by
    cases payload.type <;> decide
  have hparse : governanceProposalTypeFromString (governanceProposalTypeToString payload.type)
      = .ok payload.type := by
    cases payload.type <;> decide
  obtain ⟨schema, hschema⟩ := hwrite _ hschemaSize
  obtain ⟨type, htype⟩ := hwrite _ htypeSize
  obtain ⟨titleText, htitleText⟩ := hwrite payload.title (by omega)
  obtain ⟨descriptionText, hdescriptionText⟩ := hwrite payload.description (by omega)
  obtain ⟨targetText, htargetText⟩ := hwrite payload.parameterTarget (by omega)
  obtain ⟨valueText, hvalueText⟩ := hwrite payload.parameterValue (by omega)
  obtain ⟨recipientText, hrecipientText⟩ := hwrite payload.treasuryRecipient (by omega)
  obtain ⟨text, htext, hread⟩ : ∃ text, payload.encode = some text ∧
      read text.toList = .ok payload [] := by
    unfold encode
    rw [hschema, htype, htitleText, hdescriptionText, htargetText, hvalueText, hrecipientText]
    refine ⟨_, rfl, ?_⟩
    have hlast := readInt64_append hpositive hamount []
    rw [List.append_nil] at hlast
    simp only [String.toList_append, List.append_assoc]
    unfold read
    rw [run_bind (readString_append hschemaSize hschema _), run_refuseIf (by simp),
      run_bind (readString_append htypeSize htype _), run_call hparse,
      run_bind (readString_append (by omega) htitleText _),
      run_bind (readString_append (by omega) hdescriptionText _),
      run_bind (readUInt64_append _ _), run_bind (readUInt64_append _ _),
      run_bind (readUInt64_append _ _), run_bind (readUInt64_append _ _),
      run_bind (readUInt64_append _ _), run_bind (readUInt64_append _ _),
      run_bind (readString_append (by omega) htargetText _),
      run_bind (readString_append (by omega) hvalueText _),
      run_bind (readUInt64_append _ _),
      run_bind (readString_append (by omega) hrecipientText _), run_bind hlast]
    rfl
  have hserialize : payload.serialize = .ok text := by
    unfold serialize
    rw [hvalid, if_neg (by simp), htext]
  refine ⟨text, hserialize, ?_⟩
  unfold deserialize
  rw [hread]
  simp only [List.isEmpty_nil, hvalid, hserialize, Bool.not_true, Guards.ok_bind, bne_self_eq_false,
    Bool.false_eq_true, if_false]

theorem readInt64_lt {value : Int} {bytes rest : List Char}
    (h : readInt64 bytes = .ok value rest) : value < 2 ^ 63 := by
  obtain ⟨number, _, -, h⟩ := ok_of_bind h
  obtain ⟨rfl, -⟩ := ok_of_pure h
  have hbound := UInt64.toNat_lt number
  split_ifs <;> omega

theorem read_amount {bytes rest : List Char} (h : read bytes = .ok payload rest) :
    payload.treasuryAmountRaw < 2 ^ 63 := by
  unfold read at h
  iterate 16 obtain ⟨_, _, -, h⟩ := ok_of_bind h
  obtain ⟨amount, _, hamount, h⟩ := ok_of_bind h
  obtain ⟨rfl, -⟩ := ok_of_pure h
  exact readInt64_lt hamount

/-- **The parser accepts the texts that the printer writes**, of amounts that are signed 64-bit
numbers, and no others. -/
theorem deserialize_eq_ok_iff : deserialize text = .ok payload
    ↔ payload.serialize = .ok text ∧ payload.treasuryAmountRaw < 2 ^ 63 := by
  constructor
  · intro h
    refine ⟨(deserialize_valid h).2, ?_⟩
    unfold deserialize at h
    split at h
    · cases h
    · rename_i decoded rest hread
      obtain ⟨-, h⟩ := Guards.ok_of_ite_error h
      obtain ⟨-, h⟩ := Guards.ok_of_ite_error h
      obtain ⟨_, -, h⟩ := Guards.ok_of_bind h
      obtain ⟨-, h⟩ := Guards.ok_of_ite_error h
      cases h
      exact read_amount hread
  · rintro ⟨hserialize, hamount⟩
    have hvalid : payload.isValid = true := by
      simpa using (Guards.ok_of_ite_error hserialize).1
    obtain ⟨text', htext', hread⟩ := deserialize_serialize hvalid hamount
    obtain rfl : text' = text := Except.ok.inj (htext'.symm.trans hserialize)
    exact hread

end GovernanceProposalPayload

end Nodo.Model
