import Nodo.Model.KeyValueFile
import Nodo.Model.RoundState
import Nodo.Model.TransactionCodec

/-!
# Nodo — the file of the round state

`consensus/ConsensusRecoveryStore.cpp`: a round state is saved as a key-value file, an absent lock
or vote as a dash and a vote as the hexadecimal digits of its text. `load` accepts a content only
if the state it reads is printed to that content again.

The check on a state to be saved knows nothing of the dash, nor of what the parser of votes wants:
a lock on a block whose hash is a dash is saved and not read back, and so is a vote with a text
that the parser refuses.

## Results

* `ConsensusRecoveryStore.parseState_serializeState` — what a saved content is read as.
* `recovery_file_read_back` — which saved states are read back, and that every accepted content is
  what its state prints.
* `dash_lock_forgotten` — a saved lock that is not read back.
-/

namespace Nodo.Model

namespace ConsensusRecoveryStore

--
-- The file
--

def kRecoverySchemaId : String := "NODO_CONSENSUS_RECOVERY_STATE_V2"

/-- `parseUint64Strict`; a throw of `stoull` is caught. -/
def parseUint64Strict (value : String) : Option Nat := (parseU64Strict value "").toOption

def parseInt64Strict (value : String) : Option Int := (parseI64Strict value "").toOption

def encodeOptionalVote (crypto : CryptoContext) : Option ValidatorVoteRecord → String
  | none => "-"
  | some vote => hexEncode (vote.serialize crypto)

def decodeOptionalVote (crypto : CryptoContext) (value : String) :
    Except String (Option ValidatorVoteRecord) :=
  if value == "-" then .ok none
  else if !isHexString value.toList then .error "Persisted consensus vote is not canonical hex."
  else do
    let vote ← ValidatorVoteRecord.deserialize crypto (String.ofList (hexDecode value.toList))
    .ok (some vote)

def isPersistableRoundState (state : ConsensusRoundState) : Bool :=
  state.isValid && 0 < state.height && 0 < state.round && !state.proposerAddress.isEmpty

/-- The text of a flag. -/
def flagText (flag : Bool) : String := if flag then "1" else "0"

/-- The text of a lock. -/
def lockText (lockedBlockHash : String) : String :=
  if lockedBlockHash.isEmpty then "-" else lockedBlockHash

/-- The fields that `serializeState` writes. -/
def stateFields (crypto : CryptoContext) (state : ConsensusRoundState) : List (String × String) :=
  [("height", toString state.height), ("round", toString state.round),
    ("proposerAddress", state.proposerAddress),
    ("roundStartedAt", toString state.roundStartedAt),
    ("lockedBlockHash", lockText state.lockedBlockHash),
    ("lockedRound", toString state.lockedRound), ("votedPrevote", flagText state.votedPrevote),
    ("votedPrecommit", flagText state.votedPrecommit),
    ("persistedPrevoteHex", encodeOptionalVote crypto state.persistedPrevote),
    ("persistedPrecommitHex", encodeOptionalVote crypto state.persistedPrecommit)]

def serializeState (crypto : CryptoContext) (state : ConsensusRoundState) : Except String String :=
  if !isPersistableRoundState state then
    .error "Invalid consensus round state cannot be persisted."
  else KeyValueFileCodec.serialize kRecoverySchemaId (stateFields crypto state)

/-- `parseState`; a throw is caught and answered like a returned `nullopt`. -/
def parseState (crypto : CryptoContext) (content : String) : Option ConsensusRoundState := do
  let doc ← (KeyValueFileCodec.parse content kRecoverySchemaId).toOption
  (doc.requireOnlyFields ["height", "round", "proposerAddress", "roundStartedAt",
    "lockedBlockHash", "lockedRound", "votedPrevote", "votedPrecommit", "persistedPrevoteHex",
    "persistedPrecommitHex"]).toOption
  let height ← (doc.requireField "height").toOption.bind parseUint64Strict
  let round ← (doc.requireField "round").toOption.bind parseUint64Strict
  let roundStartedAt ← (doc.requireField "roundStartedAt").toOption.bind parseInt64Strict
  let lockedRound ← (doc.requireField "lockedRound").toOption.bind parseUint64Strict
  let votedPrevoteStr ← (doc.requireField "votedPrevote").toOption
  let votedPrecommitStr ← (doc.requireField "votedPrecommit").toOption
  if (votedPrevoteStr != "0" && votedPrevoteStr != "1")
      || (votedPrecommitStr != "0" && votedPrecommitStr != "1") then none
  else do
    let rawLockedBlockHash ← (doc.requireField "lockedBlockHash").toOption
    let lockedBlockHash := if rawLockedBlockHash == "-" then "" else rawLockedBlockHash
    let persistedPrevote ←
      ((doc.requireField "persistedPrevoteHex").bind (decodeOptionalVote crypto)).toOption
    let persistedPrecommit ←
      ((doc.requireField "persistedPrecommitHex").bind (decodeOptionalVote crypto)).toOption
    let proposerAddress ← (doc.requireField "proposerAddress").toOption
    let state : ConsensusRoundState := ⟨height, round, proposerAddress, roundStartedAt,
      lockedBlockHash, lockedRound, votedPrevoteStr == "1", votedPrecommitStr == "1",
      persistedPrevote, persistedPrecommit⟩
    if !isPersistableRoundState state then none
    else do
      let printed ← (serializeState crypto state).toOption
      if printed != content then none else some state

/-- `save`: the answer and the file afterwards. -/
def save (crypto : CryptoContext) (storage : StorageOutcome) (file : Option String)
    (state : ConsensusRoundState) : Bool × Option String :=
  match serializeState crypto state with
  | .error _ => (false, file)
  | .ok content =>
    match storage with
    | .written => (true, some content)
    | .lost => (false, file)
    | .writtenThenFailed => (false, some content)

def load (crypto : CryptoContext) (file : Option String) : Option ConsensusRoundState :=
  match file with
  | none => none
  | some content => if content.isEmpty then none else parseState crypto content

end ConsensusRecoveryStore

--
-- Which states are read back
--

namespace ConsensusRoundState

/-- The numbers fit the integer types of the source, and the texts of the votes are bytes. -/
structure Representable (crypto : CryptoContext) (state : ConsensusRoundState) : Prop where
  height : state.height < 2 ^ 64
  round : state.round < 2 ^ 64
  lockedRound : state.lockedRound < 2 ^ 64
  roundStartedAt : state.roundStartedAt < 2 ^ 63
  prevote : ∀ vote, state.persistedPrevote = some vote →
    ∀ c ∈ (vote.serialize crypto).toList, c.toNat < 256
  precommit : ∀ vote, state.persistedPrecommit = some vote →
    ∀ c ∈ (vote.serialize crypto).toList, c.toNat < 256

/-- The lock is not spelled like no lock, and the parser of votes reads both votes. -/
structure Reloads (crypto : CryptoContext) (state : ConsensusRoundState) : Prop where
  lock : state.lockedBlockHash ≠ "-"
  prevote : ∀ vote, state.persistedPrevote = some vote → ReadableVote crypto vote
  precommit : ∀ vote, state.persistedPrecommit = some vote → ReadableVote crypto vote

end ConsensusRoundState

namespace ConsensusRecoveryStore

--
-- What a saved content is read as
--

theorem toOption_eq_some {ε α : Type} {x : Except ε α} {a : α} :
    x.toOption = some a ↔ x = .ok a := by
  cases x <;> simp [Except.toOption]

/-- A caught step that does not throw. -/
theorem bind_of_ok {ε α β : Type} {x : Except ε α} {a : α} (h : x = .ok a) (f : α → Option β) :
    (x.toOption >>= f) = f a := by
  rw [h]
  rfl

/-- A field with a number that is read. -/
theorem number_of_ok {α β : Type} {x : Except String String} {text : String}
    {parse : String → Option α} {n : α} (h : x = .ok text) (hn : parse text = some n)
    (f : α → Option β) : (x.toOption.bind parse >>= f) = f n := by
  rw [h]
  show (parse text >>= f) = f n
  rw [hn]
  rfl

theorem serialize_ne_empty (crypto : CryptoContext) (vote : ValidatorVoteRecord) :
    vote.serialize crypto ≠ "" := by
  intro hempty
  unfold ValidatorVoteRecord.serialize at hempty
  exact serializeObject_toList_ne_nil _ _ (congrArg String.toList hempty)

/-- **A vote survives its digits exactly when the parser of votes reads it.** -/
theorem decodeOptionalVote_encodeOptionalVote {crypto : CryptoContext}
    {vote : Option ValidatorVoteRecord}
    (hbytes : ∀ v, vote = some v → ∀ c ∈ (v.serialize crypto).toList, c.toNat < 256) :
    decodeOptionalVote crypto (encodeOptionalVote crypto vote) = .ok vote ↔
      ∀ v, vote = some v → ReadableVote crypto v := by
  cases vote with
  | none => exact iff_of_true rfl (fun _ h => by cases h)
  | some v =>
    have hhex := SignedTransaction.isHexString_hexEncode (serialize_ne_empty crypto v)
    have hdash : (hexEncode (v.serialize crypto) == "-") = false := by
      rw [beq_eq_false_iff_ne]
      intro hsame
      rw [hsame] at hhex
      revert hhex
      decide
    have hread : decodeOptionalVote crypto (encodeOptionalVote crypto (some v))
        = (ValidatorVoteRecord.deserialize crypto (v.serialize crypto)).map some := by
      unfold decodeOptionalVote encodeOptionalVote
      simp only [hdash, hhex, SignedTransaction.hexDecode_hexEncode (hbytes v rfl), String.ofList_toList,
        Bool.false_eq_true, if_false, Bool.not_true]
      cases ValidatorVoteRecord.deserialize crypto (v.serialize crypto) <;> rfl
    rw [hread]
    constructor
    · intro h other hother
      cases hother
      refine ValidatorVoteRecord.readable_iff.mp ?_
      cases hvote : ValidatorVoteRecord.deserialize crypto (v.serialize crypto) with
      | error e =>
        rw [hvote] at h
        cases h
      | ok read =>
        rw [hvote] at h
        cases h
        rfl
    · intro h
      rw [(h v rfl).deserialize_serialize]
      rfl

theorem lockText_eq_dash {lockedBlockHash : String} :
    (if lockText lockedBlockHash == "-" then "" else lockText lockedBlockHash) = lockedBlockHash ↔
      lockedBlockHash ≠ "-" := by
  by_cases hempty : lockedBlockHash = ""
  · subst hempty
    exact iff_of_true rfl (by decide)
  · have htext : lockText lockedBlockHash = lockedBlockHash := if_neg (by simpa using hempty)
    rw [htext]
    by_cases hdash : lockedBlockHash = "-"
    · subst hdash
      exact iff_of_false (by decide) (fun h => h rfl)
    · rw [if_neg (by simpa using hdash)]
      exact iff_of_true rfl hdash

theorem parseUint64Strict_toString {n : Nat} (h : n < 2 ^ 64) :
    parseUint64Strict (toString n) = some n := by
  unfold parseUint64Strict
  rw [parseU64Strict_toString h]
  rfl

theorem parseInt64Strict_toString {i : Int} (hlow : -2 ^ 63 ≤ i) (h : i < 2 ^ 63) :
    parseInt64Strict (toString i) = some i := by
  unfold parseInt64Strict
  rw [parseI64Strict_toString hlow h]
  rfl

theorem flagText_cases (flag : Bool) :
    (flagText flag != "0" && flagText flag != "1") = false ∧ (flagText flag == "1") = flag := by
  cases flag <;> exact ⟨by decide, by decide⟩

/-- The content of a saved state. -/
theorem serializeState_spec {crypto : CryptoContext} {state : ConsensusRoundState}
    {content : String} (h : serializeState crypto state = .ok content) :
    isPersistableRoundState state = true ∧
      KeyValueFileCodec.serialize kRecoverySchemaId (stateFields crypto state) = .ok content := by
  obtain ⟨hvalid, h⟩ := Guards.ok_of_ite_error h
  exact ⟨by simpa using hvalid, h⟩

theorem isPersistable_valid {state : ConsensusRoundState}
    (h : isPersistableRoundState state = true) : state.isValid = true := by
  unfold isPersistableRoundState at h
  simp only [Bool.and_eq_true] at h
  exact h.1.1.1

/-- **How a saved content is read**: everything but the lock and the votes as it was. -/
theorem parseState_serializeState {crypto : CryptoContext} {state : ConsensusRoundState}
    {content : String} (hfits : state.Representable crypto)
    (h : serializeState crypto state = .ok content) :
    parseState crypto content =
      (decodeOptionalVote crypto (encodeOptionalVote crypto state.persistedPrevote)).toOption.bind
        fun prevote =>
      (decodeOptionalVote crypto
          (encodeOptionalVote crypto state.persistedPrecommit)).toOption.bind fun precommit =>
        let read : ConsensusRoundState := { state with
          lockedBlockHash := if lockText state.lockedBlockHash == "-" then ""
            else lockText state.lockedBlockHash
          persistedPrevote := prevote
          persistedPrecommit := precommit }
        if !isPersistableRoundState read then none
        else (serializeState crypto read).toOption.bind fun printed =>
          if printed != content then none else some read := by
  obtain ⟨hvalid, hprint⟩ := serializeState_spec h
  have hstarted : 0 < state.roundStartedAt :=
    (ConsensusRoundState.isValid_wellLocked (isPersistable_valid hvalid)).1.startedAt
  have hnodup := KeyValueFileCodec.nodup_of_serialize hprint
  have hfield : ∀ {key value : String}, (key, value) ∈ stateFields crypto state →
      (KeyValueFileDocument.ofFields kRecoverySchemaId (stateFields crypto state)).requireField key
        = .ok value := fun hin => KeyValueFileDocument.requireField_ofFields hnodup hin
  have honly : (KeyValueFileDocument.ofFields kRecoverySchemaId
      (stateFields crypto state)).requireOnlyFields ["height", "round", "proposerAddress",
      "roundStartedAt", "lockedBlockHash", "lockedRound", "votedPrevote", "votedPrecommit",
      "persistedPrevoteHex", "persistedPrecommitHex"] = .ok () :=
    KeyValueFileDocument.requireOnlyFields_ofFields hnodup (fun _ hkey => hkey)
  have hheight := hfield (show ("height", toString state.height) ∈ _ by simp [stateFields])
  have hround := hfield (show ("round", toString state.round) ∈ _ by simp [stateFields])
  have hproposer := hfield (show ("proposerAddress", state.proposerAddress) ∈ _ by simp [stateFields])
  have hstart := hfield
    (show ("roundStartedAt", toString state.roundStartedAt) ∈ _ by simp [stateFields])
  have hlock := hfield
    (show ("lockedBlockHash", lockText state.lockedBlockHash) ∈ _ by simp [stateFields])
  have hlockRound := hfield
    (show ("lockedRound", toString state.lockedRound) ∈ _ by simp [stateFields])
  have hprevoted := hfield
    (show ("votedPrevote", flagText state.votedPrevote) ∈ _ by simp [stateFields])
  have hprecommitted := hfield
    (show ("votedPrecommit", flagText state.votedPrecommit) ∈ _ by simp [stateFields])
  have hprevote := hfield (show ("persistedPrevoteHex",
    encodeOptionalVote crypto state.persistedPrevote) ∈ _ by simp [stateFields])
  have hprecommit := hfield (show ("persistedPrecommitHex",
    encodeOptionalVote crypto state.persistedPrecommit) ∈ _ by simp [stateFields])
  obtain ⟨hflag, hflag'⟩ := flagText_cases state.votedPrevote
  obtain ⟨hflagPre, hflagPre'⟩ := flagText_cases state.votedPrecommit
  clear hfield hnodup
  unfold parseState
  rw [bind_of_ok (KeyValueFileCodec.parse_serialize hprint)]
  generalize KeyValueFileDocument.ofFields kRecoverySchemaId (stateFields crypto state) = doc at *
  rw [bind_of_ok honly, number_of_ok hheight (parseUint64Strict_toString hfits.height),
    number_of_ok hround (parseUint64Strict_toString hfits.round),
    number_of_ok hstart (parseInt64Strict_toString (by omega) hfits.roundStartedAt),
    number_of_ok hlockRound (parseUint64Strict_toString hfits.lockedRound),
    bind_of_ok hprevoted, bind_of_ok hprecommitted, hflag, hflagPre, Bool.or_self,
    if_neg Bool.false_ne_true, bind_of_ok hlock, hprevote, hprecommit]
  simp only [bind_of_ok hproposer, hflag', hflagPre']
  rfl

/-- **Which saved states are read back.** -/
theorem parseState_serializeState_iff {crypto : CryptoContext} {state : ConsensusRoundState}
    {content : String} (hfits : state.Representable crypto)
    (h : serializeState crypto state = .ok content) :
    parseState crypto content = some state ↔ state.Reloads crypto := by
  have hprevote := decodeOptionalVote_encodeOptionalVote hfits.prevote
  have hprecommit := decodeOptionalVote_encodeOptionalVote hfits.precommit
  rw [parseState_serializeState hfits h]
  constructor
  · intro hread
    obtain ⟨prevote, hfirst, hread⟩ := Option.bind_eq_some_iff.mp hread
    obtain ⟨precommit, hsecond, hread⟩ := Option.bind_eq_some_iff.mp hread
    obtain ⟨-, hread⟩ := Guards.some_of_ite_none hread
    obtain ⟨printed, -, hread⟩ := Option.bind_eq_some_iff.mp hread
    obtain ⟨-, hread⟩ := Guards.some_of_ite_none hread
    have hsame := Option.some.inj hread
    have hlock := congrArg ConsensusRoundState.lockedBlockHash hsame
    have hpre : prevote = state.persistedPrevote :=
      congrArg ConsensusRoundState.persistedPrevote hsame
    have hcom : precommit = state.persistedPrecommit :=
      congrArg ConsensusRoundState.persistedPrecommit hsame
    rw [hpre] at hfirst
    rw [hcom] at hsecond
    exact ⟨lockText_eq_dash.mp hlock, hprevote.mp (toOption_eq_some.mp hfirst),
      hprecommit.mp (toOption_eq_some.mp hsecond)⟩
  · intro hreloads
    rw [hprevote.mpr hreloads.prevote, hprecommit.mpr hreloads.precommit,
      lockText_eq_dash.mpr hreloads.lock]
    simp only [Except.toOption, Option.bind_some]
    rw [(serializeState_spec h).1, h]
    simp

/-- What a read state prints is the content it was read from. -/
theorem serializeState_of_parseState {crypto : CryptoContext} {content : String}
    {state : ConsensusRoundState} (h : parseState crypto content = some state) :
    serializeState crypto state = .ok content := by
  unfold parseState at h
  obtain ⟨doc, -, h⟩ := Option.bind_eq_some_iff.mp h
  iterate 7 obtain ⟨_, -, h⟩ := Option.bind_eq_some_iff.mp h
  obtain ⟨-, h⟩ := Guards.some_of_ite_none h
  iterate 4 obtain ⟨_, -, h⟩ := Option.bind_eq_some_iff.mp h
  obtain ⟨-, h⟩ := Guards.some_of_ite_none h
  obtain ⟨printed, hprinted, h⟩ := Option.bind_eq_some_iff.mp h
  obtain ⟨hsame, h⟩ := Guards.some_of_ite_none h
  cases h
  rw [toOption_eq_some] at hprinted
  rw [hprinted]
  simpa using hsame

end ConsensusRecoveryStore

--
-- The store
--

open ConsensusRecoveryStore

theorem save_written {crypto : CryptoContext} {file : Option String}
    {state : ConsensusRoundState} :
    (save crypto .written file state).1 = true ↔
      ∃ content, serializeState crypto state = .ok content ∧
        save crypto .written file state = (true, some content) := by
  unfold save
  cases serializeState crypto state with
  | error e => simp
  | ok content => simp

theorem load_eq_some {crypto : CryptoContext} {file : Option String}
    {state : ConsensusRoundState} (h : load crypto file = some state) :
    ∃ content, file = some content ∧ parseState crypto content = some state := by
  cases file with
  | none => cases h
  | some content => exact ⟨content, rfl, (Guards.some_of_ite_none h).2⟩

/-- A saved content is not empty. -/
theorem load_saved {crypto : CryptoContext} {state : ConsensusRoundState} {content : String}
    (h : serializeState crypto state = .ok content) :
    load crypto (some content) = parseState crypto content := by
  obtain ⟨-, hprint⟩ := serializeState_spec h
  obtain ⟨-, hprint⟩ := Guards.ok_of_ite_error hprint
  obtain ⟨output, -, hcontent⟩ := Guards.ok_of_bind hprint
  cases hcontent
  unfold load
  simp only
  rw [if_neg (by simp [kRecoverySchemaId])]

/-- **A saved state is read back exactly when its lock is not spelled like no lock and the parser
of votes reads its votes**; and every accepted content is what its state prints. -/
theorem recovery_file_read_back (crypto : CryptoContext) :
    (∀ file state, state.Representable crypto → (save crypto .written file state).1 = true →
      (load crypto (save crypto .written file state).2 = some state ↔ state.Reloads crypto)) ∧
    (∀ file state, load crypto file = some state →
      ∃ content, file = some content ∧
        ∀ before, save crypto .written before state = (true, some content)) := by
  refine ⟨?_, ?_⟩
  · intro file state hfits hsaved
    obtain ⟨content, hcontent, hfile⟩ := save_written.mp hsaved
    rw [hfile, load_saved hcontent]
    exact parseState_serializeState_iff hfits hcontent
  · intro file state hloaded
    obtain ⟨content, hfile, hparse⟩ := load_eq_some hloaded
    refine ⟨content, hfile, fun before => ?_⟩
    unfold save
    rw [serializeState_of_parseState hparse]

/-- A state with a lock. -/
def lockedState : ConsensusRoundState := ⟨1, 1, "p", 5, "B", 1, false, false, none, none⟩

/-- It is read back, lock included. -/
theorem recovery_file_read_back_locked :
    load sampleCrypto (save sampleCrypto .written none lockedState).2 = some lockedState := by
  refine ((recovery_file_read_back sampleCrypto).1 none lockedState ?_ (by decide +kernel)).mpr ?_
  · exact ⟨by decide, by decide, by decide, by decide, (fun vote h => by cases h),
      (fun vote h => by cases h)⟩
  · exact ⟨by decide, (fun vote h => by cases h), (fun vote h => by cases h)⟩

/-- A state with a lock on a block whose hash is a dash. -/
def dashLock : ConsensusRoundState := ⟨1, 1, "p", 5, "-", 1, false, false, none, none⟩

/-- **The lock is saved, and nothing is read back.** -/
theorem dash_lock_forgotten :
    dashLock.Representable sampleCrypto ∧
      (save sampleCrypto .written none dashLock).1 = true ∧
      load sampleCrypto (save sampleCrypto .written none dashLock).2 = none := by
  have hfits : dashLock.Representable sampleCrypto :=
    ⟨by decide, by decide, by decide, by decide, (fun vote h => by cases h),
      (fun vote h => by cases h)⟩
  have hsaved : (save sampleCrypto .written none dashLock).1 = true := by decide +kernel
  refine ⟨hfits, hsaved, ?_⟩
  obtain ⟨content, hcontent, hfile⟩ := save_written.mp hsaved
  rw [hfile, load_saved hcontent, parseState_serializeState hfits hcontent]
  -- without its lock the state has a locked round too many
  rfl

end Nodo.Model
