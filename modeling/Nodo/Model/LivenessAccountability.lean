import Nodo.Model.ProposerSchedule

/-!
# Nodo — liveness accountability

`consensus/V1LivenessAccountability.cpp`: how often each validator of an epoch signed.
The call for height `h` brings the commit of `h - 1`, so the count runs one block
behind the epoch: epoch `e` has the heights `eL + 1` to `(e + 1)L`, the call for its
last height is the one that assesses it, and the commit of that last height is only
known with the first call of the next epoch, when a new set is already in place. That
commit is checked against a copy of the old set and counted for nobody.

## Results

* `verifiedSignerIndexes_spec` — accepted signers are members, listed once each, with
  a quorum of the weight.
* `Accounted.step` — one accepted call keeps the account of the heights so far.
* `liveness_accounting` — assessments, boundary commits and rejected calls, along
  every run.
-/

namespace Nodo.Model

open V1WeightedProposerSchedule (addValidators weightSum ValidSet)

variable {Digest : Type} [LinearOrder Digest]

--
-- The state
--

/-- `V1LivenessAccountability::ParentCommit`. -/
structure ParentCommit (Digest : Type) where
  height : UInt64
  setRoot : Digest
  signers : List Digest

/-- `V1LivenessAccountability::Assessment`. -/
structure Assessment (Digest : Type) where
  validatorId : Digest
  signedHeights : UInt64
  observedHeights : UInt64
  inactivityCandidate : Bool

/-- `V1LivenessAccountability::Transition`. -/
structure Transition (Digest : Type) where
  boundary : Bool
  assessments : List (Assessment Digest)

structure V1LivenessAccountability (Digest : Type) where
  epochLengthBlocks : UInt64
  nextHeight : UInt64
  epoch : UInt64
  observed : UInt64
  totalWeight : UInt64
  setRoot : Digest
  previousBoundaryRoot : Option Digest
  previousBoundaryValidators : List (V1Validator Digest)
  previousBoundaryWeight : UInt64
  validators : List (V1Validator Digest)
  signed : List UInt64
  deriving DecidableEq

namespace V1LivenessAccountability

/-- The total weight of a set that passes; four members are the least. -/
def validSet (validators : List (V1Validator Digest)) : Option UInt64 :=
  if validators.length < 4 ∨ kMaxValidators < validators.length then none
  else addValidators none 0 validators

/-- The inner loop of `verifiedSignerIndexes`: skips the validators below the signer. -/
def skipBelow (validators : List (V1Validator Digest)) (signer : Digest) (index : Nat) : Nat :=
  index + ((validators.drop index).takeWhile (fun validator => validator.id < signer)).length

/-- The loop of `verifiedSignerIndexes`, with the index pushed last. -/
def signerLoop (validators : List (V1Validator Digest)) :
    Option Nat → Nat → UInt64 → List Digest → Option (List Nat × UInt64)
  | _, _, signedWeight, [] => some ([], signedWeight)
  | last, validatorIndex, signedWeight, signer :: rest =>
    if ∃ validator ∈ last.bind (validators[·]?), ¬ validator.id < signer then none
    else
      let validatorIndex := skipBelow validators signer validatorIndex
      match validators[validatorIndex]? with
      | none => none
      | some validator =>
        if validator.id ≠ signer ∨ uint64Max - signedWeight < validator.weight then none
        else
          match signerLoop validators (some validatorIndex) validatorIndex
              (signedWeight + validator.weight) rest with
          | none => none
          | some (indexes, total) => some (validatorIndex :: indexes, total)

def verifiedSignerIndexes (signers : List Digest) (validators : List (V1Validator Digest))
    (totalWeight : UInt64) : Option (List Nat) :=
  match signerLoop validators none 0 0 signers with
  | none => none
  | some (indexes, signedWeight) =>
    if signedWeight < totalWeight - (totalWeight - 1) / 3 then none else some indexes

def create (epochLengthBlocks : UInt64) (genesisSetRoot : Digest)
    (genesisValidators : List (V1Validator Digest)) :
    Option (V1LivenessAccountability Digest) :=
  if epochLengthBlocks < 288 ∨ 604800 < epochLengthBlocks then none
  else
    match validSet genesisValidators with
    | none => none
    | some totalWeight =>
      some { epochLengthBlocks, nextHeight := 1, epoch := 0, observed := 0, totalWeight
             setRoot := genesisSetRoot, previousBoundaryRoot := none
             previousBoundaryValidators := [], previousBoundaryWeight := 0
             validators := genesisValidators
             signed := List.replicate genesisValidators.length 0 }

/-- Adds one for each signer. -/
def countSigners (signed : List UInt64) : List Nat → Option (List UInt64)
  | [] => some signed
  | index :: rest =>
    match signed[index]? with
    | none => none
    | some count =>
      if count = uint64Max then none else countSigners (signed.set index (count + 1)) rest

def firstOfEpoch (s : V1LivenessAccountability Digest) (height : UInt64) : Prop :=
  1 < height ∧ (height - 1) % s.epochLengthBlocks = 0

instance (s : V1LivenessAccountability Digest) (height : UInt64) :
    Decidable (s.firstOfEpoch height) := inferInstanceAs (Decidable (_ ∧ _))

/-- The counters after the commit of the parent. -/
def observe (s : V1LivenessAccountability Digest) (height : UInt64)
    (parent : Option (ParentCommit Digest)) : Option (List UInt64 × UInt64) :=
  match parent with
  | none => some (s.signed, s.observed)
  | some parent =>
    if s.firstOfEpoch height then
      if s.previousBoundaryRoot ≠ some parent.setRoot then none
      else
        match verifiedSignerIndexes parent.signers s.previousBoundaryValidators
            s.previousBoundaryWeight with
        | none => none
        | some _ => some (s.signed, s.observed)
    else if parent.setRoot ≠ s.setRoot ∨ s.epochLengthBlocks - 1 ≤ s.observed then none
    else
      match verifiedSignerIndexes parent.signers s.validators s.totalWeight with
      | none => none
      | some indexes =>
        match countSigners s.signed indexes with
        | none => none
        | some signed => some (signed, s.observed + 1)

/-- The assessments of a boundary. The products are `unsigned __int128`. -/
def assess (s : V1LivenessAccountability Digest) (signed : List UInt64) (observed : UInt64) :
    List (Assessment Digest) :=
  (s.validators.zip signed).map fun entry =>
    { validatorId := entry.1.id, signedHeights := entry.2, observedHeights := observed
      inactivityCandidate := entry.2.toNat * 4 < observed.toNat * 3 }

/-- The members written at a boundary. -/
def closeEpoch (s : V1LivenessAccountability Digest) (setRoot : Digest)
    (validators : List (V1Validator Digest)) (totalWeight : UInt64) :
    V1LivenessAccountability Digest :=
  { s with
    previousBoundaryRoot := some s.setRoot
    previousBoundaryValidators := s.validators
    previousBoundaryWeight := s.totalWeight
    setRoot, validators, totalWeight
    signed := List.replicate validators.length 0
    observed := 0
    epoch := s.epoch + 1
    nextHeight := s.nextHeight + 1 }

/-- The members written at any other height. -/
def continueEpoch (s : V1LivenessAccountability Digest) (first : Bool) (signed : List UInt64)
    (observed : UInt64) : V1LivenessAccountability Digest :=
  { s with
    signed, observed
    previousBoundaryRoot := if first then none else s.previousBoundaryRoot
    previousBoundaryValidators := if first then [] else s.previousBoundaryValidators
    previousBoundaryWeight := if first then 0 else s.previousBoundaryWeight
    nextHeight := s.nextHeight + 1 }

def advance (s : V1LivenessAccountability Digest) (height : UInt64)
    (parent : Option (ParentCommit Digest)) (nextSet : Option (NextSet Digest)) :
    Option (Transition Digest) × V1LivenessAccountability Digest :=
  if height ≠ s.nextHeight ∨ height = uint64Max ∨ (height = 1 ↔ parent.isSome)
      ∨ (nextSet.isSome ∧ height % s.epochLengthBlocks ≠ 0) then (none, s)
  else if ∃ commit ∈ parent, commit.height ≠ height - 1 then (none, s)
  else
    match s.observe height parent with
    | none => (none, s)
    | some (nextSigned, nextObserved) =>
      if height % s.epochLengthBlocks = 0 then
        if nextObserved ≠ s.epochLengthBlocks - 1 then (none, s)
        else
          let result : Transition Digest :=
            { boundary := true, assessments := s.assess nextSigned nextObserved }
          match nextSet with
          | none => (some result, s.closeEpoch s.setRoot s.validators s.totalWeight)
          | some next =>
            match validSet next.validators with
            | none => (none, s)
            | some nextWeight => (some result, s.closeEpoch next.root next.validators nextWeight)
      else
        (some { boundary := false, assessments := [] },
          s.continueEpoch (s.firstOfEpoch height) nextSigned nextObserved)

--
-- Runs
--

/-- The arguments of one call. -/
structure Call (Digest : Type) where
  height : UInt64
  parent : Option (ParentCommit Digest)
  nextSet : Option (NextSet Digest)

/-- The state after any calls, with the accepted ones in order. -/
inductive Run (genesis : V1LivenessAccountability Digest) :
    List (Call Digest) → V1LivenessAccountability Digest → Prop
  | start : Run genesis [] genesis
  | accepted {calls : List (Call Digest)} {s s' : V1LivenessAccountability Digest}
      {call : Call Digest} {result : Transition Digest} (h : Run genesis calls s)
      (hcall : s.advance call.height call.parent call.nextSet = (some result, s')) :
      Run genesis (calls ++ [call]) s'
  | rejected {calls : List (Call Digest)} {s s' : V1LivenessAccountability Digest}
      {call : Call Digest} (h : Run genesis calls s)
      (hcall : s.advance call.height call.parent call.nextSet = (none, s')) :
      Run genesis calls s'

/-- The set frozen for an epoch: the one given with the last block of the epoch before,
or the set before that. The accepted call for height `h` is entry `h - 1`. -/
def frozenSet (genesisSet : NextSet Digest) (epochLength : Nat) (calls : List (Call Digest)) :
    Nat → NextSet Digest
  | 0 => genesisSet
  | epoch + 1 =>
    match calls[(epoch + 1) * epochLength - 1]? with
    | none => frozenSet genesisSet epochLength calls epoch
    | some call => call.nextSet.getD (frozenSet genesisSet epochLength calls epoch)

/-- The commit of a height, supplied with the call for the next one, lists a signer. -/
def commitLists (calls : List (Call Digest)) (id : Digest) (height : Nat) : Bool :=
  (calls[height]?.bind (·.parent)).any (fun commit => id ∈ commit.signers)

/-- How many of the `count` heights from `first` on have a commit that lists the
validator. -/
def signedCommits (calls : List (Call Digest)) (id : Digest) (first count : Nat) : Nat :=
  (List.range' first count).countP (commitLists calls id)

--
-- Sets and signers
--

theorem validSet_spec {validators : List (V1Validator Digest)} {totalWeight : UInt64}
    (h : validSet validators = some totalWeight) :
    ValidSet validators ∧ totalWeight.toNat = weightSum validators := by
  unfold validSet at h
  split at h
  · cases h
  · rename_i hsize
    obtain ⟨hfour, hmax⟩ := not_or.mp hsize
    obtain ⟨hweights, hascending, hfits, htotal⟩ :=
      V1WeightedProposerSchedule.addValidators_eq_some_iff.mp h
    simp only [UInt64.toNat_zero, Nat.zero_add] at hfits htotal
    refine ⟨⟨?_, Nat.not_lt.mp hmax, hweights, List.pairwise_map.mp hascending, hfits⟩, htotal⟩
    rintro rfl
    exact hfour (Nat.zero_lt_succ 3)

/-- The loop finds every signer, in ascending order, and adds up their weights. -/
theorem signerLoop_spec {validators : List (V1Validator Digest)} {signers : List Digest}
    {last : Option Nat} {start : Nat} {startWeight total : UInt64} {indexes : List Nat}
    (h : signerLoop validators last start startWeight signers = some (indexes, total)) :
    ∃ found : List (V1Validator Digest),
      indexes.map (validators[·]?) = found.map some ∧ found.map (·.id) = signers ∧
      ((last.bind (validators[·]?)).toList ++ found).Pairwise (fun a b => a.id < b.id) ∧
      total.toNat = startWeight.toNat + weightSum found := by
  induction signers generalizing last start startWeight indexes total with
  | nil =>
    obtain ⟨rfl, rfl⟩ := Prod.mk.inj (Option.some.inj h)
    refine ⟨[], rfl, rfl, ?_, rfl⟩
    cases last.bind (validators[·]?) <;> simp
  | cons signer rest ih =>
    unfold signerLoop at h
    split at h
    · cases h
    · rename_i hbelow
      dsimp only at h
      split at h
      · cases h
      · rename_i validator hvalidator
        split at h
        · cases h
        · rename_i hguard
          obtain ⟨hid, hroom⟩ := not_or.mp hguard
          split at h
          · cases h
          · rename_i tail tailTotal htail
            obtain ⟨rfl, rfl⟩ := Prod.mk.inj (Option.some.inj h)
            obtain ⟨found, hindexes, hids, hascending, htotal⟩ := ih htail
            rw [Option.bind_some, hvalidator] at hascending
            refine ⟨validator :: found, ?_, ?_, ?_, ?_⟩
            · rw [List.map_cons, hvalidator, hindexes, List.map_cons]
            · rw [List.map_cons, hids, not_not.mp hid]
            · -- the signer before is below this one, and so below the rest
              cases hprevious : last.bind (validators[·]?) with
              | none => exact hascending
              | some previous =>
                rw [hprevious] at hbelow
                have hlt : previous.id < validator.id := by
                  rw [not_not.mp hid]
                  by_contra hnot
                  exact hbelow ⟨previous, rfl, hnot⟩
                refine List.pairwise_cons.mpr ⟨?_, hascending⟩
                intro other hother
                rcases List.mem_cons.mp hother with rfl | hrest
                · exact hlt
                · exact hlt.trans ((List.pairwise_cons.mp hascending).1 other hrest)
            · rw [htotal, toNat_add_of_guard hroom, V1WeightedProposerSchedule.weightSum_cons]
              omega

/-- Members of a set, listed once each, with more than two thirds of its weight. -/
def QuorumOf (validators : List (V1Validator Digest)) (signers : List Digest) : Prop :=
  ∃ found : List (V1Validator Digest), found.map (·.id) = signers ∧
    found.Pairwise (fun a b => a.id < b.id) ∧ (∀ validator ∈ found, validator ∈ validators) ∧
    2 * weightSum validators / 3 + 1 ≤ weightSum found

/-- The indexes of accepted signers are exactly their positions in the set. -/
structure SignerIndexes (validators : List (V1Validator Digest)) (signers : List Digest)
    (indexes : List Nat) : Prop where
  quorum : QuorumOf validators signers
  nodup : indexes.Nodup
  mem_iff : ∀ {index : Nat} {validator : V1Validator Digest},
    validators[index]? = some validator → (index ∈ indexes ↔ validator.id ∈ signers)

theorem verifiedSignerIndexes_spec {signers : List Digest}
    {validators : List (V1Validator Digest)} {totalWeight : UInt64} {indexes : List Nat}
    (hvalid : ValidSet validators) (htotal : totalWeight.toNat = weightSum validators)
    (h : verifiedSignerIndexes signers validators totalWeight = some indexes) :
    SignerIndexes validators signers indexes := by
  unfold verifiedSignerIndexes at h
  split at h
  · cases h
  · rename_i result signedWeight hloop
    split at h
    · cases h
    · rename_i hquorum
      obtain rfl := Option.some.inj h
      obtain ⟨found, hindexes, hids, hascending, hweight⟩ := signerLoop_spec hloop
      have hmembers : ∀ validator ∈ found, ∃ index ∈ result, validators[index]? = some validator := by
        intro validator hmem
        have : some validator ∈ result.map (validators[·]?) := by
          rw [hindexes]
          exact List.mem_map_of_mem hmem
        exact List.mem_map.mp this
      refine ⟨⟨found, hids, hascending, ?_, ?_⟩, ?_, ?_⟩
      · intro validator hmem
        obtain ⟨index, -, hindex⟩ := hmembers validator hmem
        exact List.mem_of_getElem? hindex
      · have hrequired : requiredWeight totalWeight =
            some (totalWeight - (totalWeight - 1) / 3) := by
          unfold requiredWeight
          rw [if_neg (by simpa using hvalid.weight_ne_zero htotal)]
        rw [← htotal, ← requiredWeight_toNat hrequired]
        rw [UInt64.not_lt, UInt64.le_iff_toNat_le, hweight, UInt64.toNat_zero] at hquorum
        omega
      · have hdistinct : found.Nodup :=
          List.Pairwise.imp (fun hlt heq => hlt.ne (congrArg V1Validator.id heq)) hascending
        have hnodup := hdistinct.map (Option.some_injective _)
        rw [← hindexes] at hnodup
        exact hnodup.of_map
      · intro index validator hvalidator
        rw [← hids]
        constructor
        · intro hmem
          have : some validator ∈ found.map some := by
            rw [← hindexes, ← hvalidator]
            exact List.mem_map_of_mem hmem
          obtain ⟨other, hother, heq⟩ := List.mem_map.mp this
          rw [← Option.some.inj heq]
          exact List.mem_map_of_mem hother
        · intro hmem
          obtain ⟨other, hother, hid⟩ := List.mem_map.mp hmem
          obtain ⟨position, hposition, hentry⟩ := hmembers other hother
          rw [← hvalid.index_eq hentry hvalidator hid]
          exact hposition

/-- The counters go up by one at the positions of the signers. -/
theorem countSigners_spec {signed result : List UInt64} {indexes : List Nat}
    (hnodup : indexes.Nodup) (h : countSigners signed indexes = some result) :
    result.map UInt64.toNat = signed.mapIdx (fun index count =>
      count.toNat + if index ∈ indexes then 1 else 0) := by
  induction indexes generalizing signed with
  | nil =>
    obtain rfl := Option.some.inj h
    refine List.ext_getElem? (fun position => ?_)
    simp
  | cons index rest ih =>
    obtain ⟨hfresh, hrest⟩ := List.nodup_cons.mp hnodup
    unfold countSigners at h
    split at h
    · cases h
    · rename_i count hcount
      split at h
      · cases h
      · rename_i htop
        rw [ih hrest h]
        refine List.ext_getElem? (fun position => ?_)
        rw [List.getElem?_mapIdx, List.getElem?_mapIdx, List.getElem?_set]
        by_cases hsame : index = position
        · subst hsame
          rw [if_pos rfl, if_pos (List.getElem?_eq_some_iff.mp hcount).1, hcount]
          simp only [Option.map_some, hfresh, if_false, List.mem_cons_self, if_true,
            Nat.add_zero, toNat_succ htop]
        · rw [if_neg hsame]
          have hmem : position ∈ index :: rest ↔ position ∈ rest := by
            rw [List.mem_cons, or_iff_right (Ne.symm hsame)]
          simp only [hmem]

--
-- What a call can do
--

/-- What every accepted call has passed, whatever its height. -/
structure AcceptedCall (s : V1LivenessAccountability Digest) (height : UInt64)
    (parent : Option (ParentCommit Digest)) (nextSet : Option (NextSet Digest))
    (signed : List UInt64) (observed : UInt64) : Prop where
  isNext : height = s.nextHeight
  notLast : height ≠ uint64Max
  hasParent : height ≠ 1 ↔ parent.isSome
  parentHeight : ∀ commit ∈ parent, commit.height = height - 1
  atBoundary : nextSet.isSome → height % s.epochLengthBlocks = 0
  counted : s.observe height parent = some (signed, observed)

/-- An accepted call closes the epoch, keeping or replacing the set, or continues
it. -/
theorem advance_cases {s s' : V1LivenessAccountability Digest} {height : UInt64}
    {parent : Option (ParentCommit Digest)} {nextSet : Option (NextSet Digest)}
    {result : Transition Digest} (h : s.advance height parent nextSet = (some result, s')) :
    ∃ signed observed, AcceptedCall s height parent nextSet signed observed ∧
      ((height % s.epochLengthBlocks = 0 ∧ observed = s.epochLengthBlocks - 1 ∧
          result = ⟨true, s.assess signed observed⟩ ∧
          ((nextSet = none ∧ s' = s.closeEpoch s.setRoot s.validators s.totalWeight) ∨
            ∃ next nextWeight, nextSet = some next ∧ validSet next.validators = some nextWeight ∧
              s' = s.closeEpoch next.root next.validators nextWeight)) ∨
        (height % s.epochLengthBlocks ≠ 0 ∧ result = ⟨false, []⟩ ∧
          s' = s.continueEpoch (s.firstOfEpoch height) signed observed)) := by
  unfold advance at h
  split at h
  · cases h
  · rename_i hguard
    simp only [not_or, not_and, not_not] at hguard
    obtain ⟨hheight, hbelow, hparent, hnext⟩ := hguard
    split at h
    · cases h
    · rename_i hparentHeight
      simp only [not_exists, not_and, not_not] at hparentHeight
      split at h
      · cases h
      · rename_i signed observed hobserve
        have haccepted : AcceptedCall s height parent nextSet signed observed := by
          refine ⟨hheight, hbelow, ?_, hparentHeight, hnext, hobserve⟩
          rw [not_iff] at hparent
          exact hparent
        refine ⟨signed, observed, haccepted, ?_⟩
        split at h
        · rename_i hboundary
          split at h
          · cases h
          · rename_i hobserved
            dsimp only at h
            split at h
            · obtain ⟨hresult, rfl⟩ := Prod.mk.inj h
              exact Or.inl ⟨hboundary, not_not.mp hobserved, (Option.some.inj hresult).symm,
                Or.inl ⟨rfl, rfl⟩⟩
            · rename_i next
              split at h
              · cases h
              · rename_i nextWeight hvalid
                obtain ⟨hresult, rfl⟩ := Prod.mk.inj h
                exact Or.inl ⟨hboundary, not_not.mp hobserved, (Option.some.inj hresult).symm,
                  Or.inr ⟨next, nextWeight, rfl, hvalid, rfl⟩⟩
        · rename_i hinside
          obtain ⟨hresult, rfl⟩ := Prod.mk.inj h
          exact Or.inr ⟨hinside, (Option.some.inj hresult).symm, rfl⟩

/-- A rejected call writes nothing. -/
theorem advance_rejected {s s' : V1LivenessAccountability Digest} {height : UInt64}
    {parent : Option (ParentCommit Digest)} {nextSet : Option (NextSet Digest)}
    (h : s.advance height parent nextSet = (none, s')) : s' = s := by
  unfold advance at h
  split at h
  · exact (Prod.mk.inj h).2.symm
  · split at h
    · exact (Prod.mk.inj h).2.symm
    · split at h
      · exact (Prod.mk.inj h).2.symm
      · split at h
        · split at h
          · exact (Prod.mk.inj h).2.symm
          · dsimp only at h
            split at h
            · cases h
            · split at h
              · exact (Prod.mk.inj h).2.symm
              · cases h
        · cases h

/-- The commit an `observe` outside the first block of an epoch counts. -/
theorem observe_counted {s : V1LivenessAccountability Digest} {height : UInt64}
    {commit : ParentCommit Digest} {signed : List UInt64} {observed : UInt64}
    (hvalid : ValidSet s.validators) (htotal : s.totalWeight.toNat = weightSum s.validators)
    (hfirst : ¬ s.firstOfEpoch height)
    (h : s.observe height (some commit) = some (signed, observed)) :
    s.observed < s.epochLengthBlocks - 1 ∧ observed = s.observed + 1 ∧
      ∃ indexes, SignerIndexes s.validators commit.signers indexes ∧
        signed.map UInt64.toNat = s.signed.mapIdx (fun index count =>
          count.toNat + if index ∈ indexes then 1 else 0) := by
  unfold observe at h
  dsimp only at h
  rw [if_neg hfirst] at h
  split at h
  · cases h
  · rename_i hguard
    have hroom := (not_or.mp hguard).2
    rw [UInt64.not_le] at hroom
    split at h
    · cases h
    · rename_i indexes hindexes
      split at h
      · cases h
      · rename_i counted hcounted
        obtain ⟨rfl, rfl⟩ := Prod.mk.inj (Option.some.inj h)
        have hspec := verifiedSignerIndexes_spec hvalid htotal hindexes
        exact ⟨hroom, rfl, indexes, hspec, countSigners_spec hspec.nodup hcounted⟩

/-- The commit it only checks, at the first block of an epoch. -/
theorem observe_first {s : V1LivenessAccountability Digest} {height : UInt64}
    {commit : ParentCommit Digest} {signed : List UInt64} {observed : UInt64}
    (hvalid : ValidSet s.previousBoundaryValidators)
    (htotal : s.previousBoundaryWeight.toNat = weightSum s.previousBoundaryValidators)
    (hfirst : s.firstOfEpoch height)
    (h : s.observe height (some commit) = some (signed, observed)) :
    s.previousBoundaryRoot = some commit.setRoot ∧
      QuorumOf s.previousBoundaryValidators commit.signers ∧
      signed = s.signed ∧ observed = s.observed := by
  unfold observe at h
  dsimp only at h
  rw [if_pos hfirst] at h
  split at h
  · cases h
  · rename_i hroot
    split at h
    · cases h
    · rename_i indexes hindexes
      obtain ⟨rfl, rfl⟩ := Prod.mk.inj (Option.some.inj h)
      exact ⟨not_not.mp hroot, (verifiedSignerIndexes_spec hvalid htotal hindexes).quorum,
        rfl, rfl⟩

--
-- The account of a run
--

/-- The set frozen for an epoch of a run from `genesis`. -/
def frozen (genesis : V1LivenessAccountability Digest) (calls : List (Call Digest))
    (epoch : Nat) : NextSet Digest :=
  frozenSet ⟨genesis.setRoot, genesis.validators⟩ genesis.epochLengthBlocks.toNat calls epoch

omit [LinearOrder Digest] in
/-- A further call changes no set already frozen. -/
theorem frozen_append (genesis : V1LivenessAccountability Digest) {calls : List (Call Digest)}
    (call : Call Digest) {epoch : Nat} (hlength : 0 < genesis.epochLengthBlocks.toNat)
    (h : epoch * genesis.epochLengthBlocks.toNat ≤ calls.length) :
    genesis.frozen (calls ++ [call]) epoch = genesis.frozen calls epoch := by
  induction epoch with
  | zero => rfl
  | succ epoch ih =>
    have hprevious := ih (by rw [Nat.succ_mul] at h; omega)
    have hlt : (epoch + 1) * genesis.epochLengthBlocks.toNat - 1 < calls.length := by
      have : 0 < (epoch + 1) * genesis.epochLengthBlocks.toNat := Nat.mul_pos (by omega) hlength
      omega
    unfold frozen at *
    rw [frozenSet, frozenSet, List.getElem?_append_left hlt]
    split
    · exact hprevious
    · rw [hprevious]

omit [LinearOrder Digest] in
/-- The set frozen by the call for the last height of an epoch. -/
theorem frozen_succ (genesis : V1LivenessAccountability Digest) {calls : List (Call Digest)}
    (call : Call Digest) {epoch : Nat}
    (h : calls.length + 1 = (epoch + 1) * genesis.epochLengthBlocks.toNat) :
    genesis.frozen (calls ++ [call]) (epoch + 1) =
      call.nextSet.getD (genesis.frozen (calls ++ [call]) epoch) := by
  unfold frozen
  rw [frozenSet, show (epoch + 1) * genesis.epochLengthBlocks.toNat - 1 = calls.length by omega,
    List.getElem?_concat_length]

theorem commitLists_append {calls : List (Call Digest)} (call : Call Digest) (id : Digest)
    {height : Nat} (h : height < calls.length) :
    commitLists (calls ++ [call]) id height = commitLists calls id height := by
  unfold commitLists
  rw [List.getElem?_append_left h]

theorem commitLists_last (calls : List (Call Digest)) (call : Call Digest) (id : Digest) :
    commitLists (calls ++ [call]) id calls.length =
      call.parent.any (fun commit => id ∈ commit.signers) := by
  unfold commitLists
  rw [List.getElem?_concat_length]
  rfl

/-- The count goes on with the commit of the height before the call. -/
theorem signedCommits_append {calls : List (Call Digest)} (call : Call Digest) (id : Digest)
    (first count : Nat) (h : first + count = calls.length) :
    signedCommits (calls ++ [call]) id first (count + 1) =
      signedCommits calls id first count +
        if call.parent.any (fun commit => id ∈ commit.signers) then 1 else 0 := by
  have hprefix : (List.range' first count).countP (commitLists (calls ++ [call]) id) =
      (List.range' first count).countP (commitLists calls id) := by
    refine List.countP_congr (fun height hheight => ?_)
    rw [commitLists_append call id (by rw [List.mem_range'_1] at hheight; omega)]
  unfold signedCommits
  rw [List.range'_1_concat, List.countP_append, hprefix, List.countP_singleton, h,
    commitLists_last]

/-- The state after `calls`, which reach `offset` blocks into `epoch`. -/
structure Accounted (genesis : V1LivenessAccountability Digest) (calls : List (Call Digest))
    (s : V1LivenessAccountability Digest) (epoch offset : Nat) : Prop where
  epochLength : s.epochLengthBlocks = genesis.epochLengthBlocks
  long : 288 ≤ genesis.epochLengthBlocks.toNat
  position : calls.length = epoch * genesis.epochLengthBlocks.toNat + offset
  offset_lt : offset < genesis.epochLengthBlocks.toNat
  nextHeight : s.nextHeight.toNat = calls.length + 1
  setRoot : s.setRoot = (genesis.frozen calls epoch).root
  validators : s.validators = (genesis.frozen calls epoch).validators
  valid : ValidSet s.validators
  total : s.totalWeight.toNat = weightSum s.validators
  observed : s.observed.toNat = offset - 1
  signed : s.signed.map UInt64.toNat = s.validators.map (fun validator =>
    signedCommits calls validator.id (epoch * genesis.epochLengthBlocks.toNat + 1) (offset - 1))
  boundary : ∀ previous, epoch = previous + 1 → offset = 0 →
    s.previousBoundaryRoot = some (genesis.frozen calls previous).root ∧
      s.previousBoundaryValidators = (genesis.frozen calls previous).validators ∧
      ValidSet s.previousBoundaryValidators ∧
      s.previousBoundaryWeight.toNat = weightSum s.previousBoundaryValidators

namespace Accounted

variable {genesis s s' : V1LivenessAccountability Digest} {calls : List (Call Digest)}
  {epoch offset : Nat}

/-- The height of the next call, by its place in the epoch. -/
theorem height_mod (h : Accounted genesis calls s epoch offset) {height : UInt64}
    (hheight : height = s.nextHeight) :
    height.toNat = epoch * genesis.epochLengthBlocks.toNat + offset + 1 ∧
      (height % s.epochLengthBlocks = 0 ↔ offset + 1 = genesis.epochLengthBlocks.toNat) ∧
      (s.firstOfEpoch height ↔ 0 < epoch ∧ offset = 0) := by
  have hexact : height.toNat = epoch * genesis.epochLengthBlocks.toNat + offset + 1 := by
    rw [hheight, h.nextHeight, h.position]
  have hlong := h.long
  have hlt := h.offset_lt
  have hone : 1 ≤ height := by
    rw [UInt64.le_iff_toNat_le, UInt64.toNat_one]
    omega
  refine ⟨hexact, ?_, ?_⟩
  · rw [← UInt64.toNat_inj, UInt64.toNat_mod, hexact, h.epochLength, UInt64.toNat_zero,
      Nat.add_assoc, Nat.mul_add_mod_self_right]
    constructor
    · intro hmod
      by_contra hne
      rw [Nat.mod_eq_of_lt (by omega)] at hmod
      omega
    · intro heq
      rw [heq, Nat.mod_self]
  · have hbefore : (height - 1).toNat = epoch * genesis.epochLengthBlocks.toNat + offset := by
      rw [UInt64.toNat_sub_of_le _ _ hone, hexact]
      rfl
    unfold firstOfEpoch
    rw [UInt64.lt_iff_toNat_lt, ← UInt64.toNat_inj, UInt64.toNat_mod, hbefore, hexact,
      h.epochLength, UInt64.toNat_zero, UInt64.toNat_one, Nat.mul_add_mod_self_right,
      Nat.mod_eq_of_lt hlt]
    constructor
    · rintro ⟨hlater, rfl⟩
      refine ⟨?_, rfl⟩
      by_contra hzero
      rw [Nat.le_zero.mp (Nat.not_lt.mp hzero)] at hlater
      omega
    · rintro ⟨hepoch, rfl⟩
      have := Nat.mul_pos hepoch (by omega : 0 < genesis.epochLengthBlocks.toNat)
      exact ⟨by omega, rfl⟩

/-- Only the very first call comes without a commit. -/
theorem epoch_pos_of_parent (h : Accounted genesis calls s epoch offset) {call : Call Digest}
    {signed : List UInt64} {observed : UInt64}
    (hcall : AcceptedCall s call.height call.parent call.nextSet signed observed)
    (hparent : call.parent.isSome) (hoffset : offset = 0) : 0 < epoch := by
  by_contra hzero
  have hheight := (h.height_mod hcall.isNext).1
  rw [Nat.le_zero.mp (Nat.not_lt.mp hzero), hoffset] at hheight
  refine hcall.hasParent.mpr hparent (UInt64.toNat_inj.mp ?_)
  rw [hheight, UInt64.toNat_one]
  omega

/-- **The counters of an accepted call** cover one commit more, unless the call is the
first of its epoch. -/
theorem counted (h : Accounted genesis calls s epoch offset) {call : Call Digest}
    {signed : List UInt64} {observed : UInt64}
    (hcall : AcceptedCall s call.height call.parent call.nextSet signed observed) :
    observed.toNat = offset ∧ signed.map UInt64.toNat = s.validators.map (fun validator =>
      signedCommits (calls ++ [call]) validator.id
        (epoch * genesis.epochLengthBlocks.toNat + 1) offset) := by
  obtain ⟨hheight, -, hfirst⟩ := h.height_mod hcall.isNext
  have hobserve := hcall.counted
  rcases Nat.eq_zero_or_pos offset with rfl | hoffset
  · -- nothing is counted before the second block of an epoch
    have hkept : signed = s.signed ∧ observed = s.observed := by
      cases hparent : call.parent with
      | none =>
        rw [hparent] at hobserve
        obtain ⟨rfl, rfl⟩ := Prod.mk.inj (Option.some.inj hobserve)
        exact ⟨rfl, rfl⟩
      | some commit =>
        have hepoch : 0 < epoch := h.epoch_pos_of_parent hcall (by rw [hparent]; rfl) rfl
        obtain ⟨-, -, hvalid, htotal⟩ := h.boundary (epoch - 1) (by omega) rfl
        rw [hparent] at hobserve
        exact (observe_first hvalid htotal (hfirst.mpr ⟨hepoch, rfl⟩) hobserve).2.2
    obtain ⟨rfl, rfl⟩ := hkept
    exact ⟨h.observed, h.signed⟩
  · have hnotFirst : ¬ s.firstOfEpoch call.height := by
      rw [hfirst]
      omega
    have hne : call.height ≠ 1 := by
      intro hone
      rw [hone, UInt64.toNat_one] at hheight
      omega
    obtain ⟨commit, hcommit⟩ := Option.isSome_iff_exists.mp (hcall.hasParent.mp hne)
    rw [hcommit] at hobserve
    obtain ⟨hroom, rfl, indexes, hindexes, hcounts⟩ :=
      observe_counted h.valid h.total hnotFirst hobserve
    constructor
    · have hbelow : s.observed ≠ uint64Max := by
        rintro heq
        rw [heq] at hroom
        exact absurd hroom (UInt64.not_lt.mpr (le_uint64Max _))
      rw [toNat_succ hbelow, h.observed]
      omega
    · rw [hcounts]
      refine List.ext_getElem? (fun index => ?_)
      have hold := congrArg (·[index]?) h.signed
      simp only [List.getElem?_map] at hold
      rw [List.getElem?_mapIdx, List.getElem?_map]
      cases hvalidator : s.validators[index]? with
      | none =>
        rw [hvalidator, Option.map_none, Option.map_eq_none_iff] at hold
        rw [hold]
        rfl
      | some validator =>
        rw [hvalidator] at hold
        obtain ⟨count, hcount, hexact⟩ := Option.map_eq_some_iff.mp hold
        have hstep := signedCommits_append call validator.id
          (epoch * genesis.epochLengthBlocks.toNat + 1) (offset - 1)
          (by rw [h.position]; omega)
        rw [Nat.sub_add_cancel hoffset, hcommit] at hstep
        rw [hcount, Option.map_some, Option.map_some, hexact, hstep]
        simp only [hindexes.mem_iff hvalidator, Option.any_some, decide_eq_true_eq]

/-- Closing an epoch starts the next one with an empty account. -/
theorem close (h : Accounted genesis calls s epoch offset) {call : Call Digest}
    {signed : List UInt64} {observed : UInt64}
    (hcall : AcceptedCall s call.height call.parent call.nextSet signed observed)
    (hlast : offset + 1 = genesis.epochLengthBlocks.toNat) (next : NextSet Digest)
    (nextWeight : UInt64) (hnext : next = call.nextSet.getD (genesis.frozen calls epoch))
    (hvalid : ValidSet next.validators) (htotal : nextWeight.toNat = weightSum next.validators) :
    Accounted genesis (calls ++ [call]) (s.closeEpoch next.root next.validators nextWeight)
      (epoch + 1) 0 := by
  have hposition := h.position
  have hlong := h.long
  have hsame : genesis.frozen (calls ++ [call]) epoch = genesis.frozen calls epoch :=
    frozen_append genesis call (by omega) (by omega)
  have hlength : calls.length + 1 = (epoch + 1) * genesis.epochLengthBlocks.toNat := by
    rw [Nat.succ_mul]
    omega
  have hfrozen : genesis.frozen (calls ++ [call]) (epoch + 1) = next := by
    rw [frozen_succ genesis call hlength, hsame, hnext]
  constructor
  · exact h.epochLength
  · exact hlong
  · rw [List.length_append, List.length_singleton]
    exact hlength
  · omega
  · have hbelow := hcall.notLast
    rw [hcall.isNext] at hbelow
    rw [List.length_append, List.length_singleton]
    show (s.nextHeight + 1).toNat = _
    rw [toNat_succ hbelow, h.nextHeight]
  · rw [hfrozen]
    rfl
  · rw [hfrozen]
    rfl
  · exact hvalid
  · exact htotal
  · rfl
  · show (List.replicate next.validators.length (0 : UInt64)).map UInt64.toNat =
      next.validators.map (fun _ => 0)
    rw [List.map_replicate, List.map_const', UInt64.toNat_zero]
  · intro previous hprevious _
    obtain rfl := Nat.succ.inj hprevious
    rw [hsame]
    exact ⟨congrArg some h.setRoot, h.validators, h.valid, h.total⟩

/-- Any other accepted call goes on with the account. -/
theorem inside (h : Accounted genesis calls s epoch offset) {call : Call Digest}
    {signed : List UInt64} {observed : UInt64} {first : Bool}
    (hcall : AcceptedCall s call.height call.parent call.nextSet signed observed)
    (hinside : offset + 1 ≠ genesis.epochLengthBlocks.toNat) :
    Accounted genesis (calls ++ [call]) (s.continueEpoch first signed observed) epoch
      (offset + 1) := by
  have hposition := h.position
  have hlong := h.long
  have hlt := h.offset_lt
  have hsame : genesis.frozen (calls ++ [call]) epoch = genesis.frozen calls epoch :=
    frozen_append genesis call (by omega) (by omega)
  obtain ⟨hobserved, hsigned⟩ := h.counted hcall
  constructor
  · exact h.epochLength
  · exact hlong
  · rw [List.length_append, List.length_singleton]
    omega
  · omega
  · have hbelow := hcall.notLast
    rw [hcall.isNext] at hbelow
    rw [List.length_append, List.length_singleton]
    show (s.nextHeight + 1).toNat = _
    rw [toNat_succ hbelow, h.nextHeight]
  · rw [hsame]
    exact h.setRoot
  · rw [hsame]
    exact h.validators
  · exact h.valid
  · exact h.total
  · exact hobserved
  · exact hsigned
  · intro previous _ hzero
    omega

/-- **One accepted call** keeps the account. -/
theorem step (h : Accounted genesis calls s epoch offset) {call : Call Digest}
    {result : Transition Digest}
    (hcall : s.advance call.height call.parent call.nextSet = (some result, s')) :
    ∃ epoch' offset', Accounted genesis (calls ++ [call]) s' epoch' offset' := by
  obtain ⟨signed, observed, haccepted, hcases⟩ := advance_cases hcall
  obtain ⟨-, hboundary, -⟩ := h.height_mod haccepted.isNext
  rcases hcases with ⟨hmod, -, -, ⟨hnone, rfl⟩ | ⟨next, nextWeight, hsome, hset, rfl⟩⟩ |
    ⟨hmod, -, rfl⟩
  · refine ⟨epoch + 1, 0, ?_⟩
    have hclosed := h.close haccepted (hboundary.mp hmod) (genesis.frozen calls epoch)
      s.totalWeight (by rw [hnone]; rfl) (h.validators ▸ h.valid)
      (by rw [← h.validators]; exact h.total)
    rw [← h.setRoot, ← h.validators] at hclosed
    exact hclosed
  · obtain ⟨hvalid, htotal⟩ := validSet_spec hset
    exact ⟨epoch + 1, 0, h.close haccepted (hboundary.mp hmod) next nextWeight
      (by rw [hsome]; rfl) hvalid htotal⟩
  · exact ⟨epoch, offset + 1, h.inside haccepted (fun heq => hmod (hboundary.mpr heq))⟩

end Accounted

theorem create_accounted {epochLengthBlocks : UInt64} {genesisSetRoot : Digest}
    {genesisValidators : List (V1Validator Digest)} {genesis : V1LivenessAccountability Digest}
    (h : create epochLengthBlocks genesisSetRoot genesisValidators = some genesis) :
    Accounted genesis [] genesis 0 0 := by
  unfold create at h
  split at h
  · cases h
  · rename_i hlength
    split at h
    · cases h
    · rename_i totalWeight hset
      obtain rfl := Option.some.inj h
      obtain ⟨hvalid, htotal⟩ := validSet_spec hset
      have hlong : 288 ≤ epochLengthBlocks.toNat := by
        have := (not_or.mp hlength).1
        rw [UInt64.not_lt, UInt64.le_iff_toNat_le] at this
        exact this
      constructor
      · rfl
      · exact hlong
      · simp
      · exact Nat.lt_of_lt_of_le (by decide) hlong
      · rfl
      · rfl
      · rfl
      · exact hvalid
      · exact htotal
      · rfl
      · show (List.replicate genesisValidators.length (0 : UInt64)).map UInt64.toNat =
          genesisValidators.map (fun _ => 0)
        rw [List.map_replicate, List.map_const', UInt64.toNat_zero]
      · intro previous hprevious
        cases hprevious

/-- Every run has its account. -/
theorem Run.accounted {genesis s : V1LivenessAccountability Digest} {calls : List (Call Digest)}
    (hstart : Accounted genesis [] genesis 0 0) (h : Run genesis calls s) :
    ∃ epoch offset, Accounted genesis calls s epoch offset := by
  induction h with
  | start => exact ⟨0, 0, hstart⟩
  | accepted _ hcall ih =>
    obtain ⟨epoch, offset, haccounted⟩ := ih
    exact haccounted.step hcall
  | rejected _ hcall ih =>
    rw [advance_rejected hcall]
    exact ih

--
-- Assessments
--

/-- What an assessment says. -/
def Assessment.reading (assessment : Assessment Digest) : Digest × Nat × Nat × Bool :=
  (assessment.validatorId, assessment.signedHeights.toNat, assessment.observedHeights.toNat,
    assessment.inactivityCandidate)

/-- What it should say of a validator: the commits that list it among the heights
`eL + 1` to `(e + 1)L - 1`, out of `L - 1`, and whether that is below three quarters. -/
def expectedReading (calls : List (Call Digest)) (epochLength epoch : Nat)
    (validator : V1Validator Digest) : Digest × Nat × Nat × Bool :=
  (validator.id, signedCommits calls validator.id (epoch * epochLength + 1) (epochLength - 1),
    epochLength - 1,
    4 * signedCommits calls validator.id (epoch * epochLength + 1) (epochLength - 1) <
      3 * (epochLength - 1))

omit [LinearOrder Digest] in
/-- The readings of `assess`, by the account of the counters. -/
theorem assess_reading {s : V1LivenessAccountability Digest} {signed : List UInt64}
    {observed : UInt64} {count : V1Validator Digest → Nat}
    (hsigned : signed.map UInt64.toNat = s.validators.map count) :
    (s.assess signed observed).map Assessment.reading = s.validators.map (fun validator =>
      (validator.id, count validator, observed.toNat,
        decide (4 * count validator < 3 * observed.toNat))) := by
  refine List.ext_getElem? (fun index => ?_)
  have hentry := congrArg (·[index]?) hsigned
  simp only [List.getElem?_map] at hentry
  unfold assess
  rw [List.map_map, List.getElem?_map, List.getElem?_map, List.zip, List.getElem?_zipWith]
  cases hvalidator : s.validators[index]? with
  | none => rfl
  | some validator =>
    rw [hvalidator] at hentry
    obtain ⟨value, hvalue, hexact⟩ := Option.map_eq_some_iff.mp hentry
    rw [hvalue]
    simp only [Option.map_some, Function.comp_apply, Assessment.reading, hexact, Nat.mul_comm 4,
      Nat.mul_comm 3]

/-- What an accepted call for `height` returns and has checked, after the calls before
it; `calls` has this call as its last entry. -/
structure CallAccount (genesis : V1LivenessAccountability Digest) (calls : List (Call Digest))
    (height : UInt64) (parent : Option (ParentCommit Digest)) (result : Transition Digest) :
    Prop where
  /-- The commit supplied is the one of the height before. -/
  parentHeight : ∀ commit ∈ parent, commit.height = height - 1
  /-- The last height of an epoch assesses the set frozen for it. -/
  boundary : ∀ epoch, height.toNat = (epoch + 1) * genesis.epochLengthBlocks.toNat →
    result.boundary = true ∧
      result.assessments.map Assessment.reading =
        (genesis.frozen calls epoch).validators.map
          (expectedReading calls genesis.epochLengthBlocks.toNat epoch)
  /-- No other height assesses anything. -/
  inside : (∀ epoch, height.toNat ≠ (epoch + 1) * genesis.epochLengthBlocks.toNat) →
    result.boundary = false ∧ result.assessments = []
  /-- The commit of the boundary block is checked against the old set. -/
  oldSet : ∀ epoch, height.toNat = (epoch + 1) * genesis.epochLengthBlocks.toNat + 1 →
    ∃ commit, parent = some commit ∧
      commit.setRoot = (genesis.frozen calls epoch).root ∧
      QuorumOf (genesis.frozen calls epoch).validators commit.signers
  /-- Its height is in no window that is counted. -/
  uncounted : ∀ epoch window, (epoch + 1) * genesis.epochLengthBlocks.toNat ∉
    List.range' (window * genesis.epochLengthBlocks.toNat + 1)
      (genesis.epochLengthBlocks.toNat - 1)

/-- Multiples of the epoch length are in no window. -/
theorem boundary_not_mem_window {length epoch window : Nat} (h : 0 < length) :
    (epoch + 1) * length ∉ List.range' (window * length + 1) (length - 1) := by
  intro hmem
  rw [List.mem_range'_1] at hmem
  obtain ⟨hlow, hhigh⟩ := hmem
  have habove : window < epoch + 1 := Nat.lt_of_mul_lt_mul_right (by omega : window * length < _)
  have hbelow : epoch + 1 < window + 1 := by
    refine Nat.lt_of_mul_lt_mul_right (a := length) ?_
    rw [Nat.succ_mul window]
    omega
  omega

/-- The place of a height determines its epoch and offset. -/
theorem epoch_unique {length epoch epoch' offset offset' : Nat} (hlt : offset < length)
    (hlt' : offset' < length) (h : epoch * length + offset = epoch' * length + offset') :
    epoch = epoch' ∧ offset = offset' := by
  have hdiv := congrArg (· / length) h
  simp only [Nat.add_comm (_ * length), Nat.add_mul_div_right _ _ (by omega : 0 < length),
    Nat.div_eq_of_lt hlt, Nat.div_eq_of_lt hlt', Nat.zero_add] at hdiv
  subst hdiv
  exact ⟨rfl, by omega⟩

theorem Accounted.callAccount {genesis s s' : V1LivenessAccountability Digest}
    {calls : List (Call Digest)} {epoch offset : Nat}
    (h : Accounted genesis calls s epoch offset) {call : Call Digest} {result : Transition Digest}
    (hcall : s.advance call.height call.parent call.nextSet = (some result, s')) :
    CallAccount genesis (calls ++ [call]) call.height call.parent result := by
  obtain ⟨signed, observed, haccepted, hcases⟩ := advance_cases hcall
  obtain ⟨hheight, hboundary, hfirst⟩ := h.height_mod haccepted.isNext
  obtain ⟨hobserved, hsigned⟩ := h.counted haccepted
  have hlong := h.long
  have hlt := h.offset_lt
  have hposition := h.position
  constructor
  · exact haccepted.parentHeight
  · intro closed hclosed
    obtain ⟨rfl, hlast⟩ : epoch = closed ∧ offset = genesis.epochLengthBlocks.toNat - 1 := by
      rw [Nat.succ_mul] at hclosed
      exact epoch_unique hlt (by omega) (by omega)
    rcases hcases with ⟨-, -, rfl, -⟩ | ⟨hmod, -, -⟩
    · refine ⟨rfl, ?_⟩
      rw [frozen_append genesis call (by omega) (by omega), ← h.validators]
      show (s.assess signed observed).map Assessment.reading = _
      rw [assess_reading hsigned, hobserved, hlast]
      rfl
    · exact absurd (hboundary.mpr (by omega)) hmod
  · intro hnone
    rcases hcases with ⟨hmod, -, -, -⟩ | ⟨-, rfl, -⟩
    · refine absurd ?_ (hnone epoch)
      have := hboundary.mp hmod
      rw [Nat.succ_mul]
      omega
    · exact ⟨rfl, rfl⟩
  · intro closed hclosed
    obtain ⟨rfl, rfl⟩ : epoch = closed + 1 ∧ offset = 0 := epoch_unique hlt (by omega) (by omega)
    have hone : call.height ≠ 1 := by
      intro hone
      rw [hone, UInt64.toNat_one] at hheight
      have := Nat.mul_pos (by omega : 0 < closed + 1) (by omega : 0 < genesis.epochLengthBlocks.toNat)
      omega
    obtain ⟨commit, hcommit⟩ := Option.isSome_iff_exists.mp (haccepted.hasParent.mp hone)
    obtain ⟨hroot, hvalidators, hvalid, htotal⟩ := h.boundary closed rfl rfl
    have hobserve := haccepted.counted
    rw [hcommit] at hobserve
    obtain ⟨hsetRoot, hquorum, -, -⟩ :=
      observe_first hvalid htotal (hfirst.mpr ⟨by omega, rfl⟩) hobserve
    rw [Nat.succ_mul] at hposition
    rw [frozen_append genesis call (by omega) (by omega)]
    refine ⟨commit, hcommit, ?_, hvalidators ▸ hquorum⟩
    rw [hroot] at hsetRoot
    exact (Option.some.inj hsetRoot).symm
  · intro closed window
    exact boundary_not_mem_window (by omega)

/-- **Exact liveness accounting.** Along every run from a created state, an accepted
call returns and checks what the account says, and a rejected one changes
nothing. -/
theorem liveness_accounting {epochLengthBlocks : UInt64} {genesisSetRoot : Digest}
    {genesisValidators : List (V1Validator Digest)} {genesis s : V1LivenessAccountability Digest}
    {calls : List (Call Digest)}
    (hcreate : create epochLengthBlocks genesisSetRoot genesisValidators = some genesis)
    (hrun : Run genesis calls s) :
    (∀ (call : Call Digest) (result : Transition Digest) (s' : V1LivenessAccountability Digest),
      s.advance call.height call.parent call.nextSet = (some result, s') →
      call.height.toNat = calls.length + 1 ∧
        CallAccount genesis (calls ++ [call]) call.height call.parent result) ∧
    ∀ (call : Call Digest) (s' : V1LivenessAccountability Digest),
      s.advance call.height call.parent call.nextSet = (none, s') → s' = s := by
  obtain ⟨epoch, offset, haccounted⟩ := hrun.accounted (create_accounted hcreate)
  refine ⟨fun call result s' hcall => ⟨?_, haccounted.callAccount hcall⟩,
    fun call s' hcall => advance_rejected hcall⟩
  obtain ⟨signed, observed, haccepted, -⟩ := advance_cases hcall
  rw [haccepted.isNext, haccounted.nextHeight]

/-- Calls that have to be accepted one after the other. -/
def acceptAll (s : V1LivenessAccountability Digest) :
    List (Call Digest) → Option (V1LivenessAccountability Digest)
  | [] => some s
  | call :: rest =>
    match s.advance call.height call.parent call.nextSet with
    | (none, _) => none
    | (some _, s') => acceptAll s' rest

theorem Run.acceptAll {genesis s s' : V1LivenessAccountability Digest}
    {calls rest : List (Call Digest)} (h : Run genesis calls s)
    (hrest : s.acceptAll rest = some s') : Run genesis (calls ++ rest) s' := by
  induction rest generalizing s calls with
  | nil =>
    obtain rfl := Option.some.inj hrest
    rw [List.append_nil]
    exact h
  | cons call rest ih =>
    unfold V1LivenessAccountability.acceptAll at hrest
    split at hrest
    · cases hrest
    · rename_i result next hcall
      have hnext := ih (h.accepted hcall) hrest
      rw [List.append_assoc] at hnext
      exact hnext

/-- Four validators of weight one and the shortest epoch. -/
def sampleGenesis : V1LivenessAccountability Nat :=
  { epochLengthBlocks := 288, nextHeight := 1, epoch := 0, observed := 0, totalWeight := 4
    setRoot := 0, previousBoundaryRoot := none, previousBoundaryValidators := []
    previousBoundaryWeight := 0, validators := [⟨1, 1⟩, ⟨2, 1⟩, ⟨3, 1⟩, ⟨4, 1⟩]
    signed := [0, 0, 0, 0] }

/-- The fourth validator stops signing after height 100. -/
def sampleCall (height : Nat) : Call Nat :=
  { height := UInt64.ofNat height
    parent := if height = 1 then none else some
      { height := UInt64.ofNat (height - 1), setRoot := 0
        signers := if height ≤ 101 then [1, 2, 3, 4] else [1, 2, 3] }
    nextSet := none }

/-- The state before the call for the last height of the first epoch. -/
def sampleState : V1LivenessAccountability Nat :=
  { sampleGenesis with nextHeight := 288, observed := 286, signed := [286, 286, 286, 100] }

theorem sampleGenesis_created :
    create 288 0 sampleGenesis.validators = some sampleGenesis := rfl

theorem sampleState_run : Run sampleGenesis ((List.range' 1 287).map sampleCall) sampleState :=
  Run.start.acceptAll (by decide +kernel)

/-- The first epoch ends with the fourth validator below the threshold. -/
theorem liveness_accounting_first_epoch :
    (sampleState.advance 288 (sampleCall 288).parent none).1.map
        (fun result => result.assessments.map Assessment.reading) =
      some [(1, 287, 287, false), (2, 287, 287, false), (3, 287, 287, false),
        (4, 100, 287, true)] ∧
    ∃ result s', sampleState.advance (sampleCall 288).height (sampleCall 288).parent
        (sampleCall 288).nextSet = (some result, s') ∧
      CallAccount sampleGenesis ((List.range' 1 287).map sampleCall ++ [sampleCall 288])
        (sampleCall 288).height (sampleCall 288).parent result := by
  refine ⟨by decide +kernel, ?_⟩
  have hsome : (sampleState.advance (sampleCall 288).height (sampleCall 288).parent
      (sampleCall 288).nextSet).1.isSome := by decide +kernel
  obtain ⟨result, hresult⟩ := Option.isSome_iff_exists.mp hsome
  refine ⟨result, _, Prod.ext hresult rfl, ?_⟩
  exact ((liveness_accounting sampleGenesis_created sampleState_run).1 (sampleCall 288) result _
    (Prod.ext hresult rfl)).2

end V1LivenessAccountability

end Nodo.Model
