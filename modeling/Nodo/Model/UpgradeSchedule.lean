import Mathlib.Data.List.Range
import Nodo.Model.Validators

/-!
# Nodo — the upgrade schedule

`consensus/V1UpgradeSchedule.cpp`: which rule set is active at a height. Governance
appends an upgrade with its activation height, or cancels the pending one; entries
are never removed. `activeAt` walks the entries in the order they were scheduled,
whatever their heights, and takes the last that counts.

What makes the walk right is that an upgrade is accepted only where none is pending:
the entries that are not canceled have ascending activation heights, and a
cancellation can only reach the last of them.

## Results

* `apply_activeAt` — no call changes the rules of its own height or a lower one.
* `Lined.run` — the invariant of the entries that are not canceled.
* `upgrade_history` — history, single pending upgrade, chain of versions, epochs
  and header commitments, over every sequence of calls.
-/

namespace Nodo.Model

/-- `V1UpgradeSchedule::Digest`. -/
abbrev V1Digest := Vector UInt8 32

--
-- The schedule
--

namespace V1UpgradeSchedule

structure Rules where
  version : UInt16
  hash : V1Digest

structure HeaderRules where
  current : Rules
  next : Rules

structure Upgrade where
  activationHeight : UInt64
  rules : Rules
  canceled : Bool

end V1UpgradeSchedule

structure V1UpgradeSchedule where
  epochLengthBlocks : UInt64
  initialRulesHash : V1Digest
  lastMutationHeight : UInt64
  upgrades : List V1UpgradeSchedule.Upgrade

namespace V1UpgradeSchedule

def isZero (digest : V1Digest) : Bool := digest.toList.all (· == 0)

/-- `V1UpgradeSchedule::kFullNoticeEpochs`. -/
def kFullNoticeEpochs : UInt64 := 4

def create (epochLengthBlocks : UInt64) (initialRulesHash : V1Digest) :
    Option V1UpgradeSchedule :=
  if epochLengthBlocks = 0 ∨ isZero initialRulesHash then none
  else some { epochLengthBlocks, initialRulesHash, lastMutationHeight := 0, upgrades := [] }

/-- `ruleSetHash`; `none` stands for the exception. The digest function is
`V1EncodingPrimitives::hash` in the domain `RULESET`. -/
def ruleSetHash (digest : List UInt8 → V1Digest) (version : UInt16)
    (bundleHash vectorsHash migrationHash : V1Digest) : Option V1Digest :=
  if version = 0 ∨ isZero bundleHash ∨ isZero vectorsHash then none
  else some (digest ((version >>> 8).toUInt8 :: version.toUInt8 ::
    (bundleHash.toList ++ vectorsHash.toList ++ migrationHash.toList)))

def earliestActivationHeight (s : V1UpgradeSchedule) (executionHeight : UInt64) :
    Option UInt64 :=
  if executionHeight = 0 then none
  else
    let executionEpoch := (executionHeight - 1) / s.epochLengthBlocks
    if uint64Max - kFullNoticeEpochs - 1 < executionEpoch then none
    else
      let earliestEpoch := executionEpoch + kFullNoticeEpochs + 1
      if (uint64Max - 1) / s.epochLengthBlocks < earliestEpoch then none
      else some (earliestEpoch * s.epochLengthBlocks + 1)

def hasPendingAt (s : V1UpgradeSchedule) (height : UInt64) : Bool :=
  s.upgrades.any fun upgrade => !upgrade.canceled && height < upgrade.activationHeight

def activeAt (s : V1UpgradeSchedule) (height : UInt64) : Rules :=
  s.upgrades.foldl
    (fun active upgrade =>
      if !upgrade.canceled && upgrade.activationHeight ≤ height then upgrade.rules else active)
    { version := 1, hash := s.initialRulesHash }

def headerRules (s : V1UpgradeSchedule) (height : UInt64) : Option HeaderRules :=
  if height = uint64Max then none
  else some { current := s.activeAt height, next := s.activeAt (height + 1) }

/-- The guard in front of `schedule`. -/
def refusesSchedule (s : V1UpgradeSchedule) (executionHeight activationHeight earliest : UInt64) :
    Bool :=
  executionHeight ≤ s.lastMutationHeight || activationHeight < earliest
    || activationHeight ≤ executionHeight
    || (activationHeight - 1) % s.epochLengthBlocks != 0
    || s.hasPendingAt executionHeight
    || s.upgrades.any fun upgrade => upgrade.activationHeight == activationHeight

def schedule (digest : List UInt8 → V1Digest) (s : V1UpgradeSchedule)
    (executionHeight activationHeight : UInt64) (nextVersion : UInt16)
    (bundleHash vectorsHash migrationHash : V1Digest) : Option Rules × V1UpgradeSchedule :=
  match s.earliestActivationHeight executionHeight with
  | none => (none, s)
  | some earliest =>
    if s.refusesSchedule executionHeight activationHeight earliest then (none, s)
    else
      let current := s.activeAt executionHeight
      if current.version = 65535 ∨ nextVersion ≠ current.version + 1 then (none, s)
      else
        match ruleSetHash digest nextVersion bundleHash vectorsHash migrationHash with
        | none => (none, s)
        | some hash =>
          let next : Rules := { version := nextVersion, hash }
          (some next,
            { s with upgrades := s.upgrades ++ [{ activationHeight, rules := next, canceled := false }]
                     lastMutationHeight := executionHeight })

/-- Marks the first entry that matches. -/
def cancelFirst (found : Upgrade → Bool) : List Upgrade → Option (List Upgrade)
  | [] => none
  | upgrade :: rest =>
    if found upgrade then some ({ upgrade with canceled := true } :: rest)
    else (cancelFirst found rest).map (upgrade :: ·)

/-- The walk goes from the last entry to the first. -/
def cancelPending (s : V1UpgradeSchedule) (executionHeight activationHeight : UInt64)
    (ruleSetHash : V1Digest) : Bool × V1UpgradeSchedule :=
  if executionHeight = 0 ∨ executionHeight ≤ s.lastMutationHeight then (false, s)
  else
    match cancelFirst
        (fun upgrade => !upgrade.canceled && executionHeight < upgrade.activationHeight
          && upgrade.activationHeight == activationHeight && upgrade.rules.hash == ruleSetHash)
        s.upgrades.reverse with
    | none => (false, s)
    | some reversed =>
      (true, { s with upgrades := reversed.reverse, lastMutationHeight := executionHeight })

--
-- Runs of calls
--

/-- One call, with its arguments. -/
inductive Call
  | schedule (executionHeight activationHeight : UInt64) (nextVersion : UInt16)
      (bundleHash vectorsHash migrationHash : V1Digest)
  | cancelPending (executionHeight activationHeight : UInt64) (ruleSetHash : V1Digest)

def Call.executionHeight : Call → UInt64
  | schedule executionHeight .. => executionHeight
  | cancelPending executionHeight .. => executionHeight

/-- The schedule after a call, accepted or not. -/
def apply (digest : List UInt8 → V1Digest) (s : V1UpgradeSchedule) : Call → V1UpgradeSchedule
  | .schedule executionHeight activationHeight nextVersion bundleHash vectorsHash migrationHash =>
    (s.schedule digest executionHeight activationHeight nextVersion bundleHash vectorsHash
      migrationHash).2
  | .cancelPending executionHeight activationHeight ruleSetHash =>
    (s.cancelPending executionHeight activationHeight ruleSetHash).2

def run (digest : List UInt8 → V1Digest) (s : V1UpgradeSchedule) (calls : List Call) :
    V1UpgradeSchedule :=
  calls.foldl (apply digest) s

--
-- What a call can do
--

/-- What `schedule` has checked where it appends an entry. -/
structure Accepted (s : V1UpgradeSchedule) (executionHeight activationHeight : UInt64)
    (nextVersion : UInt16) : Prop where
  later : s.lastMutationHeight < executionHeight
  future : executionHeight < activationHeight
  boundary : (activationHeight - 1) % s.epochLengthBlocks = 0
  notice : ∃ earliest, s.earliestActivationHeight executionHeight = some earliest ∧
    earliest ≤ activationHeight
  idle : ∀ upgrade ∈ s.upgrades, upgrade.canceled = false →
    upgrade.activationHeight ≤ executionHeight
  fresh : ∀ upgrade ∈ s.upgrades, upgrade.activationHeight ≠ activationHeight
  version : nextVersion.toNat = (s.activeAt executionHeight).version.toNat + 1

theorem accepted_of_checks {s : V1UpgradeSchedule}
    {executionHeight activationHeight earliest : UInt64} {nextVersion : UInt16}
    (hearliest : s.earliestActivationHeight executionHeight = some earliest)
    (hguard : s.refusesSchedule executionHeight activationHeight earliest = false)
    (hversion : ¬ ((s.activeAt executionHeight).version = 65535 ∨
      nextVersion ≠ (s.activeAt executionHeight).version + 1)) :
    Accepted s executionHeight activationHeight nextVersion := by
  unfold refusesSchedule hasPendingAt at hguard
  simp only [Bool.or_eq_false_iff, decide_eq_false_iff_not, List.any_eq_false, bne_eq_false_iff_eq,
    Bool.and_eq_true, Bool.not_eq_true', decide_eq_true_eq, beq_iff_eq, not_and,
    UInt64.not_le, UInt64.not_lt] at hguard
  obtain ⟨⟨⟨⟨⟨hlater, hnotice⟩, hfuture⟩, hboundary⟩, hidle⟩, hfresh⟩ := hguard
  refine ⟨hlater, hfuture, hboundary, ⟨earliest, hearliest, hnotice⟩, hidle, hfresh, ?_⟩
  -- below the top of `uint16` the increment does not wrap
  simp only [not_or, not_not] at hversion
  obtain ⟨htop, rfl⟩ := hversion
  have hlt := (s.activeAt executionHeight).version.toNat_lt
  have hne : (s.activeAt executionHeight).version.toNat ≠ 65535 := by
    intro heq
    exact htop (UInt16.toNat_inj.mp heq)
  rw [UInt16.toNat_add]
  exact Nat.mod_eq_of_lt (by rw [UInt16.toNat_one]; omega)

/-- A `schedule` call leaves the schedule as it is, or returns the rules and appends
them. -/
theorem schedule_cases (digest : List UInt8 → V1Digest) (s : V1UpgradeSchedule)
    (executionHeight activationHeight : UInt64) (nextVersion : UInt16)
    (bundleHash vectorsHash migrationHash : V1Digest) :
    (s.schedule digest executionHeight activationHeight nextVersion bundleHash vectorsHash
      migrationHash).2 = s ∨
    ∃ hash, Accepted s executionHeight activationHeight nextVersion ∧
      s.schedule digest executionHeight activationHeight nextVersion bundleHash vectorsHash
        migrationHash = (some ⟨nextVersion, hash⟩,
        { s with
          upgrades := s.upgrades ++ [⟨activationHeight, ⟨nextVersion, hash⟩, false⟩]
          lastMutationHeight := executionHeight }) := by
  unfold schedule
  split
  · exact Or.inl rfl
  · rename_i earliest hearliest
    split
    · exact Or.inl rfl
    · rename_i hguard
      dsimp only
      split
      · exact Or.inl rfl
      · rename_i hversion
        split
        · exact Or.inl rfl
        · rename_i hash _
          exact Or.inr ⟨hash, accepted_of_checks hearliest (by simpa using hguard) hversion, rfl⟩

theorem cancelFirst_eq_some {found : Upgrade → Bool} {upgrades result : List Upgrade}
    (h : cancelFirst found upgrades = some result) :
    ∃ before upgrade after, upgrades = before ++ upgrade :: after ∧ found upgrade = true ∧
      result = before ++ { upgrade with canceled := true } :: after := by
  induction upgrades generalizing result with
  | nil => cases h
  | cons upgrade rest ih =>
    unfold cancelFirst at h
    split at h
    · rename_i hfound
      exact ⟨[], upgrade, rest, rfl, hfound, (Option.some.inj h).symm⟩
    · obtain ⟨marked, hmarked, rfl⟩ := Option.map_eq_some_iff.mp h
      obtain ⟨before, found, after, rfl, hfound, rfl⟩ := ih hmarked
      exact ⟨upgrade :: before, found, after, rfl, hfound, rfl⟩

/-- A `cancelPending` call leaves the schedule as it is or marks one pending entry. -/
theorem cancelPending_cases (s : V1UpgradeSchedule) (executionHeight activationHeight : UInt64)
    (ruleSetHash : V1Digest) :
    (s.cancelPending executionHeight activationHeight ruleSetHash).2 = s ∨
    ∃ before upgrade after, s.upgrades = before ++ upgrade :: after ∧
      upgrade.canceled = false ∧ executionHeight < upgrade.activationHeight ∧
      s.lastMutationHeight < executionHeight ∧
      (s.cancelPending executionHeight activationHeight ruleSetHash).2 =
        { s with
          upgrades := before ++ { upgrade with canceled := true } :: after
          lastMutationHeight := executionHeight } := by
  unfold cancelPending
  split
  · exact Or.inl rfl
  · rename_i hguard
    split
    · exact Or.inl rfl
    · rename_i reversed hcancel
      obtain ⟨after, upgrade, before, hsplit, hfound, rfl⟩ := cancelFirst_eq_some hcancel
      simp only [Bool.and_eq_true, Bool.not_eq_true', decide_eq_true_eq] at hfound
      simp only [not_or, UInt64.not_le] at hguard
      refine Or.inr ⟨before.reverse, upgrade, after.reverse, ?_, hfound.1.1.1, hfound.1.1.2,
        hguard.2, ?_⟩
      · rw [← List.reverse_reverse s.upgrades, hsplit]
        simp
      · simp

--
-- The rules of a height
--

/-- The entries that are not canceled, in the order they were scheduled. -/
def live (s : V1UpgradeSchedule) : List Upgrade := s.upgrades.filter (!·.canceled)

/-- The entries that count at a height. -/
def inForce (s : V1UpgradeSchedule) (height : UInt64) : List Upgrade :=
  s.live.filter (·.activationHeight ≤ height)

/-- The rules of the last entry, or the ones before all of them. -/
def lastRules (initial : Rules) (upgrades : List Upgrade) : Rules :=
  (upgrades.getLast?.map Upgrade.rules).getD initial

/-- `activeAt` takes the last entry in force. -/
theorem activeAt_eq (s : V1UpgradeSchedule) (height : UInt64) :
    s.activeAt height = lastRules ⟨1, s.initialRulesHash⟩ (s.inForce height) := by
  have hfold : ∀ (upgrades : List Upgrade) (active : Rules),
      upgrades.foldl (fun active upgrade =>
        if !upgrade.canceled && upgrade.activationHeight ≤ height then upgrade.rules else active)
        active =
      lastRules active
        ((upgrades.filter (!·.canceled)).filter (·.activationHeight ≤ height)) := by
    intro upgrades
    induction upgrades with
    | nil => intro active; rfl
    | cons upgrade rest ih =>
      intro active
      rw [List.foldl_cons, ih, List.filter_filter, List.filter_filter]
      by_cases hcounts : (upgrade.activationHeight ≤ height ∧ upgrade.canceled = false)
      · obtain ⟨hheight, hcanceled⟩ := hcounts
        rw [List.filter_cons_of_pos (by simp [hheight, hcanceled]),
          if_pos (by simp [hheight, hcanceled])]
        unfold lastRules
        rw [List.getLast?_cons]
        cases (rest.filter _).getLast? <;> rfl
      · rw [List.filter_cons_of_neg (by simpa using hcounts), if_neg (by
          simp only [Bool.and_eq_true, Bool.not_eq_true', decide_eq_true_eq]
          exact fun h => hcounts h.symm)]
  exact hfold s.upgrades _

/-- Schedules with the same entries in force agree on a height. -/
theorem activeAt_congr {s s' : V1UpgradeSchedule} {height height' : UInt64}
    (hinit : s'.initialRulesHash = s.initialRulesHash)
    (h : s'.inForce height' = s.inForce height) : s'.activeAt height' = s.activeAt height := by
  rw [activeAt_eq, activeAt_eq, h, hinit]

/-- An entry above the height does not count, canceled or not. -/
theorem inForce_insert (before middle middle' after : List Upgrade) {height : UInt64}
    {s s' : V1UpgradeSchedule} (hs : s.upgrades = before ++ middle ++ after)
    (hs' : s'.upgrades = before ++ middle' ++ after)
    (hmiddle : ∀ upgrade ∈ middle, height < upgrade.activationHeight)
    (hmiddle' : ∀ upgrade ∈ middle', height < upgrade.activationHeight) :
    s'.inForce height = s.inForce height := by
  have hnone : ∀ upgrades : List Upgrade, (∀ upgrade ∈ upgrades, height < upgrade.activationHeight) →
      (upgrades.filter (!·.canceled)).filter (·.activationHeight ≤ height) = [] := by
    intro upgrades habove
    rw [List.filter_eq_nil_iff]
    intro upgrade hmem
    have := habove upgrade (List.mem_of_mem_filter hmem)
    simpa using this
  unfold inForce live
  rw [hs, hs']
  simp only [List.filter_append, hnone middle hmiddle, hnone middle' hmiddle']

/-- **History is immutable.** A call changes the rules of no height up to its own. -/
theorem apply_activeAt (digest : List UInt8 → V1Digest) (s : V1UpgradeSchedule) (call : Call)
    {height : UInt64} (h : height ≤ call.executionHeight) :
    (s.apply digest call).activeAt height = s.activeAt height := by
  cases call with
  | schedule executionHeight activationHeight nextVersion bundleHash vectorsHash migrationHash =>
    obtain hsame | ⟨hash, haccepted, hs'⟩ := schedule_cases digest s executionHeight activationHeight
      nextVersion bundleHash vectorsHash migrationHash
    · exact congrArg (·.activeAt height) hsame
    · show (s.schedule digest _ _ _ _ _ _).2.activeAt height = _
      rw [hs']
      refine activeAt_congr rfl (inForce_insert s.upgrades [] _ [] (by simp)
        (List.append_nil _).symm (by simp) ?_)
      intro upgrade hmem
      rw [List.mem_singleton.mp hmem]
      exact UInt64.lt_of_le_of_lt h haccepted.future
  | cancelPending executionHeight activationHeight ruleSetHash =>
    obtain hsame | ⟨before, upgrade, after, hsplit, -, hpending, -, hs'⟩ :=
      cancelPending_cases s executionHeight activationHeight ruleSetHash
    · exact congrArg (·.activeAt height) hsame
    · show (s.cancelPending _ _ _).2.activeAt height = _
      rw [hs']
      have habove := UInt64.lt_of_le_of_lt h hpending
      refine activeAt_congr rfl (inForce_insert before [upgrade]
        [{ upgrade with canceled := true }] after (by simp [hsplit]) (by simp) ?_ ?_)
      · intro other hmem
        rw [List.mem_singleton.mp hmem]
        exact habove
      · intro other hmem
        rw [List.mem_singleton.mp hmem]
        exact habove

--
-- The invariant
--

/-- The live entries carry the versions from 2 on, at ascending heights of which only
the last can lie above the last mutation; no height is used twice, canceled entries
included. -/
structure Lined (s : V1UpgradeSchedule) : Prop where
  versions : s.live.map (·.rules.version.toNat) = List.range' 2 s.live.length
  ascending : s.live.Pairwise (fun a b => a.activationHeight < b.activationHeight)
  settled : ∀ upgrade ∈ s.live.dropLast, upgrade.activationHeight ≤ s.lastMutationHeight
  distinct : (s.upgrades.map (·.activationHeight)).Nodup
  positive : ∀ upgrade ∈ s.upgrades, upgrade.activationHeight ≠ 0

/-- The version in force after a full prefix of the live entries. -/
theorem lastRules_version {upgrades : List Upgrade} {initial : V1Digest}
    (h : upgrades.map (·.rules.version.toNat) = List.range' 2 upgrades.length) :
    (lastRules ⟨1, initial⟩ upgrades).version.toNat = upgrades.length + 1 := by
  rcases List.eq_nil_or_concat upgrades with rfl | ⟨initials, last, rfl⟩
  · rfl
  · rw [List.concat_eq_append] at h ⊢
    unfold lastRules
    rw [List.getLast?_concat]
    rw [List.length_append, List.length_singleton, List.range'_concat, List.map_append,
      List.map_singleton] at h
    have hlast := (List.append_inj_right' h rfl)
    simp only [List.cons.injEq, and_true] at hlast
    simp only [Option.map_some, Option.getD_some, List.length_append,
      List.length_singleton]
    omega

/-- Where nothing is pending, all live entries are in force. -/
theorem inForce_of_idle {s : V1UpgradeSchedule} {height : UInt64}
    (h : ∀ upgrade ∈ s.upgrades, upgrade.canceled = false → upgrade.activationHeight ≤ height) :
    s.inForce height = s.live := by
  unfold inForce
  rw [List.filter_eq_self]
  intro upgrade hmem
  obtain ⟨hmem, hlive⟩ := List.mem_filter.mp hmem
  exact decide_eq_true (h upgrade hmem (by simpa using hlive))

theorem Lined.schedule {s : V1UpgradeSchedule} (hlined : Lined s)
    {executionHeight activationHeight : UInt64} {nextVersion : UInt16} {hash : V1Digest}
    (h : Accepted s executionHeight activationHeight nextVersion) :
    Lined { s with
      upgrades := s.upgrades ++ [⟨activationHeight, ⟨nextVersion, hash⟩, false⟩]
      lastMutationHeight := executionHeight } := by
  have hlive : live { s with
      upgrades := s.upgrades ++ [⟨activationHeight, ⟨nextVersion, hash⟩, false⟩]
      lastMutationHeight := executionHeight } =
      s.live ++ [⟨activationHeight, ⟨nextVersion, hash⟩, false⟩] := by
    simp [live, List.filter_append]
  have hbelow : ∀ upgrade ∈ s.live, upgrade.activationHeight ≤ executionHeight := by
    intro upgrade hmem
    obtain ⟨hmem, hcanceled⟩ := List.mem_filter.mp hmem
    exact h.idle upgrade hmem (by simpa using hcanceled)
  constructor
  · -- the version in force is the one of the last live entry
    have hversion := h.version
    rw [activeAt_eq, inForce_of_idle h.idle, lastRules_version hlined.versions] at hversion
    rw [hlive, List.map_append, hlined.versions, List.length_append, List.length_singleton,
      List.range'_concat, List.map_singleton, hversion]
    congr 2
    omega
  · rw [hlive]
    refine List.pairwise_append.mpr ⟨hlined.ascending, List.pairwise_singleton _ _, ?_⟩
    intro upgrade hmem new hnew
    rw [List.mem_singleton.mp hnew]
    exact UInt64.lt_of_le_of_lt (hbelow upgrade hmem) h.future
  · rw [hlive, List.dropLast_concat]
    exact hbelow
  · show ((s.upgrades ++ [_]).map _).Nodup
    rw [List.map_append, List.nodup_append]
    refine ⟨hlined.distinct, List.nodup_singleton _, ?_⟩
    intro height hmem new hnew
    obtain ⟨upgrade, hupgrade, rfl⟩ := List.mem_map.mp hmem
    rw [List.mem_singleton.mp hnew]
    exact h.fresh upgrade hupgrade
  · intro upgrade hmem
    rcases List.mem_append.mp hmem with hold | hnew
    · exact hlined.positive upgrade hold
    · rw [List.mem_singleton.mp hnew]
      rintro rfl
      exact UInt64.not_lt_zero h.future

theorem Lined.cancel {s : V1UpgradeSchedule} (hlined : Lined s) {executionHeight : UInt64}
    {before after : List Upgrade} {upgrade : Upgrade}
    (hsplit : s.upgrades = before ++ upgrade :: after) (hcanceled : upgrade.canceled = false)
    (hpending : executionHeight < upgrade.activationHeight)
    (hlater : s.lastMutationHeight < executionHeight) :
    Lined { s with
      upgrades := before ++ { upgrade with canceled := true } :: after
      lastMutationHeight := executionHeight } := by
  have hold : s.live = before.filter (!·.canceled) ++ upgrade :: after.filter (!·.canceled) := by
    simp [live, hsplit, List.filter_append, hcanceled]
  -- the entry lies above the last mutation, so it is the last live one
  have hlast : after.filter (!·.canceled) = [] := by
    by_contra hne
    have hmem : upgrade ∈ s.live.dropLast := by
      rw [hold, List.dropLast_append_cons, List.dropLast_cons_of_ne_nil hne]
      simp
    have hsettled := hlined.settled upgrade hmem
    exact absurd (UInt64.lt_trans hlater hpending) (UInt64.not_lt.mpr hsettled)
  have hlive : live { s with
      upgrades := before ++ { upgrade with canceled := true } :: after
      lastMutationHeight := executionHeight } = s.live.dropLast := by
    rw [hold, hlast, List.dropLast_concat]
    simp [live, List.filter_append, hlast]
  have hpre : s.live = s.live.dropLast ++ [upgrade] := by
    rw [hold, hlast, List.dropLast_concat]
  constructor
  · have hversions := hlined.versions
    rw [hpre, List.map_append, List.length_append, List.length_singleton, List.range'_concat]
      at hversions
    rw [hlive]
    exact List.append_inj_left' hversions rfl
  · rw [hlive]
    exact hlined.ascending.sublist (List.dropLast_sublist _)
  · rw [hlive]
    intro other hmem
    have := hlined.settled other (List.mem_of_mem_dropLast hmem)
    exact UInt64.le_of_lt (UInt64.lt_of_le_of_lt this hlater)
  · have hdistinct := hlined.distinct
    rw [hsplit] at hdistinct
    simpa using hdistinct
  · intro other hmem
    have hpositive := hlined.positive
    rw [hsplit] at hpositive
    simp only [List.mem_append, List.mem_cons] at hpositive hmem
    rcases hmem with hbefore | rfl | hafter
    · exact hpositive other (Or.inl hbefore)
    · exact hpositive upgrade (Or.inr (Or.inl rfl))
    · exact hpositive other (Or.inr (Or.inr hafter))

--
-- Notice of five epochs
--

/-- The earliest activation is the first block of the fifth epoch after, with no wrap
on the way. -/
theorem earliestActivationHeight_toNat {s : V1UpgradeSchedule}
    {executionHeight earliest : UInt64} (hepoch : s.epochLengthBlocks ≠ 0)
    (h : s.earliestActivationHeight executionHeight = some earliest) :
    earliest.toNat =
      ((executionHeight.toNat - 1) / s.epochLengthBlocks.toNat + 5) * s.epochLengthBlocks.toNat
        + 1 := by
  have hpos := toNat_pos_of_ne_zero hepoch
  unfold earliestActivationHeight at h
  split at h
  · cases h
  · rename_i hne
    dsimp only at h
    split at h
    · cases h
    · rename_i hroom
      split at h
      · cases h
      · rename_i hfits
        obtain rfl := Option.some.inj h
        have hone : 1 ≤ executionHeight := by
          rw [UInt64.le_iff_toNat_le]
          exact toNat_pos_of_ne_zero hne
        have hexecution : ((executionHeight - 1) / s.epochLengthBlocks).toNat =
            (executionHeight.toNat - 1) / s.epochLengthBlocks.toNat := by
          rw [UInt64.toNat_div, UInt64.toNat_sub_of_le _ _ hone]
          rfl
        have hbound : (uint64Max - kFullNoticeEpochs - 1).toNat = 18446744073709551610 := by decide
        have htop : (uint64Max - 1).toNat = 18446744073709551614 := by decide
        rw [UInt64.lt_iff_toNat_lt, hexecution, hbound] at hroom
        have hearliest : ((executionHeight - 1) / s.epochLengthBlocks + kFullNoticeEpochs
            + 1).toNat = (executionHeight.toNat - 1) / s.epochLengthBlocks.toNat + 5 := by
          rw [UInt64.toNat_add, UInt64.toNat_add, hexecution]
          show ((_ + 4) % 2 ^ 64 + 1) % 2 ^ 64 = _
          omega
        rw [UInt64.lt_iff_toNat_lt, hearliest, UInt64.toNat_div, htop, Nat.not_lt,
          Nat.le_div_iff_mul_le hpos] at hfits
        rw [UInt64.toNat_add, UInt64.toNat_mul, hearliest]
        show (_ % 2 ^ 64 + 1) % 2 ^ 64 = _
        rw [Nat.mod_eq_of_lt (by omega), Nat.mod_eq_of_lt (by omega)]

/-- The activation is the first block of an epoch, at least five after the epoch of
the call. -/
def Noticed (epochLengthBlocks executionHeight activationHeight : UInt64) : Prop :=
  (activationHeight.toNat - 1) % epochLengthBlocks.toNat = 0 ∧
    (executionHeight.toNat - 1) / epochLengthBlocks.toNat + 5 ≤
      (activationHeight.toNat - 1) / epochLengthBlocks.toNat

theorem Accepted.noticed {s : V1UpgradeSchedule} {executionHeight activationHeight : UInt64}
    {nextVersion : UInt16} (h : Accepted s executionHeight activationHeight nextVersion)
    (hepoch : s.epochLengthBlocks ≠ 0) :
    Noticed s.epochLengthBlocks executionHeight activationHeight := by
  obtain ⟨earliest, hearliest, hle⟩ := h.notice
  have hexact := earliestActivationHeight_toNat hepoch hearliest
  rw [UInt64.le_iff_toNat_le] at hle
  have hone : 1 ≤ activationHeight := by
    rw [UInt64.le_iff_toNat_le, UInt64.toNat_one]
    omega
  constructor
  · have hboundary := congrArg UInt64.toNat h.boundary
    rw [UInt64.toNat_mod, UInt64.toNat_sub_of_le _ _ hone] at hboundary
    exact hboundary
  · rw [Nat.le_div_iff_mul_le (toNat_pos_of_ne_zero hepoch)]
    omega

--
-- Every sequence of calls
--

theorem apply_frame (digest : List UInt8 → V1Digest) (s : V1UpgradeSchedule) (call : Call) :
    (s.apply digest call).epochLengthBlocks = s.epochLengthBlocks ∧
      (s.apply digest call).initialRulesHash = s.initialRulesHash := by
  cases call with
  | schedule executionHeight activationHeight nextVersion bundleHash vectorsHash migrationHash =>
    obtain hsame | ⟨hash, -, hs'⟩ := schedule_cases digest s executionHeight activationHeight
      nextVersion bundleHash vectorsHash migrationHash
    · simp only [apply, hsame, and_self]
    · simp only [apply, hs', and_self]
  | cancelPending executionHeight activationHeight ruleSetHash =>
    obtain hsame | ⟨before, upgrade, after, -, -, -, -, hs'⟩ :=
      cancelPending_cases s executionHeight activationHeight ruleSetHash
    · simp only [apply, hsame, and_self]
    · simp only [apply, hs', and_self]

theorem Lined.apply {s : V1UpgradeSchedule} (h : Lined s) (digest : List UInt8 → V1Digest)
    (call : Call) : Lined (s.apply digest call) := by
  cases call with
  | schedule executionHeight activationHeight nextVersion bundleHash vectorsHash migrationHash =>
    obtain hsame | ⟨hash, haccepted, hs'⟩ := schedule_cases digest s executionHeight
      activationHeight nextVersion bundleHash vectorsHash migrationHash
    · rw [V1UpgradeSchedule.apply, hsame]
      exact h
    · rw [V1UpgradeSchedule.apply, hs']
      exact h.schedule haccepted
  | cancelPending executionHeight activationHeight ruleSetHash =>
    obtain hsame | ⟨before, upgrade, after, hsplit, hcanceled, hpending, hlater, hs'⟩ :=
      cancelPending_cases s executionHeight activationHeight ruleSetHash
    · rw [V1UpgradeSchedule.apply, hsame]
      exact h
    · rw [V1UpgradeSchedule.apply, hs']
      exact h.cancel hsplit hcanceled hpending hlater

theorem run_concat (digest : List UInt8 → V1Digest) (s : V1UpgradeSchedule) (calls : List Call)
    (call : Call) : s.run digest (calls ++ [call]) = (s.run digest calls).apply digest call := by
  unfold run
  rw [List.foldl_concat]

/-- A property kept by every call is kept by every run. -/
theorem run_induction {digest : List UInt8 → V1Digest} {P : V1UpgradeSchedule → Prop}
    {s : V1UpgradeSchedule} (hstart : P s) (hstep : ∀ s call, P s → P (s.apply digest call))
    (calls : List Call) : P (s.run digest calls) := by
  induction calls generalizing s with
  | nil => exact hstart
  | cons call rest ih => exact ih (hstep s call hstart)

theorem run_frame (digest : List UInt8 → V1Digest) (s : V1UpgradeSchedule) (calls : List Call) :
    (s.run digest calls).epochLengthBlocks = s.epochLengthBlocks ∧
      (s.run digest calls).initialRulesHash = s.initialRulesHash :=
  run_induction (P := fun s' => s'.epochLengthBlocks = s.epochLengthBlocks ∧
      s'.initialRulesHash = s.initialRulesHash) ⟨rfl, rfl⟩
    (fun s' call h => ⟨(apply_frame digest s' call).1.trans h.1,
      (apply_frame digest s' call).2.trans h.2⟩) calls

/-- Calls above a height leave its rules alone, and those of the next height. -/
theorem run_activeAt (digest : List UInt8 → V1Digest) (s : V1UpgradeSchedule)
    {calls : List Call} {height : UInt64} (h : ∀ call ∈ calls, height ≤ call.executionHeight) :
    (s.run digest calls).activeAt height = s.activeAt height := by
  induction calls generalizing s with
  | nil => rfl
  | cons call rest ih =>
    have hrest := ih (s.apply digest call) (fun other hmem => h other (List.mem_cons_of_mem _ hmem))
    exact hrest.trans (apply_activeAt digest s call (h call List.mem_cons_self))

/-- Where an entry comes from: an accepted call of the run, with due notice. -/
def ScheduledBy (digest : List UInt8 → V1Digest) (s : V1UpgradeSchedule) (calls : List Call)
    (upgrade : Upgrade) : Prop :=
  ∃ (earlier later : List Call) (executionHeight : UInt64) (nextVersion : UInt16)
    (bundleHash vectorsHash migrationHash : V1Digest),
    calls = earlier ++ .schedule executionHeight upgrade.activationHeight nextVersion bundleHash
      vectorsHash migrationHash :: later ∧
    ((s.run digest earlier).schedule digest executionHeight upgrade.activationHeight nextVersion
      bundleHash vectorsHash migrationHash).1 = some upgrade.rules ∧
    Noticed s.epochLengthBlocks executionHeight upgrade.activationHeight

theorem ScheduledBy.later {digest : List UInt8 → V1Digest} {s : V1UpgradeSchedule}
    {calls : List Call} {upgrade : Upgrade} (h : ScheduledBy digest s calls upgrade) (call : Call) :
    ScheduledBy digest s (calls ++ [call]) upgrade := by
  obtain ⟨earlier, later, executionHeight, nextVersion, bundleHash, vectorsHash, migrationHash,
    rfl, haccepted, hnoticed⟩ := h
  exact ⟨earlier, later ++ [call], executionHeight, nextVersion, bundleHash, vectorsHash,
    migrationHash, by simp, haccepted, hnoticed⟩

/-- Every entry was scheduled by a call of the run. -/
theorem run_scheduledBy (digest : List UInt8 → V1Digest) {s : V1UpgradeSchedule}
    (hepoch : s.epochLengthBlocks ≠ 0) (hempty : s.upgrades = []) (calls : List Call) :
    ∀ upgrade ∈ (s.run digest calls).upgrades, ScheduledBy digest s calls upgrade := by
  induction calls using List.reverseRecOn with
  | nil =>
    intro upgrade hmem
    have hnil : upgrade ∈ s.upgrades := hmem
    rw [hempty] at hnil
    cases hnil
  | append_singleton calls call ih =>
    have hframe := (run_frame digest s calls).1
    intro upgrade hmem
    rw [run_concat] at hmem
    cases call with
    | schedule executionHeight activationHeight nextVersion bundleHash vectorsHash migrationHash =>
      obtain hsame | ⟨hash, haccepted, hs'⟩ := schedule_cases digest (s.run digest calls)
        executionHeight activationHeight nextVersion bundleHash vectorsHash migrationHash
      · rw [apply, hsame] at hmem
        exact (ih upgrade hmem).later _
      · rw [apply, hs'] at hmem
        rcases List.mem_append.mp hmem with hold | hnew
        · exact (ih upgrade hold).later _
        · obtain rfl := List.mem_singleton.mp hnew
          refine ⟨calls, [], executionHeight, nextVersion, bundleHash, vectorsHash, migrationHash,
            rfl, by rw [hs'], ?_⟩
          rw [← hframe]
          exact haccepted.noticed (hframe ▸ hepoch)
    | cancelPending executionHeight activationHeight ruleSetHash =>
      obtain hsame | ⟨before, canceled, after, hsplit, -, -, -, hs'⟩ :=
        cancelPending_cases (s.run digest calls) executionHeight activationHeight ruleSetHash
      · rw [apply, hsame] at hmem
        exact (ih upgrade hmem).later _
      · rw [apply, hs'] at hmem
        rw [hsplit] at ih
        -- the mark does not touch the height or the rules
        rcases List.mem_append.mp hmem with hbefore | hrest
        · exact (ih upgrade (List.mem_append_left _ hbefore)).later _
        · rcases List.mem_cons.mp hrest with rfl | hafter
          · exact ScheduledBy.later (ih canceled (by simp)) _
          · exact (ih upgrade (by simp [hafter])).later _

theorem Lined.run {s : V1UpgradeSchedule} (h : Lined s) (digest : List UInt8 → V1Digest)
    (calls : List Call) : Lined (s.run digest calls) :=
  run_induction h (fun _ call hs => hs.apply digest call) calls

/-- At most one live entry lies above the last mutation. -/
theorem Lined.onePending {s : V1UpgradeSchedule} (h : Lined s) :
    (s.live.filter (s.lastMutationHeight < ·.activationHeight)).length ≤ 1 := by
  rcases List.eq_nil_or_concat s.live with hnil | ⟨initials, last, hconcat⟩
  · rw [hnil]
    exact Nat.zero_le 1
  · have hsettled := h.settled
    rw [hconcat, List.concat_eq_append, List.dropLast_concat] at hsettled
    have hnone : initials.filter (s.lastMutationHeight < ·.activationHeight) = [] := by
      rw [List.filter_eq_nil_iff]
      intro upgrade hmem
      simpa using hsettled upgrade hmem
    rw [hconcat, List.concat_eq_append, List.filter_append, hnone, List.nil_append]
    exact (List.length_filter_le _ _)

/-- **One version at each activation.** The entry that activates at the next height is
the first not yet in force. -/
theorem Lined.activation {s : V1UpgradeSchedule} (h : Lined s) {height : UInt64}
    (htop : height ≠ uint64Max) {upgrade : Upgrade} (hmem : upgrade ∈ s.live)
    (hheight : upgrade.activationHeight = height + 1) :
    s.activeAt (height + 1) = upgrade.rules ∧
      upgrade.rules.version.toNat = (s.activeAt height).version.toNat + 1 := by
  obtain ⟨before, after, hsplit⟩ := List.append_of_mem hmem
  have hascending := h.ascending
  rw [hsplit, List.pairwise_append, List.pairwise_cons] at hascending
  obtain ⟨-, ⟨hafter, -⟩, hbefore⟩ := hascending
  have hsucc := toNat_succ htop
  have hbeforeFilter : ∀ bound, height ≤ bound →
      before.filter (·.activationHeight ≤ bound) = before := by
    intro bound hbound
    rw [List.filter_eq_self]
    intro other hother
    have hlt := hbefore other hother upgrade List.mem_cons_self
    rw [hheight, UInt64.lt_iff_toNat_lt] at hlt
    rw [UInt64.le_iff_toNat_le] at hbound
    rw [decide_eq_true_eq, UInt64.le_iff_toNat_le]
    omega
  have hafterFilter : ∀ bound, bound ≤ height + 1 →
      after.filter (·.activationHeight ≤ bound) = [] := by
    intro bound hbound
    rw [List.filter_eq_nil_iff]
    intro other hother
    have hlt := hafter other hother
    rw [hheight] at hlt
    simpa using UInt64.lt_of_le_of_lt hbound hlt
  have hle : height ≤ height + 1 := by
    rw [UInt64.le_iff_toNat_le]
    omega
  have hnow : s.inForce height = before := by
    unfold inForce
    rw [hsplit, List.filter_append, hbeforeFilter height (UInt64.le_refl _), List.filter_cons_of_neg,
      hafterFilter height hle, List.append_nil]
    rw [hheight, decide_eq_true_eq, UInt64.le_iff_toNat_le]
    omega
  have hnext : s.inForce (height + 1) = before ++ [upgrade] := by
    unfold inForce
    rw [hsplit, List.filter_append, hbeforeFilter (height + 1) hle, List.filter_cons_of_pos,
      hafterFilter (height + 1) (UInt64.le_refl _)]
    rw [hheight]
    exact decide_eq_true (UInt64.le_refl _)
  -- the versions of the entries before it, and its own
  have hversions := h.versions
  rw [hsplit, List.map_append, List.length_append, ← List.range'_append_1] at hversions
  obtain ⟨hpre, hrest⟩ := List.append_inj hversions (by simp)
  rw [List.map_cons, List.length_cons, List.range'_succ] at hrest
  have hown := (List.cons.inj hrest).1
  constructor
  · rw [activeAt_eq, hnext]
    unfold lastRules
    rw [List.getLast?_concat]
    rfl
  · rw [activeAt_eq, hnow, lastRules_version hpre, hown]
    omega

/-- Between activations the rules stay. -/
theorem activeAt_steady {s : V1UpgradeSchedule} {height : UInt64} (htop : height ≠ uint64Max)
    (h : ∀ upgrade ∈ s.live, upgrade.activationHeight ≠ height + 1) :
    s.activeAt (height + 1) = s.activeAt height := by
  refine activeAt_congr rfl (List.filter_congr ?_)
  intro upgrade hmem
  have hsucc := toNat_succ htop
  have hne : upgrade.activationHeight.toNat ≠ (height + 1).toNat := fun heq =>
    h upgrade hmem (UInt64.toNat_inj.mp heq)
  rw [decide_eq_decide, UInt64.le_iff_toNat_le, UInt64.le_iff_toNat_le]
  omega

theorem headerRules_eq_some {s : V1UpgradeSchedule} {height : UInt64} {rules : HeaderRules}
    (h : s.headerRules height = some rules) :
    height ≠ uint64Max ∧ rules = ⟨s.activeAt height, s.activeAt (height + 1)⟩ := by
  unfold headerRules at h
  split at h
  · cases h
  · rename_i htop
    exact ⟨htop, (Option.some.inj h).symm⟩

theorem create_spec {epochLengthBlocks : UInt64} {initialRulesHash : V1Digest}
    {genesis : V1UpgradeSchedule} (h : create epochLengthBlocks initialRulesHash = some genesis) :
    Lined genesis ∧ genesis.epochLengthBlocks ≠ 0 ∧ genesis.upgrades = [] := by
  unfold create at h
  split at h
  · cases h
  · rename_i hguard
    obtain rfl := Option.some.inj h
    refine ⟨⟨rfl, List.Pairwise.nil, ?_, List.nodup_nil, ?_⟩, (not_or.mp hguard).1, rfl⟩
    · intro upgrade hmem
      cases hmem
    · intro upgrade hmem
      cases hmem

/-- What holds of the schedule after a sequence of calls. -/
structure UpgradeHistory (digest : List UInt8 → V1Digest) (genesis : V1UpgradeSchedule)
    (calls : List Call) (s : V1UpgradeSchedule) : Prop where
  /-- A further call changes the rules of no height up to its own. -/
  immutable : ∀ (call : Call) (height : UInt64), height ≤ call.executionHeight →
    (s.apply digest call).activeAt height = s.activeAt height
  onePending : (s.live.filter (s.lastMutationHeight < ·.activationHeight)).length ≤ 1
  first : s.activeAt 0 = ⟨1, genesis.initialRulesHash⟩
  activation : ∀ height, height ≠ uint64Max → ∀ upgrade ∈ s.live,
    upgrade.activationHeight = height + 1 → s.activeAt (height + 1) = upgrade.rules ∧
      upgrade.rules.version.toNat = (s.activeAt height).version.toNat + 1
  steady : ∀ height, height ≠ uint64Max →
    (∀ upgrade ∈ s.live, upgrade.activationHeight ≠ height + 1) →
    s.activeAt (height + 1) = s.activeAt height
  scheduled : ∀ upgrade ∈ s.upgrades, ScheduledBy digest genesis calls upgrade
  distinct : (s.upgrades.map (·.activationHeight)).Nodup
  /-- The next rules a header commits to are the current ones of the header after it,
  whatever is called in between. -/
  headers : ∀ (later : List Call) (height : UInt64) (rules following : HeaderRules),
    (∀ call ∈ later, height < call.executionHeight) → s.headerRules height = some rules →
    (s.run digest later).headerRules (height + 1) = some following →
    rules.next = following.current

/-- **The upgrade schedule.** From a created schedule, every sequence of calls keeps
history, one pending upgrade, a chain of versions with due notice, and headers that
agree with their successors. -/
theorem upgrade_history (digest : List UInt8 → V1Digest) {epochLengthBlocks : UInt64}
    {initialRulesHash : V1Digest} {genesis : V1UpgradeSchedule}
    (h : create epochLengthBlocks initialRulesHash = some genesis) (calls : List Call) :
    UpgradeHistory digest genesis calls (genesis.run digest calls) := by
  obtain ⟨hstart, hepoch, hempty⟩ := create_spec h
  have hlined := hstart.run digest calls
  constructor
  · intro call height hle
    exact apply_activeAt digest _ call hle
  · exact hlined.onePending
  · have hnone : (genesis.run digest calls).inForce 0 = [] := by
      refine List.filter_eq_nil_iff.mpr (fun upgrade hmem => ?_)
      have hpositive := toNat_pos_of_ne_zero
        (hlined.positive upgrade (List.mem_of_mem_filter hmem))
      rw [decide_eq_true_eq, UInt64.le_iff_toNat_le, UInt64.toNat_zero]
      omega
    rw [activeAt_eq, hnone, (run_frame digest _ calls).2]
    rfl
  · intro height htop upgrade hmem hheight
    exact hlined.activation htop hmem hheight
  · intro height htop hnone
    exact activeAt_steady htop hnone
  · exact run_scheduledBy digest hepoch hempty calls
  · exact hlined.distinct
  · intro later height rules following hlater hrules hfollowing
    obtain ⟨htop, rfl⟩ := headerRules_eq_some hrules
    obtain ⟨-, rfl⟩ := headerRules_eq_some hfollowing
    have hsucc := toNat_succ htop
    refine (run_activeAt digest _ (fun call hcall => ?_)).symm
    have hlt := UInt64.lt_iff_toNat_lt.mp (hlater call hcall)
    rw [UInt64.le_iff_toNat_le]
    omega

/-- A digest of 32 equal bytes. -/
def sampleDigest (byte : UInt8) : V1Digest := Vector.replicate 32 byte

def sampleGenesis : V1UpgradeSchedule :=
  { epochLengthBlocks := 10, initialRulesHash := sampleDigest 1, lastMutationHeight := 0
    upgrades := [] }

/-- Scheduled, canceled, scheduled again for a lower height, and the next version after
it. -/
def sampleCalls : List Call :=
  [.schedule 3 101 2 (sampleDigest 2) (sampleDigest 3) (sampleDigest 0),
    .cancelPending 4 101 (sampleDigest 9),
    .schedule 5 51 2 (sampleDigest 4) (sampleDigest 5) (sampleDigest 0),
    .schedule 60 111 3 (sampleDigest 6) (sampleDigest 7) (sampleDigest 0)]

theorem sampleGenesis_created : create 10 (sampleDigest 1) = some sampleGenesis := rfl

theorem upgrade_history_sample :
    create 10 (sampleDigest 1) = some sampleGenesis ∧
      UpgradeHistory (fun _ => sampleDigest 9) sampleGenesis sampleCalls
        (sampleGenesis.run (fun _ => sampleDigest 9) sampleCalls) ∧
      (sampleGenesis.run (fun _ => sampleDigest 9) sampleCalls).live.map
        (fun upgrade => (upgrade.activationHeight, upgrade.rules.version)) = [(51, 2), (111, 3)] :=
  ⟨sampleGenesis_created,
    upgrade_history (fun _ => sampleDigest 9) sampleGenesis_created sampleCalls,
    by decide +kernel⟩

end V1UpgradeSchedule

end Nodo.Model
