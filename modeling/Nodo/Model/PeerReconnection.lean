import Nodo.Lib.SortedMap
import Nodo.Model.NetworkEnvelope

/-!
# Nodo — when a peer is tried again

`PeerReconnectionPolicy` of `p2p/PeerReconnectionPolicy.cpp`. For each peer the policy keeps a
counter of attempts, the time of the next one and whether one is under way. A candidate is a
peer whose time has come; the twelfth failure quarantines it.

An attempt that ends through a disconnect is over without a failure. If it was the twelfth, the
counter stands at its limit and nothing quarantines the peer, so it is neither tried again nor
lifted.

## Results

* `backoffDelayForAttempt_le`, `backoffDelayForAttempt_mono` — the delays of the schedule.
* `tracked_perform` — what one call keeps of a peer's record.
* `reconnection_kept` — over every run in which no twelfth attempt is disconnected, a peer that
  is neither quarantined nor under way will be a candidate again.
-/

namespace Nodo.Model

--
-- The policy (p2p/PeerReconnectionPolicy.cpp)
--

structure PeerReconnectionState where
  nodeId : String
  endpoint : String
  attempts : UInt32
  lastAttemptAt : Int
  nextRetryAt : Int
  quarantined : Bool
  quarantineReason : String
  attemptInFlight : Bool
  deriving DecidableEq

structure PeerReconnectionPolicy where
  states : SortedMap String PeerReconnectionState

namespace PeerReconnectionPolicy

def baseDelaySeconds : Int := 5

def maxDelaySeconds : Int := 300

def maxAttempts : UInt32 := 12

def quarantineCooldown : Int := 3600

/-- `PeerReconnectionPolicy()`. -/
def empty : PeerReconnectionPolicy := ⟨SortedMap.empty⟩

def isSafeNodeId (nodeId : String) : Bool := nodeId.length ≤ 160 && isSafeIdentifier "_-.:/" nodeId

def isSafeEndpoint (endpoint : String) : Bool :=
  endpoint.length ≤ 320 && isSafeIdentifier "_-.:/\x7b\x7d=;" endpoint

def isReadyToRetry (state : PeerReconnectionState) (now : Int) : Bool :=
  if state.quarantined then false
  else if state.attemptInFlight then false
  else if maxAttempts ≤ state.attempts then false
  else state.nextRetryAt ≤ now

/-- The loop of `backoffDelayForAttempt`, with the turns that are left. -/
def doubleDelay : Nat → Int → Int
  | 0, delay => delay
  | turns + 1, delay =>
    if maxDelaySeconds ≤ delay * 2 then maxDelaySeconds else doubleDelay turns (delay * 2)

def backoffDelayForAttempt (attempt : UInt32) : Int := doubleDelay attempt.toNat baseDelaySeconds

/-- `m_states[nodeId] = state`. -/
def put (policy : PeerReconnectionPolicy) (nodeId : String) (state : PeerReconnectionState) :
    PeerReconnectionPolicy := ⟨policy.states.insert nodeId state⟩

def recordCandidate (policy : PeerReconnectionPolicy) (nodeId endpoint : String) (now : Int)
    (immediateRetry : Bool) : PeerReconnectionPolicy :=
  if !isSafeNodeId nodeId || !isSafeEndpoint endpoint || now ≤ 0 then policy
  else match policy.states.find? nodeId with
    | none => policy.put nodeId
      ⟨nodeId, endpoint, 0, 0, if immediateRetry then now else now + baseDelaySeconds, false, "", false⟩
    | some state =>
      if state.quarantined then policy
      else policy.put nodeId { state with
        endpoint := endpoint
        nextRetryAt :=
          if immediateRetry && now < state.nextRetryAt && state.attempts == 0 then now
          else state.nextRetryAt }

def recordDisconnect (policy : PeerReconnectionPolicy) (nodeId endpoint : String) (now : Int) :
    PeerReconnectionPolicy :=
  if !isSafeNodeId nodeId || !isSafeEndpoint endpoint || now ≤ 0 then policy
  else match policy.states.find? nodeId with
    | none => policy.recordCandidate nodeId endpoint now false
    | some state =>
      if state.quarantined then policy
      else policy.put nodeId { state with
        endpoint := endpoint
        attemptInFlight := false
        nextRetryAt :=
          if state.nextRetryAt < now + baseDelaySeconds then now + baseDelaySeconds
          else state.nextRetryAt }

def recordAttempt (policy : PeerReconnectionPolicy) (nodeId : String) (now : Int) :
    PeerReconnectionPolicy :=
  match policy.states.find? nodeId with
  | none => policy
  | some state =>
    if now ≤ 0 then policy
    else if state.quarantined then policy
    else policy.put nodeId { state with
      attempts := state.attempts + 1
      lastAttemptAt := now
      nextRetryAt := now + backoffDelayForAttempt (state.attempts + 1)
      attemptInFlight := true }

def recordSuccess (policy : PeerReconnectionPolicy) (nodeId : String) : PeerReconnectionPolicy :=
  ⟨policy.states.erase nodeId⟩

def recordFailure (policy : PeerReconnectionPolicy) (nodeId : String) (now : Int) :
    PeerReconnectionPolicy :=
  match policy.states.find? nodeId with
  | none => policy
  | some state =>
    if now ≤ 0 then policy
    else
      let attempts := if state.attemptInFlight then state.attempts else state.attempts + 1
      if maxAttempts ≤ attempts then
        policy.put nodeId { state with
          attempts := attempts
          attemptInFlight := false
          quarantined := true
          quarantineReason := "Maximum reconnection attempts reached."
          nextRetryAt := now + quarantineCooldown }
      else
        policy.put nodeId { state with
          attempts := attempts
          attemptInFlight := false
          nextRetryAt := now + backoffDelayForAttempt attempts }

def quarantine (policy : PeerReconnectionPolicy) (nodeId reason : String) (now : Int) :
    PeerReconnectionPolicy :=
  if !isSafeNodeId nodeId || now ≤ 0 then policy
  else match policy.states.find? nodeId with
    | none => policy.put nodeId
      ⟨nodeId, "quarantined", 0, 0, now + quarantineCooldown, true, reason, false⟩
    | some state => policy.put nodeId { state with
      quarantined := true
      quarantineReason := reason
      nextRetryAt := now + quarantineCooldown
      attemptInFlight := false }

def lift (policy : PeerReconnectionPolicy) (nodeId : String) (now : Int) :
    PeerReconnectionPolicy :=
  match policy.states.find? nodeId with
  | none => policy
  | some state => policy.put nodeId { state with
    quarantined := false
    quarantineReason := ""
    attempts := 0
    attemptInFlight := false
    nextRetryAt := if 0 < now then now else state.nextRetryAt }

/-- The order in which candidates are returned. -/
def sortsBefore (a b : PeerReconnectionState) : Bool :=
  if a.nextRetryAt != b.nextRetryAt then a.nextRetryAt < b.nextRetryAt else a.nodeId ≤ b.nodeId

def candidatesForReconnect (policy : PeerReconnectionPolicy) (now : Int) :
    List PeerReconnectionState :=
  ((policy.states.entries.map (·.2)).filter (isReadyToRetry · now)).mergeSort sortsBefore

--
-- Runs
--

inductive Call
  | recordCandidate (nodeId endpoint : String) (now : Int) (immediateRetry : Bool)
  | recordDisconnect (nodeId endpoint : String) (now : Int)
  | recordAttempt (nodeId : String) (now : Int)
  | recordSuccess (nodeId : String)
  | recordFailure (nodeId : String) (now : Int)
  | quarantine (nodeId reason : String) (now : Int)
  | lift (nodeId : String) (now : Int)

def perform (policy : PeerReconnectionPolicy) : Call → PeerReconnectionPolicy
  | .recordCandidate nodeId endpoint now immediateRetry =>
    policy.recordCandidate nodeId endpoint now immediateRetry
  | .recordDisconnect nodeId endpoint now => policy.recordDisconnect nodeId endpoint now
  | .recordAttempt nodeId now => policy.recordAttempt nodeId now
  | .recordSuccess nodeId => policy.recordSuccess nodeId
  | .recordFailure nodeId now => policy.recordFailure nodeId now
  | .quarantine nodeId reason now => policy.quarantine nodeId reason now
  | .lift nodeId now => policy.lift nodeId now

/-- Positive times, and attempts only of candidates. -/
def Admissible (policy : PeerReconnectionPolicy) : Call → Prop
  | .recordCandidate _ _ now _ => 0 < now
  | .recordDisconnect _ _ now => 0 < now
  | .recordAttempt nodeId now =>
    0 < now ∧ nodeId ∈ (policy.candidatesForReconnect now).map (·.nodeId)
  | .recordSuccess _ => True
  | .recordFailure _ now => 0 < now
  | .quarantine _ _ now => 0 < now
  | .lift _ now => 0 < now

/-- A disconnect that ends the last attempt of a peer. -/
def EndsLastAttempt (policy : PeerReconnectionPolicy) : Call → Prop
  | .recordDisconnect nodeId endpoint _ =>
    isSafeNodeId nodeId = true ∧ isSafeEndpoint endpoint = true ∧
      ∃ state, policy.states.find? nodeId = some state ∧ state.quarantined = false ∧
        maxAttempts ≤ state.attempts
  | _ => False

/-- How often each peer has failed since it was last created or lifted: its attempts, and the
failures that ended none. -/
def tally (policy : PeerReconnectionPolicy) (failed : String → Nat) (call : Call) (nodeId : String) :
    Nat :=
  match call with
  | .recordAttempt other _ => if other = nodeId then failed nodeId + 1 else failed nodeId
  | .recordFailure other _ =>
    if other = nodeId ∧ ∃ state, policy.states.find? nodeId = some state ∧
      state.attemptInFlight = false then failed nodeId + 1 else failed nodeId
  | .recordSuccess other => if other = nodeId then 0 else failed nodeId
  | .lift other _ => if other = nodeId then 0 else failed nodeId
  | _ => failed nodeId

end PeerReconnectionPolicy

namespace PeerReconnectionPolicy

--
-- The schedule
--

theorem doubleDelay_le (turns : Nat) {delay : Int} (h : delay ≤ maxDelaySeconds) :
    doubleDelay turns delay ≤ maxDelaySeconds := by
  induction turns generalizing delay with
  | zero => exact h
  | succ turns ih =>
    rw [doubleDelay]
    split_ifs with hlong
    · exact Int.le_refl _
    · exact ih (Int.le_of_lt (Int.not_le.mp hlong))

theorem le_doubleDelay (turns : Nat) {delay : Int} (h : delay ≤ maxDelaySeconds)
    (hpos : 0 ≤ delay) : delay ≤ doubleDelay turns delay := by
  induction turns generalizing delay with
  | zero => exact Int.le_refl _
  | succ turns ih =>
    rw [doubleDelay]
    split_ifs with hlong
    · exact h
    · exact Int.le_trans (by omega) (ih (Int.le_of_lt (Int.not_le.mp hlong)) (by omega))

theorem doubleDelay_mono {m n : Nat} (h : m ≤ n) {delay : Int} (hle : delay ≤ maxDelaySeconds)
    (hpos : 0 ≤ delay) : doubleDelay m delay ≤ doubleDelay n delay := by
  induction m generalizing n delay with
  | zero => exact le_doubleDelay n hle hpos
  | succ m ih =>
    obtain ⟨k, rfl⟩ : ∃ k, n = k + 1 := ⟨n - 1, by omega⟩
    rw [doubleDelay, doubleDelay]
    split_ifs with hlong
    · exact Int.le_refl _
    · exact ih (by omega) (Int.le_of_lt (Int.not_le.mp hlong)) (by omega)

theorem backoffDelayForAttempt_le (attempt : UInt32) :
    backoffDelayForAttempt attempt ≤ maxDelaySeconds := doubleDelay_le _ (by decide)

/-- The delays do not decrease. -/
theorem backoffDelayForAttempt_mono {m n : UInt32} (h : m ≤ n) :
    backoffDelayForAttempt m ≤ backoffDelayForAttempt n :=
  doubleDelay_mono (UInt32.le_iff_toNat_le.mp h) (by decide) (by decide)

--
-- The invariant
--

/-- A peer's record: a peer that may be tried again has failed as often as its counter says, and
has an attempt left unless one is under way. -/
structure Record (nodeId : String) (state : PeerReconnectionState) (failed : Nat) : Prop where
  id : state.nodeId = nodeId
  counted : state.quarantined = false → state.attempts.toNat = failed ∧ failed ≤ 12
  waiting : state.quarantined = false → state.attemptInFlight = false →
    state.attempts < maxAttempts

structure Tracked (policy : PeerReconnectionPolicy) (failed : String → Nat) : Prop where
  record : ∀ {nodeId state}, policy.states.find? nodeId = some state →
    Record nodeId state (failed nodeId)
  unknown : ∀ {nodeId}, policy.states.find? nodeId = none → failed nodeId = 0

variable {policy : PeerReconnectionPolicy} {failed failed' : String → Nat} {nodeId : String}
  {state : PeerReconnectionState} {now : Int}

theorem tracked_put (h : Tracked policy failed) (hrecord : Record nodeId state (failed' nodeId))
    (hother : ∀ other, other ≠ nodeId → failed' other = failed other) :
    Tracked (policy.put nodeId state) failed' := by
  constructor
  · intro other found hfind
    rw [put, SortedMap.find?_insert] at hfind
    split_ifs at hfind with hsame
    · subst hsame
      obtain rfl := Option.some.inj hfind
      exact hrecord
    · rw [hother other (Ne.symm hsame)]
      exact h.record hfind
  · intro other hfind
    rw [put, SortedMap.find?_insert] at hfind
    split_ifs at hfind with hsame
    rw [hother other (Ne.symm hsame)]
    exact h.unknown hfind

/-- Of a quarantined peer nothing is said. -/
theorem record_of_quarantined {n : Nat} (hid : state.nodeId = nodeId)
    (hquarantined : state.quarantined = true) : Record nodeId state n := by
  refine ⟨hid, fun hq => ?_, fun hq => ?_⟩
  · rw [hquarantined] at hq
    cases hq
  · rw [hquarantined] at hq
    cases hq

theorem zero_lt_maxAttempts : (0 : UInt32) < maxAttempts := by decide

theorem mem_candidatesForReconnect :
    state ∈ policy.candidatesForReconnect now ↔
      (∃ nodeId, policy.states.find? nodeId = some state) ∧ isReadyToRetry state now = true := by
  unfold candidatesForReconnect
  rw [(List.mergeSort_perm _ _).mem_iff, List.mem_filter, List.mem_map]
  refine and_congr_left (fun _ => ⟨?_, ?_⟩)
  · rintro ⟨⟨id, found⟩, hmem, rfl⟩
    exact ⟨id, (SortedMap.find?_eq_some_iff _).mpr hmem⟩
  · rintro ⟨id, hfind⟩
    exact ⟨(id, state), (SortedMap.find?_eq_some_iff _).mp hfind, rfl⟩

theorem isReadyToRetry_iff :
    isReadyToRetry state now = true ↔ state.quarantined = false ∧ state.attemptInFlight = false ∧
      state.attempts < maxAttempts ∧ state.nextRetryAt ≤ now := by
  unfold isReadyToRetry
  cases state.quarantined <;> cases state.attemptInFlight <;>
    simp [UInt32.not_le]

/-- A candidate's own record says that it is ready. -/
theorem ready_of_candidate (h : Tracked policy failed)
    (hcandidate : nodeId ∈ (policy.candidatesForReconnect now).map (·.nodeId)) :
    ∃ state, policy.states.find? nodeId = some state ∧ isReadyToRetry state now = true := by
  obtain ⟨state, hmem, rfl⟩ := List.mem_map.mp hcandidate
  obtain ⟨⟨id, hfind⟩, hready⟩ := mem_candidatesForReconnect.mp hmem
  obtain rfl := (h.record hfind).id
  exact ⟨state, hfind, hready⟩

/-- One attempt more, below the limit. -/
theorem toNat_next {attempts : UInt32} (h : attempts < maxAttempts) :
    (attempts + 1).toNat = attempts.toNat + 1 ∧ attempts.toNat + 1 ≤ 12 := by
  rw [UInt32.lt_iff_toNat_lt] at h
  change attempts.toNat < 12 at h
  refine ⟨?_, h⟩
  rw [UInt32.toNat_add, Nat.mod_eq_of_lt]
  · rfl
  · change attempts.toNat + 1 < 2 ^ 32
    omega

theorem tracked_recordCandidate {endpoint : String} {immediateRetry : Bool}
    (h : Tracked policy failed) :
    Tracked (policy.recordCandidate nodeId endpoint now immediateRetry) failed := by
  unfold recordCandidate
  by_cases hrefused : (!isSafeNodeId nodeId || !isSafeEndpoint endpoint || now ≤ 0) = true
  · rwa [if_pos hrefused]
  rw [if_neg hrefused]
  cases hfind : policy.states.find? nodeId with
  | none =>
    have hzero := h.unknown hfind
    refine tracked_put h ⟨rfl, fun _ => ?_, fun _ _ => zero_lt_maxAttempts⟩ (fun _ _ => rfl)
    rw [hzero]
    exact ⟨rfl, by omega⟩
  | some state =>
    have hrecord := h.record hfind
    by_cases hquarantined : state.quarantined = true
    · simpa only [if_pos hquarantined] using h
    simp only [if_neg hquarantined]
    exact tracked_put h ⟨hrecord.id, hrecord.counted, hrecord.waiting⟩ (fun _ _ => rfl)

theorem tracked_recordDisconnect {endpoint : String} (h : Tracked policy failed)
    (hkept : ¬ EndsLastAttempt policy (.recordDisconnect nodeId endpoint now)) :
    Tracked (policy.recordDisconnect nodeId endpoint now) failed := by
  unfold recordDisconnect
  by_cases hrefused : (!isSafeNodeId nodeId || !isSafeEndpoint endpoint || now ≤ 0) = true
  · rwa [if_pos hrefused]
  rw [if_neg hrefused]
  cases hfind : policy.states.find? nodeId with
  | none => exact tracked_recordCandidate h
  | some state =>
    have hrecord := h.record hfind
    by_cases hquarantined : state.quarantined = true
    · simpa only [if_pos hquarantined] using h
    simp only [if_neg hquarantined]
    refine tracked_put h ⟨hrecord.id, hrecord.counted, fun _ _ => ?_⟩ (fun _ _ => rfl)
    -- an attempt is left, for this was not the end of the last one
    rw [← UInt32.not_le]
    intro hlast
    simp only [Bool.or_eq_true, Bool.not_eq_true', not_or, Bool.not_eq_false] at hrefused
    exact hkept ⟨hrefused.1.1, hrefused.1.2, state, hfind, by simpa using hquarantined, hlast⟩

theorem tracked_recordAttempt (h : Tracked policy failed) (hnow : 0 < now)
    (hcandidate : nodeId ∈ (policy.candidatesForReconnect now).map (·.nodeId)) :
    Tracked (policy.recordAttempt nodeId now)
      (tally policy failed (.recordAttempt nodeId now)) := by
  obtain ⟨state, hfind, hready⟩ := ready_of_candidate h hcandidate
  obtain ⟨hquarantined, -, hleft, -⟩ := isReadyToRetry_iff.mp hready
  obtain ⟨hnext, hbound⟩ := toNat_next hleft
  have hrecord := h.record hfind
  have hcounted := (hrecord.counted hquarantined).1
  unfold recordAttempt
  simp only [hfind]
  rw [if_neg (by omega), if_neg (by simp [hquarantined])]
  refine tracked_put h ⟨hrecord.id, fun _ => ?_, fun _ hflight => by cases hflight⟩ ?_
  · simp only [tally, if_true]
    rw [hnext]
    omega
  · intro other hother
    simp only [tally]
    rw [if_neg (Ne.symm hother)]

theorem tracked_recordFailure (h : Tracked policy failed) (hnow : 0 < now) :
    Tracked (policy.recordFailure nodeId now)
      (tally policy failed (.recordFailure nodeId now)) := by
  have hother : ∀ other, other ≠ nodeId →
      tally policy failed (.recordFailure nodeId now) other = failed other := by
    intro other hother
    simp only [tally]
    rw [if_neg (fun hsame => hother hsame.1.symm)]
  unfold recordFailure
  cases hfind : policy.states.find? nodeId with
  | none =>
    have hsame : tally policy failed (.recordFailure nodeId now) = failed := by
      funext other
      by_cases heq : other = nodeId
      · subst heq
        simp only [tally, hfind]
        rw [if_neg (by simp)]
      · exact hother other heq
    rw [hsame]
    exact h
  | some state =>
    have hrecord := h.record hfind
    simp only
    rw [if_neg (by omega)]
    cases hflight : state.attemptInFlight with
    | true =>
      have htally : tally policy failed (.recordFailure nodeId now) nodeId = failed nodeId := by
        simp only [tally, hfind]
        rw [if_neg (by simp [hflight])]
      simp only [if_true]
      split_ifs with hlast
      · exact tracked_put h (record_of_quarantined hrecord.id rfl) hother
      · refine tracked_put h ⟨hrecord.id, fun hq => ?_, fun _ _ => UInt32.not_le.mp hlast⟩ hother
        rw [htally]
        exact hrecord.counted hq
    | false =>
      have htally : tally policy failed (.recordFailure nodeId now) nodeId = failed nodeId + 1 := by
        simp only [tally, hfind]
        rw [if_pos (by simp [hflight])]
      simp only [Bool.false_eq_true, if_false]
      split_ifs with hlast
      · exact tracked_put h (record_of_quarantined hrecord.id rfl) hother
      · refine tracked_put h ⟨hrecord.id, fun hq => ?_, fun _ _ => UInt32.not_le.mp hlast⟩ hother
        obtain ⟨hnext, hbound⟩ := toNat_next (hrecord.waiting hq hflight)
        have hcounted := (hrecord.counted hq).1
        rw [htally]
        change (state.attempts + 1).toNat = _ ∧ _
        rw [hnext]
        omega

theorem tracked_quarantine {reason : String} (h : Tracked policy failed) :
    Tracked (policy.quarantine nodeId reason now) failed := by
  unfold quarantine
  by_cases hrefused : (!isSafeNodeId nodeId || now ≤ 0) = true
  · rwa [if_pos hrefused]
  rw [if_neg hrefused]
  cases hfind : policy.states.find? nodeId with
  | none => exact tracked_put h (record_of_quarantined rfl rfl) (fun _ _ => rfl)
  | some state =>
    exact tracked_put h (record_of_quarantined (h.record hfind).id rfl) (fun _ _ => rfl)

theorem tracked_lift (h : Tracked policy failed) :
    Tracked (policy.lift nodeId now) (tally policy failed (.lift nodeId now)) := by
  have hother : ∀ other, other ≠ nodeId →
      tally policy failed (.lift nodeId now) other = failed other := by
    intro other hother
    simp only [tally]
    rw [if_neg (Ne.symm hother)]
  unfold lift
  cases hfind : policy.states.find? nodeId with
  | none =>
    have hsame : tally policy failed (.lift nodeId now) = failed := by
      funext other
      by_cases heq : other = nodeId
      · subst heq
        simp only [tally, if_true]
        exact (h.unknown hfind).symm
      · exact hother other heq
    rw [hsame]
    exact h
  | some state =>
    refine tracked_put h ⟨(h.record hfind).id, fun _ => ?_, fun _ _ => zero_lt_maxAttempts⟩ hother
    simp only [tally, if_true]
    exact ⟨rfl, by omega⟩

theorem tracked_recordSuccess (h : Tracked policy failed) :
    Tracked (policy.recordSuccess nodeId) (tally policy failed (.recordSuccess nodeId)) := by
  constructor
  · intro other found hfind
    rw [recordSuccess, SortedMap.find?_erase] at hfind
    split_ifs at hfind with hsame
    simp only [tally]
    rw [if_neg (Ne.symm hsame)]
    exact h.record hfind
  · intro other hfind
    simp only [tally]
    by_cases hsame : nodeId = other
    · rw [if_pos hsame]
    · rw [if_neg hsame]
      rw [recordSuccess, SortedMap.find?_erase, if_neg (Ne.symm hsame)] at hfind
      exact h.unknown hfind

/-- **One call keeps every peer's record**, unless it disconnects a last attempt. -/
theorem tracked_perform {call : Call} (h : Tracked policy failed) (hcall : Admissible policy call)
    (hkept : ¬ EndsLastAttempt policy call) :
    Tracked (policy.perform call) (tally policy failed call) := by
  cases call with
  | recordCandidate nodeId endpoint now immediateRetry => exact tracked_recordCandidate h
  | recordDisconnect nodeId endpoint now => exact tracked_recordDisconnect h hkept
  | recordAttempt nodeId now => exact tracked_recordAttempt h hcall.1 hcall.2
  | recordSuccess nodeId => exact tracked_recordSuccess h
  | recordFailure nodeId now => exact tracked_recordFailure h hcall
  | quarantine nodeId reason now => exact tracked_quarantine h
  | lift nodeId now => exact tracked_lift h

end PeerReconnectionPolicy

namespace PeerReconnectionPolicy

--
-- What one call does to a record
--

variable {policy : PeerReconnectionPolicy} {failed : String → Nat} {nodeId endpoint id : String}
  {state after : PeerReconnectionState} {now : Int}

/-- The peer's next time is set at most five seconds ahead, or is what it was. -/
def SoonOrKept (policy : PeerReconnectionPolicy) (id : String) (now : Int)
    (after : PeerReconnectionState) : Prop :=
  after.nextRetryAt ≤ now + baseDelaySeconds ∨ ∃ before, policy.states.find? id = some before ∧
    before.quarantined = false ∧ after.nextRetryAt = before.nextRetryAt

theorem find?_put (hfind : (policy.put nodeId state).states.find? id = some after) :
    (id = nodeId ∧ after = state) ∨ (id ≠ nodeId ∧ policy.states.find? id = some after) := by
  rw [put, SortedMap.find?_insert] at hfind
  split_ifs at hfind with hsame
  · exact Or.inl ⟨hsame.symm, (Option.some.inj hfind).symm⟩
  · exact Or.inr ⟨Ne.symm hsame, hfind⟩

theorem recordCandidate_entry {immediateRetry : Bool}
    (h : (policy.recordCandidate nodeId endpoint now immediateRetry).states.find? id = some after) :
    policy.states.find? id = some after ∨
      after.quarantined = false ∧ SoonOrKept policy id now after := by
  unfold recordCandidate at h
  by_cases hrefused : (!isSafeNodeId nodeId || !isSafeEndpoint endpoint || now ≤ 0) = true
  · rw [if_pos hrefused] at h
    exact Or.inl h
  rw [if_neg hrefused] at h
  cases hfind : policy.states.find? nodeId with
  | none =>
    simp only [hfind] at h
    rcases find?_put h with ⟨rfl, rfl⟩ | ⟨-, h⟩
    · refine Or.inr ⟨rfl, Or.inl ?_⟩
      unfold baseDelaySeconds
      simp only
      split_ifs <;> omega
    · exact Or.inl h
  | some state =>
    simp only [hfind] at h
    by_cases hquarantined : state.quarantined = true
    · rw [if_pos hquarantined] at h
      exact Or.inl h
    rw [if_neg hquarantined] at h
    rcases find?_put h with ⟨rfl, rfl⟩ | ⟨-, h⟩
    · refine Or.inr ⟨by simpa using hquarantined, ?_⟩
      unfold SoonOrKept baseDelaySeconds
      simp only
      split_ifs
      · exact Or.inl (by omega)
      · exact Or.inr ⟨state, hfind, by simpa using hquarantined, rfl⟩
    · exact Or.inl h

theorem recordDisconnect_entry
    (h : (policy.recordDisconnect nodeId endpoint now).states.find? id = some after) :
    policy.states.find? id = some after ∨
      after.quarantined = false ∧ SoonOrKept policy id now after := by
  unfold recordDisconnect at h
  by_cases hrefused : (!isSafeNodeId nodeId || !isSafeEndpoint endpoint || now ≤ 0) = true
  · rw [if_pos hrefused] at h
    exact Or.inl h
  rw [if_neg hrefused] at h
  cases hfind : policy.states.find? nodeId with
  | none =>
    simp only [hfind] at h
    exact recordCandidate_entry h
  | some state =>
    simp only [hfind] at h
    by_cases hquarantined : state.quarantined = true
    · rw [if_pos hquarantined] at h
      exact Or.inl h
    rw [if_neg hquarantined] at h
    rcases find?_put h with ⟨rfl, rfl⟩ | ⟨-, h⟩
    · refine Or.inr ⟨by simpa using hquarantined, ?_⟩
      unfold SoonOrKept
      simp only
      split_ifs
      · exact Or.inl (Int.le_refl _)
      · exact Or.inr ⟨state, hfind, by simpa using hquarantined, rfl⟩
    · exact Or.inl h

theorem recordAttempt_entry
    (h : (policy.recordAttempt nodeId now).states.find? id = some after) :
    policy.states.find? id = some after ∨ id = nodeId ∧ after.quarantined = false ∧
      after.nextRetryAt = now + backoffDelayForAttempt after.attempts := by
  unfold recordAttempt at h
  cases hfind : policy.states.find? nodeId with
  | none =>
    simp only [hfind] at h
    exact Or.inl h
  | some state =>
    simp only [hfind] at h
    by_cases hnow : now ≤ 0
    · rw [if_pos hnow] at h
      exact Or.inl h
    rw [if_neg hnow] at h
    by_cases hquarantined : state.quarantined = true
    · rw [if_pos hquarantined] at h
      exact Or.inl h
    rw [if_neg hquarantined] at h
    rcases find?_put h with ⟨rfl, rfl⟩ | ⟨-, h⟩
    · exact Or.inr ⟨rfl, by simpa using hquarantined, rfl⟩
    · exact Or.inl h

/-- A failure of a known peer: it counts unless it ends an attempt, and it is the last or sets
the next time. -/
theorem recordFailure_entry (hnow : 0 < now)
    (h : (policy.recordFailure nodeId now).states.find? id = some after) :
    (id ≠ nodeId ∧ policy.states.find? id = some after) ∨
      id = nodeId ∧ ∃ before, policy.states.find? id = some before ∧
        after.attempts
          = (if before.attemptInFlight then before.attempts else before.attempts + 1) ∧
        ((after.quarantined = true ∧ maxAttempts ≤ after.attempts) ∨
          (after.quarantined = before.quarantined ∧
            after.nextRetryAt = now + backoffDelayForAttempt after.attempts)) := by
  unfold recordFailure at h
  cases hfind : policy.states.find? nodeId with
  | none =>
    simp only [hfind] at h
    refine Or.inl ⟨?_, h⟩
    rintro rfl
    rw [hfind] at h
    cases h
  | some state =>
    simp only [hfind] at h
    rw [if_neg (by omega)] at h
    by_cases hlast : maxAttempts
        ≤ (if state.attemptInFlight then state.attempts else state.attempts + 1)
    · rw [if_pos hlast] at h
      rcases find?_put h with ⟨rfl, rfl⟩ | ⟨hne, h⟩
      · exact Or.inr ⟨rfl, state, hfind, rfl, Or.inl ⟨rfl, hlast⟩⟩
      · exact Or.inl ⟨hne, h⟩
    · rw [if_neg hlast] at h
      rcases find?_put h with ⟨rfl, rfl⟩ | ⟨hne, h⟩
      · exact Or.inr ⟨rfl, state, hfind, rfl, Or.inr ⟨rfl, rfl⟩⟩
      · exact Or.inl ⟨hne, h⟩

theorem quarantine_entry {reason : String}
    (h : (policy.quarantine nodeId reason now).states.find? id = some after) :
    policy.states.find? id = some after ∨ id = nodeId ∧ after.quarantined = true := by
  unfold quarantine at h
  by_cases hrefused : (!isSafeNodeId nodeId || now ≤ 0) = true
  · rw [if_pos hrefused] at h
    exact Or.inl h
  rw [if_neg hrefused] at h
  cases hfind : policy.states.find? nodeId with
  | none =>
    simp only [hfind] at h
    rcases find?_put h with ⟨rfl, rfl⟩ | ⟨-, h⟩
    · exact Or.inr ⟨rfl, rfl⟩
    · exact Or.inl h
  | some state =>
    simp only [hfind] at h
    rcases find?_put h with ⟨rfl, rfl⟩ | ⟨-, h⟩
    · exact Or.inr ⟨rfl, rfl⟩
    · exact Or.inl h

theorem lift_entry (hnow : 0 < now)
    (h : (policy.lift nodeId now).states.find? id = some after) :
    policy.states.find? id = some after ∨
      after.quarantined = false ∧ after.nextRetryAt = now := by
  unfold lift at h
  cases hfind : policy.states.find? nodeId with
  | none =>
    simp only [hfind] at h
    exact Or.inl h
  | some state =>
    simp only [hfind] at h
    rcases find?_put h with ⟨rfl, rfl⟩ | ⟨-, h⟩
    · exact Or.inr ⟨rfl, if_pos hnow⟩
    · exact Or.inl h

/-- The time of a call. -/
def Call.time : Call → Option Int
  | .recordCandidate _ _ now _ => some now
  | .recordDisconnect _ _ now => some now
  | .recordAttempt _ now => some now
  | .recordSuccess _ => none
  | .recordFailure _ now => some now
  | .quarantine _ _ now => some now
  | .lift _ now => some now

/-- What a call does to each peer: a failure that ends an attempt is not counted again; the next
time follows the schedule after an attempt or a failure, and is never set further ahead than the
longest delay; and a peer becomes quarantined through `quarantine` or its twelfth failure. -/
structure CallEffect (policy : PeerReconnectionPolicy) (failed : String → Nat) (call : Call) :
    Prop where
  once : ∀ id now before after, call = .recordFailure id now →
    policy.states.find? id = some before → before.attemptInFlight = true →
    (policy.perform call).states.find? id = some after → after.attempts = before.attempts
  schedule : ∀ id now after, call = .recordAttempt id now ∨ call = .recordFailure id now →
    (policy.perform call).states.find? id = some after → after.quarantined = false →
    after.nextRetryAt = now + backoffDelayForAttempt after.attempts
  delay : ∀ id now after, call.time = some now →
    (policy.perform call).states.find? id = some after → after.quarantined = false →
    after.nextRetryAt ≤ now + maxDelaySeconds ∨ ∃ before, policy.states.find? id = some before ∧
      before.quarantined = false ∧ after.nextRetryAt = before.nextRetryAt
  quarantined : ∀ id after, (policy.perform call).states.find? id = some after →
    after.quarantined = true →
    (∃ before, policy.states.find? id = some before ∧ before.quarantined = true) ∨
      (∃ reason now, call = .quarantine id reason now) ∨
      ((∃ now, call = .recordFailure id now) ∧ tally policy failed call id = 12)

/-- Soon is within the longest delay. -/
theorem SoonOrKept.delay (h : SoonOrKept policy id now after) :
    after.nextRetryAt ≤ now + maxDelaySeconds ∨ ∃ before, policy.states.find? id = some before ∧
      before.quarantined = false ∧ after.nextRetryAt = before.nextRetryAt := by
  refine h.imp_left (fun hsoon => ?_)
  unfold baseDelaySeconds at hsoon
  unfold maxDelaySeconds
  omega

theorem schedule_delay (h : after.nextRetryAt = now + backoffDelayForAttempt after.attempts) :
    after.nextRetryAt ≤ now + maxDelaySeconds := by
  have hle := backoffDelayForAttempt_le after.attempts
  omega

end PeerReconnectionPolicy

namespace PeerReconnectionPolicy

variable {policy : PeerReconnectionPolicy} {failed : String → Nat}

/-- A candidate that is tried: its record before is its candidate's, so it is known. -/
theorem recordAttempt_schedule (h : Tracked policy failed) {nodeId : String} {now : Int}
    {after : PeerReconnectionState} (hnow : 0 < now)
    (hcandidate : nodeId ∈ (policy.candidatesForReconnect now).map (·.nodeId))
    (hfind : (policy.recordAttempt nodeId now).states.find? nodeId = some after) :
    after.nextRetryAt = now + backoffDelayForAttempt after.attempts := by
  obtain ⟨state, hstate, hready⟩ := ready_of_candidate h hcandidate
  obtain ⟨hquarantined, -⟩ := isReadyToRetry_iff.mp hready
  unfold recordAttempt at hfind
  simp only [hstate] at hfind
  rw [if_neg (by omega), if_neg (by simp [hquarantined])] at hfind
  rcases find?_put hfind with ⟨-, rfl⟩ | ⟨hne, -⟩
  · rfl
  · exact absurd rfl hne

theorem callEffect {call : Call} (h : Tracked policy failed) (hcall : Admissible policy call)
    (hkept : ¬ EndsLastAttempt policy call) : CallEffect policy failed call := by
  have htracked := tracked_perform h hcall hkept
  constructor
  · rintro id now before after rfl hbefore hflight hafter
    rcases recordFailure_entry hcall hafter with ⟨hne, -⟩ | ⟨-, found, hfound, hattempts, -⟩
    · exact absurd rfl hne
    · obtain rfl := Option.some.inj (hbefore.symm.trans hfound)
      rw [hattempts, if_pos hflight]
  · rintro id now after (rfl | rfl) hafter hquarantined
    · exact recordAttempt_schedule h hcall.1 hcall.2 hafter
    · rcases recordFailure_entry hcall hafter with ⟨hne, -⟩ | ⟨-, found, -, -, hlast | hnext⟩
      · exact absurd rfl hne
      · rw [hquarantined] at hlast
        cases hlast.1
      · exact hnext.2
  · intro id now after htime hafter hquarantined
    have hsame : policy.states.find? id = some after →
        after.nextRetryAt ≤ now + maxDelaySeconds ∨ ∃ before, policy.states.find? id = some before ∧
          before.quarantined = false ∧ after.nextRetryAt = before.nextRetryAt :=
      fun hfind => Or.inr ⟨after, hfind, hquarantined, rfl⟩
    cases call with
    | recordCandidate nodeId endpoint time immediateRetry =>
      obtain rfl := Option.some.inj htime
      exact (recordCandidate_entry hafter).elim hsame (fun hsoon => hsoon.2.delay)
    | recordDisconnect nodeId endpoint time =>
      obtain rfl := Option.some.inj htime
      exact (recordDisconnect_entry hafter).elim hsame (fun hsoon => hsoon.2.delay)
    | recordAttempt nodeId time =>
      obtain rfl := Option.some.inj htime
      exact (recordAttempt_entry hafter).elim hsame (fun hnext => Or.inl (schedule_delay hnext.2.2))
    | recordSuccess nodeId => cases htime
    | recordFailure nodeId time =>
      obtain rfl := Option.some.inj htime
      rcases recordFailure_entry hcall hafter with ⟨-, hfind⟩ | ⟨-, found, -, -, hlast | hnext⟩
      · exact hsame hfind
      · rw [hquarantined] at hlast
        cases hlast.1
      · exact Or.inl (schedule_delay hnext.2)
    | quarantine nodeId reason time =>
      rcases quarantine_entry hafter with hfind | ⟨-, hyes⟩
      · exact hsame hfind
      · rw [hquarantined] at hyes
        cases hyes
    | lift nodeId time =>
      obtain rfl := Option.some.inj htime
      rcases lift_entry hcall hafter with hfind | ⟨-, hnext⟩
      · exact hsame hfind
      · refine Or.inl ?_
        unfold maxDelaySeconds
        omega
  · intro id after hafter hquarantined
    have hsame : policy.states.find? id = some after →
        ∃ before, policy.states.find? id = some before ∧ before.quarantined = true :=
      fun hfind => ⟨after, hfind, hquarantined⟩
    have hnot : after.quarantined = false →
        ∃ before, policy.states.find? id = some before ∧ before.quarantined = true := by
      intro hno
      rw [hquarantined] at hno
      cases hno
    cases call with
    | recordCandidate nodeId endpoint time immediateRetry =>
      exact Or.inl ((recordCandidate_entry hafter).elim hsame (fun hno => hnot hno.1))
    | recordDisconnect nodeId endpoint time =>
      exact Or.inl ((recordDisconnect_entry hafter).elim hsame (fun hno => hnot hno.1))
    | recordAttempt nodeId time =>
      exact Or.inl ((recordAttempt_entry hafter).elim hsame (fun hno => hnot hno.2.1))
    | recordSuccess nodeId =>
      change (SortedMap.erase _ _).find? id = some after at hafter
      rw [SortedMap.find?_erase] at hafter
      split_ifs at hafter
      exact Or.inl (hsame hafter)
    | recordFailure nodeId time =>
      rcases recordFailure_entry hcall hafter with ⟨-, hfind⟩ |
        ⟨rfl, before, hbefore, hattempts, hlast | hnext⟩
      · exact Or.inl (hsame hfind)
      · cases hwas : before.quarantined with
        | true => exact Or.inl ⟨before, hbefore, hwas⟩
        | false =>
          -- the counter stands at the limit, and it counts what the tally counts
          refine Or.inr (Or.inr ⟨⟨time, rfl⟩, ?_⟩)
          have hrecord := h.record hbefore
          obtain ⟨hcounted, hbound⟩ := hrecord.counted hwas
          have hlimit : 12 ≤ after.attempts.toNat := UInt32.le_iff_toNat_le.mp hlast.2
          cases hflight : before.attemptInFlight with
          | true =>
            rw [hflight, if_pos rfl] at hattempts
            rw [hattempts, hcounted] at hlimit
            simp only [tally, hbefore]
            rw [if_neg (by simp [hflight])]
            omega
          | false =>
            rw [hflight, if_neg Bool.false_ne_true] at hattempts
            obtain ⟨hone, hleft⟩ := toNat_next (hrecord.waiting hwas hflight)
            rw [hattempts, hone, hcounted] at hlimit
            simp only [tally, hbefore]
            rw [if_pos (by simp [hflight])]
            omega
      · exact Or.inl ⟨before, hbefore, hnext.1 ▸ hquarantined⟩
    | quarantine nodeId reason time =>
      rcases quarantine_entry hafter with hfind | ⟨rfl, -⟩
      · exact Or.inl (hsame hfind)
      · exact Or.inr (Or.inl ⟨reason, time, rfl⟩)
    | lift nodeId time =>
      exact Or.inl ((lift_entry hcall hafter).elim hsame (fun hno => hnot hno.1))

--
-- Runs
--

/-- A run of allowed calls from the empty policy, with the tally of failures. -/
inductive Run (Allowed : PeerReconnectionPolicy → Call → Prop) :
    PeerReconnectionPolicy → (String → Nat) → Prop
  | start : Run Allowed empty (fun _ => 0)
  | step {policy failed call} : Run Allowed policy failed → Allowed policy call →
    Run Allowed (policy.perform call) (tally policy failed call)

/-- A call of the claim that does not disconnect the last attempt of a peer. -/
def Kept (policy : PeerReconnectionPolicy) (call : Call) : Prop :=
  Admissible policy call ∧ ¬ EndsLastAttempt policy call

theorem Run.tracked (h : Run Kept policy failed) : Tracked policy failed := by
  induction h with
  | start =>
    refine ⟨fun hfind => ?_, fun _ => rfl⟩
    cases hfind
  | step _ hcall ih => exact tracked_perform ih hcall.1 hcall.2

/-- **No peer is forgotten.** In every state of such a run a tracked peer that is neither
quarantined nor under way has an attempt left and is a candidate from its next time on; its
counter is its tally; and every further call has the effect described. The delays of the schedule
grow with the counter, up to the longest delay. -/
theorem reconnection_kept {policy : PeerReconnectionPolicy} {failed : String → Nat}
    (h : Run Kept policy failed) :
    (∀ nodeId state, policy.states.find? nodeId = some state → state.quarantined = false →
      state.attempts.toNat = failed nodeId ∧
      (state.attemptInFlight = false → state.attempts < maxAttempts ∧
        ∀ now, state.nextRetryAt ≤ now → state ∈ policy.candidatesForReconnect now)) ∧
    (∀ call, Kept policy call → CallEffect policy failed call) ∧
    (∀ attempt, backoffDelayForAttempt attempt ≤ maxDelaySeconds) ∧
    ∀ m n, m ≤ n → backoffDelayForAttempt m ≤ backoffDelayForAttempt n := by
  refine ⟨fun nodeId state hfind hquarantined => ?_,
    fun call hcall => callEffect h.tracked hcall.1 hcall.2, backoffDelayForAttempt_le,
    fun m n => backoffDelayForAttempt_mono⟩
  have hrecord := h.tracked.record hfind
  refine ⟨(hrecord.counted hquarantined).1, fun hflight => ?_⟩
  have hleft := hrecord.waiting hquarantined hflight
  refine ⟨hleft, fun now hnow => ?_⟩
  exact mem_candidatesForReconnect.mpr ⟨⟨nodeId, hfind⟩,
    isReadyToRetry_iff.mpr ⟨hquarantined, hflight, hleft, hnow⟩⟩

/-- Known since time one, and free to be tried then. -/
def newPeer : PeerReconnectionState := ⟨"b", "host:1", 0, 0, 1, false, "", false⟩

def firstCandidate : PeerReconnectionPolicy :=
  empty.perform (.recordCandidate "b" "host:1" 1 true)

theorem find?_firstCandidate : firstCandidate.states.find? "b" = some newPeer := by decide +kernel

theorem reconnection_kept_first : newPeer ∈ firstCandidate.candidatesForReconnect 1 := by
  have hrun : Run Kept firstCandidate (fun _ => 0) :=
    Run.step Run.start ⟨show (0 : Int) < 1 by decide, fun h => h⟩
  exact (((reconnection_kept hrun).1 "b" newPeer find?_firstCandidate rfl).2 rfl).2 1 (by decide)

/-- A record after an attempt. -/
def tried (state : PeerReconnectionState) (now : Int) : PeerReconnectionState :=
  { state with
    attempts := state.attempts + 1
    lastAttemptAt := now
    nextRetryAt := now + backoffDelayForAttempt (state.attempts + 1)
    attemptInFlight := true }

/-- A peer that is ready can be tried. -/
theorem Run.attempt {nodeId : String} {state : PeerReconnectionState} {now : Int}
    (hrun : Run Admissible policy failed) (hfind : policy.states.find? nodeId = some state)
    (hid : state.nodeId = nodeId) (hready : isReadyToRetry state now = true) (hnow : 0 < now) :
    Run Admissible (policy.put nodeId (tried state now))
      (tally policy failed (.recordAttempt nodeId now)) := by
  have hcandidate : nodeId ∈ (policy.candidatesForReconnect now).map (·.nodeId) :=
    List.mem_map.mpr ⟨state, mem_candidatesForReconnect.mpr ⟨⟨nodeId, hfind⟩, hready⟩, hid⟩
  have hstep : Run Admissible (policy.perform (.recordAttempt nodeId now)) _ :=
    Run.step hrun ⟨hnow, hcandidate⟩
  have htried : policy.perform (.recordAttempt nodeId now) = policy.put nodeId (tried state now) := by
    simp only [perform, recordAttempt, hfind]
    rw [if_neg (by omega), if_neg (by simp [(isReadyToRetry_iff.mp hready).1])]
    rfl
  rwa [htried] at hstep

/-- A peer that has failed `n` times in a row and waits. -/
structure Waiting (n : Nat) (state : PeerReconnectionState) : Prop where
  id : state.nodeId = "b"
  quarantined : state.quarantined = false
  idle : state.attemptInFlight = false
  attempts : state.attempts.toNat = n
  retry : state.nextRetryAt ≤ 1 + 300 * n

theorem Waiting.ready {n : Nat} {state : PeerReconnectionState} (h : Waiting n state) (hn : n < 12) :
    state.attempts < maxAttempts ∧ isReadyToRetry state (1 + 300 * n) = true := by
  have hleft : state.attempts < maxAttempts := by
    rw [UInt32.lt_iff_toNat_lt, h.attempts]
    exact hn
  exact ⟨hleft, isReadyToRetry_iff.mpr ⟨h.quarantined, h.idle, hleft, h.retry⟩⟩

/-- After `n` failed attempts, one every three hundred seconds. -/
theorem run_failures (n : Nat) (hn : n ≤ 11) :
    ∃ policy failed state, Run Admissible policy failed ∧
      policy.states.find? "b" = some state ∧ Waiting n state := by
  induction n with
  | zero =>
    exact ⟨firstCandidate, fun _ => 0, newPeer,
      Run.step Run.start (show (0 : Int) < 1 by decide), find?_firstCandidate,
      ⟨rfl, rfl, rfl, rfl, by decide⟩⟩
  | succ n ih =>
    obtain ⟨policy, failed, state, hrun, hfind, hwaiting⟩ := ih (by omega)
    obtain ⟨hleft, hready⟩ := hwaiting.ready (by omega)
    obtain ⟨hnext, -⟩ := toNat_next hleft
    have hpos : (0 : Int) < 1 + 300 * n := by omega
    have hmore : ¬ maxAttempts ≤ state.attempts + 1 := by
      rw [UInt32.le_iff_toNat_le, hnext, hwaiting.attempts]
      change ¬ 12 ≤ _
      omega
    have htry := hrun.attempt hfind hwaiting.id hready hpos
    have hfail : Run Admissible ((policy.put "b" (tried state (1 + 300 * n))).perform
        (.recordFailure "b" (1 + 300 * n))) _ := Run.step htry hpos
    refine ⟨_, _, { tried state (1 + 300 * n) with attemptInFlight := false }, hfail, ?_,
      ⟨hwaiting.id, hwaiting.quarantined, rfl, hnext.trans (by rw [hwaiting.attempts]), ?_⟩⟩
    · simp only [perform, recordFailure, put, SortedMap.find?_insert_self]
      rw [if_neg (by omega)]
      simp only [tried, if_true]
      rw [if_neg hmore]
      exact SortedMap.find?_insert_self _ _ _
    · refine Int.le_trans (schedule_delay rfl) ?_
      unfold maxDelaySeconds
      push_cast
      omega

/-- **Forgotten for good.** The twelfth attempt ends in a disconnect. -/
theorem twelfth_attempt_forgets :
    ∃ policy failed state, Run Admissible policy failed ∧
      policy.states.find? "b" = some state ∧ state.quarantined = false ∧
      state.attemptInFlight = false ∧ ¬ state.attempts < maxAttempts ∧
      ∀ now, state ∉ policy.candidatesForReconnect now := by
  obtain ⟨policy, failed, state, hrun, hfind, hwaiting⟩ := run_failures 11 (Nat.le_refl _)
  obtain ⟨hleft, hready⟩ := hwaiting.ready (by decide)
  obtain ⟨hnext, -⟩ := toNat_next hleft
  have hspent : ¬ state.attempts + 1 < maxAttempts := by
    rw [UInt32.lt_iff_toNat_lt, hnext, hwaiting.attempts]
    decide
  have htry := hrun.attempt hfind hwaiting.id hready (by decide)
  have hend : Run Admissible ((policy.put "b" (tried state (1 + 300 * (11 : Nat)))).perform
      (.recordDisconnect "b" "host:1" 3301)) _ :=
    Run.step htry (show (0 : Int) < 3301 by decide)
  refine ⟨_, _, { tried state (1 + 300 * (11 : Nat)) with
      endpoint := "host:1"
      attemptInFlight := false
      nextRetryAt := if (tried state (1 + 300 * (11 : Nat))).nextRetryAt < 3301 + baseDelaySeconds
        then 3301 + baseDelaySeconds else (tried state (1 + 300 * (11 : Nat))).nextRetryAt },
    hend, ?_, hwaiting.quarantined, rfl, hspent, ?_⟩
  · have hsafe : (!isSafeNodeId "b" || !isSafeEndpoint "host:1" || decide ((3301 : Int) ≤ 0))
        = false := by decide +kernel
    have hopen : (tried state (1 + 300 * (11 : Nat))).quarantined = false := hwaiting.quarantined
    simp only [perform, recordDisconnect, put, SortedMap.find?_insert_self, hsafe, hopen,
      Bool.false_eq_true, if_false]
  · intro now hmem
    exact hspent (isReadyToRetry_iff.mp (mem_candidatesForReconnect.mp hmem).2).2.2.1

end PeerReconnectionPolicy

end Nodo.Model
