import Nodo.Lib.FixedWindow
import Nodo.Lib.SortedMap
import Nodo.Lib.Text
import Nodo.Model.NetworkEnvelope

/-!
# Nodo — rate limits of peers

`p2p/PeerRateLimiter.cpp`. A message takes one unit of the budget that its sender has for its
type, an invalid one takes two. A budget is a fixed window that restarts when it is used after its
end. The windows are held in one map under joined keys, at most 4096 of them.

The count of all messages of a peer searches the keys by the prefix `nodeId|`. A node id that
itself begins with that prefix is counted as well.

## Results

* `windowKey_inj` — the key of a window names the peer and the type.
* `Kept.perform` — what one call keeps: each window counts the units taken in it.
* `Kept.shouldAllow_pruned` — windows that are over change no answer.
* `rate_limits_kept` — the limits, the isolation of peers and what `messageCount` counts, over
  every run.
-/

namespace Nodo.Model

--
-- The limiter (p2p/PeerRateLimiter.cpp)
--

structure PeerWindow where
  windowStart : Int
  count : Nat
  deriving DecidableEq

structure PeerRateLimiter where
  windows : SortedMap String PeerWindow
  maxMessagesPerWindow : UInt32
  windowSeconds : UInt64
  customLimits : NetworkMessageType → Option UInt32

namespace PeerRateLimiter

def maxTrackedRateLimitPeers : Nat := 4096

/-- `PeerRateLimiter(maxMessagesPerWindow, windowSeconds)`. -/
def new (maxMessagesPerWindow : UInt32) (windowSeconds : UInt64) : PeerRateLimiter :=
  ⟨SortedMap.empty, maxMessagesPerWindow, windowSeconds, fun _ => none⟩

def setLimitForType (limiter : PeerRateLimiter) (type : NetworkMessageType) (limit : UInt32) :
    PeerRateLimiter :=
  { limiter with
    customLimits := fun other => if other = type then some limit else limiter.customLimits other }

def limitForType (limiter : PeerRateLimiter) (type : NetworkMessageType) : UInt32 :=
  match limiter.customLimits type with
  | some limit => limit
  | none => limiter.maxMessagesPerWindow

def windowKey (nodeId : String) (messageType : NetworkMessageType) : String :=
  nodeId ++ "|" ++
    if messageType = .unknown then "GENERIC" else networkMessageTypeToString messageType

/-- The window as it is at `now`. -/
def advanceWindowIfExpired (limiter : PeerRateLimiter) (window : PeerWindow) (now : Int) :
    PeerWindow :=
  let clockMovedBackwards := now < window.windowStart
  let elapsed := if clockMovedBackwards then 0 else now - window.windowStart
  if clockMovedBackwards || (limiter.windowSeconds.toNat : Int) ≤ elapsed then ⟨now, 0⟩ else window

def pruneExpiredWindows (limiter : PeerRateLimiter) (now : Int) : PeerRateLimiter :=
  { limiter with
    windows := limiter.windows.filter
      (fun _ window => (limiter.advanceWindowIfExpired window now).count != 0) }

/-- `m_windows.size()`. -/
def size (limiter : PeerRateLimiter) : Nat := limiter.windows.entries.length

/-- `m_windows[key] = window`. -/
def put (limiter : PeerRateLimiter) (key : String) (window : PeerWindow) : PeerRateLimiter :=
  { limiter with windows := limiter.windows.insert key window }

/-- The end of `shouldAllow`, once the window of the key is at hand. -/
def takeFrom (limiter : PeerRateLimiter) (key : String) (found : PeerWindow) (limit : UInt32)
    (now : Int) : Bool × PeerRateLimiter :=
  let window := limiter.advanceWindowIfExpired found now
  if limit.toNat ≤ window.count then (false, limiter.put key window)
  else (true, limiter.put key { window with count := window.count + 1 })

def shouldAllow (limiter : PeerRateLimiter) (nodeId : String) (messageType : NetworkMessageType)
    (now : Int) : Bool × PeerRateLimiter :=
  let limit := limiter.limitForType messageType
  if nodeId.isEmpty || 128 < nodeId.length || now ≤ 0 || limit == 0
      || limiter.windowSeconds == 0 then (false, limiter)
  else
    let key := windowKey nodeId messageType
    match limiter.windows.find? key with
    | some window => limiter.takeFrom key window limit now
    | none =>
      if maxTrackedRateLimitPeers ≤ limiter.size then
        let pruned := limiter.pruneExpiredWindows now
        if maxTrackedRateLimitPeers ≤ pruned.size then (false, pruned)
        else pruned.takeFrom key ⟨now, 0⟩ limit now
      else limiter.takeFrom key ⟨now, 0⟩ limit now

def recordInvalidMessage (limiter : PeerRateLimiter) (nodeId : String)
    (messageType : NetworkMessageType) (now : Int) : Bool × PeerRateLimiter :=
  let first := limiter.shouldAllow nodeId messageType now
  let second := first.2.shouldAllow nodeId messageType now
  (first.1 && second.1, second.2)

/-- The largest `std::uint32_t`. -/
def maxCount : Nat := 2 ^ 32 - 1

/-- `messageCount(nodeId, now)`: the windows whose keys begin with `nodeId|`. -/
def messageCount (limiter : PeerRateLimiter) (nodeId : String) (now : Int) : Nat :=
  if nodeId.isEmpty || now ≤ 0 || limiter.windowSeconds == 0 then 0
  else
    let total := ((limiter.windows.entries.filter
      (fun entry => (nodeId ++ "|").toList.isPrefixOf entry.1.toList)).map
      (fun entry => (limiter.advanceWindowIfExpired entry.2 now).count)).sum
    if maxCount < total then maxCount else total

/-- `messageCount(nodeId, messageType, now)`. -/
def messageCountOfType (limiter : PeerRateLimiter) (nodeId : String)
    (messageType : NetworkMessageType) (now : Int) : Nat :=
  if nodeId.isEmpty || now ≤ 0 || limiter.windowSeconds == 0 then 0
  else
    match limiter.windows.find? (windowKey nodeId messageType) with
    | none => 0
    | some window => (limiter.advanceWindowIfExpired window now).count

--
-- Runs
--

/-- A call of the limiter. -/
inductive Call
  | shouldAllow (nodeId : String) (messageType : NetworkMessageType) (now : Int)
  | recordInvalidMessage (nodeId : String) (messageType : NetworkMessageType) (now : Int)

def Call.nodeId : Call → String
  | shouldAllow nodeId _ _ => nodeId
  | recordInvalidMessage nodeId _ _ => nodeId

def Call.messageType : Call → NetworkMessageType
  | shouldAllow _ messageType _ => messageType
  | recordInvalidMessage _ messageType _ => messageType

def Call.now : Call → Int
  | shouldAllow _ _ now => now
  | recordInvalidMessage _ _ now => now

/-- A unit of budget that was taken: whose, when, and in which window. -/
structure Grant where
  nodeId : String
  messageType : NetworkMessageType
  windowStart : Int
  time : Int

def Grant.key (grant : Grant) : String := windowKey grant.nodeId grant.messageType

/-- The unit that an answer of `shouldAllow` stands for, with the start of the window it is
counted in. -/
def unitOf (nodeId : String) (messageType : NetworkMessageType) (now : Int)
    (answer : Bool × PeerRateLimiter) : List Grant :=
  match answer.2.windows.find? (windowKey nodeId messageType) with
  | none => []
  | some window => if answer.1 then [⟨nodeId, messageType, window.windowStart, now⟩] else []

/-- The unit that a call of `shouldAllow` takes. -/
def granted (limiter : PeerRateLimiter) (nodeId : String) (messageType : NetworkMessageType)
    (now : Int) : List Grant :=
  unitOf nodeId messageType now (limiter.shouldAllow nodeId messageType now)

/-- What a call answered, and the units it took. -/
structure Answer where
  call : Call
  units : List Grant
  allowed : Bool

def perform (limiter : PeerRateLimiter) : Call → Answer × PeerRateLimiter
  | .shouldAllow nodeId messageType now =>
    let answer := limiter.shouldAllow nodeId messageType now
    (⟨.shouldAllow nodeId messageType now, limiter.granted nodeId messageType now, answer.1⟩, answer.2)
  | .recordInvalidMessage nodeId messageType now =>
    let answer := limiter.recordInvalidMessage nodeId messageType now
    let between := (limiter.shouldAllow nodeId messageType now).2
    (⟨.recordInvalidMessage nodeId messageType now,
      limiter.granted nodeId messageType now ++ between.granted nodeId messageType now, answer.1⟩,
      answer.2)

/-- The answers of a run, and the limiter after it. -/
def run (limiter : PeerRateLimiter) : List Call → List Answer × PeerRateLimiter
  | [] => ([], limiter)
  | call :: calls =>
    let step := limiter.perform call
    let rest := step.2.run calls
    (step.1 :: rest.1, rest.2)

/-- The limiters before each call of a run. -/
def before (limiter : PeerRateLimiter) : List Call → List PeerRateLimiter
  | [] => []
  | call :: calls => limiter :: (limiter.perform call).2.before calls

/-- All units taken in a run. -/
def grants (answers : List Answer) : List Grant := answers.flatMap Answer.units

end PeerRateLimiter

--
-- Keys
--

namespace PeerRateLimiter

/-- The part of a key behind the node id. -/
def typeText (messageType : NetworkMessageType) : String :=
  if messageType = .unknown then "GENERIC" else networkMessageTypeToString messageType

/-- The text of a type is read back; the one of the unknown type is no type's. -/
theorem typeText_read (messageType : NetworkMessageType) :
    networkMessageTypeFromString (typeText messageType) = messageType := by
  cases messageType <;> decide

theorem typeText_no_bar (messageType : NetworkMessageType) : '|' ∉ (typeText messageType).toList := by
  cases messageType <;> decide

theorem toList_windowKey (nodeId : String) (messageType : NetworkMessageType) :
    (windowKey nodeId messageType).toList = nodeId.toList ++ '|' :: (typeText messageType).toList := by
  have hbar : "|".toList = ['|'] := Text.toList_of_eq_ofList rfl
  unfold windowKey typeText
  rw [String.toList_append, String.toList_append, hbar, List.append_assoc, List.singleton_append]

/-- **The key of a window names its peer and its type.** -/
theorem windowKey_inj {nodeId nodeId' : String} {messageType messageType' : NetworkMessageType}
    (h : windowKey nodeId messageType = windowKey nodeId' messageType') :
    nodeId = nodeId' ∧ messageType = messageType' := by
  have hlist := congrArg String.toList h
  rw [toList_windowKey, toList_windowKey] at hlist
  obtain ⟨hnode, htype⟩ := Text.append_last_delimiter_inj (typeText_no_bar _) (typeText_no_bar _) hlist
  refine ⟨String.toList_injective hnode, ?_⟩
  rw [← typeText_read messageType, String.toList_injective htype, typeText_read]

/-- The node ids whose keys begin with `peer|`. -/
def Covers (peer nodeId : String) : Prop :=
  nodeId = peer ∨ (peer ++ "|").toList <+: nodeId.toList

/-- A key begins with `peer|` for the peer itself, and for a node id that begins so. -/
theorem prefix_windowKey_iff {peer nodeId : String} {messageType : NetworkMessageType} :
    (peer ++ "|").toList <+: (windowKey nodeId messageType).toList ↔ Covers peer nodeId := by
  have hbar : "|".toList = ['|'] := Text.toList_of_eq_ofList rfl
  rw [Covers, toList_windowKey, String.toList_append, hbar]
  constructor
  · rintro ⟨rest, hrest⟩
    rw [List.append_assoc, List.singleton_append] at hrest
    rcases List.append_eq_append_iff.mp hrest with ⟨extra, hnode, htail⟩ | ⟨extra, hpeer, htail⟩
    · cases extra with
      | nil =>
        rw [List.append_nil] at hnode
        exact Or.inl (String.toList_injective hnode)
      | cons c extra =>
        rw [List.cons_append, List.cons.injEq] at htail
        obtain ⟨rfl, -⟩ := htail
        right
        rw [hnode]
        exact ⟨extra, by rw [List.append_assoc, List.singleton_append]⟩
    · cases extra with
      | nil =>
        rw [List.append_nil] at hpeer
        exact Or.inl (String.toList_injective hpeer.symm)
      | cons c extra =>
        -- The bar behind the peer would stand in the text of the type.
        rw [List.cons_append, List.cons.injEq] at htail
        have hin : '|' ∈ (typeText messageType).toList := by
          rw [htail.2]
          exact List.mem_append_right _ List.mem_cons_self
        exact absurd hin (typeText_no_bar messageType)
  · rintro (rfl | ⟨rest, hrest⟩)
    · exact ⟨(typeText messageType).toList, by rw [List.append_assoc, List.singleton_append]⟩
    · exact ⟨rest ++ '|' :: (typeText messageType).toList, by rw [← hrest, List.append_assoc _ rest]⟩

end PeerRateLimiter

--
-- One call
--

namespace PeerRateLimiter

variable {limiter base : PeerRateLimiter} {grants : List Grant} {clock now : Int}
  {nodeId key : String} {messageType : NetworkMessageType} {window : PeerWindow}

/-- The length of a window. -/
def length (limiter : PeerRateLimiter) : Int := limiter.windowSeconds.toNat

theorem length_nonneg (limiter : PeerRateLimiter) : 0 ≤ limiter.length := Int.natCast_nonneg _

theorem length_pos (h : (limiter.windowSeconds == 0) = false) : 0 < limiter.length := by
  have hne : limiter.windowSeconds ≠ 0 := fun heq => by
    rw [heq] at h
    cases h
  have hnat : limiter.windowSeconds.toNat ≠ 0 := fun heq => hne (UInt64.toNat_inj.mp heq)
  unfold length
  omega

theorem advance_of_open (hle : window.windowStart ≤ now) (hopen : now < window.windowStart + limiter.length) :
    limiter.advanceWindowIfExpired window now = window := by
  unfold length at hopen
  unfold advanceWindowIfExpired
  simp only [Int.not_lt.mpr hle, decide_false, Bool.false_or, decide_eq_true_eq, if_false]
  rw [if_neg (by omega)]

theorem advance_of_over (hle : window.windowStart ≤ now) (hover : window.windowStart + limiter.length ≤ now) :
    limiter.advanceWindowIfExpired window now = ⟨now, 0⟩ := by
  unfold length at hover
  unfold advanceWindowIfExpired
  simp only [Int.not_lt.mpr hle, decide_false, Bool.false_or, decide_eq_true_eq, if_false]
  rw [if_pos (by omega)]

theorem advance_cases (limiter : PeerRateLimiter) (window : PeerWindow) (now : Int) :
    limiter.advanceWindowIfExpired window now = window ∨
      limiter.advanceWindowIfExpired window now = ⟨now, 0⟩ := by
  unfold advanceWindowIfExpired
  simp only
  exact (ite_eq_or_eq _ _ _).symm

/-- The window that a call takes its unit from: the one of the key, or a new one. -/
def Takes (base : PeerRateLimiter) (key : String) (now : Int) (window : PeerWindow) : Prop :=
  (∃ found, base.windows.find? key = some found ∧ window = base.advanceWindowIfExpired found now) ∨
  (base.windows.find? key = none ∧ base.size < maxTrackedRateLimitPeers ∧ window = ⟨now, 0⟩)

/-- What passes the first check of `shouldAllow`. -/
def Admissible (limiter : PeerRateLimiter) (nodeId : String) (messageType : NetworkMessageType)
    (now : Int) : Prop :=
  nodeId.isEmpty = false ∧ 0 < now ∧ 0 < (limiter.limitForType messageType).toNat ∧
    0 < limiter.length

theorem put_self (h : limiter.windows.find? key = some window) : limiter.put key window = limiter := by
  unfold put
  rw [limiter.windows.insert_of_find? h]

theorem advance_new (hlength : 0 < limiter.length) :
    limiter.advanceWindowIfExpired ⟨now, 0⟩ now = ⟨now, 0⟩ :=
  advance_of_open (Int.le_refl _) (by simp only; omega)

theorem takeFrom_of_room {found : PeerWindow} {limit : UInt32}
    (hroom : (limiter.advanceWindowIfExpired found now).count < limit.toNat) :
    limiter.takeFrom key found limit now = (true, limiter.put key
      { limiter.advanceWindowIfExpired found now with
        count := (limiter.advanceWindowIfExpired found now).count + 1 }) := by
  unfold takeFrom
  simp only
  rw [if_neg (Nat.not_le.mpr hroom)]

/-- A full window is one that is still open: a restarted one has room. -/
theorem takeFrom_of_full {found : PeerWindow} {limit : UInt32} (hlimit : 0 < limit.toNat)
    (hfound : limiter.windows.find? key = some found)
    (hfull : limit.toNat ≤ (limiter.advanceWindowIfExpired found now).count) :
    limiter.takeFrom key found limit now = (false, limiter) := by
  have hsame : limiter.advanceWindowIfExpired found now = found := by
    rcases limiter.advance_cases found now with hsame | hnew
    · exact hsame
    · rw [hnew] at hfull
      exact absurd hfull (Nat.not_le.mpr hlimit)
  unfold takeFrom
  simp only
  rw [if_pos hfull, hsame, put_self hfound]

/-- How a call ends: refused, or with one unit taken. The limiter may have been pruned for
it when it was full. -/
theorem shouldAllow_cases (limiter : PeerRateLimiter) (nodeId : String)
    (messageType : NetworkMessageType) (now : Int) :
    (∃ base, (base = limiter ∨ base = limiter.pruneExpiredWindows now) ∧
      limiter.shouldAllow nodeId messageType now = (false, base)) ∨
    ∃ base window, (base = limiter ∨ base = limiter.pruneExpiredWindows now) ∧
      Admissible limiter nodeId messageType now ∧ Takes base (windowKey nodeId messageType) now window ∧
      window.count < (limiter.limitForType messageType).toNat ∧
      limiter.shouldAllow nodeId messageType now = (true,
        base.put (windowKey nodeId messageType) { window with count := window.count + 1 }) := by
  unfold shouldAllow
  simp only
  by_cases hrefused : (nodeId.isEmpty || 128 < nodeId.length || now ≤ 0
      || limiter.limitForType messageType == 0 || limiter.windowSeconds == 0) = true
  · rw [if_pos hrefused]
    exact Or.inl ⟨limiter, Or.inl rfl, rfl⟩
  rw [if_neg hrefused]
  simp only [Bool.or_eq_true, decide_eq_true_eq, not_or, Bool.not_eq_true, Int.not_le] at hrefused
  obtain ⟨⟨⟨⟨hnode, -⟩, hnow⟩, hlimit⟩, hseconds⟩ := hrefused
  have hpositive : 0 < (limiter.limitForType messageType).toNat := by
    refine Nat.pos_of_ne_zero (fun heq => ?_)
    rw [UInt32.toNat_inj.mp (heq.trans UInt32.toNat_zero.symm)] at hlimit
    cases hlimit
  have hadmissible : Admissible limiter nodeId messageType now :=
    ⟨hnode, hnow, hpositive, length_pos hseconds⟩
  have hnew : ∀ base : PeerRateLimiter, base.length = limiter.length →
      base.takeFrom (windowKey nodeId messageType) ⟨now, 0⟩ (limiter.limitForType messageType) now
        = (true, base.put (windowKey nodeId messageType) ⟨now, 0 + 1⟩) := by
    intro base hlength
    have hadvance : base.advanceWindowIfExpired ⟨now, 0⟩ now = ⟨now, 0⟩ :=
      advance_new (by rw [hlength]; exact hadmissible.2.2.2)
    rw [takeFrom_of_room (by rw [hadvance]; exact hpositive), hadvance]
  cases hfind : limiter.windows.find? (windowKey nodeId messageType) with
  | some found =>
    simp only
    by_cases hfull : (limiter.limitForType messageType).toNat
        ≤ (limiter.advanceWindowIfExpired found now).count
    · rw [takeFrom_of_full hpositive hfind hfull]
      exact Or.inl ⟨limiter, Or.inl rfl, rfl⟩
    · rw [takeFrom_of_room (Nat.not_le.mp hfull)]
      exact Or.inr ⟨limiter, _, Or.inl rfl, hadmissible, Or.inl ⟨found, hfind, rfl⟩,
        Nat.not_le.mp hfull, rfl⟩
  | none =>
    simp only
    by_cases hfull : maxTrackedRateLimitPeers ≤ limiter.size
    · rw [if_pos hfull]
      by_cases hstill : maxTrackedRateLimitPeers ≤ (limiter.pruneExpiredWindows now).size
      · rw [if_pos hstill]
        exact Or.inl ⟨_, Or.inr rfl, rfl⟩
      · rw [if_neg hstill, hnew (limiter.pruneExpiredWindows now) rfl]
        refine Or.inr ⟨_, ⟨now, 0⟩, Or.inr rfl, hadmissible,
          Or.inr ⟨?_, Nat.not_le.mp hstill, rfl⟩, hpositive, rfl⟩
        unfold pruneExpiredWindows
        rw [limiter.windows.find?_filter, hfind]
        rfl
    · rw [if_neg hfull, hnew _ rfl]
      exact Or.inr ⟨_, ⟨now, 0⟩, Or.inl rfl, hadmissible,
        Or.inr ⟨hfind, Nat.not_le.mp hfull, rfl⟩, hpositive, rfl⟩

end PeerRateLimiter

--
-- What the windows count
--

namespace PeerRateLimiter

variable {limiter base : PeerRateLimiter} {grants : List Grant} {clock now : Int}
  {nodeId key : String} {messageType : NetworkMessageType} {window : PeerWindow}

/-- The units of one window key. -/
def ofKey (grants : List Grant) (key : String) : List Grant := grants.filter (fun g => g.key == key)

theorem ofKey_concat (grants : List Grant) (grant : Grant) (key : String) :
    ofKey (grants ++ [grant]) key =
      if grant.key = key then ofKey grants key ++ [grant] else ofKey grants key := by
  unfold ofKey
  rw [List.filter_append]
  by_cases hkey : grant.key = key
  · rw [if_pos hkey, List.filter_singleton, beq_iff_eq.mpr hkey]
    rfl
  · rw [if_neg hkey, List.filter_singleton, beq_false_of_ne hkey]
    exact List.append_nil _

/-- **The invariant of a run**: each window counts the units of its key taken since its start,
and a key without one has none in an open window. -/
structure Kept (limiter : PeerRateLimiter) (grants : List Grant) (clock : Int) : Prop where
  started : ∀ {key window}, limiter.windows.find? key = some window →
    window.windowStart ≤ clock ∧ 0 < window.count
  keyed : ∀ {key window}, limiter.windows.find? key = some window →
    ∃ nodeId messageType, key = windowKey nodeId messageType ∧ nodeId.isEmpty = false
  named : ∀ g ∈ grants, g.nodeId.isEmpty = false
  follows : ∀ {key window}, limiter.windows.find? key = some window →
    FixedWindow.Follows Grant.windowStart limiter.length (ofKey grants key) window.windowStart
      window.count
  settled : ∀ {key}, limiter.windows.find? key = none →
    FixedWindow.Settled Grant.windowStart limiter.length (ofKey grants key) clock
  spaced : ∀ nodeId messageType, FixedWindow.Spaced Grant.windowStart Grant.time limiter.length
    (limiter.limitForType messageType).toNat (ofKey grants (windowKey nodeId messageType))
  bound : limiter.size ≤ maxTrackedRateLimitPeers

theorem Kept.mono (h : Kept limiter grants clock) (hle : clock ≤ now) : Kept limiter grants now where
  started hfind := ⟨Int.le_trans (h.started hfind).1 hle, (h.started hfind).2⟩
  keyed := h.keyed
  named := h.named
  follows := h.follows
  settled hfind := (h.settled hfind).mono hle
  spaced := h.spaced
  bound := h.bound

/-- A prune keeps the open windows. -/
theorem Kept.prune_find? (h : Kept limiter grants clock) (hle : clock ≤ now) :
    (limiter.pruneExpiredWindows now).windows.find? key = some window ↔
      limiter.windows.find? key = some window ∧ now < window.windowStart + limiter.length := by
  unfold pruneExpiredWindows
  rw [limiter.windows.find?_filter_eq_some]
  refine and_congr_right (fun hfind => ?_)
  obtain ⟨hstart, hcount⟩ := h.started hfind
  have hstart := Int.le_trans hstart hle
  rcases Int.lt_or_le now (window.windowStart + limiter.length) with hopen | hover
  · rw [advance_of_open hstart hopen, bne_iff_ne]
    exact ⟨fun _ => hopen, fun _ => Nat.ne_of_gt hcount⟩
  · rw [advance_of_over hstart hover]
    exact ⟨fun hne => absurd hne (by simp), fun hopen => absurd hopen (Int.not_lt.mpr hover)⟩

theorem size_prune_le (limiter : PeerRateLimiter) (now : Int) :
    (limiter.pruneExpiredWindows now).size ≤ limiter.size := List.filter_sublist.length_le

theorem Kept.prune (h : Kept limiter grants clock) (hle : clock ≤ now) :
    Kept (limiter.pruneExpiredWindows now) grants now where
  started hfind := (h.mono hle).started ((h.prune_find? hle).mp hfind).1
  keyed hfind := h.keyed ((h.prune_find? hle).mp hfind).1
  named := h.named
  follows hfind := h.follows ((h.prune_find? hle).mp hfind).1
  settled := by
    intro key hnone
    cases hfind : limiter.windows.find? key with
    | none => exact (h.settled hfind).mono hle
    | some window =>
      refine (h.follows hfind).settled limiter.length_nonneg (Int.not_lt.mp (fun hopen => ?_))
      rw [(h.prune_find? hle).mpr ⟨hfind, hopen⟩] at hnone
      cases hnone
  spaced := h.spaced
  bound := Nat.le_trans (limiter.size_prune_le now) h.bound

/-- The window that a call takes from is open and counts the units in it. -/
theorem Kept.takes (h : Kept base grants now) (hlength : 0 < base.length)
    (htakes : Takes base key now window) :
    window.windowStart ≤ now ∧ now < window.windowStart + base.length ∧
      FixedWindow.Follows Grant.windowStart base.length (ofKey grants key) window.windowStart
        window.count := by
  rcases htakes with ⟨found, hfind, rfl⟩ | ⟨hnone, -, rfl⟩
  · have hstart := (h.started hfind).1
    rcases Int.lt_or_le now (found.windowStart + base.length) with hopen | hover
    · rw [advance_of_open hstart hopen]
      exact ⟨hstart, hopen, h.follows hfind⟩
    · rw [advance_of_over hstart hover]
      exact ⟨Int.le_refl _, by simp only; omega, (h.follows hfind).restart hlength hover⟩
  · exact ⟨Int.le_refl _, by simp only; omega, (h.settled hnone).follows hlength⟩

/-- **Taking one unit keeps the invariant.** -/
theorem Kept.take (h : Kept base grants now) (hadmissible : Admissible base nodeId messageType now)
    (htakes : Takes base (windowKey nodeId messageType) now window)
    (hroom : window.count < (base.limitForType messageType).toNat) :
    Kept (base.put (windowKey nodeId messageType) { window with count := window.count + 1 })
      (grants ++ [⟨nodeId, messageType, window.windowStart, now⟩]) now := by
  obtain ⟨hstart, hopen, hfollows⟩ := h.takes hadmissible.2.2.2 htakes
  have hfind : ∀ other, (base.put (windowKey nodeId messageType)
      { window with count := window.count + 1 }).windows.find? other =
      if windowKey nodeId messageType = other then some { window with count := window.count + 1 }
      else base.windows.find? other := fun other => base.windows.find?_insert _ _ _
  have hkey : Grant.key ⟨nodeId, messageType, window.windowStart, now⟩ = windowKey nodeId messageType :=
    rfl
  refine ⟨fun {other found} hfound => ?_, fun {other found} hfound => ?_, ?_,
    fun {other found} hfound => ?_, fun {other} hfound => ?_, fun other otherType => ?_, ?_⟩
  · rw [hfind] at hfound
    split_ifs at hfound with heq
    · obtain rfl := Option.some.inj hfound
      exact ⟨hstart, Nat.succ_pos _⟩
    · exact h.started hfound
  · rw [hfind] at hfound
    split_ifs at hfound with heq
    · exact ⟨nodeId, messageType, heq.symm, hadmissible.1⟩
    · exact h.keyed hfound
  · intro g hg
    rcases List.mem_append.mp hg with hold | hnew
    · exact h.named g hold
    · obtain rfl := List.mem_singleton.mp hnew
      exact hadmissible.1
  · rw [hfind] at hfound
    rw [ofKey_concat, hkey]
    split_ifs at hfound ⊢ with heq
    · obtain rfl := Option.some.inj hfound
      rw [← heq]
      exact hfollows.grant rfl
    · exact h.follows hfound
  · rw [hfind] at hfound
    rw [ofKey_concat, hkey]
    split_ifs at hfound ⊢ with heq
    exact h.settled hfound
  · rw [ofKey_concat, hkey]
    split_ifs with heq
    · obtain ⟨rfl, rfl⟩ := windowKey_inj heq
      exact hfollows.spaced_concat (h.spaced nodeId messageType) rfl ⟨hstart, hopen⟩ hroom
    · exact h.spaced other otherType
  · rcases htakes with ⟨found, hfound, -⟩ | ⟨hnone, hsize, -⟩
    · exact (base.windows.length_insert_of_find? _ hfound).trans_le h.bound
    · exact (base.windows.length_insert_of_none _ hnone).trans_le hsize

theorem unitOf_refused (nodeId : String) (messageType : NetworkMessageType) (now : Int)
    (after : PeerRateLimiter) : unitOf nodeId messageType now (false, after) = [] := by
  unfold unitOf
  cases after.windows.find? (windowKey nodeId messageType) with
  | none => rfl
  | some window => rfl

theorem unitOf_put (base : PeerRateLimiter) (nodeId : String) (messageType : NetworkMessageType)
    (now : Int) (window : PeerWindow) :
    unitOf nodeId messageType now (true, base.put (windowKey nodeId messageType) window)
      = [⟨nodeId, messageType, window.windowStart, now⟩] := by
  have hfind : (base.put (windowKey nodeId messageType) window).windows.find?
      (windowKey nodeId messageType) = some window := by
    unfold put
    rw [base.windows.find?_insert, if_pos rfl]
  unfold unitOf
  simp only
  rw [hfind]
  rfl

/-- One `shouldAllow` keeps the invariant. -/
theorem Kept.shouldAllow (h : Kept limiter grants clock) (hle : clock ≤ now) (nodeId : String)
    (messageType : NetworkMessageType) :
    Kept (limiter.shouldAllow nodeId messageType now).2
      (grants ++ limiter.granted nodeId messageType now) now := by
  have hbase : ∀ {base}, (base = limiter ∨ base = limiter.pruneExpiredWindows now) →
      Kept base grants now := by
    rintro base (rfl | rfl)
    · exact h.mono hle
    · exact h.prune hle
  rcases limiter.shouldAllow_cases nodeId messageType now with
    ⟨base, heq, hrun⟩ | ⟨base, window, heq, hadmissible, htakes, hroom, hrun⟩
  · rw [granted, hrun, unitOf_refused, List.append_nil]
    exact hbase heq
  · have hconfig : Admissible base nodeId messageType now ∧
        base.limitForType messageType = limiter.limitForType messageType := by
      rcases heq with rfl | rfl
      · exact ⟨hadmissible, rfl⟩
      · exact ⟨hadmissible, rfl⟩
    rw [granted, hrun, unitOf_put]
    exact (hbase heq).take hconfig.1 htakes (by rw [hconfig.2]; exact hroom)

/-- **One call keeps the invariant.** -/
theorem Kept.perform (h : Kept limiter grants clock) (call : Call) (hle : clock ≤ call.now) :
    Kept (limiter.perform call).2 (grants ++ (limiter.perform call).1.units) call.now := by
  cases call with
  | shouldAllow nodeId messageType now => exact h.shouldAllow hle nodeId messageType
  | recordInvalidMessage nodeId messageType now =>
    have hfirst := h.shouldAllow hle nodeId messageType
    have hsecond := hfirst.shouldAllow (Int.le_refl _) nodeId messageType
    rw [List.append_assoc] at hsecond
    exact hsecond

end PeerRateLimiter

--
-- Windows that are over
--

namespace PeerRateLimiter

variable {limiter limiter' : PeerRateLimiter} {grants grants' : List Grant} {clock now : Int}
  {nodeId key : String} {messageType : NetworkMessageType} {window : PeerWindow}

theorem Kept.find?_prune (h : Kept limiter grants clock) (hle : clock ≤ now) (key : String) :
    (limiter.pruneExpiredWindows now).windows.find? key =
      (limiter.windows.find? key).filter (fun window => now < window.windowStart + limiter.length) := by
  ext window
  rw [h.prune_find? hle, Option.filter_eq_some_iff, decide_eq_true_eq]

/-- A prune after a prune. -/
theorem Kept.prune_prune (h : Kept limiter grants clock) (hle : clock ≤ now) {later : Int}
    (hlater : now ≤ later) :
    (limiter.pruneExpiredWindows now).pruneExpiredWindows later = limiter.pruneExpiredWindows later := by
  have heq : ((limiter.pruneExpiredWindows now).pruneExpiredWindows later).windows
      = (limiter.pruneExpiredWindows later).windows := by
    refine SortedMap.eq_of_find? (fun key => Option.ext (fun window => ?_))
    rw [(h.prune hle).prune_find? hlater, h.prune_find? hle, h.prune_find? (Int.le_trans hle hlater),
      and_assoc]
    refine and_congr_right (fun _ => and_iff_right_of_imp (fun hopen => ?_))
    exact Int.lt_of_le_of_lt hlater hopen
  calc (limiter.pruneExpiredWindows now).pruneExpiredWindows later
      = { limiter with
          windows := ((limiter.pruneExpiredWindows now).pruneExpiredWindows later).windows } := rfl
    _ = limiter.pruneExpiredWindows later := by rw [heq]; rfl

/-- A prune after a write of an open window. -/
theorem prune_put (hopen : (limiter.advanceWindowIfExpired window now).count ≠ 0) :
    (limiter.put key window).pruneExpiredWindows now = (limiter.pruneExpiredWindows now).put key window := by
  have hwindows := @SortedMap.filter_insert _ _ _ limiter.windows
    (fun _ window => (limiter.advanceWindowIfExpired window now).count != 0) key window
    (bne_iff_ne.mpr hopen)
  unfold put pruneExpiredWindows
  simp only
  exact congrArg (fun windows => { limiter with windows := windows }) hwindows

/-- A window with a unit just counted stays through a prune. -/
theorem prune_put_taken (hle : window.windowStart ≤ now) (hopen : now < window.windowStart + limiter.length) :
    (limiter.put key { window with count := window.count + 1 }).pruneExpiredWindows now =
      (limiter.pruneExpiredWindows now).put key { window with count := window.count + 1 } := by
  have hsame : limiter.advanceWindowIfExpired { window with count := window.count + 1 } now
      = { window with count := window.count + 1 } := advance_of_open hle hopen
  refine prune_put ?_
  rw [hsame]
  exact Nat.succ_ne_zero _

/-- The two answers to one call agree, and so do the limiters but for windows that are over. -/
def Alike (now : Int) (answer answer' : Bool × PeerRateLimiter) : Prop :=
  answer.1 = answer'.1 ∧ answer.2.pruneExpiredWindows now = answer'.2.pruneExpiredWindows now

theorem Alike.symm {answer answer' : Bool × PeerRateLimiter} (h : Alike now answer answer') :
    Alike now answer' answer := ⟨h.1.symm, h.2.symm⟩

theorem Alike.trans {answer answer' answer'' : Bool × PeerRateLimiter} (h : Alike now answer answer')
    (h' : Alike now answer' answer'') : Alike now answer answer'' :=
  ⟨h.1.trans h'.1, h.2.trans h'.2⟩

/-- Taking a unit from one window, whatever else is over. -/
theorem Kept.takeFrom_alike (h : Kept limiter grants now) {found found' : PeerWindow} {limit : UInt32}
    (hwindow : limiter.advanceWindowIfExpired found now = window)
    (hwindow' : limiter.advanceWindowIfExpired found' now = window)
    (hle : window.windowStart ≤ now) (hopen : now < window.windowStart + limiter.length)
    (hfull : limit.toNat ≤ window.count → window.count ≠ 0) :
    Alike now (limiter.takeFrom key found limit now)
      ((limiter.pruneExpiredWindows now).takeFrom key found' limit now) := by
  have hpruned : (limiter.pruneExpiredWindows now).advanceWindowIfExpired found' now = window := hwindow'
  have hagain := h.prune_prune (Int.le_refl _) (Int.le_refl now)
  have hput : ∀ count : Nat, count ≠ 0 →
      (limiter.put key { window with count := count }).pruneExpiredWindows now =
        ((limiter.pruneExpiredWindows now).put key { window with count := count }).pruneExpiredWindows
          now := by
    intro count hcount
    have hsame : limiter.advanceWindowIfExpired { window with count := count } now
        = { window with count := count } := advance_of_open hle hopen
    have hkept : (limiter.advanceWindowIfExpired { window with count := count } now).count ≠ 0 := by
      rw [hsame]
      exact hcount
    have hkept' : ((limiter.pruneExpiredWindows now).advanceWindowIfExpired
        { window with count := count } now).count ≠ 0 := hkept
    rw [prune_put hkept, prune_put hkept', hagain]
  unfold takeFrom
  simp only
  rw [hwindow, hpruned]
  by_cases hroom : limit.toNat ≤ window.count
  · rw [if_pos hroom, if_pos hroom]
    exact ⟨rfl, hput window.count (hfull hroom)⟩
  · rw [if_neg hroom, if_neg hroom]
    exact ⟨rfl, hput (window.count + 1) (Nat.succ_ne_zero _)⟩

/-- **Windows that are over change no answer.** -/
theorem Kept.shouldAllow_pruned (h : Kept limiter grants clock) (hle : clock ≤ now) (nodeId : String)
    (messageType : NetworkMessageType) :
    Alike now (limiter.shouldAllow nodeId messageType now)
      ((limiter.pruneExpiredWindows now).shouldAllow nodeId messageType now) := by
  have hnow := h.mono hle
  have hagain := hnow.prune_prune (Int.le_refl _) (Int.le_refl now)
  unfold PeerRateLimiter.shouldAllow
  simp only
  by_cases hrefused : (nodeId.isEmpty || 128 < nodeId.length || now ≤ 0
      || limiter.limitForType messageType == 0 || limiter.windowSeconds == 0) = true
  · rw [if_pos hrefused, if_pos (show (_ || (limiter.pruneExpiredWindows now).limitForType messageType
      == 0 || (limiter.pruneExpiredWindows now).windowSeconds == 0) = true from hrefused)]
    exact ⟨rfl, hagain.symm⟩
  rw [if_neg hrefused, if_neg (show ¬ (_ || (limiter.pruneExpiredWindows now).limitForType messageType
      == 0 || (limiter.pruneExpiredWindows now).windowSeconds == 0) = true from hrefused)]
  simp only [Bool.or_eq_true, decide_eq_true_eq, not_or, Bool.not_eq_true, Int.not_le] at hrefused
  obtain ⟨⟨-, hlimit⟩, hseconds⟩ := hrefused
  have hlength := length_pos hseconds
  have hpositive : 0 < (limiter.limitForType messageType).toNat := by
    refine Nat.pos_of_ne_zero (fun heq => ?_)
    rw [UInt32.toNat_inj.mp (heq.trans UInt32.toNat_zero.symm)] at hlimit
    cases hlimit
  -- A call that opens a window, or restarts one that is over.
  have hnew : ∀ found, limiter.advanceWindowIfExpired found now = ⟨now, 0⟩ →
      Alike now (limiter.takeFrom (windowKey nodeId messageType) found
          (limiter.limitForType messageType) now)
        ((limiter.pruneExpiredWindows now).takeFrom (windowKey nodeId messageType) ⟨now, 0⟩
          (limiter.limitForType messageType) now) := by
    intro found hfound
    refine hnow.takeFrom_alike hfound (advance_new hlength) (Int.le_refl _) (by simp only; omega) ?_
    exact fun hfull => absurd hfull (Nat.not_le.mpr hpositive)
  rw [hnow.find?_prune (Int.le_refl _)]
  cases hfind : limiter.windows.find? (windowKey nodeId messageType) with
  | some found =>
    obtain ⟨hstart, hcount⟩ := hnow.started hfind
    rcases Int.lt_or_le now (found.windowStart + limiter.length) with hopen | hover
    · rw [Option.filter_some, if_pos (decide_eq_true hopen)]
      have hsame := advance_of_open hstart hopen
      exact hnow.takeFrom_alike hsame hsame hstart hopen (fun _ => Nat.ne_of_gt hcount)
    · have hclosed : decide (now < found.windowStart + limiter.length) = false :=
        decide_eq_false (Int.not_lt.mpr hover)
      rw [Option.filter_some, hclosed]
      -- The prune makes room: the window that is over is taken out.
      have hroom : (limiter.pruneExpiredWindows now).size < maxTrackedRateLimitPeers := by
        have hadvance := advance_of_over hstart hover
        refine Nat.lt_of_lt_of_le (limiter.windows.length_filter_lt _ hfind ?_) h.bound
        rw [hadvance]
        rfl
      simp only [Bool.false_eq_true, if_false]
      rw [if_neg (Nat.not_le.mpr hroom)]
      exact hnew found (advance_of_over hstart hover)
  | none =>
    simp only [Option.filter_none]
    by_cases hfull : maxTrackedRateLimitPeers ≤ limiter.size
    · rw [if_pos hfull, hagain]
      by_cases hstill : maxTrackedRateLimitPeers ≤ (limiter.pruneExpiredWindows now).size
      · rw [if_pos hstill, if_pos hstill, if_pos hstill]
        exact ⟨rfl, rfl⟩
      · rw [if_neg hstill, if_neg hstill]
        exact ⟨rfl, rfl⟩
    · have hroom := Nat.lt_of_le_of_lt (limiter.size_prune_le now) (Nat.not_le.mp hfull)
      rw [if_neg hfull, if_neg (Nat.not_le.mpr hroom)]
      exact hnew ⟨now, 0⟩ (advance_new hlength)

end PeerRateLimiter

--
-- Peers apart
--

namespace PeerRateLimiter

variable {limiter alone : PeerRateLimiter} {now : Int} {nodeId peer key : String}
  {messageType : NetworkMessageType}

/-- A call on this key finds a window, or room for one. -/
def Roomy (limiter : PeerRateLimiter) (key : String) : Prop :=
  limiter.windows.find? key = none → limiter.size < maxTrackedRateLimitPeers

/-- With room, a call touches its own window only. -/
theorem shouldAllow_of_room (h : limiter.Roomy (windowKey nodeId messageType)) :
    limiter.shouldAllow nodeId messageType now =
      if nodeId.isEmpty || 128 < nodeId.length || now ≤ 0 || limiter.limitForType messageType == 0
        || limiter.windowSeconds == 0 then (false, limiter)
      else limiter.takeFrom (windowKey nodeId messageType)
        ((limiter.windows.find? (windowKey nodeId messageType)).getD ⟨now, 0⟩)
        (limiter.limitForType messageType) now := by
  unfold shouldAllow
  simp only
  cases hfind : limiter.windows.find? (windowKey nodeId messageType) with
  | some window => rfl
  | none =>
    simp only [Option.getD_none]
    rw [if_neg (Nat.not_le.mpr (h hfind))]

/-- The windows of a taking: one is written. -/
theorem takeFrom_put (limiter : PeerRateLimiter) (key : String) (found : PeerWindow)
    (limit : UInt32) (now : Int) :
    ∃ window, (limiter.takeFrom key found limit now).2 = limiter.put key window := by
  unfold takeFrom
  simp only
  split
  · exact ⟨_, rfl⟩
  · exact ⟨_, rfl⟩

theorem Roomy.shouldAllow (h : limiter.Roomy (windowKey nodeId messageType)) :
    (limiter.shouldAllow nodeId messageType now).2.Roomy (windowKey nodeId messageType) := by
  rw [shouldAllow_of_room h]
  split
  · exact h
  · obtain ⟨window, hput⟩ := limiter.takeFrom_put (windowKey nodeId messageType)
      ((limiter.windows.find? (windowKey nodeId messageType)).getD ⟨now, 0⟩)
      (limiter.limitForType messageType) now
    rw [hput]
    intro hnone
    unfold put at hnone
    rw [limiter.windows.find?_insert, if_pos rfl] at hnone
    cases hnone

/-- A limiter of which one peer cannot tell that others sent to it. -/
structure Secludes (peer : String) (limiter alone : PeerRateLimiter) : Prop where
  limits : ∀ messageType, alone.limitForType messageType = limiter.limitForType messageType
  seconds : alone.windowSeconds = limiter.windowSeconds
  windows : ∀ messageType, alone.windows.find? (windowKey peer messageType) =
    limiter.windows.find? (windowKey peer messageType)
  smaller : alone.size ≤ limiter.size

theorem Secludes.roomy (h : Secludes peer limiter alone)
    (hroom : limiter.Roomy (windowKey peer messageType)) :
    alone.Roomy (windowKey peer messageType) := by
  intro hnone
  rw [h.windows] at hnone
  exact Nat.lt_of_le_of_lt h.smaller (hroom hnone)

theorem size_le_put (limiter : PeerRateLimiter) (key : String) (window : PeerWindow) :
    limiter.size ≤ (limiter.put key window).size := by
  cases hfind : limiter.windows.find? key with
  | some found => exact Nat.le_of_eq (limiter.windows.length_insert_of_find? window hfind).symm
  | none =>
    exact Nat.le_of_lt (Nat.lt_of_lt_of_eq (Nat.lt_succ_self _)
      (limiter.windows.length_insert_of_none window hfind).symm)

/-- A call of another peer. -/
theorem Secludes.other (h : Secludes peer limiter alone) (hne : nodeId ≠ peer)
    (hroom : limiter.Roomy (windowKey nodeId messageType)) :
    Secludes peer (limiter.shouldAllow nodeId messageType now).2 alone := by
  rw [shouldAllow_of_room hroom]
  split
  · exact h
  · obtain ⟨window, hput⟩ := limiter.takeFrom_put (windowKey nodeId messageType)
      ((limiter.windows.find? (windowKey nodeId messageType)).getD ⟨now, 0⟩)
      (limiter.limitForType messageType) now
    rw [hput]
    refine ⟨h.limits, h.seconds, fun other => ?_, Nat.le_trans h.smaller (limiter.size_le_put _ _)⟩
    have hkey : windowKey nodeId messageType ≠ windowKey peer other :=
      fun heq => hne (windowKey_inj heq).1
    unfold put
    rw [limiter.windows.find?_insert_of_ne _ hkey]
    exact h.windows other

/-- The same write on both sides. -/
theorem Secludes.put (h : Secludes peer limiter alone) (messageType : NetworkMessageType)
    (window : PeerWindow) :
    Secludes peer (limiter.put (windowKey peer messageType) window)
      (alone.put (windowKey peer messageType) window) := by
  refine ⟨h.limits, h.seconds, fun other => ?_, ?_⟩
  · unfold PeerRateLimiter.put
    rw [limiter.windows.find?_insert, alone.windows.find?_insert, h.windows]
  · have hsmaller := h.smaller
    have hsame := h.windows messageType
    unfold size PeerRateLimiter.put at *
    cases hfind : limiter.windows.find? (windowKey peer messageType) with
    | some found =>
      rw [hfind] at hsame
      rw [limiter.windows.length_insert_of_find? _ hfind, alone.windows.length_insert_of_find? _ hsame]
      exact hsmaller
    | none =>
      rw [hfind] at hsame
      rw [limiter.windows.length_insert_of_none _ hfind, alone.windows.length_insert_of_none _ hsame]
      exact Nat.succ_le_succ hsmaller

/-- A call of the peer itself: the same answer and unit on both sides. -/
theorem Secludes.own (h : Secludes peer limiter alone) (now : Int)
    (hroom : limiter.Roomy (windowKey peer messageType)) :
    (alone.shouldAllow peer messageType now).1 = (limiter.shouldAllow peer messageType now).1 ∧
      alone.granted peer messageType now = limiter.granted peer messageType now ∧
      Secludes peer (limiter.shouldAllow peer messageType now).2
        (alone.shouldAllow peer messageType now).2 := by
  have hlimit := h.limits messageType
  have hadvance : ∀ window, alone.advanceWindowIfExpired window now
      = limiter.advanceWindowIfExpired window now := by
    intro window
    unfold advanceWindowIfExpired
    rw [h.seconds]
  unfold granted
  rw [shouldAllow_of_room hroom, shouldAllow_of_room (h.roomy hroom), hlimit, h.seconds, h.windows]
  split
  · refine ⟨rfl, ?_, h⟩
    rw [unitOf_refused, unitOf_refused]
  unfold takeFrom
  simp only
  rw [hadvance]
  split
  · refine ⟨rfl, ?_, h.put messageType _⟩
    rw [unitOf_refused, unitOf_refused]
  · refine ⟨rfl, ?_, h.put messageType _⟩
    rw [unitOf_put, unitOf_put]

/-- One call of another peer changes nothing for this one. -/
theorem Secludes.perform_other (h : Secludes peer limiter alone) {call : Call}
    (hne : call.nodeId ≠ peer) (hsize : limiter.size < maxTrackedRateLimitPeers) :
    Secludes peer (limiter.perform call).2 alone := by
  cases call with
  | shouldAllow nodeId messageType now => exact h.other hne (fun _ => hsize)
  | recordInvalidMessage nodeId messageType now =>
    have hroom : limiter.Roomy (windowKey nodeId messageType) := fun _ => hsize
    exact (h.other hne hroom).other hne hroom.shouldAllow

/-- One call of the peer is answered the same. -/
theorem Secludes.perform_own (h : Secludes peer limiter alone) {call : Call}
    (hown : call.nodeId = peer) (hsize : limiter.size < maxTrackedRateLimitPeers) :
    (alone.perform call).1 = (limiter.perform call).1 ∧
      Secludes peer (limiter.perform call).2 (alone.perform call).2 := by
  subst hown
  cases call with
  | shouldAllow nodeId messageType now =>
    have hroom : limiter.Roomy (windowKey nodeId messageType) := fun _ => hsize
    obtain ⟨hallowed, hunits, hafter⟩ := h.own now hroom
    simp only [Call.nodeId] at hallowed hunits hafter ⊢
    simp only [perform]
    rw [hallowed, hunits]
    exact ⟨rfl, hafter⟩
  | recordInvalidMessage nodeId messageType now =>
    have hroom : limiter.Roomy (windowKey nodeId messageType) := fun _ => hsize
    obtain ⟨hfirst, hunits, hbetween⟩ := h.own now hroom
    obtain ⟨hsecond, hunits', hafter⟩ := hbetween.own now hroom.shouldAllow
    simp only [Call.nodeId] at hfirst hunits hbetween hsecond hunits' hafter ⊢
    simp only [perform, recordInvalidMessage]
    rw [hfirst, hunits, hsecond, hunits']
    exact ⟨rfl, hafter⟩

/-- **A peer's answers do not depend on other peers**, while there is room for windows. -/
theorem Secludes.run (h : Secludes peer limiter alone) (calls : List Call)
    (hroom : ∀ state ∈ limiter.before calls, state.size < maxTrackedRateLimitPeers) :
    (limiter.run calls).1.filter (fun answer => answer.call.nodeId == peer) =
      (alone.run (calls.filter (fun call => call.nodeId == peer))).1 := by
  have hcall : ∀ (limiter : PeerRateLimiter) (call : Call), (limiter.perform call).1.call = call := by
    intro limiter call
    cases call <;> rfl
  induction calls generalizing limiter alone with
  | nil => rfl
  | cons call calls ih =>
    have hsize := hroom limiter List.mem_cons_self
    have hrest : ∀ state ∈ (limiter.perform call).2.before calls,
        state.size < maxTrackedRateLimitPeers :=
      fun state hstate => hroom state (List.mem_cons_of_mem _ hstate)
    simp only [PeerRateLimiter.run]
    by_cases hown : call.nodeId = peer
    · obtain ⟨hanswer, hafter⟩ := h.perform_own hown hsize
      have hfilter : (call :: calls).filter (fun call => call.nodeId == peer)
          = call :: calls.filter (fun call => call.nodeId == peer) :=
        List.filter_cons_of_pos (beq_iff_eq.mpr hown)
      rw [List.filter_cons_of_pos (by rw [hcall]; exact beq_iff_eq.mpr hown), hfilter]
      simp only [PeerRateLimiter.run]
      rw [ih hafter hrest, hanswer]
    · have hfilter : (call :: calls).filter (fun call => call.nodeId == peer)
          = calls.filter (fun call => call.nodeId == peer) :=
        List.filter_cons_of_neg (by rw [beq_iff_eq]; exact hown)
      rw [List.filter_cons_of_neg (by rw [hcall, beq_iff_eq]; exact hown), hfilter]
      exact ih (h.perform_other hown hsize) hrest

end PeerRateLimiter

--
-- Runs
--

namespace PeerRateLimiter

variable {limiter limiter' : PeerRateLimiter} {taken taken' : List Grant} {clock now : Int}
  {nodeId peer key : String} {messageType : NetworkMessageType} {window : PeerWindow}

/-- The times of a run go forward, from `clock` on. -/
def Forward (clock : Int) (calls : List Call) : Prop :=
  (∀ call ∈ calls, clock ≤ call.now) ∧ calls.Pairwise (fun call call' => call.now ≤ call'.now)

theorem Forward.tail {call : Call} {calls : List Call} (h : Forward clock (call :: calls)) :
    clock ≤ call.now ∧ Forward call.now calls :=
  ⟨h.1 call List.mem_cons_self, (List.pairwise_cons.mp h.2).1, (List.pairwise_cons.mp h.2).2⟩

/-- The time of the last call. -/
def lastTime (clock : Int) (calls : List Call) : Int :=
  calls.foldl (fun _ call => call.now) clock

theorem grants_cons (answer : Answer) (answers : List Answer) :
    grants (answer :: answers) = answer.units ++ grants answers := rfl

/-- **The invariant along a run.** -/
theorem Kept.run (h : Kept limiter taken clock) (calls : List Call) (hforward : Forward clock calls) :
    Kept (limiter.run calls).2 (taken ++ grants (limiter.run calls).1) (lastTime clock calls) := by
  induction calls generalizing limiter taken clock with
  | nil => rwa [show grants (limiter.run []).1 = [] from rfl, List.append_nil]
  | cons call calls ih =>
    obtain ⟨hle, hrest⟩ := hforward.tail
    have hstep := ih (h.perform call hle) hrest
    rw [List.append_assoc, ← grants_cons] at hstep
    exact hstep

theorem length_run (limiter : PeerRateLimiter) (calls : List Call) :
    (limiter.run calls).2.length = limiter.length ∧
      ∀ messageType, (limiter.run calls).2.limitForType messageType = limiter.limitForType messageType := by
  have hallow : ∀ (limiter : PeerRateLimiter) nodeId messageType now,
      (limiter.shouldAllow nodeId messageType now).2.windowSeconds = limiter.windowSeconds ∧
      ∀ other, (limiter.shouldAllow nodeId messageType now).2.limitForType other
        = limiter.limitForType other := by
    intro limiter nodeId messageType now
    rcases limiter.shouldAllow_cases nodeId messageType now with
      ⟨base, hbase, hrun⟩ | ⟨base, window, hbase, -, -, -, hrun⟩
    · rw [hrun]
      rcases hbase with rfl | rfl
      · exact ⟨rfl, fun _ => rfl⟩
      · exact ⟨rfl, fun _ => rfl⟩
    · rw [hrun]
      rcases hbase with rfl | rfl
      · exact ⟨rfl, fun _ => rfl⟩
      · exact ⟨rfl, fun _ => rfl⟩
  have hperform : ∀ (limiter : PeerRateLimiter) (call : Call),
      (limiter.perform call).2.windowSeconds = limiter.windowSeconds ∧
      ∀ other, (limiter.perform call).2.limitForType other = limiter.limitForType other := by
    intro limiter call
    cases call with
    | shouldAllow nodeId messageType now => exact hallow limiter nodeId messageType now
    | recordInvalidMessage nodeId messageType now =>
      obtain ⟨hseconds, hlimits⟩ := hallow limiter nodeId messageType now
      obtain ⟨hseconds', hlimits'⟩ :=
        hallow (limiter.shouldAllow nodeId messageType now).2 nodeId messageType now
      exact ⟨hseconds'.trans hseconds, fun other => (hlimits' other).trans (hlimits other)⟩
  unfold length
  induction calls generalizing limiter with
  | nil => exact ⟨rfl, fun _ => rfl⟩
  | cons call calls ih =>
    obtain ⟨hseconds, hlimits⟩ := hperform limiter call
    obtain ⟨hseconds', hlimits'⟩ := ih (limiter.perform call).2
    rw [hseconds] at hseconds'
    exact ⟨hseconds', fun other => (hlimits' other).trans (hlimits other)⟩

--
-- Runs from limiters that differ in windows that are over
--

theorem Kept.shouldAllow_alike (h : Kept limiter taken clock) (h' : Kept limiter' taken' clock)
    (heq : limiter.pruneExpiredWindows clock = limiter'.pruneExpiredWindows clock) (hle : clock ≤ now)
    (nodeId : String) (messageType : NetworkMessageType) :
    Alike now (limiter.shouldAllow nodeId messageType now) (limiter'.shouldAllow nodeId messageType now) := by
  have hnow : limiter.pruneExpiredWindows now = limiter'.pruneExpiredWindows now := by
    rw [← h.prune_prune (Int.le_refl _) hle, heq, h'.prune_prune (Int.le_refl _) hle]
  have hleft := h.shouldAllow_pruned hle nodeId messageType
  rw [hnow] at hleft
  exact hleft.trans (h'.shouldAllow_pruned hle nodeId messageType).symm

/-- The unit of a call is read from the open windows. -/
theorem Kept.granted_pruned (h : Kept limiter taken clock) (hle : clock ≤ now) (nodeId : String)
    (messageType : NetworkMessageType) :
    limiter.granted nodeId messageType now = unitOf nodeId messageType now
      ((limiter.shouldAllow nodeId messageType now).1,
        (limiter.shouldAllow nodeId messageType now).2.pruneExpiredWindows now) := by
  unfold granted
  rcases limiter.shouldAllow_cases nodeId messageType now with
    ⟨base, -, hrun⟩ | ⟨base, window, hbase, hadmissible, htakes, -, hrun⟩
  · rw [hrun, unitOf_refused, unitOf_refused]
  · have hkept : Kept base taken now ∧ base.length = limiter.length := by
      rcases hbase with rfl | rfl
      · exact ⟨h.mono hle, rfl⟩
      · exact ⟨h.prune hle, rfl⟩
    obtain ⟨hstart, hopen, -⟩ :=
      hkept.1.takes (by rw [hkept.2]; exact hadmissible.2.2.2) htakes
    rw [hrun]
    simp only
    rw [prune_put_taken hstart hopen, unitOf_put, unitOf_put]

theorem Kept.perform_alike (h : Kept limiter taken clock) (h' : Kept limiter' taken' clock)
    (heq : limiter.pruneExpiredWindows clock = limiter'.pruneExpiredWindows clock) (call : Call)
    (hle : clock ≤ call.now) :
    (limiter.perform call).1 = (limiter'.perform call).1 ∧
      (limiter.perform call).2.pruneExpiredWindows call.now =
        (limiter'.perform call).2.pruneExpiredWindows call.now := by
  have hone : ∀ {limiter limiter' : PeerRateLimiter} {taken taken' : List Grant} {clock now : Int},
      Kept limiter taken clock → Kept limiter' taken' clock →
      limiter.pruneExpiredWindows clock = limiter'.pruneExpiredWindows clock → clock ≤ now →
      ∀ nodeId messageType,
        limiter.granted nodeId messageType now = limiter'.granted nodeId messageType now := by
    intro limiter limiter' taken taken' clock now h h' heq hle nodeId messageType
    have halike := h.shouldAllow_alike h' heq hle nodeId messageType
    rw [h.granted_pruned hle, h'.granted_pruned hle, halike.1, halike.2]
  cases call with
  | shouldAllow nodeId messageType now =>
    have hle : clock ≤ now := hle
    have halike := h.shouldAllow_alike h' heq hle nodeId messageType
    simp only [PeerRateLimiter.perform, Call.now]
    rw [halike.1, hone h h' heq hle]
    exact ⟨rfl, halike.2⟩
  | recordInvalidMessage nodeId messageType now =>
    have hle : clock ≤ now := hle
    have hfirst := h.shouldAllow_alike h' heq hle nodeId messageType
    have hbetween := h.shouldAllow hle nodeId messageType
    have hbetween' := h'.shouldAllow hle nodeId messageType
    have hsecond := hbetween.shouldAllow_alike hbetween' hfirst.2 (Int.le_refl _) nodeId messageType
    simp only [PeerRateLimiter.perform, recordInvalidMessage, Call.now]
    rw [hfirst.1, hsecond.1, hone h h' heq hle,
      hone hbetween hbetween' hfirst.2 (Int.le_refl _)]
    exact ⟨rfl, hsecond.2⟩

/-- **Runs from limiters that differ in windows that are over give the same answers.** -/
theorem Kept.run_alike (h : Kept limiter taken clock) (h' : Kept limiter' taken' clock)
    (heq : limiter.pruneExpiredWindows clock = limiter'.pruneExpiredWindows clock) (calls : List Call)
    (hforward : Forward clock calls) :
    (limiter.run calls).1 = (limiter'.run calls).1 ∧
      (limiter.run calls).2.pruneExpiredWindows (lastTime clock calls) =
        (limiter'.run calls).2.pruneExpiredWindows (lastTime clock calls) := by
  induction calls generalizing limiter limiter' taken taken' clock with
  | nil => exact ⟨rfl, heq⟩
  | cons call calls ih =>
    obtain ⟨hle, hrest⟩ := hforward.tail
    obtain ⟨hanswer, hafter⟩ := h.perform_alike h' heq call hle
    obtain ⟨hanswers, hend⟩ := ih (h.perform call hle) (h'.perform call hle) hafter hrest
    refine ⟨?_, hend⟩
    simp only [PeerRateLimiter.run]
    rw [hanswer, hanswers]

end PeerRateLimiter

--
-- What is counted
--

namespace PeerRateLimiter

variable {limiter : PeerRateLimiter} {taken : List Grant} {clock now : Int}
  {nodeId peer key : String} {messageType : NetworkMessageType} {window : PeerWindow}

/-- The units in windows that are open at `now`, of the node ids that `p` accepts. -/
def openUnits (limiter : PeerRateLimiter) (taken : List Grant) (p : String → Bool) (now : Int) : Nat :=
  FixedWindow.alive Grant.windowStart limiter.length (taken.filter (fun g => p g.nodeId)) now

/-- The node id begins with `peer|`. -/
def beginsWith (peer nodeId : String) : Bool := (peer ++ "|").toList.isPrefixOf nodeId.toList

theorem beginsWith_self (peer : String) : beginsWith peer peer = false := by
  rw [Bool.eq_false_iff]
  intro h
  have hlength := (List.isPrefixOf_iff_prefix.mp h).length_le
  have hbar : "|".toList = ['|'] := Text.toList_of_eq_ofList rfl
  rw [String.toList_append, hbar, List.length_append, List.length_singleton] at hlength
  omega

theorem prefix_windowKey (peer nodeId : String) (messageType : NetworkMessageType) :
    (peer ++ "|").toList.isPrefixOf (windowKey nodeId messageType).toList =
      (nodeId == peer || beginsWith peer nodeId) := by
  rw [Bool.eq_iff_iff, List.isPrefixOf_iff_prefix, prefix_windowKey_iff, Covers, Bool.or_eq_true,
    beq_iff_eq, beginsWith, List.isPrefixOf_iff_prefix]

/-- The units of one key in open windows are what its window counts. -/
theorem Kept.alive_ofKey (h : Kept limiter taken clock) (hle : clock ≤ now)
    (hfind : limiter.windows.find? key = some window) :
    FixedWindow.alive Grant.windowStart limiter.length (ofKey taken key) now =
      (limiter.advanceWindowIfExpired window now).count := by
  have hstart := Int.le_trans (h.started hfind).1 hle
  rcases Int.lt_or_le now (window.windowStart + limiter.length) with hopen | hover
  · rw [advance_of_open hstart hopen, (h.follows hfind).alive_eq hstart hopen]
  · rw [advance_of_over hstart hover,
      ((h.follows hfind).settled limiter.length_nonneg hover).alive_eq]

/-- An open unit has a window. -/
theorem Kept.find?_of_open (h : Kept limiter taken clock) (hle : clock ≤ now) {g : Grant}
    (hg : g ∈ taken) (hopen : now < g.windowStart + limiter.length) :
    ∃ window, limiter.windows.find? g.key = some window := by
  cases hfind : limiter.windows.find? g.key with
  | some window => exact ⟨window, rfl⟩
  | none =>
    have hmem : g ∈ ofKey taken g.key := List.mem_filter.mpr ⟨hg, beq_self_eq_true _⟩
    have hover := ((h.settled hfind).mono hle) g hmem
    omega

/-- **The sum that `messageCount` takes**: the open units of the peer and of the node ids that
begin with `peer|`. -/
theorem Kept.sum_counts (h : Kept limiter taken clock) (hle : clock ≤ now) (peer : String) :
    ((limiter.windows.entries.filter
      (fun entry => (peer ++ "|").toList.isPrefixOf entry.1.toList)).map
      (fun entry => (limiter.advanceWindowIfExpired entry.2 now).count)).sum =
    limiter.openUnits taken (· == peer) now + limiter.openUnits taken (beginsWith peer) now := by
  set found := limiter.windows.entries.filter
    (fun entry => (peer ++ "|").toList.isPrefixOf entry.1.toList) with hfound
  set covered := taken.filter (fun g => g.nodeId == peer || beginsWith peer g.nodeId) with hcovered
  have hsplit : FixedWindow.alive Grant.windowStart limiter.length covered now =
      limiter.openUnits taken (· == peer) now + limiter.openUnits taken (beginsWith peer) now := by
    unfold openUnits FixedWindow.alive
    rw [List.countP_eq_countP_filter_add covered _ (fun g => g.nodeId == peer), hcovered,
      List.filter_filter, List.filter_filter]
    refine congrArg₂ _ (congrArg _ (List.filter_congr (fun g _ => ?_)))
      (congrArg _ (List.filter_congr (fun g _ => ?_)))
    · show (g.nodeId == peer && (g.nodeId == peer || beginsWith peer g.nodeId)) = (g.nodeId == peer)
      cases g.nodeId == peer with
      | false => rfl
      | true => rfl
    · by_cases hown : g.nodeId = peer
      · rw [hown, beginsWith_self, beq_self_eq_true]
        rfl
      · rw [beq_false_of_ne hown, Bool.not_false, Bool.true_and, Bool.false_or]
  have hnodup : (found.map Prod.fst).Nodup :=
    limiter.windows.keys_nodup.sublist (List.filter_sublist.map _)
  have hkeys : ∀ g ∈ covered, now < g.windowStart + limiter.length → g.key ∈ found.map Prod.fst := by
    intro g hg hopen
    rw [hcovered, List.mem_filter] at hg
    obtain ⟨window, hfind⟩ := h.find?_of_open hle hg.1 hopen
    refine List.mem_map.mpr ⟨(g.key, window), List.mem_filter.mpr
      ⟨limiter.windows.find?_eq_some_iff.mp hfind, ?_⟩, rfl⟩
    rw [Grant.key, prefix_windowKey]
    exact hg.2
  rw [← hsplit, FixedWindow.alive_eq_sum Grant.key hnodup hkeys, List.map_map]
  refine congrArg List.sum (List.map_congr_left (fun entry hentry => ?_))
  obtain ⟨hin, hstarts⟩ := List.mem_filter.mp hentry
  have hfind : limiter.windows.find? entry.1 = some entry.2 := limiter.windows.find?_eq_some_iff.mpr hin
  have hofKey : covered.filter (fun g => g.key == entry.1) = ofKey taken entry.1 := by
    rw [hcovered, List.filter_filter, ofKey]
    refine List.filter_congr (fun g _ => ?_)
    by_cases hkey : g.key = entry.1
    · rw [← hkey, Grant.key, prefix_windowKey] at hstarts
      rw [hstarts, Bool.and_true]
    · rw [beq_false_of_ne hkey, Bool.false_and]
  simp only [Function.comp_apply]
  rw [hofKey, h.alive_ofKey hle hfind]

/-- A limiter without window length has taken nothing. -/
theorem Kept.taken_nil (h : Kept limiter taken clock) (hlength : limiter.windowSeconds = 0) :
    taken = [] := by
  have hzero : limiter.length = 0 := by
    unfold length
    rw [hlength]
    rfl
  refine List.eq_nil_iff_forall_not_mem.mpr (fun g hg => ?_)
  have hin : g ∈ ofKey taken g.key := List.mem_filter.mpr ⟨hg, beq_self_eq_true _⟩
  have hwithin := (h.spaced g.nodeId g.messageType).within g hin
  rw [hzero] at hwithin
  omega

theorem openUnits_nil (limiter : PeerRateLimiter) (p : String → Bool) (now : Int) :
    limiter.openUnits [] p now = 0 := rfl

/-- No unit is taken without a node id. -/
theorem Kept.openUnits_empty (h : Kept limiter taken clock) (hpeer : peer.isEmpty = true) (now : Int) :
    limiter.openUnits taken (· == peer) now = 0 := by
  unfold openUnits
  have hnone : taken.filter (fun g => g.nodeId == peer) = [] := by
    rw [List.filter_eq_nil_iff]
    intro g hg heq
    rw [beq_iff_eq] at heq
    have hnamed := h.named g hg
    rw [heq, hpeer] at hnamed
    cases hnamed
  rw [hnone]
  rfl

/-- What `messageCount` answers. -/
theorem Kept.messageCount_eq (h : Kept limiter taken clock) (hle : clock ≤ now) (hnow : 0 < now)
    (hpeer : peer.isEmpty = false) :
    limiter.messageCount peer now = min maxCount
      (limiter.openUnits taken (· == peer) now + limiter.openUnits taken (beginsWith peer) now) := by
  unfold messageCount
  simp only
  by_cases hseconds : limiter.windowSeconds = 0
  · rw [if_pos (by rw [hseconds]; simp), h.taken_nil hseconds, openUnits_nil, openUnits_nil]
    rfl
  · have hgo : ¬ (peer.isEmpty || now ≤ 0 || limiter.windowSeconds == 0) = true := by
      rw [hpeer, decide_eq_false (Int.not_le.mpr hnow), beq_false_of_ne hseconds]
      exact Bool.false_ne_true
    rw [if_neg hgo, h.sum_counts hle]
    by_cases hover : maxCount <
        limiter.openUnits taken (· == peer) now + limiter.openUnits taken (beginsWith peer) now
    · rw [if_pos hover, Nat.min_eq_left (Nat.le_of_lt hover)]
    · rw [if_neg hover, Nat.min_eq_right (Nat.not_lt.mp hover)]

/-- **When `messageCount` counts the peer's messages**: no node id that begins with `peer|` has
an open unit, and the count fits 32 bits. -/
theorem Kept.messageCount_exact_iff (h : Kept limiter taken clock) (hle : clock ≤ now) (hnow : 0 < now)
    (peer : String) :
    limiter.messageCount peer now = limiter.openUnits taken (· == peer) now ↔
      peer.isEmpty = true ∨ limiter.openUnits taken (· == peer) now = maxCount ∨
        limiter.openUnits taken (· == peer) now ≤ maxCount ∧
          limiter.openUnits taken (beginsWith peer) now = 0 := by
  cases hpeer : peer.isEmpty with
  | true =>
    rw [h.openUnits_empty hpeer, messageCount, hpeer]
    simp
  | false =>
    rw [h.messageCount_eq hle hnow hpeer]
    simp only [Bool.false_eq_true, false_or]
    omega

/-- The count of one type is exact for every node id. -/
theorem Kept.messageCountOfType_eq (h : Kept limiter taken clock) (hle : clock ≤ now) (hnow : 0 < now)
    (peer : String) (messageType : NetworkMessageType) :
    limiter.messageCountOfType peer messageType now =
      FixedWindow.alive Grant.windowStart limiter.length (ofKey taken (windowKey peer messageType)) now := by
  unfold messageCountOfType
  by_cases hrefused : (peer.isEmpty || now ≤ 0 || limiter.windowSeconds == 0) = true
  · rw [if_pos hrefused]
    simp only [Bool.or_eq_true, decide_eq_true_eq, beq_iff_eq] at hrefused
    rcases hrefused with (hpeer | hpast) | hseconds
    · have hnone : ofKey taken (windowKey peer messageType) = [] := by
        rw [ofKey, List.filter_eq_nil_iff]
        intro g hg heq
        have hnamed := h.named g hg
        rw [(windowKey_inj (beq_iff_eq.mp heq)).1, hpeer] at hnamed
        cases hnamed
      rw [hnone]
      rfl
    · omega
    · rw [h.taken_nil hseconds]
      rfl
  · rw [if_neg hrefused]
    cases hfind : limiter.windows.find? (windowKey peer messageType) with
    | none => exact ((h.settled hfind).mono hle).alive_eq.symm
    | some window => exact (h.alive_ofKey hle hfind).symm

end PeerRateLimiter

--
-- The limits over a run
--

namespace PeerRateLimiter

variable {limiter : PeerRateLimiter} {taken : List Grant} {clock now : Int}
  {nodeId peer key : String} {messageType : NetworkMessageType}

/-- A limiter that has seen no message yet. -/
theorem kept_new (hnew : limiter.windows = SortedMap.empty) (clock : Int) : Kept limiter [] clock := by
  have hnone : ∀ key, limiter.windows.find? key = none := by
    intro key
    rw [hnew]
    rfl
  refine ⟨fun hfind => ?_, fun hfind => ?_, fun g hg => (List.not_mem_nil hg).elim,
    fun hfind => ?_, fun _ g hg => (List.not_mem_nil hg).elim, fun _ _ => FixedWindow.Spaced.nil, ?_⟩
  · rw [hnone] at hfind
    cases hfind
  · rw [hnone] at hfind
    cases hfind
  · rw [hnone] at hfind
    cases hfind
  · unfold size
    rw [hnew]
    exact Nat.zero_le _

/-- The call comes from this peer and is of this type. -/
def Call.isOf (peer : String) (messageType : NetworkMessageType) (call : Call) : Bool :=
  call.nodeId == peer && call.messageType == messageType

/-- A unit that a call took bears its peer, its type and its time. -/
theorem mem_granted {g : Grant} (h : g ∈ limiter.granted nodeId messageType now) :
    g.nodeId = nodeId ∧ g.messageType = messageType ∧ g.time = now := by
  rcases limiter.shouldAllow_cases nodeId messageType now with
    ⟨base, -, hrun⟩ | ⟨base, window, -, -, -, -, hrun⟩
  · rw [granted, hrun, unitOf_refused] at h
    exact (List.not_mem_nil h).elim
  · rw [granted, hrun, unitOf_put] at h
    obtain rfl := List.mem_singleton.mp h
    exact ⟨rfl, rfl, rfl⟩

theorem granted_ne_nil (h : (limiter.shouldAllow nodeId messageType now).1 = true) :
    limiter.granted nodeId messageType now ≠ [] := by
  rcases limiter.shouldAllow_cases nodeId messageType now with
    ⟨base, -, hrun⟩ | ⟨base, window, -, -, -, -, hrun⟩
  · rw [hrun] at h
    cases h
  · rw [granted, hrun, unitOf_put]
    exact List.cons_ne_nil _ _

/-- The units of an answer are those of its call, and an allowed call took one. -/
def Answer.Sound (answer : Answer) : Prop :=
  (∀ g ∈ answer.units, g.nodeId = answer.call.nodeId ∧ g.messageType = answer.call.messageType ∧
    g.time = answer.call.now) ∧
  (answer.allowed = true → answer.units ≠ [])

theorem sound_perform (limiter : PeerRateLimiter) (call : Call) : (limiter.perform call).1.Sound := by
  cases call with
  | shouldAllow nodeId messageType now =>
    exact ⟨fun g hg => mem_granted hg, fun hallowed => granted_ne_nil hallowed⟩
  | recordInvalidMessage nodeId messageType now =>
    refine ⟨fun g hg => ?_, fun hallowed => ?_⟩
    · rcases List.mem_append.mp hg with hfirst | hsecond
      · exact mem_granted hfirst
      · exact mem_granted hsecond
    · have hfirst := (Bool.and_eq_true_iff.mp hallowed).1
      exact List.append_ne_nil_of_left_ne_nil (granted_ne_nil hfirst) _

theorem sound_run (limiter : PeerRateLimiter) (calls : List Call) :
    ∀ answer ∈ (limiter.run calls).1, answer.Sound := by
  induction calls generalizing limiter with
  | nil => exact fun answer hin => (List.not_mem_nil hin).elim
  | cons call calls ih =>
    intro answer hin
    rcases List.mem_cons.mp hin with rfl | hrest
    · exact limiter.sound_perform call
    · exact ih _ answer hrest

/-- Answers that each have a unit of a kind are no more than the units of that kind. -/
theorem countP_answers_le (answers : List Answer) (p : Answer → Bool) (q : Grant → Bool)
    (h : ∀ answer ∈ answers, p answer = true → ∃ g ∈ answer.units, q g = true) :
    answers.countP p ≤ (grants answers).countP q := by
  induction answers with
  | nil => exact Nat.zero_le _
  | cons answer answers ih =>
    have hrest := ih (fun other hin => h other (List.mem_cons_of_mem _ hin))
    rw [grants_cons, List.countP_append, List.countP_cons]
    by_cases hp : p answer = true
    · have hunit := h answer List.mem_cons_self hp
      rw [if_pos hp]
      have hpos : 0 < answer.units.countP q := List.countP_pos_iff.mpr hunit
      omega
    · rw [if_neg hp]
      omega

/-- Counting the units of one key. -/
theorem countP_ofKey (taken : List Grant) (peer : String) (messageType : NetworkMessageType)
    (p : Grant → Bool) :
    taken.countP (fun g => g.nodeId == peer && g.messageType == messageType && p g) =
      (ofKey taken (windowKey peer messageType)).countP p := by
  rw [ofKey, List.countP_filter]
  refine List.countP_congr (fun g _ => ?_)
  have hkey : (g.key == windowKey peer messageType) = (g.nodeId == peer && g.messageType == messageType) := by
    rw [Bool.eq_iff_iff, beq_iff_eq, Bool.and_eq_true, beq_iff_eq, beq_iff_eq]
    constructor
    · exact fun heq => windowKey_inj heq
    · rintro ⟨rfl, rfl⟩
      rfl
  rw [hkey, Bool.and_comm]

/-- The allowed calls of one peer and type, within one window and within any span. -/
theorem allowed_bounded {answers : List Answer} (hsound : ∀ answer ∈ answers, answer.Sound)
    (h : Kept limiter (grants answers) clock) (peer : String) (messageType : NetworkMessageType) :
    (∀ windowStart, answers.countP (fun answer => answer.allowed && answer.call.isOf peer messageType
      && answer.units.any (·.windowStart == windowStart)) ≤ (limiter.limitForType messageType).toNat) ∧
    ∀ a, answers.countP (fun answer => answer.allowed && answer.call.isOf peer messageType
      && (a ≤ answer.call.now && answer.call.now < a + limiter.length)) ≤
        2 * (limiter.limitForType messageType).toNat := by
  have hspaced := h.spaced peer messageType
  constructor
  · intro windowStart
    refine Nat.le_trans (countP_answers_le answers _ (fun g => g.nodeId == peer
      && g.messageType == messageType && g.windowStart == windowStart) ?_) ?_
    · intro answer hin hp
      simp only [Call.isOf, Bool.and_eq_true, beq_iff_eq, List.any_eq_true] at hp
      obtain ⟨⟨-, rfl, rfl⟩, g, hg, hstart⟩ := hp
      obtain ⟨hnode, htype, -⟩ := (hsound answer hin).1 g hg
      refine ⟨g, hg, ?_⟩
      rw [hnode, htype, hstart]
      simp
    · rw [countP_ofKey (grants answers) peer messageType (fun g => g.windowStart == windowStart)]
      exact hspaced.bounded windowStart
  · intro a
    refine Nat.le_trans (countP_answers_le answers _ (fun g => g.nodeId == peer
      && g.messageType == messageType && (a ≤ g.time && g.time < a + limiter.length)) ?_) ?_
    · intro answer hin hp
      simp only [Call.isOf, Bool.and_eq_true, beq_iff_eq] at hp
      obtain ⟨⟨hallowed, rfl, rfl⟩, hspan⟩ := hp
      obtain ⟨g, hg⟩ := List.exists_mem_of_ne_nil _ ((hsound answer hin).2 hallowed)
      obtain ⟨hnode, htype, htime⟩ := (hsound answer hin).1 g hg
      refine ⟨g, hg, ?_⟩
      rw [hnode, htype, htime, hspan.1, hspan.2]
      simp
    · rw [countP_ofKey (grants answers) peer messageType
        (fun g => a ≤ g.time && g.time < a + limiter.length)]
      exact hspaced.count_span_le a

/-- The counts of limiters that took the same units. -/
theorem Kept.counts_eq {limiter' : PeerRateLimiter} (h : Kept limiter taken clock)
    (h' : Kept limiter' taken clock) (hlength : limiter'.length = limiter.length) (hle : clock ≤ now)
    (hnow : 0 < now) (peer : String) :
    limiter'.messageCount peer now = limiter.messageCount peer now ∧
      ∀ messageType, limiter'.messageCountOfType peer messageType now =
        limiter.messageCountOfType peer messageType now := by
  constructor
  · cases hpeer : peer.isEmpty with
    | true => simp [messageCount, hpeer]
    | false =>
      rw [h.messageCount_eq hle hnow hpeer, h'.messageCount_eq hle hnow hpeer, openUnits, openUnits,
        openUnits, openUnits, hlength]
  · intro messageType
    rw [h.messageCountOfType_eq hle hnow, h'.messageCountOfType_eq hle hnow, hlength]

/-- **The limits hold over every run, and peers are apart**; `messageCount` counts the peer's own
messages exactly when no node id beginning with `peer|` has an open unit, up to the 32 bits of
the answer. -/
theorem rate_limits_kept {limiter : PeerRateLimiter} (hnew : limiter.windows = SortedMap.empty)
    (calls : List Call) (hforward : Forward 1 calls) :
    -- within a window, and within any span of its length
    (∀ peer messageType,
      (∀ windowStart, (limiter.run calls).1.countP (fun answer => answer.allowed
        && answer.call.isOf peer messageType && answer.units.any (·.windowStart == windowStart)) ≤
          (limiter.limitForType messageType).toNat) ∧
      ∀ a, (limiter.run calls).1.countP (fun answer => answer.allowed
        && answer.call.isOf peer messageType
        && (a ≤ answer.call.now && answer.call.now < a + limiter.length)) ≤
          2 * (limiter.limitForType messageType).toNat) ∧
    -- a peer alone
    ((∀ state ∈ limiter.before calls, state.size < maxTrackedRateLimitPeers) → ∀ peer,
      (limiter.run calls).1.filter (fun answer => answer.call.nodeId == peer) =
        (limiter.run (calls.filter (fun call => call.nodeId == peer))).1) ∧
    -- a prune
    (∀ now later, lastTime 1 calls ≤ now → Forward now later →
      (((limiter.run calls).2.pruneExpiredWindows now).run later).1 =
        ((limiter.run calls).2.run later).1 ∧
      ∀ peer at', lastTime now later ≤ at' →
        (((limiter.run calls).2.pruneExpiredWindows now).run later).2.messageCount peer at' =
          ((limiter.run calls).2.run later).2.messageCount peer at' ∧
        ∀ messageType, (((limiter.run calls).2.pruneExpiredWindows now).run later).2.messageCountOfType
            peer messageType at' =
          ((limiter.run calls).2.run later).2.messageCountOfType peer messageType at') ∧
    -- what is counted
    ∀ peer now, lastTime 1 calls ≤ now →
      ((limiter.run calls).2.messageCount peer now =
          limiter.openUnits (grants (limiter.run calls).1) (· == peer) now ↔
        peer.isEmpty = true ∨
          limiter.openUnits (grants (limiter.run calls).1) (· == peer) now = maxCount ∨
          limiter.openUnits (grants (limiter.run calls).1) (· == peer) now ≤ maxCount ∧
            limiter.openUnits (grants (limiter.run calls).1) (beginsWith peer) now = 0) ∧
      ∀ messageType, (limiter.run calls).2.messageCountOfType peer messageType now =
        FixedWindow.alive Grant.windowStart limiter.length
          (ofKey (grants (limiter.run calls).1) (windowKey peer messageType)) now := by
  have hkept := (kept_new hnew 1).run calls hforward
  rw [List.nil_append] at hkept
  obtain ⟨hlength, hlimits⟩ := limiter.length_run calls
  have hlast : ∀ (clock : Int) (calls : List Call), Forward clock calls → clock ≤ lastTime clock calls := by
    intro clock calls hforward
    induction calls generalizing clock with
    | nil => exact Int.le_refl _
    | cons call calls ih =>
      obtain ⟨hle, hrest⟩ := hforward.tail
      exact Int.le_trans hle (ih call.now hrest)
  have hfirst := hlast 1 calls hforward
  refine ⟨fun peer messageType => ?_, fun hroom peer => ?_, fun now later hnow hlater => ?_,
    fun peer now hnow => ?_⟩
  · have hbounded := allowed_bounded (limiter.sound_run calls) hkept peer messageType
    rwa [hlimits, hlength] at hbounded
  · have hsecludes : Secludes peer limiter limiter :=
      ⟨fun _ => rfl, rfl, fun _ => rfl, Nat.le_refl _⟩
    exact hsecludes.run calls hroom
  · have hpruned := hkept.prune hnow
    have hagain := hkept.prune_prune hnow (Int.le_refl now)
    obtain ⟨hanswers, -⟩ := hpruned.run_alike (hkept.mono hnow) hagain later hlater
    refine ⟨hanswers, fun peer at' hat => ?_⟩
    have hend := (hkept.mono hnow).run later hlater
    have hend' := hpruned.run later hlater
    rw [hanswers] at hend'
    have hsame := (length_run ((limiter.run calls).2.pruneExpiredWindows now) later).1.trans
      (length_run (limiter.run calls).2 later).1.symm
    have hpos := hlast now later hlater
    exact hend.counts_eq hend' hsame hat (by omega) peer
  · have hexact := hkept.messageCount_exact_iff hnow (by omega) peer
    have htype := hkept.messageCountOfType_eq hnow (by omega) peer
    unfold openUnits at hexact ⊢
    rw [hlength] at hexact htype
    exact ⟨hexact, htype⟩

/-- Two messages of `a|b`. -/
def barredCalls : List Call := [.shouldAllow "a|b" .ping 1000, .recordInvalidMessage "c" .pong 1001]

/-- They are counted for `a`, which sent nothing. -/
theorem other_peer_is_counted :
    ((new 5 60).run barredCalls).2.messageCount "a" 1001 = 1 ∧
      (new 5 60).openUnits (grants ((new 5 60).run barredCalls).1) (· == "a") 1001 = 0 := by
  decide +kernel

/-- The limits of that run. -/
theorem rate_limits_kept_barred :
    ((new 5 60).run barredCalls).1.countP (fun answer => answer.allowed
      && answer.call.isOf "c" .pong
      && (1000 ≤ answer.call.now && answer.call.now < 1000 + (new 5 60).length)) ≤
        2 * ((new 5 60).limitForType .pong).toNat :=
  ((rate_limits_kept (show (new 5 60).windows = SortedMap.empty from rfl) barredCalls
    (by unfold Forward barredCalls; decide)).1 "c" .pong).2 1000

end PeerRateLimiter

end Nodo.Model
