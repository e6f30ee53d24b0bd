import Nodo.Lib.Text
import Nodo.Model.TransactionCodec

/-!
# Nodo — handshake challenges

`p2p/PeerHandshakeReplayGuard.cpp`. A peer answers a random nonce that was issued to it. The
guard keeps one outstanding challenge for each peer and the challenges already consumed; both
expire, and one bound covers both tables. What the random generator answers is a parameter of the
call that draws from it.

## Results

* `challengeKey_inj` — the key of a consumed challenge names the peer and the nonce.
* `kept_perform` — what one call keeps: the outstanding challenge of a peer is the last one issued
  to it, and was not consumed.
* `challenges_single_use` — over every run a nonce is consumed once, by its peer, in time.
-/

namespace Nodo.Model

--
-- The guard (p2p/PeerHandshakeReplayGuard.cpp)
--

structure PeerHandshakeChallengeMaterial where
  nonce : String
  ephemeralPublicKeyHex : String
  ephemeralPrivateKeyHex : String

structure ChallengeEntry where
  material : PeerHandshakeChallengeMaterial
  expiresAt : Int

structure PeerHandshakeReplayGuard where
  maxEntries : Nat
  outstandingByPeer : SortedMap String ChallengeEntry
  consumedChallenges : SortedMap String Int
  positive : 0 < maxEntries

namespace PeerHandshakeReplayGuard

def nonceBytes : Nat := 32

/-- The largest `std::int64_t`. -/
def maxTime : Int := 2 ^ 63 - 1

/-- `PeerHandshakeReplayGuard(maxEntries)`. -/
def new (maxEntries : Nat) : Except String PeerHandshakeReplayGuard :=
  if h : maxEntries = 0 then .error "Peer handshake replay cache capacity must be positive."
  else .ok ⟨maxEntries, SortedMap.empty, SortedMap.empty, Nat.pos_of_ne_zero h⟩

def isValidNonce (nonce : String) : Bool := nonce.length == nonceBytes * 2 && isHexString nonce.toList

def isValidPeerNodeId (peerNodeId : String) : Bool :=
  !peerNodeId.isEmpty && peerNodeId.length ≤ 160

def challengeKey (peerNodeId nonce : String) : String :=
  toString peerNodeId.length ++ ":" ++ peerNodeId ++ ":" ++ nonce

def prune (guard : PeerHandshakeReplayGuard) (now : Int) : PeerHandshakeReplayGuard :=
  if now ≤ 0 then guard
  else { guard with
    outstandingByPeer := guard.outstandingByPeer.filter fun _ entry => !(entry.expiresAt < now)
    consumedChallenges := guard.consumedChallenges.filter fun _ expiresAt => !(expiresAt < now) }

/-- The number of entries that the bound is about. -/
def size (guard : PeerHandshakeReplayGuard) : Nat :=
  guard.outstandingByPeer.entries.length + guard.consumedChallenges.entries.length

/-- The nonce is outstanding for some peer, or was consumed by this one. -/
def collides (guard : PeerHandshakeReplayGuard) (peerNodeId nonce : String) : Bool :=
  guard.outstandingByPeer.entries.any (fun entry => entry.2.material.nonce == nonce)
    || guard.consumedChallenges.contains (challengeKey peerNodeId nonce)

/-- The loop of draws; `none` among them is a generator that failed. -/
def drawMaterial (guard : PeerHandshakeReplayGuard) (peerNodeId : String) :
    List (Option PeerHandshakeChallengeMaterial) → Option PeerHandshakeChallengeMaterial
  | [] => none
  | none :: _ => none
  | some material :: rest =>
    if guard.collides peerNodeId material.nonce then guard.drawMaterial peerNodeId rest
    else some material

def issueChallengeMaterial (guard : PeerHandshakeReplayGuard) (peerNodeId : String) (now : Int)
    (ttlSeconds : UInt32) (draws : List (Option PeerHandshakeChallengeMaterial)) :
    Option PeerHandshakeChallengeMaterial × PeerHandshakeReplayGuard :=
  if !isValidPeerNodeId peerNodeId || now ≤ 0 || ttlSeconds == 0
      || maxTime - ttlSeconds.toNat < now then (none, guard)
  else
    let pruned := guard.prune now
    let replacesOutstanding := pruned.outstandingByPeer.contains peerNodeId
    if !replacesOutstanding && pruned.maxEntries ≤ pruned.size then (none, pruned)
    else match pruned.drawMaterial peerNodeId (draws.take 8) with
      | none => (none, pruned)
      | some material =>
        (some material, { pruned with
          outstandingByPeer := pruned.outstandingByPeer.insert peerNodeId
            ⟨material, now + ttlSeconds.toNat⟩ })

/-- `outstandingChallengeMaterial`, whose nonce is `outstandingChallenge`. -/
def outstandingChallengeMaterial (guard : PeerHandshakeReplayGuard) (peerNodeId : String)
    (now : Int) : Option PeerHandshakeChallengeMaterial × PeerHandshakeReplayGuard :=
  if !isValidPeerNodeId peerNodeId || now ≤ 0 then (none, guard)
  else
    let pruned := guard.prune now
    ((pruned.outstandingByPeer.find? peerNodeId).map (·.material), pruned)

/-- The entry of this peer, if it holds this nonce. -/
def holding (guard : PeerHandshakeReplayGuard) (peerNodeId nonce : String) :
    Option ChallengeEntry :=
  (guard.outstandingByPeer.find? peerNodeId).filter (fun entry => entry.material.nonce == nonce)

def consumeChallenge (guard : PeerHandshakeReplayGuard) (peerNodeId nonce : String) (now : Int) :
    Bool × PeerHandshakeReplayGuard :=
  if !isValidPeerNodeId peerNodeId || !isValidNonce nonce || now ≤ 0 then (false, guard)
  else
    let pruned := guard.prune now
    match pruned.holding peerNodeId nonce with
    | none => (false, pruned)
    | some entry =>
      if pruned.maxEntries < pruned.size then (false, pruned)
      else (true, { pruned with
        consumedChallenges := pruned.consumedChallenges.insert (challengeKey peerNodeId nonce)
          entry.expiresAt
        outstandingByPeer := pruned.outstandingByPeer.erase peerNodeId })

def discardChallenge (guard : PeerHandshakeReplayGuard) (peerNodeId nonce : String) :
    Bool × PeerHandshakeReplayGuard :=
  if !isValidPeerNodeId peerNodeId || !isValidNonce nonce then (false, guard)
  else match guard.holding peerNodeId nonce with
    | none => (false, guard)
    | some _ =>
      (true, { guard with outstandingByPeer := guard.outstandingByPeer.erase peerNodeId })

def wasChallengeConsumed (guard : PeerHandshakeReplayGuard) (peerNodeId nonce : String)
    (now : Int) : Bool × PeerHandshakeReplayGuard :=
  if !isValidPeerNodeId peerNodeId || !isValidNonce nonce || now ≤ 0 then (false, guard)
  else
    let pruned := guard.prune now
    (pruned.consumedChallenges.contains (challengeKey peerNodeId nonce), pruned)

--
-- Runs
--

inductive Call
  | issueChallengeMaterial (peerNodeId : String) (now : Int) (ttlSeconds : UInt32)
    (draws : List (Option PeerHandshakeChallengeMaterial))
  | outstandingChallenge (peerNodeId : String) (now : Int)
  | consumeChallenge (peerNodeId nonce : String) (now : Int)
  | discardChallenge (peerNodeId nonce : String)
  | wasChallengeConsumed (peerNodeId nonce : String) (now : Int)
  | prune (now : Int)

/-- What a call that succeeded did. -/
inductive Event
  | issued (peerNodeId nonce : String) (expiresAt : Int)
  | consumed (peerNodeId nonce : String) (now : Int)
  deriving DecidableEq

/-- One call: the guard it leaves, and what it did. -/
def perform (guard : PeerHandshakeReplayGuard) : Call → PeerHandshakeReplayGuard × List Event
  | .issueChallengeMaterial peerNodeId now ttlSeconds draws =>
    match guard.issueChallengeMaterial peerNodeId now ttlSeconds draws with
    | (none, after) => (after, [])
    | (some material, after) =>
      (after, [.issued peerNodeId material.nonce (now + ttlSeconds.toNat)])
  | .outstandingChallenge peerNodeId now =>
    ((guard.outstandingChallengeMaterial peerNodeId now).2, [])
  | .consumeChallenge peerNodeId nonce now =>
    match guard.consumeChallenge peerNodeId nonce now with
    | (false, after) => (after, [])
    | (true, after) => (after, [.consumed peerNodeId nonce now])
  | .discardChallenge peerNodeId nonce => ((guard.discardChallenge peerNodeId nonce).2, [])
  | .wasChallengeConsumed peerNodeId nonce now =>
    ((guard.wasChallengeConsumed peerNodeId nonce now).2, [])
  | .prune now => (guard.prune now, [])

/-- The nonces a call may draw. -/
def Call.drawn : Call → List String
  | .issueChallengeMaterial _ _ _ draws => (draws.take 8).filterMap (·.map (·.nonce))
  | _ => []

/-- A run of calls: the guard it leaves, and what it did. -/
def run (guard : PeerHandshakeReplayGuard) : List Call → PeerHandshakeReplayGuard × List Event
  | [] => (guard, [])
  | call :: rest =>
    let (after, events) := guard.perform call
    let (final, more) := after.run rest
    (final, events ++ more)

/-- The last challenge issued to a peer. -/
def lastIssued (peerNodeId : String) : List Event → Option (String × Int)
  | [] => none
  | event :: rest =>
    match lastIssued peerNodeId rest with
    | some found => some found
    | none =>
      match event with
      | .issued other nonce expiresAt =>
        if other = peerNodeId then some (nonce, expiresAt) else none
      | .consumed _ _ _ => none

/-- The nonces issued, and the nonces consumed. -/
def issuedNonces : List Event → List String :=
  List.filterMap fun
    | .issued _ nonce _ => some nonce
    | .consumed _ _ _ => none

def consumedNonces : List Event → List String :=
  List.filterMap fun
    | .issued _ _ _ => none
    | .consumed _ nonce _ => some nonce

end PeerHandshakeReplayGuard

namespace PeerHandshakeReplayGuard

--
-- Keys and events
--

/-- **The key of a challenge names its peer and its nonce.** -/
theorem challengeKey_inj {peer nonce peer' nonce' : String}
    (h : challengeKey peer nonce = challengeKey peer' nonce') : peer = peer' ∧ nonce = nonce' := by
  have hcolon : ":".toList = [':'] := Text.toList_of_eq_ofList rfl
  have hlist := congrArg String.toList h
  unfold challengeKey at hlist
  simp only [String.toList_append, hcolon, List.append_assoc, List.singleton_append] at hlist
  have hdigits : ∀ n : Nat, ':' ∉ (toString n).toList := fun n => Text.not_mem_toString rfl
  obtain ⟨hlength, hrest⟩ := Text.append_delimiter_inj (hdigits _) (hdigits _) hlist
  have hsame : peer.toList.length = peer'.toList.length :=
    Text.toString_nat_inj (String.toList_injective hlength)
  obtain ⟨hpeer, hnonce⟩ := List.append_inj hrest hsame
  exact ⟨String.toList_injective hpeer, String.toList_injective (List.cons.inj hnonce).2⟩

theorem lastIssued_cons (peer : String) (event : Event) (rest : List Event) :
    lastIssued peer (event :: rest) =
      match lastIssued peer rest with
      | some found => some found
      | none =>
        match event with
        | .issued other nonce expiresAt =>
          if other = peer then some (nonce, expiresAt) else none
        | .consumed _ _ _ => none := rfl

theorem lastIssued_concat (peer : String) (events : List Event) (event : Event) :
    lastIssued peer (events ++ [event]) =
      match event with
      | .issued other nonce expiresAt =>
        if other = peer then some (nonce, expiresAt) else lastIssued peer events
      | .consumed _ _ _ => lastIssued peer events := by
  induction events with
  | nil =>
    cases event with
    | issued other nonce expiresAt => rfl
    | consumed other nonce now => rfl
  | cons first rest ih =>
    rw [List.cons_append, lastIssued_cons, ih]
    cases event with
    | issued other nonce expiresAt =>
      by_cases hsame : other = peer
      · simp only [if_pos hsame]
      · simp only [if_neg hsame, lastIssued_cons]
    | consumed other nonce now => simp only [lastIssued_cons]

/-- The last challenge of a peer was issued. -/
theorem mem_issuedNonces_of_lastIssued {peer nonce : String} {expiresAt : Int}
    {events : List Event} (h : lastIssued peer events = some (nonce, expiresAt)) :
    nonce ∈ issuedNonces events := by
  induction events with
  | nil => cases h
  | cons event rest ih =>
    rw [lastIssued_cons] at h
    cases hrest : lastIssued peer rest with
    | some found =>
      rw [hrest] at h
      obtain rfl := Option.some.inj h
      have hmem := ih hrest
      cases event with
      | issued other nonce' expiresAt' => exact List.mem_cons_of_mem _ hmem
      | consumed other nonce' now => exact hmem
    | none =>
      rw [hrest] at h
      cases event with
      | issued other nonce' expiresAt' =>
        simp only at h
        split_ifs at h
        obtain ⟨rfl, rfl⟩ := Prod.mk.inj (Option.some.inj h)
        exact List.mem_cons_self
      | consumed other nonce' now => cases h

/-- Every consumption is of its peer's last challenge, and not after that expired. -/
def Timely (events : List Event) : Prop :=
  ∀ before after peer nonce now, events = before ++ .consumed peer nonce now :: after →
    ∃ expiresAt, lastIssued peer before = some (nonce, expiresAt) ∧ now ≤ expiresAt

theorem timely_concat {events : List Event} {event : Event} (h : Timely events)
    (hnew : ∀ peer nonce now, event = .consumed peer nonce now →
      ∃ expiresAt, lastIssued peer events = some (nonce, expiresAt) ∧ now ≤ expiresAt) :
    Timely (events ++ [event]) := by
  intro before after peer nonce now hsplit
  rcases List.eq_nil_or_concat after with rfl | ⟨rest, last, rfl⟩
  · obtain ⟨rfl, hlast⟩ := List.append_inj' hsplit rfl
    exact hnew peer nonce now (List.cons.inj hlast).1
  · rw [List.concat_eq_append, ← List.cons_append, ← List.append_assoc] at hsplit
    exact h before rest peer nonce now (List.append_inj' hsplit rfl).1

--
-- The invariant
--

/-- **The invariant.** The tables are within the bound; the outstanding challenge of a peer is the
last one issued to it and was not consumed; no two peers share one; and what was issued or
consumed was drawn once. -/
structure Kept (guard : PeerHandshakeReplayGuard) (events : List Event) (drawn : List String) :
    Prop where
  bound : guard.size ≤ guard.maxEntries
  latest : ∀ {peer entry}, guard.outstandingByPeer.find? peer = some entry →
    lastIssued peer events = some (entry.material.nonce, entry.expiresAt)
  unspent : ∀ {peer entry}, guard.outstandingByPeer.find? peer = some entry →
    entry.material.nonce ∉ consumedNonces events
  apart : ∀ {peer peer' entry entry'}, guard.outstandingByPeer.find? peer = some entry →
    guard.outstandingByPeer.find? peer' = some entry' →
    entry.material.nonce = entry'.material.nonce → peer = peer'
  issued : ∀ nonce ∈ issuedNonces events, nonce ∈ drawn
  consumed : ∀ nonce ∈ consumedNonces events, nonce ∈ drawn
  issuedOnce : (issuedNonces events).Nodup
  consumedOnce : (consumedNonces events).Nodup
  timely : Timely events

variable {guard guard' : PeerHandshakeReplayGuard} {events : List Event} {drawn extra : List String}
  {peer nonce : String} {now : Int}

/-- A guard that only lost entries. -/
theorem Kept.of_sub (h : Kept guard events drawn) (hmax : guard'.maxEntries = guard.maxEntries)
    (hsize : guard'.size ≤ guard.size)
    (hsub : ∀ {peer entry}, guard'.outstandingByPeer.find? peer = some entry →
      guard.outstandingByPeer.find? peer = some entry) : Kept guard' events drawn :=
  ⟨by rw [hmax]; exact hsize.trans h.bound, fun hfind => h.latest (hsub hfind),
    fun hfind => h.unspent (hsub hfind), fun hfind hfind' => h.apart (hsub hfind) (hsub hfind'),
    h.issued, h.consumed, h.issuedOnce, h.consumedOnce, h.timely⟩

theorem Kept.of_drawn (h : Kept guard events drawn) : Kept guard events (drawn ++ extra) :=
  ⟨h.bound, h.latest, h.unspent, h.apart,
    fun nonce hmem => List.mem_append_left _ (h.issued nonce hmem),
    fun nonce hmem => List.mem_append_left _ (h.consumed nonce hmem), h.issuedOnce,
    h.consumedOnce, h.timely⟩

theorem prune_outstanding {entry : ChallengeEntry} (hpositive : 0 < now) :
    (guard.prune now).outstandingByPeer.find? peer = some entry ↔
      guard.outstandingByPeer.find? peer = some entry ∧ now ≤ entry.expiresAt := by
  unfold prune
  rw [if_neg (by omega), SortedMap.find?_filter_eq_some]
  simp

theorem prune_maxEntries : (guard.prune now).maxEntries = guard.maxEntries := by
  unfold prune
  split <;> rfl

theorem prune_size_le : (guard.prune now).size ≤ guard.size := by
  unfold prune size
  split
  · exact Nat.le_refl _
  · exact Nat.add_le_add List.filter_sublist.length_le List.filter_sublist.length_le

theorem Kept.prune (h : Kept guard events drawn) (now : Int) :
    Kept (guard.prune now) events drawn := by
  refine h.of_sub prune_maxEntries prune_size_le (fun {peer entry} hfind => ?_)
  unfold PeerHandshakeReplayGuard.prune at hfind
  split at hfind
  · exact hfind
  · exact ((SortedMap.find?_filter_eq_some _ _).mp hfind).1

theorem holding_eq_some {entry : ChallengeEntry} :
    guard.holding peer nonce = some entry ↔
      guard.outstandingByPeer.find? peer = some entry ∧ entry.material.nonce = nonce := by
  unfold holding
  rw [Option.filter_eq_some_iff, beq_iff_eq]

/-- What was drawn is one of the draws. -/
theorem mem_drawn_of_drawMaterial {draws : List (Option PeerHandshakeChallengeMaterial)}
    {material : PeerHandshakeChallengeMaterial}
    (h : guard.drawMaterial peer draws = some material) :
    material.nonce ∈ draws.filterMap (·.map (·.nonce)) := by
  induction draws with
  | nil => cases h
  | cons draw rest ih =>
    cases draw with
    | none => cases h
    | some drawnMaterial =>
      rw [drawMaterial] at h
      simp only [List.filterMap_cons, Option.map_some]
      split_ifs at h
      · exact List.mem_cons_of_mem _ (ih h)
      · obtain rfl := Option.some.inj h
        exact List.mem_cons_self

/-- A new challenge: its nonce was never drawn before. -/
theorem Kept.issue {material : PeerHandshakeChallengeMaterial} {expiresAt : Int}
    (h : Kept guard events drawn)
    (hroom : guard.outstandingByPeer.contains peer = true ∨ guard.size < guard.maxEntries)
    (hdrawn : material.nonce ∈ extra) (hfresh : material.nonce ∉ drawn) :
    Kept { guard with
        outstandingByPeer := guard.outstandingByPeer.insert peer ⟨material, expiresAt⟩ }
      (events ++ [.issued peer material.nonce expiresAt]) (drawn ++ extra) := by
  have hissued : issuedNonces (events ++ [.issued peer material.nonce expiresAt])
      = issuedNonces events ++ [material.nonce] := by
    unfold issuedNonces
    rw [List.filterMap_append]
    rfl
  have hconsumed : consumedNonces (events ++ [.issued peer material.nonce expiresAt])
      = consumedNonces events := by
    unfold consumedNonces
    rw [List.filterMap_append]
    exact List.append_nil _
  have hold : ∀ {other entry}, guard.outstandingByPeer.find? other = some entry →
      entry.material.nonce ≠ material.nonce := by
    intro other entry hfind hsame
    exact hfresh (hsame ▸ h.issued _ (mem_issuedNonces_of_lastIssued (h.latest hfind)))
  constructor
  · show (guard.outstandingByPeer.insert peer _).entries.length
      + guard.consumedChallenges.entries.length ≤ guard.maxEntries
    have hbound := h.bound
    unfold size at hbound hroom
    cases hfind : guard.outstandingByPeer.find? peer with
    | some entry =>
      rw [SortedMap.length_insert_of_find? _ _ hfind]
      exact hbound
    | none =>
      rw [SortedMap.length_insert_of_none _ _ hfind]
      rcases hroom with hcontains | hless
      · obtain ⟨entry, hentry⟩ := (SortedMap.contains_iff _).mp hcontains
        rw [hfind] at hentry
        cases hentry
      · omega
  · intro other entry hfind
    rw [lastIssued_concat]
    rw [SortedMap.find?_insert] at hfind
    simp only
    split_ifs at hfind ⊢ with hsame
    · obtain rfl := Option.some.inj hfind
      rfl
    · exact h.latest hfind
  · intro other entry hfind
    rw [hconsumed]
    rw [SortedMap.find?_insert] at hfind
    split_ifs at hfind with hsame
    · obtain rfl := Option.some.inj hfind
      exact fun hmem => hfresh (h.consumed _ hmem)
    · exact h.unspent hfind
  · intro other other' entry entry' hfind hfind' hnonce
    rw [SortedMap.find?_insert] at hfind hfind'
    split_ifs at hfind hfind' with hsame hsame'
    · exact hsame.symm.trans hsame'
    · obtain rfl := Option.some.inj hfind
      exact absurd hnonce.symm (hold hfind')
    · obtain rfl := Option.some.inj hfind'
      exact absurd hnonce (hold hfind)
    · exact h.apart hfind hfind' hnonce
  · intro nonce hmem
    rw [hissued] at hmem
    rcases List.mem_append.mp hmem with hmem | hmem
    · exact List.mem_append_left _ (h.issued nonce hmem)
    · rw [List.mem_singleton.mp hmem]
      exact List.mem_append_right _ hdrawn
  · intro nonce hmem
    rw [hconsumed] at hmem
    exact List.mem_append_left _ (h.consumed nonce hmem)
  · rw [hissued]
    refine List.nodup_append'.mpr ⟨h.issuedOnce, List.nodup_singleton _, ?_⟩
    intro nonce hmem hnew
    rw [List.mem_singleton.mp hnew] at hmem
    exact hfresh (h.issued _ hmem)
  · rw [hconsumed]
    exact h.consumedOnce
  · refine timely_concat h.timely (fun peer nonce now hevent => ?_)
    cases hevent

/-- A consumption: the entry leaves one table for the other. -/
theorem Kept.consume {entry : ChallengeEntry} (h : Kept guard events drawn)
    (hfind : guard.outstandingByPeer.find? peer = some entry) (htime : now ≤ entry.expiresAt) :
    Kept { guard with
        consumedChallenges := guard.consumedChallenges.insert
          (challengeKey peer entry.material.nonce) entry.expiresAt
        outstandingByPeer := guard.outstandingByPeer.erase peer }
      (events ++ [.consumed peer entry.material.nonce now]) drawn := by
  have hissued : issuedNonces (events ++ [.consumed peer entry.material.nonce now])
      = issuedNonces events := by
    unfold issuedNonces
    rw [List.filterMap_append]
    exact List.append_nil _
  have hconsumed : consumedNonces (events ++ [.consumed peer entry.material.nonce now])
      = consumedNonces events ++ [entry.material.nonce] := by
    unfold consumedNonces
    rw [List.filterMap_append]
    rfl
  have hleft : ∀ {other found}, (guard.outstandingByPeer.erase peer).find? other = some found →
      other ≠ peer ∧ guard.outstandingByPeer.find? other = some found := by
    intro other found hfound
    rw [SortedMap.find?_erase] at hfound
    split_ifs at hfound with hsame
    exact ⟨hsame, hfound⟩
  constructor
  · show (guard.outstandingByPeer.erase peer).entries.length
      + (guard.consumedChallenges.insert _ _).entries.length ≤ guard.maxEntries
    have hbound := h.bound
    unfold size at hbound
    have hless := SortedMap.length_erase _ hfind
    have hmore := guard.consumedChallenges.length_insert_le
      (challengeKey peer entry.material.nonce) entry.expiresAt
    omega
  · intro other found hfound
    rw [lastIssued_concat]
    exact h.latest (hleft hfound).2
  · intro other found hfound
    obtain ⟨hother, hfound⟩ := hleft hfound
    rw [hconsumed, List.mem_append, not_or, List.mem_singleton]
    exact ⟨h.unspent hfound, fun hsame => hother (h.apart hfound hfind hsame)⟩
  · intro other other' found found' hfound hfound'
    exact h.apart (hleft hfound).2 (hleft hfound').2
  · rw [hissued]
    exact h.issued
  · intro nonce hmem
    rw [hconsumed] at hmem
    rcases List.mem_append.mp hmem with hmem | hmem
    · exact h.consumed nonce hmem
    · rw [List.mem_singleton.mp hmem]
      exact h.issued _ (mem_issuedNonces_of_lastIssued (h.latest hfind))
  · rw [hissued]
    exact h.issuedOnce
  · rw [hconsumed]
    refine List.nodup_append'.mpr ⟨h.consumedOnce, List.nodup_singleton _, ?_⟩
    intro nonce hmem hnew
    rw [List.mem_singleton.mp hnew] at hmem
    exact h.unspent hfind hmem
  · refine timely_concat h.timely (fun peer' nonce' now' hevent => ?_)
    cases hevent
    exact ⟨entry.expiresAt, h.latest hfind, htime⟩

end PeerHandshakeReplayGuard

namespace PeerHandshakeReplayGuard

variable {guard : PeerHandshakeReplayGuard} {events : List Event} {drawn : List String}

/-- A guard that a refused call leaves: as it was, or pruned. -/
def AsPruned (guard : PeerHandshakeReplayGuard) (now : Int) (after : PeerHandshakeReplayGuard) :
    Prop := after = guard ∨ after = guard.prune now

theorem Kept.asPruned {after : PeerHandshakeReplayGuard} {now : Int} (h : Kept guard events drawn)
    (hafter : AsPruned guard now after) : Kept after events drawn := by
  rcases hafter with rfl | rfl
  · exact h
  · exact h.prune now

/-- How an issue ends. -/
theorem issueChallengeMaterial_cases (guard : PeerHandshakeReplayGuard) (peer : String) (now : Int)
    (ttlSeconds : UInt32) (draws : List (Option PeerHandshakeChallengeMaterial)) :
    (∃ after, guard.issueChallengeMaterial peer now ttlSeconds draws = (none, after) ∧
      AsPruned guard now after) ∨
    ∃ material, (guard.prune now).drawMaterial peer (draws.take 8) = some material ∧
      ((guard.prune now).outstandingByPeer.contains peer = true ∨
        (guard.prune now).size < (guard.prune now).maxEntries) ∧
      guard.issueChallengeMaterial peer now ttlSeconds draws = (some material,
        { guard.prune now with
          outstandingByPeer := (guard.prune now).outstandingByPeer.insert peer
            ⟨material, now + ttlSeconds.toNat⟩ }) := by
  unfold issueChallengeMaterial
  by_cases hrefused : (!isValidPeerNodeId peer || now ≤ 0 || ttlSeconds == 0
      || maxTime - ttlSeconds.toNat < now) = true
  · rw [if_pos hrefused]
    exact Or.inl ⟨guard, rfl, Or.inl rfl⟩
  rw [if_neg hrefused]
  simp only
  by_cases hfull : (!(guard.prune now).outstandingByPeer.contains peer
      && (guard.prune now).maxEntries ≤ (guard.prune now).size) = true
  · rw [if_pos hfull]
    exact Or.inl ⟨guard.prune now, rfl, Or.inr rfl⟩
  rw [if_neg hfull]
  cases hdraw : (guard.prune now).drawMaterial peer (draws.take 8) with
  | none => exact Or.inl ⟨guard.prune now, rfl, Or.inr rfl⟩
  | some material =>
    refine Or.inr ⟨material, rfl, ?_, rfl⟩
    simp only [Bool.and_eq_true, Bool.not_eq_true', not_and, decide_eq_true_eq, Nat.not_le] at hfull
    by_cases hcontains : (guard.prune now).outstandingByPeer.contains peer = true
    · exact Or.inl hcontains
    · exact Or.inr (hfull (by simpa using hcontains))

/-- How a consumption ends. -/
theorem consumeChallenge_cases (guard : PeerHandshakeReplayGuard) (peer nonce : String)
    (now : Int) :
    (∃ after, guard.consumeChallenge peer nonce now = (false, after) ∧ AsPruned guard now after) ∨
    ∃ entry, 0 < now ∧ (guard.prune now).outstandingByPeer.find? peer = some entry ∧
      entry.material.nonce = nonce ∧ guard.consumeChallenge peer nonce now = (true,
        { guard.prune now with
          consumedChallenges := (guard.prune now).consumedChallenges.insert
            (challengeKey peer nonce) entry.expiresAt
          outstandingByPeer := (guard.prune now).outstandingByPeer.erase peer }) := by
  unfold consumeChallenge
  by_cases hrefused : (!isValidPeerNodeId peer || !isValidNonce nonce || now ≤ 0) = true
  · rw [if_pos hrefused]
    exact Or.inl ⟨guard, rfl, Or.inl rfl⟩
  rw [if_neg hrefused]
  simp only [Bool.or_eq_true, decide_eq_true_eq, not_or, Int.not_le] at hrefused
  simp only
  cases hholding : (guard.prune now).holding peer nonce with
  | none => exact Or.inl ⟨guard.prune now, rfl, Or.inr rfl⟩
  | some entry =>
    simp only
    by_cases hover : (guard.prune now).maxEntries < (guard.prune now).size
    · rw [if_pos hover]
      exact Or.inl ⟨guard.prune now, rfl, Or.inr rfl⟩
    · rw [if_neg hover]
      obtain ⟨hfind, hnonce⟩ := holding_eq_some.mp hholding
      exact Or.inr ⟨entry, hrefused.2, hfind, hnonce, rfl⟩

/-- A question leaves the guard as it was, or pruned. -/
theorem outstandingChallengeMaterial_after (guard : PeerHandshakeReplayGuard) (peer : String)
    (now : Int) : AsPruned guard now (guard.outstandingChallengeMaterial peer now).2 := by
  unfold outstandingChallengeMaterial
  split
  · exact Or.inl rfl
  · exact Or.inr rfl

theorem wasChallengeConsumed_after (guard : PeerHandshakeReplayGuard) (peer nonce : String)
    (now : Int) : AsPruned guard now (guard.wasChallengeConsumed peer nonce now).2 := by
  unfold wasChallengeConsumed
  split
  · exact Or.inl rfl
  · exact Or.inr rfl

/-- A discard takes at most the peer's entry out. -/
theorem discardChallenge_after (guard : PeerHandshakeReplayGuard) (peer nonce : String) :
    (guard.discardChallenge peer nonce).2 = guard ∨ (guard.discardChallenge peer nonce).2
      = { guard with outstandingByPeer := guard.outstandingByPeer.erase peer } := by
  unfold discardChallenge
  split
  · exact Or.inl rfl
  · cases guard.holding peer nonce with
    | none => exact Or.inl rfl
    | some entry => exact Or.inr rfl

/-- **One call keeps the invariant**, given that its draws are new. -/
theorem kept_perform (h : Kept guard events drawn) (call : Call)
    (hfresh : ∀ nonce ∈ call.drawn, nonce ∉ drawn) :
    Kept (guard.perform call).1 (events ++ (guard.perform call).2) (drawn ++ call.drawn) := by
  have hquiet : ∀ {after : PeerHandshakeReplayGuard}, Kept after events drawn →
      Kept after (events ++ []) (drawn ++ call.drawn) := by
    intro after hafter
    rw [List.append_nil]
    exact hafter.of_drawn
  cases call with
  | issueChallengeMaterial peer now ttlSeconds draws =>
    simp only [perform]
    rcases issueChallengeMaterial_cases guard peer now ttlSeconds draws with
      ⟨after, hrun, hafter⟩ | ⟨material, hdraw, hroom, hrun⟩
    · rw [hrun]
      exact hquiet (h.asPruned hafter)
    · rw [hrun]
      have hmem : material.nonce ∈ Call.drawn (.issueChallengeMaterial peer now ttlSeconds draws) :=
        mem_drawn_of_drawMaterial hdraw
      exact (h.prune now).issue hroom hmem (hfresh _ hmem)
  | outstandingChallenge peer now =>
    exact hquiet (h.asPruned (outstandingChallengeMaterial_after guard peer now))
  | consumeChallenge peer nonce now =>
    simp only [perform]
    rcases consumeChallenge_cases guard peer nonce now with
      ⟨after, hrun, hafter⟩ | ⟨entry, hnow, hfind, rfl, hrun⟩
    · rw [hrun]
      exact hquiet (h.asPruned hafter)
    · rw [hrun]
      exact ((h.prune now).consume hfind ((prune_outstanding hnow).mp hfind).2).of_drawn
  | discardChallenge peer nonce =>
    simp only [perform]
    rcases discardChallenge_after guard peer nonce with hrun | hrun
    · rw [hrun]
      exact hquiet h
    · rw [hrun]
      refine hquiet (h.of_sub rfl ?_ (fun {other found} hfound => ?_))
      · exact Nat.add_le_add_right List.filter_sublist.length_le _
      · simp only at hfound
        rw [SortedMap.find?_erase] at hfound
        split_ifs at hfound
        exact hfound
  | wasChallengeConsumed peer nonce now =>
    exact hquiet (h.asPruned (wasChallengeConsumed_after guard peer nonce now))
  | prune now => exact hquiet (h.prune now)

/-- The invariant holds after every run whose draws are new and never repeat. -/
theorem kept_run (h : Kept guard events drawn) (calls : List Call)
    (hdraws : (drawn ++ calls.flatMap Call.drawn).Nodup) :
    Kept (guard.run calls).1 (events ++ (guard.run calls).2)
      (drawn ++ calls.flatMap Call.drawn) := by
  induction calls generalizing guard events drawn with
  | nil =>
    rw [List.flatMap_nil, List.append_nil]
    exact (List.append_nil events).symm ▸ h
  | cons call rest ih =>
    rw [List.flatMap_cons, ← List.append_assoc] at hdraws ⊢
    have hstep := kept_perform h call (fun nonce hnew hold =>
      (List.nodup_append'.mp (List.nodup_append'.mp hdraws).1).2.2 hold hnew)
    have hrest := ih hstep hdraws
    rw [List.append_assoc events] at hrest
    exact hrest

theorem AsPruned.maxEntries {after : PeerHandshakeReplayGuard} {now : Int}
    (h : AsPruned guard now after) : after.maxEntries = guard.maxEntries := by
  rcases h with rfl | rfl
  · rfl
  · exact prune_maxEntries

theorem maxEntries_perform (call : Call) :
    (guard.perform call).1.maxEntries = guard.maxEntries := by
  cases call with
  | issueChallengeMaterial peer now ttlSeconds draws =>
    simp only [perform]
    rcases issueChallengeMaterial_cases guard peer now ttlSeconds draws with
      ⟨after, hrun, hafter⟩ | ⟨material, -, -, hrun⟩
    · rw [hrun]
      exact hafter.maxEntries
    · rw [hrun]
      exact prune_maxEntries
  | outstandingChallenge peer now =>
    exact (outstandingChallengeMaterial_after guard peer now).maxEntries
  | consumeChallenge peer nonce now =>
    simp only [perform]
    rcases consumeChallenge_cases guard peer nonce now with
      ⟨after, hrun, hafter⟩ | ⟨entry, -, -, -, hrun⟩
    · rw [hrun]
      exact hafter.maxEntries
    · rw [hrun]
      exact prune_maxEntries
  | discardChallenge peer nonce =>
    simp only [perform]
    rcases discardChallenge_after guard peer nonce with hrun | hrun <;> rw [hrun]
  | wasChallengeConsumed peer nonce now =>
    exact (wasChallengeConsumed_after guard peer nonce now).maxEntries
  | prune now => exact prune_maxEntries

/-- **Challenges are single use.** Over every run of a new guard whose random nonces never repeat:
no nonce is issued or consumed twice, each consumption is of the last challenge of its peer and
not after its expiry, the tables stay within the bound, so that a consumption is refused only for
want of the challenge, and keys name their challenges. -/
theorem challenges_single_use {maxEntries : Nat} {guard : PeerHandshakeReplayGuard}
    (hnew : new maxEntries = .ok guard) (calls : List Call)
    (hdraws : (calls.flatMap Call.drawn).Nodup) :
    (issuedNonces (guard.run calls).2).Nodup ∧
    (consumedNonces (guard.run calls).2).Nodup ∧
    (∀ before after peer nonce now,
      (guard.run calls).2 = before ++ .consumed peer nonce now :: after →
      ∃ expiresAt, lastIssued peer before = some (nonce, expiresAt) ∧ now ≤ expiresAt) ∧
    (guard.run calls).1.size ≤ maxEntries ∧
    (∀ peer nonce now, ((guard.run calls).1.consumeChallenge peer nonce now).1 = true ↔
      isValidPeerNodeId peer = true ∧ isValidNonce nonce = true ∧ 0 < now ∧
        (((guard.run calls).1.prune now).holding peer nonce).isSome = true) ∧
    ∀ peer nonce peer' nonce', challengeKey peer nonce = challengeKey peer' nonce' →
      peer = peer' ∧ nonce = nonce' := by
  unfold new at hnew
  split at hnew
  · cases hnew
  obtain rfl := Except.ok.inj hnew
  have hstart : Kept ⟨maxEntries, SortedMap.empty, SortedMap.empty,
      Nat.pos_of_ne_zero ‹_›⟩ [] [] := by
    refine ⟨Nat.zero_le _, fun hfind => ?_, fun hfind => ?_, fun hfind => ?_, by simp [issuedNonces],
      by simp [consumedNonces], List.nodup_nil, List.nodup_nil, ?_⟩
    · cases hfind
    · cases hfind
    · cases hfind
    · intro before after peer nonce now hsplit
      exact absurd hsplit.symm (List.append_ne_nil_of_right_ne_nil _ (List.cons_ne_nil _ _))
  have hkept := kept_run hstart calls hdraws
  rw [List.nil_append] at hkept
  have hmax : ∀ (calls : List Call) (guard : PeerHandshakeReplayGuard),
      (guard.run calls).1.maxEntries = guard.maxEntries := by
    intro calls
    induction calls with
    | nil => exact fun _ => rfl
    | cons call rest ih => exact fun guard => (ih _).trans (maxEntries_perform call)
  refine ⟨hkept.issuedOnce, hkept.consumedOnce, hkept.timely, ?_, fun peer nonce now => ?_,
    fun _ _ _ _ => challengeKey_inj⟩
  · have hbound := hkept.bound
    rwa [hmax] at hbound
  · unfold consumeChallenge
    by_cases hrefused : (!isValidPeerNodeId peer || !isValidNonce nonce || now ≤ 0) = true
    · rw [if_pos hrefused]
      refine ⟨fun hfalse => (Bool.false_ne_true hfalse).elim, fun ⟨hpeer, hnonce, hnow, _⟩ => ?_⟩
      rw [hpeer, hnonce] at hrefused
      simp only [Bool.not_true, Bool.false_or, decide_eq_true_eq] at hrefused
      omega
    rw [if_neg hrefused]
    simp only [Bool.or_eq_true, Bool.not_eq_true', decide_eq_true_eq, not_or, Bool.not_eq_false,
      Int.not_le] at hrefused
    cases hholding : (PeerHandshakeReplayGuard.prune _ now).holding peer nonce with
    | none => simp [hholding]
    | some entry =>
      simp only [hholding]
      rw [if_neg (Nat.not_lt.mpr (hkept.prune now).bound)]
      exact ⟨fun _ => ⟨hrefused.1.1, hrefused.1.2, hrefused.2, rfl⟩, fun _ => rfl⟩

/-- A challenge for `b`, answered, and answered again. -/
def answeredTwice : List Call :=
  [.issueChallengeMaterial "b" 5 60 [some ⟨String.ofList (List.replicate 64 'a'), "", ""⟩],
    .consumeChallenge "b" (String.ofList (List.replicate 64 'a')) 10,
    .consumeChallenge "b" (String.ofList (List.replicate 64 'a')) 11]

theorem challenges_single_use_once :
    ∃ guard, new 1 = .ok guard ∧ (consumedNonces (guard.run answeredTwice).2).Nodup :=
  ⟨⟨1, SortedMap.empty, SortedMap.empty, Nat.one_pos⟩, rfl,
    (challenges_single_use (show new 1 = .ok _ from rfl) answeredTwice
      (List.nodup_singleton _)).2.1⟩

/-- One of the two answers is taken. -/
example : (PeerHandshakeReplayGuard.run ⟨1, SortedMap.empty, SortedMap.empty, Nat.one_pos⟩
    answeredTwice).2.length = 2 := by decide +kernel

end PeerHandshakeReplayGuard

end Nodo.Model
