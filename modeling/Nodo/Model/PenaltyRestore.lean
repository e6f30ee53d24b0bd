import Nodo.Model.EclipseBound

/-!
# Nodo — penalties across a restart

`GossipMesh::restorePeerPenaltyState` of `p2p/GossipMesh.cpp`, beside the reports of misbehaviour
and the lifts of bans that lead to what is restored. A ban is imposed when the count of invalid
messages reaches its threshold or the score is too low; a lift ends it and sets the count back.

A restore looks at three things in turn: a ban still running, a count at the threshold, a ban that
is over. A ban that ran out while the node was down is met by the second of them, which
quarantines without a time, and no lift takes that back.

## Results

* `Sound.perform` — what reports and lifts keep: a peer is quarantined for a time or not at all,
  and in the second case its count is below the threshold.
* `restored_penalized_iff` — the peer after a restore and a lift.
* `ban_survives_restart` — when the restart is without effect, for every state reached.
-/

namespace Nodo.Model

--
-- Restoring (p2p/GossipMesh.cpp, p2p/PeerRegistry.cpp)
--

namespace PeerMetadata

def quarantinedCopy (peer : PeerMetadata) : PeerMetadata := { peer with quarantined := true }

end PeerMetadata

namespace PeerRegistry

def quarantinePeer (registry : PeerRegistry) (nodeId reason : String) :
    PeerRegistryResult × PeerRegistry :=
  match registry.peersByNodeId.find? nodeId with
  | none => (⟨.notFound, "Peer was not found."⟩, registry)
  | some found => (⟨.updated, reason⟩, registry.setPeer nodeId found.quarantinedCopy)

def liftPeerPenalty (registry : PeerRegistry) (nodeId : String) (seenAt : Int) :
    PeerRegistryResult × PeerRegistry :=
  match registry.peersByNodeId.find? nodeId with
  | none => (⟨.notFound, "Peer was not found."⟩, registry)
  | some found =>
    if seenAt ≤ 0 then (⟨.rejected, "Penalty lift timestamp is invalid."⟩, registry)
    else (⟨.updated, "Expired peer penalty lifted."⟩,
      registry.setPeer nodeId (found.penaltyLiftedCopy seenAt))

end PeerRegistry

namespace GossipMesh

def quarantineEscalationForPeer (hashBytes : String → String) (mesh : GossipMesh) (nodeId : String) :
    Nat :=
  (mesh.penalties.quarantineEscalationByIdentity.find?
    (mesh.identityKeyForNodeId hashBytes nodeId)).getD 0

/-- The counters that `restorePeerPenaltyState` writes; identities past the last 4096 are
forgotten. -/
def restoreCounters (mesh : GossipMesh) (identityKey : String)
    (invalidMessageCount escalationCount : Nat) : PeerPenalties :=
  let recent := identityKey :: mesh.penalties.lruInvalidMessages.erase identityKey
  let counts := mesh.penalties.invalidMessagesByIdentity.insert identityKey
    (min invalidMessageCount mesh.config.invalidMessageQuarantineThreshold)
  { invalidMessagesByIdentity := (recent.drop maxInvalidTracking).foldl (·.erase ·) counts
    quarantineEscalationByIdentity :=
      mesh.penalties.quarantineEscalationByIdentity.insert identityKey escalationCount
    lruInvalidMessages := recent.take maxInvalidTracking }

/-- `currentScore != score`: the score is moved to the restored one. -/
def restoreScore (mesh : GossipMesh) (nodeId : String) (score : Int) : GossipMesh :=
  match mesh.peerRegistry.peer nodeId with
  | none => mesh
  | some peer =>
    if peer.score = score then mesh
    else mesh.setRegistry (mesh.peerRegistry.adjustScore nodeId (score - peer.score) "restored").2

/-- The three branches at the end of `restorePeerPenaltyState`. -/
def restorePenalty (hashBytes : String → String) (mesh : GossipMesh) (nodeId : String)
    (bannedUntil : Int) (banReason : String) (now : Int) : GossipMesh :=
  if 0 < bannedUntil && (now ≤ 0 || now < bannedUntil) then
    mesh.setRegistry (mesh.peerRegistry.banPeer nodeId bannedUntil
      (if banReason.isEmpty then "Peer temporary ban restored from persistent state."
       else banReason)).2
  else if mesh.shouldQuarantinePeer hashBytes nodeId then
    mesh.setRegistry (mesh.peerRegistry.quarantinePeer nodeId
      "Peer quarantine restored from persistent state.").2
  else if 0 < bannedUntil && 0 < now && bannedUntil ≤ now then
    let lifted := mesh.setRegistry (mesh.peerRegistry.liftPeerPenalty nodeId now).2
    { lifted with
      penalties := { lifted.penalties with
        invalidMessagesByIdentity := lifted.penalties.invalidMessagesByIdentity.insert
          (lifted.identityKeyForNodeId hashBytes nodeId) 0 } }
  else mesh

def restorePeerPenaltyState (hashBytes : String → String) (mesh : GossipMesh) (nodeId : String)
    (invalidMessageCount escalationCount : Nat) (bannedUntil : Int) (banReason : String) (now score : Int) :
    Bool × GossipMesh :=
  if !mesh.peerRegistry.contains nodeId then (false, mesh)
  else
    let identityKey := mesh.identityKeyForNodeId hashBytes nodeId
    let counted :=
      { mesh with penalties := mesh.restoreCounters identityKey invalidMessageCount escalationCount }
    (true, (counted.restoreScore nodeId score).restorePenalty hashBytes nodeId bannedUntil banReason now)

/-- A restore with what was saved of a peer. -/
def restoreSaved (hashBytes : String → String) (fresh saved : GossipMesh) (nodeId : String)
    (peer : PeerMetadata) (now : Int) : GossipMesh :=
  (fresh.restorePeerPenaltyState hashBytes nodeId (saved.invalidMessageCountForPeer hashBytes nodeId)
    (saved.quarantineEscalationForPeer hashBytes nodeId) peer.bannedUntil peer.banReason now
    peer.score).2

/-- Quarantined, or banned at `now`. -/
def penalizedAt (mesh : GossipMesh) (nodeId : String) (now : Int) : Bool :=
  (mesh.peerRegistry.peer nodeId).any (fun peer => peer.quarantined || peer.bannedAt now)

end GossipMesh

--
-- Counts
--

namespace GossipMesh

variable {hashBytes : String → String} {mesh : GossipMesh} {nodeId reason key other : String}
  {peer : PeerMetadata} {now : Int}

/-- The invalid messages counted for an identity. -/
def countOf (penalties : PeerPenalties) (key : String) : Nat :=
  (penalties.invalidMessagesByIdentity.find? key).getD 0

theorem find?_foldl_erase {ν : Type} (l : List String) (m : SortedMap String ν) (key : String) :
    (l.foldl (·.erase ·) m).find? key = if key ∈ l then none else m.find? key := by
  induction l generalizing m with
  | nil => rfl
  | cons first l ih =>
    rw [List.foldl_cons, ih, SortedMap.find?_erase]
    by_cases hin : key ∈ l
    · rw [if_pos hin, if_pos (List.mem_cons_of_mem _ hin)]
    · by_cases hfirst : key = first
      · rw [if_neg hin, if_pos hfirst, if_pos (by rw [hfirst]; exact List.mem_cons_self)]
      · rw [if_neg hin, if_neg hfirst, if_neg (by simp [hin, hfirst])]

/-- Forgetting identities lowers counts. -/
theorem getD_foldl_erase_le (l : List String) (m : SortedMap String Nat) (key : String) :
    ((l.foldl (·.erase ·) m).find? key).getD 0 ≤ (m.find? key).getD 0 := by
  rw [find?_foldl_erase]
  split
  · exact Nat.zero_le _
  · exact Nat.le_refl _

/-- A report raises no other identity's count. -/
theorem countOf_countInvalid_le (hne : key ≠ other) :
    countOf (mesh.countInvalid key) other ≤ countOf mesh.penalties other := by
  unfold countOf countInvalid
  refine Nat.le_trans (getD_foldl_erase_le _ _ _) ?_
  rw [SortedMap.find?_insert_of_ne _ _ hne]

/-- The identity of a registered peer is no name of an unverified node. -/
theorem identityKey_ne_unverified (peer : PeerMetadata) (nodeId : String) :
    "unverified-node-" ++ nodeId ≠ peer.identityKey hashBytes := by
  intro heq
  have hlist := congrArg String.toList heq
  have hfirst : "unverified-node-".toList = 'u' :: "nverified-node-".toList := by decide
  have hsecond : "peer-key-".toList = 'p' :: "eer-key-".toList := by decide
  unfold PeerMetadata.identityKey at hlist
  rw [String.toList_append, String.toList_append, hfirst, hsecond] at hlist
  exact absurd (List.cons.inj hlist).1 (by decide)

theorem identityKeyForNodeId_some (h : mesh.peerRegistry.peer nodeId = some peer) :
    mesh.identityKeyForNodeId hashBytes nodeId = peer.identityKey hashBytes := by
  unfold identityKeyForNodeId
  rw [h]

theorem shouldQuarantinePeer_some (h : mesh.peerRegistry.peer nodeId = some peer) :
    mesh.shouldQuarantinePeer hashBytes nodeId = true ↔
      mesh.config.invalidMessageQuarantineThreshold ≤
        countOf mesh.penalties (peer.identityKey hashBytes) := by
  unfold shouldQuarantinePeer invalidMessageCountForPeer
  rw [identityKeyForNodeId_some h, decide_eq_true_eq]
  rfl

--
-- What reports and lifts keep
--

/-- One peer: at liberty with a count below the threshold, or quarantined for a time. -/
def Kept (threshold : Nat) (count : Nat) (peer : PeerMetadata) : Prop :=
  peer.isValid = true ∧
    ((peer.quarantined = false ∧ peer.bannedUntil = 0 ∧ count < threshold) ∨
      (peer.quarantined = true ∧ 0 < peer.bannedUntil))

/-- **The invariant of reports and lifts.** -/
structure Sound (hashBytes : String → String) (mesh : GossipMesh) : Prop where
  threshold : 0 < mesh.config.invalidMessageQuarantineThreshold
  filed : mesh.peerRegistry.Filed hashBytes
  kept : ∀ {nodeId peer}, mesh.peerRegistry.peer nodeId = some peer →
    Kept mesh.config.invalidMessageQuarantineThreshold
      (countOf mesh.penalties (peer.identityKey hashBytes)) peer

theorem Kept.of_le {threshold count count' : Nat} (h : Kept threshold count peer) (hle : count' ≤ count) :
    Kept threshold count' peer :=
  ⟨h.1, h.2.imp (fun hfree => ⟨hfree.1, hfree.2.1, Nat.lt_of_le_of_lt hle hfree.2.2⟩) id⟩

/-- A quarantined peer stands whatever is counted. -/
theorem Kept.of_quarantined {threshold count : Nat} (h : Kept threshold count peer)
    (hquarantined : peer.quarantined = true) (count' : Nat) : Kept threshold count' peer := by
  rcases h.2 with ⟨hfree, -, -⟩ | hbanned
  · rw [hfree] at hquarantined
    cases hquarantined
  · exact ⟨h.1, Or.inr hbanned⟩

theorem Kept.quarantined_of_bannedAt {threshold count : Nat} (h : Kept threshold count peer)
    (hbanned : peer.bannedAt now = true) : peer.quarantined = true := by
  rcases h.2 with ⟨-, hzero, -⟩ | ⟨hquarantined, -⟩
  · unfold PeerMetadata.bannedAt at hbanned
    simp only [Bool.and_eq_true, decide_eq_true_eq] at hbanned
    omega
  · exact hquarantined

/-- Two registered peers of one identity are one. -/
theorem Sound.nodeId_unique (h : Sound hashBytes mesh) {nodeId nodeId' : String} {peer peer' : PeerMetadata}
    (hfind : mesh.peerRegistry.peer nodeId = some peer)
    (hfind' : mesh.peerRegistry.peer nodeId' = some peer')
    (hkey : peer.identityKey hashBytes = peer'.identityKey hashBytes) : nodeId = nodeId' := by
  have howner := h.filed.owner nodeId peer hfind
  have howner' := h.filed.owner nodeId' peer' hfind'
  rw [hkey, howner'] at howner
  exact (Option.some.inj howner).symm

/-- A mesh with other counters and the same peers. -/
theorem Sound.of_counts (h : Sound hashBytes mesh) {penalties : PeerPenalties}
    (hcounts : ∀ {nodeId peer}, mesh.peerRegistry.peer nodeId = some peer →
      peer.quarantined = false →
      countOf penalties (peer.identityKey hashBytes) ≤
        countOf mesh.penalties (peer.identityKey hashBytes)) :
    Sound hashBytes { mesh with penalties := penalties } := by
  refine ⟨h.threshold, h.filed, fun {nodeId peer} hfind => ?_⟩
  have hkept := h.kept hfind
  cases hquarantined : peer.quarantined with
  | true => exact hkept.of_quarantined hquarantined _
  | false => exact hkept.of_le (hcounts hfind hquarantined)

/-- A mesh with one peer's entry rewritten. -/
theorem Sound.setPeer (h : Sound hashBytes mesh) {existing : PeerMetadata}
    (hfind : mesh.peerRegistry.peer nodeId = some existing)
    (hnode : peer.nodeId = existing.nodeId)
    (hkey : peer.publicKeyFingerprint = existing.publicKeyFingerprint) {penalties : PeerPenalties}
    (hcounts : ∀ other, other ≠ existing.identityKey hashBytes →
      countOf penalties other ≤ countOf mesh.penalties other)
    (hkept : Kept mesh.config.invalidMessageQuarantineThreshold
      (countOf penalties (existing.identityKey hashBytes)) peer) :
    Sound hashBytes { mesh with
      penalties := penalties, peerRegistry := mesh.peerRegistry.setPeer nodeId peer } := by
  have hidentity : peer.identityKey hashBytes = existing.identityKey hashBytes := by
    unfold PeerMetadata.identityKey
    rw [hkey]
  refine ⟨h.threshold, h.filed.setPeer hfind hnode hkey, fun {other found} hfound => ?_⟩
  have hentry : (if nodeId = other then some peer else mesh.peerRegistry.peer other) = some found := by
    rw [← hfound]
    exact (mesh.peerRegistry.peersByNodeId.find?_insert nodeId other peer).symm
  by_cases hother : nodeId = other
  · rw [if_pos hother] at hentry
    obtain rfl := Option.some.inj hentry
    rw [hidentity]
    exact hkept
  · rw [if_neg hother] at hentry
    refine (h.kept hentry).of_le (hcounts _ (fun heq => hother ?_))
    exact h.nodeId_unique hfind hentry heq.symm

end GossipMesh

namespace PeerRegistry

variable {registry : PeerRegistry} {peer peer' : PeerMetadata} {nodeId : String}

/-- The last write to an entry stands. -/
theorem setPeer_setPeer (registry : PeerRegistry) (nodeId : String) (peer peer' : PeerMetadata) :
    (registry.setPeer nodeId peer).setPeer nodeId peer' = registry.setPeer nodeId peer' := by
  have hpeers : (registry.peersByNodeId.insert nodeId peer).insert nodeId peer' =
      registry.peersByNodeId.insert nodeId peer' := by
    refine SortedMap.eq_of_find? (fun other => ?_)
    rw [SortedMap.find?_insert, SortedMap.find?_insert, SortedMap.find?_insert]
    split_ifs with hother
    · rfl
    · rfl
  unfold setPeer
  simp only
  rw [hpeers]

theorem peer_setPeer (registry : PeerRegistry) (nodeId : String) (peer : PeerMetadata) :
    (registry.setPeer nodeId peer).peer nodeId = some peer :=
  (registry.peersByNodeId.find?_insert nodeId nodeId peer).trans (if_pos rfl)

/-- A reason for a ban is written so that the metadata hold it. -/
theorem isSafe_canonicalPenaltyReason (reason : String) :
    isSafePeerScalar (canonicalPenaltyReason reason) 200 = true := by
  unfold canonicalPenaltyReason
  by_cases hempty : reason.isEmpty = true
  · rw [if_pos hempty]
    decide +kernel
  rw [if_neg hempty]
  unfold isSafePeerScalar isSafeIdentifier
  have hextra : "_-.:/".toList = ['_', '-', '.', ':', '/'] := Text.toList_of_eq_ofList rfl
  rw [hextra]
  simp only [Bool.and_eq_true, decide_eq_true_eq, List.all_eq_true, String.toList_ofList,
    String.length_ofList, List.length_map, List.length_take]
  refine ⟨⟨?_, fun c hc => ?_⟩, by omega⟩
  · have hne : reason.toList ≠ [] := fun heq => hempty (by
      rw [String.isEmpty_iff]
      exact String.toList_eq_nil_iff.mp heq)
    rw [Bool.not_eq_true', Bool.eq_false_iff]
    intro hnil
    rw [String.isEmpty_iff, ← String.toList_eq_nil_iff, String.toList_ofList, List.map_eq_nil_iff,
      List.take_eq_nil_iff] at hnil
    exact hnil.elim (by decide) hne
  · obtain ⟨original, -, rfl⟩ := List.mem_map.mp hc
    by_cases hallowed : (('a' ≤ original && original ≤ 'z') || ('A' ≤ original && original ≤ 'Z')
        || ('0' ≤ original && original ≤ '9') || original == '_' || original == '-'
        || original == '.' || original == ':' || original == '/') = true
    · rw [if_pos (by simpa using hallowed)]
      simp only [Bool.or_eq_true, Bool.and_eq_true, decide_eq_true_eq, beq_iff_eq] at hallowed
      simp only [List.contains_cons, List.contains_nil, Bool.or_false, Bool.or_eq_true,
        Bool.and_eq_true, decide_eq_true_eq, beq_iff_eq]
      tauto
    · rw [if_neg (by simpa using hallowed)]
      decide

theorem isValid_bannedCopy (hvalid : peer.isValid = true) {bannedUntil : Int}
    (hpos : 0 < bannedUntil) (reason : String) :
    (peer.bannedCopy bannedUntil (canonicalPenaltyReason reason)).isValid = true := by
  have hsafe := isSafe_canonicalPenaltyReason reason
  unfold PeerMetadata.isValid at hvalid ⊢
  unfold PeerMetadata.bannedCopy
  simp only [Bool.and_eq_true, decide_eq_true_eq, Bool.or_eq_true] at hvalid ⊢
  exact ⟨⟨hvalid.1.1, Int.le_of_lt hpos⟩, Or.inr hsafe⟩

theorem isValid_penaltyLiftedCopy (hvalid : peer.isValid = true) (seenAt : Int) :
    (peer.penaltyLiftedCopy seenAt).isValid = true := by
  unfold PeerMetadata.isValid at hvalid ⊢
  unfold PeerMetadata.penaltyLiftedCopy
  simp only [Bool.and_eq_true, decide_eq_true_eq, Bool.or_eq_true] at hvalid ⊢
  obtain ⟨⟨⟨hfront, hseen⟩, -⟩, -⟩ := hvalid
  refine ⟨⟨⟨hfront, ?_⟩, Int.le_refl _⟩, Or.inl rfl⟩
  split
  · omega
  · exact hseen

/-- A ban of a valid peer for a positive time succeeds. -/
theorem banPeer_eq (hfind : registry.peer nodeId = some peer) (hvalid : peer.isValid = true)
    {bannedUntil : Int} (hpos : 0 < bannedUntil) (reason : String) :
    (registry.banPeer nodeId bannedUntil reason).2 =
      registry.setPeer nodeId (peer.bannedCopy bannedUntil (canonicalPenaltyReason reason)) := by
  have hfind : registry.peersByNodeId.find? nodeId = some peer := hfind
  unfold banPeer
  rw [hfind]
  simp only
  rw [if_neg (Int.not_le.mpr hpos), isValid_bannedCopy hvalid hpos]
  rfl

theorem adjustScore_eq (hfind : registry.peer nodeId = some peer) (delta : Int) (reason : String) :
    (registry.adjustScore nodeId delta reason).2 = registry.setPeer nodeId (peer.withScoreDelta delta) := by
  have hfind : registry.peersByNodeId.find? nodeId = some peer := hfind
  unfold adjustScore
  rw [hfind]

theorem adjustScore_none (hfind : registry.peer nodeId = none) (delta : Int) (reason : String) :
    (registry.adjustScore nodeId delta reason).2 = registry := by
  have hfind : registry.peersByNodeId.find? nodeId = none := hfind
  unfold adjustScore
  rw [hfind]

end PeerRegistry

namespace GossipMesh

variable {hashBytes : String → String} {mesh : GossipMesh} {nodeId reason key : String}
  {peer : PeerMetadata} {now : Int}

theorem banDuration_pos (escalation : Nat) : 0 < banDuration escalation := by
  unfold banDuration
  split
  · decide
  split
  · decide
  split
  · decide
  · decide

/-- **A report keeps the invariant**: who reaches the threshold is banned with it. -/
theorem Sound.report (h : Sound hashBytes mesh) (nodeId reason : String) (hnow : 0 < now)
    (type : PeerMisbehaviorType) (stillAllowed : Bool) :
    Sound hashBytes (mesh.recordInvalidMessage hashBytes nodeId reason now type stillAllowed) := by
  unfold recordInvalidMessage
  split
  · exact h
  simp only
  generalize (if (if (!stillAllowed) = true then PeerMisbehaviorType.rateLimitExceeded else type) ==
    PeerMisbehaviorType.rateLimitExceeded then (-5 : Int) else -10) = delta
  cases hfind : mesh.peerRegistry.peer nodeId with
  | none =>
    have hkey : mesh.identityKeyForNodeId hashBytes nodeId = "unverified-node-" ++ nodeId := by
      unfold identityKeyForNodeId
      rw [hfind]
    rw [Option.any_none, if_neg Bool.false_ne_true, hkey, PeerRegistry.adjustScore_none hfind]
    unfold banAcrossBoundary setRegistry
    simp only
    rw [hfind, Option.any_none, Bool.not_false, if_pos rfl]
    exact h.of_counts (fun {_ peer} _ _ =>
      countOf_countInvalid_le (identityKey_ne_unverified peer nodeId))
  | some peer =>
    have hkept := h.kept hfind
    rw [identityKeyForNodeId_some hfind]
    set key := peer.identityKey hashBytes with hkey
    rw [Option.any_some]
    by_cases hbanned : peer.bannedAt now = true
    · rw [if_pos hbanned]
      refine h.of_counts (fun {other found} hfound hfree => countOf_countInvalid_le (fun heq => ?_))
      have hsame := h.nodeId_unique hfind hfound (hkey.symm.trans heq)
      rw [← hsame, hfind] at hfound
      rw [← Option.some.inj hfound, hkept.quarantined_of_bannedAt hbanned] at hfree
      cases hfree
    rw [if_neg hbanned, PeerRegistry.adjustScore_eq hfind]
    set scored : GossipMesh := ({ mesh with penalties := mesh.countInvalid key } : GossipMesh).setRegistry
      (mesh.peerRegistry.setPeer nodeId (peer.withScoreDelta delta)) with hscored
    have hfindScored : scored.peerRegistry.peer nodeId = some (peer.withScoreDelta delta) :=
      mesh.peerRegistry.peer_setPeer nodeId _
    unfold banAcrossBoundary
    simp only
    rw [hfindScored, Option.any_some]
    by_cases hcrossed : (scored.shouldQuarantinePeer hashBytes nodeId
        || (peer.withScoreDelta delta).score ≤ -50) = true
    · rw [hcrossed, Bool.not_true, if_neg Bool.false_ne_true]
      have hpos : 0 < now + banDuration ((scored.penalties.quarantineEscalationByIdentity.find? key).getD
          0 + 1) := by
        have hduration := banDuration_pos
          ((scored.penalties.quarantineEscalationByIdentity.find? key).getD 0 + 1)
        omega
      rw [PeerRegistry.banPeer_eq hfindScored hkept.1 hpos, hscored]
      unfold setRegistry
      simp only
      rw [PeerRegistry.setPeer_setPeer]
      have hvalid := PeerRegistry.isValid_bannedCopy hkept.1 hpos reason
      refine @Sound.setPeer hashBytes mesh nodeId _ h peer hfind ?_ ?_ _ ?_ ⟨hvalid, Or.inr ⟨rfl, hpos⟩⟩
      · rfl
      · rfl
      · exact fun other hne => countOf_countInvalid_le hne.symm
    · rw [Bool.not_eq_true] at hcrossed
      rw [hcrossed, Bool.not_false, if_pos rfl]
      have hbelow : countOf (mesh.countInvalid key) key < mesh.config.invalidMessageQuarantineThreshold := by
        refine Nat.not_le.mp (fun hle => ?_)
        have hshould := (@shouldQuarantinePeer_some hashBytes _ _ _ hfindScored).mpr hle
        rw [hshould] at hcrossed
        cases hcrossed
      refine h.setPeer hfind (show (peer.withScoreDelta delta).nodeId = peer.nodeId from rfl) rfl
        (fun other hne => countOf_countInvalid_le hne.symm) ⟨hkept.1, ?_⟩
      rcases hkept.2 with ⟨hfree, hzero, -⟩ | hquarantined
      · exact Or.inl ⟨hfree, hzero, hbelow⟩
      · exact Or.inr hquarantined

end GossipMesh

namespace GossipMesh

variable {hashBytes : String → String} {mesh fresh : GossipMesh} {nodeId reason key : String}
  {peer peer' : PeerMetadata} {now : Int}

theorem find?_foldl_insert_zero (keys : List String) (m : SortedMap String Nat) (key : String) :
    (keys.foldl (fun counts identityKey => counts.insert identityKey 0) m).find? key =
      if key ∈ keys then some 0 else m.find? key := by
  induction keys generalizing m with
  | nil => rfl
  | cons first keys ih =>
    rw [List.foldl_cons, ih, SortedMap.find?_insert]
    by_cases hin : key ∈ keys
    · rw [if_pos hin, if_pos (List.mem_cons_of_mem _ hin)]
    · by_cases hfirst : first = key
      · rw [if_neg hin, if_pos hfirst, if_pos (by rw [hfirst]; exact List.mem_cons_self)]
      · rw [if_neg hin, if_neg hfirst, if_neg (by simp [hin, Ne.symm hfirst])]

/-- What a lift makes of a peer. -/
theorem peer_lift (mesh : GossipMesh) (nodeId : String) (hnow : 0 < now) :
    (mesh.liftExpiredPeerPenalties hashBytes now).2.peerRegistry.peer nodeId =
      (mesh.peerRegistry.peer nodeId).map
        (fun peer => if peer.penaltyExpired now then peer.penaltyLiftedCopy now else peer) := by
  rw [(liftExpiredPeerPenalties_mesh now).2]
  unfold PeerRegistry.liftExpiredPeerPenalties
  rw [if_neg (Int.not_le.mpr hnow)]
  exact mesh.peerRegistry.peersByNodeId.find?_mapValues _ _

/-- A lift of the peers whose ban is over sets their counts back. -/
theorem countOf_lift (mesh : GossipMesh) (hnow : 0 < now) (hfind : mesh.peerRegistry.peer nodeId = some peer) :
    countOf (mesh.liftExpiredPeerPenalties hashBytes now).2.penalties (peer.identityKey hashBytes) ≤
        countOf mesh.penalties (peer.identityKey hashBytes) ∧
      (peer.penaltyExpired now = true →
        countOf (mesh.liftExpiredPeerPenalties hashBytes now).2.penalties (peer.identityKey hashBytes) = 0) := by
  have hmem : peer ∈ mesh.peerRegistry.allPeers :=
    List.mem_map.mpr ⟨(nodeId, peer), mesh.peerRegistry.peersByNodeId.find?_eq_some_iff.mp hfind, rfl⟩
  unfold liftExpiredPeerPenalties PeerRegistry.liftExpiredPeerPenalties
  rw [if_neg (Int.not_le.mpr hnow), if_neg (Int.not_le.mpr hnow)]
  unfold countOf
  simp only
  by_cases hlifted : 0 < mesh.peerRegistry.allPeers.countP (·.penaltyExpired now)
  · rw [if_pos hlifted, find?_foldl_insert_zero]
    constructor
    · split
      · exact Nat.zero_le _
      · exact Nat.le_refl _
    · intro hexpired
      rw [if_pos (List.mem_map.mpr ⟨peer, List.mem_filter.mpr ⟨hmem, hexpired⟩, rfl⟩)]
      rfl
  · rw [if_neg hlifted]
    refine ⟨Nat.le_refl _, fun hexpired => absurd ?_ hlifted⟩
    exact List.countP_pos_iff.mpr ⟨peer, hmem, hexpired⟩

/-- **A lift keeps the invariant.** -/
theorem Sound.lift (h : Sound hashBytes mesh) (now : Int) :
    Sound hashBytes (mesh.liftExpiredPeerPenalties hashBytes now).2 := by
  by_cases hnow : 0 < now
  · obtain ⟨hconfig, hregistry⟩ := @liftExpiredPeerPenalties_mesh hashBytes mesh now
    refine ⟨hconfig ▸ h.threshold, hregistry ▸ h.filed.lift now, fun {nodeId peer} hfind => ?_⟩
    rw [peer_lift mesh nodeId hnow, Option.map_eq_some_iff] at hfind
    obtain ⟨old, hold, rfl⟩ := hfind
    obtain ⟨hle, hzero⟩ := @countOf_lift hashBytes _ _ _ mesh hnow hold
    have hkept := h.kept hold
    rw [hconfig]
    by_cases hexpired : old.penaltyExpired now = true
    · rw [if_pos hexpired]
      refine ⟨PeerRegistry.isValid_penaltyLiftedCopy hkept.1 now, Or.inl ⟨rfl, rfl, ?_⟩⟩
      have hcount := hzero hexpired
      exact Nat.lt_of_le_of_lt (Nat.le_of_eq hcount) h.threshold
    · rw [if_neg hexpired]
      exact hkept.of_le hle
  · unfold liftExpiredPeerPenalties
    rw [if_pos (Int.not_lt.mp hnow)]
    exact h

/-- A report at a positive time, or a lift. -/
def Penal : PeerCommand → Prop
  | .registerPeer _ => False
  | .recordInvalidMessage _ _ now _ _ => 0 < now
  | .liftExpiredPeerPenalties _ => True

/-- **One report or lift.** -/
theorem Sound.perform (h : Sound hashBytes mesh) {command : PeerCommand} (hpenal : Penal command) :
    Sound hashBytes (mesh.performPeer hashBytes command) ∧
      (mesh.performPeer hashBytes command).config = mesh.config := by
  cases command with
  | registerPeer peer => exact hpenal.elim
  | recordInvalidMessage nodeId reason now type stillAllowed =>
    exact ⟨h.report nodeId reason hpenal type stillAllowed,
      (recordInvalidMessage_penalized now type stillAllowed).1⟩
  | liftExpiredPeerPenalties now => exact ⟨h.lift now, (liftExpiredPeerPenalties_mesh now).1⟩

/-- Every run of reports and lifts. -/
theorem Sound.run (h : Sound hashBytes mesh) (commands : List PeerCommand)
    (hpenal : ∀ command ∈ commands, Penal command) :
    Sound hashBytes (commands.foldl (performPeer hashBytes) mesh) ∧
      (commands.foldl (performPeer hashBytes) mesh).config = mesh.config := by
  induction commands generalizing mesh with
  | nil => exact ⟨h, rfl⟩
  | cons command commands ih =>
    obtain ⟨hstep, hconfig⟩ := h.perform (hpenal command List.mem_cons_self)
    obtain ⟨hend, hsame⟩ := ih hstep (fun other hin => hpenal other (List.mem_cons_of_mem _ hin))
    exact ⟨hend, hsame.trans hconfig⟩

--
-- The peer after a restore
--

/-- Whether a peer with these penalties is penalized after a lift. -/
theorem penalizedAt_lift (hfind : mesh.peerRegistry.peer nodeId = some peer) (hnow : 0 < now)
    (hfree : peer.quarantined = false → peer.bannedUntil = 0) :
    (mesh.liftExpiredPeerPenalties hashBytes now).2.penalizedAt nodeId now = true ↔
      peer.quarantined = true ∧ (peer.bannedUntil ≤ 0 ∨ now < peer.bannedUntil) := by
  unfold penalizedAt
  rw [peer_lift mesh nodeId hnow, hfind, Option.map_some, Option.any_some]
  unfold PeerMetadata.penaltyExpired PeerMetadata.penaltyLiftedCopy PeerMetadata.bannedAt
  cases hquarantined : peer.quarantined with
  | false =>
    have hzero := hfree hquarantined
    simp [hquarantined, hzero]
    omega
  | true =>
    by_cases hover : 0 < peer.bannedUntil ∧ peer.bannedUntil ≤ now
    · rw [if_pos (by simp [hover.1, hover.2])]
      simp
      omega
    · rw [if_neg (by simpa using hover)]
      simp [hquarantined]
      omega

end GossipMesh

namespace GossipMesh

variable {hashBytes : String → String} {mesh fresh : GossipMesh} {nodeId : String}
  {peer peer' : PeerMetadata} {now t : Int}

/-- What a restore of the score leaves of a peer. -/
theorem restoreScore_peer (hfind : mesh.peerRegistry.peer nodeId = some peer) (score : Int) :
    ∃ peer', (mesh.restoreScore nodeId score).peerRegistry.peer nodeId = some peer' ∧
      peer'.quarantined = peer.quarantined ∧ peer'.bannedUntil = peer.bannedUntil ∧
      peer'.isValid = peer.isValid ∧ peer'.identityKey hashBytes = peer.identityKey hashBytes ∧
      (mesh.restoreScore nodeId score).penalties = mesh.penalties ∧
      (mesh.restoreScore nodeId score).config = mesh.config := by
  unfold restoreScore
  rw [hfind]
  simp only
  by_cases hsame : peer.score = score
  · rw [if_pos hsame]
    exact ⟨peer, hfind, rfl, rfl, rfl, rfl, rfl, rfl⟩
  · rw [if_neg hsame, PeerRegistry.adjustScore_eq hfind]
    exact ⟨peer.withScoreDelta (score - peer.score), PeerRegistry.peer_setPeer _ _ _, rfl, rfl, rfl,
      rfl, rfl, rfl⟩

/-- The branches of a restore, by what a lift makes of the peer. -/
theorem penalizedAt_restorePenalty (hfind : mesh.peerRegistry.peer nodeId = some peer)
    (hvalid : peer.isValid = true) (hfree : peer.quarantined = false) (hzero : peer.bannedUntil = 0)
    (bannedUntil : Int) (banReason : String) (hnow : 0 < now) (hle : now ≤ t) :
    ((mesh.restorePenalty hashBytes nodeId bannedUntil banReason now).liftExpiredPeerPenalties
      hashBytes t).2.penalizedAt nodeId t = true ↔
      t < bannedUntil ∨ (bannedUntil ≤ now ∧ mesh.shouldQuarantinePeer hashBytes nodeId = true) := by
  have ht : 0 < t := by omega
  unfold restorePenalty
  by_cases hrunning : 0 < bannedUntil ∧ now < bannedUntil
  · rw [if_pos (by simp [hrunning.1, hrunning.2]), PeerRegistry.banPeer_eq hfind hvalid hrunning.1]
    rw [penalizedAt_lift (PeerRegistry.peer_setPeer _ _ _) ht
      (fun hfalse => (Bool.false_ne_true hfalse.symm).elim)]
    refine ⟨fun hstill => Or.inl ?_, fun hlater => ⟨rfl, Or.inr ?_⟩⟩
    · exact hstill.2.resolve_left (Int.not_le.mpr hrunning.1)
    · exact hlater.resolve_right (fun hover => absurd hover.1 (Int.not_le.mpr hrunning.2))
  rw [if_neg (by simp only [Bool.and_eq_true, decide_eq_true_eq, Bool.or_eq_true]; omega)]
  have hover : bannedUntil ≤ now := by omega
  by_cases hquarantine : mesh.shouldQuarantinePeer hashBytes nodeId = true
  · rw [if_pos hquarantine]
    have hpeer : (mesh.setRegistry (mesh.peerRegistry.quarantinePeer nodeId
        "Peer quarantine restored from persistent state.").2).peerRegistry.peer nodeId =
        some peer.quarantinedCopy := by
      unfold PeerRegistry.quarantinePeer setRegistry
      rw [show mesh.peerRegistry.peersByNodeId.find? nodeId = some peer from hfind]
      exact PeerRegistry.peer_setPeer _ _ _
    rw [penalizedAt_lift hpeer ht (fun hfalse => (Bool.false_ne_true hfalse.symm).elim)]
    exact ⟨fun _ => Or.inr ⟨hover, hquarantine⟩, fun _ => ⟨rfl, Or.inl (Int.le_of_eq hzero)⟩⟩
  rw [if_neg hquarantine]
  have hnot : ¬ (t < bannedUntil ∨ (bannedUntil ≤ now ∧
      mesh.shouldQuarantinePeer hashBytes nodeId = true)) := by
    rintro (hlater | ⟨-, hshould⟩)
    · omega
    · exact hquarantine hshould
  by_cases hexpired : (0 < bannedUntil && 0 < now && bannedUntil ≤ now) = true
  · rw [if_pos hexpired]
    simp only
    have hpeer : (mesh.setRegistry (mesh.peerRegistry.liftPeerPenalty nodeId now).2).peerRegistry.peer
        nodeId = some (peer.penaltyLiftedCopy now) := by
      unfold PeerRegistry.liftPeerPenalty setRegistry
      rw [show mesh.peerRegistry.peersByNodeId.find? nodeId = some peer from hfind]
      simp only
      rw [if_neg (Int.not_le.mpr hnow)]
      exact PeerRegistry.peer_setPeer _ _ _
    refine iff_of_false (fun hpenalized => ?_) hnot
    have hlifted : ∀ after : GossipMesh,
        after.peerRegistry.peer nodeId = some (peer.penaltyLiftedCopy now) →
        (after.liftExpiredPeerPenalties hashBytes t).2.penalizedAt nodeId t ≠ true :=
      fun after hafter hagain =>
        Bool.false_ne_true ((penalizedAt_lift hafter ht (fun _ => rfl)).mp hagain).1
    refine hlifted _ ?_ hpenalized
    exact hpeer
  · rw [if_neg hexpired]
    refine iff_of_false (fun hpenalized => ?_) hnot
    have hlifted := (penalizedAt_lift hfind ht (fun _ => hzero)).mp hpenalized
    rw [hfree] at hlifted
    exact Bool.false_ne_true hlifted.1

/-- **The peer after a restore and a lift.** -/
theorem restored_penalized_iff (hfresh : fresh.penalties = .none)
    (hfind : fresh.peerRegistry.peer nodeId = some peer) (hvalid : peer.isValid = true)
    (hfree : peer.quarantined = false) (hzero : peer.bannedUntil = 0)
    (invalidMessageCount escalationCount : Nat) (bannedUntil : Int) (banReason : String) (score : Int)
    (hnow : 0 < now) (hle : now ≤ t) :
    (((fresh.restorePeerPenaltyState hashBytes nodeId invalidMessageCount escalationCount bannedUntil
      banReason now score).2).liftExpiredPeerPenalties hashBytes t).2.penalizedAt nodeId t = true ↔
      t < bannedUntil ∨ (bannedUntil ≤ now ∧
        fresh.config.invalidMessageQuarantineThreshold ≤ invalidMessageCount) := by
  have hcontains : fresh.peerRegistry.contains nodeId = true :=
    (SortedMap.contains_iff _).mpr ⟨peer, hfind⟩
  unfold restorePeerPenaltyState
  rw [hcontains, Bool.not_true, if_neg Bool.false_ne_true, identityKeyForNodeId_some hfind]
  simp only
  set counted : GossipMesh := { fresh with
    penalties := fresh.restoreCounters (peer.identityKey hashBytes) invalidMessageCount escalationCount }
    with hcounted
  obtain ⟨scored, hscored, hq, hb, hv, hkey, hpenalties, hconfig⟩ :=
    @restoreScore_peer hashBytes counted _ _ hfind score
  rw [penalizedAt_restorePenalty hscored (hv.trans hvalid) (hq.trans hfree) (hb.trans hzero) bannedUntil
    banReason hnow hle, shouldQuarantinePeer_some hscored, hkey, hpenalties, hconfig]
  have hcount : countOf counted.penalties (peer.identityKey hashBytes) =
      min invalidMessageCount fresh.config.invalidMessageQuarantineThreshold := by
    rw [hcounted]
    unfold countOf restoreCounters maxInvalidTracking
    simp only
    rw [hfresh]
    simp only [PeerPenalties.none, List.erase_nil, List.drop_succ_cons, List.drop_nil, List.foldl_nil]
    rw [SortedMap.find?_insert_self]
    rfl
  rw [hcount, hcounted]
  simp only
  refine or_congr_right (and_congr_right (fun _ => ?_))
  omega

--
-- Bans across a restart
--

/-- A mesh whose peers are known and without penalty. -/
structure Unpenalized (hashBytes : String → String) (mesh : GossipMesh) : Prop where
  config : mesh.config.isValid = true
  filed : mesh.peerRegistry.Filed hashBytes
  counters : mesh.penalties = .none
  peers : ∀ {nodeId peer}, mesh.peerRegistry.peer nodeId = some peer →
    peer.isValid = true ∧ peer.quarantined = false ∧ peer.bannedUntil = 0

theorem Unpenalized.sound (h : Unpenalized hashBytes mesh) : Sound hashBytes mesh := by
  have hthreshold : 0 < mesh.config.invalidMessageQuarantineThreshold := by
    have hvalid := h.config
    unfold GossipMeshConfig.isValid at hvalid
    simp only [Bool.and_eq_true, decide_eq_true_eq] at hvalid
    exact hvalid.1.1.1.2
  refine ⟨hthreshold, h.filed, fun {nodeId peer} hfind => ?_⟩
  obtain ⟨hvalid, hfree, hzero⟩ := h.peers hfind
  refine ⟨hvalid, Or.inl ⟨hfree, hzero, ?_⟩⟩
  rw [h.counters]
  exact hthreshold

/-- **A restart changes no ban** exactly where it does not meet a ban that is over with a count
still at the threshold. A mesh that runs on lifts every ban in time. -/
theorem ban_survives_restart {start fresh : GossipMesh} (hstart : Unpenalized hashBytes start)
    (commands : List PeerCommand) (hpenal : ∀ command ∈ commands, Penal command)
    (hfind : (commands.foldl (performPeer hashBytes) start).peerRegistry.peer nodeId = some peer)
    (hconfig : fresh.config = start.config) (hfresh : fresh.penalties = .none)
    (hregistered : fresh.peerRegistry.peer nodeId = some peer') (hvalid : peer'.isValid = true)
    (hfree : peer'.quarantined = false) (hzero : peer'.bannedUntil = 0) (hnow : 0 < now) :
    ((∀ t, now ≤ t →
      ((((fresh.restoreSaved hashBytes (commands.foldl (performPeer hashBytes) start) nodeId peer
          now).liftExpiredPeerPenalties hashBytes t).2.penalizedAt nodeId t = true) ↔
        ((commands.foldl (performPeer hashBytes) start).liftExpiredPeerPenalties hashBytes
          t).2.penalizedAt nodeId t = true)) ↔
      ¬ (0 < peer.bannedUntil ∧ peer.bannedUntil ≤ now ∧
        start.config.invalidMessageQuarantineThreshold ≤
          (commands.foldl (performPeer hashBytes) start).invalidMessageCountForPeer hashBytes nodeId)) ∧
    ∀ t, 0 < t → peer.bannedUntil ≤ t →
      ((commands.foldl (performPeer hashBytes) start).liftExpiredPeerPenalties hashBytes
        t).2.penalizedAt nodeId t = false := by
  obtain ⟨hsound, hsame⟩ := hstart.sound.run commands hpenal
  set saved := commands.foldl (performPeer hashBytes) start with hsaved
  have hkept := (hsound.kept hfind).2
  rw [hsame] at hkept
  have hold : ∀ t, 0 < t → ((saved.liftExpiredPeerPenalties hashBytes t).2.penalizedAt nodeId t = true ↔
      t < peer.bannedUntil) := by
    intro t ht
    rw [penalizedAt_lift hfind ht (fun hq => by
      rcases hkept with hfree | hbanned
      · exact hfree.2.1
      · rw [hq] at hbanned
        exact absurd hbanned.1 Bool.false_ne_true)]
    rcases hkept with ⟨hq, hb, -⟩ | ⟨hq, hb⟩
    · rw [hq, hb]
      simp only [Bool.false_eq_true, false_and, false_iff]
      omega
    · rw [hq]
      simp only [true_and]
      omega
  have hcount : saved.invalidMessageCountForPeer hashBytes nodeId =
      countOf saved.penalties (peer.identityKey hashBytes) := by
    unfold invalidMessageCountForPeer countOf
    rw [identityKeyForNodeId_some hfind]
  have hnew : ∀ t, now ≤ t → ((((fresh.restoreSaved hashBytes saved nodeId peer
      now).liftExpiredPeerPenalties hashBytes t).2.penalizedAt nodeId t = true) ↔
      t < peer.bannedUntil ∨ (peer.bannedUntil ≤ now ∧
        start.config.invalidMessageQuarantineThreshold ≤
          saved.invalidMessageCountForPeer hashBytes nodeId)) := by
    intro t hle
    unfold restoreSaved
    rw [restored_penalized_iff hfresh hregistered hvalid hfree hzero _ _ _ _ _ hnow hle, hconfig]
  refine ⟨⟨fun hagree hover => ?_, fun hnot t hle => ?_⟩, fun t ht hover => ?_⟩
  · have hnowBoth := hagree now (Int.le_refl _)
    rw [hnew now (Int.le_refl _), hold now hnow] at hnowBoth
    have hrunning := hnowBoth.mp (Or.inr hover.2)
    omega
  · rw [hnew t hle, hold t (by omega)]
    refine or_iff_left (fun hquarantined => hnot ⟨?_, hquarantined⟩)
    -- A peer at liberty has a count below the threshold.
    rcases hkept with ⟨-, -, hbelow⟩ | ⟨-, hpos⟩
    · rw [hcount] at hquarantined
      exact absurd hquarantined.2 (Nat.not_le.mpr hbelow)
    · exact hpos
  · rw [Bool.eq_false_iff]
    intro hpenalized
    have hrunning := (hold t ht).mp hpenalized
    omega

--
-- A ban that ran out while the node was down
--

/-- A mesh that knows one peer; one invalid message is too many. -/
def oneGuest : GossipMesh :=
  guardedMesh.setRegistry (PeerRegistry.empty.registerPeer (fun text => text) (guest "p" "10.0.0.1")).2

/-- The peer is reported and banned until 70. -/
def reported : GossipMesh :=
  [.recordInvalidMessage "p" "bad" 10 .invalidMessage true].foldl (performPeer (fun text => text)) oneGuest

def reportedPeer : PeerMetadata :=
  { (guest "p" "10.0.0.1").withScoreDelta (-10) with quarantined := true, bannedUntil := 70, banReason := "bad" }

/-- The mesh that ran on lifts the ban at 100; the restarted one never does. -/
theorem ban_becomes_permanent :
    reported.peerRegistry.peer "p" = some reportedPeer ∧
      (reported.liftExpiredPeerPenalties (fun text => text) 100).2.penalizedAt "p" 100 = false ∧
      ((oneGuest.restoreSaved (fun text => text) reported "p" reportedPeer 100).liftExpiredPeerPenalties
        (fun text => text) 100).2.penalizedAt "p" 100 = true := by
  decide +kernel

theorem unpenalized_oneGuest : Unpenalized (fun text => text) oneGuest := by
  have hentries : ∀ {nodeId peer}, oneGuest.peerRegistry.peer nodeId = some peer →
      nodeId = "p" ∧ peer = guest "p" "10.0.0.1" := by
    intro nodeId peer hfind
    have hmem := oneGuest.peerRegistry.peersByNodeId.find?_eq_some_iff.mp hfind
    have hlist : oneGuest.peerRegistry.peersByNodeId.entries = [("p", guest "p" "10.0.0.1")] := by
      decide +kernel
    rw [hlist, List.mem_singleton] at hmem
    exact Prod.mk.inj hmem
  have howner : oneGuest.peerRegistry.nodeIdByIdentityKey.find?
      ((guest "p" "10.0.0.1").identityKey (fun text => text)) = some "p" := by decide +kernel
  refine ⟨by decide +kernel, ⟨fun nodeId peer hfind => ?_, fun nodeId peer hfind => ?_⟩, rfl,
    fun {nodeId peer} hfind => ?_⟩
  · obtain ⟨rfl, rfl⟩ := hentries hfind
    rfl
  · obtain ⟨rfl, rfl⟩ := hentries hfind
    exact howner
  · obtain ⟨-, rfl⟩ := hentries hfind
    exact ⟨by decide +kernel, rfl, rfl⟩

/-- The mesh that ran on is free of the ban when it is over. -/
theorem ban_survives_restart_reported :
    (reported.liftExpiredPeerPenalties (fun text => text) 70).2.penalizedAt "p" 70 = false := by
  have hguest : oneGuest.peerRegistry.peer "p" = some (guest "p" "10.0.0.1") := by decide +kernel
  have hreported : reported.peerRegistry.peer "p" = some reportedPeer := by decide +kernel
  have hcommands : ∀ command ∈ [PeerCommand.recordInvalidMessage "p" "bad" 10 .invalidMessage true],
      Penal command := by
    intro command hin
    rw [List.mem_singleton.mp hin]
    exact (by decide : (0 : Int) < 10)
  exact (ban_survives_restart unpenalized_oneGuest _ hcommands hreported (show oneGuest.config = _ from rfl)
    rfl hguest (by decide +kernel) rfl rfl (by decide : (0 : Int) < 20)).2 70 (by decide)
    (show (70 : Int) ≤ 70 from le_refl 70)

end GossipMesh

end Nodo.Model
