import Nodo.Lib.Guards
import Nodo.Lib.SplitTree
import Nodo.Lib.Text
import Mathlib.Data.List.Nodup

/-!
# Nodo — the Merkle tree of the v1 format

`serialization/V1MerkleTree.cpp`: an ordered tree whose root commits to the number of leaves.
Bytes are `UInt8`. The hash is a parameter: SHA-256 of a domain and bytes. A digest is 32 bytes
long, which the code uses in one place only, where two digests stand side by side.

Proofs for many indices are built in one recursion that hands the pending ones down and appends
siblings on its way up; a verifier takes them from the other end.

## Results

* `buildWithProofs_spec` — the one recursion appends to every pending proof its own path.
* `prove_eq` — the proofs of a list of indices, repeated or not.
* `verify_prove` — each of them verifies.
* `verify_sound` — only they verify, if the hash has no collisions.
* `v1_merkle_proofs` — both.
-/

namespace Nodo.Model

open SplitTree

/-- `V1EncodingPrimitives::hash` and the bytes of a digest. -/
structure V1Hash (δ : Type) where
  digest : String → List UInt8 → δ
  bytes : δ → List UInt8

/-- The hash has no collisions, and two digests side by side can be told apart, as 32 bytes can
from the 32 after them. -/
structure V1Hash.Ideal {δ : Type} (H : V1Hash δ) : Prop where
  injective : ∀ domain domain' bytes bytes', H.digest domain bytes = H.digest domain' bytes' →
    domain = domain' ∧ bytes = bytes'
  splits : ∀ a b c d : δ, H.bytes a ++ H.bytes b = H.bytes c ++ H.bytes d → a = c ∧ b = d

/-- `CanonicalWriter::writeUInt32`. -/
def writeUInt32Bytes (value : Nat) : List UInt8 :=
  [24, 16, 8, 0].map fun shift => (value / 2 ^ shift % 256).toUInt8

namespace V1MerkleTree

/-- `kMaxLeaves`, which is `V1EncodingPrimitives::kMaxListElements`. -/
def kMaxLeaves : Nat := 1048576

def kMaxProofSiblings : Nat := 64

/-- The most bytes one call of the hash takes. -/
def kMaxFrameBytes : Nat := 5 * 1024 * 1024

structure InclusionProof (δ : Type) where
  leafIndex : Nat
  treeSize : Nat
  siblings : List δ
  deriving DecidableEq

structure PendingProof where
  index : Nat
  slot : Nat

def isAllowedKind (kind : String) : Bool :=
  kind == "tx" || kind == "receipt" || kind == "evidence" || kind == "state" || kind == "archive"
    || kind == "archive-index" || kind == "snapshot-chunk"

variable {δ : Type} (H : V1Hash δ) (kind : String)

/-- The 64 bytes of two digests are always short enough for the hash. -/
def nodeHash (left right : δ) : δ :=
  H.digest ("MERKLE-NODE/" ++ kind) (H.bytes left ++ H.bytes right)

def countedRoot (count : Nat) (treeHash : δ) : δ :=
  H.digest ("MERKLE-ROOT/" ++ kind) (writeUInt32Bytes count ++ H.bytes treeHash)

/-- What no tree holds; `subtree` is not called without leaves. -/
def noLeaf : δ := H.digest "" []

/-- The subtree over the leaves from `begin` to `end`. -/
def subtree (leaves : List δ) : δ := root (nodeHash H kind) (noLeaf H) leaves

/-- `proofs[item.slot].siblings.push_back(sibling)`. -/
def pushSibling (sibling : δ) (proofs : List (InclusionProof δ)) (item : PendingProof) :
    List (InclusionProof δ) :=
  proofs.modify item.slot fun proof => { proof with siblings := proof.siblings ++ [sibling] }

/-- The recursion over the leaves from `start` on, with the proofs that lie among them. -/
def buildWithProofs (leaves : List δ) (start : Nat) (pending : List PendingProof)
    (proofs : List (InclusionProof δ)) : δ × List (InclusionProof δ) :=
  if pending.isEmpty then (subtree H kind leaves, proofs)
  else if 2 ≤ leaves.length then
    let middle := start + splitPoint leaves.length
    let left := pending.filter fun item => item.index < middle
    let right := pending.filter fun item => !(item.index < middle)
    let (leftHash, proofs) :=
      buildWithProofs (leaves.take (splitPoint leaves.length)) start left proofs
    let (rightHash, proofs) :=
      buildWithProofs (leaves.drop (splitPoint leaves.length)) middle right proofs
    (nodeHash H kind leftHash rightHash,
      right.foldl (pushSibling leftHash) (left.foldl (pushSibling rightHash) proofs))
  else (leaves.headD (noLeaf H), proofs)
termination_by leaves.length
decreasing_by
  · have hlt := splitPoint_lt ‹2 ≤ leaves.length›
    rw [List.length_take]
    omega
  · have hpos := splitPoint_pos ‹2 ≤ leaves.length›
    rw [List.length_drop]
    omega

def leafHash (index : Nat) (element : List UInt8) : Except String δ :=
  if index ≥ kMaxLeaves then .error "V1 Merkle leaf index exceeds the leaf limit."
  else if !isAllowedKind kind then .error "Unknown v1 Merkle kind."
  else if 4 + element.length > kMaxFrameBytes then
    .error "Invalid v1 hash domain or input length."
  else .ok (H.digest ("MERKLE-LEAF/" ++ kind) (writeUInt32Bytes index ++ element))

/-- The loop of `root` over the elements from `index` on. -/
def leafHashes : Nat → List (List UInt8) → Except String (List δ)
  | _, [] => .ok []
  | index, element :: rest => do
    let leaf ← leafHash H kind index element
    let leaves ← leafHashes (index + 1) rest
    .ok (leaf :: leaves)

def rootFromLeafHashes (leaves : List δ) : Except String δ :=
  if leaves.length > kMaxLeaves then .error "V1 Merkle tree exceeds its leaf count limit."
  else if !isAllowedKind kind then .error "Unknown v1 Merkle kind."
  else if leaves.isEmpty then .ok (H.digest ("MERKLE-EMPTY/" ++ kind) [])
  else .ok (countedRoot H kind leaves.length (subtree H kind leaves))

/-- `V1MerkleTree::root`. -/
def rootOf (elements : List (List UInt8)) : Except String δ :=
  if elements.length > kMaxLeaves then .error "V1 Merkle tree exceeds its leaf count limit."
  else do
    let leaves ← leafHashes H kind 0 elements
    rootFromLeafHashes H kind leaves

def prove (leaves : List δ) (indices : List Nat) : Except String (List (InclusionProof δ)) :=
  if !isAllowedKind kind then .error "Unknown v1 Merkle kind."
  else if leaves.isEmpty || leaves.length > kMaxLeaves then
    .error "V1 Merkle proof requires a bounded tree."
  else if indices.any (leaves.length ≤ ·) then
    .error "V1 Merkle proof index is outside the tree."
  else .ok (buildWithProofs H kind leaves 0 (indices.mapIdx fun slot index => ⟨index, slot⟩)
    (indices.map fun index => ⟨index, leaves.length, []⟩)).2

variable [DecidableEq δ]

/-- The siblings are taken from the last one on. -/
def verifyLeafHash (expectedRoot : δ) (proof : InclusionProof δ) (leafHashValue : δ) : Bool :=
  if !isAllowedKind kind || proof.treeSize == 0 || proof.treeSize > kMaxLeaves
      || proof.leafIndex ≥ proof.treeSize || proof.siblings.length > kMaxProofSiblings then false
  else match rebuild (nodeHash H kind) leafHashValue proof.treeSize proof.leafIndex
      proof.siblings.reverse with
    | some (treeHash, []) => countedRoot H kind proof.treeSize treeHash = expectedRoot
    | _ => false

def verify (expectedRoot : δ) (proof : InclusionProof δ) (element : List UInt8) : Bool :=
  if proof.treeSize == 0 || proof.treeSize > kMaxLeaves || proof.leafIndex ≥ proof.treeSize then
    false
  else match leafHash H kind proof.leafIndex element with
    | .error _ => false
    | .ok leaf => verifyLeafHash H kind expectedRoot proof leaf

end V1MerkleTree

--
-- Proofs for many indices
--

namespace V1MerkleTree

variable {δ : Type} {H : V1Hash δ} {kind : String}

/-- More siblings above those a proof has. -/
def InclusionProof.extend (proof : InclusionProof δ) (above : List δ) : InclusionProof δ :=
  { proof with siblings := proof.siblings ++ above }

/-- Each pending proof got what is added for it, and the others stayed. -/
structure Extended (proofs proofs' : List (InclusionProof δ)) (pending : List PendingProof)
    (added : PendingProof → List δ) : Prop where
  own : ∀ item ∈ pending, proofs'[item.slot]? = proofs[item.slot]?.map (·.extend (added item))
  others : ∀ slot, (∀ item ∈ pending, item.slot ≠ slot) → proofs'[slot]? = proofs[slot]?

theorem extended_nil (proofs : List (InclusionProof δ)) (added : PendingProof → List δ) :
    Extended proofs proofs [] added :=
  ⟨fun _ hitem => (nomatch hitem), fun _ _ => rfl⟩

/-- Nothing is added where a subtree is a leaf. -/
theorem extended_none (proofs : List (InclusionProof δ)) {pending : List PendingProof}
    {added : PendingProof → List δ} (h : ∀ item ∈ pending, added item = []) :
    Extended proofs proofs pending added := by
  refine ⟨fun item hitem => ?_, fun _ _ => rfl⟩
  rw [h item hitem]
  cases proofs[item.slot]? with
  | none => rfl
  | some proof =>
    show some proof = some { proof with siblings := proof.siblings ++ [] }
    rw [List.append_nil]

/-- One loop of `push_back`; every slot is pending once. -/
theorem extended_push (sibling : δ) (pending : List PendingProof) :
    ∀ proofs : List (InclusionProof δ), (pending.map PendingProof.slot).Nodup →
      Extended proofs (pending.foldl (pushSibling sibling) proofs) pending fun _ => [sibling] := by
  induction pending with
  | nil =>
    intro proofs _
    exact extended_nil proofs _
  | cons item rest ih =>
    intro proofs hnodup
    rw [List.map_cons, List.nodup_cons] at hnodup
    obtain ⟨hfresh, hnodup⟩ := hnodup
    have hfresh' : ∀ other ∈ rest, other.slot ≠ item.slot := fun other hother heq =>
      hfresh (heq ▸ List.mem_map_of_mem hother)
    have hrest := ih (pushSibling sibling proofs item) hnodup
    have hpushed : ∀ slot, (pushSibling sibling proofs item)[slot]?
        = if item.slot = slot then proofs[slot]?.map (·.extend [sibling]) else proofs[slot]? := by
      intro slot
      unfold pushSibling
      rw [List.getElem?_modify]
      by_cases hslot : item.slot = slot
      · simp only [if_pos hslot]
        rfl
      · simp only [if_neg hslot]
        exact Option.map_id'
    rw [List.foldl_cons]
    refine ⟨fun other hother => ?_, fun slot hslot => ?_⟩
    · obtain rfl | hother := List.mem_cons.mp hother
      · rw [hrest.others _ hfresh', hpushed, if_pos rfl]
      · rw [hrest.own other hother, hpushed, if_neg (hfresh' other hother).symm]
    · rw [hrest.others slot fun other hother => hslot other (List.mem_cons_of_mem _ hother),
        hpushed, if_neg (hslot item List.mem_cons_self)]

theorem extend_extend (proof : InclusionProof δ) (above higher : List δ) :
    (proof.extend above).extend higher = proof.extend (above ++ higher) := by
  unfold InclusionProof.extend
  rw [List.append_assoc]

/-- The additions to two halves do not meet, whatever their order. -/
theorem extended_halves {p : PendingProof → Bool} {pending : List PendingProof}
    {built built' pushed pushed' proofs : List (InclusionProof δ)}
    {below below' : PendingProof → List δ} {sibling sibling' : δ}
    (hnodup : (pending.map PendingProof.slot).Nodup)
    (hbuilt : Extended proofs built (pending.filter p) below)
    (hbuilt' : Extended built built' (pending.filter fun item => !p item) below')
    (hpushed : Extended built' pushed (pending.filter p) fun _ => [sibling])
    (hpushed' : Extended pushed pushed' (pending.filter fun item => !p item) fun _ => [sibling']) :
    Extended proofs pushed' pending fun item =>
      if p item then below item ++ [sibling] else below' item ++ [sibling'] := by
  have hunique : ∀ item ∈ pending, ∀ other ∈ pending, other.slot = item.slot → other = item :=
    fun item hitem other hother heq => List.inj_on_of_nodup_map hnodup hother hitem heq
  refine ⟨fun item hitem => ?_, fun slot hslot => ?_⟩
  · cases hside : p item with
    | true =>
      have hown := List.mem_filter.mpr ⟨hitem, hside⟩
      have hother : ∀ other ∈ pending.filter fun item => !p item, other.slot ≠ item.slot := by
        intro other hother heq
        obtain ⟨hmem, hother⟩ := List.mem_filter.mp hother
        rw [hunique item hitem other hmem heq, hside] at hother
        cases hother
      rw [hpushed'.others _ hother, hpushed.own item hown, hbuilt'.others _ hother,
        hbuilt.own item hown, Option.map_map, if_pos rfl]
      congr 1
      funext proof
      exact extend_extend proof _ _
    | false =>
      have hown : item ∈ pending.filter fun item => !p item :=
        List.mem_filter.mpr ⟨hitem, by rw [hside]; rfl⟩
      have hother : ∀ other ∈ pending.filter p, other.slot ≠ item.slot := by
        intro other hother heq
        obtain ⟨hmem, hother⟩ := List.mem_filter.mp hother
        rw [hunique item hitem other hmem heq, hside] at hother
        cases hother
      rw [hpushed'.own item hown, hpushed.others _ hother, hbuilt'.own item hown,
        hbuilt.others _ hother, Option.map_map, if_neg Bool.false_ne_true]
      congr 1
      funext proof
      exact extend_extend proof _ _
  · have hoff : ∀ q : PendingProof → Bool, ∀ item ∈ pending.filter q, item.slot ≠ slot :=
      fun q item hitem => hslot item (List.mem_filter.mp hitem).1
    rw [hpushed'.others slot (hoff _), hpushed.others slot (hoff _), hbuilt'.others slot (hoff _),
      hbuilt.others slot (hoff _)]

/-- **The recursion** gives the root of its leaves and appends to every pending proof the path of
its index among them. -/
theorem buildWithProofs_spec (leaves : List δ) :
    ∀ (start : Nat) (pending : List PendingProof) (proofs : List (InclusionProof δ)),
      (pending.map PendingProof.slot).Nodup →
      (buildWithProofs H kind leaves start pending proofs).1 = subtree H kind leaves ∧
      Extended proofs (buildWithProofs H kind leaves start pending proofs).2 pending
        fun item => path (nodeHash H kind) (noLeaf H) leaves (item.index - start) := by
  induction leaves using root.induct with
  | case1 leaves hsplit ihleft ihright =>
    intro start pending proofs hnodup
    rw [buildWithProofs]
    cases hempty : pending.isEmpty with
    | true =>
      rw [List.isEmpty_iff.mp hempty, if_pos rfl]
      exact ⟨rfl, extended_nil proofs _⟩
    | false =>
      rw [if_neg Bool.false_ne_true, if_pos hsplit]
      have hsub : ∀ p : PendingProof → Bool, ((pending.filter p).map PendingProof.slot).Nodup :=
        fun p => hnodup.sublist (List.filter_sublist.map _)
      obtain ⟨hleft, hleft'⟩ := ihleft start
        (pending.filter fun item => item.index < start + splitPoint leaves.length) proofs (hsub _)
      obtain ⟨hright, hright'⟩ := ihright (start + splitPoint leaves.length)
        (pending.filter fun item => !(item.index < start + splitPoint leaves.length))
        (buildWithProofs H kind (leaves.take (splitPoint leaves.length)) start
          (pending.filter fun item => item.index < start + splitPoint leaves.length) proofs).2
        (hsub _)
      have hhalves := extended_halves hnodup hleft' hright'
        (extended_push (subtree H kind (leaves.drop (splitPoint leaves.length))) _ _ (hsub _))
        (extended_push (subtree H kind (leaves.take (splitPoint leaves.length))) _ _ (hsub _))
      simp only [hleft, hright]
      refine ⟨(root_split hsplit).symm, fun item hitem => ?_, hhalves.others⟩
      rw [hhalves.own item hitem]
      have hpos := splitPoint_pos hsplit
      by_cases hside : item.index < start + splitPoint leaves.length
      · rw [if_pos (decide_eq_true hside), path_left hsplit (by omega)]
        rfl
      · rw [if_neg (by simpa using hside), path_right hsplit (by omega), Nat.sub_add_eq]
        rfl
  | case2 leaves hsplit =>
    intro start pending proofs hnodup
    rw [buildWithProofs]
    have hnone : ∀ item ∈ pending,
        path (nodeHash H kind) (noLeaf H) leaves (item.index - start) = [] :=
      fun item _ => path_single hsplit _
    cases pending.isEmpty with
    | true =>
      rw [if_pos rfl]
      exact ⟨rfl, extended_none proofs hnone⟩
    | false =>
      rw [if_neg Bool.false_ne_true, if_neg hsplit]
      exact ⟨(root_single hsplit).symm, extended_none proofs hnone⟩

end V1MerkleTree

namespace V1MerkleTree

section Prove

variable {δ : Type} {H : V1Hash δ} {kind : String} {leaves : List δ}

/-- The proofs that `prove` starts with. -/
def pendingProofs (indices : List Nat) : List PendingProof :=
  indices.mapIdx fun slot index => ⟨index, slot⟩

theorem mem_pendingProofs {indices : List Nat} {item : PendingProof} :
    item ∈ pendingProofs indices ↔ indices[item.slot]? = some item.index := by
  unfold pendingProofs
  rw [List.mem_mapIdx]
  constructor
  · rintro ⟨slot, hslot, rfl⟩
    exact List.getElem?_eq_getElem hslot
  · intro h
    obtain ⟨hslot, hindex⟩ := List.getElem?_eq_some_iff.mp h
    refine ⟨item.slot, hslot, ?_⟩
    rw [hindex]

theorem pendingProofs_nodup (indices : List Nat) :
    ((pendingProofs indices).map PendingProof.slot).Nodup := by
  have hslots : (pendingProofs indices).map PendingProof.slot = List.range indices.length := by
    refine List.ext_getElem? (fun slot => ?_)
    unfold pendingProofs
    rw [List.getElem?_map, List.getElem?_mapIdx, Option.map_map]
    by_cases hslot : slot < indices.length
    · rw [List.getElem?_eq_getElem hslot, List.getElem?_range hslot]
      rfl
    · rw [List.getElem?_eq_none (not_lt.mp hslot),
        List.getElem?_eq_none (by rw [List.length_range]; exact not_lt.mp hslot)]
      rfl
  rw [hslots]
  exact List.nodup_range

/-- **The proofs of a list of indices**: the path of each, whether it is repeated or not. -/
theorem prove_eq (hkind : isAllowedKind kind = true) (hne : leaves ≠ [])
    (hlimit : leaves.length ≤ kMaxLeaves) {indices : List Nat}
    (hindices : ∀ index ∈ indices, index < leaves.length) :
    prove H kind leaves indices = .ok (indices.map fun index =>
      ⟨index, leaves.length, path (nodeHash H kind) (noLeaf H) leaves index⟩) := by
  have hany : indices.any (leaves.length ≤ ·) = false := by
    rw [List.any_eq_false]
    intro index hindex
    have hlt := hindices index hindex
    simpa using hlt
  obtain ⟨-, hextended⟩ := @buildWithProofs_spec δ H kind leaves 0 (pendingProofs indices)
    (indices.map fun index => ⟨index, leaves.length, []⟩) (pendingProofs_nodup indices)
  unfold prove
  rw [hkind, hany, if_neg (by simp), if_neg (by simp [hne, not_lt.mpr hlimit]), if_neg (by simp)]
  refine congrArg Except.ok (List.ext_getElem? (fun slot => ?_))
  rw [List.getElem?_map]
  cases hslot : indices[slot]? with
  | none =>
    have hother := hextended.others slot (fun item hitem heq => by
      rw [mem_pendingProofs, heq, hslot] at hitem
      cases hitem)
    rw [List.getElem?_map, hslot] at hother
    exact hother
  | some index =>
    have hown := hextended.own ⟨index, slot⟩ (mem_pendingProofs.mpr hslot)
    rw [List.getElem?_map, hslot] at hown
    exact hown

end Prove

section Leaves

variable {δ : Type} {H : V1Hash δ} {kind : String}

theorem leafHash_ok {index : Nat} {element : List UInt8} {leaf : δ}
    (h : leafHash H kind index element = .ok leaf) :
    leaf = H.digest ("MERKLE-LEAF/" ++ kind) (writeUInt32Bytes index ++ element) ∧
      4 + element.length ≤ kMaxFrameBytes := by
  unfold leafHash at h
  obtain ⟨-, h⟩ := Guards.ok_of_ite_error h
  obtain ⟨-, h⟩ := Guards.ok_of_ite_error h
  obtain ⟨hbytes, h⟩ := Guards.ok_of_ite_error h
  exact ⟨(Except.ok.inj h).symm, not_lt.mp hbytes⟩

/-- The leaves of elements: each is the hash of the element at its index. -/
theorem leafHashes_ok {start : Nat} {elements : List (List UInt8)} {leaves : List δ}
    (h : leafHashes H kind start elements = .ok leaves) :
    leaves.length = elements.length ∧
    (∀ element ∈ elements, 4 + element.length ≤ kMaxFrameBytes) ∧ ∀ index : Nat,
      leaves[index]? = elements[index]?.map fun element =>
        H.digest ("MERKLE-LEAF/" ++ kind) (writeUInt32Bytes (start + index) ++ element) := by
  induction elements generalizing start leaves with
  | nil =>
    cases h
    exact ⟨rfl, fun _ helement => (nomatch helement), fun _ => rfl⟩
  | cons element rest ih =>
    obtain ⟨leaf, hleaf, h⟩ := Guards.ok_of_bind h
    obtain ⟨tail, htail, h⟩ := Guards.ok_of_bind h
    cases h
    obtain ⟨hlength, hbytes, hget⟩ := ih htail
    obtain ⟨hdigest, hfits⟩ := leafHash_ok hleaf
    refine ⟨by rw [List.length_cons, List.length_cons, hlength], ?_, fun index => ?_⟩
    · intro other hother
      obtain rfl | hother := List.mem_cons.mp hother
      · exact hfits
      · exact hbytes other hother
    cases index with
    | zero => exact congrArg some hdigest
    | succ index =>
      rw [List.getElem?_cons_succ, List.getElem?_cons_succ, hget index, Nat.add_assoc,
        Nat.add_comm 1 index]

/-- Elements within the limits have leaves. -/
theorem leafHashes_total (hkind : isAllowedKind kind = true) {start : Nat}
    {elements : List (List UInt8)} (hlimit : start + elements.length ≤ kMaxLeaves)
    (hbytes : ∀ element ∈ elements, 4 + element.length ≤ kMaxFrameBytes) :
    ∃ leaves, leafHashes H kind start elements = .ok leaves := by
  induction elements generalizing start with
  | nil => exact ⟨[], rfl⟩
  | cons element rest ih =>
    rw [List.length_cons] at hlimit
    obtain ⟨tail, htail⟩ := @ih (start + 1) (by omega)
      fun element helement => hbytes element (List.mem_cons_of_mem _ helement)
    have hfits := hbytes element List.mem_cons_self
    have hleaf : leafHash H kind start element
        = .ok (H.digest ("MERKLE-LEAF/" ++ kind) (writeUInt32Bytes start ++ element)) := by
      unfold leafHash
      rw [if_neg (by omega), hkind, if_neg (by simp), if_neg (by omega)]
    refine ⟨H.digest ("MERKLE-LEAF/" ++ kind) (writeUInt32Bytes start ++ element) :: tail, ?_⟩
    unfold leafHashes
    rw [hleaf, htail]
    rfl

/-- Four bytes tell counts below `2 ^ 32` apart. -/
theorem writeUInt32Bytes_inj {a b : Nat} (ha : a < 2 ^ 32) (hb : b < 2 ^ 32)
    (h : writeUInt32Bytes a = writeUInt32Bytes b) : a = b := by
  have hbyte : ∀ n : Nat, (n % 256).toUInt8.toNat = n % 256 := by
    intro n
    rw [Nat.toUInt8_eq, UInt8.toNat_ofNat']
    omega
  have hnats := congrArg (List.map UInt8.toNat) h
  simp only [writeUInt32Bytes, List.map_cons, List.map_nil, hbyte, List.cons.injEq, and_true]
    at hnats
  obtain ⟨h3, h2, h1, h0⟩ := hnats
  omega

end Leaves

end V1MerkleTree

--
-- Verification
--

namespace V1MerkleTree

variable {δ : Type} {H : V1Hash δ} {kind : String}

/-- What `rootOf` went through. -/
theorem rootOf_ok {elements : List (List UInt8)} {expectedRoot : δ}
    (h : rootOf H kind elements = .ok expectedRoot) :
    ∃ leaves, leafHashes H kind 0 elements = .ok leaves ∧ leaves.length = elements.length ∧
      leaves.length ≤ kMaxLeaves ∧ isAllowedKind kind = true ∧
      expectedRoot = if leaves.isEmpty then H.digest ("MERKLE-EMPTY/" ++ kind) []
        else countedRoot H kind leaves.length (subtree H kind leaves) := by
  unfold rootOf at h
  obtain ⟨-, h⟩ := Guards.ok_of_ite_error h
  obtain ⟨leaves, hleaves, h⟩ := Guards.ok_of_bind h
  unfold rootFromLeafHashes at h
  obtain ⟨hlimit, h⟩ := Guards.ok_of_ite_error h
  obtain ⟨hkind, h⟩ := Guards.ok_of_ite_error h
  refine ⟨leaves, hleaves, (leafHashes_ok hleaves).1, not_lt.mp hlimit, by simpa using hkind, ?_⟩
  cases hempty : leaves.isEmpty with
  | true =>
    rw [hempty, if_pos rfl] at h
    rw [if_pos rfl]
    exact (Except.ok.inj h).symm
  | false =>
    rw [hempty, if_neg Bool.false_ne_true] at h
    rw [if_neg Bool.false_ne_true]
    exact (Except.ok.inj h).symm

/-- Nodes of an ideal hash are injective. -/
theorem nodeHash_injective2 (hideal : H.Ideal) : Function.Injective2 (nodeHash H kind) := by
  intro a c b d h
  exact hideal.splits a b c d (hideal.injective _ _ _ _ h).2

/-- A counted root tells the count and the tree. -/
theorem countedRoot_inj (hideal : H.Ideal) {count count' : Nat} {treeHash treeHash' : δ}
    (hcount : count < 2 ^ 32) (hcount' : count' < 2 ^ 32)
    (h : countedRoot H kind count treeHash = countedRoot H kind count' treeHash') :
    count = count' ∧ treeHash = treeHash' := by
  obtain ⟨-, hbytes⟩ := hideal.injective _ _ _ _ h
  obtain ⟨hwritten, htree⟩ := List.append_inj hbytes rfl
  refine ⟨writeUInt32Bytes_inj hcount hcount' hwritten, ?_⟩
  exact (hideal.splits treeHash treeHash treeHash' treeHash' (by rw [htree])).1

variable [DecidableEq δ]

/-- **Every proof verifies** for its own element. -/
theorem verify_prove {elements : List (List UInt8)} {leaves : List δ} {expectedRoot : δ}
    (hleaves : leafHashes H kind 0 elements = .ok leaves)
    (hroot : rootOf H kind elements = .ok expectedRoot) {index : Nat} {element : List UInt8}
    (helement : elements[index]? = some element) :
    verify H kind expectedRoot
      ⟨index, leaves.length, path (nodeHash H kind) (noLeaf H) leaves index⟩ element = true := by
  obtain ⟨leaves', hleaves', hlength, hlimit, hkind, hvalue⟩ := rootOf_ok hroot
  rw [hleaves] at hleaves'
  cases hleaves'
  obtain ⟨hlt, -⟩ := List.getElem?_eq_some_iff.mp helement
  have hpos : 0 < leaves.length := by omega
  have hne : leaves.isEmpty = false := by
    rw [List.isEmpty_eq_false_iff]
    exact List.ne_nil_of_length_pos hpos
  rw [hne, if_neg Bool.false_ne_true] at hvalue
  obtain ⟨-, hfits, hget⟩ := leafHashes_ok hleaves
  have hbytes := hfits element (List.mem_of_getElem? helement)
  have hleaf := hget index
  rw [helement, Nat.zero_add, Option.map_some] at hleaf
  have hrebuild : rebuild (nodeHash H kind)
      (H.digest ("MERKLE-LEAF/" ++ kind) (writeUInt32Bytes index ++ element)) leaves.length index
      ((path (nodeHash H kind) (noLeaf H) leaves index).reverse ++ [])
        = some (subtree H kind leaves, []) := rebuild_path leaves index _ [] hleaf
  rw [List.append_nil] at hrebuild
  have hdepth : (path (nodeHash H kind) (noLeaf H) leaves index).length ≤ 20 :=
    length_path_le leaves 20 index hlimit
  have hsiblings : ¬ (path (nodeHash H kind) (noLeaf H) leaves index).length > kMaxProofSiblings :=
    not_lt.mpr (hdepth.trans (by decide))
  have hhash : leafHash H kind index element
      = .ok (H.digest ("MERKLE-LEAF/" ++ kind) (writeUInt32Bytes index ++ element)) := by
    unfold leafHash
    rw [if_neg (by omega), hkind, if_neg (by simp), if_neg (by omega)]
  have hbounds : (leaves.length == 0 || decide (leaves.length > kMaxLeaves)
      || decide (index ≥ leaves.length)) = false := by
    rw [beq_false_of_ne (by omega), decide_eq_false (not_lt.mpr hlimit),
      decide_eq_false (by omega)]
    rfl
  have hchecks : (!isAllowedKind kind || leaves.length == 0 || decide (leaves.length > kMaxLeaves)
      || decide (index ≥ leaves.length) || decide ((path (nodeHash H kind) (noLeaf H) leaves
        index).length > kMaxProofSiblings)) = false := by
    rw [hkind, Bool.not_true, Bool.false_or, hbounds, decide_eq_false hsiblings]
    rfl
  unfold verify
  simp only [hbounds, hhash]
  unfold verifyLeafHash
  simp only [hchecks, hrebuild, hvalue]
  simp

/-- **Only the proofs of the elements verify.** -/
theorem verify_sound (hideal : H.Ideal) {elements : List (List UInt8)} {expectedRoot : δ}
    (hroot : rootOf H kind elements = .ok expectedRoot) {proof : InclusionProof δ}
    {element : List UInt8} (hverify : verify H kind expectedRoot proof element = true) :
    proof.treeSize = elements.length ∧ elements[proof.leafIndex]? = some element ∧
      ∃ leaves, leafHashes H kind 0 elements = .ok leaves ∧
        prove H kind leaves [proof.leafIndex] = .ok [proof] := by
  obtain ⟨leaves, hleaves, hlength, hlimit, hkind, hvalue⟩ := rootOf_ok hroot
  unfold verify at hverify
  obtain ⟨hbounds, hverify⟩ := Guards.true_of_ite_false hverify
  have hbounds : proof.treeSize ≠ 0 ∧ proof.treeSize ≤ kMaxLeaves
      ∧ proof.leafIndex < proof.treeSize := by
    simpa [and_assoc] using hbounds
  obtain ⟨-, hsize, hindex⟩ := hbounds
  cases hleaf : leafHash H kind proof.leafIndex element with
  | error message =>
    rw [hleaf] at hverify
    cases hverify
  | ok leaf =>
    rw [hleaf] at hverify
    unfold verifyLeafHash at hverify
    obtain ⟨-, hverify⟩ := Guards.true_of_ite_false hverify
    cases hrebuild : rebuild (nodeHash H kind) leaf proof.treeSize proof.leafIndex
        proof.siblings.reverse with
    | none =>
      rw [hrebuild] at hverify
      cases hverify
    | some rebuilt =>
      obtain ⟨treeHash, remaining⟩ := rebuilt
      rw [hrebuild] at hverify
      cases remaining with
      | cons sibling rest => cases hverify
      | nil =>
        have hcounted := of_decide_eq_true hverify
        cases hempty : leaves.isEmpty with
        | true =>
          -- the root without leaves is of another domain
          rw [hempty, if_pos rfl] at hvalue
          rw [hvalue] at hcounted
          have hdomain := congrArg String.toList (hideal.injective _ _ _ _ hcounted).1
          simp only [String.toList_append] at hdomain
          have hlabel := (List.append_inj' hdomain rfl).1
          exact absurd hlabel (by decide)
        | false =>
          rw [hempty, if_neg Bool.false_ne_true] at hvalue
          rw [hvalue] at hcounted
          obtain ⟨hcount, htree⟩ := countedRoot_inj hideal (by unfold kMaxLeaves at hsize; omega)
            (by unfold kMaxLeaves at hlimit; omega) hcounted
          rw [hcount, htree] at hrebuild
          rw [hcount] at hindex
          obtain ⟨hget, hsiblings⟩ := rebuild_eq_root (nodeHash_injective2 hideal) leaves _ _ _ _
            hindex hrebuild
          have hmapped := (leafHashes_ok hleaves).2.2 proof.leafIndex
          rw [hget, Nat.zero_add] at hmapped
          obtain ⟨element', helement, hdigest⟩ := Option.map_eq_some_iff.mp hmapped.symm
          rw [(leafHash_ok hleaf).1] at hdigest
          have hsame : element' = element :=
            List.append_cancel_left (hideal.injective _ _ _ _ hdigest).2
          refine ⟨hcount.trans hlength, by rw [helement, hsame], leaves, hleaves, ?_⟩
          rw [prove_eq hkind (by rw [← List.isEmpty_eq_false_iff]; exact hempty) hlimit
            (by simpa using hindex)]
          rw [List.append_nil, List.reverse_inj] at hsiblings
          rw [List.map_singleton, ← hsiblings, ← hcount]

end V1MerkleTree

namespace V1MerkleTree

/-- **Proofs are complete and sound.** For elements within the limits and any list of indices,
repeated or in any order, every proof that `prove` returns verifies for its element; and whatever
verifies against the root of a list is the proof that `prove` returns for one of its elements. -/
theorem v1_merkle_proofs {δ : Type} [DecidableEq δ] {H : V1Hash δ} (hideal : H.Ideal) :
    (∀ (kind : String) (elements : List (List UInt8)), isAllowedKind kind = true →
      elements ≠ [] → elements.length ≤ kMaxLeaves →
      (∀ element ∈ elements, 4 + element.length ≤ kMaxFrameBytes) →
      ∃ leaves expectedRoot, leafHashes H kind 0 elements = .ok leaves ∧
        rootOf H kind elements = .ok expectedRoot ∧
        ∀ indices : List Nat, (∀ index ∈ indices, index < elements.length) →
          ∃ proofs, prove H kind leaves indices = .ok proofs ∧
            List.Forall₂ (fun index proof => proof.leafIndex = index ∧
              proof.treeSize = elements.length ∧ ∀ element, elements[index]? = some element →
                verify H kind expectedRoot proof element = true) indices proofs) ∧
    ∀ (kind : String) (elements : List (List UInt8)) (expectedRoot : δ) (proof : InclusionProof δ)
      (element : List UInt8), rootOf H kind elements = .ok expectedRoot →
      verify H kind expectedRoot proof element = true →
      proof.treeSize = elements.length ∧ elements[proof.leafIndex]? = some element ∧
        ∃ leaves, leafHashes H kind 0 elements = .ok leaves ∧
          prove H kind leaves [proof.leafIndex] = .ok [proof] := by
  refine ⟨fun kind elements hkind hne hlimit hbytes => ?_,
    fun kind elements expectedRoot proof element hroot hverify =>
      verify_sound hideal hroot hverify⟩
  have hstart : 0 + elements.length ≤ kMaxLeaves := by omega
  obtain ⟨leaves, hleaves⟩ := @leafHashes_total δ H kind hkind 0 elements hstart hbytes
  have hlength := (leafHashes_ok hleaves).1
  have hleavesne : leaves ≠ [] := by
    intro hnil
    rw [hnil, List.length_nil] at hlength
    exact hne (List.length_eq_zero_iff.mp hlength.symm)
  have hroot : rootOf H kind elements
      = .ok (countedRoot H kind leaves.length (subtree H kind leaves)) := by
    unfold rootOf rootFromLeafHashes
    rw [if_neg (not_lt.mpr hlimit), hleaves, hkind]
    show (if leaves.length > kMaxLeaves then _ else _) = _
    rw [if_neg (by omega), if_neg (by simp), if_neg (by simpa using hleavesne)]
  refine ⟨leaves, _, hleaves, hroot, fun indices hindices => ?_⟩
  refine ⟨_, prove_eq hkind hleavesne (hlength ▸ hlimit) (hlength ▸ hindices), ?_⟩
  rw [List.forall₂_map_right_iff, List.forall₂_same]
  intro index hindex
  refine ⟨rfl, hlength, fun element helement => ?_⟩
  exact verify_prove hleaves hroot helement

--
-- A hash without collisions
--

/-- Numbers in words that end where they end. -/
def wordCode : List Nat → List UInt8
  | [] => [2]
  | n :: rest => List.replicate n 1 ++ 0 :: wordCode rest

theorem wordCode_inj : ∀ {x y : List Nat} {s t : List UInt8},
    wordCode x ++ s = wordCode y ++ t → x = y ∧ s = t
  | [], [], _, _, h => ⟨rfl, (List.cons.inj h).2⟩
  | [], n :: rest, _, _, h => by
    have hhead := congrArg List.head? h
    cases n <;> simp [wordCode, List.replicate_succ] at hhead
  | n :: rest, [], _, _, h => by
    have hhead := congrArg List.head? h
    cases n <;> simp [wordCode, List.replicate_succ] at hhead
  | n :: rest, m :: rest', s, t, h => by
    have hones : ∀ n : Nat, (0 : UInt8) ∉ List.replicate n (1 : UInt8) :=
      fun n hmem => absurd (List.eq_of_mem_replicate hmem) (by decide)
    simp only [wordCode, List.append_assoc, List.cons_append] at h
    obtain ⟨hfirst, hrest⟩ := Text.append_delimiter_inj (hones _) (hones _) h
    have hcount := congrArg List.length hfirst
    rw [List.length_replicate, List.length_replicate] at hcount
    obtain ⟨hwords, hst⟩ := wordCode_inj hrest
    exact ⟨by rw [hcount, hwords], hst⟩

/-- A digest that keeps what was hashed. -/
def recordingHash : V1Hash (String × List UInt8) where
  digest := Prod.mk
  bytes recorded :=
    wordCode (recorded.1.toList.map Char.toNat) ++ wordCode (recorded.2.map UInt8.toNat)

theorem recordingHash_ideal : recordingHash.Ideal := by
  refine ⟨fun _ _ _ _ h => Prod.mk.inj h, fun a b c d h => ?_⟩
  simp only [recordingHash, List.append_assoc] at h
  obtain ⟨h1, h⟩ := wordCode_inj h
  obtain ⟨h2, h⟩ := wordCode_inj h
  obtain ⟨h3, h⟩ := wordCode_inj h
  have hlast : wordCode (b.2.map UInt8.toNat) ++ [] = wordCode (d.2.map UInt8.toNat) ++ [] := by
    rw [h]
  obtain ⟨h4, -⟩ := wordCode_inj hlast
  have hchar : Function.Injective Char.toNat := fun _ _ => Char.toNat_inj.mp
  have hbyte : Function.Injective UInt8.toNat := fun _ _ => UInt8.toNat_inj.mp
  exact ⟨Prod.ext (String.toList_injective (hchar.list_map h1)) (hbyte.list_map h2),
    Prod.ext (String.toList_injective (hchar.list_map h3)) (hbyte.list_map h4)⟩

/-- Three elements, proved in another order and one of them twice. -/
theorem v1_merkle_proofs_three :
    ∃ leaves expectedRoot, rootOf recordingHash "tx" [[1], [2], [3]] = .ok expectedRoot ∧
      ∃ proofs, prove recordingHash "tx" leaves [2, 0, 2] = .ok proofs ∧
        List.Forall₂ (fun index proof => proof.leafIndex = index ∧
          proof.treeSize = 3 ∧ ∀ element, [[1], [2], [3]][index]? = some element →
            verify recordingHash "tx" expectedRoot proof element = true) [2, 0, 2] proofs := by
  obtain ⟨leaves, expectedRoot, -, hroot, hproofs⟩ :=
    (v1_merkle_proofs recordingHash_ideal).1 "tx" [[1], [2], [3]] (by decide) (by decide)
      (by decide) (by decide)
  exact ⟨leaves, expectedRoot, hroot, hproofs [2, 0, 2] (by decide)⟩

end V1MerkleTree

end Nodo.Model
