import Mathlib.Algebra.BigOperators.Group.Finset.Piecewise
import Mathlib.Algebra.Order.BigOperators.Group.Finset
import Nodo.Model.V1Merkle

/-!
# Nodo — transfer of snapshots in chunks

`node/history/SnapshotTransfer.cpp` and the digest of `FullProtocolStateSnapshot`. A snapshot is
cut into chunks of one size, the last one shorter, and its digest is the Merkle root of the
chunks. Server, digest and assembler compute the cuts separately. The assembler knows the digest
and a claimed size; chunks come from anybody.

There are at most `2 ^ 20` chunks of less than `2 ^ 32` bytes, so that no product or sum of the
source reaches `2 ^ 64`.

## Results

* `flatten_cuts` — the chunks are the snapshot.
* `accept_filled` — one chunk, whatever it is, keeps what is stored true.
* `accept_offered` — a chunk of the server is stored once it was offered.
* `snapshot_transfer` — both over every sequence of chunks.
-/

namespace Nodo.Model

open V1MerkleTree

/-- The text of a digest, which can be read back: `V1EncodingPrimitives::hex` and
`digestFromHex`. -/
structure DigestText (δ : Type) where
  hex : δ → String
  digestFromHex : String → Option δ
  reads : ∀ digest, digestFromHex (hex digest) = some digest

structure SnapshotChunk (δ : Type) where
  index : Nat
  bytes : List UInt8
  proof : InclusionProof δ

inductive SnapshotChunkAcceptStatus
  | accepted
  | duplicate
  | outOfRange
  | wrongLength
  | invalidProof
  | overBudget
  deriving DecidableEq

namespace SnapshotTransfer

def kChunkKind : String := "snapshot-chunk"

def chunksFor (totalBytes chunkBytes : Nat) : Nat :=
  if totalBytes == 0 then 0 else (totalBytes - 1) / chunkBytes + 1

def expectedLength (index count totalBytes chunkBytes : Nat) : Nat :=
  if index + 1 < count then chunkBytes else totalBytes - index * chunkBytes

/-- `subspan(offset, length)`. -/
def subspan (bytes : List UInt8) (offset length : Nat) : List UInt8 :=
  (bytes.drop offset).take length

variable {δ : Type} (H : V1Hash δ) (text : DigestText δ)

/-- `FullProtocolStateSnapshot::digestOfEncoding`. -/
def digestOfEncoding (encoded : List UInt8) (chunkBytes : Nat) : Except String String :=
  if encoded.isEmpty || chunkBytes == 0 then
    .error "Snapshot digest needs bytes and a chunk size."
  else
    let chunks := (encoded.length - 1) / chunkBytes + 1
    if chunks > kMaxLeaves then .error "Snapshot has too many chunks."
    else do
      let leaves ← leafHashes H kChunkKind 0 ((List.range chunks).map fun index =>
        subspan encoded (index * chunkBytes) (min chunkBytes (encoded.length - index * chunkBytes)))
      let digest ← rootFromLeafHashes H kChunkKind leaves
      .ok (text.hex digest)

end SnapshotTransfer

open SnapshotTransfer

structure SnapshotChunkServer (δ : Type) where
  bytes : List UInt8
  chunkBytes : Nat
  leaves : List δ

namespace SnapshotChunkServer

variable {δ : Type} (H : V1Hash δ)

/-- The chunk at an index, as the constructor and `chunk` cut it. -/
def cut (bytes : List UInt8) (chunkBytes index : Nat) : List UInt8 :=
  subspan bytes (index * chunkBytes)
    (expectedLength index (chunksFor bytes.length chunkBytes) bytes.length chunkBytes)

/-- The constructor. -/
def create (snapshotBytes : List UInt8) (chunkBytes : Nat) :
    Except String (SnapshotChunkServer δ) :=
  if snapshotBytes.isEmpty || chunkBytes == 0
      || chunksFor snapshotBytes.length chunkBytes > kMaxLeaves then
    .error "Snapshot cannot be served in bounded chunks."
  else do
    let leaves ← leafHashes H kChunkKind 0
      ((List.range (chunksFor snapshotBytes.length chunkBytes)).map (cut snapshotBytes chunkBytes))
    .ok ⟨snapshotBytes, chunkBytes, leaves⟩

def chunkCount (server : SnapshotChunkServer δ) : Nat :=
  chunksFor server.bytes.length server.chunkBytes

def digest (text : DigestText δ) (server : SnapshotChunkServer δ) : Except String String := do
  let digest ← rootFromLeafHashes H kChunkKind server.leaves
  .ok (text.hex digest)

def chunk (server : SnapshotChunkServer δ) (index : Nat) : Except String (SnapshotChunk δ) :=
  if index ≥ server.chunkCount then .error "Snapshot chunk index is out of range."
  else do
    let proofs ← prove H kChunkKind server.leaves [index]
    match proofs with
    | [] => .error ""  -- one index has one proof
    | proof :: _ => .ok ⟨index, cut server.bytes server.chunkBytes index, proof⟩

end SnapshotChunkServer

structure SnapshotAssembler (δ : Type) where
  expectedRoot : δ
  totalBytes : Nat
  chunkBytes : Nat
  chunkCount : Nat
  receivedBytes : Nat
  chunks : List (List UInt8)
  received : Finset Nat

namespace SnapshotAssembler

variable {δ : Type} (H : V1Hash δ)

/-- The constructor. -/
def create (text : DigestText δ) (expectedDigest : String)
    (claimedTotalBytes chunkBytes maxBytes : Nat) : Except String (SnapshotAssembler δ) :=
  match text.digestFromHex expectedDigest with
  | none => .error "Snapshot transfer geometry is not acceptable."
  | some root =>
    if chunkBytes == 0 || claimedTotalBytes == 0 || claimedTotalBytes > maxBytes
        || chunksFor claimedTotalBytes chunkBytes > kMaxLeaves then
      .error "Snapshot transfer geometry is not acceptable."
    else .ok
      { expectedRoot := root
        totalBytes := claimedTotalBytes
        chunkBytes := chunkBytes
        chunkCount := chunksFor claimedTotalBytes chunkBytes
        receivedBytes := 0
        chunks := List.replicate (chunksFor claimedTotalBytes chunkBytes) []
        received := ∅ }

variable [DecidableEq δ]

def accept (assembler : SnapshotAssembler δ) (chunk : SnapshotChunk δ) :
    SnapshotAssembler δ × SnapshotChunkAcceptStatus :=
  if chunk.index ≥ assembler.chunkCount || chunk.proof.leafIndex != chunk.index
      || chunk.proof.treeSize != assembler.chunkCount then (assembler, .outOfRange)
  else if chunk.index ∈ assembler.received then (assembler, .duplicate)
  else if chunk.bytes.length != expectedLength chunk.index assembler.chunkCount
      assembler.totalBytes assembler.chunkBytes then (assembler, .wrongLength)
  else if assembler.receivedBytes + chunk.bytes.length > assembler.totalBytes then
    (assembler, .overBudget)
  else if !verify H kChunkKind assembler.expectedRoot chunk.proof chunk.bytes then
    (assembler, .invalidProof)
  else
    ({ assembler with
        chunks := assembler.chunks.set chunk.index chunk.bytes
        received := insert chunk.index assembler.received
        receivedBytes := assembler.receivedBytes + chunk.bytes.length }, .accepted)

/-- Chunks one after another. -/
def acceptAll (assembler : SnapshotAssembler δ) (chunks : List (SnapshotChunk δ)) :
    SnapshotAssembler δ :=
  chunks.foldl (fun assembler chunk => (assembler.accept H chunk).1) assembler

omit [DecidableEq δ]

def complete (assembler : SnapshotAssembler δ) : Bool :=
  assembler.received.card == assembler.chunkCount
    && assembler.receivedBytes == assembler.totalBytes

def assemble (assembler : SnapshotAssembler δ) : Except String (List UInt8) :=
  if !assembler.complete then .error "Snapshot transfer is not complete."
  else .ok assembler.chunks.flatten

end SnapshotAssembler

--
-- The cuts
--

namespace SnapshotTransfer

section Cuts

variable {bytes : List UInt8} {chunkBytes : Nat}

/-- The chunk at an index: as many bytes as there are, up to a full chunk. -/
def cutAt (bytes : List UInt8) (chunkBytes index : Nat) : List UInt8 :=
  subspan bytes (index * chunkBytes) chunkBytes

/-- The chunks of a snapshot in their order. -/
def cuts (bytes : List UInt8) (chunkBytes : Nat) : List (List UInt8) :=
  (List.range (chunksFor bytes.length chunkBytes)).map (cutAt bytes chunkBytes)

/-- An index is in range if its chunk starts inside. -/
theorem lt_chunksFor {index totalBytes : Nat} (hchunk : 0 < chunkBytes) :
    index < chunksFor totalBytes chunkBytes ↔ index * chunkBytes < totalBytes := by
  unfold chunksFor
  cases totalBytes with
  | zero => simp
  | succ total =>
    rw [if_neg (by simp), Nat.add_sub_cancel, Nat.lt_succ_iff, Nat.le_div_iff_mul_le hchunk,
      Nat.lt_succ_iff]

/-- The length the server and the assembler expect is that of the digest. -/
theorem expectedLength_eq {index totalBytes : Nat} (hchunk : 0 < chunkBytes)
    (hindex : index < chunksFor totalBytes chunkBytes) :
    expectedLength index (chunksFor totalBytes chunkBytes) totalBytes chunkBytes
      = min chunkBytes (totalBytes - index * chunkBytes) := by
  unfold expectedLength
  have hstarts := (lt_chunksFor hchunk).mp hindex
  by_cases hnext : index + 1 < chunksFor totalBytes chunkBytes
  · rw [if_pos hnext]
    have hfull := (lt_chunksFor hchunk).mp hnext
    rw [Nat.add_mul, Nat.one_mul] at hfull
    omega
  · rw [if_neg hnext]
    have hlast : ¬ (index + 1) * chunkBytes < totalBytes :=
      fun hlt => hnext ((lt_chunksFor hchunk).mpr hlt)
    rw [Nat.add_mul, Nat.one_mul] at hlast
    omega

theorem subspan_min (bytes : List UInt8) (offset length : Nat) :
    subspan bytes offset (min length (bytes.length - offset)) = subspan bytes offset length := by
  unfold subspan
  rw [← List.length_drop, ← List.take_eq_take_min]

theorem cut_eq (hchunk : 0 < chunkBytes) {index : Nat}
    (hindex : index < chunksFor bytes.length chunkBytes) :
    SnapshotChunkServer.cut bytes chunkBytes index = cutAt bytes chunkBytes index := by
  unfold SnapshotChunkServer.cut cutAt
  rw [expectedLength_eq hchunk hindex, subspan_min]

theorem length_cutAt (hchunk : 0 < chunkBytes) {index : Nat}
    (hindex : index < chunksFor bytes.length chunkBytes) :
    (cutAt bytes chunkBytes index).length
      = expectedLength index (chunksFor bytes.length chunkBytes) bytes.length chunkBytes := by
  unfold cutAt subspan
  rw [expectedLength_eq hchunk hindex, List.length_take, List.length_drop]

theorem getElem?_cuts {index : Nat} (hindex : index < chunksFor bytes.length chunkBytes) :
    (cuts bytes chunkBytes)[index]? = some (cutAt bytes chunkBytes index) := by
  unfold cuts
  rw [List.getElem?_map, List.getElem?_range hindex]
  rfl

theorem length_cuts : (cuts bytes chunkBytes).length = chunksFor bytes.length chunkBytes := by
  unfold cuts
  rw [List.length_map, List.length_range]

/-- The first chunks are the first bytes. -/
theorem flatten_first (bytes : List UInt8) (chunkBytes count : Nat) :
    ((List.range count).map (cutAt bytes chunkBytes)).flatten = bytes.take (count * chunkBytes) := by
  induction count with
  | zero => simp
  | succ count ih =>
    rw [List.range_succ, List.map_append, List.flatten_append, ih, List.map_singleton,
      List.flatten_singleton, Nat.add_mul, Nat.one_mul, List.take_add]
    rfl

/-- **The chunks are the snapshot.** -/
theorem flatten_cuts (hchunk : 0 < chunkBytes) : (cuts bytes chunkBytes).flatten = bytes := by
  unfold cuts
  rw [flatten_first]
  refine List.take_of_length_le (not_lt.mp fun hlt => ?_)
  exact absurd ((lt_chunksFor hchunk).mpr hlt) (lt_irrefl _)

/-- The lengths of the chunks add up to the length of the snapshot. -/
theorem sum_cuts (hchunk : 0 < chunkBytes) :
    ∑ index ∈ Finset.range (chunksFor bytes.length chunkBytes),
      (cutAt bytes chunkBytes index).length = bytes.length := by
  have hlengths : ∑ index ∈ Finset.range (chunksFor bytes.length chunkBytes),
      (cutAt bytes chunkBytes index).length = ((cuts bytes chunkBytes).map List.length).sum := by
    unfold cuts
    rw [List.map_map]
    rfl
  rw [hlengths, ← List.length_flatten, flatten_cuts hchunk]

end Cuts

end SnapshotTransfer

--
-- Digest, server and assembler cut alike
--

namespace SnapshotTransfer

variable {δ : Type} {H : V1Hash δ} {text : DigestText δ} {bytes : List UInt8} {chunkBytes : Nat}
  {digest : String}

/-- The digest is the text of the root of the cuts. -/
theorem digestOfEncoding_ok (h : digestOfEncoding H text bytes chunkBytes = .ok digest) :
    bytes ≠ [] ∧ 0 < chunkBytes ∧ chunksFor bytes.length chunkBytes ≤ kMaxLeaves ∧
      ∃ root, rootOf H kChunkKind (cuts bytes chunkBytes) = .ok root ∧ text.hex root = digest := by
  unfold digestOfEncoding at h
  obtain ⟨hargs, h⟩ := Guards.ok_of_ite_error h
  obtain ⟨hcount, h⟩ := Guards.ok_of_ite_error h
  have hargs : bytes ≠ [] ∧ chunkBytes ≠ 0 := by simpa using hargs
  obtain ⟨hne, hchunk⟩ := hargs
  have hcounted : (bytes.length - 1) / chunkBytes + 1 = chunksFor bytes.length chunkBytes := by
    unfold chunksFor
    rw [if_neg (by simpa using hne)]
  have hcuts : ((List.range (chunksFor bytes.length chunkBytes)).map fun index =>
      subspan bytes (index * chunkBytes) (min chunkBytes (bytes.length - index * chunkBytes)))
        = cuts bytes chunkBytes := by
    refine List.map_congr_left (fun index _ => ?_)
    exact subspan_min bytes _ _
  rw [hcounted] at hcount h
  rw [hcuts] at h
  have hlimit : ¬ (cuts bytes chunkBytes).length > kMaxLeaves := by
    rw [length_cuts]
    exact hcount
  obtain ⟨leaves, hleaves, h⟩ := Guards.ok_of_bind h
  obtain ⟨root, hroot, h⟩ := Guards.ok_of_bind h
  refine ⟨hne, Nat.pos_of_ne_zero hchunk, not_lt.mp hcount, root, ?_, Except.ok.inj h⟩
  unfold rootOf
  rw [if_neg hlimit, hleaves]
  exact hroot

end SnapshotTransfer

namespace SnapshotChunkServer

variable {δ : Type} {H : V1Hash δ} {text : DigestText δ} {bytes : List UInt8} {chunkBytes : Nat}
  {root : δ}

/-- The server of the same bytes has the leaves of the same cuts. -/
theorem create_ok (hne : bytes ≠ []) (hchunk : 0 < chunkBytes)
    (hcount : chunksFor bytes.length chunkBytes ≤ kMaxLeaves)
    (hroot : rootOf H kChunkKind (cuts bytes chunkBytes) = .ok root) :
    ∃ leaves, leafHashes H kChunkKind 0 (cuts bytes chunkBytes) = .ok leaves ∧
      create H bytes chunkBytes = .ok ⟨bytes, chunkBytes, leaves⟩ ∧
      digest H text ⟨bytes, chunkBytes, leaves⟩ = .ok (text.hex root) := by
  have hcuts : (List.range (chunksFor bytes.length chunkBytes)).map (cut bytes chunkBytes)
      = cuts bytes chunkBytes := by
    refine List.map_congr_left (fun index hindex => ?_)
    exact cut_eq hchunk (List.mem_range.mp hindex)
  unfold rootOf at hroot
  obtain ⟨-, hroot⟩ := Guards.ok_of_ite_error hroot
  obtain ⟨leaves, hleaves, hroot⟩ := Guards.ok_of_bind hroot
  refine ⟨leaves, hleaves, ?_, ?_⟩
  · unfold create
    rw [if_neg (by simp [hne, Nat.ne_of_gt hchunk, hcount]), hcuts, hleaves]
    rfl
  · unfold digest
    rw [hroot]
    rfl

/-- The chunk the server gives at an index in range. -/
theorem chunk_eq (hchunk : 0 < chunkBytes) {leaves : List δ}
    (hleaves : leafHashes H kChunkKind 0 (cuts bytes chunkBytes) = .ok leaves)
    (hroot : rootOf H kChunkKind (cuts bytes chunkBytes) = .ok root) {index : Nat}
    (hindex : index < chunksFor bytes.length chunkBytes) :
    chunk H ⟨bytes, chunkBytes, leaves⟩ index = .ok ⟨index, cutAt bytes chunkBytes index,
      ⟨index, chunksFor bytes.length chunkBytes,
        SplitTree.path (nodeHash H kChunkKind) (noLeaf H) leaves index⟩⟩ := by
  obtain ⟨leaves', hleaves', hlength, hlimit, hkind, -⟩ := rootOf_ok hroot
  rw [hleaves] at hleaves'
  cases hleaves'
  rw [length_cuts] at hlength
  have hproofs : prove H kChunkKind leaves [index] = .ok _ :=
    prove_eq hkind (List.ne_nil_of_length_pos (by omega)) hlimit (by simpa [hlength] using hindex)
  have hrange : ¬ index ≥ chunkCount ⟨bytes, chunkBytes, leaves⟩ := not_le.mpr hindex
  unfold chunk
  rw [if_neg hrange, hproofs, hlength, ← cut_eq hchunk hindex]
  rfl

end SnapshotChunkServer

--
-- What is stored is true
--

namespace SnapshotAssembler

variable {δ : Type} {H : V1Hash δ} {bytes : List UInt8} {chunkBytes : Nat}

/-- An assembler for the digest of `bytes` that holds chunks of `bytes` at their places and nothing
else. -/
structure Filled (H : V1Hash δ) (bytes : List UInt8) (chunkBytes : Nat)
    (assembler : SnapshotAssembler δ) : Prop where
  root : rootOf H kChunkKind (cuts bytes chunkBytes) = .ok assembler.expectedRoot
  chunk : assembler.chunkBytes = chunkBytes
  count : assembler.chunkCount = chunksFor assembler.totalBytes chunkBytes
  inside : assembler.received ⊆ Finset.range assembler.chunkCount
  sameCount : assembler.received.Nonempty →
    assembler.chunkCount = chunksFor bytes.length chunkBytes
  stored : assembler.chunks = (List.range assembler.chunkCount).map fun index =>
    if index ∈ assembler.received then cutAt bytes chunkBytes index else []
  weight : assembler.receivedBytes
    = ∑ index ∈ assembler.received, (cutAt bytes chunkBytes index).length
  budget : assembler.receivedBytes ≤ assembler.totalBytes

variable {assembler : SnapshotAssembler δ}

/-- A new assembler holds nothing. -/
theorem create_filled {text : DigestText δ} {root : δ} {claimedTotalBytes maxBytes : Nat}
    (hroot : rootOf H kChunkKind (cuts bytes chunkBytes) = .ok root)
    (h : create text (text.hex root) claimedTotalBytes chunkBytes maxBytes = .ok assembler) :
    Filled H bytes chunkBytes assembler ∧ assembler.totalBytes = claimedTotalBytes
      ∧ claimedTotalBytes ≠ 0 := by
  unfold create at h
  rw [text.reads] at h
  obtain ⟨hgeometry, h⟩ := Guards.ok_of_ite_error h
  have hclaimed : claimedTotalBytes ≠ 0 := by
    rintro rfl
    exact hgeometry (by simp)
  cases h
  refine ⟨⟨hroot, rfl, rfl, Finset.empty_subset _, fun hne => ?_, ?_, rfl, Nat.zero_le _⟩, rfl,
    hclaimed⟩
  · exact absurd hne Finset.not_nonempty_empty
  · simp

/-- The bytes in memory are the ones that were counted. -/
theorem length_flatten_chunks (hfilled : Filled H bytes chunkBytes assembler) :
    assembler.chunks.flatten.length = assembler.receivedBytes := by
  have hlengths : (assembler.chunks.map List.length).sum
      = ∑ index ∈ Finset.range assembler.chunkCount,
          if index ∈ assembler.received then (cutAt bytes chunkBytes index).length else 0 := by
    rw [hfilled.stored, List.map_map]
    refine congrArg List.sum (List.map_congr_left fun index _ => ?_)
    show List.length (if index ∈ assembler.received then _ else _) = _
    split <;> rfl
  rw [List.length_flatten, hlengths, Finset.sum_ite_mem, Finset.inter_eq_right.mpr hfilled.inside,
    hfilled.weight]

/-- A complete assembler has the bytes. -/
theorem assemble_of_complete (hchunk : 0 < chunkBytes)
    (hfilled : Filled H bytes chunkBytes assembler) (hclaimed : assembler.totalBytes ≠ 0)
    (h : assembler.complete = true) : assembler.assemble = .ok bytes := by
  have hsizes : assembler.received.card = assembler.chunkCount ∧
      assembler.receivedBytes = assembler.totalBytes := by
    unfold complete at h
    simpa using h
  have hall : assembler.received = Finset.range assembler.chunkCount := by
    refine Finset.eq_of_subset_of_card_le hfilled.inside ?_
    rw [Finset.card_range, hsizes.1]
  have hpositive : 0 < assembler.chunkCount := by
    rw [hfilled.count, lt_chunksFor hchunk, Nat.zero_mul]
    exact Nat.pos_of_ne_zero hclaimed
  have hcount := hfilled.sameCount ⟨0, by rw [hall]; exact Finset.mem_range.mpr hpositive⟩
  have hcuts : assembler.chunks = cuts bytes chunkBytes := by
    rw [hfilled.stored, hcount]
    refine List.map_congr_left (fun index hindex => ?_)
    rw [if_pos]
    rw [hall, Finset.mem_range, hcount]
    exact List.mem_range.mp hindex
  unfold assemble
  rw [h, hcuts, flatten_cuts hchunk]
  rfl

variable [DecidableEq δ] {chunk : SnapshotChunk δ}

/-- What a chunk does: it is refused and changes nothing, or it is stored. -/
theorem accept_cases (H : V1Hash δ) (assembler : SnapshotAssembler δ) (chunk : SnapshotChunk δ) :
    ((assembler.accept H chunk).1 = assembler ∧ (assembler.accept H chunk).2 ≠ .accepted) ∨
    (chunk.index < assembler.chunkCount ∧ chunk.proof.leafIndex = chunk.index ∧
      chunk.proof.treeSize = assembler.chunkCount ∧ chunk.index ∉ assembler.received ∧
      assembler.receivedBytes + chunk.bytes.length ≤ assembler.totalBytes ∧
      verify H kChunkKind assembler.expectedRoot chunk.proof chunk.bytes = true ∧
      assembler.accept H chunk = ({ assembler with
        chunks := assembler.chunks.set chunk.index chunk.bytes
        received := insert chunk.index assembler.received
        receivedBytes := assembler.receivedBytes + chunk.bytes.length }, .accepted)) := by
  unfold accept
  split
  · exact .inl ⟨rfl, by simp⟩
  rename_i hrange
  split
  · exact .inl ⟨rfl, by simp⟩
  rename_i hfresh
  split
  · exact .inl ⟨rfl, by simp⟩
  split
  · exact .inl ⟨rfl, by simp⟩
  rename_i hbudget
  split
  · exact .inl ⟨rfl, by simp⟩
  rename_i hverify
  have hrange : (chunk.index < assembler.chunkCount ∧ chunk.proof.leafIndex = chunk.index) ∧
      chunk.proof.treeSize = assembler.chunkCount := by
    simpa using hrange
  exact .inr ⟨hrange.1.1, hrange.1.2, hrange.2, hfresh, not_lt.mp hbudget, by simpa using hverify,
    rfl⟩

/-- **One chunk, whatever it is**, keeps what is stored true. -/
theorem accept_filled (hideal : H.Ideal) (hfilled : Filled H bytes chunkBytes assembler) :
    Filled H bytes chunkBytes (assembler.accept H chunk).1 := by
  obtain ⟨hsame, -⟩ | ⟨hindex, hleaf, hsize, hfresh, hbudget, hverify, haccept⟩ :=
    accept_cases H assembler chunk
  · rw [hsame]
    exact hfilled
  -- what verifies against the root is the cut at that index
  obtain ⟨htree, helement, -⟩ := verify_sound hideal hfilled.root hverify
  rw [length_cuts, hsize] at htree
  rw [hleaf, getElem?_cuts (by omega), Option.some.injEq] at helement
  rw [haccept]
  refine ⟨hfilled.root, hfilled.chunk, hfilled.count, ?_, fun _ => htree, ?_, ?_, hbudget⟩
  · exact Finset.insert_subset (Finset.mem_range.mpr hindex) hfilled.inside
  · refine List.ext_getElem? (fun index => ?_)
    show (assembler.chunks.set chunk.index chunk.bytes)[index]? = _
    rw [List.getElem?_set, hfilled.stored, List.length_map, List.length_range, List.getElem?_map,
      List.getElem?_map]
    by_cases hsame : chunk.index = index
    · subst hsame
      rw [if_pos rfl, if_pos hindex, List.getElem?_range hindex, Option.map_some,
        if_pos (Finset.mem_insert_self _ _), helement]
    · rw [if_neg hsame]
      refine Option.map_congr (fun other hother => ?_)
      have hother : other = index := by
        obtain ⟨hlt, hget⟩ := List.getElem?_eq_some_iff.mp hother
        rw [List.getElem_range] at hget
        exact hget.symm
      have hmem : other ∈ insert chunk.index assembler.received ↔ other ∈ assembler.received := by
        rw [Finset.mem_insert, or_iff_right]
        rintro rfl
        exact hsame hother
      exact if_congr hmem.symm rfl rfl
  · show assembler.receivedBytes + chunk.bytes.length = ∑ index ∈ insert _ _, _
    rw [Finset.sum_insert hfresh, ← hfilled.weight, helement, Nat.add_comm]

end SnapshotAssembler

--
-- What the server offers is stored
--

namespace SnapshotAssembler

variable {δ : Type} [DecidableEq δ] {H : V1Hash δ} {bytes : List UInt8} {chunkBytes : Nat}
  {assembler : SnapshotAssembler δ} {chunk : SnapshotChunk δ}

/-- What one chunk leaves: what was received stays received, and the geometry stays. -/
theorem accept_keeps (H : V1Hash δ) (assembler : SnapshotAssembler δ) (chunk : SnapshotChunk δ) :
    assembler.received ⊆ (assembler.accept H chunk).1.received ∧
      (assembler.accept H chunk).1.totalBytes = assembler.totalBytes := by
  obtain ⟨hsame, -⟩ | ⟨-, -, -, -, -, -, haccept⟩ := accept_cases H assembler chunk
  · rw [hsame]
    exact ⟨Finset.Subset.refl _, rfl⟩
  · rw [haccept]
    exact ⟨Finset.subset_insert _ _, rfl⟩

/-- **A chunk of the server is stored** once it was offered, if the claimed size is right. -/
theorem accept_offered (hchunk : 0 < chunkBytes) (hfilled : Filled H bytes chunkBytes assembler)
    (hclaimed : assembler.totalBytes = bytes.length) {leaves : List δ}
    (hleaves : leafHashes H kChunkKind 0 (cuts bytes chunkBytes) = .ok leaves) {index : Nat}
    (h : SnapshotChunkServer.chunk H ⟨bytes, chunkBytes, leaves⟩ index = .ok chunk) :
    index ∈ (assembler.accept H chunk).1.received := by
  have hindex : index < chunksFor bytes.length chunkBytes := by
    unfold SnapshotChunkServer.chunk at h
    exact not_le.mp (Guards.ok_of_ite_error h).1
  rw [SnapshotChunkServer.chunk_eq hchunk hleaves hfilled.root hindex] at h
  cases h
  have hcount : assembler.chunkCount = chunksFor bytes.length chunkBytes := by
    rw [hfilled.count, hclaimed]
  by_cases hreceived : index ∈ assembler.received
  · exact (accept_keeps H assembler _).1 hreceived
  -- together with what is there, the chunk is within the snapshot
  have hwhole : insert index assembler.received ⊆ Finset.range (chunksFor bytes.length chunkBytes) :=
    Finset.insert_subset (Finset.mem_range.mpr hindex) (hcount ▸ hfilled.inside)
  have hbudget : assembler.receivedBytes + (cutAt bytes chunkBytes index).length
      ≤ assembler.totalBytes := by
    calc assembler.receivedBytes + (cutAt bytes chunkBytes index).length
        = ∑ other ∈ insert index assembler.received, (cutAt bytes chunkBytes other).length := by
          rw [Finset.sum_insert hreceived, ← hfilled.weight, Nat.add_comm]
      _ ≤ ∑ other ∈ Finset.range (chunksFor bytes.length chunkBytes),
            (cutAt bytes chunkBytes other).length :=
          Finset.sum_le_sum_of_subset hwhole
      _ = assembler.totalBytes := by rw [sum_cuts hchunk, hclaimed]
  have hverify := verify_prove hleaves hfilled.root (getElem?_cuts hindex)
  rw [(leafHashes_ok hleaves).1, length_cuts] at hverify
  have hlength : (cutAt bytes chunkBytes index).length = expectedLength index assembler.chunkCount
      assembler.totalBytes assembler.chunkBytes := by
    rw [hfilled.chunk, hcount, hclaimed]
    exact length_cutAt hchunk hindex
  unfold accept
  rw [if_neg (by simp [hcount, hindex]), if_neg hreceived, if_neg (by simp [hlength]),
    if_neg (not_lt.mpr hbudget), if_neg (by simp [hverify])]
  exact Finset.mem_insert_self _ _

/-- What holds over a sequence of chunks. -/
theorem acceptAll_spec (hideal : H.Ideal) (hchunk : 0 < chunkBytes) {leaves : List δ}
    (hleaves : leafHashes H kChunkKind 0 (cuts bytes chunkBytes) = .ok leaves)
    (chunks : List (SnapshotChunk δ)) :
    ∀ assembler : SnapshotAssembler δ, Filled H bytes chunkBytes assembler →
      Filled H bytes chunkBytes (assembler.acceptAll H chunks) ∧
      (assembler.acceptAll H chunks).totalBytes = assembler.totalBytes ∧
      assembler.received ⊆ (assembler.acceptAll H chunks).received ∧
      (assembler.totalBytes = bytes.length → ∀ chunk ∈ chunks, ∀ index,
        SnapshotChunkServer.chunk H ⟨bytes, chunkBytes, leaves⟩ index = .ok chunk →
          index ∈ (assembler.acceptAll H chunks).received) := by
  induction chunks with
  | nil =>
    intro assembler hfilled
    exact ⟨hfilled, rfl, Finset.Subset.refl _, fun _ chunk hmem => (nomatch hmem)⟩
  | cons chunk rest ih =>
    intro assembler hfilled
    obtain ⟨hkept, htotal⟩ := accept_keeps H assembler chunk
    obtain ⟨hrest, hrestTotal, hrestKept, hoffered⟩ :=
      ih (assembler.accept H chunk).1 (accept_filled hideal hfilled)
    refine ⟨hrest, hrestTotal.trans htotal, hkept.trans hrestKept, fun hclaimed other hmem => ?_⟩
    intro index hserved
    obtain rfl | hmem := List.mem_cons.mp hmem
    · exact hrestKept (accept_offered hchunk hfilled hclaimed hleaves hserved)
    · exact hoffered (htotal.trans hclaimed) other hmem index hserved

omit [DecidableEq δ]

/-- An assembler of the right size that received every chunk is complete. -/
theorem complete_of_all (hchunk : 0 < chunkBytes) (hfilled : Filled H bytes chunkBytes assembler)
    (hclaimed : assembler.totalBytes = bytes.length)
    (hall : ∀ index < chunksFor bytes.length chunkBytes, index ∈ assembler.received) :
    assembler.complete = true := by
  have hcount : assembler.chunkCount = chunksFor bytes.length chunkBytes := by
    rw [hfilled.count, hclaimed]
  have hreceived : assembler.received = Finset.range (chunksFor bytes.length chunkBytes) := by
    refine Finset.Subset.antisymm (hcount ▸ hfilled.inside) (fun index hindex => ?_)
    exact hall index (Finset.mem_range.mp hindex)
  have hweight : assembler.receivedBytes = assembler.totalBytes := by
    rw [hfilled.weight, hreceived, sum_cuts hchunk, hclaimed]
  unfold complete
  rw [hreceived, Finset.card_range, hcount, hweight, beq_self_eq_true, beq_self_eq_true]
  rfl

end SnapshotAssembler

open SnapshotAssembler

/-- **A transfer is safe and does not depend on the order.** For the digest of a snapshot: the
server of the snapshot has this digest, and an assembler for it, with any claimed size and after
any chunks, holds only chunks of the snapshot at their places, holds no more bytes than claimed,
is left as it is by a chunk it refuses, and gives the snapshot when it is complete; it is complete
when the claimed size is right and every chunk of the server was among those that came. -/
theorem snapshot_transfer {δ : Type} [DecidableEq δ] {H : V1Hash δ} (hideal : H.Ideal)
    (text : DigestText δ) {bytes : List UInt8} {chunkBytes : Nat} {digest : String}
    (hdigest : digestOfEncoding H text bytes chunkBytes = .ok digest) :
    ∃ server, SnapshotChunkServer.create H bytes chunkBytes = .ok server ∧
      server.digest H text = .ok digest ∧
      (∀ index < server.chunkCount, ∃ chunk, server.chunk H index = .ok chunk ∧
        chunk.bytes = cutAt bytes chunkBytes index) ∧
      ∀ (claimedTotalBytes maxBytes : Nat) (assembler : SnapshotAssembler δ),
        SnapshotAssembler.create text digest claimedTotalBytes chunkBytes maxBytes = .ok assembler →
        ∀ chunks : List (SnapshotChunk δ),
          (∀ index content, (assembler.acceptAll H chunks).chunks[index]? = some content →
            if index ∈ (assembler.acceptAll H chunks).received then
              index < server.chunkCount ∧ content = cutAt bytes chunkBytes index
            else content = []) ∧
          (assembler.acceptAll H chunks).chunks.flatten.length ≤ claimedTotalBytes ∧
          (∀ chunk, ((assembler.acceptAll H chunks).accept H chunk).2 ≠ .accepted →
            ((assembler.acceptAll H chunks).accept H chunk).1 = assembler.acceptAll H chunks) ∧
          ((assembler.acceptAll H chunks).complete = true →
            (assembler.acceptAll H chunks).assemble = .ok bytes) ∧
          (claimedTotalBytes = bytes.length →
            (∀ index < server.chunkCount, ∃ chunk ∈ chunks, server.chunk H index = .ok chunk) →
            (assembler.acceptAll H chunks).complete = true) := by
  obtain ⟨hne, hchunk, hcount, root, hroot, rfl⟩ := digestOfEncoding_ok hdigest
  obtain ⟨leaves, hleaves, hserver, hserved⟩ :=
    @SnapshotChunkServer.create_ok δ H text bytes chunkBytes root hne hchunk hcount hroot
  refine ⟨⟨bytes, chunkBytes, leaves⟩, hserver, hserved, fun index hindex => ?_,
    fun claimedTotalBytes maxBytes assembler hassembler chunks => ?_⟩
  · exact ⟨_, SnapshotChunkServer.chunk_eq hchunk hleaves hroot hindex, rfl⟩
  obtain ⟨hfilled, htotal, hpositive⟩ := create_filled hroot hassembler
  obtain ⟨hrun, hrunTotal, -, hoffered⟩ := acceptAll_spec hideal hchunk hleaves chunks _ hfilled
  rw [htotal] at hrunTotal hoffered
  refine ⟨fun index content hcontent => ?_, ?_, fun chunk hrefused => ?_, fun hcomplete => ?_,
    fun hclaimed hall => ?_⟩
  · rw [hrun.stored, List.getElem?_map] at hcontent
    obtain ⟨other, hother, hcontent⟩ := Option.map_eq_some_iff.mp hcontent
    obtain ⟨hlt, hother⟩ := List.getElem?_eq_some_iff.mp hother
    rw [List.getElem_range] at hother
    subst hother
    by_cases hreceived : index ∈ (assembler.acceptAll H chunks).received
    · rw [if_pos hreceived] at hcontent ⊢
      have hsame := hrun.sameCount ⟨index, hreceived⟩
      have hinside := Finset.mem_range.mp (hrun.inside hreceived)
      rw [hsame] at hinside
      exact ⟨hinside, hcontent.symm⟩
    · rw [if_neg hreceived] at hcontent ⊢
      exact hcontent.symm
  · rw [length_flatten_chunks hrun, ← hrunTotal]
    exact hrun.budget
  · obtain ⟨hsame, -⟩ | ⟨-, -, -, -, -, -, haccept⟩ :=
      accept_cases H (assembler.acceptAll H chunks) chunk
    · exact hsame
    · rw [haccept] at hrefused
      exact absurd rfl hrefused
  · exact assemble_of_complete hchunk hrun (by rw [hrunTotal]; exact hpositive) hcomplete
  · refine complete_of_all hchunk hrun (hrunTotal.trans hclaimed) (fun index hindex => ?_)
    obtain ⟨chunk, hmem, hchunkAt⟩ := hall index hindex
    exact hoffered hclaimed chunk hmem index hchunkAt

--
-- Digests of thirty-two bytes
--

namespace V1MerkleTree

/-- `std::array<unsigned char, 32>`. -/
abbrev Digest : Type := { bytes : List UInt8 // bytes.length = 32 }

def hexDigit (value : Nat) : Char :=
  if value < 10 then Char.ofNat ('0'.toNat + value) else Char.ofNat ('a'.toNat + (value - 10))

def hexValue (c : Char) : Option Nat :=
  if '0' ≤ c && c ≤ '9' then some (c.toNat - '0'.toNat)
  else if 'a' ≤ c && c ≤ 'f' then some (c.toNat - 'a'.toNat + 10)
  else none

/-- The loop of `V1EncodingPrimitives::hex`. -/
def hexDigits (bytes : List UInt8) : List Char :=
  bytes.flatMap fun byte => [hexDigit (byte.toNat / 16), hexDigit (byte.toNat % 16)]

/-- The loop of `digestFromHex`. -/
def bytesFromHex : List Char → Option (List UInt8)
  | high :: low :: rest => do
    let high ← hexValue high
    let low ← hexValue low
    let bytes ← bytesFromHex rest
    some ((high * 16 + low).toUInt8 :: bytes)
  | _ => some []

theorem hexValue_hexDigit {value : Nat} (h : value < 16) :
    hexValue (hexDigit value) = some value := by
  have htable : ∀ value : Fin 16, hexValue (hexDigit value) = some value.val := by decide
  exact htable ⟨value, h⟩

theorem bytesFromHex_hexDigits (bytes : List UInt8) :
    bytesFromHex (hexDigits bytes) = some bytes := by
  induction bytes with
  | nil => rfl
  | cons byte rest ih =>
    have hbyte := UInt8.toNat_lt byte
    have hjoined : byte.toNat / 16 * 16 + byte.toNat % 16 = byte.toNat := by omega
    have htail : hexDigits (byte :: rest)
        = hexDigit (byte.toNat / 16) :: hexDigit (byte.toNat % 16) :: hexDigits rest := rfl
    rw [htail, bytesFromHex, hexValue_hexDigit (by omega), hexValue_hexDigit (by omega), ih]
    show some ((byte.toNat / 16 * 16 + byte.toNat % 16).toUInt8 :: rest) = some (byte :: rest)
    rw [hjoined, Nat.toUInt8_eq, UInt8.ofNat_toNat]

/-- Digests of thirty-two bytes are read back from their text. -/
def digestText : DigestText Digest where
  hex digest := String.ofList (hexDigits digest.val)
  digestFromHex hex :=
    if hex.length != 64 then none
    else (bytesFromHex hex.toList).bind fun bytes =>
      if h : bytes.length = 32 then some ⟨bytes, h⟩ else none
  reads digest := by
    have hlength : (hexDigits digest.val).length = 2 * digest.val.length := by
      unfold hexDigits
      rw [List.length_flatMap]
      show (digest.val.map fun _ => 2).sum = 2 * digest.val.length
      rw [List.map_const', List.sum_replicate_nat, Nat.mul_comm]
    have hcount : (String.ofList (hexDigits digest.val)).length = 64 := by
      rw [String.length_ofList, hlength, digest.property]
    rw [hcount, if_neg (by simp), String.toList_ofList, bytesFromHex_hexDigits]
    exact dif_pos digest.property

/-- The characters that stand for bytes. -/
def isByte (c : Char) : Bool := c.toNat < 256

/-- The text of a digest that keeps what was hashed: the payload, a character that is no byte,
the domain. -/
def recordingText : DigestText (String × List UInt8) where
  hex recorded := String.ofList
    (recorded.2.map (fun byte => Char.ofNat byte.toNat) ++ Char.ofNat 256 :: recorded.1.toList)
  digestFromHex hex :=
    some (String.ofList ((hex.toList.dropWhile isByte).drop 1),
      (hex.toList.takeWhile isByte).map fun c => c.toNat.toUInt8)
  reads recorded := by
    have hbyte : ∀ byte : UInt8, (Char.ofNat byte.toNat).toNat = byte.toNat := by
      intro byte
      have hlt := UInt8.toNat_lt byte
      have hvalid : byte.toNat.isValidChar := Or.inl (by omega)
      unfold Char.ofNat
      rw [dif_pos hvalid]
      rfl
    have hall : ∀ c ∈ recorded.2.map (fun byte => Char.ofNat byte.toNat),
        isByte c = true := by
      intro c hc
      obtain ⟨byte, -, rfl⟩ := List.mem_map.mp hc
      unfold isByte
      rw [hbyte]
      exact decide_eq_true (UInt8.toNat_lt byte)
    have hends : ¬ isByte (Char.ofNat 256) = true := by decide
    rw [String.toList_ofList, List.takeWhile_append_of_pos hall, List.dropWhile_append_of_pos hall,
      List.takeWhile_cons_of_neg hends, List.dropWhile_cons_of_neg hends, List.append_nil,
      List.map_map]
    have hread : ((fun c : Char => c.toNat.toUInt8) ∘ fun byte : UInt8 => Char.ofNat byte.toNat)
        = id := by
      funext byte
      show (Char.ofNat byte.toNat).toNat.toUInt8 = byte
      rw [hbyte, Nat.toUInt8_eq, UInt8.ofNat_toNat]
    rw [hread, List.map_id]
    show some (String.ofList recorded.1.toList, recorded.2) = some recorded
    rw [String.ofList_toList]

end V1MerkleTree

/-- Five bytes in chunks of two, whatever came besides them and in whatever order. -/
theorem snapshot_transfer_five :
    ∃ digest server assembler,
      SnapshotChunkServer.create recordingHash [1, 2, 3, 4, 5] 2 = .ok server ∧
      SnapshotAssembler.create recordingText digest 5 2 100 = .ok assembler ∧
      ∀ chunks, (∀ index < 3, ∃ chunk ∈ chunks, server.chunk recordingHash index = .ok chunk) →
        (assembler.acceptAll recordingHash chunks).assemble = .ok [1, 2, 3, 4, 5] := by
  obtain ⟨digest, hdigest⟩ : ∃ digest,
      digestOfEncoding recordingHash recordingText [1, 2, 3, 4, 5] 2 = .ok digest := ⟨_, rfl⟩
  obtain ⟨-, -, -, root, -, htext⟩ := digestOfEncoding_ok hdigest
  obtain ⟨assembler, hassembler⟩ : ∃ assembler,
      SnapshotAssembler.create recordingText digest 5 2 100 = .ok assembler := by
    unfold SnapshotAssembler.create
    rw [← htext, recordingText.reads]
    exact ⟨_, rfl⟩
  obtain ⟨server, hserver, -, -, hruns⟩ :=
    snapshot_transfer recordingHash_ideal recordingText hdigest
  refine ⟨digest, server, assembler, hserver, hassembler, fun chunks hall => ?_⟩
  obtain ⟨-, -, -, hassemble, hcomplete⟩ := hruns 5 100 assembler hassembler chunks
  have hcount : server.chunkCount = 3 := by
    cases hserver
    rfl
  exact hassemble (hcomplete rfl (hcount ▸ hall))

end Nodo.Model
