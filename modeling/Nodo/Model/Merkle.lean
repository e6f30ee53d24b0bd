import Mathlib.Data.List.Induction
import Mathlib.Data.String.Basic
import Nodo.Lib.HashTree

/-!
# Nodo — Merkle trees

`core/MerkleTree.cpp` and `core/SparseMerkleTree.cpp`. A `std::string` is a `String`
whose characters are its bytes. The hash is a parameter: `utils::hashBytes` is
SHA-256 in hexadecimal.

The sparse tree is a trie of 256 levels over the bits of a key. `root` reads an empty
hash as the default of its level, so a leaf that was written and emptied again counts
as absent. `collectProofSteps` reads the hash of a sibling as it stands: behind an
emptied leaf it finds the empty string, and the proof of the key next to it fails.

## Results

* `Represents.update` — an update of the trie is an update of the map it stands for.
* `Represents.getNodeHash` — the hash of a trie is the root of its map.
* `reconstruct_iff` — a proof gives the root exactly when the leaf next to it was not
  emptied.
* `sparse_tree_map` — all of it, for every sequence of updates.
-/

namespace Nodo.Model

--
-- Hashing
--

/-- `std::string::c_str`: the bytes a C function sees. -/
def cString (text : String) : String := String.ofList (text.toList.takeWhile (· != '\x00'))

namespace MerkleTree

/-- `MerkleTree::LEAF_PREFIX`. -/
def leafPrefix : String := "NODO_MERKLE_LEAF:"

/-- `MerkleTree::NODE_PREFIX`. -/
def nodePrefix : String := "NODO_MERKLE_NODE:"

/-- `MerkleTree::EMPTY_PAYLOAD`. -/
def emptyPayload : String := "NODO_MERKLE_EMPTY"

def hashLeaf (hashBytes : String → String) (payload : String) : String :=
  hashBytes (leafPrefix ++ payload)

def hashNode (hashBytes : String → String) (left right : String) : String :=
  hashBytes (nodePrefix ++ left ++ right)

/-- The hashes are paired layer by layer, the last of an odd number with itself. -/
def hashLayer (hashBytes : String → String) (hashes : List String) : String :=
  HashTree.layerRoot (hashNode hashBytes) (hashBytes emptyPayload) hashes

/-- The order of the leaves is that of their bytes. -/
def buildRoot (hashBytes : String → String) (leafPayloads : List String) : String :=
  if leafPayloads.isEmpty then hashBytes emptyPayload
  else hashLayer hashBytes ((leafPayloads.mergeSort (· ≤ ·)).map (hashLeaf hashBytes))

def hashOrderedLeaf (hashBytes : String → String) (index : Nat) (payload : String) : String :=
  hashLeaf hashBytes
    ("NODO_BLOCK_RECORD_0.6:" ++ toString index ++ ":" ++ toString payload.length ++ ":" ++ payload)

/-- The order of the leaves is that of the list. -/
def buildOrderedRoot (hashBytes : String → String) (leafPayloads : List String) : String :=
  hashLayer hashBytes (leafPayloads.mapIdx (hashOrderedLeaf hashBytes))

end MerkleTree

structure MerkleProofStep where
  siblingHash : String
  siblingIsLeft : Bool
  deriving DecidableEq

structure MerkleProof where
  leafHash : String
  steps : List MerkleProofStep

namespace MerkleProof

def reconstructRoot (hashBytes : String → String) (proof : MerkleProof) : String :=
  proof.steps.foldl
    (fun current step =>
      if step.siblingIsLeft then MerkleTree.hashNode hashBytes step.siblingHash current
      else MerkleTree.hashNode hashBytes current step.siblingHash)
    proof.leafHash

def isValid (proof : MerkleProof) : Bool := !proof.leafHash.isEmpty

def verify (hashBytes : String → String) (proof : MerkleProof) (expectedRoot : String) : Bool :=
  proof.isValid && proof.reconstructRoot hashBytes == expectedRoot

end MerkleProof

--
-- The sparse tree
--

/-- `SparseMerkleTree::Node`, behind its pointer. -/
inductive SmtNode
  | null
  | node (hash : String) (left right : SmtNode)

namespace SmtNode

def left : SmtNode → SmtNode
  | null => null
  | node _ left _ => left

def right : SmtNode → SmtNode
  | null => null
  | node _ _ right => right

/-- The child a bit leads to. -/
def child (n : SmtNode) (bit : Bool) : SmtNode := if bit then n.right else n.left

end SmtNode

structure SparseMerkleTree where
  root : SmtNode

namespace SparseMerkleTree

/-- `m_defaultHashes`. -/
def defaultHash (hashBytes : String → String) : Nat → String
  | 0 => hashBytes ""
  | level + 1 =>
    MerkleTree.hashNode hashBytes (defaultHash hashBytes level) (defaultHash hashBytes level)

def getNodeHash (hashBytes : String → String) (n : SmtNode) (level : Nat) : String :=
  match n with
  | .null => defaultHash hashBytes level
  | .node hash _ _ => if hash.isEmpty then defaultHash hashBytes level else hash

/-- The value of one digit; `none` stands for the exception. -/
def hexValue (c : Char) : Option Nat :=
  if '0' ≤ c ∧ c ≤ '9' then some (c.toNat - '0'.toNat)
  else if 'a' ≤ c ∧ c ≤ 'f' then some (c.toNat - 'a'.toNat + 10)
  else if 'A' ≤ c ∧ c ≤ 'F' then some (c.toNat - 'A'.toNat + 10)
  else none

/-- Four bits, the highest first. -/
def nibble (value : Nat) : List Bool :=
  [value.testBit 3, value.testBit 2, value.testBit 1, value.testBit 0]

def hexToBits (hex : String) : Option (List Bool) :=
  if hex.length ≠ 64 then none
  else (hex.toList.mapM hexValue).map (·.flatMap nibble)

/-- The level is the number of bits that are left. -/
def updateRecursive (hashBytes : String → String) (valueHash : String) :
    SmtNode → List Bool → SmtNode
  | n, [] => .node valueHash n.left n.right
  | n, bit :: bits =>
    let left := if bit then n.left else updateRecursive hashBytes valueHash n.left bits
    let right := if bit then updateRecursive hashBytes valueHash n.right bits else n.right
    .node
      (MerkleTree.hashNode hashBytes (getNodeHash hashBytes left bits.length)
        (getNodeHash hashBytes right bits.length))
      left right

def empty : SparseMerkleTree := ⟨.null⟩

def update (hashBytes : String → String) (tree : SparseMerkleTree) (keyHex valueHash : String) :
    Option SparseMerkleTree :=
  match hexToBits keyHex with
  | none => none
  | some bits => some ⟨updateRecursive hashBytes valueHash tree.root bits⟩

def rootHash (hashBytes : String → String) (tree : SparseMerkleTree) : String :=
  getNodeHash hashBytes tree.root 256

/-- The sibling as `collectProofSteps` reads it. -/
def siblingHash (hashBytes : String → String) (sibling : SmtNode) (level : Nat) : String :=
  match sibling with
  | .null => defaultHash hashBytes level
  | .node hash _ _ => hash

def collectProofSteps (hashBytes : String → String) :
    SmtNode → List Bool → List MerkleProofStep
  | _, [] => []
  | n, bit :: bits =>
    { siblingHash := siblingHash hashBytes (n.child !bit) bits.length, siblingIsLeft := bit } ::
      collectProofSteps hashBytes (n.child bit) bits

/-- The walk of `generateProof` down to a leaf. -/
def descend : SmtNode → List Bool → SmtNode
  | n, [] => n
  | .null, _ :: _ => .null
  | n, bit :: bits => descend (n.child bit) bits

def generateProof (hashBytes : String → String) (tree : SparseMerkleTree) (keyHex : String) :
    Option MerkleProof :=
  match hexToBits keyHex with
  | none => none
  | some bits =>
    some
      { leafHash := getNodeHash hashBytes (descend tree.root bits) 0
        steps := (collectProofSteps hashBytes tree.root bits).reverse }

--
-- The map a tree stands for
--

/-- The leaf of a path: the value written last, or the default where there is none or
an empty one. -/
def leafOf (hashBytes : String → String) (value : Option String) : String :=
  if (value.getD "").isEmpty then defaultHash hashBytes 0 else value.getD ""

/-- The root of a map from paths to the values written last. -/
def mapRoot (hashBytes : String → String) (level : Nat) (values : List Bool → Option String) :
    String :=
  HashTree.perfectRoot (MerkleTree.hashNode hashBytes) level
    (fun path => leafOf hashBytes (values path))

/-- The subtree at a level stands for the values written below it. -/
def Represents (hashBytes : String → String) :
    Nat → SmtNode → (List Bool → Option String) → Prop
  | level, .null, values => ∀ path, path.length = level → values path = none
  | 0, .node hash _ _, values => values [] = some hash
  | level + 1, .node hash left right, values =>
    hash = MerkleTree.hashNode hashBytes (getNodeHash hashBytes left level)
        (getNodeHash hashBytes right level) ∧
      Represents hashBytes level left (fun path => values (false :: path)) ∧
      Represents hashBytes level right (fun path => values (true :: path))

variable {hashBytes : String → String}

theorem represents_null {level : Nat} {values : List Bool → Option String} :
    Represents hashBytes level .null values ↔
      ∀ path, path.length = level → values path = none := by
  cases level <;> exact Iff.rfl

/-- Nothing written, nothing but defaults. -/
theorem mapRoot_none {level : Nat} {values : List Bool → Option String}
    (h : ∀ path, path.length = level → values path = none) :
    mapRoot hashBytes level values = defaultHash hashBytes level := by
  induction level generalizing values with
  | zero =>
    show leafOf hashBytes (values []) = _
    rw [h [] rfl]
    rfl
  | succ level ih =>
    have hleft := @ih (fun path => values (false :: path))
      (fun path hpath => h (false :: path) (by rw [List.length_cons, hpath]))
    have hright := @ih (fun path => values (true :: path))
      (fun path hpath => h (true :: path) (by rw [List.length_cons, hpath]))
    show MerkleTree.hashNode hashBytes (mapRoot hashBytes level _) (mapRoot hashBytes level _) = _
    rw [hleft, hright]
    rfl

/-- The children of a subtree, and of one that is not there. -/
theorem Represents.child {level : Nat} {n : SmtNode} {values : List Bool → Option String}
    (h : Represents hashBytes (level + 1) n values) (bit : Bool) :
    Represents hashBytes level (n.child bit) (fun path => values (bit :: path)) := by
  cases n with
  | null =>
    have hnone : Represents hashBytes level .null (fun path => values (bit :: path)) :=
      represents_null.mpr (fun path hpath => h (bit :: path) (by rw [List.length_cons, hpath]))
    cases bit <;> exact hnone
  | node hash left right =>
    obtain ⟨-, hleft, hright⟩ := h
    cases bit with
    | false => exact hleft
    | true => exact hright

/-- **The hash of a subtree** is the root of its map. -/
theorem Represents.getNodeHash (hne : ∀ text, hashBytes text ≠ "") {level : Nat} {n : SmtNode}
    {values : List Bool → Option String} (h : Represents hashBytes level n values) :
    getNodeHash hashBytes n level = mapRoot hashBytes level values := by
  induction level generalizing n values with
  | zero =>
    cases n with
    | null => exact (mapRoot_none h).symm
    | node hash left right =>
      have hvalue : values [] = some hash := h
      show _ = leafOf hashBytes (values [])
      rw [hvalue]
      rfl
  | succ level ih =>
    cases n with
    | null => exact (mapRoot_none h).symm
    | node hash left right =>
      obtain ⟨rfl, hleft, hright⟩ := h
      have hkept : SparseMerkleTree.getNodeHash hashBytes (.node (MerkleTree.hashNode hashBytes
          (SparseMerkleTree.getNodeHash hashBytes left level)
          (SparseMerkleTree.getNodeHash hashBytes right level)) left right) (level + 1) =
          MerkleTree.hashNode hashBytes (SparseMerkleTree.getNodeHash hashBytes left level)
            (SparseMerkleTree.getNodeHash hashBytes right level) :=
        if_neg (by simpa [MerkleTree.hashNode] using hne _)
      rw [hkept, ih hleft, ih hright]
      rfl

/-- **An update of the trie** is an update of the map. -/
theorem Represents.update {level : Nat} {n : SmtNode} {values : List Bool → Option String}
    (h : Represents hashBytes level n values) (valueHash : String) {bits : List Bool}
    (hbits : bits.length = level) :
    Represents hashBytes level (updateRecursive hashBytes valueHash n bits)
      (Function.update values bits (some valueHash)) := by
  induction bits generalizing level n values with
  | nil =>
    subst hbits
    exact Function.update_self _ _ _
  | cons bit rest ih =>
    subst hbits
    -- below the other child the map stays, below this one it is updated
    have hsame : (fun path => Function.update values (bit :: rest) (some valueHash)
        (bit :: path)) =
        Function.update (fun path => values (bit :: path)) rest (some valueHash) := by
      funext path
      by_cases heq : path = rest
      · rw [heq, Function.update_self, Function.update_self]
      · rw [Function.update_of_ne (fun h => heq (List.cons.inj h).2), Function.update_of_ne heq]
    have hother : (fun path => Function.update values (bit :: rest) (some valueHash)
        ((!bit) :: path)) = fun path => values ((!bit) :: path) := by
      funext path
      exact Function.update_of_ne (fun h => Bool.not_ne_self bit (List.cons.inj h).1) _ _
    have hthis := ih (h.child bit) rfl
    have hthat := h.child (!bit)
    rw [← hsame] at hthis
    rw [← hother] at hthat
    cases bit with
    | false => exact ⟨rfl, hthis, hthat⟩
    | true => exact ⟨rfl, hthat, hthis⟩

/-- The leaf a walk leads to. -/
theorem Represents.descend {level : Nat} {n : SmtNode} {values : List Bool → Option String}
    (h : Represents hashBytes level n values) {bits : List Bool} (hbits : bits.length = level) :
    SparseMerkleTree.getNodeHash hashBytes (descend n bits) 0 = leafOf hashBytes (values bits) := by
  induction bits generalizing level n values with
  | nil =>
    subst hbits
    cases n with
    | null =>
      have hnone : values [] = none := h [] rfl
      rw [hnone]
      rfl
    | node hash left right =>
      have hvalue : values [] = some hash := h
      rw [hvalue]
      rfl
  | cons bit rest ih =>
    subst hbits
    cases n with
    | null =>
      rw [h (bit :: rest) rfl]
      rfl
    | node hash left right => exact ih (h.child bit) rfl

--
-- Proofs
--

/-- A node over a digest and its sibling. -/
def combine (hashBytes : String → String) (siblingIsLeft : Bool) (sibling below : String) :
    String :=
  if siblingIsLeft then MerkleTree.hashNode hashBytes sibling below
  else MerkleTree.hashNode hashBytes below sibling

/-- The root a proof leads to, with the steps from the top down. -/
def climb (hashBytes : String → String) (below : String) : List MerkleProofStep → String
  | [] => below
  | step :: rest =>
    combine hashBytes step.siblingIsLeft step.siblingHash (climb hashBytes below rest)

theorem reconstructRoot_reverse (leafHash : String) (steps : List MerkleProofStep) :
    MerkleProof.reconstructRoot hashBytes ⟨leafHash, steps.reverse⟩ =
      climb hashBytes leafHash steps := by
  unfold MerkleProof.reconstructRoot
  rw [List.foldl_reverse]
  induction steps with
  | nil => rfl
  | cons step rest ih =>
    rw [List.foldr_cons, ih]
    rfl

/-- A node determines the digest below it, and the sibling. -/
theorem combine_inj (hinj : Function.Injective hashBytes) (bit : Bool) (other : String)
    {a b : String} :
    (combine hashBytes bit other a = combine hashBytes bit other b ↔ a = b) ∧
      (combine hashBytes bit a other = combine hashBytes bit b other ↔ a = b) := by
  have hleft : MerkleTree.hashNode hashBytes a other = MerkleTree.hashNode hashBytes b other →
      a = b := by
    intro h
    have htext := congrArg String.toList (hinj h)
    simp only [String.toList_append, List.append_assoc] at htext
    exact String.toList_injective (List.append_cancel_right (List.append_cancel_left htext))
  have hright : MerkleTree.hashNode hashBytes other a = MerkleTree.hashNode hashBytes other b →
      a = b := by
    intro h
    have htext := congrArg String.toList (hinj h)
    simp only [String.toList_append, List.append_assoc] at htext
    exact String.toList_injective (List.append_cancel_left (List.append_cancel_left htext))
  cases bit with
  | false => exact ⟨⟨hleft, fun h => by rw [h]⟩, ⟨hright, fun h => by rw [h]⟩⟩
  | true => exact ⟨⟨hright, fun h => by rw [h]⟩, ⟨hleft, fun h => by rw [h]⟩⟩

/-- The root of a map, seen from one of its halves. -/
theorem mapRoot_succ (level : Nat) (values : List Bool → Option String) (bit : Bool) :
    mapRoot hashBytes (level + 1) values =
      combine hashBytes bit (mapRoot hashBytes level (fun path => values ((!bit) :: path)))
        (mapRoot hashBytes level (fun path => values (bit :: path))) := by
  cases bit <;> rfl

/-- The path that differs in the last bit. -/
def lastFlipped : List Bool → List Bool
  | [] => []
  | [bit] => [!bit]
  | bit :: next :: rest => bit :: lastFlipped (next :: rest)

/-- A sibling is read right, unless it is an emptied leaf. -/
theorem Represents.siblingHash_iff (hne : ∀ text, hashBytes text ≠ "") {n : SmtNode}
    {values : List Bool → Option String} (h : Represents hashBytes 0 n values) :
    siblingHash hashBytes n 0 = SparseMerkleTree.getNodeHash hashBytes n 0 ↔
      values [] ≠ some "" := by
  cases n with
  | null =>
    have hnone : values [] = none := h [] rfl
    rw [hnone]
    exact ⟨fun _ => by simp, fun _ => rfl⟩
  | node hash left right =>
    have hvalue : values [] = some hash := h
    rw [hvalue]
    show hash = (if hash.isEmpty then defaultHash hashBytes 0 else hash) ↔ _
    by_cases hempty : hash = ""
    · subst hempty
      exact ⟨fun heq => absurd heq.symm (hne ""), fun hnot => absurd rfl hnot⟩
    · rw [if_neg (by simpa using hempty)]
      exact ⟨fun _ heq => hempty (Option.some.inj heq), fun _ => rfl⟩

/-- Above the leaves every sibling is read right: a written node has a hash. -/
theorem Represents.siblingHash_eq (hne : ∀ text, hashBytes text ≠ "") {level : Nat} {n : SmtNode}
    {values : List Bool → Option String} (h : Represents hashBytes (level + 1) n values) :
    siblingHash hashBytes n (level + 1) =
      SparseMerkleTree.getNodeHash hashBytes n (level + 1) := by
  cases n with
  | null => rfl
  | node hash left right =>
    obtain ⟨rfl, -, -⟩ := h
    exact (if_neg (by simpa [MerkleTree.hashNode] using hne _)).symm

/-- **A proof gives the root** exactly when the leaf next to it was not emptied. -/
theorem Represents.reconstruct_iff (hne : ∀ text, hashBytes text ≠ "")
    (hinj : Function.Injective hashBytes) {level : Nat} {n : SmtNode}
    {values : List Bool → Option String} (h : Represents hashBytes (level + 1) n values)
    {bits : List Bool} (hbits : bits.length = level + 1) :
    climb hashBytes (leafOf hashBytes (values bits)) (collectProofSteps hashBytes n bits) =
        mapRoot hashBytes (level + 1) values ↔
      values (lastFlipped bits) ≠ some "" := by
  induction level generalizing n values bits with
  | zero =>
    obtain ⟨bit, rfl⟩ := List.length_eq_one_iff.mp hbits
    have hsibling := (h.child (!bit)).siblingHash_iff hne
    rw [(h.child (!bit)).getNodeHash hne] at hsibling
    rw [lastFlipped, ← hsibling, mapRoot_succ 0 values bit]
    exact (combine_inj hinj bit _).2
  | succ level ih =>
    obtain ⟨bit, next, rest, rfl⟩ : ∃ bit next rest, bits = bit :: next :: rest := by
      match bits, hbits with
      | bit :: next :: rest, _ => exact ⟨bit, next, rest, rfl⟩
    have hrest : (next :: rest).length = level + 1 := Nat.succ.inj hbits
    have hsibling := (h.child (!bit)).siblingHash_eq hne
    rw [(h.child (!bit)).getNodeHash hne] at hsibling
    rw [lastFlipped, mapRoot_succ (level + 1) values bit, collectProofSteps, climb, hrest,
      hsibling, (combine_inj hinj bit _).1]
    exact ih (h.child bit) hrest

--
-- Keys
--

/-- The digit of a value, in lower case. -/
def lowerDigit (value : Nat) : Char := "0123456789abcdef".toList.getD value ' '

/-- A digit is known by its value, up to its case. -/
theorem hexValue_spec {c : Char} {value : Nat} (h : hexValue c = some value) :
    value < 16 ∧ c.toLower = lowerDigit value := by
  have htable : ∀ n : Fin 128, ∀ v ∈ hexValue (Char.ofNat n), v < 16 ∧
      (Char.ofNat n).toLower = lowerDigit v := by decide +kernel
  have hsmall : c.toNat < 128 := by
    unfold hexValue at h
    split at h
    · rename_i hdigit
      have : c.toNat ≤ 57 := hdigit.2
      omega
    · split at h
      · rename_i hlower
        have : c.toNat ≤ 102 := hlower.2
        omega
      · split at h
        · rename_i hupper
          have : c.toNat ≤ 70 := hupper.2
          omega
        · cases h
  have hentry := htable ⟨c.toNat, hsmall⟩ value
  simp only [Char.ofNat_toNat] at hentry
  exact hentry h

example : hexValue 'F' = some 15 := by decide +kernel

theorem lowerDigit_inj {a b : Nat} (ha : a < 16) (hb : b < 16) (h : lowerDigit a = lowerDigit b) :
    a = b := by
  have htable : ∀ a b : Fin 16, lowerDigit a = lowerDigit b → a = b := by decide +kernel
  exact congrArg Fin.val (htable ⟨a, ha⟩ ⟨b, hb⟩ h)

theorem nibble_inj {a b : Nat} (ha : a < 16) (hb : b < 16) (h : nibble a = nibble b) : a = b := by
  have htable : ∀ a b : Fin 16, nibble a = nibble b → a = b := by decide +kernel
  exact congrArg Fin.val (htable ⟨a, ha⟩ ⟨b, hb⟩ h)

/-- Digits give the same bits exactly when they differ in case only. -/
theorem bits_eq_iff {digits digits' : List Char} {values values' : List Nat}
    (h : digits.mapM hexValue = some values) (h' : digits'.mapM hexValue = some values') :
    values.flatMap nibble = values'.flatMap nibble ↔
      digits.map Char.toLower = digits'.map Char.toLower := by
  induction digits generalizing digits' values values' with
  | nil =>
    obtain rfl := Option.some.inj h
    cases digits' with
    | nil =>
      obtain rfl := Option.some.inj h'
      simp
    | cons c rest =>
      rw [List.mapM_cons] at h'
      obtain ⟨value, -, h'⟩ := Option.bind_eq_some_iff.mp h'
      obtain ⟨others, -, h'⟩ := Option.bind_eq_some_iff.mp h'
      obtain rfl := Option.some.inj h'
      simp [nibble]
  | cons c rest ih =>
    rw [List.mapM_cons] at h
    obtain ⟨value, hvalue, h⟩ := Option.bind_eq_some_iff.mp h
    obtain ⟨others, hothers, h⟩ := Option.bind_eq_some_iff.mp h
    obtain rfl := Option.some.inj h
    cases digits' with
    | nil =>
      obtain rfl := Option.some.inj h'
      simp [nibble]
    | cons c' rest' =>
      rw [List.mapM_cons] at h'
      obtain ⟨value', hvalue', h'⟩ := Option.bind_eq_some_iff.mp h'
      obtain ⟨others', hothers', h'⟩ := Option.bind_eq_some_iff.mp h'
      obtain rfl := Option.some.inj h'
      obtain ⟨hlt, hlower⟩ := hexValue_spec hvalue
      obtain ⟨hlt', hlower'⟩ := hexValue_spec hvalue'
      rw [List.flatMap_cons, List.flatMap_cons, List.map_cons, List.map_cons, List.cons.injEq,
        ← ih hothers hothers', hlower, hlower']
      constructor
      · intro heq
        obtain ⟨hfirst, hrest⟩ := List.append_inj heq rfl
        exact ⟨congrArg lowerDigit (nibble_inj hlt hlt' hfirst), hrest⟩
      · rintro ⟨hfirst, hrest⟩
        rw [lowerDigit_inj hlt hlt' hfirst, hrest]

/-- The parts of an accepted key. -/
theorem hexToBits_eq_some {hex : String} {bits : List Bool} (h : hexToBits hex = some bits) :
    hex.length = 64 ∧ ∃ values, hex.toList.mapM hexValue = some values ∧
      values.flatMap nibble = bits := by
  unfold hexToBits at h
  split at h
  · cases h
  · rename_i hlength
    exact ⟨not_not.mp hlength, Option.map_eq_some_iff.mp h⟩

theorem length_bits {digits : List Char} {values : List Nat}
    (h : digits.mapM hexValue = some values) :
    (values.flatMap nibble).length = 4 * digits.length := by
  induction digits generalizing values with
  | nil =>
    obtain rfl := Option.some.inj h
    rfl
  | cons c rest ih =>
    rw [List.mapM_cons] at h
    obtain ⟨value, -, h⟩ := Option.bind_eq_some_iff.mp h
    obtain ⟨others, hothers, h⟩ := Option.bind_eq_some_iff.mp h
    obtain rfl := Option.some.inj h
    rw [List.flatMap_cons, List.length_append, ih hothers, List.length_cons]
    show 4 + _ = _
    omega

theorem length_of_hexToBits {hex : String} {bits : List Bool} (h : hexToBits hex = some bits) :
    bits.length = 256 := by
  obtain ⟨hlength, values, hvalues, rfl⟩ := hexToBits_eq_some h
  rw [length_bits hvalues, String.length_toList, hlength]

/-- **Keys are the same** up to letter case. -/
theorem hexToBits_eq_iff {hex hex' : String} {bits bits' : List Bool}
    (h : hexToBits hex = some bits) (h' : hexToBits hex' = some bits') :
    bits = bits' ↔ hex.toLower = hex'.toLower := by
  obtain ⟨-, values, hvalues, rfl⟩ := hexToBits_eq_some h
  obtain ⟨-, values', hvalues', rfl⟩ := hexToBits_eq_some h'
  rw [bits_eq_iff hvalues hvalues', ← String.toList_inj]
  unfold String.toLower
  rw [String.toList_map, String.toList_map]

/-- 64 hexadecimal digits, of either case. -/
def IsKey (hex : String) : Prop := hex.length = 64 ∧ ∀ c ∈ hex.toList, (hexValue c).isSome

theorem hexToBits_of_isKey {hex : String} (h : IsKey hex) : ∃ bits, hexToBits hex = some bits := by
  have hvalues : ∀ digits : List Char, (∀ c ∈ digits, (hexValue c).isSome) →
      ∃ values, digits.mapM hexValue = some values := by
    intro digits hdigits
    induction digits with
    | nil => exact ⟨[], rfl⟩
    | cons c rest ih =>
      obtain ⟨value, hvalue⟩ := Option.isSome_iff_exists.mp (hdigits c List.mem_cons_self)
      obtain ⟨others, hothers⟩ := ih (fun d hd => hdigits d (List.mem_cons_of_mem _ hd))
      refine ⟨value :: others, ?_⟩
      rw [List.mapM_cons, hvalue, hothers]
      rfl
  obtain ⟨values, hread⟩ := hvalues hex.toList h.2
  refine ⟨values.flatMap nibble, ?_⟩
  unfold hexToBits
  rw [if_neg (not_not.mpr h.1), hread]
  rfl

theorem isKey_of_hexToBits {hex : String} {bits : List Bool} (h : hexToBits hex = some bits) :
    IsKey hex := by
  obtain ⟨hlength, values, hvalues, -⟩ := hexToBits_eq_some h
  refine ⟨hlength, ?_⟩
  generalize hex.toList = digits at hvalues
  induction digits generalizing values with
  | nil => exact fun c hc => absurd hc List.not_mem_nil
  | cons digit rest ih =>
    rw [List.mapM_cons] at hvalues
    obtain ⟨value, hvalue, hvalues⟩ := Option.bind_eq_some_iff.mp hvalues
    obtain ⟨others, hothers, -⟩ := Option.bind_eq_some_iff.mp hvalues
    intro c hc
    rcases List.mem_cons.mp hc with rfl | hrest
    · rw [hvalue]
      rfl
    · exact ih others hothers c hrest

--
-- Sequences of updates
--

/-- Calls of `update` with key and value; `none` where one of them throws. -/
def updateAll (hashBytes : String → String) (tree : SparseMerkleTree) :
    List (String × String) → Option SparseMerkleTree
  | [] => some tree
  | (key, value) :: rest =>
    match tree.update hashBytes key value with
    | none => none
    | some tree' => updateAll hashBytes tree' rest

/-- The value written last for a key, in any letter case. -/
def lastWritten (updates : List (String × String)) (key : String) : Option String :=
  (updates.reverse.find? (fun entry => entry.1.toLower == key.toLower)).map (·.2)

/-- The map after the calls. -/
def valuesAfter (values : List Bool → Option String) (updates : List (String × String)) :
    List Bool → Option String :=
  updates.foldl (fun values entry =>
    match hexToBits entry.1 with
    | none => values
    | some bits => Function.update values bits (some entry.2)) values

theorem updateAll_represents {tree : SparseMerkleTree} {values : List Bool → Option String}
    {updates : List (String × String)} (h : Represents hashBytes 256 tree.root values)
    (hkeys : ∀ entry ∈ updates, IsKey entry.1) :
    ∃ tree', tree.updateAll hashBytes updates = some tree' ∧
      Represents hashBytes 256 tree'.root (valuesAfter values updates) := by
  induction updates generalizing tree values with
  | nil => exact ⟨tree, rfl, h⟩
  | cons entry rest ih =>
    obtain ⟨bits, hbits⟩ := hexToBits_of_isKey (hkeys entry List.mem_cons_self)
    have hnext := h.update entry.2 (length_of_hexToBits hbits)
    obtain ⟨tree', htree', hrep⟩ := @ih ⟨updateRecursive hashBytes entry.2 tree.root bits⟩ _ hnext
      (fun other hother => hkeys other (List.mem_cons_of_mem _ hother))
    refine ⟨tree', ?_, ?_⟩
    · unfold updateAll update
      rw [hbits]
      exact htree'
    · unfold valuesAfter
      rw [List.foldl_cons, hbits]
      exact hrep

/-- Calls that do not throw were made with keys. -/
theorem isKey_of_updateAll {tree tree' : SparseMerkleTree} {updates : List (String × String)}
    (h : tree.updateAll hashBytes updates = some tree') : ∀ entry ∈ updates, IsKey entry.1 := by
  induction updates generalizing tree with
  | nil => exact fun entry hmem => absurd hmem List.not_mem_nil
  | cons first rest ih =>
    cases hbits : hexToBits first.1 with
    | none =>
      unfold updateAll update at h
      rw [hbits] at h
      cases h
    | some bits =>
      unfold updateAll update at h
      rw [hbits] at h
      intro entry hmem
      rcases List.mem_cons.mp hmem with rfl | hrest
      · exact isKey_of_hexToBits hbits
      · exact ih h entry hrest

/-- The map holds what was written last. -/
theorem valuesAfter_eq {updates : List (String × String)}
    (hkeys : ∀ entry ∈ updates, IsKey entry.1) {key : String} {bits : List Bool}
    (hbits : hexToBits key = some bits) :
    valuesAfter (fun _ => none) updates bits = lastWritten updates key := by
  induction updates using List.reverseRecOn with
  | nil => rfl
  | append_singleton updates entry ih =>
    obtain ⟨entryBits, hentry⟩ :=
      hexToBits_of_isKey (hkeys entry (List.mem_append_right _ List.mem_cons_self))
    have hbefore := ih (fun other hother => hkeys other (List.mem_append_left _ hother))
    have hsame := hexToBits_eq_iff hbits hentry
    unfold valuesAfter lastWritten at *
    rw [List.foldl_concat, hentry, List.reverse_append, List.reverse_singleton,
      List.singleton_append]
    by_cases heq : bits = entryBits
    · rw [List.find?_cons_of_pos (by simpa using (hsame.mp heq).symm), heq]
      exact Function.update_self _ _ _
    · rw [List.find?_cons_of_neg (by simpa using fun h => heq (hsame.mpr h.symm)), ← hbefore]
      exact Function.update_of_ne heq _ _

/-- A path holds a value only if a key was written there. -/
theorem exists_key_of_valuesAfter {updates : List (String × String)} {bits : List Bool}
    {value : String} (h : valuesAfter (fun _ => none) updates bits = some value) :
    ∃ key, hexToBits key = some bits := by
  induction updates using List.reverseRecOn with
  | nil => cases h
  | append_singleton updates entry ih =>
    unfold valuesAfter at h ih
    rw [List.foldl_concat] at h
    cases hentry : hexToBits entry.1 with
    | none =>
      rw [hentry] at h
      exact ih h
    | some entryBits =>
      rw [hentry] at h
      by_cases heq : bits = entryBits
      · exact ⟨entry.1, heq ▸ hentry⟩
      · exact ih ((Function.update_of_ne heq _ _).symm.trans h)

/-- Equal values give equal roots: an empty value is the same as none. -/
theorem mapRoot_eq {updates updates' : List (String × String)}
    (hkeys : ∀ entry ∈ updates, IsKey entry.1) (hkeys' : ∀ entry ∈ updates', IsKey entry.1)
    (h : ∀ key, (hexToBits key).isSome →
      (lastWritten updates key).getD "" = (lastWritten updates' key).getD "") :
    mapRoot hashBytes 256 (valuesAfter (fun _ => none) updates) =
      mapRoot hashBytes 256 (valuesAfter (fun _ => none) updates') := by
  refine HashTree.perfectRoot_congr (fun path _ => ?_)
  -- a path that some key leads to, or none of the two maps has a value there
  have hagree : ∀ key, hexToBits key = some path →
      leafOf hashBytes (valuesAfter (fun _ => none) updates path) =
        leafOf hashBytes (valuesAfter (fun _ => none) updates' path) := by
    intro key hkey
    unfold leafOf
    rw [valuesAfter_eq hkeys hkey, valuesAfter_eq hkeys' hkey,
      h key (Option.isSome_of_eq_some hkey)]
  cases hvalue : valuesAfter (fun _ => none) updates path with
  | some value =>
    obtain ⟨key, hkey⟩ := exists_key_of_valuesAfter hvalue
    rw [← hvalue]
    exact hagree key hkey
  | none =>
    cases hvalue' : valuesAfter (fun _ => none) updates' path with
    | none => rfl
    | some value =>
      obtain ⟨key, hkey⟩ := exists_key_of_valuesAfter hvalue'
      rw [← hvalue, ← hvalue']
      exact hagree key hkey

/-- The two keys differ in their last bit. -/
def LastBitSibling (key sibling : String) : Prop :=
  ∃ bits, hexToBits key = some bits ∧ hexToBits sibling = some (lastFlipped bits)

/-- What the tree answers for a key after the updates. -/
structure Answers (hashBytes : String → String) (updates : List (String × String))
    (tree : SparseMerkleTree) (key : String) (proof : MerkleProof) : Prop where
  generated : tree.generateProof hashBytes key = some proof
  leaf : proof.leafHash = leafOf hashBytes (lastWritten updates key)
  verified : proof.verify hashBytes (tree.rootHash hashBytes) = true ↔
    ∀ sibling, LastBitSibling key sibling → lastWritten updates sibling ≠ some ""

theorem Represents.answers (hne : ∀ text, hashBytes text ≠ "")
    (hinj : Function.Injective hashBytes) {updates : List (String × String)}
    (hkeys : ∀ entry ∈ updates, IsKey entry.1) {tree : SparseMerkleTree}
    (h : Represents hashBytes 256 tree.root (valuesAfter (fun _ => none) updates))
    {key : String} (hkey : IsKey key) :
    ∃ proof, Answers hashBytes updates tree key proof := by
  obtain ⟨bits, hbits⟩ := hexToBits_of_isKey hkey
  have hlength := length_of_hexToBits hbits
  have hleaf := h.descend hlength
  rw [valuesAfter_eq hkeys hbits] at hleaf
  have hroot := h.reconstruct_iff hne hinj hlength
  rw [valuesAfter_eq hkeys hbits] at hroot
  refine ⟨⟨SparseMerkleTree.getNodeHash hashBytes (SparseMerkleTree.descend tree.root bits) 0,
    (collectProofSteps hashBytes tree.root bits).reverse⟩, ?_, hleaf, ?_⟩
  · unfold generateProof
    rw [hbits]
  · have hvalid : leafOf hashBytes (lastWritten updates key) ≠ "" := by
      unfold leafOf
      split
      · exact hne ""
      · rename_i hvalue
        simpa using hvalue
    unfold MerkleProof.verify MerkleProof.isValid rootHash
    rw [hleaf, reconstructRoot_reverse, h.getNodeHash hne, Bool.and_eq_true, beq_iff_eq, hroot]
    constructor
    · rintro ⟨-, hflipped⟩ sibling ⟨bits', hbits', hsibling⟩
      obtain rfl := Option.some.inj (hbits.symm.trans hbits')
      rw [← valuesAfter_eq hkeys hsibling]
      exact hflipped
    · intro hnone
      refine ⟨by simpa using hvalid, fun hflipped => ?_⟩
      obtain ⟨sibling, hsibling⟩ := exists_key_of_valuesAfter hflipped
      refine hnone sibling ⟨bits, hbits, hsibling⟩ ?_
      rw [← valuesAfter_eq hkeys hsibling]
      exact hflipped

/-- **The sparse tree as a map.** After any updates the root depends only on the values
written last, and every key has a proof with its leaf; the proof verifies exactly when
the key that differs in the last bit was not left with an empty value. -/
theorem sparse_tree_map (hne : ∀ text, hashBytes text ≠ "")
    (hinj : Function.Injective hashBytes) (updates : List (String × String))
    (hkeys : ∀ entry ∈ updates, IsKey entry.1) :
    ∃ tree, empty.updateAll hashBytes updates = some tree ∧
      (∀ updates' tree', (∀ entry ∈ updates', IsKey entry.1) →
        empty.updateAll hashBytes updates' = some tree' →
        (∀ key, (hexToBits key).isSome →
          (lastWritten updates key).getD "" = (lastWritten updates' key).getD "") →
        tree.rootHash hashBytes = tree'.rootHash hashBytes) ∧
      ∀ key, IsKey key → ∃ proof, Answers hashBytes updates tree key proof := by
  have hstart : Represents hashBytes 256 empty.root (fun _ => none) :=
    represents_null.mpr (fun _ _ => rfl)
  obtain ⟨tree, htree, hrep⟩ := updateAll_represents hstart hkeys
  refine ⟨tree, htree, ?_, fun key hkey => hrep.answers hne hinj hkeys hkey⟩
  intro updates' tree' hkeys' htree' hvalues
  obtain ⟨other, hother, hrep'⟩ := updateAll_represents hstart hkeys'
  obtain rfl := Option.some.inj (hother.symm.trans htree')
  unfold rootHash
  rw [hrep.getNodeHash hne, hrep'.getNodeHash hne]
  exact mapRoot_eq hkeys hkeys' hvalues

/-- A hash without collisions, for closed instances. -/
def plainHash (text : String) : String := "#" ++ text

theorem plainHash_ne (text : String) : plainHash text ≠ "" := by
  intro h
  have := congrArg String.toList h
  simp [plainHash] at this

theorem plainHash_injective : Function.Injective plainHash := by
  intro a b h
  have htext := congrArg String.toList h
  simp only [plainHash, String.toList_append] at htext
  exact String.toList_injective (List.append_cancel_left htext)

/-- The keys 0 and 1. -/
def zeroKey : String := "0000000000000000000000000000000000000000000000000000000000000000"

def oneKey : String := "0000000000000000000000000000000000000000000000000000000000000001"

-- The digits of a literal are read off its characters; evaluating them would decode its bytes.
theorem toList_zeroKey : zeroKey.toList = List.replicate 64 '0' := by
  rw [show zeroKey = String.ofList (List.replicate 64 '0') from rfl, String.toList_ofList]

theorem toList_oneKey : oneKey.toList = List.replicate 63 '0' ++ ['1'] := by
  rw [show oneKey = String.ofList (List.replicate 63 '0' ++ ['1']) from rfl, String.toList_ofList]

theorem length_zeroKey : zeroKey.length = 64 := by
  rw [← String.length_toList, toList_zeroKey, List.length_replicate]

theorem length_oneKey : oneKey.length = 64 := by
  rw [← String.length_toList, toList_oneKey]
  rfl

theorem isKey_zeroKey : IsKey zeroKey := by
  have hall : (List.replicate 64 '0').all (fun c => (hexValue c).isSome) = true := by
    decide +kernel
  refine ⟨length_zeroKey, ?_⟩
  rw [toList_zeroKey]
  exact List.all_eq_true.mp hall

theorem isKey_oneKey : IsKey oneKey := by
  have hall : (List.replicate 63 '0' ++ ['1']).all (fun c => (hexValue c).isSome) = true := by
    decide +kernel
  refine ⟨length_oneKey, ?_⟩
  rw [toList_oneKey]
  exact List.all_eq_true.mp hall

example : hexToBits "0" = none := by decide +kernel

theorem hexToBits_zeroKey : hexToBits zeroKey = some (List.replicate 256 false) := by
  rw [hexToBits, if_neg (not_not.mpr length_zeroKey), toList_zeroKey]
  decide +kernel

theorem lastBitSibling_zeroKey : LastBitSibling zeroKey oneKey := by
  refine ⟨List.replicate 256 false, hexToBits_zeroKey, ?_⟩
  · rw [hexToBits, if_neg (not_not.mpr length_oneKey), toList_oneKey]
    decide +kernel

/-- The two keys are told apart in lower case. -/
theorem toLower_oneKey_ne : oneKey.toLower ≠ zeroKey.toLower := by
  intro hsame
  have hlist := congrArg String.toList hsame
  unfold String.toLower at hlist
  rw [String.toList_map, String.toList_map, toList_oneKey, toList_zeroKey] at hlist
  revert hlist
  decide +kernel

theorem sparse_tree_map_sample :
    ∃ tree, empty.updateAll plainHash [(zeroKey, "a"), (oneKey, "b")] = some tree ∧
      ∃ proof, Answers plainHash [(zeroKey, "a"), (oneKey, "b")] tree zeroKey proof := by
  obtain ⟨tree, htree, -, hproofs⟩ := sparse_tree_map plainHash_ne plainHash_injective
    [(zeroKey, "a"), (oneKey, "b")] (by simp [isKey_zeroKey, isKey_oneKey])
  exact ⟨tree, htree, hproofs zeroKey isKey_zeroKey⟩

/-- One leaf written with an empty value, and the proof of the key next to it fails. -/
theorem emptied_leaf_breaks_proof :
    ∃ tree proof, empty.updateAll plainHash [(oneKey, "")] = some tree ∧
      tree.generateProof plainHash zeroKey = some proof ∧
      proof.leafHash = leafOf plainHash none ∧
      proof.verify plainHash (tree.rootHash plainHash) = false := by
  have hkeys : ∀ entry ∈ [(oneKey, "")], IsKey entry.1 := by simp [isKey_oneKey]
  obtain ⟨tree, htree, hrep⟩ := updateAll_represents
    (represents_null.mpr (fun _ _ => rfl) : Represents plainHash 256 empty.root (fun _ => none))
    hkeys
  obtain ⟨proof, hproof⟩ := hrep.answers plainHash_ne plainHash_injective hkeys isKey_zeroKey
  refine ⟨tree, proof, htree, hproof.generated, ?_, ?_⟩
  · have hwritten : lastWritten [(oneKey, "")] zeroKey = none := by
      simp [lastWritten, toLower_oneKey_ne]
    rw [hproof.leaf, hwritten]
  · rw [Bool.eq_false_iff]
    intro hverified
    exact hproof.verified.mp hverified oneKey lastBitSibling_zeroKey
      (by simp [lastWritten])

end SparseMerkleTree

end Nodo.Model
