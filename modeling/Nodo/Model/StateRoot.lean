import Nodo.Lib.SortedMap
import Nodo.Lib.Text
import Nodo.Model.Amount
import Nodo.Model.Merkle

/-!
# Nodo — the protocol state root

`core/StateRootCalculator.cpp`, with the accounts of `core/AccountStateView.cpp` and
the writer of `serialization/CanonicalWriter.cpp`. The root of the accounts is the
root of a sparse tree over the hashes of their addresses; the protocol root is the
root of a Merkle tree over length-prefixed leaves, one for the accounts and one for
each domain. An exception is `none`.

The key of an account is the hash of its address as a C string, which ends at the
first NUL. Two accounts whose addresses agree up to there share a leaf, and the one
later in the map is the one the root knows.

## Results

* `accountLeafPayload_inj`, `stateDomainLeaf_inj` — the texts of the leaves are
  unambiguous.
* `buildRoot_inj` — the Merkle root determines a set of distinct leaves, `buildRoot_binds` what
  it says of leaves that may repeat.
* `buildOrderedRoot_injective` — the ordered Merkle root determines a list.
* `mem_of_accountStateRoot_eq` — an account that owns its key is in every view with
  the same root.
* `protocol_state_root_binds` — the protocol root determines the state exactly when
  no two accounts share a key.
-/

namespace Nodo.Model

--
-- Accounts
--

structure AccountState where
  address : String
  balance : Amount
  nonce : UInt64
  deriving DecidableEq

def AccountState.isValid (account : AccountState) : Bool :=
  !account.address.isEmpty && !account.balance.isNegative

/-- `m_accountsByAddress`. -/
structure AccountStateView where
  accountsByAddress : SortedMap String AccountState
  deriving DecidableEq

namespace AccountStateView

/-- The accounts in the order of their addresses. -/
def accounts (view : AccountStateView) : List AccountState :=
  view.accountsByAddress.entries.map (·.2)

def isValid (view : AccountStateView) : Bool :=
  view.accountsByAddress.entries.all (fun entry =>
    !(entry.1.isEmpty || entry.1 != entry.2.address || !entry.2.isValid))

def accountOrDefault (view : AccountStateView) (address : String) : AccountState :=
  (view.accountsByAddress.find? address).getD ⟨address, Amount.zero, 0⟩

/-- `putAccount`; `none` where it refuses the account. -/
def putAccount (view : AccountStateView) (account : AccountState) : Option AccountStateView :=
  if !account.isValid then none
  else some ⟨view.accountsByAddress.insert account.address account⟩

end AccountStateView

--
-- The canonical writer
--

namespace CanonicalWriter

/-- Four bytes, the highest first. -/
def writeUInt32 (value : Nat) : String :=
  String.ofList
    [Char.ofNat (value / 2 ^ 24 % 256), Char.ofNat (value / 2 ^ 16 % 256),
      Char.ofNat (value / 2 ^ 8 % 256), Char.ofNat (value % 256)]

/-- The size and the bytes; a longer string throws. -/
def writeString (value : String) : Option String :=
  if value.length > 4294967295 then none else some (writeUInt32 value.length ++ value)

end CanonicalWriter

--
-- The roots
--

namespace StateRootCalculator

/-- `nodo_hash_string(address.c_str())`. -/
def accountSmtKey (hashBytes : String → String) (address : String) : String :=
  hashBytes (cString address)

def accountLeafPayload (account : AccountState) : String :=
  "NODO_ACCOUNT_LEAF_V2\x7baddress=" ++ account.address ++ ";balance=" ++
    toString account.balance.rawUnits ++ ";nonce=" ++ toString account.nonce.toNat ++ "\x7d"

/-- The calls of `update` for the accounts, in their order. -/
def accountUpdates (hashBytes : String → String) (view : AccountStateView) :
    List (String × String) :=
  view.accounts.map (fun account =>
    (accountSmtKey hashBytes account.address,
      MerkleTree.hashLeaf hashBytes (accountLeafPayload account)))

def buildAccountStateTree (hashBytes : String → String) (view : AccountStateView) :
    Option SparseMerkleTree :=
  SparseMerkleTree.empty.updateAll hashBytes (accountUpdates hashBytes view)

def calculateAccountStateRoot (hashBytes : String → String) (view : AccountStateView) :
    Option String :=
  if !view.isValid then some ""
  else (buildAccountStateTree hashBytes view).map (SparseMerkleTree.rootHash hashBytes)

/-- The leaf of a domain, the accounts included. -/
def stateDomainLeaf (domain payload : String) : Option String := do
  let label ← CanonicalWriter.writeString "NODO_STATE_DOMAIN_V2"
  let name ← CanonicalWriter.writeString domain
  let content ← CanonicalWriter.writeString payload
  return label ++ name ++ content

/-- The loop over the domains: `some none` where it returns the empty root. -/
def domainLeaves : List String → List (String × String) → Option (Option (List String))
  | leaves, [] => some (some leaves)
  | leaves, (domain, payload) :: rest =>
    if domain.isEmpty || domain == "accounts" || payload.isEmpty then some none
    else
      match stateDomainLeaf domain payload with
      | none => none
      | some leaf => domainLeaves (leaves ++ [leaf]) rest

def calculateProtocolStateRoot (hashBytes : String → String) (view : AccountStateView)
    (deterministicDomains : SortedMap String String) : Option String :=
  match calculateAccountStateRoot hashBytes view with
  | none => none
  | some accountRoot =>
    if accountRoot.isEmpty then some ""
    else if deterministicDomains.entries.isEmpty then some accountRoot
    else
      match stateDomainLeaf "accounts" accountRoot with
      | none => none
      | some accountLeaf =>
        match domainLeaves [accountLeaf] deterministicDomains.entries with
        | none => none
        | some none => some ""
        | some (some leaves) => some (MerkleTree.buildRoot hashBytes leaves)

end StateRootCalculator

--
-- The texts of the leaves
--

namespace CanonicalWriter

theorem byte_inj {a b : Nat} (ha : a < 256) (hb : b < 256) (h : Char.ofNat a = Char.ofNat b) :
    a = b := by
  have htoNat : ∀ n : Fin 256, (Char.ofNat n).toNat = n := by decide +kernel
  have heq := congrArg Char.toNat h
  rw [htoNat ⟨a, ha⟩, htoNat ⟨b, hb⟩] at heq
  exact heq

theorem length_writeUInt32 (value : Nat) : (writeUInt32 value).toList.length = 4 := by
  rw [writeUInt32, String.toList_ofList]
  rfl

theorem writeUInt32_inj {a b : Nat} (ha : a ≤ 4294967295) (hb : b ≤ 4294967295)
    (h : writeUInt32 a = writeUInt32 b) : a = b := by
  have hlist := congrArg String.toList h
  rw [writeUInt32, writeUInt32, String.toList_ofList, String.toList_ofList] at hlist
  simp only [List.cons.injEq, and_true] at hlist
  obtain ⟨h3, h2, h1, h0⟩ := hlist
  have h3 := byte_inj (by omega) (by omega) h3
  have h2 := byte_inj (by omega) (by omega) h2
  have h1 := byte_inj (by omega) (by omega) h1
  have h0 := byte_inj (by omega) (by omega) h0
  omega

/-- A written string is cut off in one way. -/
theorem writeString_inj {a b x y s t : String} (ha : writeString a = some x)
    (hb : writeString b = some y) (h : x.toList ++ s.toList = y.toList ++ t.toList) :
    a = b ∧ s = t := by
  unfold writeString at ha hb
  split at ha
  · cases ha
  · split at hb
    · cases hb
    · obtain rfl := Option.some.inj ha
      obtain rfl := Option.some.inj hb
      simp only [String.toList_append, List.append_assoc] at h
      obtain ⟨hsize, hrest⟩ := List.append_inj h
        ((length_writeUInt32 _).trans (length_writeUInt32 _).symm)
      have hlength : a.length = b.length :=
        writeUInt32_inj (by omega) (by omega) (String.toList_injective hsize)
      obtain ⟨htext, hafter⟩ := List.append_inj hrest
        (by rw [String.length_toList, String.length_toList, hlength])
      exact ⟨String.toList_injective htext, String.toList_injective hafter⟩

end CanonicalWriter

namespace StateRootCalculator

/-- The leaf of a domain determines the domain and its payload. -/
theorem stateDomainLeaf_inj {domain payload domain' payload' leaf : String}
    (h : stateDomainLeaf domain payload = some leaf)
    (h' : stateDomainLeaf domain' payload' = some leaf) : domain = domain' ∧ payload = payload' := by
  unfold stateDomainLeaf at h h'
  obtain ⟨label, hlabel, h⟩ := Option.bind_eq_some_iff.mp h
  obtain ⟨name, hname, h⟩ := Option.bind_eq_some_iff.mp h
  obtain ⟨content, hcontent, h⟩ := Option.bind_eq_some_iff.mp h
  obtain ⟨label', hlabel', h'⟩ := Option.bind_eq_some_iff.mp h'
  obtain ⟨name', hname', h'⟩ := Option.bind_eq_some_iff.mp h'
  obtain ⟨content', hcontent', h'⟩ := Option.bind_eq_some_iff.mp h'
  have heq := congrArg String.toList (Option.some.inj (h.trans h'.symm))
  simp only [String.toList_append, List.append_assoc] at heq
  have hfirst := CanonicalWriter.writeString_inj (s := name ++ content) (t := name' ++ content')
    hlabel hlabel' (by simpa only [String.toList_append] using heq)
  have hsecond := CanonicalWriter.writeString_inj hname hname'
    (by simpa only [String.toList_append] using congrArg String.toList hfirst.2)
  have hthird := CanonicalWriter.writeString_inj (s := "") (t := "") hcontent hcontent'
    (by rw [hsecond.2])
  exact ⟨hsecond.1, hthird.1⟩

/-- The text of a leaf determines the account, whatever its address holds. -/
theorem accountLeafPayload_inj {account account' : AccountState}
    (h : accountLeafPayload account = accountLeafPayload account') : account = account' := by
  obtain ⟨address, balance, nonce⟩ := account
  obtain ⟨address', balance', nonce'⟩ := account'
  have hlist := congrArg String.toList h
  -- the fields are cut off from the right: the numbers hold no `=`
  have hnumber : ∀ n : Nat, '=' ∉ (toString n).toList := fun n => Text.not_mem_toString rfl
  have htext : ∀ (addr : String) (b n : Nat),
      ("NODO_ACCOUNT_LEAF_V2\x7baddress=" ++ addr ++ ";balance=" ++ toString b ++ ";nonce=" ++
        toString n ++ "\x7d").toList =
      ("NODO_ACCOUNT_LEAF_V2\x7baddress=".toList ++ addr.toList ++ ";balance".toList ++
        '=' :: (toString b).toList ++ ";nonce".toList) ++ '=' :: ((toString n).toList ++ ['}']) := by
    intro addr b n
    simp [String.toList_append]
  unfold accountLeafPayload at hlist
  rw [htext, htext] at hlist
  have hend : ∀ n : Nat, '=' ∉ (toString n).toList ++ ['}'] := by
    intro n hmem
    rcases List.mem_append.mp hmem with hin | hin
    · exact hnumber n hin
    · exact absurd (List.mem_singleton.mp hin) (by decide)
  obtain ⟨hbefore, hnonce⟩ := Text.append_last_delimiter_inj (hend _) (hend _) hlist
  have hnonce := Text.toString_nat_inj (String.toList_injective (List.append_cancel_right hnonce))
  have hbefore := List.append_cancel_right hbefore
  obtain ⟨hbefore, hbalance⟩ :=
    Text.append_last_delimiter_inj (hnumber _) (hnumber _) hbefore
  have hbalance := Text.toString_nat_inj (String.toList_injective hbalance)
  have haddress := List.append_cancel_left (List.append_cancel_right hbefore)
  obtain rfl := String.toList_injective haddress
  obtain rfl := Amount.ext hbalance
  obtain rfl := UInt64.toNat_inj.mp hnonce
  rfl

end StateRootCalculator

--
-- The hash
--

/-- What the roots rest on. `utils::hashBytes` prints 64 hexadecimal digits in lower
case, so two digests side by side can be told apart; that it has no collisions is the
assumption of every root. -/
structure CollisionFree (hashBytes : String → String) : Prop where
  injective : Function.Injective hashBytes
  splits : ∀ a b c d, hashBytes a ++ hashBytes b = hashBytes c ++ hashBytes d →
    hashBytes a = hashBytes c
  lower : ∀ text, (hashBytes text).toLower = hashBytes text

namespace CollisionFree

variable {hashBytes : String → String} (hhash : CollisionFree hashBytes)

include hhash

theorem ne_empty (text : String) : hashBytes text ≠ "" := by
  intro hempty
  have hsame := hhash.splits text "a" "a" text (by rw [hempty, String.empty_append,
    String.append_empty])
  have hsame' := hhash.splits text "b" "b" text (by rw [hempty, String.empty_append,
    String.append_empty])
  have hab := hhash.injective (hsame.symm.trans hsame')
  exact absurd hab (by decide)

/-- A node determines the two texts whose digests it hashes. -/
theorem node_injective2 :
    Function.Injective2 (fun a b => MerkleTree.nodePrefix ++ hashBytes a ++ hashBytes b) := by
  intro a c b d h
  have hlist := congrArg String.toList h
  simp only [String.toList_append, List.append_assoc] at hlist
  have hpair := List.append_cancel_left hlist
  rw [← String.toList_append, ← String.toList_append] at hpair
  have hleft := hhash.splits a b c d (String.toList_injective hpair)
  rw [String.toList_append, String.toList_append, hleft] at hpair
  exact ⟨hhash.injective hleft,
    hhash.injective (String.toList_injective (List.append_cancel_left hpair))⟩

end CollisionFree

namespace MerkleTree

/-- A leaf is not a node: the prefixes differ. -/
theorem leaf_ne_node (payload rest : String) : leafPrefix ++ payload ≠ nodePrefix ++ rest := by
  intro h
  have hlist := congrArg (fun text : String => text.toList.take 13) h
  simp only [String.toList_append] at hlist
  rw [List.take_append_of_le_length (by decide), List.take_append_of_le_length (by decide)] at hlist
  exact absurd hlist (by decide)

theorem leaf_inj {payload payload' : String} (h : leafPrefix ++ payload = leafPrefix ++ payload') :
    payload = payload' := by
  have hlist := congrArg String.toList h
  rw [String.toList_append, String.toList_append] at hlist
  exact String.toList_injective (List.append_cancel_left hlist)

/-- The texts below the layers, before they are hashed. -/
theorem hashLayer_eq (hashBytes : String → String) (payloads : List String) :
    hashLayer hashBytes (payloads.map (hashLeaf hashBytes)) =
      hashBytes (HashTree.layerRoot
        (fun a b => nodePrefix ++ hashBytes a ++ hashBytes b) emptyPayload
        (payloads.map (leafPrefix ++ ·))) := by
  have hmap : hashBytes (HashTree.layerRoot
      (fun a b => nodePrefix ++ hashBytes a ++ hashBytes b) emptyPayload
      (payloads.map (leafPrefix ++ ·))) =
      HashTree.layerRoot (hashNode hashBytes) (hashBytes emptyPayload)
        ((payloads.map (leafPrefix ++ ·)).map hashBytes) :=
    HashTree.layerRoot_map (fun a b => rfl) _ _
  rw [hmap, List.map_map]
  rfl

theorem buildRoot_eq (hashBytes : String → String) (leaves : List String) :
    buildRoot hashBytes leaves =
      hashBytes (HashTree.layerRoot
        (fun a b => nodePrefix ++ hashBytes a ++ hashBytes b) emptyPayload
        ((leaves.mergeSort (· ≤ ·)).map (leafPrefix ++ ·))) := by
  unfold buildRoot
  cases leaves with
  | nil => simp [HashTree.layerRoot]
  | cons payload rest =>
    rw [List.isEmpty_cons, if_neg Bool.false_ne_true, hashLayer_eq]

/-- A leaf is no node over two texts. -/
theorem leaf_ne_nodes (hashBytes : String → String) (payload a b : String) :
    leafPrefix ++ payload ≠ nodePrefix ++ hashBytes a ++ hashBytes b := by
  rw [String.append_assoc]
  exact leaf_ne_node _ _

/-- **The Merkle root determines a set of distinct leaves**, whatever their number. -/
theorem buildRoot_inj {hashBytes : String → String} (hhash : CollisionFree hashBytes)
    {leaves leaves' : List String} (hne : leaves ≠ []) (hne' : leaves' ≠ [])
    (hdistinct : leaves.Nodup) (hdistinct' : leaves'.Nodup)
    (h : buildRoot hashBytes leaves = buildRoot hashBytes leaves') : leaves.Perm leaves' := by
  rw [buildRoot_eq, buildRoot_eq] at h
  have hsorted := List.mergeSort_perm leaves (· ≤ ·)
  have hsorted' := List.mergeSort_perm leaves' (· ≤ ·)
  have heq := HashTree.layerRoot_inj hhash.node_injective2 (fun _ _ => leaf_inj)
    (leaf_ne_nodes hashBytes)
    (by simpa [← List.length_pos_iff, hsorted.length_eq] using hne)
    (by simpa [← List.length_pos_iff, hsorted'.length_eq] using hne')
    (hsorted.nodup_iff.mpr hdistinct) (hsorted'.nodup_iff.mpr hdistinct') (hhash.injective h)
  exact (hsorted.symm.trans (heq ▸ List.Perm.refl _)).trans hsorted'

end MerkleTree

--
-- The root of the accounts
--

namespace StateRootCalculator

/-- The account whose leaf stands at a path: the last one with that key. -/
def pathAccount (hashBytes : String → String) (accounts : List AccountState)
    (path : List Bool) : Option AccountState :=
  accounts.reverse.find? (fun account =>
    SparseMerkleTree.hexToBits (accountSmtKey hashBytes account.address) == some path)

/-- The text that the leaf at a path is the hash of. -/
def leafText (hashBytes : String → String) (accounts : List AccountState) (path : List Bool) :
    String :=
  match pathAccount hashBytes accounts path with
  | none => ""
  | some account => MerkleTree.leafPrefix ++ accountLeafPayload account

variable {hashBytes : String → String}

theorem pathAccount_eq_some {accounts : List AccountState} {path : List Bool}
    {account : AccountState} (h : pathAccount hashBytes accounts path = some account) :
    account ∈ accounts ∧
      SparseMerkleTree.hexToBits (accountSmtKey hashBytes account.address) = some path :=
  ⟨List.mem_reverse.mp (List.mem_of_find?_eq_some h), by simpa using List.find?_some h⟩

theorem valuesAfter_accounts (accounts : List AccountState) (path : List Bool) :
    SparseMerkleTree.valuesAfter (fun _ => none) (accounts.map (fun account =>
      (accountSmtKey hashBytes account.address,
        MerkleTree.hashLeaf hashBytes (accountLeafPayload account)))) path =
      (pathAccount hashBytes accounts path).map (fun account =>
        MerkleTree.hashLeaf hashBytes (accountLeafPayload account)) := by
  induction accounts using List.reverseRecOn with
  | nil => rfl
  | append_singleton accounts account ih =>
    unfold SparseMerkleTree.valuesAfter pathAccount at *
    rw [List.map_append, List.map_cons, List.map_nil, List.foldl_concat, List.reverse_append,
      List.reverse_singleton, List.singleton_append]
    cases hbits : SparseMerkleTree.hexToBits (accountSmtKey hashBytes account.address) with
    | none =>
      rw [List.find?_cons_of_neg (by rw [hbits]; simp)]
      exact ih
    | some bits =>
      by_cases heq : path = bits
      · rw [List.find?_cons_of_pos (by rw [hbits, heq]; simp), heq]
        exact Function.update_self _ _ _
      · rw [List.find?_cons_of_neg (by rw [hbits]; simpa using Ne.symm heq)]
        exact (Function.update_of_ne heq _ _).trans ih

/-- **The root of the accounts** is that of the perfect tree over their leaves. -/
theorem calculateAccountStateRoot_eq (hhash : CollisionFree hashBytes) {view : AccountStateView}
    (hvalid : view.isValid = true)
    (hkeys : ∀ account ∈ view.accounts,
      SparseMerkleTree.IsKey (accountSmtKey hashBytes account.address)) :
    calculateAccountStateRoot hashBytes view =
      some (hashBytes (HashTree.perfectRoot
        (fun a b => MerkleTree.nodePrefix ++ hashBytes a ++ hashBytes b) 256
        (leafText hashBytes view.accounts))) := by
  have hupdates : ∀ entry ∈ accountUpdates hashBytes view, SparseMerkleTree.IsKey entry.1 := by
    intro entry hmem
    obtain ⟨account, haccount, rfl⟩ := List.mem_map.mp hmem
    exact hkeys account haccount
  have hempty : SparseMerkleTree.Represents hashBytes 256 SparseMerkleTree.empty.root
      (fun _ => none) := SparseMerkleTree.represents_null.mpr (fun _ _ => rfl)
  obtain ⟨tree, htree, hrep⟩ := SparseMerkleTree.updateAll_represents hempty hupdates
  unfold calculateAccountStateRoot buildAccountStateTree
  rw [if_neg (by rw [hvalid]; decide), htree, Option.map_some]
  congr 1
  have hmap : hashBytes (HashTree.perfectRoot
      (fun a b => MerkleTree.nodePrefix ++ hashBytes a ++ hashBytes b) 256
      (leafText hashBytes view.accounts)) =
      HashTree.perfectRoot (MerkleTree.hashNode hashBytes) 256
        (fun path => hashBytes (leafText hashBytes view.accounts path)) :=
    HashTree.perfectRoot_map (fun a b => rfl) _ _
  unfold SparseMerkleTree.rootHash
  rw [hrep.getNodeHash hhash.ne_empty, hmap]
  refine HashTree.perfectRoot_congr (fun path _ => ?_)
  unfold accountUpdates
  rw [valuesAfter_accounts]
  unfold leafText SparseMerkleTree.leafOf
  cases pathAccount hashBytes view.accounts path with
  | none => rfl
  | some account =>
    rw [if_neg (by simpa [MerkleTree.hashLeaf] using hhash.ne_empty _)]
    rfl

/-- A root that is returned and not empty is that of a valid view whose keys are keys. -/
theorem of_calculateAccountStateRoot {view : AccountStateView} {root : String}
    (h : calculateAccountStateRoot hashBytes view = some root) (hne : root ≠ "") :
    view.isValid = true ∧ ∀ account ∈ view.accounts,
      SparseMerkleTree.IsKey (accountSmtKey hashBytes account.address) := by
  unfold calculateAccountStateRoot at h
  split at h
  · exact absurd (Option.some.inj h).symm hne
  · rename_i hvalid
    obtain ⟨tree, htree, -⟩ := Option.map_eq_some_iff.mp h
    refine ⟨by simpa using hvalid, fun account hmem => ?_⟩
    exact SparseMerkleTree.isKey_of_updateAll htree _ (List.mem_map_of_mem hmem)

/-- No two accounts have addresses that agree up to the first NUL. -/
def DistinctKeys (view : AccountStateView) : Prop :=
  ∀ a ∈ view.accounts, ∀ b ∈ view.accounts,
    cString a.address = cString b.address → a.address = b.address

end StateRootCalculator

/-- The entries of a valid view are its accounts under their addresses. -/
theorem AccountStateView.mem_entries_iff {view : AccountStateView} (hvalid : view.isValid = true)
    {entry : String × AccountState} :
    entry ∈ view.accountsByAddress.entries ↔ entry.2 ∈ view.accounts ∧ entry.1 = entry.2.address := by
  have hkey : ∀ entry ∈ view.accountsByAddress.entries, entry.1 = entry.2.address := by
    intro entry hmem
    have hentry := List.all_eq_true.mp hvalid entry hmem
    simp only [Bool.not_or, Bool.and_eq_true, Bool.not_eq_true', bne_eq_false_iff_eq] at hentry
    exact hentry.1.2
  constructor
  · intro hmem
    exact ⟨List.mem_map_of_mem hmem, hkey entry hmem⟩
  · rintro ⟨haccount, haddress⟩
    obtain ⟨other, hother, hsame⟩ := List.mem_map.mp haccount
    have heq : entry = other := Prod.ext (haddress.trans (hsame ▸ (hkey other hother).symm)) hsame.symm
    exact heq ▸ hother

theorem AccountStateView.eq_of_address {view : AccountStateView} (hvalid : view.isValid = true)
    {a b : AccountState} (ha : a ∈ view.accounts) (hb : b ∈ view.accounts)
    (h : a.address = b.address) : a = b :=
  view.accountsByAddress.entry_unique (k := a.address)
    ((mem_entries_iff hvalid).mpr ⟨ha, rfl⟩) ((mem_entries_iff hvalid).mpr ⟨hb, h⟩)

namespace StateRootCalculator

variable {hashBytes : String → String}

/-- Where no key is shared, every account has its leaf. -/
theorem pathAccount_of_distinctKeys (hhash : CollisionFree hashBytes) {view : AccountStateView}
    (hvalid : view.isValid = true) (hdistinct : DistinctKeys view) {account : AccountState}
    (hmem : account ∈ view.accounts) {path : List Bool}
    (hpath : SparseMerkleTree.hexToBits (accountSmtKey hashBytes account.address) = some path) :
    pathAccount hashBytes view.accounts path = some account := by
  cases hfind : pathAccount hashBytes view.accounts path with
  | none =>
    have hnone := List.find?_eq_none.mp hfind account (List.mem_reverse.mpr hmem)
    exact absurd (by simpa using hpath) hnone
  | some other =>
    obtain ⟨hother, hbits⟩ := pathAccount_eq_some hfind
    have hlower := (SparseMerkleTree.hexToBits_eq_iff hbits hpath).mp rfl
    unfold accountSmtKey at hlower
    rw [hhash.lower, hhash.lower] at hlower
    have haddress := hdistinct other hother account hmem (hhash.injective hlower)
    rw [AccountStateView.eq_of_address hvalid hother hmem haddress]

/-- **An account that owns its key** is in every view with the same root. -/
theorem mem_of_accountStateRoot_eq (hhash : CollisionFree hashBytes) {view view' : AccountStateView}
    {root : String} (h : calculateAccountStateRoot hashBytes view = some root)
    (h' : calculateAccountStateRoot hashBytes view' = some root) (hne : root ≠ "")
    (hdistinct : DistinctKeys view) {account : AccountState} (hmem : account ∈ view.accounts) :
    account ∈ view'.accounts := by
  obtain ⟨hvalid, hkeys⟩ := of_calculateAccountStateRoot h hne
  obtain ⟨hvalid', hkeys'⟩ := of_calculateAccountStateRoot h' hne
  rw [calculateAccountStateRoot_eq hhash hvalid hkeys] at h
  rw [calculateAccountStateRoot_eq hhash hvalid' hkeys'] at h'
  have htree := hhash.injective (Option.some.inj (h.trans h'.symm))
  obtain ⟨path, hpath⟩ := SparseMerkleTree.hexToBits_of_isKey (hkeys account hmem)
  have hleaf := HashTree.perfectRoot_inj hhash.node_injective2 htree path
    (SparseMerkleTree.length_of_hexToBits hpath)
  unfold leafText at hleaf
  rw [pathAccount_of_distinctKeys hhash hvalid hdistinct hmem hpath] at hleaf
  cases hfind : pathAccount hashBytes view'.accounts path with
  | none =>
    rw [hfind] at hleaf
    have hempty := congrArg String.length hleaf
    rw [String.length_append] at hempty
    exact absurd hempty (by simp [MerkleTree.leafPrefix])
  | some other =>
    rw [hfind] at hleaf
    rw [accountLeafPayload_inj (MerkleTree.leaf_inj hleaf)]
    exact (pathAccount_eq_some hfind).1

/-- The root of the accounts determines them, where no key is shared. -/
theorem view_eq_of_accountStateRoot_eq (hhash : CollisionFree hashBytes)
    {view view' : AccountStateView} {root : String}
    (h : calculateAccountStateRoot hashBytes view = some root)
    (h' : calculateAccountStateRoot hashBytes view' = some root) (hne : root ≠ "")
    (hdistinct : DistinctKeys view) (hdistinct' : DistinctKeys view') : view = view' := by
  have hvalid := (of_calculateAccountStateRoot h hne).1
  have hvalid' := (of_calculateAccountStateRoot h' hne).1
  have hentries : view.accountsByAddress = view'.accountsByAddress := by
    refine SortedMap.eq_of_mem_iff (fun entry => ?_)
    rw [AccountStateView.mem_entries_iff hvalid, AccountStateView.mem_entries_iff hvalid']
    exact and_congr_left' ⟨mem_of_accountStateRoot_eq hhash h h' hne hdistinct,
      mem_of_accountStateRoot_eq hhash h' h hne hdistinct'⟩
  cases view
  cases view'
  exact congrArg AccountStateView.mk hentries

end StateRootCalculator

--
-- Accounts behind a shared key
--

/-- The last element of each class. -/
def keepLast {α β : Type} [DecidableEq β] (f : α → β) : List α → List α
  | [] => []
  | a :: rest => if rest.any (fun b => f b == f a) then keepLast f rest else a :: keepLast f rest

section keepLast

variable {α β : Type} [DecidableEq β] {f : α → β}

theorem keepLast_sublist (f : α → β) : ∀ l : List α, (keepLast f l).Sublist l
  | [] => .slnil
  | a :: rest => by
    unfold keepLast
    split
    · exact (keepLast_sublist f rest).cons a
    · exact (keepLast_sublist f rest).cons_cons a

/-- One element is left of each class. -/
theorem nodup_map_keepLast (f : α → β) : ∀ l : List α, ((keepLast f l).map f).Nodup
  | [] => .nil
  | a :: rest => by
    unfold keepLast
    split
    · exact nodup_map_keepLast f rest
    · rename_i hlast
      refine List.nodup_cons.mpr ⟨fun hmem => hlast ?_, nodup_map_keepLast f rest⟩
      obtain ⟨b, hb, heq⟩ := List.mem_map.mp hmem
      exact List.any_eq_true.mpr ⟨b, (keepLast_sublist f rest).subset hb, by simpa using heq⟩

/-- A search from the end for a property of the class finds the same element. -/
theorem find?_reverse_keepLast {p : α → Bool} (hp : ∀ a b, f a = f b → p a = p b) (l : List α) :
    (keepLast f l).reverse.find? p = l.reverse.find? p := by
  induction l with
  | nil => rfl
  | cons a rest ih =>
    unfold keepLast
    rw [List.reverse_cons, List.find?_append, ← ih]
    split
    · rename_i hany
      obtain ⟨b, hb, hsame⟩ := List.any_eq_true.mp hany
      by_cases hpa : p a = true
      · have hsome : ((keepLast f rest).reverse.find? p).isSome := by
          rw [ih, List.find?_isSome]
          exact ⟨b, List.mem_reverse.mpr hb, (hp b a (by simpa using hsame)).trans hpa⟩
        obtain ⟨c, hc⟩ := Option.isSome_iff_exists.mp hsome
        rw [hc, Option.some_or]
      · rw [List.find?_cons_of_neg hpa, List.find?_nil, Option.or_none]
    · rw [List.reverse_cons, List.find?_append]

end keepLast

namespace StateRootCalculator

variable {hashBytes : String → String}

/-- The view the root knows: of the accounts behind one key, the last. -/
def knownView (view : AccountStateView) : AccountStateView :=
  ⟨⟨keepLast (fun entry => cString entry.2.address) view.accountsByAddress.entries,
    view.accountsByAddress.sorted.sublist (keepLast_sublist _ _)⟩⟩

theorem mem_of_mem_knownView {view : AccountStateView} {account : AccountState}
    (h : account ∈ (knownView view).accounts) : account ∈ view.accounts :=
  ((keepLast_sublist _ _).map _).subset h

theorem isValid_knownView {view : AccountStateView} (h : view.isValid = true) :
    (knownView view).isValid = true :=
  List.all_eq_true.mpr (fun entry hmem =>
    List.all_eq_true.mp h entry ((keepLast_sublist _ _).subset hmem))

theorem distinctKeys_knownView (view : AccountStateView) : DistinctKeys (knownView view) := by
  intro a ha b hb hsame
  obtain ⟨entry, hentry, rfl⟩ := List.mem_map.mp ha
  obtain ⟨other, hother, rfl⟩ := List.mem_map.mp hb
  have hinj := List.inj_on_of_nodup_map (nodup_map_keepLast
    (fun entry : String × AccountState => cString entry.2.address) view.accountsByAddress.entries)
  rw [hinj hentry hother hsame]

theorem pathAccount_knownView (view : AccountStateView) (path : List Bool) :
    pathAccount hashBytes (knownView view).accounts path =
      pathAccount hashBytes view.accounts path := by
  unfold pathAccount AccountStateView.accounts
  rw [← List.map_reverse, ← List.map_reverse, List.find?_map, List.find?_map]
  congr 1
  refine find?_reverse_keepLast (fun a b heq => ?_) _
  show (SparseMerkleTree.hexToBits (hashBytes (cString a.2.address)) == some path) =
    (SparseMerkleTree.hexToBits (hashBytes (cString b.2.address)) == some path)
  rw [heq]

/-- The accounts that another one hides do not change the root. -/
theorem calculateAccountStateRoot_knownView (hhash : CollisionFree hashBytes)
    {view : AccountStateView} {root : String}
    (h : calculateAccountStateRoot hashBytes view = some root) (hne : root ≠ "") :
    calculateAccountStateRoot hashBytes (knownView view) = some root := by
  obtain ⟨hvalid, hkeys⟩ := of_calculateAccountStateRoot h hne
  rw [← h, calculateAccountStateRoot_eq hhash hvalid hkeys,
    calculateAccountStateRoot_eq hhash (isValid_knownView hvalid)
      (fun account hmem => hkeys account (mem_of_mem_knownView hmem))]
  have hleaf : leafText hashBytes (knownView view).accounts = leafText hashBytes view.accounts := by
    funext path
    unfold leafText
    rw [pathAccount_knownView]
  rw [hleaf]

--
-- The protocol root
--

/-- The leaves the loop adds, one for each domain. -/
theorem domainLeaves_eq_some {entries : List (String × String)} {leaves out : List String}
    (h : domainLeaves leaves entries = some (some out)) :
    ∃ added, out = leaves ++ added ∧ (∀ entry ∈ entries, entry.1 ≠ "accounts") ∧
      entries.map (fun entry => stateDomainLeaf entry.1 entry.2) = added.map some := by
  induction entries generalizing leaves with
  | nil =>
    obtain rfl := Option.some.inj (Option.some.inj h)
    exact ⟨[], (List.append_nil _).symm, fun _ hmem => absurd hmem List.not_mem_nil, rfl⟩
  | cons entry rest ih =>
    obtain ⟨domain, payload⟩ := entry
    unfold domainLeaves at h
    split at h
    · cases h
    · rename_i hguard
      split at h
      · cases h
      · rename_i leaf hleaf
        obtain ⟨added, rfl, hnames, hleaves⟩ := ih h
        refine ⟨leaf :: added, by simp, fun entry hmem => ?_, ?_⟩
        · rcases List.mem_cons.mp hmem with rfl | hrest
          · simp only [Bool.or_eq_true, beq_iff_eq, not_or] at hguard
            exact hguard.1.2
          · exact hnames entry hrest
        · rw [List.map_cons, List.map_cons, hleaf, hleaves]

/-- A protocol root over the leaves of the accounts and of the domains. -/
structure RootOf (hashBytes : String → String) (view : AccountStateView)
    (domains : SortedMap String String) (root accountRoot accountLeaf : String)
    (added : List String) : Prop where
  accounts : calculateAccountStateRoot hashBytes view = some accountRoot
  accountRoot_ne : accountRoot ≠ ""
  accountLeaf_eq : stateDomainLeaf "accounts" accountRoot = some accountLeaf
  names : ∀ entry ∈ domains.entries, entry.1 ≠ "accounts"
  added_eq : domains.entries.map (fun entry => stateDomainLeaf entry.1 entry.2) = added.map some
  root_eq : root = MerkleTree.buildRoot hashBytes (accountLeaf :: added)

theorem rootOf_of_calculateProtocolStateRoot {view : AccountStateView}
    {domains : SortedMap String String} {root : String}
    (h : calculateProtocolStateRoot hashBytes view domains = some root) (hne : root ≠ "")
    (hdomains : domains.entries ≠ []) :
    ∃ accountRoot accountLeaf added,
      RootOf hashBytes view domains root accountRoot accountLeaf added := by
  unfold calculateProtocolStateRoot at h
  split at h
  · cases h
  · rename_i accountRoot haccounts
    split at h
    · exact absurd (Option.some.inj h).symm hne
    · rename_i hnonempty
      rw [if_neg (by simpa using hdomains)] at h
      split at h
      · cases h
      · rename_i accountLeaf haccountLeaf
        split at h
        · cases h
        · exact absurd (Option.some.inj h).symm hne
        · rename_i leaves hleaves
          obtain ⟨added, rfl, hnames, hadded⟩ := domainLeaves_eq_some hleaves
          exact ⟨accountRoot, accountLeaf, added, haccounts, by simpa using hnonempty, haccountLeaf,
            hnames, hadded, (Option.some.inj h).symm⟩

namespace RootOf

variable {view view' : AccountStateView} {domains domains' : SortedMap String String}
variable {root accountRoot accountLeaf accountRoot' accountLeaf' : String}
variable {added added' : List String}

theorem leaf_of_entry (h : RootOf hashBytes view domains root accountRoot accountLeaf added)
    {entry : String × String} (hentry : entry ∈ domains.entries) :
    ∃ leaf ∈ added, stateDomainLeaf entry.1 entry.2 = some leaf := by
  have hmem := List.mem_map_of_mem (f := fun entry : String × String =>
    stateDomainLeaf entry.1 entry.2) hentry
  rw [h.added_eq] at hmem
  obtain ⟨leaf, hleaf, heq⟩ := List.mem_map.mp hmem
  exact ⟨leaf, hleaf, heq.symm⟩

theorem entry_of_leaf (h : RootOf hashBytes view domains root accountRoot accountLeaf added)
    {leaf : String} (hleaf : leaf ∈ added) :
    ∃ entry ∈ domains.entries, stateDomainLeaf entry.1 entry.2 = some leaf := by
  have hmem := List.mem_map_of_mem (f := some) hleaf
  rw [← h.added_eq] at hmem
  exact List.mem_map.mp hmem

theorem nodup (h : RootOf hashBytes view domains root accountRoot accountLeaf added) :
    (accountLeaf :: added).Nodup := by
  refine List.nodup_cons.mpr ⟨fun hmem => ?_, ?_⟩
  · obtain ⟨entry, hentry, hleaf⟩ := h.entry_of_leaf hmem
    exact h.names entry hentry (stateDomainLeaf_inj hleaf h.accountLeaf_eq).1
  · refine List.Nodup.of_map some ?_
    rw [← h.added_eq]
    refine List.Nodup.map_on (fun a ha b hb hsame => ?_) domains.keys_nodup.of_map
    obtain ⟨leaf, -, hleaf⟩ := h.leaf_of_entry ha
    have heq := stateDomainLeaf_inj hleaf (hsame.symm.trans hleaf)
    exact Prod.ext heq.1 heq.2

/-- Equal roots have the same leaves: the one of the accounts, and those of the domains. -/
theorem leaves_eq (hhash : CollisionFree hashBytes)
    (h : RootOf hashBytes view domains root accountRoot accountLeaf added)
    (h' : RootOf hashBytes view' domains' root accountRoot' accountLeaf' added') :
    accountLeaf = accountLeaf' ∧ ∀ leaf ∈ added, leaf ∈ added' := by
  have hperm := MerkleTree.buildRoot_inj hhash (List.cons_ne_nil _ _) (List.cons_ne_nil _ _)
    h.nodup h'.nodup (h.root_eq.symm.trans h'.root_eq)
  constructor
  · rcases List.mem_cons.mp (hperm.subset List.mem_cons_self) with heq | hmem
    · exact heq
    · obtain ⟨entry, hentry, hleaf⟩ := h'.entry_of_leaf hmem
      exact absurd (stateDomainLeaf_inj hleaf h.accountLeaf_eq).1 (h'.names entry hentry)
  · intro leaf hleaf
    obtain ⟨entry, hentry, hwritten⟩ := h.entry_of_leaf hleaf
    rcases List.mem_cons.mp (hperm.subset (List.mem_cons_of_mem _ hleaf)) with heq | hmem
    · rw [heq] at hwritten
      exact absurd (stateDomainLeaf_inj hwritten h'.accountLeaf_eq).1 (h.names entry hentry)
    · exact hmem

theorem accountRoot_eq (hhash : CollisionFree hashBytes)
    (h : RootOf hashBytes view domains root accountRoot accountLeaf added)
    (h' : RootOf hashBytes view' domains' root accountRoot' accountLeaf' added') :
    accountRoot = accountRoot' := by
  have hleaf := (h.leaves_eq hhash h').1
  have hwritten := h.accountLeaf_eq
  rw [hleaf] at hwritten
  exact (stateDomainLeaf_inj hwritten h'.accountLeaf_eq).2

theorem mem_domains (hhash : CollisionFree hashBytes)
    (h : RootOf hashBytes view domains root accountRoot accountLeaf added)
    (h' : RootOf hashBytes view' domains' root accountRoot' accountLeaf' added')
    {entry : String × String} (hentry : entry ∈ domains.entries) : entry ∈ domains'.entries := by
  obtain ⟨leaf, hleaf, hwritten⟩ := h.leaf_of_entry hentry
  obtain ⟨other, hother, hwritten'⟩ := h'.entry_of_leaf ((h.leaves_eq hhash h').2 leaf hleaf)
  have heq := stateDomainLeaf_inj hwritten hwritten'
  rw [show entry = other from Prod.ext heq.1 heq.2]
  exact hother

/-- The leaf of a domain starts with a length, that of an account with a letter. -/
theorem ne_accountLeafPayload
    (h : RootOf hashBytes view domains root accountRoot accountLeaf added) {leaf : String}
    (hleaf : leaf ∈ accountLeaf :: added) (account : AccountState) :
    accountLeafPayload account ≠ leaf := by
  have hstart : ∀ {domain payload : String}, stateDomainLeaf domain payload = some leaf →
      leaf.toList.head? = some '\x00' := by
    intro domain payload hwritten
    unfold stateDomainLeaf at hwritten
    obtain ⟨label, hlabel, hwritten⟩ := Option.bind_eq_some_iff.mp hwritten
    obtain ⟨name, -, hwritten⟩ := Option.bind_eq_some_iff.mp hwritten
    obtain ⟨content, -, hwritten⟩ := Option.bind_eq_some_iff.mp hwritten
    unfold CanonicalWriter.writeString at hlabel
    rw [if_neg (by decide)] at hlabel
    cases hlabel
    cases hwritten
    rw [String.append_assoc, String.append_assoc, String.toList_append, CanonicalWriter.writeUInt32,
      String.toList_ofList]
    rfl
  have hother : (accountLeafPayload account).toList.head? = some 'N' := by
    unfold accountLeafPayload
    simp only [String.append_assoc]
    rw [String.toList_append, List.head?_append, show "NODO_ACCOUNT_LEAF_V2\x7baddress=".toList.head? =
      some 'N' by decide, Option.some_or]
  intro heq
  rw [heq] at hother
  rcases List.mem_cons.mp hleaf with rfl | hmem
  · rw [hstart h.accountLeaf_eq] at hother
    exact absurd hother (by decide)
  · obtain ⟨entry, -, hwritten⟩ := h.entry_of_leaf hmem
    rw [hstart hwritten] at hother
    exact absurd hother (by decide)

end RootOf

/-- The root of the accounts alone is never that of accounts and domains. -/
theorem RootOf.ne_accountStateRoot (hhash : CollisionFree hashBytes) {view view' : AccountStateView}
    {domains : SortedMap String String} {root accountRoot accountLeaf : String}
    {added : List String} (h : RootOf hashBytes view domains root accountRoot accountLeaf added)
    {root' : String} (h' : calculateAccountStateRoot hashBytes view' = some root')
    (hne : root' ≠ "") : root' ≠ root := by
  obtain ⟨hvalid, hkeys⟩ := of_calculateAccountStateRoot h' hne
  rw [calculateAccountStateRoot_eq hhash hvalid hkeys] at h'
  rw [← Option.some.inj h', h.root_eq,
    MerkleTree.buildRoot_eq]
  have hsorted := List.mergeSort_perm (accountLeaf :: added) (· ≤ ·)
  refine fun heq => HashTree.perfectRoot_ne_layerRoot hhash.node_injective2 ?_ ?_ ?_ ?_
    (hhash.injective heq)
  · simp [← List.length_pos_iff, hsorted.length_eq]
  · intro path a b
    unfold leafText
    rw [String.append_assoc]
    split
    · intro hempty
      have hlength := congrArg String.length hempty
      rw [String.length_append] at hlength
      exact absurd hlength.symm (by simp [MerkleTree.nodePrefix])
    · exact MerkleTree.leaf_ne_node _ _
  · intro digest hmem a b
    obtain ⟨leaf, -, rfl⟩ := List.mem_map.mp hmem
    rw [String.append_assoc]
    exact MerkleTree.leaf_ne_node _ _
  · intro path hmem
    obtain ⟨leaf, hleaf, heq⟩ := List.mem_map.mp hmem
    unfold leafText at heq
    split at heq
    · have hlength := congrArg String.length heq
      rw [String.length_append] at hlength
      exact absurd hlength (by simp [MerkleTree.leafPrefix])
    · exact h.ne_accountLeafPayload (hsorted.mem_iff.mp hleaf) _ (MerkleTree.leaf_inj heq).symm

/-- **The protocol root binds the state** exactly when no two accounts share a key.
Whatever the accounts, it is not the root of any view without domains. -/
theorem protocol_state_root_binds (hhash : CollisionFree hashBytes) (view : AccountStateView)
    (domains : SortedMap String String) (hdomains : domains ≠ SortedMap.empty) (root : String)
    (h : calculateProtocolStateRoot hashBytes view domains = some root) (hne : root ≠ "") :
    (DistinctKeys view ↔ ∀ view' domains', DistinctKeys view' → domains' ≠ SortedMap.empty →
      calculateProtocolStateRoot hashBytes view' domains' = some root →
      view = view' ∧ domains = domains') ∧
    ∀ view', calculateProtocolStateRoot hashBytes view' SortedMap.empty ≠ some root := by
  have hentries : ∀ {m : SortedMap String String}, m ≠ SortedMap.empty → m.entries ≠ [] := by
    rintro ⟨entries, hsorted⟩ hm rfl
    exact hm rfl
  obtain ⟨accountRoot, accountLeaf, added, hroot⟩ :=
    rootOf_of_calculateProtocolStateRoot h hne (hentries hdomains)
  refine ⟨⟨fun hdistinct view' domains' hdistinct' hdomains' h' => ?_, fun hbinds => ?_⟩, ?_⟩
  · obtain ⟨accountRoot', accountLeaf', added', hroot'⟩ :=
      rootOf_of_calculateProtocolStateRoot h' hne (hentries hdomains')
    have haccounts := hroot.accounts
    rw [hroot.accountRoot_eq hhash hroot'] at haccounts
    refine ⟨view_eq_of_accountStateRoot_eq hhash haccounts hroot'.accounts hroot'.accountRoot_ne
      hdistinct hdistinct', SortedMap.eq_of_mem_iff (fun entry => ?_)⟩
    exact ⟨hroot.mem_domains hhash hroot', hroot'.mem_domains hhash hroot⟩
  · -- the view without the hidden accounts has the same root
    have hsame := calculateAccountStateRoot_knownView hhash hroot.accounts hroot.accountRoot_ne
    have hknown : calculateProtocolStateRoot hashBytes (knownView view) domains = some root := by
      rw [← h]
      unfold calculateProtocolStateRoot
      rw [hsame, hroot.accounts]
    rw [(hbinds (knownView view) domains (distinctKeys_knownView view) hdomains hknown).1]
    exact distinctKeys_knownView view
  · intro view' h'
    unfold calculateProtocolStateRoot at h'
    split at h'
    · cases h'
    · rename_i accountRoot' haccounts'
      split at h'
      · exact hne (Option.some.inj h').symm
      · rename_i hnonempty
        exact hroot.ne_accountStateRoot hhash haccounts' (by simpa using hnonempty)
          (Option.some.inj h')

end StateRootCalculator

--
-- A hash without collisions
--

namespace SampleHash

/-- A code whose words end where they end. -/
def code : List Char → List Char
  | [] => ['2']
  | c :: rest => List.replicate c.toNat '1' ++ '0' :: code rest

theorem code_inj : ∀ {x y s t : List Char}, code x ++ s = code y ++ t → x = y
  | [], [], _, _, _ => rfl
  | [], c :: rest, _, _, h => by
    have hhead := congrArg List.head? h
    cases hn : c.toNat <;> simp [code, hn, List.replicate_succ] at hhead
  | c :: rest, [], _, _, h => by
    have hhead := congrArg List.head? h
    cases hn : c.toNat <;> simp [code, hn, List.replicate_succ] at hhead
  | c :: rest, d :: rest', s, t, h => by
    have hones : ∀ n : Nat, '0' ∉ List.replicate n '1' :=
      fun n hmem => absurd (List.eq_of_mem_replicate hmem) (by decide)
    simp only [code, List.append_assoc, List.cons_append] at h
    obtain ⟨hfirst, hrest⟩ := Text.append_delimiter_inj (hones _) (hones _) h
    have hcount := congrArg List.length hfirst
    rw [List.length_replicate, List.length_replicate] at hcount
    rw [Char.toNat_inj.mp hcount, code_inj hrest]

/-- The leaf of the account in the samples. -/
def leafPayload : String :=
  MerkleTree.leafPrefix ++ StateRootCalculator.accountLeafPayload ⟨"a\x00c", ⟨5, by decide⟩, 0⟩

/-- Short digests for the subtrees of the samples: those along the leftmost path, and
those without accounts. -/
def digest (account : Bool) (level : Nat) : String :=
  String.ofList ((if account then 'a' else 'd') :: (List.replicate level '1' ++ ['0']))

/-- The texts they stand for. -/
def text (account : Bool) : Nat → String
  | 0 => if account then leafPayload else ""
  | level + 1 => MerkleTree.nodePrefix ++ digest account level ++ digest false level

/-- The subtree with a text, if it is one of them. -/
def subtree (x : String) : Option (Bool × Nat) :=
  ((List.range (x.length + 1)).flatMap (fun level => [(false, level), (true, level)])).find?
    (fun entry => text entry.1 entry.2 == x)

def hash (x : String) : String :=
  match subtree x with
  | some (account, level) => digest account level
  | none =>
    if x = "a" then SparseMerkleTree.zeroKey else String.ofList ('g' :: code x.toList)

theorem digest_inj {a b : Bool} {n m : Nat} {s t : List Char}
    (h : (digest a n).toList ++ s = (digest b m).toList ++ t) : a = b ∧ n = m := by
  have hones : ∀ n : Nat, '0' ∉ List.replicate n '1' :=
    fun n hmem => absurd (List.eq_of_mem_replicate hmem) (by decide)
  simp only [digest, String.toList_ofList, List.cons_append, List.append_assoc,
    List.nil_append] at h
  obtain ⟨hkind, hrest⟩ := List.cons.inj h
  obtain ⟨hlevel, -⟩ := Text.append_delimiter_inj (hones _) (hones _) hrest
  have hcount := congrArg List.length hlevel
  rw [List.length_replicate, List.length_replicate] at hcount
  refine ⟨?_, hcount⟩
  cases a <;> cases b <;> first | rfl | exact absurd hkind (by decide)

theorem text_inj {a b : Bool} {n m : Nat} (h : text a n = text b m) : a = b ∧ n = m := by
  have hnode : ∀ (a b : Bool) (n : Nat), text a 0 ≠ text b (n + 1) := by
    intro a b n heq
    simp only [text, String.append_assoc] at heq
    cases a with
    | false =>
      have hlength := congrArg String.length heq
      rw [String.length_append] at hlength
      exact absurd hlength.symm (by simp [MerkleTree.nodePrefix])
    | true => exact MerkleTree.leaf_ne_node _ _ heq
  cases n with
  | zero =>
    cases m with
    | zero =>
      refine ⟨?_, rfl⟩
      have hleaf : leafPayload ≠ "" := by
        intro heq
        have hlength := congrArg String.length heq
        unfold leafPayload at hlength
        rw [String.length_append] at hlength
        exact absurd hlength (by simp [MerkleTree.leafPrefix])
      cases a <;> cases b <;> first | rfl | exact absurd h hleaf | exact absurd h.symm hleaf
    | succ m => exact absurd h (hnode a b m)
  | succ n =>
    cases m with
    | zero => exact absurd h.symm (hnode b a n)
    | succ m =>
      have hlist := congrArg String.toList h
      simp only [text, String.toList_append, List.append_assoc] at hlist
      obtain ⟨ha, hn⟩ := digest_inj (List.append_cancel_left hlist)
      exact ⟨ha, by rw [hn]⟩

theorem text_subtree {x : String} {account : Bool} {level : Nat}
    (h : subtree x = some (account, level)) : text account level = x := by
  simpa using List.find?_some h

theorem subtree_text (account : Bool) (level : Nat) :
    subtree (text account level) = some (account, level) := by
  cases hfind : subtree (text account level) with
  | none =>
    have hlength : level < (text account level).length + 1 := by
      cases level with
      | zero => exact Nat.succ_pos _
      | succ level =>
        simp only [text, digest, String.length_append, String.length_ofList, List.length_cons,
          List.length_append, List.length_replicate]
        omega
    have hmem : (account, level) ∈ (List.range ((text account level).length + 1)).flatMap
        (fun level => [(false, level), (true, level)]) :=
      List.mem_flatMap.mpr ⟨level, List.mem_range.mpr hlength, by cases account <;> simp⟩
    have hnot := List.find?_eq_none.mp hfind (account, level) hmem
    simp at hnot
  | some entry =>
    obtain ⟨ha, hn⟩ := text_inj (text_subtree hfind)
    rw [← ha, ← hn]

theorem hash_text (account : Bool) (level : Nat) : hash (text account level) = digest account level := by
  unfold hash
  rw [subtree_text]

/-- The three forms of a digest, told apart by their first character. -/
theorem hash_cases (x : String) :
    (∃ account level, text account level = x ∧ (hash x).toList =
      (digest account level).toList) ∨
    (x = "a" ∧ hash x = SparseMerkleTree.zeroKey) ∨
    (hash x).toList = 'g' :: code x.toList := by
  cases h : subtree x with
  | some entry =>
    refine .inl ⟨entry.1, entry.2, text_subtree h, ?_⟩
    rw [hash, h]
  | none =>
    by_cases hx : x = "a"
    · refine .inr (.inl ⟨hx, ?_⟩)
      rw [hash, h]
      exact if_pos hx
    · refine .inr (.inr ?_)
      rw [hash, h]
      simp only [if_neg hx, String.toList_ofList]

theorem hash_front {x y : String} {s t : List Char}
    (h : (hash x).toList ++ s = (hash y).toList ++ t) : x = y := by
  have hzero : SparseMerkleTree.zeroKey.toList.head? = some '0' := by decide
  have hdigest : ∀ (account : Bool) (level : Nat), (digest account level).toList.head? =
      some (if account then 'a' else 'd') := by
    intro account level
    rw [digest, String.toList_ofList, List.head?_cons]
  have hhead := congrArg List.head? h
  rw [List.head?_append, List.head?_append] at hhead
  rcases hash_cases x with ⟨a, n, rfl, hx⟩ | ⟨rfl, hx⟩ | hx <;>
    rcases hash_cases y with ⟨b, m, rfl, hy⟩ | ⟨rfl, hy⟩ | hy
  · rw [hx, hy] at h
    obtain ⟨rfl, rfl⟩ := digest_inj h
    rfl
  · cases a <;> simp [hx, hy, hdigest, hzero] at hhead
  · cases a <;> simp [hx, hy, hdigest] at hhead
  · cases b <;> simp [hx, hy, hdigest, hzero] at hhead
  · rfl
  · simp [hx, hy, hzero] at hhead
  · cases b <;> simp [hx, hy, hdigest] at hhead
  · simp [hx, hy, hzero] at hhead
  · rw [hx, hy, List.cons_append, List.cons_append] at h
    exact String.toList_injective (code_inj (List.cons.inj h).2)

theorem mem_code {c : Char} : ∀ {x : List Char}, c ∈ code x → c = '0' ∨ c = '1' ∨ c = '2'
  | [], h => .inr (.inr (List.mem_singleton.mp h))
  | d :: rest, h => by
    rcases List.mem_append.mp h with hones | hrest
    · exact .inr (.inl (List.eq_of_mem_replicate hones))
    · rcases List.mem_cons.mp hrest with rfl | hrest
      · exact .inl rfl
      · exact mem_code hrest

theorem collisionFree : CollisionFree hash where
  injective := fun x y h => hash_front (s := []) (t := []) (by rw [h])
  splits := fun a b c d h => by
    have hlist : (hash a).toList ++ (hash b).toList = (hash c).toList ++ (hash d).toList := by
      rw [← String.toList_append, h, String.toList_append]
    rw [hash_front hlist]
  lower := fun x => by
    have hall : ∀ c ∈ (hash x).toList, c.toLower = c := by
      intro c hc
      rcases hash_cases x with ⟨a, n, -, hx⟩ | ⟨-, hx⟩ | hx
      · rw [hx, digest, String.toList_ofList] at hc
        rcases List.mem_cons.mp hc with rfl | hc
        · cases a <;> decide
        · rcases List.mem_append.mp hc with hc | hc
          · rw [List.eq_of_mem_replicate hc]
            decide
          · rw [List.mem_singleton.mp hc]
            decide
      · rw [hx] at hc
        have hkey : SparseMerkleTree.zeroKey.toList.all (fun c => c.toLower == c) = true := by
          decide +kernel
        exact beq_iff_eq.mp (List.all_eq_true.mp hkey c hc)
      · rw [hx] at hc
        rcases List.mem_cons.mp hc with rfl | hc
        · decide
        · rcases mem_code hc with rfl | rfl | rfl <;> decide
    refine String.toList_injective ?_
    unfold String.toLower
    rw [String.toList_map, List.map_congr_left hall, List.map_id']

end SampleHash

--
-- The root of a list
--

namespace MerkleTree

/-- What `hashOrderedLeaf` hashes behind the prefix of the leaves. -/
def orderedPayload (index : Nat) (payload : String) : String :=
  "NODO_BLOCK_RECORD_0.6:" ++ toString index ++ ":" ++ toString payload.length ++ ":" ++ payload

/-- An ordered leaf has one position and one payload. -/
theorem orderedPayload_inj {index index' : Nat} {payload payload' : String}
    (h : orderedPayload index payload = orderedPayload index' payload') :
    index = index' ∧ payload = payload' := by
  have hnumber : ∀ n : Nat, ':' ∉ (toString n).toList := fun n => Text.not_mem_toString rfl
  have hcolon : ":".toList = [':'] := by decide
  unfold orderedPayload at h
  have hlist := congrArg String.toList h
  simp only [String.toList_append, hcolon, List.append_assoc, List.singleton_append] at hlist
  obtain ⟨hindex, hlist⟩ := Text.append_delimiter_inj (hnumber _) (hnumber _)
    (List.append_cancel_left hlist)
  obtain ⟨-, hlist⟩ := Text.append_delimiter_inj (hnumber _) (hnumber _) hlist
  exact ⟨Text.toString_nat_inj (String.toList_injective hindex), String.toList_injective hlist⟩

theorem mapIdx_hashOrderedLeaf (hashBytes : String → String) (payloads : List String) :
    payloads.mapIdx (hashOrderedLeaf hashBytes) =
      (payloads.mapIdx orderedPayload).map (hashLeaf hashBytes) := by
  rw [List.mapIdx_eq_iff]
  intro i
  rw [List.getElem?_map, List.getElem?_mapIdx, Option.map_map]
  rfl

theorem buildOrderedRoot_eq (hashBytes : String → String) (payloads : List String) :
    buildOrderedRoot hashBytes payloads =
      hashBytes (HashTree.layerRoot
        (fun a b => nodePrefix ++ hashBytes a ++ hashBytes b) emptyPayload
        ((payloads.mapIdx orderedPayload).map (leafPrefix ++ ·))) := by
  unfold buildOrderedRoot
  rw [mapIdx_hashOrderedLeaf, hashLayer_eq]

/-- Payloads may repeat, the leaves under them do not. -/
theorem nodup_orderedPayload (payloads : List String) :
    (payloads.mapIdx orderedPayload).Nodup := by
  rw [List.nodup_iff_injective_getElem]
  intro i j h
  dsimp only at h
  rw [List.getElem_mapIdx, List.getElem_mapIdx] at h
  exact Fin.ext (orderedPayload_inj h).1

theorem mapIdx_orderedPayload_inj {payloads payloads' : List String}
    (h : payloads.mapIdx orderedPayload = payloads'.mapIdx orderedPayload) :
    payloads = payloads' := by
  have hlength := congrArg List.length h
  rw [List.length_mapIdx, List.length_mapIdx] at hlength
  refine List.ext_getElem hlength (fun i hi hi' => ?_)
  have hentry := congrArg (fun list : List String => list[i]?) h
  rw [List.getElem?_mapIdx, List.getElem?_mapIdx, List.getElem?_eq_getElem hi,
    List.getElem?_eq_getElem hi'] at hentry
  exact (orderedPayload_inj (Option.some.inj hentry)).2

/-- The root of no leaves is neither a leaf nor a node. -/
theorem emptyPayload_ne_layerRoot {hashBytes : String → String} (hhash : CollisionFree hashBytes)
    {payloads : List String} (hne : payloads ≠ []) :
    emptyPayload ≠ HashTree.layerRoot
      (fun a b => nodePrefix ++ hashBytes a ++ hashBytes b) emptyPayload
      (payloads.map (leafPrefix ++ ·)) := by
  have htake : ∀ {start : String} (rest : String), start.toList.length = 17 →
      emptyPayload = start ++ rest → emptyPayload.toList = start.toList := by
    intro start rest hstart h
    have hlist := congrArg (fun text : String => text.toList.take 17) h
    rw [String.toList_append, List.take_append_of_le_length hstart.ge,
      List.take_of_length_le hstart.le, List.take_of_length_le (by decide)] at hlist
    exact hlist
  have hblank : HashTree.perfectRoot (fun a b => nodePrefix ++ hashBytes a ++ hashBytes b) 0
      (fun _ => emptyPayload) = emptyPayload := rfl
  rw [ne_eq, ← hblank]
  refine HashTree.perfectRoot_ne_layerRoot hhash.node_injective2 (by simpa using hne)
    (fun _ a b h => ?_) (fun digest hdigest a b => ?_) (fun _ hmem => ?_)
  · rw [String.append_assoc] at h
    exact absurd (htake _ (by decide) h) (by decide)
  · obtain ⟨payload, -, rfl⟩ := List.mem_map.mp hdigest
    rw [String.append_assoc]
    exact leaf_ne_node _ _
  · obtain ⟨payload, -, h⟩ := List.mem_map.mp hmem
    exact absurd (htake _ (by decide) h.symm) (by decide)

/-- **The ordered root commits to the list**: how many payloads, which, and in which order. -/
theorem buildOrderedRoot_injective {hashBytes : String → String}
    (hhash : CollisionFree hashBytes) : Function.Injective (buildOrderedRoot hashBytes) := by
  intro payloads payloads' h
  rw [buildOrderedRoot_eq, buildOrderedRoot_eq] at h
  have hroots := hhash.injective h
  by_cases hempty : payloads = []
  · by_cases hempty' : payloads' = []
    · rw [hempty, hempty']
    · rw [hempty, List.mapIdx_nil, List.map_nil, HashTree.layerRoot] at hroots
      exact absurd hroots (emptyPayload_ne_layerRoot hhash (by simpa using hempty'))
  · by_cases hempty' : payloads' = []
    · rw [hempty', List.mapIdx_nil, List.map_nil, HashTree.layerRoot] at hroots
      exact absurd hroots.symm (emptyPayload_ne_layerRoot hhash (by simpa using hempty))
    · exact mapIdx_orderedPayload_inj (HashTree.layerRoot_inj hhash.node_injective2
        (fun _ _ => leaf_inj) (leaf_ne_nodes hashBytes) (by simpa using hempty)
        (by simpa using hempty') (nodup_orderedPayload payloads) (nodup_orderedPayload payloads')
        hroots)

/-- An odd list and the same list with its last payload twice. -/
theorem buildOrderedRoot_odd :
    buildOrderedRoot SampleHash.hash ["a", "a", "b"] ≠
      buildOrderedRoot SampleHash.hash ["a", "a", "b", "b"] := fun h =>
  absurd (buildOrderedRoot_injective SampleHash.collisionFree h) (by decide)

end MerkleTree

namespace StateRootCalculator

--
-- Samples
--

/-- The account that both sample views end with. -/
def shownAccount : AccountState := ⟨"a\x00c", ⟨5, by decide⟩, 0⟩

/-- One account behind its key. -/
def ownKeyView : AccountStateView :=
  ⟨⟨[("a\x00c", shownAccount)], List.pairwise_singleton _ _⟩⟩

/-- Two accounts behind one key: the first can have any balance. -/
def sharedKeyView (balance : Amount) : AccountStateView :=
  ⟨⟨[("a\x00b", ⟨"a\x00b", balance, 0⟩), ("a\x00c", shownAccount)],
    List.pairwise_pair.mpr (show "a\x00b" < "a\x00c" from String.lt_iff_toList_lt.mpr (by decide))⟩⟩

def sampleDomains : SortedMap String String :=
  ⟨[("coin_lots", "x")], List.pairwise_singleton _ _⟩

theorem perfectRoot_text {node : String → String → String}
    (hnode : ∀ account level, node (SampleHash.text account level) (SampleHash.text false level) =
      SampleHash.text account (level + 1)) (account : Bool) (level : Nat) :
    HashTree.perfectRoot node level (fun path =>
      if account = true ∧ path = List.replicate level false then SampleHash.leafPayload else "") =
      SampleHash.text account level := by
  have hempty : ∀ level, HashTree.perfectRoot node level (fun _ => "") =
      SampleHash.text false level := by
    intro level
    induction level with
    | zero => rfl
    | succ level ih =>
      unfold HashTree.perfectRoot
      rw [ih, hnode]
  induction level with
  | zero => cases account <;> rfl
  | succ level ih =>
    unfold HashTree.perfectRoot
    simp only [List.replicate_succ, List.cons.injEq, true_and, reduceCtorEq, false_and, and_false,
      if_false]
    rw [ih, hempty, hnode]

theorem hash_a : SampleHash.hash "a" = SparseMerkleTree.zeroKey := by decide +kernel

example : ownKeyView.isValid = true := by decide +kernel

theorem calculateAccountStateRoot_ownKeyView :
    calculateAccountStateRoot SampleHash.hash ownKeyView = some (SampleHash.digest true 256) := by
  have hkey : accountSmtKey SampleHash.hash shownAccount.address = SparseMerkleTree.zeroKey :=
    hash_a
  have hbits := SparseMerkleTree.hexToBits_zeroKey
  have haccounts : ownKeyView.accounts = [shownAccount] := rfl
  rw [calculateAccountStateRoot_eq SampleHash.collisionFree (by decide)
    (fun account hmem => by
      rw [haccounts, List.mem_singleton] at hmem
      rw [hmem, hkey]
      exact SparseMerkleTree.isKey_zeroKey)]
  have hleaf : leafText SampleHash.hash ownKeyView.accounts = fun path =>
      if true = true ∧ path = List.replicate 256 false then SampleHash.leafPayload else "" := by
    funext path
    unfold leafText pathAccount
    rw [haccounts, List.reverse_singleton, List.find?_singleton, hkey, hbits]
    by_cases hpath : path = List.replicate 256 false
    · rw [hpath, beq_self_eq_true, if_pos rfl, if_pos ⟨rfl, rfl⟩]
      rfl
    · rw [if_neg (fun h => hpath (Option.some.inj (eq_of_beq h)).symm), if_neg (fun h => hpath h.2)]
  rw [hleaf, perfectRoot_text, SampleHash.hash_text]
  intro account level
  rw [SampleHash.hash_text, SampleHash.hash_text]
  rfl

/-- The hidden account does not reach the root. -/
theorem calculateAccountStateRoot_sharedKeyView (balance : Amount) :
    calculateAccountStateRoot SampleHash.hash (sharedKeyView balance) =
      some (SampleHash.digest true 256) := by
  have haccounts : (sharedKeyView balance).accounts = [⟨"a\x00b", balance, 0⟩, shownAccount] := rfl
  have hentries : keepLast (fun entry => cString entry.2.address)
      (sharedKeyView balance).accountsByAddress.entries = ownKeyView.accountsByAddress.entries := by
    have hsame : (cString "a\x00c" == cString "a\x00b") = true := by decide
    show keepLast _ [("a\x00b", ⟨"a\x00b", balance, 0⟩), ("a\x00c", shownAccount)] = _
    unfold keepLast
    rw [if_pos (by rw [List.any_cons, List.any_nil, Bool.or_false]; exact hsame)]
    rfl
  have hknown : knownView (sharedKeyView balance) = ownKeyView := by
    unfold knownView ownKeyView
    congr 2
  have hvalid : (sharedKeyView balance).isValid = true := rfl
  have hroot := calculateAccountStateRoot_eq SampleHash.collisionFree hvalid (fun account hmem => by
    have hkey : cString account.address = "a" := by
      rw [haccounts] at hmem
      rcases List.mem_cons.mp hmem with rfl | hmem
      · show cString "a\x00b" = "a"
        decide
      · rw [List.mem_singleton.mp hmem]
        decide
    rw [accountSmtKey, hkey, hash_a]
    exact SparseMerkleTree.isKey_zeroKey)
  rw [hroot, ← calculateAccountStateRoot_ownKeyView, ← hknown,
    calculateAccountStateRoot_knownView SampleHash.collisionFree hroot
      (SampleHash.collisionFree.ne_empty _)]

theorem calculateProtocolStateRoot_sample {view : AccountStateView}
    (h : calculateAccountStateRoot SampleHash.hash view = some (SampleHash.digest true 256)) :
    ∃ accountLeaf domainLeaf, calculateProtocolStateRoot SampleHash.hash view sampleDomains =
      some (MerkleTree.buildRoot SampleHash.hash [accountLeaf, domainLeaf]) := by
  have hlength : ¬ (SampleHash.digest true 256).length > 4294967295 := by
    rw [SampleHash.digest, String.length_ofList, List.length_cons, List.length_append,
      List.length_replicate]
    decide
  have hwritten : ∀ {domain payload : String}, ¬ domain.length > 4294967295 →
      ¬ payload.length > 4294967295 → ∃ leaf, stateDomainLeaf domain payload = some leaf := by
    intro domain payload hdomain hpayload
    unfold stateDomainLeaf CanonicalWriter.writeString
    rw [if_neg (by decide), if_neg hdomain, if_neg hpayload]
    exact ⟨_, rfl⟩
  obtain ⟨accountLeaf, haccountLeaf⟩ := @hwritten "accounts" _ (by decide) hlength
  obtain ⟨domainLeaf, hdomainLeaf⟩ := @hwritten "coin_lots" "x" (by decide) (by decide)
  refine ⟨accountLeaf, domainLeaf, ?_⟩
  have hne : (SampleHash.digest true 256).isEmpty = false := by
    rw [← SampleHash.hash_text]
    simpa using SampleHash.collisionFree.ne_empty _
  have hloop : domainLeaves [accountLeaf] sampleDomains.entries =
      some (some [accountLeaf, domainLeaf]) := by
    show domainLeaves [accountLeaf] [("coin_lots", "x")] = _
    unfold domainLeaves
    rw [if_neg (by decide), hdomainLeaf]
    rfl
  unfold calculateProtocolStateRoot
  rw [h]
  simp only [hne, haccountLeaf, hloop]
  rfl

/-- One account that owns its key, and a domain. -/
theorem protocol_state_root_binds_ownKeyView :
    ∃ root, calculateProtocolStateRoot SampleHash.hash ownKeyView sampleDomains = some root ∧
      ∀ view' domains', DistinctKeys view' → domains' ≠ SortedMap.empty →
        calculateProtocolStateRoot SampleHash.hash view' domains' = some root →
        ownKeyView = view' ∧ sampleDomains = domains' := by
  obtain ⟨accountLeaf, domainLeaf, hroot⟩ :=
    calculateProtocolStateRoot_sample calculateAccountStateRoot_ownKeyView
  have hne : MerkleTree.buildRoot SampleHash.hash [accountLeaf, domainLeaf] ≠ "" := by
    rw [MerkleTree.buildRoot_eq]
    exact SampleHash.collisionFree.ne_empty _
  have hdistinct : DistinctKeys ownKeyView := by
    intro a ha b hb _
    have haccounts : ownKeyView.accounts = [shownAccount] := rfl
    rw [haccounts, List.mem_singleton] at ha hb
    rw [ha, hb]
  exact ⟨_, hroot, (protocol_state_root_binds SampleHash.collisionFree ownKeyView sampleDomains
    (by decide) _ hroot hne).1.mp hdistinct⟩

/-- **The root does not bind a hidden account.** The addresses differ after a NUL; the
balance of the first account changes and the root stays. -/
theorem hidden_account_keeps_root :
    CollisionFree SampleHash.hash ∧
    (sharedKeyView ⟨1, by decide⟩).isValid = true ∧ (sharedKeyView ⟨2, by decide⟩).isValid = true ∧
    sharedKeyView ⟨1, by decide⟩ ≠ sharedKeyView ⟨2, by decide⟩ ∧
    ∃ root, root ≠ "" ∧
      calculateProtocolStateRoot SampleHash.hash (sharedKeyView ⟨1, by decide⟩) sampleDomains =
        some root ∧
      calculateProtocolStateRoot SampleHash.hash (sharedKeyView ⟨2, by decide⟩) sampleDomains =
        some root := by
  refine ⟨SampleHash.collisionFree, rfl, rfl, by decide, ?_⟩
  obtain ⟨accountLeaf, domainLeaf, hroot⟩ :=
    calculateProtocolStateRoot_sample (calculateAccountStateRoot_sharedKeyView ⟨1, by decide⟩)
  refine ⟨_, ?_, hroot, ?_⟩
  · rw [MerkleTree.buildRoot_eq]
    exact SampleHash.collisionFree.ne_empty _
  · rw [← hroot]
    unfold calculateProtocolStateRoot
    rw [calculateAccountStateRoot_sharedKeyView, calculateAccountStateRoot_sharedKeyView]

end StateRootCalculator

end Nodo.Model
