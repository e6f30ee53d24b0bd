import Mathlib.Data.List.Basic
import Mathlib.Logic.Function.Basic
import Mathlib.Algebra.Order.Group.Nat

/-!
# Hash trees that are split at a power of two

The tree over a list is split at the largest power of two below its length, over any type of
digests and any way to combine two of them. The path of a leaf lists the digests beside it from
the leaf upwards; whoever rebuilds the root takes them from the other end.

## Results

* `splitPoint_spec` — the split is a power of two, below the length and at least half of it.
* `rebuild_path` — a leaf and its path give the root back.
* `rebuild_eq_root` — whatever gives the root is the leaf with its path, if nodes are injective.
* `length_path_le` — a path is as long as the tree is deep.
-/

namespace SplitTree

/-- The loop that looks for the split, after `k` doublings. -/
def splitAfter (count k : Nat) : Nat :=
  if 2 ^ k ≤ (count - 1) / 2 then splitAfter count (k + 1) else 2 ^ k
termination_by count - k
decreasing_by
  have hlt : k < 2 ^ k := Nat.lt_two_pow_self
  omega

def splitPoint (count : Nat) : Nat := splitAfter count 0

theorem splitAfter_spec (count k : Nat) (h : 2 ^ k < count) :
    ∃ j, splitAfter count k = 2 ^ j ∧ 2 ^ j < count ∧ count ≤ 2 ^ (j + 1) := by
  induction k using splitAfter.induct count with
  | case1 k hloop ih =>
    rw [splitAfter, if_pos hloop]
    refine ih ?_
    rw [pow_succ]
    omega
  | case2 k hloop =>
    rw [splitAfter, if_neg hloop]
    refine ⟨k, rfl, h, ?_⟩
    rw [pow_succ]
    omega

theorem splitPoint_spec {count : Nat} (h : 2 ≤ count) :
    ∃ j, splitPoint count = 2 ^ j ∧ 2 ^ j < count ∧ count ≤ 2 ^ (j + 1) :=
  splitAfter_spec count 0 (by omega)

theorem splitPoint_lt {count : Nat} (h : 2 ≤ count) : splitPoint count < count := by
  obtain ⟨j, hsplit, hlt, -⟩ := splitPoint_spec h
  rw [hsplit]
  exact hlt

theorem splitPoint_pos {count : Nat} (h : 2 ≤ count) : 0 < splitPoint count := by
  obtain ⟨j, hsplit, -, -⟩ := splitPoint_spec h
  rw [hsplit]
  exact Nat.two_pow_pos j

--
-- Roots and paths
--

variable {H : Type} (node : H → H → H) (blank : H)

/-- The root over a list of leaves; `blank` stands for the tree without leaves. -/
def root (leaves : List H) : H :=
  if 2 ≤ leaves.length then
    node (root (leaves.take (splitPoint leaves.length)))
      (root (leaves.drop (splitPoint leaves.length)))
  else leaves.headD blank
termination_by leaves.length
decreasing_by
  · have hlt := splitPoint_lt ‹2 ≤ leaves.length›
    rw [List.length_take]
    omega
  · have hpos := splitPoint_pos ‹2 ≤ leaves.length›
    rw [List.length_drop]
    omega

/-- The digests beside the way to a leaf, from the leaf upwards. -/
def path (leaves : List H) (index : Nat) : List H :=
  if 2 ≤ leaves.length then
    if index < splitPoint leaves.length then
      path (leaves.take (splitPoint leaves.length)) index
        ++ [root node blank (leaves.drop (splitPoint leaves.length))]
    else
      path (leaves.drop (splitPoint leaves.length)) (index - splitPoint leaves.length)
        ++ [root node blank (leaves.take (splitPoint leaves.length))]
  else []
termination_by leaves.length
decreasing_by
  · have hlt := splitPoint_lt ‹2 ≤ leaves.length›
    rw [List.length_take]
    omega
  · have hpos := splitPoint_pos ‹2 ≤ leaves.length›
    rw [List.length_drop]
    omega

/-- The root from a leaf, taking the digests beside it from the top; what is left of them comes
back. -/
def rebuild (leaf : H) (count index : Nat) (siblings : List H) : Option (H × List H) :=
  if 2 ≤ count then
    match siblings with
    | [] => none
    | sibling :: rest =>
      if index < splitPoint count then
        (rebuild leaf (splitPoint count) index rest).map fun (left, rest) => (node left sibling, rest)
      else
        (rebuild leaf (count - splitPoint count) (index - splitPoint count) rest).map
          fun (right, rest) => (node sibling right, rest)
  else some (leaf, siblings)
termination_by count
decreasing_by
  · exact splitPoint_lt ‹2 ≤ count›
  · have hpos := splitPoint_pos ‹2 ≤ count›
    omega

variable {node blank}

theorem root_split {leaves : List H} (h : 2 ≤ leaves.length) :
    root node blank leaves = node (root node blank (leaves.take (splitPoint leaves.length)))
      (root node blank (leaves.drop (splitPoint leaves.length))) := by
  rw [root, if_pos h]

theorem root_single {leaves : List H} (h : ¬ 2 ≤ leaves.length) :
    root node blank leaves = leaves.headD blank := by
  rw [root, if_neg h]

theorem path_left {leaves : List H} {index : Nat} (h : 2 ≤ leaves.length)
    (hleft : index < splitPoint leaves.length) :
    path node blank leaves index = path node blank (leaves.take (splitPoint leaves.length)) index
      ++ [root node blank (leaves.drop (splitPoint leaves.length))] := by
  rw [path, if_pos h, if_pos hleft]

theorem path_right {leaves : List H} {index : Nat} (h : 2 ≤ leaves.length)
    (hright : ¬ index < splitPoint leaves.length) :
    path node blank leaves index
      = path node blank (leaves.drop (splitPoint leaves.length))
          (index - splitPoint leaves.length)
        ++ [root node blank (leaves.take (splitPoint leaves.length))] := by
  rw [path, if_pos h, if_neg hright]

theorem path_single {leaves : List H} (h : ¬ 2 ≤ leaves.length) (index : Nat) :
    path node blank leaves index = [] := by
  rw [path, if_neg h]

theorem rebuild_single {count : Nat} (h : ¬ 2 ≤ count) (leaf : H) (index : Nat)
    (siblings : List H) : rebuild node leaf count index siblings = some (leaf, siblings) := by
  rw [rebuild.eq_def, if_neg h]

theorem rebuild_nil {count : Nat} (h : 2 ≤ count) (leaf : H) (index : Nat) :
    rebuild node leaf count index [] = none := by
  rw [rebuild.eq_def, if_pos h]

theorem rebuild_left {count index : Nat} (h : 2 ≤ count) (hleft : index < splitPoint count)
    (leaf sibling : H) (rest : List H) :
    rebuild node leaf count index (sibling :: rest)
      = (rebuild node leaf (splitPoint count) index rest).map
          fun (left, rest) => (node left sibling, rest) := by
  rw [rebuild.eq_def, if_pos h]
  exact if_pos hleft

theorem rebuild_right {count index : Nat} (h : 2 ≤ count) (hright : ¬ index < splitPoint count)
    (leaf sibling : H) (rest : List H) :
    rebuild node leaf count index (sibling :: rest)
      = (rebuild node leaf (count - splitPoint count) (index - splitPoint count) rest).map
          fun (right, rest) => (node sibling right, rest) := by
  rw [rebuild.eq_def, if_pos h]
  exact if_neg hright

theorem length_take_split {leaves : List H} (h : 2 ≤ leaves.length) :
    (leaves.take (splitPoint leaves.length)).length = splitPoint leaves.length := by
  have hlt := splitPoint_lt h
  rw [List.length_take]
  omega

/-- The only leaf of a tree without a split. -/
theorem headD_of_single {leaves : List H} {index : Nat} {leaf : H} (h : ¬ 2 ≤ leaves.length)
    (hleaf : leaves[index]? = some leaf) : leaves.headD blank = leaf := by
  obtain ⟨hlt, hget⟩ := List.getElem?_eq_some_iff.mp hleaf
  obtain rfl : index = 0 := by omega
  cases leaves with
  | nil => exact absurd hlt (Nat.not_lt_zero _)
  | cons head rest => exact hget

/-- **A leaf and its path give the root.** -/
theorem rebuild_path (leaves : List H) : ∀ (index : Nat) (leaf : H) (above : List H),
    leaves[index]? = some leaf →
    rebuild node leaf leaves.length index ((path node blank leaves index).reverse ++ above)
      = some (root node blank leaves, above) := by
  induction leaves using root.induct with
  | case1 leaves hsplit ihleft ihright =>
    intro index leaf above hleaf
    by_cases hside : index < splitPoint leaves.length
    · rw [path_left hsplit hside, List.reverse_append, List.append_assoc, List.reverse_singleton,
        List.singleton_append, rebuild_left hsplit hside, root_split hsplit]
      have hget : (leaves.take (splitPoint leaves.length))[index]? = some leaf := by
        rw [List.getElem?_take_of_lt hside, hleaf]
      have hbelow := ihleft index leaf above hget
      rw [length_take_split hsplit] at hbelow
      rw [hbelow]
      rfl
    · rw [path_right hsplit hside, List.reverse_append, List.append_assoc, List.reverse_singleton,
        List.singleton_append, rebuild_right hsplit hside, root_split hsplit]
      have hget : (leaves.drop (splitPoint leaves.length))[index - splitPoint leaves.length]?
          = some leaf := by
        rw [List.getElem?_drop, Nat.add_sub_cancel' (not_lt.mp hside), hleaf]
      have hbelow := ihright (index - splitPoint leaves.length) leaf above hget
      rw [List.length_drop] at hbelow
      rw [hbelow]
      rfl
  | case2 leaves hsplit =>
    intro index leaf above hleaf
    rw [path_single hsplit, rebuild_single hsplit, root_single hsplit,
      headD_of_single hsplit hleaf]
    rfl

/-- **Nothing else gives the root**: what rebuilds it is the leaf of the index with its own
path. -/
theorem rebuild_eq_root (hnode : Function.Injective2 node) (leaves : List H) :
    ∀ (index : Nat) (leaf : H) (siblings above : List H), index < leaves.length →
    rebuild node leaf leaves.length index siblings = some (root node blank leaves, above) →
    leaves[index]? = some leaf ∧ siblings = (path node blank leaves index).reverse ++ above := by
  induction leaves using root.induct with
  | case1 leaves hsplit ihleft ihright =>
    intro index leaf siblings above hlt hrebuild
    cases siblings with
    | nil =>
      rw [rebuild_nil hsplit] at hrebuild
      cases hrebuild
    | cons sibling rest =>
      by_cases hside : index < splitPoint leaves.length
      · rw [rebuild_left hsplit hside, root_split hsplit, Option.map_eq_some_iff] at hrebuild
        obtain ⟨⟨left, rest'⟩, hbelow, hpair⟩ := hrebuild
        obtain ⟨hroots, rfl⟩ := Prod.mk.inj hpair
        obtain ⟨rfl, rfl⟩ := hnode hroots
        obtain ⟨hleaf, hrest⟩ := ihleft index leaf rest rest'
          (by rw [length_take_split hsplit]; exact hside)
          (by rw [length_take_split hsplit]; exact hbelow)
        rw [List.getElem?_take_of_lt hside] at hleaf
        refine ⟨hleaf, ?_⟩
        rw [path_left hsplit hside, List.reverse_append, hrest]
        rfl
      · rw [rebuild_right hsplit hside, root_split hsplit, Option.map_eq_some_iff] at hrebuild
        obtain ⟨⟨right, rest'⟩, hbelow, hpair⟩ := hrebuild
        obtain ⟨hroots, rfl⟩ := Prod.mk.inj hpair
        obtain ⟨rfl, rfl⟩ := hnode hroots
        obtain ⟨hleaf, hrest⟩ := ihright (index - splitPoint leaves.length) leaf rest rest'
          (by rw [List.length_drop]; omega) (by rw [List.length_drop]; exact hbelow)
        rw [List.getElem?_drop, Nat.add_sub_cancel' (not_lt.mp hside)] at hleaf
        refine ⟨hleaf, ?_⟩
        rw [path_right hsplit hside, List.reverse_append, hrest]
        rfl
  | case2 leaves hsplit =>
    intro index leaf siblings above hlt hrebuild
    rw [rebuild_single hsplit, root_single hsplit] at hrebuild
    obtain ⟨hleaf, rfl⟩ := Prod.mk.inj (Option.some.inj hrebuild)
    rw [path_single hsplit]
    refine ⟨?_, rfl⟩
    obtain rfl : index = 0 := by omega
    cases leaves with
    | nil => exact absurd hlt (Nat.not_lt_zero _)
    | cons head rest => exact congrArg some hleaf.symm

/-- A path is as long as the tree is deep. -/
theorem length_path_le (leaves : List H) : ∀ (depth index : Nat), leaves.length ≤ 2 ^ depth →
    (path node blank leaves index).length ≤ depth := by
  induction leaves using root.induct with
  | case1 leaves hsplit ihleft ihright =>
    intro depth index hdepth
    obtain ⟨j, hpow, hlt, hle⟩ := splitPoint_spec hsplit
    have hj : j < depth := (Nat.pow_lt_pow_iff_right (by omega)).mp (hlt.trans_le hdepth)
    obtain ⟨below, rfl⟩ : ∃ below, depth = below + 1 := ⟨depth - 1, by omega⟩
    have hmono : 2 ^ j ≤ 2 ^ below := Nat.pow_le_pow_right (by omega) (by omega)
    by_cases hside : index < splitPoint leaves.length
    · rw [path_left hsplit hside, List.length_append, List.length_singleton]
      have hbelow := ihleft below index (by rw [length_take_split hsplit, hpow]; exact hmono)
      omega
    · rw [path_right hsplit hside, List.length_append, List.length_singleton]
      have hbelow := ihright below (index - splitPoint leaves.length)
        (by rw [List.length_drop, hpow]; rw [pow_succ] at hle; omega)
      omega
  | case2 leaves hsplit =>
    intro depth index hdepth
    rw [path_single hsplit]
    exact Nat.zero_le depth

end SplitTree
