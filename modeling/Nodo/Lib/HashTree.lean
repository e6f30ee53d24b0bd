import Mathlib.Algebra.Ring.Nat
import Mathlib.Data.List.Nodup
import Mathlib.Data.List.Perm.Subperm
import Mathlib.Logic.Function.Basic

/-!
# Trees of hashes

Two ways to hash a collection down to one digest, over any type of digests and any
way to combine two of them: a perfect tree over all paths of a length, and layers
that are paired up until one digest is left, the last one paired with itself where
the number is odd.

## Results

* `perfectRoot_inj` — the root of a perfect tree determines its leaves.
* `layerRoot_eq_iff` — the last digest of the layers determines the row of leaves that the
  finished tree has, in which odd layers repeat their last node.
* `layerRoot_inj` — it determines a list of distinct leaves, whatever its length; equal leaves
  could hide behind the odd pairing.
* `perfectRoot_ne_layerRoot` — the two kinds of tree never share a root.
* `mem_of_climb` — a path of any length with any siblings leads to the last digest of the layers
  only from one of their leaves.
-/

namespace HashTree

variable {H : Type*} (node : H → H → H)

--
-- Perfect trees
--

/-- The root over the leaves at all paths of length `n`. -/
def perfectRoot : Nat → (List Bool → H) → H
  | 0, leaf => leaf []
  | n + 1, leaf =>
    node (perfectRoot n (fun path => leaf (false :: path)))
      (perfectRoot n (fun path => leaf (true :: path)))

variable {node}

theorem perfectRoot_congr {n : Nat} {leaf leaf' : List Bool → H}
    (h : ∀ path, path.length = n → leaf path = leaf' path) :
    perfectRoot node n leaf = perfectRoot node n leaf' := by
  induction n generalizing leaf leaf' with
  | zero => exact h [] rfl
  | succ n ih =>
    unfold perfectRoot
    rw [ih (fun path hpath => h (false :: path) (by rw [List.length_cons, hpath])),
      ih (fun path hpath => h (true :: path) (by rw [List.length_cons, hpath]))]

/-- The root of a perfect tree determines its leaves. -/
theorem perfectRoot_inj (hnode : Function.Injective2 node) {n : Nat} {leaf leaf' : List Bool → H}
    (h : perfectRoot node n leaf = perfectRoot node n leaf') (path : List Bool)
    (hpath : path.length = n) : leaf path = leaf' path := by
  induction n generalizing leaf leaf' path with
  | zero =>
    rw [List.length_eq_zero_iff.mp hpath]
    exact h
  | succ n ih =>
    obtain ⟨hleft, hright⟩ := hnode h
    cases path with
    | nil => cases hpath
    | cons bit rest =>
      have hrest := Nat.succ.inj hpath
      cases bit with
      | false => exact ih hleft rest hrest
      | true => exact ih hright rest hrest

/-- A map that respects the nodes commutes with the root. -/
theorem perfectRoot_map {H' : Type*} {node' : H' → H' → H'} {f : H → H'}
    (hf : ∀ a b, f (node a b) = node' (f a) (f b)) (n : Nat) (leaf : List Bool → H) :
    f (perfectRoot node n leaf) = perfectRoot node' n (fun path => f (leaf path)) := by
  induction n generalizing leaf with
  | zero => rfl
  | succ n ih =>
    unfold perfectRoot
    rw [hf, ih, ih]

--
-- Layers
--

variable (node)

/-- The next layer; the last of an odd number is paired with itself. -/
def pairUp : List H → List H
  | [] => []
  | [a] => [node a a]
  | a :: b :: rest => node a b :: pairUp rest

theorem length_pairUp_le : ∀ layer : List H, (pairUp node layer).length ≤ layer.length
  | [] => Nat.le_refl 0
  | [_] => Nat.le_refl 1
  | a :: b :: rest => by
    have := length_pairUp_le rest
    simp only [pairUp, List.length_cons]
    omega

/-- The digest the layers lead to. -/
def layerRoot (blank : H) : List H → H
  | [] => blank
  | [a] => a
  | a :: b :: rest => layerRoot blank (node a b :: pairUp node rest)
termination_by layer => layer.length
decreasing_by
  have := length_pairUp_le node rest
  simp only [List.length_cons]
  omega

variable {node}

theorem pairUp_map {H' : Type*} {node' : H' → H' → H'} {f : H → H'}
    (hf : ∀ a b, f (node a b) = node' (f a) (f b)) :
    ∀ layer : List H, (pairUp node layer).map f = pairUp node' (layer.map f)
  | [] => rfl
  | [a] => by simp only [pairUp, List.map_cons, List.map_nil, hf]
  | a :: b :: rest => by simp only [pairUp, List.map_cons, hf, pairUp_map hf rest]

theorem layerRoot_map {H' : Type*} {node' : H' → H' → H'} {f : H → H'}
    (hf : ∀ a b, f (node a b) = node' (f a) (f b)) (blank : H) (layer : List H) :
    f (layerRoot node blank layer) = layerRoot node' (f blank) (layer.map f) := by
  induction layer using layerRoot.induct node with
  | case1 => simp only [layerRoot, List.map_nil]
  | case2 a => simp only [layerRoot, List.map_cons, List.map_nil]
  | case3 a b rest ih =>
    simp only [List.map_cons, hf, pairUp_map hf] at ih
    simp only [layerRoot, List.map_cons, ih]

/-- `leaf` is what the left branches lead to, `n` steps below. -/
inductive LeftLeaf (node : H → H → H) (leaf : H) : Nat → H → Prop
  | here (h : ∀ a b, leaf ≠ node a b) : LeftLeaf node leaf 0 leaf
  | above {n : Nat} {a : H} (h : LeftLeaf node leaf n a) (b : H) :
    LeftLeaf node leaf (n + 1) (node a b)

/-- A digest has one depth and one leaf on the left. -/
theorem LeftLeaf.unique (hnode : Function.Injective2 node) {leaf leaf' digest : H} {n n' : Nat}
    (h : LeftLeaf node leaf n digest) (h' : LeftLeaf node leaf' n' digest) :
    n = n' ∧ leaf = leaf' := by
  induction h generalizing n' with
  | here hleaf =>
    cases h' with
    | here => exact ⟨rfl, rfl⟩
    | above => exact absurd rfl (hleaf _ _)
  | @above n a hbelow b ih =>
    generalize hdigest : node a b = digest at h'
    cases h' with
    | here hleaf => exact absurd hdigest.symm (hleaf _ _)
    | above hbelow' =>
      obtain ⟨rfl, rfl⟩ := hnode hdigest
      obtain ⟨rfl, rfl⟩ := ih hbelow'
      exact ⟨rfl, rfl⟩

theorem perfectRoot_leftLeaf {n : Nat} {leaf : List Bool → H}
    (h : ∀ path a b, leaf path ≠ node a b) :
    LeftLeaf node (leaf (List.replicate n false)) n (perfectRoot node n leaf) := by
  induction n generalizing leaf with
  | zero => exact .here (h [])
  | succ n ih => exact .above (ih (fun path => h (false :: path))) _

/-- The root lies above the first leaf of its layer, and strictly above where there is
more than one. -/
theorem layerRoot_leftLeaf {blank leaf a : H} {rest : List H} {n : Nat}
    (h : LeftLeaf node leaf n a) :
    ∃ k, LeftLeaf node leaf (n + k) (layerRoot node blank (a :: rest)) ∧ (rest ≠ [] → 0 < k) := by
  generalize hlayer : a :: rest = layer
  induction layer using layerRoot.induct node generalizing a rest n with
  | case1 => cases hlayer
  | case2 b =>
    obtain ⟨rfl, rfl⟩ := List.cons.inj hlayer
    rw [layerRoot]
    exact ⟨0, h, fun hne => absurd rfl hne⟩
  | case3 b c others ih =>
    obtain ⟨rfl, rfl⟩ := List.cons.inj hlayer
    obtain ⟨k, hk, -⟩ := ih (h.above c) rfl
    rw [layerRoot]
    refine ⟨k + 1, ?_, fun _ => Nat.succ_pos k⟩
    rw [show n + (k + 1) = n + 1 + k by omega]
    exact hk

theorem mem_pairUp : ∀ {layer : List H} {digest : H}, digest ∈ pairUp node layer →
    ∃ a ∈ layer, ∃ b ∈ layer, digest = node a b
  | [], _, h => absurd h List.not_mem_nil
  | [a], digest, h => by
    rw [pairUp, List.mem_singleton] at h
    exact ⟨a, List.mem_cons_self, a, List.mem_cons_self, h⟩
  | a :: b :: rest, digest, h => by
    rcases List.mem_cons.mp h with rfl | hrest
    · exact ⟨a, List.mem_cons_self, b, List.mem_cons_of_mem _ List.mem_cons_self, rfl⟩
    · obtain ⟨c, hc, d, hd, rfl⟩ := mem_pairUp hrest
      exact ⟨c, List.mem_cons_of_mem _ (List.mem_cons_of_mem _ hc), d,
        List.mem_cons_of_mem _ (List.mem_cons_of_mem _ hd), rfl⟩

/-- **A perfect tree and layers over other leaves never share a root.** -/
theorem perfectRoot_ne_layerRoot (hnode : Function.Injective2 node) {blank : H} {n : Nat}
    {leaf : List Bool → H} {layer : List H} (hne : layer ≠ [])
    (hleaf : ∀ path a b, leaf path ≠ node a b) (hlayer : ∀ digest ∈ layer, ∀ a b, digest ≠ node a b)
    (hother : ∀ path, leaf path ∉ layer) :
    perfectRoot node n leaf ≠ layerRoot node blank layer := by
  intro heq
  cases layer with
  | nil => exact hne rfl
  | cons a rest =>
    have hperfect : LeftLeaf node (leaf (List.replicate n false)) n (perfectRoot node n leaf) :=
      perfectRoot_leftLeaf hleaf
    obtain ⟨k, hk, -⟩ : ∃ k, LeftLeaf node a (0 + k) (layerRoot node blank (a :: rest)) ∧
        (rest ≠ [] → 0 < k) := layerRoot_leftLeaf (.here (hlayer a List.mem_cons_self))
    rw [heq] at hperfect
    have hsame := (hperfect.unique hnode hk).2
    refine hother (List.replicate n false) ?_
    rw [hsame]
    exact List.mem_cons_self

--
-- The row of leaves
--

/-- The digest of no leaves matters only where there are none. -/
theorem layerRoot_blank (blank blank' : H) {layer : List H} (hne : layer ≠ []) :
    layerRoot node blank layer = layerRoot node blank' layer := by
  induction layer using layerRoot.induct node with
  | case1 => exact absurd rfl hne
  | case2 a => rw [layerRoot, layerRoot]
  | case3 a b rest ih =>
    rw [layerRoot, layerRoot]
    exact ih (List.cons_ne_nil _ _)

/-- A tree before it is hashed. -/
inductive Shape (α : Type*)
  | leaf (a : α)
  | node (left right : Shape α)

namespace Shape

variable {α : Type*}

/-- The digest of a tree over the digests of its leaves. -/
def digest (node : H → H → H) (leaf : α → H) : Shape α → H
  | .leaf a => leaf a
  | .node left right => node (digest node leaf left) (digest node leaf right)

/-- The leaves from left to right. -/
def row : Shape α → List α
  | .leaf a => [a]
  | .node left right => left.row ++ right.row

/-- All leaves of the tree lie `n` steps below its root. -/
def Full : Nat → Shape α → Prop
  | 0, .leaf _ => True
  | n + 1, .node left right => left.Full n ∧ right.Full n
  | _, _ => False

theorem length_row : ∀ {n : Nat} {tree : Shape α}, tree.Full n → tree.row.length = 2 ^ n
  | 0, .leaf _, _ => rfl
  | n + 1, .node left right, h => by
    rw [row, List.length_append, length_row h.1, length_row h.2, Nat.pow_succ, Nat.mul_two]
  | 0, .node _ _, h => h.elim
  | _ + 1, .leaf _, h => h.elim

/-- A full tree is determined by its row. -/
theorem eq_of_row : ∀ {n : Nat} {tree tree' : Shape α}, tree.Full n → tree'.Full n →
    tree.row = tree'.row → tree = tree'
  | 0, .leaf a, .leaf b, _, _, h => by rw [(List.cons.inj h).1]
  | n + 1, .node left right, .node left' right', h, h', hrow => by
    obtain ⟨hleft, hright⟩ := List.append_inj hrow
      ((length_row h.1).trans (length_row h'.1).symm)
    rw [eq_of_row h.1 h'.1 hleft, eq_of_row h.2 h'.2 hright]
  | 0, .node _ _, _, h, _, _ => h.elim
  | 0, .leaf _, .node _ _, _, h', _ => h'.elim
  | _ + 1, .leaf _, _, h, _, _ => h.elim
  | _ + 1, .node _ _, .leaf _, _, h', _ => h'.elim

/-- A tree is determined by its digest, if nodes are and leaves are no nodes. -/
theorem digest_inj {leaf : α → H} (hnode : Function.Injective2 node)
    (hleaf : Function.Injective leaf) (hother : ∀ a x y, leaf a ≠ node x y) :
    Function.Injective (digest node leaf) := by
  intro tree tree' h
  induction tree generalizing tree' with
  | leaf a =>
    cases tree' with
    | leaf b => rw [hleaf h]
    | node _ _ => exact absurd h (hother a _ _)
  | node left right ihleft ihright =>
    cases tree' with
    | leaf b => exact absurd h.symm (hother b _ _)
    | node left' right' =>
      obtain ⟨hleft, hright⟩ := hnode h
      rw [ihleft hleft, ihright hright]

/-- The next layer of full trees is one of full trees. -/
theorem full_pairUp {n : Nat} : ∀ {layer : List (Shape α)}, (∀ tree ∈ layer, tree.Full n) →
    ∀ tree ∈ pairUp .node layer, tree.Full (n + 1) := by
  intro layer h tree hmem
  obtain ⟨a, ha, b, hb, rfl⟩ := mem_pairUp hmem
  exact ⟨h a ha, h b hb⟩

theorem full_layerRoot {blank : Shape α} {layer : List (Shape α)} {n : Nat} (hne : layer ≠ [])
    (h : ∀ tree ∈ layer, tree.Full n) :
    ∃ k, (layerRoot .node blank layer).Full k := by
  induction layer using layerRoot.induct Shape.node generalizing n with
  | case1 => exact absurd rfl hne
  | case2 a =>
    rw [layerRoot]
    exact ⟨n, h a List.mem_cons_self⟩
  | case3 a b rest ih =>
    rw [layerRoot]
    exact ih (List.cons_ne_nil _ _) (full_pairUp h)

/-- The next layer has the leaves of the layer, and after them some that it repeats. -/
theorem row_pairUp : ∀ layer : List (Shape α), ∃ repeated,
    (pairUp .node layer).flatMap row = layer.flatMap row ++ repeated ∧
      ∀ a ∈ repeated, a ∈ layer.flatMap row
  | [] => ⟨[], rfl, fun _ hmem => absurd hmem List.not_mem_nil⟩
  | [tree] => ⟨tree.row, by simp [pairUp, row], fun a hmem => by simpa using hmem⟩
  | tree :: tree' :: rest => by
    obtain ⟨repeated, hrow, hmem⟩ := row_pairUp rest
    refine ⟨repeated, ?_, fun a ha => ?_⟩
    · rw [pairUp, List.flatMap_cons, hrow, row, List.flatMap_cons, List.flatMap_cons]
      simp only [List.append_assoc]
    · rw [List.flatMap_cons, List.flatMap_cons]
      exact List.mem_append_right _ (List.mem_append_right _ (hmem a ha))

theorem row_layerRoot {blank : Shape α} {layer : List (Shape α)} (hne : layer ≠ []) :
    ∃ repeated, (layerRoot .node blank layer).row = layer.flatMap row ++ repeated ∧
      ∀ a ∈ repeated, a ∈ layer.flatMap row := by
  induction layer using layerRoot.induct Shape.node with
  | case1 => exact absurd rfl hne
  | case2 a =>
    rw [layerRoot]
    exact ⟨[], by simp, fun _ hmem => absurd hmem List.not_mem_nil⟩
  | case3 a b rest ih =>
    rw [layerRoot]
    obtain ⟨above, hrow, habove⟩ := ih (List.cons_ne_nil _ _)
    obtain ⟨repeated, hpairs, hmem⟩ := row_pairUp (a :: b :: rest)
    have hpairs : (node a b :: pairUp .node rest).flatMap row =
        (a :: b :: rest).flatMap row ++ repeated := hpairs
    have hall : ∀ c ∈ (node a b :: pairUp .node rest).flatMap row,
        c ∈ (a :: b :: rest).flatMap row := by
      intro c hc
      rw [hpairs] at hc
      exact (List.mem_append.mp hc).elim id (hmem c)
    refine ⟨repeated ++ above, ?_, fun c hc => ?_⟩
    · rw [hrow, hpairs, List.append_assoc]
    · exact (List.mem_append.mp hc).elim (hmem c) fun h => hall c (habove c h)

end Shape

variable {α : Type*}

/-- What the leaves of the layers are when they are read off the finished tree: an odd layer
repeats its last node, with all leaves below it. -/
def leafRow (leaves : List α) : List α := layerRoot (· ++ ·) [] (leaves.map ([·]))

/-- The tree over some leaves has their row. -/
theorem row_eq_leafRow (blank : Shape α) {leaves : List α} (hne : leaves ≠ []) :
    (layerRoot .node blank (leaves.map .leaf)).row = leafRow leaves := by
  rw [@layerRoot_map _ Shape.node _ (· ++ ·) Shape.row (fun _ _ => rfl), List.map_map]
  exact layerRoot_blank _ _ (by simpa using hne)

/-- The row starts with the leaves, and repeats some of them. -/
theorem leafRow_eq (leaves : List α) :
    ∃ repeated, leafRow leaves = leaves ++ repeated ∧ ∀ a ∈ repeated, a ∈ leaves := by
  cases leaves with
  | nil => exact ⟨[], by simp [leafRow, layerRoot], fun _ hmem => absurd hmem List.not_mem_nil⟩
  | cons a rest =>
    obtain ⟨repeated, hrow, hmem⟩ := @Shape.row_layerRoot _ (.leaf a) ((a :: rest).map Shape.leaf)
      (List.cons_ne_nil _ _)
    have hflat : ∀ leaves : List α, (leaves.map Shape.leaf).flatMap Shape.row = leaves := by
      intro leaves
      rw [List.flatMap_map]
      exact List.flatMap_singleton' leaves
    rw [row_eq_leafRow _ (List.cons_ne_nil _ _), hflat] at hrow
    rw [hflat] at hmem
    exact ⟨repeated, hrow, hmem⟩

theorem mem_leafRow {leaves : List α} {a : α} : a ∈ leafRow leaves ↔ a ∈ leaves := by
  obtain ⟨repeated, hrow, hmem⟩ := leafRow_eq leaves
  rw [hrow, List.mem_append]
  exact ⟨fun h => h.elim id (hmem a), Or.inl⟩

/-- Rows of equally many leaves are equal only if the leaves are. -/
theorem eq_of_leafRow {leaves leaves' : List α} (hlength : leaves.length = leaves'.length)
    (h : leafRow leaves = leafRow leaves') : leaves = leaves' := by
  obtain ⟨repeated, hrow, -⟩ := leafRow_eq leaves
  obtain ⟨repeated', hrow', -⟩ := leafRow_eq leaves'
  rw [hrow, hrow'] at h
  exact (List.append_inj h hlength).1

/-- Distinct leaves are determined by their row, whatever their number. -/
theorem eq_of_leafRow_of_nodup {leaves leaves' : List α} (hdistinct : leaves.Nodup)
    (hdistinct' : leaves'.Nodup) (h : leafRow leaves = leafRow leaves') : leaves = leaves' := by
  refine eq_of_leafRow (Nat.le_antisymm ?_ ?_) h
  · exact (hdistinct.subperm fun a ha => mem_leafRow.mp (h ▸ mem_leafRow.mpr ha)).length_le
  · exact (hdistinct'.subperm fun a ha => mem_leafRow.mp (h ▸ mem_leafRow.mpr ha)).length_le

/-- **The layers determine the row of their leaves**, and nothing else about them. -/
theorem layerRoot_eq_iff {leaf : α → H} {blank : H} (hnode : Function.Injective2 node)
    (hleaf : Function.Injective leaf) (hother : ∀ a x y, leaf a ≠ node x y)
    {leaves leaves' : List α} (hne : leaves ≠ []) (hne' : leaves' ≠ []) :
    layerRoot node blank (leaves.map leaf) = layerRoot node blank (leaves'.map leaf) ↔
      leafRow leaves = leafRow leaves' := by
  obtain ⟨a, ha⟩ := List.exists_mem_of_ne_nil leaves hne
  have hblank : ∀ {leaves : List α}, leaves ≠ [] → layerRoot node blank (leaves.map leaf) =
      (layerRoot Shape.node (.leaf a) (leaves.map Shape.leaf)).digest node leaf := by
    intro leaves hne
    rw [@layerRoot_map _ Shape.node _ node (Shape.digest node leaf) (fun _ _ => rfl),
      List.map_map]
    exact layerRoot_blank _ _ (by simpa using hne)
  rw [hblank hne, hblank hne', (Shape.digest_inj hnode hleaf hother).eq_iff,
    ← row_eq_leafRow (.leaf a) hne, ← row_eq_leafRow (.leaf a) hne']
  refine ⟨congrArg Shape.row, fun hrow => ?_⟩
  have hbottom : ∀ {leaves : List α}, ∀ tree ∈ leaves.map Shape.leaf, tree.Full 0 := by
    intro leaves tree hmem
    obtain ⟨b, -, rfl⟩ := List.mem_map.mp hmem
    trivial
  obtain ⟨k, hfull⟩ := @Shape.full_layerRoot _ (.leaf a) _ _ (by simpa using hne) hbottom
  obtain ⟨k', hfull'⟩ := @Shape.full_layerRoot _ (.leaf a) _ _ (by simpa using hne') hbottom
  -- rows of equal length come from trees of equal depth
  have hdepth : 2 ^ k = 2 ^ k' := by
    rw [← Shape.length_row hfull, ← Shape.length_row hfull', hrow]
  rw [(Nat.pow_right_inj (by omega)).mp hdepth] at hfull
  exact Shape.eq_of_row hfull hfull' hrow

/-- **The layers determine distinct leaves**, whatever their number. -/
theorem layerRoot_inj {leaf : α → H} {blank : H} (hnode : Function.Injective2 node)
    (hleaf : Function.Injective leaf) (hother : ∀ a x y, leaf a ≠ node x y)
    {leaves leaves' : List α} (hne : leaves ≠ []) (hne' : leaves' ≠ []) (hdistinct : leaves.Nodup)
    (hdistinct' : leaves'.Nodup)
    (h : layerRoot node blank (leaves.map leaf) = layerRoot node blank (leaves'.map leaf)) :
    leaves = leaves' :=
  eq_of_leafRow_of_nodup hdistinct hdistinct'
    ((layerRoot_eq_iff hnode hleaf hother hne hne').mp h)

--
-- Paths
--

/-- What a path leads to; a step has the sibling and whether it stands on the left. -/
def climb (node : H → H → H) (leaf : H) (path : List (Bool × H)) : H :=
  path.foldl (fun current step =>
    if step.1 then node step.2 current else node current step.2) leaf

/-- The digests can be told from the other values that siblings may have: beside any sibling a
digest is the one that the node was made of. -/
structure Digests (node : H → H → H) (IsDigest : H → Prop) : Prop where
  made : ∀ a b, IsDigest (node a b)
  left : ∀ {current sibling a b : H}, IsDigest current → IsDigest a →
    node current sibling = node a b → current = a
  right : ∀ {current sibling a b : H}, IsDigest current → IsDigest b →
    node sibling current = node a b → current = b

variable {IsDigest : H → Prop}

theorem climb_append (leaf : H) (path path' : List (Bool × H)) :
    climb node leaf (path ++ path') = climb node (climb node leaf path) path' :=
  List.foldl_append

theorem isDigest_climb (hdigests : Digests node IsDigest) {leaf : H} (hleaf : IsDigest leaf)
    (path : List (Bool × H)) : IsDigest (climb node leaf path) := by
  induction path generalizing leaf with
  | nil => exact hleaf
  | cons step path ih =>
    refine ih ?_
    show IsDigest (if step.1 then node step.2 leaf else node leaf step.2)
    split
    · exact hdigests.made _ _
    · exact hdigests.made _ _

/-- The last step of a path that leads to a node starts at one of its children. -/
theorem climb_child (hdigests : Digests node IsDigest) {leaf a b : H} (hleaf : IsDigest leaf)
    (ha : IsDigest a) (hb : IsDigest b) {path : List (Bool × H)} {step : Bool × H}
    (h : climb node leaf (path ++ [step]) = node a b) :
    climb node leaf path = a ∨ climb node leaf path = b := by
  have hcurrent := isDigest_climb hdigests hleaf path
  rw [climb_append] at h
  change (if step.1 then node step.2 (climb node leaf path)
    else node (climb node leaf path) step.2) = node a b at h
  split at h
  · exact Or.inr (hdigests.right hcurrent hb h)
  · exact Or.inl (hdigests.left hcurrent ha h)

/-- A path to the last digest meets every layer that is above its leaf. -/
theorem climb_meets (hdigests : Digests node IsDigest) {blank leaf : H} {layer : List H}
    (hne : layer ≠ []) (hlayer : ∀ digest ∈ layer, IsDigest digest) (hleaf : IsDigest leaf)
    (hbottom : ∀ a b, leaf ≠ node a b) {path : List (Bool × H)}
    (h : climb node leaf path = layerRoot node blank layer) :
    ∃ low high, path = low ++ high ∧ climb node leaf low ∈ layer := by
  induction layer using layerRoot.induct node with
  | case1 => exact absurd rfl hne
  | case2 a =>
    rw [layerRoot] at h
    exact ⟨path, [], (List.append_nil _).symm, by rw [h]; exact List.mem_singleton_self a⟩
  | case3 a b rest ih =>
    have hmade : ∀ digest ∈ node a b :: pairUp node rest, ∃ x ∈ a :: b :: rest,
        ∃ y ∈ a :: b :: rest, digest = node x y := fun digest hdigest =>
      @mem_pairUp _ node (a :: b :: rest) digest hdigest
    rw [layerRoot] at h
    obtain ⟨low, high, rfl, hmem⟩ := ih (List.cons_ne_nil _ _) (fun digest hdigest => by
      obtain ⟨x, -, y, -, rfl⟩ := hmade digest hdigest
      exact hdigests.made x y) h
    obtain ⟨x, hx, y, hy, hnode⟩ := hmade _ hmem
    rcases List.eq_nil_or_concat low with rfl | ⟨before, step, rfl⟩
    · exact absurd hnode (hbottom x y)
    · rw [List.concat_eq_append] at hnode ⊢
      refine ⟨before, step :: high, by rw [List.append_assoc]; rfl, ?_⟩
      rcases climb_child hdigests hleaf (hlayer x hx) (hlayer y hy) hnode with heq | heq
      · rwa [heq]
      · rwa [heq]

/-- **A path with any siblings** leads to the last digest of the layers only from a leaf. -/
theorem mem_of_climb (hdigests : Digests node IsDigest) {blank leaf : H} {layer : List H}
    (hne : layer ≠ []) (hlayer : ∀ digest ∈ layer, IsDigest digest ∧ ∀ a b, digest ≠ node a b)
    (hleaf : IsDigest leaf) (hbottom : ∀ a b, leaf ≠ node a b) {path : List (Bool × H)}
    (h : climb node leaf path = layerRoot node blank layer) : leaf ∈ layer := by
  obtain ⟨low, high, -, hmem⟩ := climb_meets hdigests hne (fun digest hdigest =>
    (hlayer digest hdigest).1) hleaf hbottom h
  rcases List.eq_nil_or_concat low with rfl | ⟨before, step, rfl⟩
  · exact hmem
  · rw [List.concat_eq_append, climb_append] at hmem
    exfalso
    change (if step.1 then node step.2 (climb node leaf before)
      else node (climb node leaf before) step.2) ∈ layer at hmem
    split at hmem
    · exact (hlayer _ hmem).2 _ _ rfl
    · exact (hlayer _ hmem).2 _ _ rfl

end HashTree
