import Nodo.Lib.SortedMap

/-!
# Counting the values of a map

How many values of an ordered map have a property, under the updates of the map: a write
counts the new value against what is there under other keys.

## Results

* `countValues_insert`, `countValues_of_find?` — a write and a lookup, by the rest of the map.
* `countValues_mapValues`, `find?_mapValues` — a change of every value.
-/

namespace SortedMap

variable {κ ν : Type} [LinearOrder κ]

/-- The number of values with a property. -/
def countValues (m : SortedMap κ ν) (p : ν → Bool) : ℕ := m.entries.countP (fun e => p e.2)

/-- A change of every value. -/
def mapValues (m : SortedMap κ ν) (f : ν → ν) : SortedMap κ ν :=
  ⟨m.entries.map fun e => (e.1, f e.2), List.pairwise_map.mpr m.sorted⟩

theorem countValues_insert (m : SortedMap κ ν) (k : κ) (v : ν) (p : ν → Bool) :
    (m.insert k v).countValues p = (m.erase k).countValues p + if p v then 1 else 0 := by
  unfold countValues
  rw [(m.insert_perm k v).countP_eq, List.countP_cons]

theorem countValues_of_find? (m : SortedMap κ ν) {k : κ} {v : ν} (h : m.find? k = some v)
    (p : ν → Bool) : m.countValues p = (m.erase k).countValues p + if p v then 1 else 0 := by
  unfold countValues
  rw [(m.erase_perm h).countP_eq, List.countP_cons]

theorem countValues_erase_of_find?_none (m : SortedMap κ ν) {k : κ} (h : m.find? k = none)
    (p : ν → Bool) : (m.erase k).countValues p = m.countValues p := by
  unfold countValues
  rw [m.erase_of_find?_none h]

/-- A write that replaces a value by one that is counted no more often. -/
theorem countValues_insert_le (m : SortedMap κ ν) {k : κ} {v v' : ν} (h : m.find? k = some v)
    {p : ν → Bool} (hle : p v' = true → p v = true) :
    (m.insert k v').countValues p ≤ m.countValues p := by
  rw [countValues_insert, countValues_of_find? m h]
  by_cases hnew : p v' = true
  · rw [if_pos hnew, if_pos (hle hnew)]
  · rw [if_neg hnew]
    omega

theorem countValues_mapValues (m : SortedMap κ ν) (f : ν → ν) (p : ν → Bool) :
    (m.mapValues f).countValues p = m.countValues (fun v => p (f v)) := by
  unfold countValues mapValues
  rw [List.countP_map]
  rfl

theorem find?_mapValues (m : SortedMap κ ν) (f : ν → ν) (k : κ) :
    (m.mapValues f).find? k = (m.find? k).map f := by
  unfold find? mapValues
  rw [List.find?_map, Option.map_map, Option.map_map]
  rfl

/-- Two properties that exclude each other count together. -/
theorem countValues_or (m : SortedMap κ ν) {p q : ν → Bool}
    (hexclusive : ∀ v, p v = true → q v = false) :
    m.countValues (fun v => p v || q v) = m.countValues p + m.countValues q := by
  unfold countValues
  induction m.entries with
  | nil => rfl
  | cons e rest ih =>
    simp only [List.countP_cons, ih]
    cases hp : p e.2 with
    | true =>
      simp [hexclusive _ hp]
      omega
    | false => cases q e.2 <;> simp <;> omega

end SortedMap
