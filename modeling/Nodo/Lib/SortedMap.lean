import Mathlib.Data.List.Sort
import Mathlib.Data.String.Basic
import Mathlib.Order.Basic

/-!
# Ordered maps

An ordered map is an association list whose keys increase strictly, so a key
occurs once and a fold visits the keys in order. The order proof is a field:
a list with a repeated or misplaced key is not a map.

## Results

* `find?_eq_some_iff` — a lookup answers `v` exactly when the entry is there.
* `find?_insert`, `find?_filter_eq_some` — the update laws.
* `insert_perm`, `erase_perm` — the entries of an update, up to order.
* `eq_of_find?`, `filter_insert` — maps told by their lookups; a filter over an insertion.
* `length_insert_of_find?`, `length_insert_of_none`, `length_erase` — how many there are then.
-/

/-- A finite map as a list of entries with strictly increasing keys. -/
structure SortedMap (κ ν : Type) [LT κ] where
  entries : List (κ × ν)
  sorted : entries.Pairwise (fun a b => a.1 < b.1)

namespace SortedMap

variable {κ ν : Type} [LinearOrder κ]

instance [DecidableEq ν] : DecidableEq (SortedMap κ ν) := fun a b =>
  decidable_of_iff (a.entries = b.entries) (by cases a; cases b; simp)

/-- The empty map. -/
def empty : SortedMap κ ν := ⟨[], List.Pairwise.nil⟩

/-- `map.find(k)`, with `none` for `end()`. -/
def find? (m : SortedMap κ ν) (k : κ) : Option ν :=
  (m.entries.find? (fun e => e.1 == k)).map (·.2)

/-- `map.find(k) != end()`. -/
def contains (m : SortedMap κ ν) (k : κ) : Bool := (m.find? k).isSome

/-- The keys in iteration order. -/
def keys (m : SortedMap κ ν) : List κ := m.entries.map (·.1)

theorem keys_nodup (m : SortedMap κ ν) : m.keys.Nodup := by
  rw [keys, List.Nodup, List.pairwise_map]
  exact m.sorted.imp (fun h => ne_of_lt h)

/-- Two entries of one map with the same key are the same entry. -/
theorem entry_unique (m : SortedMap κ ν) {k : κ} {v v' : ν}
    (hv : (k, v) ∈ m.entries) (hv' : (k, v') ∈ m.entries) : v = v' := by
  have hinj := List.inj_on_of_nodup_map m.keys_nodup
  have heq := hinj hv hv' rfl
  exact (Prod.mk.inj heq).2

theorem find?_eq_some_iff (m : SortedMap κ ν) {k : κ} {v : ν} :
    m.find? k = some v ↔ (k, v) ∈ m.entries := by
  constructor
  · intro h
    rw [find?, Option.map_eq_some_iff] at h
    obtain ⟨⟨k', v'⟩, hfind, rfl⟩ := h
    have hmem := List.mem_of_find?_eq_some hfind
    have hkey : k' = k := by simpa using List.find?_some hfind
    rwa [hkey] at hmem
  · intro h
    have hsome : (m.entries.find? (fun e => e.1 == k)).isSome := by
      rw [List.find?_isSome]
      exact ⟨(k, v), h, by simp⟩
    obtain ⟨⟨k', v'⟩, hfind⟩ := Option.isSome_iff_exists.mp hsome
    have hkey : k' = k := by simpa using List.find?_some hfind
    have hmem : (k, v') ∈ m.entries := by
      rw [← hkey]
      exact List.mem_of_find?_eq_some hfind
    rw [find?, hfind, m.entry_unique h hmem]
    rfl

/-- A map is known by its entries: there is one order to hold them in. -/
theorem eq_of_mem_iff {m m' : SortedMap κ ν}
    (h : ∀ entry, entry ∈ m.entries ↔ entry ∈ m'.entries) : m = m' := by
  obtain ⟨entries, hsorted⟩ := m
  obtain ⟨entries', hsorted'⟩ := m'
  have hnodup : ∀ {l : List (κ × ν)}, l.Pairwise (fun a b => a.1 < b.1) → l.Nodup :=
    fun hpair => hpair.imp (fun hlt heq => absurd (congrArg Prod.fst heq) (ne_of_lt hlt))
  have hperm : entries.Perm entries' :=
    (List.perm_ext_iff_of_nodup (hnodup hsorted) (hnodup hsorted')).mpr h
  have heq : entries = entries' :=
    hperm.eq_of_pairwise (fun a b _ _ hab hba => absurd hba (lt_asymm hab)) hsorted hsorted'
  subst heq
  rfl

theorem mem_keys_iff (m : SortedMap κ ν) {k : κ} : k ∈ m.keys ↔ ∃ v, (k, v) ∈ m.entries := by
  simp [keys]

--
-- Updates
--

/-- Insert or replace at the position that keeps the keys in order. -/
def insertEntry (k : κ) (v : ν) : List (κ × ν) → List (κ × ν)
  | [] => [(k, v)]
  | (k', v') :: rest =>
    if k < k' then (k, v) :: (k', v') :: rest
    else if k = k' then (k, v) :: rest
    else (k', v') :: insertEntry k v rest

theorem mem_insertEntry {k : κ} {v : ν} {l : List (κ × ν)} {e : κ × ν}
    (h : e ∈ insertEntry k v l) : e = (k, v) ∨ e ∈ l := by
  induction l with
  | nil => simpa [insertEntry] using h
  | cons hd rest ih =>
    obtain ⟨k', v'⟩ := hd
    rw [insertEntry] at h
    split_ifs at h with hlt heq
    · rcases List.mem_cons.mp h with rfl | hmem
      · exact Or.inl rfl
      · exact Or.inr hmem
    · rcases List.mem_cons.mp h with rfl | hmem
      · exact Or.inl rfl
      · exact Or.inr (List.mem_cons_of_mem _ hmem)
    · rcases List.mem_cons.mp h with rfl | hmem
      · exact Or.inr (List.mem_cons_self ..)
      · exact (ih hmem).imp id (List.mem_cons_of_mem _)

theorem sorted_insertEntry {k : κ} {v : ν} {l : List (κ × ν)}
    (h : l.Pairwise (fun a b => a.1 < b.1)) :
    (insertEntry k v l).Pairwise (fun a b => a.1 < b.1) := by
  induction l with
  | nil => simp [insertEntry]
  | cons hd rest ih =>
    obtain ⟨k', v'⟩ := hd
    obtain ⟨hhead, htail⟩ := List.pairwise_cons.mp h
    rw [insertEntry]
    split_ifs with hlt heq
    · refine List.pairwise_cons.mpr ⟨?_, h⟩
      intro e he
      rcases List.mem_cons.mp he with rfl | hmem
      · exact hlt
      · exact lt_trans hlt (hhead e hmem)
    · subst heq
      exact List.pairwise_cons.mpr ⟨hhead, htail⟩
    · refine List.pairwise_cons.mpr ⟨?_, ih htail⟩
      intro e he
      rcases mem_insertEntry he with rfl | hmem
      · exact lt_of_le_of_ne (not_lt.mp hlt) (Ne.symm heq)
      · exact hhead e hmem

/-- `map[k] = v`. -/
def insert (m : SortedMap κ ν) (k : κ) (v : ν) : SortedMap κ ν :=
  ⟨insertEntry k v m.entries, sorted_insertEntry m.sorted⟩

/-- Keep the entries that satisfy `p` (an erasing loop over the map). -/
def filter (m : SortedMap κ ν) (p : κ → ν → Bool) : SortedMap κ ν :=
  ⟨m.entries.filter (fun e => p e.1 e.2), m.sorted.filter _⟩

/-- `map.erase(k)`. -/
def erase (m : SortedMap κ ν) (k : κ) : SortedMap κ ν := m.filter (fun k' _ => k' != k)

private theorem find?_insertEntry (k k' : κ) (v : ν) (l : List (κ × ν)) :
    ((insertEntry k v l).find? (fun e => e.1 == k')).map (·.2)
      = if k = k' then some v else (l.find? (fun e => e.1 == k')).map (·.2) := by
  induction l with
  | nil =>
    by_cases hk : k = k' <;> simp [insertEntry, hk]
  | cons hd rest ih =>
    obtain ⟨kh, vh⟩ := hd
    by_cases hk : k = k'
    · subst hk
      rw [if_pos rfl] at ih ⊢
      rw [insertEntry]
      split_ifs with hlt heq
      · simp
      · simp
      · rw [List.find?_cons_of_neg (by simpa using Ne.symm heq)]
        exact ih
    · rw [if_neg hk] at ih ⊢
      rw [insertEntry]
      split_ifs with hlt heq
      · rw [List.find?_cons_of_neg (by simpa using hk)]
      · subst heq
        rw [List.find?_cons_of_neg (by simpa using hk), List.find?_cons_of_neg (by simpa using hk)]
      · rw [List.find?_cons, List.find?_cons]
        split
        · rfl
        · exact ih

theorem find?_insert (m : SortedMap κ ν) (k k' : κ) (v : ν) :
    (m.insert k v).find? k' = if k = k' then some v else m.find? k' :=
  find?_insertEntry k k' v m.entries

@[simp] theorem find?_insert_self (m : SortedMap κ ν) (k : κ) (v : ν) :
    (m.insert k v).find? k = some v := by
  rw [find?_insert, if_pos rfl]

theorem find?_insert_of_ne (m : SortedMap κ ν) {k k' : κ} (v : ν) (h : k ≠ k') :
    (m.insert k v).find? k' = m.find? k' := by
  rw [find?_insert, if_neg h]

theorem find?_filter_eq_some (m : SortedMap κ ν) (p : κ → ν → Bool) {k : κ} {v : ν} :
    (m.filter p).find? k = some v ↔ m.find? k = some v ∧ p k v = true := by
  rw [find?_eq_some_iff, find?_eq_some_iff, filter, List.mem_filter]

@[simp] theorem find?_empty (k : κ) : (empty : SortedMap κ ν).find? k = none := rfl

theorem find?_eq_none_iff (m : SortedMap κ ν) {k : κ} :
    m.find? k = none ↔ ∀ e ∈ m.entries, e.1 ≠ k := by
  rw [find?, Option.map_eq_none_iff, List.find?_eq_none]
  simp

/-- A filter keeps what a lookup finds if the test accepts it. -/
theorem find?_filter (m : SortedMap κ ν) (p : κ → ν → Bool) (k : κ) :
    (m.filter p).find? k = (m.find? k).filter (p k) := by
  ext v
  rw [find?_filter_eq_some, Option.filter_eq_some_iff]

theorem find?_erase (m : SortedMap κ ν) (k k' : κ) :
    (m.erase k).find? k' = if k' = k then none else m.find? k' := by
  rw [erase, find?_filter]
  by_cases heq : k' = k
  · rw [if_pos heq, heq]
    cases m.find? k with
    | none => rfl
    | some v => simp
  · rw [if_neg heq]
    cases m.find? k' with
    | none => rfl
    | some v => simp [heq]

theorem contains_iff (m : SortedMap κ ν) {k : κ} : m.contains k = true ↔ ∃ v, m.find? k = some v := by
  rw [contains, Option.isSome_iff_exists]

theorem contains_insert (m : SortedMap κ ν) {k k' : κ} (v : ν) :
    (m.insert k v).contains k' = true ↔ k = k' ∨ m.contains k' = true := by
  rw [contains_iff, contains_iff, find?_insert]
  by_cases hk : k = k'
  · simp [hk]
  · simp [hk]

theorem contains_erase (m : SortedMap κ ν) {k k' : κ} :
    (m.erase k).contains k' = true ↔ k' ≠ k ∧ m.contains k' = true := by
  rw [contains_iff, contains_iff, erase]
  constructor
  · rintro ⟨v, hv⟩
    obtain ⟨hfind, hne⟩ := (find?_filter_eq_some _ _).mp hv
    exact ⟨by simpa using hne, v, hfind⟩
  · rintro ⟨hne, v, hfind⟩
    exact ⟨v, (find?_filter_eq_some _ _).mpr ⟨hfind, by simpa using hne⟩⟩

/-- A loop that erases the image of a list. -/
theorem contains_foldl_erase {α : Type} (f : α → κ) (l : List α) (m : SortedMap κ ν) {k : κ} :
    (l.foldl (fun m a => m.erase (f a)) m).contains k = true ↔
      m.contains k = true ∧ ∀ a ∈ l, f a ≠ k := by
  induction l generalizing m with
  | nil => simp
  | cons a rest ih =>
    rw [List.foldl_cons, ih, contains_erase]
    constructor
    · rintro ⟨⟨hne, hin⟩, hrest⟩
      refine ⟨hin, ?_⟩
      intro b hb
      rcases List.mem_cons.mp hb with rfl | hb
      · exact Ne.symm hne
      · exact hrest b hb
    · rintro ⟨hin, hall⟩
      exact ⟨⟨Ne.symm (hall a List.mem_cons_self), hin⟩,
        fun b hb => hall b (List.mem_cons_of_mem _ hb)⟩

/-- The entries after `map[k] = v`: the new one and those of other keys. -/
theorem insert_perm (m : SortedMap κ ν) (k : κ) (v : ν) :
    (m.insert k v).entries.Perm ((k, v) :: (m.erase k).entries) := by
  obtain ⟨l, hl⟩ := m
  show (insertEntry k v l).Perm ((k, v) :: l.filter (fun e => e.1 != k))
  induction l with
  | nil => exact List.Perm.refl _
  | cons hd rest ih =>
    obtain ⟨k', v'⟩ := hd
    obtain ⟨hhead, htail⟩ := List.pairwise_cons.mp hl
    have hrest : ∀ {key}, key ≤ k' → rest.filter (fun e => e.1 != key) = rest := by
      intro key hle
      refine List.filter_eq_self.mpr (fun e he => ?_)
      exact bne_iff_ne.mpr (ne_of_gt (lt_of_le_of_lt hle (hhead e he)))
    rw [insertEntry]
    split_ifs with hlt heq
    · rw [List.filter_cons_of_pos (by simpa using ne_of_gt hlt), hrest hlt.le]
    · subst heq
      rw [List.filter_cons_of_neg (by simp), hrest le_rfl]
    · rw [List.filter_cons_of_pos (by simpa using Ne.symm heq)]
      exact (List.Perm.cons _ (ih htail)).trans (List.Perm.swap _ _ _)

/-- The entries of a map with a key in it. -/
theorem erase_perm (m : SortedMap κ ν) {k : κ} {v : ν} (h : m.find? k = some v) :
    m.entries.Perm ((k, v) :: (m.erase k).entries) := by
  have hmem := m.find?_eq_some_iff.mp h
  obtain ⟨l, hl⟩ := m
  show l.Perm ((k, v) :: l.filter (fun e => e.1 != k))
  obtain ⟨before, after, rfl⟩ := List.append_of_mem hmem
  have hkeys := (SortedMap.mk _ hl).keys_nodup
  simp only [keys, List.map_append, List.map_cons] at hkeys
  obtain ⟨-, hafter, hdisjoint⟩ := List.nodup_append.mp hkeys
  have hbefore : ∀ e ∈ before, (e.1 != k) = true := fun e he =>
    bne_iff_ne.mpr (hdisjoint _ (List.mem_map_of_mem he) k List.mem_cons_self)
  have hafter : ∀ e ∈ after, (e.1 != k) = true := by
    intro e he
    refine bne_iff_ne.mpr (fun heq => (List.nodup_cons.mp hafter).1 ?_)
    exact heq ▸ List.mem_map_of_mem he
  rw [List.filter_append, List.filter_cons_of_neg (by simp), List.filter_eq_self.mpr hbefore,
    List.filter_eq_self.mpr hafter]
  exact List.perm_middle

/-- Writing back what is there changes nothing. -/
theorem insert_of_find? (m : SortedMap κ ν) {k : κ} {v : ν} (h : m.find? k = some v) :
    m.insert k v = m := by
  refine eq_of_mem_iff (fun entry => ?_)
  rw [(m.insert_perm k v).mem_iff, (m.erase_perm h).mem_iff]

/-- Erasing an absent key changes nothing. -/
theorem erase_of_find?_none (m : SortedMap κ ν) {k : κ} (h : m.find? k = none) :
    (m.erase k).entries = m.entries :=
  List.filter_eq_self.mpr (fun e he => bne_iff_ne.mpr (m.find?_eq_none_iff.mp h e he))

/-- Erasing a key that is there takes one entry out. -/
theorem length_erase (m : SortedMap κ ν) {k : κ} {v : ν} (h : m.find? k = some v) :
    (m.erase k).entries.length + 1 = m.entries.length := by
  rw [(m.erase_perm h).length_eq, List.length_cons]

theorem length_insert_of_find? (m : SortedMap κ ν) {k : κ} {v : ν} (v' : ν)
    (h : m.find? k = some v) : (m.insert k v').entries.length = m.entries.length := by
  rw [(m.insert_perm k v').length_eq, List.length_cons, m.length_erase h]

theorem length_insert_of_none (m : SortedMap κ ν) {k : κ} (v : ν) (h : m.find? k = none) :
    (m.insert k v).entries.length = m.entries.length + 1 := by
  rw [(m.insert_perm k v).length_eq, List.length_cons, m.erase_of_find?_none h]

theorem length_insert_le (m : SortedMap κ ν) (k : κ) (v : ν) :
    (m.insert k v).entries.length ≤ m.entries.length + 1 := by
  cases h : m.find? k with
  | none => exact Nat.le_of_eq (m.length_insert_of_none v h)
  | some v' =>
    rw [m.length_insert_of_find? v h]
    exact Nat.le_succ _

/-- A map is known by its lookups. -/
theorem eq_of_find? {m m' : SortedMap κ ν} (h : ∀ k, m.find? k = m'.find? k) : m = m' := by
  refine eq_of_mem_iff (fun ⟨k, v⟩ => ?_)
  rw [← m.find?_eq_some_iff, ← m'.find?_eq_some_iff, h k]

/-- A filter commutes with the insertion of an entry it accepts. -/
theorem filter_insert (m : SortedMap κ ν) (p : κ → ν → Bool) {k : κ} {v : ν} (h : p k v = true) :
    (m.insert k v).filter p = (m.filter p).insert k v := by
  refine eq_of_find? (fun k' => ?_)
  rw [find?_filter, find?_insert, find?_insert, find?_filter]
  by_cases heq : k = k'
  · subst heq
    rw [if_pos rfl, if_pos rfl, Option.filter_some, if_pos h]
  · rw [if_neg heq, if_neg heq]

theorem length_filter_lt (m : SortedMap κ ν) (p : κ → ν → Bool) {k : κ} {v : ν}
    (h : m.find? k = some v) (hp : p k v = false) :
    (m.filter p).entries.length < m.entries.length := by
  refine List.length_filter_lt_length_iff_exists.mpr ⟨(k, v), m.find?_eq_some_iff.mp h, ?_⟩
  rw [hp]
  exact Bool.false_ne_true

end SortedMap
