import Nodo.Lib.SortedMap

/-!
# Floor lookups in ordered maps

`std::prev(map.upper_bound(k))`: the value at the largest key that is not above `k`. A map
that stores a value only where it changes answers every key in between this way.

## Results

* `floor?_eq_some_iff` — which entry answers.
* `floor?_insert_last`, `floor?_window` — how the answers change when an entry is added after all
  others, and that they stay when the entries before a key are cut off.
-/

namespace SortedMap

variable {κ ν : Type} [LinearOrder κ]

/-- `std::prev(map.upper_bound(k))->second`; `none` where no key is at or below `k`. -/
def floor? (m : SortedMap κ ν) (k : κ) : Option ν :=
  ((m.entries.takeWhile fun entry => entry.1 ≤ k).getLast?).map (·.2)

/-- `map.rbegin()->second`. -/
def last? (m : SortedMap κ ν) : Option ν := m.entries.getLast?.map (·.2)

variable {m : SortedMap κ ν} {k k' : κ} {v : ν}

/-- In an ordered list the entries up to a key come first. -/
theorem takeWhile_eq_filter {entries : List (κ × ν)}
    (h : entries.Pairwise fun a b => a.1 < b.1) (k : κ) :
    (entries.takeWhile fun entry => entry.1 ≤ k) = entries.filter fun entry => entry.1 ≤ k := by
  induction entries with
  | nil => rfl
  | cons entry rest ih =>
    obtain ⟨hfirst, hrest⟩ := List.pairwise_cons.mp h
    by_cases hle : entry.1 ≤ k
    · rw [List.takeWhile_cons_of_pos (by simpa using hle),
        List.filter_cons_of_pos (by simpa using hle), ih hrest]
    · rw [List.takeWhile_cons_of_neg (by simpa using hle),
        List.filter_cons_of_neg (by simpa using hle), eq_comm, List.filter_eq_nil_iff]
      intro other hmem hother
      have hlt := hfirst other hmem
      exact hle (le_of_lt (lt_of_lt_of_le hlt (of_decide_eq_true hother)))

/-- The last entry of an ordered list has the largest key. -/
theorem getLast?_eq_some_iff {entries : List (κ × ν)}
    (h : entries.Pairwise fun a b => a.1 < b.1) {entry : κ × ν} :
    entries.getLast? = some entry ↔ entry ∈ entries ∧ ∀ other ∈ entries, other.1 ≤ entry.1 := by
  induction entries with
  | nil => simp
  | cons first rest ih =>
    obtain ⟨hfirst, hrest⟩ := List.pairwise_cons.mp h
    cases rest with
    | nil =>
      constructor
      · intro hlast
        obtain rfl : first = entry := Option.some.inj hlast
        exact ⟨List.mem_singleton_self _, fun other hmem => by rw [List.mem_singleton.mp hmem]⟩
      · rintro ⟨hmem, -⟩
        rw [List.mem_singleton.mp hmem]
        rfl
    | cons second rest =>
      rw [List.getLast?_cons_cons, ih hrest]
      constructor
      · rintro ⟨hmem, hmax⟩
        refine ⟨List.mem_cons_of_mem _ hmem, fun other hother => ?_⟩
        rcases List.mem_cons.mp hother with rfl | hother
        · exact le_of_lt (hfirst entry hmem)
        · exact hmax other hother
      · rintro ⟨hmem, hmax⟩
        have hsecond := hmax second (List.mem_cons_of_mem _ List.mem_cons_self)
        rcases List.mem_cons.mp hmem with rfl | hmem
        · exact absurd (hfirst second List.mem_cons_self) (not_lt.mpr hsecond)
        · exact ⟨hmem, fun other hother => hmax other (List.mem_cons_of_mem _ hother)⟩

/-- **Which entry answers**: the one with the largest key at or below `k`. -/
theorem floor?_eq_some_iff :
    m.floor? k = some v ↔ ∃ key, m.find? key = some v ∧ key ≤ k ∧
      ∀ {other value}, m.find? other = some value → other ≤ k → other ≤ key := by
  unfold floor?
  rw [takeWhile_eq_filter m.sorted, Option.map_eq_some_iff]
  simp only [m.find?_eq_some_iff]
  constructor
  · rintro ⟨entry, hlast, rfl⟩
    obtain ⟨hmem, hmax⟩ := (getLast?_eq_some_iff (m.sorted.filter _)).mp hlast
    obtain ⟨hmem, hle⟩ := List.mem_filter.mp hmem
    refine ⟨entry.1, hmem, of_decide_eq_true hle, fun hother hotherLe => ?_⟩
    exact hmax _ (List.mem_filter.mpr ⟨hother, decide_eq_true hotherLe⟩)
  · rintro ⟨key, hmem, hle, hmax⟩
    refine ⟨(key, v), (getLast?_eq_some_iff (m.sorted.filter _)).mpr ⟨?_, ?_⟩, rfl⟩
    · exact List.mem_filter.mpr ⟨hmem, decide_eq_true hle⟩
    · intro other hother
      obtain ⟨hother, hotherLe⟩ := List.mem_filter.mp hother
      exact hmax hother (of_decide_eq_true hotherLe)

theorem last?_eq_some_iff :
    m.last? = some v ↔ ∃ key, m.find? key = some v ∧
      ∀ {other value}, m.find? other = some value → other ≤ key := by
  unfold last?
  rw [Option.map_eq_some_iff]
  simp only [m.find?_eq_some_iff]
  constructor
  · rintro ⟨entry, hlast, rfl⟩
    obtain ⟨hmem, hmax⟩ := (getLast?_eq_some_iff m.sorted).mp hlast
    exact ⟨entry.1, hmem, fun hother => hmax _ hother⟩
  · rintro ⟨key, hmem, hmax⟩
    exact ⟨(key, v), (getLast?_eq_some_iff m.sorted).mpr ⟨hmem, fun other hother => hmax hother⟩,
      rfl⟩

/-- A lookup at or above all keys answers with the last value. -/
theorem floor?_eq_last? (h : ∀ {other value}, m.find? other = some value → other ≤ k) :
    m.floor? k = m.last? := by
  refine Option.ext (fun value => ?_)
  rw [floor?_eq_some_iff, last?_eq_some_iff]
  constructor
  · rintro ⟨key, hfind, -, hmax⟩
    exact ⟨key, hfind, fun hother => hmax hother (h hother)⟩
  · rintro ⟨key, hfind, hmax⟩
    exact ⟨key, hfind, h hfind, fun hother _ => hmax hother⟩

/-- The entries with one after all others. -/
theorem entries_insert_last (h : ∀ {other value}, m.find? other = some value → other < k) (v : ν) :
    (m.insert k v).entries = m.entries ++ [(k, v)] := by
  have hkeys : ∀ entry ∈ m.entries, entry.1 < k := fun entry hmem =>
    h (m.find?_eq_some_iff.mpr hmem)
  show insertEntry k v m.entries = m.entries ++ [(k, v)]
  generalize m.entries = entries at hkeys
  induction entries with
  | nil => rfl
  | cons entry rest ih =>
    have hlt := hkeys entry List.mem_cons_self
    rw [insertEntry, if_neg (not_lt.mpr (le_of_lt hlt)), if_neg (ne_of_gt hlt),
      ih (fun other hmem => hkeys other (List.mem_cons_of_mem _ hmem))]
    rfl

/-- **An entry after all others** answers from its key on and changes no earlier answer. -/
theorem floor?_insert_last (h : ∀ {other value}, m.find? other = some value → other < k') (v : ν) :
    (m.insert k' v).floor? k = if k' ≤ k then some v else m.floor? k := by
  split_ifs with hle
  · rw [floor?_eq_some_iff]
    refine ⟨k', find?_insert_self _ _ _, hle, fun {other value} hother _ => ?_⟩
    rw [find?_insert] at hother
    split_ifs at hother with heq
    · exact le_of_eq heq.symm
    · exact le_of_lt (h hother)
  · have hsame : ∀ {other value}, other ≤ k →
        ((m.insert k' v).find? other = some value ↔ m.find? other = some value) := by
      intro other value hother
      rw [find?_insert_of_ne]
      rintro rfl
      exact hle hother
    refine Option.ext (fun value => ?_)
    simp only [floor?_eq_some_iff]
    constructor
    · rintro ⟨key, hfind, hkey, hmax⟩
      exact ⟨key, (hsame hkey).mp hfind, hkey, fun hother hotherLe =>
        hmax ((hsame hotherLe).mpr hother) hotherLe⟩
    · rintro ⟨key, hfind, hkey, hmax⟩
      exact ⟨key, (hsame hkey).mpr hfind, hkey, fun hother hotherLe =>
        hmax ((hsame hotherLe).mp hother) hotherLe⟩

/-- **Cutting off what lies before a key**, with the answer at that key in its place. -/
theorem floor?_window (hfrom : m.floor? k' = some v) (hle : k' ≤ k) :
    ((m.filter fun key _ => k' < key).insert k' v).floor? k = m.floor? k := by
  obtain ⟨start, hstart, hstartLe, hstartMax⟩ := floor?_eq_some_iff.mp hfrom
  have hfind : ∀ {key value}, ((m.filter fun key _ => k' < key).insert k' v).find? key = some value ↔
      key = k' ∧ value = v ∨ k' < key ∧ m.find? key = some value := by
    intro key value
    rw [find?_insert]
    split_ifs with heq
    · subst heq
      simp [eq_comm]
    · rw [find?_filter_eq_some]
      simp only [decide_eq_true_eq]
      constructor
      · rintro ⟨hvalue, hlt⟩
        exact Or.inr ⟨hlt, hvalue⟩
      · rintro (⟨rfl, -⟩ | ⟨hlt, hvalue⟩)
        · exact absurd rfl heq
        · exact ⟨hvalue, hlt⟩
  refine Option.ext (fun value => ?_)
  rw [floor?_eq_some_iff, floor?_eq_some_iff]
  constructor
  · rintro ⟨key, hkey, hkeyLe, hmax⟩
    rcases hfind.mp hkey with ⟨rfl, rfl⟩ | ⟨hlt, hvalue⟩
    · -- no entry between the cut and `k`: the answer at the cut stands
      refine ⟨start, hstart, hstartLe.trans hle, fun {other otherValue} hother hotherLe => ?_⟩
      by_cases hcut : other ≤ key
      · exact hstartMax hother hcut
      · have hlt := not_le.mp hcut
        exact absurd (hmax (hfind.mpr (Or.inr ⟨hlt, hother⟩)) hotherLe) hcut
    · refine ⟨key, hvalue, hkeyLe, fun {other otherValue} hother hotherLe => ?_⟩
      by_cases hcut : other ≤ k'
      · exact hcut.trans (le_of_lt hlt)
      · exact hmax (hfind.mpr (Or.inr ⟨not_le.mp hcut, hother⟩)) hotherLe
  · rintro ⟨key, hkey, hkeyLe, hmax⟩
    by_cases hcut : key ≤ k'
    · -- the answer comes from before the cut, so it is the answer at the cut
      have hsame : key = start := le_antisymm (hstartMax hkey hcut) (hmax hstart (hstartLe.trans hle))
      subst hsame
      rw [hkey] at hstart
      refine ⟨k', hfind.mpr (Or.inl ⟨rfl, Option.some.inj hstart⟩), hle, ?_⟩
      intro other otherValue hother hotherLe
      rcases hfind.mp hother with ⟨rfl, -⟩ | ⟨hlt, hvalue⟩
      · exact le_refl _
      · exact absurd ((hmax hvalue hotherLe).trans hcut) (not_le.mpr hlt)
    · refine ⟨key, hfind.mpr (Or.inr ⟨not_le.mp hcut, hkey⟩), hkeyLe, ?_⟩
      intro other otherValue hother hotherLe
      rcases hfind.mp hother with ⟨rfl, -⟩ | ⟨hlt, hvalue⟩
      · exact le_of_lt (not_le.mp hcut)
      · exact hmax hvalue hotherLe

/-- The first key is the least. -/
theorem head?_keys (hfind : m.find? k = some v)
    (hleast : ∀ {other value}, m.find? other = some value → k ≤ other) :
    m.keys.head? = some k := by
  have hmem := m.find?_eq_some_iff.mp hfind
  obtain ⟨l, hl⟩ := m
  cases l with
  | nil => cases hmem
  | cons e rest =>
    have hfirst : k ≤ e.1 :=
      hleast ((find?_eq_some_iff ⟨e :: rest, hl⟩).mpr (List.mem_cons_self (a := e)))
    rcases List.mem_cons.mp hmem with heq | hrest
    · exact congrArg (fun e => some e.1) heq.symm
    · have hlt := (List.pairwise_cons.mp hl).1 _ hrest
      exact absurd hfirst (not_le.mpr hlt)

end SortedMap
