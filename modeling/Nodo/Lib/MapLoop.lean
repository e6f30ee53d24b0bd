import Mathlib.Algebra.GroupWithZero.Nat
import Nodo.Lib.SortedMap
import Nodo.Lib.ThrowingState

/-!
# Loops over a map that rewrite its values

`for (auto &[key, value] : map)` with a body that writes to `value`, keeps variables of
its own and may throw. The keys stay; what the body wrote before it threw stays written.

## Results

* `left_visitEntries_cons` — the state a loop leaves, one entry at a time.
* `visitEntries_related`, `visit_related` — what the body does to one value, the loop does to
  each.
-/

namespace SortedMap

open ThrowingState

variable {κ ν ε α : Type}

/-- One more entry in front of the entries of a result. -/
def prependEntry (entry : κ × ν) :
    EStateM.Result ε (List (κ × ν) × α) Unit → EStateM.Result ε (List (κ × ν) × α) Unit
  | .ok u (rest, a) => .ok u (entry :: rest, a)
  | .error e (rest, a) => .error e (entry :: rest, a)

/-- The loop over a list of entries; `a` holds the variables of the loop. -/
def visitEntries (body : κ → EStateM ε (ν × α) Unit) :
    List (κ × ν) → α → EStateM.Result ε (List (κ × ν) × α) Unit
  | [], a => .ok () ([], a)
  | (k, v) :: rest, a =>
    match body k (v, a) with
    | .ok _ (v', a') => prependEntry (k, v') (visitEntries body rest a')
    | .error e (v', a') => .error e ((k, v') :: rest, a')

@[simp] theorem left_prependEntry (entry : κ × ν)
    (r : EStateM.Result ε (List (κ × ν) × α) Unit) :
    left (prependEntry entry r) = (entry :: (left r).1, (left r).2) := by
  cases r <;> rfl

variable {body : κ → EStateM ε (ν × α) Unit}

/-- A loop that ran to its end, cut after its first entry. -/
theorem ok_of_visitEntries_cons {k : κ} {v : ν} {rest entries' : List (κ × ν)} {a a' : α} {u : Unit}
    (h : visitEntries body ((k, v) :: rest) a = .ok u (entries', a')) :
    ∃ v' next rest', body k (v, a) = .ok () (v', next) ∧
      visitEntries body rest next = .ok () (rest', a') ∧ entries' = (k, v') :: rest' := by
  rw [visitEntries] at h
  cases hbody : body k (v, a) with
  | error e s =>
    rw [hbody] at h
    cases h
  | ok w s =>
    rw [hbody] at h
    cases hrest : visitEntries body rest s.2 with
    | error e t =>
      simp only [hrest] at h
      cases h
    | ok w' t =>
      simp only [hrest] at h
      cases h
      exact ⟨s.1, s.2, t.1, rfl, hrest, rfl⟩

/-- What the loop leaves: the first value as its body leaves it, and the rest as the loop
leaves it, or as it was if the body threw. -/
theorem left_visitEntries_cons (k : κ) (v : ν) (rest : List (κ × ν)) (a : α) :
    (left (visitEntries body ((k, v) :: rest) a)).1
      = (k, (left (body k (v, a))).1) ::
        (match body k (v, a) with
          | .ok _ (_, a') => (left (visitEntries body rest a')).1
          | .error _ _ => rest) := by
  rw [visitEntries]
  cases body k (v, a) with
  | ok u s =>
    show (left (prependEntry (k, s.1) (visitEntries body rest s.2))).1 = _
    rw [left_prependEntry]
    rfl
  | error e s => rfl

/-- What the body does to each value at hand, the loop does to all. -/
theorem visitEntries_related {R : κ → ν → ν → Prop} (hrefl : ∀ k v, R k v v)
    {entries : List (κ × ν)}
    (hbody : ∀ entry ∈ entries, ∀ a, R entry.1 entry.2 (left (body entry.1 (entry.2, a))).1)
    (a : α) :
    List.Forall₂ (fun entry entry' => entry'.1 = entry.1 ∧ R entry.1 entry.2 entry'.2) entries
      (left (visitEntries body entries a)).1 := by
  induction entries generalizing a with
  | nil => exact List.Forall₂.nil
  | cons entry rest ih =>
    obtain ⟨k, v⟩ := entry
    rw [left_visitEntries_cons]
    refine List.Forall₂.cons ⟨rfl, hbody (k, v) List.mem_cons_self a⟩ ?_
    cases body k (v, a) with
    | ok u s => exact ih (fun entry hmem => hbody entry (List.mem_cons_of_mem _ hmem)) s.2
    | error e s =>
      exact List.forall₂_same.mpr (fun entry _ => ⟨rfl, hrefl entry.1 entry.2⟩)

/-- What the body keeps of the variables, the loop keeps. -/
theorem visitEntries_variables {Q : α → α → Prop} (hrefl : ∀ a, Q a a)
    (htrans : ∀ {a b c}, Q a b → Q b c → Q a c)
    (hbody : ∀ k v a, Q a (left (body k (v, a))).2) (entries : List (κ × ν)) (a : α) :
    Q a (left (visitEntries body entries a)).2 := by
  induction entries generalizing a with
  | nil => exact hrefl a
  | cons entry rest ih =>
    obtain ⟨k, v⟩ := entry
    have hfirst := hbody k v a
    rw [visitEntries]
    cases hrun : body k (v, a) with
    | ok u s =>
      rw [hrun] at hfirst
      show Q a (left (prependEntry (k, s.1) (visitEntries body rest s.2))).2
      rw [left_prependEntry]
      exact htrans hfirst (ih s.2)
    | error e s =>
      rw [hrun] at hfirst
      exact hfirst

theorem keys_visitEntries (entries : List (κ × ν)) (a : α) :
    (left (visitEntries body entries a)).1.map (·.1) = entries.map (·.1) := by
  have hrelated := @visitEntries_related κ ν ε α body (fun _ _ _ => True) (fun _ _ => trivial)
    entries (fun _ _ _ => trivial) a
  generalize (left (visitEntries body entries a)).1 = entries' at hrelated ⊢
  induction hrelated with
  | nil => rfl
  | cons hentry _ ih => rw [List.map_cons, List.map_cons, hentry.1, ih]

variable [LinearOrder κ]

/-- Entries with the keys of a map are a map. -/
def withEntries (m : SortedMap κ ν) (entries : List (κ × ν))
    (h : entries.map (·.1) = m.entries.map (·.1)) : SortedMap κ ν :=
  ⟨entries, by
    have hsorted : (m.entries.map (·.1)).Pairwise (· < ·) := List.pairwise_map.mpr m.sorted
    rw [← h] at hsorted
    exact List.pairwise_map.mp hsorted⟩

/-- The loop over a map. -/
def visit (m : SortedMap κ ν) (body : κ → EStateM ε (ν × α) Unit) (a : α) :
    EStateM.Result ε (SortedMap κ ν × α) Unit :=
  withState (m.withEntries (left (visitEntries body m.entries a)).1
      (keys_visitEntries m.entries a), (left (visitEntries body m.entries a)).2)
    (visitEntries body m.entries a)

theorem entries_visit (m : SortedMap κ ν) (body : κ → EStateM ε (ν × α) Unit) (a : α) :
    (left (m.visit body a)).1.entries = (left (visitEntries body m.entries a)).1 := by
  rw [visit, left_withState]
  rfl

/-- A loop over a map that ran to its end is the loop over its entries. -/
theorem visit_eq_ok {m m' : SortedMap κ ν} {body : κ → EStateM ε (ν × α) Unit} {a a' : α}
    {u : Unit} :
    m.visit body a = .ok u (m', a') ↔ visitEntries body m.entries a = .ok u (m'.entries, a') := by
  unfold visit
  rw [withState_eq_ok]
  constructor
  · rintro ⟨hstate, s, hrun⟩
    obtain ⟨rfl, rfl⟩ := Prod.mk.inj hstate
    simp only [withEntries, hrun]
    rfl
  · intro hrun
    refine ⟨?_, _, hrun⟩
    refine Prod.ext ?_ ?_
    · obtain ⟨entries, hsorted⟩ := m'
      simp only [withEntries, SortedMap.mk.injEq]
      rw [hrun]
      rfl
    · show a' = (left (visitEntries body m.entries a)).2
      rw [hrun]
      rfl

theorem visit_ok {m : SortedMap κ ν} {body : κ → EStateM ε (ν × α) Unit} {a : α} {u : Unit}
    {s : List (κ × ν) × α} (h : visitEntries body m.entries a = .ok u s) :
    ∃ m' a', m.visit body a = .ok u (m', a') :=
  ⟨_, _, withState_eq_ok.mpr ⟨rfl, s, h⟩⟩

/-- Two maps with the same keys, in relation value by value. -/
def Related (R : κ → ν → ν → Prop) (m m' : SortedMap κ ν) : Prop :=
  List.Forall₂ (fun entry entry' => entry'.1 = entry.1 ∧ R entry.1 entry.2 entry'.2) m.entries
    m'.entries

theorem visit_related {R : κ → ν → ν → Prop} (hrefl : ∀ k v, R k v v) {m : SortedMap κ ν}
    {body : κ → EStateM ε (ν × α) Unit}
    (hbody : ∀ {k v}, m.find? k = some v → ∀ a, R k v (left (body k (v, a))).1) (a : α) :
    Related R m (left (m.visit body a)).1 := by
  unfold Related
  rw [entries_visit]
  exact visitEntries_related hrefl
    (fun entry hmem a => hbody (m.find?_eq_some_iff.mpr hmem) a) a

theorem variables_visit (m : SortedMap κ ν) (body : κ → EStateM ε (ν × α) Unit) (a : α) :
    (left (m.visit body a)).2 = (left (visitEntries body m.entries a)).2 := by
  rw [visit, left_withState]

variable {R : κ → ν → ν → Prop} {m m' : SortedMap κ ν}

/-- A value of the second map comes from one of the first. -/
theorem Related.source (h : Related R m m') {k : κ} {v' : ν} (hfind : m'.find? k = some v') :
    ∃ v, m.find? k = some v ∧ R k v v' := by
  have hmem := m'.find?_eq_some_iff.mp hfind
  simp only [m.find?_eq_some_iff]
  unfold Related at h
  generalize m.entries = entries, m'.entries = entries' at h hmem
  induction h with
  | nil => cases hmem
  | @cons entry entry' _ _ hentry _ ih =>
    rcases List.mem_cons.mp hmem with rfl | hmem
    · obtain ⟨hkey, hvalue⟩ := hentry
      simp only at hkey hvalue
      subst hkey
      exact ⟨entry.2, List.mem_cons_self, hvalue⟩
    · obtain ⟨v, hv, hR⟩ := ih hmem
      exact ⟨v, List.mem_cons_of_mem _ hv, hR⟩

/-- A value of the first map goes to one of the second. -/
theorem Related.target (h : Related R m m') {k : κ} {v : ν} (hfind : m.find? k = some v) :
    ∃ v', m'.find? k = some v' ∧ R k v v' := by
  have hmem := m.find?_eq_some_iff.mp hfind
  simp only [m'.find?_eq_some_iff]
  unfold Related at h
  generalize m.entries = entries, m'.entries = entries' at h hmem
  induction h with
  | nil => cases hmem
  | @cons entry entry' _ _ hentry _ ih =>
    rcases List.mem_cons.mp hmem with rfl | hmem
    · obtain ⟨hkey, hvalue⟩ := hentry
      simp only at hkey hvalue
      subst hkey
      exact ⟨entry'.2, List.mem_cons_self, hvalue⟩
    · obtain ⟨v', hv', hR⟩ := ih hmem
      exact ⟨v', List.mem_cons_of_mem _ hv', hR⟩

/-- Two relations one after the other. -/
theorem Related.comp {S T : κ → ν → ν → Prop} {m'' : SortedMap κ ν} (h : Related R m m')
    (h' : Related S m' m'') (hcomp : ∀ {k v v' v''}, R k v v' → S k v' v'' → T k v v'') :
    Related T m m'' := by
  unfold Related at h h' ⊢
  generalize m.entries = entries, m'.entries = entries', m''.entries = entries'' at h h'
  induction h generalizing entries'' with
  | nil =>
    cases h'
    exact List.Forall₂.nil
  | cons hentry _ ih =>
    cases h' with
    | cons hentry' hrest =>
      obtain ⟨hkey, hR⟩ := hentry
      obtain ⟨hkey', hS⟩ := hentry'
      rw [hkey] at hS
      exact List.Forall₂.cons ⟨hkey'.trans hkey, hcomp hR hS⟩ (ih _ hrest)

/-- A sum over the values that the relation keeps. -/
theorem Related.sum_eq {units : ν → Nat} (h : Related R m m')
    (hunits : ∀ k v v', R k v v' → units v' = units v) :
    (m'.entries.map fun entry => units entry.2).sum
      = (m.entries.map fun entry => units entry.2).sum := by
  unfold Related at h
  generalize m.entries = entries, m'.entries = entries' at h
  induction h with
  | nil => rfl
  | cons hentry _ ih =>
    simp only [List.map_cons, List.sum_cons]
    rw [hunits _ _ _ hentry.2, ih]

end SortedMap
