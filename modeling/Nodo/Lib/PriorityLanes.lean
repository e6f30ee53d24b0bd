import Mathlib.Data.List.Induction
import Mathlib.Data.List.Perm.Basic

/-!
# A bounded queue with an urgent lane

Urgent elements wait before the others, in the order of their arrival, and the others
behind them in theirs. The queue has a maximal size. Where it is full, an urgent element
takes the place of the newest of the others and every other arrival is refused.

A history lists the arrivals, each with the element that made room for it, and the
departures. Both lanes are what a history leaves.

## Results

* `History.urgent_eq` — urgent arrivals leave in their order or still wait.
* `History.other_perm` — the others leave, still wait or made room.
* `History.before_other` — nothing else leaves while an urgent element waits.
* `History.displaced` — only an urgent arrival at a full queue displaces, and the newest.
* `insert_urgent`, `erase_newest` — the two lanes as one list.
-/

namespace PriorityLanes

variable {E : Type*}

/-- The lanes, the element that waits longest first. -/
structure Lanes (E : Type*) where
  urgent : List E
  other : List E

def Lanes.size (lanes : Lanes E) : ℕ := lanes.urgent.length + lanes.other.length

inductive Event (E : Type*)
  | arrived (e : E) (displaced : Option E)
  | left (e : E)

/-- The arrivals of a list of events that were not refused. -/
def arrivals : List (Event E) → List E :=
  List.filterMap fun
    | .arrived e _ => some e
    | .left _ => none

def departures : List (Event E) → List E :=
  List.filterMap fun
    | .arrived _ _ => none
    | .left e => some e

/-- The elements that made room. -/
def displacements : List (Event E) → List E :=
  List.filterMap fun
    | .arrived _ displaced => displaced
    | .left _ => none

/-- The lanes after a list of events, from empty lanes. -/
inductive History (isUrgent : E → Bool) (max : ℕ) : List (Event E) → Lanes E → Prop
  | start : History isUrgent max [] ⟨[], []⟩
  | urgent {events : List (Event E)} {lanes : Lanes E} (h : History isUrgent max events lanes)
      (e : E) (he : isUrgent e = true) (hroom : lanes.size < max) :
      History isUrgent max (events ++ [.arrived e none]) ⟨lanes.urgent ++ [e], lanes.other⟩
  | displacing {events : List (Event E)} {urgent kept : List E} {newest : E}
      (h : History isUrgent max events ⟨urgent, kept ++ [newest]⟩) (e : E)
      (he : isUrgent e = true) (hfull : max ≤ (Lanes.mk urgent (kept ++ [newest])).size) :
      History isUrgent max (events ++ [.arrived e (some newest)]) ⟨urgent ++ [e], kept⟩
  | other {events : List (Event E)} {lanes : Lanes E} (h : History isUrgent max events lanes)
      (e : E) (he : isUrgent e = false) (hroom : lanes.size < max) :
      History isUrgent max (events ++ [.arrived e none]) ⟨lanes.urgent, lanes.other ++ [e]⟩
  | leftUrgent {events : List (Event E)} {e : E} {urgent other : List E}
      (h : History isUrgent max events ⟨e :: urgent, other⟩) :
      History isUrgent max (events ++ [.left e]) ⟨urgent, other⟩
  | leftOther {events : List (Event E)} {e : E} {other : List E}
      (h : History isUrgent max events ⟨[], e :: other⟩) :
      History isUrgent max (events ++ [.left e]) ⟨[], other⟩

variable {isUrgent : E → Bool} {max : ℕ} {events before after : List (Event E)} {lanes : Lanes E}

--
-- The lists of a history
--

@[simp] theorem arrivals_append : arrivals (before ++ after) = arrivals before ++ arrivals after :=
  List.filterMap_append

@[simp] theorem departures_append :
    departures (before ++ after) = departures before ++ departures after :=
  List.filterMap_append

@[simp] theorem displacements_append :
    displacements (before ++ after) = displacements before ++ displacements after :=
  List.filterMap_append

@[simp] theorem arrivals_arrived (e : E) (displaced : Option E) :
    arrivals [.arrived e displaced] = [e] := rfl

@[simp] theorem arrivals_left (e : E) : arrivals [.left e] = [] := rfl

@[simp] theorem departures_arrived (e : E) (displaced : Option E) :
    departures [.arrived e displaced] = [] := rfl

@[simp] theorem departures_left (e : E) : departures [.left e] = [e] := rfl

@[simp] theorem displacements_none (e : E) : displacements [.arrived e none] = [] := rfl

@[simp] theorem displacements_some (e newest : E) :
    displacements [.arrived e (some newest)] = [newest] := rfl

@[simp] theorem displacements_left (e : E) : displacements [.left e] = [] := rfl

--
-- What a history keeps
--

namespace History

theorem all_urgent (h : History isUrgent max events lanes) :
    ∀ e ∈ lanes.urgent, isUrgent e = true := by
  induction h with
  | start => exact fun e he => absurd he List.not_mem_nil
  | urgent _ e he _ ih | displacing _ e he _ ih =>
    intro e' he'
    rcases List.mem_append.mp he' with hold | hnew
    · exact ih e' hold
    · exact List.mem_singleton.mp hnew ▸ he
  | other _ _ _ _ ih => exact ih
  | leftUrgent _ ih => exact fun e he => ih e (List.mem_cons_of_mem _ he)
  | leftOther _ ih => exact ih

theorem all_other (h : History isUrgent max events lanes) :
    ∀ e ∈ lanes.other, isUrgent e = false := by
  induction h with
  | start => exact fun e he => absurd he List.not_mem_nil
  | urgent _ _ _ _ ih => exact ih
  | displacing _ _ _ _ ih => exact fun e he => ih e (List.mem_append_left _ he)
  | other _ e he _ ih =>
    intro e' he'
    rcases List.mem_append.mp he' with hold | hnew
    · exact ih e' hold
    · exact List.mem_singleton.mp hnew ▸ he
  | leftUrgent _ ih => exact ih
  | leftOther _ ih => exact fun e he => ih e (List.mem_cons_of_mem _ he)

theorem size_le (h : History isUrgent max events lanes) : lanes.size ≤ max := by
  induction h with
  | start => exact Nat.zero_le _
  | urgent _ _ _ hroom _ | other _ _ _ hroom _ =>
    simp only [Lanes.size, List.length_append, List.length_singleton] at hroom ⊢
    omega
  | displacing _ _ _ _ ih | leftUrgent _ ih | leftOther _ ih =>
    simp only [Lanes.size, List.length_append, List.length_cons] at ih ⊢
    omega

/-- **Urgent elements are neither lost nor reordered.** -/
theorem urgent_eq (h : History isUrgent max events lanes) :
    (arrivals events).filter isUrgent = (departures events).filter isUrgent ++ lanes.urgent := by
  induction h with
  | start => rfl
  | urgent _ e he _ ih | displacing _ e he _ ih =>
    simp only [arrivals_append, departures_append, arrivals_arrived, departures_arrived,
      List.filter_append, List.append_nil, ih, List.filter_cons_of_pos he, List.filter_nil,
      List.append_assoc]
  | other _ e he _ ih =>
    simp only [arrivals_append, departures_append, arrivals_arrived, departures_arrived,
      List.filter_append, List.append_nil, ih,
      List.filter_cons_of_neg (Bool.not_eq_true _ ▸ he), List.filter_nil]
  | @leftUrgent _ e _ _ h ih =>
    have he : isUrgent e = true := h.all_urgent e List.mem_cons_self
    simp only [arrivals_append, departures_append, arrivals_left, departures_left,
      List.filter_append, List.append_nil, ih, List.filter_cons_of_pos he, List.filter_nil,
      List.append_assoc, List.singleton_append]
  | @leftOther _ e _ h ih =>
    have he : isUrgent e = false := h.all_other e List.mem_cons_self
    simp only [arrivals_append, departures_append, arrivals_left, departures_left,
      List.filter_append, List.append_nil, ih,
      List.filter_cons_of_neg (Bool.not_eq_true _ ▸ he), List.filter_nil]

/-- **What becomes of the others**: they leave, make room or still wait. -/
theorem other_perm (h : History isUrgent max events lanes) :
    ((arrivals events).filter (! isUrgent ·)).Perm
      ((departures events).filter (! isUrgent ·) ++ (displacements events ++ lanes.other)) := by
  induction h with
  | start => exact List.Perm.refl _
  | urgent _ e he _ ih =>
    simpa [he] using ih
  | @displacing events urgent kept newest _ e he _ ih =>
    simp only [arrivals_append, departures_append, displacements_append, arrivals_arrived,
      departures_arrived, displacements_some, List.filter_append, List.append_nil]
    rw [List.filter_cons_of_neg (by simp [he]), List.filter_nil, List.append_nil]
    refine ih.trans (List.Perm.append_left _ ?_)
    rw [List.append_assoc]
    exact List.Perm.append_left _ List.perm_append_comm
  | other _ e he _ ih =>
    simp only [arrivals_append, departures_append, displacements_append, arrivals_arrived,
      departures_arrived, displacements_none, List.filter_append, List.append_nil]
    rw [List.filter_cons_of_pos (by simp [he]), List.filter_nil, ← List.append_assoc,
      ← List.append_assoc, List.append_assoc _ (displacements _)]
    exact ih.append_right [e]
  | @leftUrgent _ e _ _ h ih =>
    have he : isUrgent e = true := h.all_urgent e List.mem_cons_self
    simpa [he] using ih
  | @leftOther _ e other h ih =>
    have he : isUrgent e = false := h.all_other e List.mem_cons_self
    simp only [arrivals_append, departures_append, displacements_append, arrivals_left,
      departures_left, displacements_left, List.filter_append, List.append_nil]
    rw [List.filter_cons_of_pos (by simp [he]), List.filter_nil, List.append_assoc]
    exact ih.trans (List.Perm.append_left _ List.perm_middle)

--
-- Moments of a history
--

/-- A history had lanes at every moment. -/
theorem exists_before (h : History isUrgent max (before ++ after) lanes) :
    ∃ lanes', History isUrgent max before lanes' := by
  induction after using List.reverseRecOn generalizing lanes with
  | nil => exact ⟨lanes, by simpa using h⟩
  | append_singleton after event ih =>
    rw [← List.append_assoc] at h
    generalize hevents : before ++ after ++ [event] = events at h
    cases h with
    | start => simp at hevents
    | urgent h | displacing h | other h | leftUrgent h | leftOther h =>
      obtain ⟨rfl, -⟩ := List.append_inj' hevents rfl
      exact ih h

/-- **Urgent first.** When an element of the other lane leaves, all urgent arrivals have
left. -/
theorem before_other {e : E} (h : History isUrgent max (before ++ .left e :: after) lanes)
    (he : isUrgent e = false) :
    (arrivals before).filter isUrgent = (departures before).filter isUrgent := by
  rw [List.append_cons] at h
  obtain ⟨lanes', h⟩ := h.exists_before
  generalize hevents : before ++ [Event.left e] = events at h
  cases h with
  | start => simp at hevents
  | urgent _ | displacing _ | other _ =>
    exact nomatch (List.cons.inj (List.append_inj' hevents rfl).2).1
  | leftUrgent h =>
    obtain ⟨rfl, hevent⟩ := List.append_inj' hevents rfl
    obtain rfl := Event.left.inj (List.cons.inj hevent).1
    rw [h.all_urgent e List.mem_cons_self] at he
    exact nomatch he
  | leftOther h =>
    obtain ⟨rfl, -⟩ := List.append_inj' hevents rfl
    simpa using h.urgent_eq

/-- **What makes room**: the newest of the others, for an urgent arrival at a full
queue. -/
theorem displaced {e newest : E}
    (h : History isUrgent max (before ++ .arrived e (some newest) :: after) lanes) :
    isUrgent e = true ∧ ∃ urgent kept, History isUrgent max before ⟨urgent, kept ++ [newest]⟩ ∧
      (Lanes.mk urgent (kept ++ [newest])).size = max := by
  rw [List.append_cons] at h
  obtain ⟨lanes', h⟩ := h.exists_before
  generalize hevents : before ++ [Event.arrived e (some newest)] = events at h
  cases h with
  | start => simp at hevents
  | urgent _ | other _ | leftUrgent _ | leftOther _ =>
    exact nomatch (List.cons.inj (List.append_inj' hevents rfl).2).1
  | displacing h e' he hfull =>
    obtain ⟨rfl, hevent⟩ := List.append_inj' hevents rfl
    obtain ⟨rfl, hsome⟩ := Event.arrived.inj (List.cons.inj hevent).1
    obtain rfl := Option.some.inj hsome
    exact ⟨he, _, _, h, Nat.le_antisymm h.size_le hfull⟩

end History

--
-- The lanes as one list
--

/-- An element put before the first that is not urgent. -/
theorem insert_urgent {urgent other : List E} (hurgent : ∀ e ∈ urgent, isUrgent e = true)
    (hother : ∀ e ∈ other, isUrgent e = false) (e : E) :
    (urgent ++ other).takeWhile isUrgent ++ e :: (urgent ++ other).dropWhile isUrgent =
      (urgent ++ [e]) ++ other := by
  have htake : other.takeWhile isUrgent = [] := by
    cases other with
    | nil => rfl
    | cons first rest => rw [List.takeWhile_cons_of_neg (by simp [hother first])]
  have hdrop : other.dropWhile isUrgent = other := by
    cases other with
    | nil => rfl
    | cons first rest => rw [List.dropWhile_cons_of_neg (by simp [hother first])]
  rw [List.takeWhile_append_of_pos hurgent, List.dropWhile_append_of_pos hurgent, htake, hdrop,
    List.append_nil, List.append_assoc, List.singleton_append]

/-- The last element that is not urgent, taken out. -/
theorem erase_newest {urgent kept : List E} {newest : E} (hnewest : isUrgent newest = false) :
    ((urgent ++ (kept ++ [newest])).reverse.find? (! isUrgent ·)) = some newest ∧
      ((urgent ++ (kept ++ [newest])).reverse.eraseP (! isUrgent ·)).reverse = urgent ++ kept := by
  have hreverse : (urgent ++ (kept ++ [newest])).reverse = newest :: (urgent ++ kept).reverse := by
    rw [← List.append_assoc, List.reverse_append]
    rfl
  rw [hreverse, List.find?_cons_of_pos (by simp [hnewest]),
    List.eraseP_cons_of_pos (by simp [hnewest]), List.reverse_reverse]
  exact ⟨rfl, rfl⟩

/-- There is none to take out where all are urgent. -/
theorem find?_newest_eq_none {urgent : List E} (hurgent : ∀ e ∈ urgent, isUrgent e = true) :
    urgent.reverse.find? (! isUrgent ·) = none := by
  rw [List.find?_eq_none]
  intro e he
  simp [hurgent e (List.mem_reverse.mp he)]

end PriorityLanes
