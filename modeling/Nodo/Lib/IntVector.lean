import Mathlib.Algebra.Order.BigOperators.Group.List
import Mathlib.Algebra.Order.Group.Int
import Mathlib.Tactic.Linarith
import Mathlib.Tactic.Ring

/-!
# Vectors of checked integers

Lists of integers whose entries lie close together, and the operations that keep
them so: dividing every entry toward zero, shifting all of them, nudging the
first few by one. Machine arithmetic is exact arithmetic with a range check; a
loop of checked operations succeeds where every exact result is in range.

## Results

* `Within.map_tdiv` — division by the rounded-up quotient brings a vector within
  the target width.
* `Within.nudge` — a nudge of at most one costs at most one.
* `Within.bounded_of_sum_zero` — entries that sum to zero are at most the width away from
  zero.
* `mapM_checked`, `sumM_checked`, `rangeM_checked` — checked loops that stay in range.
-/

namespace IntVector

--
-- Width
--

/-- No two entries are more than `width` apart. -/
def Within (width : Int) (l : List Int) : Prop := ∀ a ∈ l, ∀ b ∈ l, a - b ≤ width

/-- All entries are at most `bound` away from zero. -/
def Bounded (bound : Int) (l : List Int) : Prop := ∀ a ∈ l, -bound ≤ a ∧ a ≤ bound

variable {width bound : Int} {l : List Int}

theorem Bounded.within (h : Bounded bound l) : Within (2 * bound) l := by
  intro a ha b hb
  have hupper := (h a ha).2
  have hlower := (h b hb).1
  omega

theorem Within.mono {width' : Int} (h : Within width l) (hle : width ≤ width') :
    Within width' l := fun a ha b hb => (h a ha b hb).trans hle

/-- Truncated quotients of numbers at most `D * T` apart are at most `T` apart. -/
theorem tdiv_sub_tdiv_le {a b D T : Int} (hD : 0 < D) (hT : 0 ≤ T) (h : a - b ≤ D * T) :
    a.tdiv D - b.tdiv D ≤ T := by
  by_contra hlarge
  have hproduct : D * (T + 1) ≤ D * (a.tdiv D - b.tdiv D) :=
    Int.mul_le_mul_of_nonneg_left (by omega) hD.le
  rw [Int.mul_add, Int.mul_one, Int.mul_sub] at hproduct
  have ha := Int.mul_tdiv_add_tmod a D
  have hb := Int.mul_tdiv_add_tmod b D
  -- the remainders have the signs of the numbers and are smaller than `D`
  rcases Int.le_total 0 a with hpos | hneg
  · have hra := Int.tmod_nonneg D hpos
    have hrb := Int.tmod_lt_of_pos b hD
    omega
  · rcases Int.le_total b 0 with hneg' | hpos'
    · have hra := Int.tmod_lt_of_pos (-a) hD
      have hrb := Int.tmod_nonneg D (Int.neg_nonneg_of_nonpos hneg')
      rw [Int.neg_tmod] at hra hrb
      omega
    · have hqa := Int.tdiv_nonneg (Int.neg_nonneg_of_nonpos hneg) hD.le
      have hqb := Int.tdiv_nonneg hpos' hD.le
      rw [Int.neg_tdiv] at hqa
      omega

/-- Division of all entries toward zero. -/
theorem Within.map_tdiv {D T : Int} (h : Within width l) (hD : 0 < D) (hT : 0 ≤ T)
    (hwidth : width ≤ D * T) : Within T (l.map (·.tdiv D)) := by
  intro x hx y hy
  obtain ⟨a, ha, rfl⟩ := List.mem_map.mp hx
  obtain ⟨b, hb, rfl⟩ := List.mem_map.mp hy
  exact tdiv_sub_tdiv_le hD hT ((h a ha b hb).trans hwidth)

theorem Bounded.map_tdiv (h : Bounded bound l) (D : Int) :
    Bounded bound (l.map (·.tdiv D)) := by
  intro x hx
  obtain ⟨a, ha, rfl⟩ := List.mem_map.mp hx
  obtain ⟨hlower, hupper⟩ := h a ha
  have habs := Int.natAbs_tdiv_le_natAbs a D
  omega

/-- A common shift keeps the width. -/
theorem Within.map_sub (h : Within width l) (shift : Int) :
    Within width (l.map (· - shift)) := by
  intro x hx y hy
  obtain ⟨a, ha, rfl⟩ := List.mem_map.mp hx
  obtain ⟨b, hb, rfl⟩ := List.mem_map.mp hy
  have hab := h a ha b hb
  omega

theorem sum_map_sub (l : List Int) (shift : Int) :
    (l.map (· - shift)).sum = l.sum - l.length * shift := by
  induction l with
  | nil => simp
  | cons a rest ih =>
    simp only [List.map_cons, List.sum_cons, ih, List.length_cons, Int.natCast_add,
      Int.natCast_one]
    ring

/-- What subtracting the truncated average leaves is less than one for each entry. -/
theorem natAbs_sum_sub_average (hne : l ≠ []) :
    (l.map (· - l.sum.tdiv l.length)).sum.natAbs < l.length := by
  have hpos : (0 : Int) < l.length := by exact_mod_cast List.length_pos_iff.mpr hne
  have hsplit := Int.mul_tdiv_add_tmod l.sum l.length
  have hupper := Int.tmod_lt_of_pos l.sum hpos
  have hlower := Int.tmod_lt_of_pos (-l.sum) hpos
  rw [Int.neg_tmod] at hlower
  rw [sum_map_sub]
  omega

/-- Entries that sum to zero are at most the width away from zero. -/
theorem Within.bounded_of_sum_zero (h : Within width l) (hsum : l.sum = 0) :
    Bounded width l := by
  intro a ha
  -- an entry above the width would leave all entries positive, and the sum with them
  have hlow := List.card_nsmul_le_sum l (a - width) (fun b hb => by have := h a ha b hb; omega)
  have hhigh := List.sum_le_card_nsmul l (a + width) (fun b hb => by have := h b hb a ha; omega)
  rw [hsum, nsmul_eq_mul] at hlow hhigh
  have hpos : (0 : Int) < l.length := by exact_mod_cast List.length_pos_of_mem ha
  constructor
  · by_contra hneg
    have := Int.mul_neg_of_pos_of_neg hpos (by omega : a + width < 0)
    omega
  · by_contra hlarge
    have := Int.mul_pos hpos (by omega : 0 < a - width)
    omega

/-- The sum of bounded entries. -/
theorem Bounded.sum_bounds (h : Bounded bound l) :
    -(l.length * bound) ≤ l.sum ∧ l.sum ≤ l.length * bound := by
  have hlow := List.card_nsmul_le_sum l (-bound) (fun a ha => (h a ha).1)
  have hhigh := List.sum_le_card_nsmul l bound (fun a ha => (h a ha).2)
  rw [nsmul_eq_mul] at hlow hhigh
  rw [Int.mul_neg] at hlow
  exact ⟨hlow, hhigh⟩

theorem Bounded.map_sub {shift bound' : Int} (h : Bounded bound l)
    (hshift : -bound' ≤ shift ∧ shift ≤ bound') :
    Bounded (bound + bound') (l.map (· - shift)) := by
  intro x hx
  obtain ⟨a, ha, rfl⟩ := List.mem_map.mp hx
  obtain ⟨hlower, hupper⟩ := h a ha
  constructor <;> omega

--
-- Nudging the first entries
--

/-- The first `count` entries moved by `step`. -/
def nudge (count : Nat) (step : Int) (l : List Int) : List Int :=
  (l.take count).map (· + step) ++ l.drop count

@[simp] theorem length_nudge (count : Nat) (step : Int) (l : List Int) :
    (nudge count step l).length = l.length := by
  simp [nudge]
  omega

theorem sum_nudge {count : Nat} (hcount : count ≤ l.length) (step : Int) :
    (nudge count step l).sum = l.sum + count * step := by
  have hshift := sum_map_sub (l.take count) (-step)
  have hsplit := List.sum_take_add_sum_drop l count
  rw [List.length_take, Nat.min_eq_left hcount] at hshift
  simp only [sub_neg_eq_add] at hshift
  rw [nudge, List.sum_append, hshift, ← hsplit]
  ring

/-- An entry of a nudged vector is an old one, moved or not. -/
theorem mem_nudge {count : Nat} {step a : Int} (h : a ∈ nudge count step l) :
    ∃ b ∈ l, a = b ∨ a = b + step := by
  rcases List.mem_append.mp h with hfirst | hrest
  · obtain ⟨b, hb, rfl⟩ := List.mem_map.mp hfirst
    exact ⟨b, List.mem_of_mem_take hb, Or.inr rfl⟩
  · exact ⟨a, List.mem_of_mem_drop hrest, Or.inl rfl⟩

theorem Within.nudge (h : Within width l) {count : Nat} {step : Int}
    (hstep : -1 ≤ step ∧ step ≤ 1) : Within (width + 1) (nudge count step l) := by
  intro a ha b hb
  obtain ⟨a', ha', hcase⟩ := mem_nudge ha
  obtain ⟨b', hb', hcase'⟩ := mem_nudge hb
  have hab := h a' ha' b' hb'
  omega

--
-- Checked loops
--

/-- An exact result if it is in `[-limit, limit)`. -/
def checked (limit : Int) (exact : Int) : Option Int :=
  if -limit ≤ exact ∧ exact < limit then some exact else none

theorem checked_of_bounds {limit exact : Int} (h : -limit ≤ exact ∧ exact < limit) :
    checked limit exact = some exact := if_pos h

/-- A loop of which every step succeeds. -/
theorem mapM_of_forall {α β : Type*} {P : β → Prop} {l : List α} {f : α → Option β}
    (h : ∀ a ∈ l, ∃ b, f a = some b ∧ P b) :
    ∃ result, l.mapM f = some result ∧ result.length = l.length ∧ ∀ b ∈ result, P b := by
  induction l with
  | nil => exact ⟨[], rfl, rfl, fun b hb => absurd hb List.not_mem_nil⟩
  | cons a rest ih =>
    obtain ⟨b, hb, hP⟩ := h a List.mem_cons_self
    obtain ⟨result, hresult, hlength, hall⟩ := ih (fun c hc => h c (List.mem_cons_of_mem _ hc))
    refine ⟨b :: result, ?_, by rw [List.length_cons, List.length_cons, hlength],
      List.forall_mem_cons.mpr ⟨hP, hall⟩⟩
    rw [List.mapM_cons, hb, hresult]
    rfl

/-- A loop of checked operations that stays in range. -/
theorem mapM_checked {α : Type*} (limit : Int) {l : List α} {f : α → Int}
    (h : ∀ a ∈ l, -limit ≤ f a ∧ f a < limit) :
    l.mapM (fun a => checked limit (f a)) = some (l.map f) := by
  induction l with
  | nil => rfl
  | cons a rest ih =>
    rw [List.mapM_cons, checked_of_bounds (h a List.mem_cons_self),
      ih (fun b hb => h b (List.mem_cons_of_mem _ hb))]
    rfl

/-- The checked running sum of a vector. -/
def sumM (limit : Int) (l : List Int) : Option Int :=
  l.foldlM (fun sum a => checked limit (sum + a)) 0

/-- A running sum over bounded entries stays in range. -/
theorem sumM_checked (limit : Int) (h : Bounded bound l) (hlimit : l.length * bound < limit) :
    sumM limit l = some l.sum := by
  have hrun : ∀ (rest : List Int) (start room : Int), Bounded bound rest →
      -room ≤ start ∧ start ≤ room → room + rest.length * bound < limit →
      rest.foldlM (fun sum a => checked limit (sum + a)) start = some (start + rest.sum) := by
    intro rest
    induction rest with
    | nil => intro start room _ _ _; simp
    | cons a rest ih =>
      intro start room hbounded hstart hroom
      obtain ⟨hlower, hupper⟩ := hbounded a List.mem_cons_self
      have hbound : 0 ≤ bound := by omega
      simp only [List.length_cons, Int.natCast_add, Int.natCast_one] at hroom
      have hproduct : 0 ≤ (rest.length : Int) * bound := Int.mul_nonneg (by omega) hbound
      have hsplit : ((rest.length : Int) + 1) * bound = rest.length * bound + bound := by ring
      rw [List.foldlM_cons, checked_of_bounds (by omega)]
      show rest.foldlM _ (start + a) = _
      rw [ih (start + a) (room + bound) (fun b hb => hbounded b (List.mem_cons_of_mem _ hb))
        (by omega) (by omega), List.sum_cons, Int.add_assoc]
  have hzero := hrun l 0 0 h (by omega) (by omega)
  rw [Int.zero_add] at hzero
  exact hzero

/-- The checked difference between the largest and the smallest entry. -/
def rangeM (limit : Int) (l : List Int) : Option Int := do
  let largest ← l.max?
  let smallest ← l.min?
  checked limit (largest - smallest)

/-- The range of a bounded vector is the least width it lies within. -/
theorem rangeM_checked (limit : Int) (hne : l ≠ []) (h : Bounded bound l)
    (hlimit : 2 * bound < limit) :
    ∃ range, rangeM limit l = some range ∧ 0 ≤ range ∧ Within range l ∧
      ∀ width, Within width l → range ≤ width := by
  obtain ⟨largest, hlargest⟩ := Option.ne_none_iff_exists'.mp (mt List.max?_eq_none_iff.mp hne)
  obtain ⟨smallest, hsmallest⟩ := Option.ne_none_iff_exists'.mp (mt List.min?_eq_none_iff.mp hne)
  obtain ⟨hmem, hmax⟩ := List.max?_eq_some_iff.mp hlargest
  obtain ⟨hmem', hmin⟩ := List.min?_eq_some_iff.mp hsmallest
  have hwidth := h.within largest hmem smallest hmem'
  have horder := hmax smallest hmem'
  refine ⟨largest - smallest, ?_, by omega, ?_, ?_⟩
  · unfold rangeM
    rw [hlargest, hsmallest]
    exact checked_of_bounds (by omega)
  · intro a ha b hb
    have hupper := hmax a ha
    have hlower := hmin b hb
    omega
  · intro width hwithin
    exact hwithin largest hmem smallest hmem'

end IntVector
