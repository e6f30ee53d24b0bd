import Mathlib.Order.Basic

/-!
# Nodo — amounts

`utils/Amount.cpp`. An amount counts raw units in a signed 64 bit integer that its
constructor keeps from being negative; sums and differences outside the range throw.
-/

namespace Nodo.Model

/-- The largest amount, `INT64_MAX`. -/
def maxRawUnits : Nat := 9223372036854775807

/-- An amount of money, never negative. -/
structure Amount where
  rawUnits : Nat
  inRange : rawUnits ≤ maxRawUnits
  deriving DecidableEq

namespace Amount

@[ext] theorem ext {a b : Amount} (h : a.rawUnits = b.rawUnits) : a = b := by
  cases a
  cases b
  simpa using h

def zero : Amount := ⟨0, Nat.zero_le _⟩

theorem one_inRange : 1 ≤ maxRawUnits := by decide

theorem two_inRange : 2 ≤ maxRawUnits := by decide

theorem three_inRange : 3 ≤ maxRawUnits := by decide

theorem four_inRange : 4 ≤ maxRawUnits := by decide

theorem five_inRange : 5 ≤ maxRawUnits := by decide

theorem nine_inRange : 9 ≤ maxRawUnits := by decide

def isZero (a : Amount) : Bool := a.rawUnits == 0

def isPositive (a : Amount) : Bool := decide (0 < a.rawUnits)

/-- The constructor admits no negative value. -/
def isNegative (a : Amount) : Bool := decide (a.rawUnits < 0)

@[simp] theorem isNegative_eq (a : Amount) : a.isNegative = false := rfl

/-- `operator+`; `none` where it throws. -/
def add (a b : Amount) : Option Amount :=
  if h : a.rawUnits + b.rawUnits ≤ maxRawUnits then some ⟨a.rawUnits + b.rawUnits, h⟩ else none

theorem sub_inRange (a b : Amount) : a.rawUnits - b.rawUnits ≤ maxRawUnits :=
  Nat.le_trans (Nat.sub_le _ _) a.inRange

/-- `operator-`; `none` where it throws. -/
def sub (a b : Amount) : Option Amount :=
  if b.rawUnits > a.rawUnits then none
  else some ⟨a.rawUnits - b.rawUnits, sub_inRange a b⟩

theorem add_eq_some {a b c : Amount} (h : a.add b = some c) :
    c.rawUnits = a.rawUnits + b.rawUnits := by
  unfold add at h
  split at h
  · rw [← Option.some.inj h]
  · cases h

theorem sub_eq_some {a b c : Amount} (h : a.sub b = some c) :
    b.rawUnits ≤ a.rawUnits ∧ c.rawUnits = a.rawUnits - b.rawUnits := by
  unfold sub at h
  split at h
  · cases h
  · rename_i hle
    rw [← Option.some.inj h]
    exact ⟨Nat.le_of_not_lt hle, rfl⟩

end Amount

end Nodo.Model
