import Mathlib.Data.Prod.Lex

/-!
# Greedy choices

A loop that looks for a least element: it starts from a value of its own and takes every
element that ranks strictly lower.

## Results

* `scan_spec` — the loop finds a least element, or nothing ranks below its start.
-/

namespace GreedyChoice

variable {α ρ : Type} [LinearOrder ρ]

/-- The loop: the first of the least elements that rank below `start`. -/
def scan (rank : α → ρ) (start : α) (candidates : List α) : α :=
  candidates.foldl (fun least x => if rank x < rank least then x else least) start

/-- **The scan finds a least element**, unless nothing ranks below its start. -/
theorem scan_spec (rank : α → ρ) (start : α) (candidates : List α) :
    (scan rank start candidates = start ∧ ∀ x ∈ candidates, rank start ≤ rank x) ∨
    (scan rank start candidates ∈ candidates ∧ rank (scan rank start candidates) < rank start ∧
      ∀ x ∈ candidates, rank (scan rank start candidates) ≤ rank x) := by
  induction candidates generalizing start with
  | nil => exact .inl ⟨rfl, fun _ hx => nomatch hx⟩
  | cons head rest ih =>
    have hstep : scan rank start (head :: rest)
        = scan rank (if rank head < rank start then head else start) rest := rfl
    by_cases hlt : rank head < rank start
    · rw [hstep, if_pos hlt]
      refine .inr ?_
      obtain ⟨hsame, hall⟩ | ⟨hmem, hbelow, hall⟩ := ih head
      · rw [hsame]
        refine ⟨List.mem_cons_self, hlt, fun x hx => ?_⟩
        obtain rfl | hx := List.mem_cons.mp hx
        · exact le_refl _
        · exact hall x hx
      · refine ⟨List.mem_cons_of_mem _ hmem, hbelow.trans hlt, fun x hx => ?_⟩
        obtain rfl | hx := List.mem_cons.mp hx
        · exact hbelow.le
        · exact hall x hx
    · rw [hstep, if_neg hlt]
      have hhead : rank start ≤ rank head := not_lt.mp hlt
      obtain ⟨hsame, hall⟩ | ⟨hmem, hbelow, hall⟩ := ih start
      · refine .inl ⟨hsame, fun x hx => ?_⟩
        obtain rfl | hx := List.mem_cons.mp hx
        · exact hhead
        · exact hall x hx
      · refine .inr ⟨List.mem_cons_of_mem _ hmem, hbelow, fun x hx => ?_⟩
        obtain rfl | hx := List.mem_cons.mp hx
        · exact hbelow.le.trans hhead
        · exact hall x hx

end GreedyChoice
