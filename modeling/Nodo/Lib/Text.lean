import Mathlib.Data.List.TakeWhile
import Mathlib.Data.String.Basic

/-!
# Texts with delimiters and decimal numbers

Records are written as fields between delimiters and read back by cutting at
them. What makes this unambiguous is that a field does not contain the delimiter;
a decimal number contains no delimiter at all.

## Results

* `append_delimiter_inj` — a text determines what stands before and after the
  first delimiter, `append_last_delimiter_inj` the last one, `segments_inj` a run of them.
* `foldl_digits_toString`, `toString_nat_inj` — a decimal number is read back.
-/

namespace Text

/-- The characters of a literal: with `h` by `rfl`, nothing is decoded from its bytes. -/
theorem toList_of_eq_ofList {s : String} {l : List Char} (h : s = String.ofList l) :
    s.toList = l := by
  rw [h, String.toList_ofList]

--
-- Delimiters
--

variable {α : Type} [DecidableEq α] {d : α} {x y s t : List α}

theorem takeWhile_delimiter (hx : d ∉ x) : (x ++ d :: s).takeWhile (· != d) = x := by
  have hall : ∀ c ∈ x, (c != d) = true := fun c hc => bne_iff_ne.mpr (fun h => hx (h ▸ hc))
  rw [List.takeWhile_append_of_pos hall, List.takeWhile_cons_of_neg (by simp), List.append_nil]

theorem dropWhile_delimiter (hx : d ∉ x) : (x ++ d :: s).dropWhile (· != d) = d :: s := by
  have hall : ∀ c ∈ x, (c != d) = true := fun c hc => bne_iff_ne.mpr (fun h => hx (h ▸ hc))
  rw [List.dropWhile_append_of_pos hall, List.dropWhile_cons_of_neg (by simp)]

/-- The first delimiter cuts a text in one way. -/
theorem append_delimiter_inj (hx : d ∉ x) (hy : d ∉ y) (h : x ++ d :: s = y ++ d :: t) :
    x = y ∧ s = t := by
  have hbefore := congrArg (List.takeWhile (· != d)) h
  have hafter := congrArg (List.dropWhile (· != d)) h
  rw [takeWhile_delimiter hx, takeWhile_delimiter hy] at hbefore
  rw [dropWhile_delimiter hx, dropWhile_delimiter hy] at hafter
  exact ⟨hbefore, (List.cons.inj hafter).2⟩

/-- So does the last one. -/
theorem append_last_delimiter_inj (hs : d ∉ s) (ht : d ∉ t) (h : x ++ d :: s = y ++ d :: t) :
    x = y ∧ s = t := by
  have hreverse := congrArg List.reverse h
  simp only [List.reverse_append, List.reverse_cons, List.append_assoc, List.singleton_append]
    at hreverse
  obtain ⟨hst, hxy⟩ := append_delimiter_inj (fun hin => hs (List.mem_reverse.mp hin))
    (fun hin => ht (List.mem_reverse.mp hin)) hreverse
  exact ⟨List.reverse_injective hxy, List.reverse_injective hst⟩

/-- Texts that end at a delimiter are read off one after the other. -/
theorem segments_inj {xs ys : List (List α)} (hlength : xs.length = ys.length)
    (hxs : ∀ x ∈ xs, d ∉ x) (hys : ∀ y ∈ ys, d ∉ y)
    (h : xs.flatMap (· ++ [d]) ++ s = ys.flatMap (· ++ [d]) ++ t) : xs = ys := by
  induction xs generalizing ys with
  | nil => exact (List.length_eq_zero_iff.mp hlength.symm).symm
  | cons x xs ih =>
    cases ys with
    | nil => cases hlength
    | cons y ys =>
      rw [List.flatMap_cons, List.flatMap_cons, List.append_assoc, List.append_assoc,
        List.append_assoc, List.append_assoc, List.singleton_append, List.singleton_append] at h
      obtain ⟨rfl, hrest⟩ := append_delimiter_inj (hxs x List.mem_cons_self)
        (hys y List.mem_cons_self) h
      rw [ih (Nat.succ.inj hlength) (fun x hx => hxs x (List.mem_cons_of_mem _ hx))
        (fun y hy => hys y (List.mem_cons_of_mem _ hy)) hrest]

--
-- Decimal numbers
--

theorem toList_toString_nat (n : Nat) : (toString n).toList = Nat.toDigits 10 n := Nat.toList_repr

theorem isDigit_of_mem_toString {n : Nat} {c : Char} (h : c ∈ (toString n).toList) :
    c.isDigit = true := by
  rw [toList_toString_nat] at h
  exact Nat.isDigit_of_mem_toDigits (by decide) (by decide) h

/-- A decimal number holds no delimiter. -/
theorem not_mem_toString {n : Nat} {c : Char} (hc : c.isDigit = false) :
    c ∉ (toString n).toList := by
  intro h
  rw [isDigit_of_mem_toString h] at hc
  cases hc

theorem toString_nat_ne_nil (n : Nat) : (toString n).toList ≠ [] := by
  rw [toList_toString_nat]
  exact Nat.toDigits_ne_nil

/-- Reading the digits from the left gives the number back. -/
theorem foldl_digits_toString (n : Nat) :
    (toString n).toList.foldl (fun acc c => acc * 10 + (c.toNat - '0'.toNat)) 0 = n := by
  rw [toList_toString_nat]
  have hread := @Nat.ofDigitChars_ten_toDigits n
  rw [Nat.ofDigitChars] at hread
  simpa [Nat.mul_comm] using hread

theorem toString_nat_inj {n m : Nat} (h : toString n = toString m) : n = m := by
  rw [← foldl_digits_toString n, h, foldl_digits_toString]

end Text
