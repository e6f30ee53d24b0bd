import Mathlib.Data.List.Basic
import Mathlib.Data.String.Basic

/-!
# Texts with nested brackets

A hand-written codec prints objects as fields between separators, objects within braces and
lists within brackets, and reads them back by a scan that counts the open brackets and cuts
at the separators outside all of them. The scan is undone by the printer if every part is
closed: its brackets match and it shows no separator outside them.

## Results

* `splitFrom_append` — the scan steps over a text that leaves the brackets as it found them.
* `split_intercalate` — parts that are closed are read back from their joined text.
* `closed_of_split` — the parts of any text that splits are closed.
* `Balanced`, `Closed` — how the two notions pass through joins and brackets.
-/

namespace NestedText

/-- The open braces and brackets. -/
structure Depth where
  brace : Nat
  bracket : Nat
  deriving DecidableEq

namespace Depth

def zero : Depth := ⟨0, 0⟩

/-- The depth after one character; `none` where a bracket closes that was not open. -/
def step (depth : Depth) (c : Char) : Option Depth :=
  if c = '{' then some ⟨depth.brace + 1, depth.bracket⟩
  else if c = '}' then
    match depth.brace with
    | 0 => none
    | brace + 1 => some ⟨brace, depth.bracket⟩
  else if c = '[' then some ⟨depth.brace, depth.bracket + 1⟩
  else if c = ']' then
    match depth.bracket with
    | 0 => none
    | bracket + 1 => some ⟨depth.brace, bracket⟩
  else some depth

def add (a b : Depth) : Depth := ⟨a.brace + b.brace, a.bracket + b.bracket⟩

end Depth

/-- What a split can stumble over. -/
inductive SplitError
  | malformed
  | emptyPart
  | unbalanced
  | trailingSeparator
  deriving DecidableEq

/-- Cut a text at the separators outside all brackets; `part` is the current part, reversed. -/
def splitFrom (separator : Char) : Depth → List Char → List Char → Except SplitError (List (List Char))
  | depth, part, [] =>
    if depth ≠ .zero then .error .unbalanced
    else if part = [] then .error .trailingSeparator
    else .ok [part.reverse]
  | depth, part, c :: rest =>
    match depth.step c with
    | none => .error .malformed
    | some next =>
      if c = separator ∧ next = .zero then
        if part = [] then .error .emptyPart
        else (splitFrom separator .zero [] rest).map (part.reverse :: ·)
      else splitFrom separator next (c :: part) rest

def split (separator : Char) (text : List Char) : Except SplitError (List (List Char)) :=
  splitFrom separator .zero [] text

--
-- Scans
--

/-- The depth after a text. -/
def scan : Depth → List Char → Option Depth
  | depth, [] => some depth
  | depth, c :: rest => (depth.step c).bind (scan · rest)

/-- The depth after a text that shows no separator outside the brackets. -/
def scanPart (separator : Char) : Depth → List Char → Option Depth
  | depth, [] => some depth
  | depth, c :: rest =>
    (depth.step c).bind fun next =>
      if c = separator ∧ next = .zero then none else scanPart separator next rest

/-- All brackets of the text match. -/
def Balanced (text : List Char) : Prop := scan .zero text = some .zero

/-- All brackets of the text match and no separator stands outside them. -/
def Closed (separator : Char) (text : List Char) : Prop :=
  scanPart separator .zero text = some .zero

theorem scan_append (depth : Depth) (x y : List Char) :
    scan depth (x ++ y) = (scan depth x).bind (scan · y) := by
  induction x generalizing depth with
  | nil => rfl
  | cons c rest ih =>
    simp only [List.cons_append, scan]
    cases depth.step c with
    | none => rfl
    | some next => exact ih next

theorem scanPart_append (separator : Char) (depth : Depth) (x y : List Char) :
    scanPart separator depth (x ++ y)
      = (scanPart separator depth x).bind (scanPart separator · y) := by
  induction x generalizing depth with
  | nil => rfl
  | cons c rest ih =>
    simp only [List.cons_append, scanPart]
    cases depth.step c with
    | none => rfl
    | some next =>
      show (if c = separator ∧ next = .zero then none else scanPart separator next (rest ++ y)) =
        Option.bind (if c = separator ∧ next = .zero then none else scanPart separator next rest) _
      split
      · rfl
      · exact ih next

/-- Brackets opened before a text do not change how it is scanned. -/
theorem step_add {depth next : Depth} {c : Char} (outer : Depth) (h : depth.step c = some next) :
    (outer.add depth).step c = some (outer.add next) := by
  obtain ⟨brace, bracket⟩ := depth
  unfold Depth.step at h ⊢
  by_cases h1 : c = '{'
  · rw [if_pos h1] at h ⊢
    cases h
    rfl
  rw [if_neg h1] at h ⊢
  by_cases h2 : c = '}'
  · rw [if_pos h2] at h ⊢
    cases brace with
    | zero => cases h
    | succ brace =>
      cases h
      rfl
  rw [if_neg h2] at h ⊢
  by_cases h3 : c = '['
  · rw [if_pos h3] at h ⊢
    cases h
    rfl
  rw [if_neg h3] at h ⊢
  by_cases h4 : c = ']'
  · rw [if_pos h4] at h ⊢
    cases bracket with
    | zero => cases h
    | succ bracket =>
      cases h
      rfl
  rw [if_neg h4] at h ⊢
  cases h
  rfl

/-- Within brackets a separator does not count. -/
theorem scanPart_of_scan {separator : Char} {outer : Depth} (houter : outer ≠ .zero) {text : List Char}
    {depth last : Depth} (h : scan depth text = some last) :
    scanPart separator (outer.add depth) text = some (outer.add last) := by
  induction text generalizing depth with
  | nil =>
    cases h
    rfl
  | cons c rest ih =>
    cases hstep : depth.step c with
    | none =>
      rw [scan, hstep] at h
      cases h
    | some next =>
      rw [scan, hstep] at h
      have hopen : outer.add next ≠ .zero := by
        intro hzero
        apply houter
        obtain ⟨brace, bracket⟩ := outer
        have hbrace := congrArg Depth.brace hzero
        have hbracket := congrArg Depth.bracket hzero
        simp only [Depth.add, Depth.zero] at hbrace hbracket
        rw [Depth.zero, Depth.mk.injEq]
        omega
      rw [scanPart, step_add outer hstep]
      show (if c = separator ∧ outer.add next = .zero then none
        else scanPart separator (outer.add next) rest) = _
      rw [if_neg (fun hcut => hopen hcut.2)]
      exact ih h

theorem scan_of_scanPart {separator : Char} {text : List Char} {depth last : Depth}
    (h : scanPart separator depth text = some last) : scan depth text = some last := by
  induction text generalizing depth with
  | nil => exact h
  | cons c rest ih =>
    cases hstep : depth.step c with
    | none =>
      rw [scanPart, hstep] at h
      cases h
    | some next =>
      rw [scanPart, hstep] at h
      change (if c = separator ∧ next = .zero then none
        else scanPart separator next rest) = some last at h
      rw [scan, hstep]
      split at h
      · cases h
      · exact ih h

--
-- Closed texts
--

/-- No bracket. -/
def Plain (text : List Char) : Prop := ∀ c ∈ text, c ≠ '{' ∧ c ≠ '}' ∧ c ≠ '[' ∧ c ≠ ']'

instance (text : List Char) : Decidable (Plain text) :=
  List.decidableBAll (fun c => c ≠ '{' ∧ c ≠ '}' ∧ c ≠ '[' ∧ c ≠ ']') text

theorem Plain.scanPart {separator : Char} {text : List Char} (h : Plain text) (depth : Depth)
    (hseparator : depth = .zero → separator ∉ text) :
    scanPart separator depth text = some depth := by
  induction text with
  | nil => rfl
  | cons c rest ih =>
    obtain ⟨h1, h2, h3, h4⟩ := h c List.mem_cons_self
    have hstep : depth.step c = some depth := by
      rw [Depth.step, if_neg h1, if_neg h2, if_neg h3, if_neg h4]
    rw [NestedText.scanPart, hstep]
    show (if c = separator ∧ depth = .zero then none else NestedText.scanPart separator depth rest) = _
    rw [if_neg]
    · exact ih (fun d hd => h d (List.mem_cons_of_mem _ hd))
        (fun hzero hmem => hseparator hzero (List.mem_cons_of_mem _ hmem))
    · rintro ⟨rfl, hzero⟩
      exact hseparator hzero List.mem_cons_self

theorem Plain.closed {separator : Char} {text : List Char} (h : Plain text)
    (hseparator : separator ∉ text) : Closed separator text :=
  h.scanPart .zero (fun _ => hseparator)

theorem Closed.balanced {separator : Char} {text : List Char} (h : Closed separator text) :
    Balanced text :=
  scan_of_scanPart h

theorem Plain.balanced {text : List Char} (h : Plain text) : Balanced text := by
  induction text with
  | nil => rfl
  | cons c rest ih =>
    obtain ⟨h1, h2, h3, h4⟩ := h c List.mem_cons_self
    have hstep : Depth.zero.step c = some .zero := by
      rw [Depth.step, if_neg h1, if_neg h2, if_neg h3, if_neg h4]
    rw [Balanced, scan, hstep]
    exact ih (fun d hd => h d (List.mem_cons_of_mem _ hd))

theorem Closed.append {separator : Char} {x y : List Char} (hx : Closed separator x)
    (hy : Closed separator y) : Closed separator (x ++ y) := by
  rw [Closed, scanPart_append, show scanPart separator .zero x = some .zero from hx]
  exact hy

/-- What stands behind a plain text without the separator is closed if the whole is. -/
theorem Closed.of_append {separator : Char} {x y : List Char} (hplain : Plain x)
    (hseparator : separator ∉ x) (h : Closed separator (x ++ y)) : Closed separator y := by
  rw [Closed, scanPart_append, hplain.scanPart .zero (fun _ => hseparator)] at h
  exact h

theorem Balanced.append {x y : List Char} (hx : Balanced x) (hy : Balanced y) :
    Balanced (x ++ y) := by
  rw [Balanced, scan_append, show scan .zero x = some .zero from hx]
  exact hy

/-- A balanced text in braces is closed under every separator but the brace. -/
theorem Balanced.braces {separator : Char} (hseparator : separator ≠ '}') {text : List Char}
    (h : Balanced text) : Closed separator ('{' :: text ++ ['}']) := by
  have hinner : scanPart separator ⟨1, 0⟩ text = some ⟨1, 0⟩ :=
    scanPart_of_scan (show (⟨1, 0⟩ : Depth) ≠ .zero by decide) h
  have hopen : scanPart separator .zero ('{' :: text) = some ⟨1, 0⟩ := by
    show (if '{' = separator ∧ (⟨1, 0⟩ : Depth) = .zero then none
      else scanPart separator ⟨1, 0⟩ text) = _
    rw [if_neg (by rintro ⟨-, hzero⟩; cases hzero)]
    exact hinner
  rw [Closed, scanPart_append, hopen]
  show (if '}' = separator ∧ (⟨0, 0⟩ : Depth) = .zero then none else some (⟨0, 0⟩ : Depth)) = _
  rw [if_neg (fun hcut => hseparator hcut.1.symm)]
  rfl

/-- And so is one in brackets. -/
theorem Balanced.brackets {separator : Char} (hseparator : separator ≠ ']') {text : List Char}
    (h : Balanced text) : Closed separator ('[' :: text ++ [']']) := by
  have hinner : scanPart separator ⟨0, 1⟩ text = some ⟨0, 1⟩ :=
    scanPart_of_scan (show (⟨0, 1⟩ : Depth) ≠ .zero by decide) h
  have hopen : scanPart separator .zero ('[' :: text) = some ⟨0, 1⟩ := by
    show (if '[' = separator ∧ (⟨0, 1⟩ : Depth) = .zero then none
      else scanPart separator ⟨0, 1⟩ text) = _
    rw [if_neg (by rintro ⟨-, hzero⟩; cases hzero)]
    exact hinner
  rw [Closed, scanPart_append, hopen]
  show (if ']' = separator ∧ (⟨0, 0⟩ : Depth) = .zero then none else some (⟨0, 0⟩ : Depth)) = _
  rw [if_neg (fun hcut => hseparator hcut.1.symm)]
  rfl

theorem balanced_intercalate {separator : Char} (hplain : Plain [separator])
    {parts : List (List Char)} (hparts : ∀ part ∈ parts, Balanced part) :
    Balanced (List.intercalate [separator] parts) := by
  induction parts with
  | nil => rfl
  | cons part rest ih =>
    have hpart := hparts part List.mem_cons_self
    have hrest := ih (fun other hother => hparts other (List.mem_cons_of_mem _ hother))
    cases rest with
    | nil => simpa [List.intercalate] using hpart
    | cons second rest =>
      have hjoin : List.intercalate [separator] (part :: second :: rest)
          = part ++ ([separator] ++ List.intercalate [separator] (second :: rest)) := by
        simp [List.intercalate]
      rw [hjoin]
      exact hpart.append (hplain.balanced.append hrest)

--
-- Splitting
--

/-- **The scan steps over a part**: a text without outer separator goes to the current part. -/
theorem splitFrom_append {separator : Char} {x : List Char} {depth next : Depth}
    (h : scanPart separator depth x = some next) (part rest : List Char) :
    splitFrom separator depth part (x ++ rest)
      = splitFrom separator next (x.reverse ++ part) rest := by
  induction x generalizing depth part with
  | nil =>
    cases h
    rfl
  | cons c x ih =>
    cases hstep : depth.step c with
    | none =>
      rw [scanPart, hstep] at h
      cases h
    | some after =>
      rw [scanPart, hstep] at h
      change (if c = separator ∧ after = .zero then none
        else scanPart separator after x) = some next at h
      split at h
      · cases h
      · rename_i hcut
        rw [List.cons_append, splitFrom, hstep]
        show (if c = separator ∧ after = .zero then _
          else splitFrom separator after (c :: part) (x ++ rest)) = _
        rw [if_neg hcut, ih h]
        simp

/-- Closed parts are read back from the text they are joined to. -/
theorem split_intercalate {separator : Char} (hplain : Plain [separator])
    {parts : List (List Char)} (hne : parts ≠ [])
    (hparts : ∀ part ∈ parts, part ≠ [] ∧ Closed separator part) :
    split separator (List.intercalate [separator] parts) = .ok parts := by
  unfold split
  induction parts with
  | nil => exact absurd rfl hne
  | cons part rest ih =>
    obtain ⟨hpart, hclosed⟩ := hparts part List.mem_cons_self
    cases rest with
    | nil =>
      have hjoin : List.intercalate [separator] [part] = part ++ [] := by simp [List.intercalate]
      rw [hjoin, splitFrom_append hclosed, splitFrom]
      simp [hpart]
    | cons second rest =>
      have hjoin : List.intercalate [separator] (part :: second :: rest)
          = part ++ separator :: List.intercalate [separator] (second :: rest) := by
        simp [List.intercalate]
      obtain ⟨h1, h2, h3, h4⟩ := hplain separator List.mem_cons_self
      have hstep : Depth.zero.step separator = some .zero := by
        rw [Depth.step, if_neg h1, if_neg h2, if_neg h3, if_neg h4]
      rw [hjoin, splitFrom_append hclosed, splitFrom, hstep]
      show (if separator = separator ∧ Depth.zero = .zero then
        if part.reverse ++ [] = [] then _ else _ else _) = _
      rw [if_pos ⟨rfl, rfl⟩, if_neg (by simpa using hpart),
        ih (by simp) (fun other hother => hparts other (List.mem_cons_of_mem _ hother))]
      simp [Except.map]

/-- The scan of a text whose current part has already been read. -/
theorem splitFrom_closed {separator : Char} (hplain : Plain [separator]) {text part : List Char} {depth : Depth}
    {parts : List (List Char)} (hpart : scanPart separator .zero part.reverse = some depth)
    (h : splitFrom separator depth part text = .ok parts) :
    parts ≠ [] ∧ ∀ part ∈ parts, part ≠ [] ∧ Closed separator part := by
  induction text generalizing part depth parts with
  | nil =>
    rw [splitFrom] at h
    split_ifs at h with hopen hempty
    cases h
    have hzero : depth = .zero := not_not.mp hopen
    refine ⟨by simp, ?_⟩
    rw [List.forall_mem_singleton]
    exact ⟨by simpa using hempty, by rw [Closed, hpart, hzero]⟩
  | cons c rest ih =>
    rw [splitFrom] at h
    cases hstep : depth.step c with
    | none =>
      rw [hstep] at h
      cases h
    | some next =>
      rw [hstep] at h
      change (if c = separator ∧ next = .zero then _
        else splitFrom separator next (c :: part) rest) = .ok parts at h
      by_cases hcut : c = separator ∧ next = .zero
      · -- a separator outside the brackets leaves the depth as it was
        rw [if_pos hcut] at h
        split_ifs at h with hempty
        cases hrest : splitFrom separator .zero [] rest with
        | error e =>
          rw [hrest] at h
          cases h
        | ok others =>
          rw [hrest] at h
          cases h
          obtain ⟨-, hothers⟩ := ih rfl hrest
          refine ⟨by simp, ?_⟩
          rw [List.forall_mem_cons]
          refine ⟨⟨by simpa using hempty, ?_⟩, hothers⟩
          obtain ⟨h1, h2, h3, h4⟩ := hplain separator List.mem_cons_self
          rw [hcut.1, Depth.step, if_neg h1, if_neg h2, if_neg h3, if_neg h4, hcut.2] at hstep
          rw [Closed, hpart, hstep]
      · rw [if_neg hcut] at h
        refine ih ?_ h
        rw [List.reverse_cons, scanPart_append, hpart]
        show (depth.step c).bind _ = _
        rw [hstep]
        show (if c = separator ∧ next = .zero then none else some next) = _
        rw [if_neg hcut]

/-- **A split text has closed parts**, and at least one. -/
theorem closed_of_split {separator : Char} (hplain : Plain [separator]) {text : List Char}
    {parts : List (List Char)} (h : split separator text = .ok parts) :
    parts ≠ [] ∧ ∀ part ∈ parts, part ≠ [] ∧ Closed separator part :=
  splitFrom_closed hplain rfl h

end NestedText
