import Mathlib.Data.List.Basic
import Mathlib.Data.List.Infix

/-!
# Fields found by their names

Some hand-written readers find a field by searching its name and an equals sign anywhere in the
text. `after? needle text` is what stands behind the first occurrence. The needles searched are
`key ++ "="` with no equals sign in `key`, so an occurrence ends at an equals sign of the text and
holds no other; searches can be followed from one equals sign to the next.

## Results

* `after?_append_equals` — a search in a text that is cut at an equals sign.
* `after?_first` — the field is found where no earlier equals sign has the key before it.
* `suffix_of_cut` — a key does not reach over a delimiter.
-/

namespace FieldSearch

variable {α : Type} [DecidableEq α]

/-- The text behind the first occurrence of the needle. -/
def after? (needle : List α) : List α → Option (List α)
  | [] => if needle.isPrefixOf [] then some [] else none
  | c :: rest =>
    if needle.isPrefixOf (c :: rest) then some ((c :: rest).drop needle.length)
    else after? needle rest

/-- The text before the first occurrence of the needle. -/
def before? (needle : List α) : List α → Option (List α)
  | [] => if needle.isPrefixOf [] then some [] else none
  | c :: rest =>
    if needle.isPrefixOf (c :: rest) then some []
    else (before? needle rest).map (c :: ·)

variable {key a b rest : List α} {e d : α}

theorem after?_of_starts {needle : List α} (h : needle <+: rest) :
    after? needle rest = some (rest.drop needle.length) := by
  have hstarts : needle.isPrefixOf rest = true := List.isPrefixOf_iff_prefix.mpr h
  cases rest with
  | nil => simp [after?, hstarts]
  | cons c rest => rw [after?, if_pos hstarts]

theorem after?_cons_of_not_starts {needle : List α} {c : α} (h : ¬ needle <+: c :: rest) :
    after? needle (c :: rest) = after? needle rest := by
  rw [after?, if_neg (by rwa [List.isPrefixOf_iff_prefix])]

omit [DecidableEq α] in
/-- A needle starts with its first character. -/
theorem not_starts_of_ne {needle : List α} {c : α} (h : c ≠ d) : ¬ d :: needle <+: c :: rest := by
  rintro ⟨tail, htail⟩
  rw [List.cons_append, List.cons.injEq] at htail
  exact h htail.1.symm

/-- A search skips a text without the needle's first character. -/
theorem after?_skip_text {needle : List α} (h : d ∉ a) :
    after? (d :: needle) (a ++ b) = after? (d :: needle) b := by
  induction a with
  | nil => rfl
  | cons c a ih =>
    have hne : c ≠ d := fun heq => h (heq ▸ List.mem_cons_self)
    rw [List.cons_append, after?_cons_of_not_starts (not_starts_of_ne hne)]
    exact ih (fun hmem => h (List.mem_cons_of_mem _ hmem))

/-- What stands behind an occurrence ends the text. -/
theorem eq_of_after? {needle text : List α} (h : after? needle text = some rest) :
    ∃ front, text = front ++ (needle ++ rest) := by
  induction text with
  | nil =>
    by_cases hstarts : needle <+: []
    · rw [after?_of_starts hstarts] at h
      obtain rfl := Option.some.inj h
      exact ⟨[], by simp [List.prefix_nil.mp hstarts]⟩
    · rw [after?, if_neg (by rwa [List.isPrefixOf_iff_prefix])] at h
      cases h
  | cons c text ih =>
    by_cases hstarts : needle <+: c :: text
    · rw [after?_of_starts hstarts] at h
      obtain ⟨tail, htail⟩ := hstarts
      rw [← htail, List.drop_left] at h
      obtain rfl := Option.some.inj h
      exact ⟨[], htail.symm⟩
    · rw [after?_cons_of_not_starts hstarts] at h
      obtain ⟨front, hfront⟩ := ih h
      exact ⟨c :: front, by rw [hfront, List.cons_append]⟩

theorem before?_of_starts {needle : List α} (h : needle <+: rest) :
    before? needle rest = some [] := by
  have hstarts : needle.isPrefixOf rest = true := List.isPrefixOf_iff_prefix.mpr h
  cases rest with
  | nil => simp [before?, hstarts]
  | cons c rest => rw [before?, if_pos hstarts]

theorem before?_cons_of_not_starts {needle : List α} {c : α} (h : ¬ needle <+: c :: rest) :
    before? needle (c :: rest) = (before? needle rest).map (c :: ·) := by
  rw [before?, if_neg (by rwa [List.isPrefixOf_iff_prefix])]

theorem before?_skip_text {needle : List α} (h : d ∉ a) :
    before? (d :: needle) (a ++ b) = (before? (d :: needle) b).map (a ++ ·) := by
  induction a with
  | nil => simp
  | cons c a ih =>
    have hne : c ≠ d := fun heq => h (heq ▸ List.mem_cons_self)
    rw [List.cons_append, before?_cons_of_not_starts (not_starts_of_ne hne),
      ih (fun hmem => h (List.mem_cons_of_mem _ hmem)), Option.map_map]
    rfl

/-- A needle whose last character does not occur is not found. -/
theorem after?_of_not_mem (h : e ∉ a) : after? (key ++ [e]) a = none := by
  have hno : ∀ {l : List α}, e ∉ l → ¬ key ++ [e] <+: l := fun hmem hstarts =>
    hmem (hstarts.subset (by simp))
  induction a with
  | nil =>
    rw [after?, if_neg]
    rw [List.isPrefixOf_iff_prefix]
    exact hno h
  | cons c rest ih =>
    rw [after?_cons_of_not_starts (hno h)]
    exact ih (fun hmem => h (List.mem_cons_of_mem _ hmem))

section Cut

variable (hkey : e ∉ key)
include hkey

omit [DecidableEq α] in
/-- An occurrence at the start of a text ends at its first equals sign. -/
theorem starts_append_iff (ha : e ∉ a) : key ++ [e] <+: a ++ e :: b ↔ key = a := by
  constructor
  · rintro ⟨tail, h⟩
    rw [List.append_assoc, List.singleton_append] at h
    induction key generalizing a with
    | nil =>
      cases a with
      | nil => rfl
      | cons c a =>
        simp only [List.nil_append, List.cons_append, List.cons.injEq] at h
        exact absurd (h.1 ▸ List.mem_cons_self) ha
    | cons k key ih =>
      cases a with
      | nil =>
        simp only [List.nil_append, List.cons_append, List.cons.injEq] at h
        exact absurd (h.1 ▸ List.mem_cons_self) hkey
      | cons c a =>
        simp only [List.cons_append, List.cons.injEq] at h
        obtain ⟨rfl, h⟩ := h
        rw [ih (fun hmem => hkey (List.mem_cons_of_mem _ hmem))
          (fun hmem => ha (List.mem_cons_of_mem _ hmem)) h]
  · rintro rfl
    exact ⟨b, by simp⟩

/-- **A search past an equals sign.** The needle ends at this sign or lies behind it. -/
theorem after?_append_equals (ha : e ∉ a) :
    after? (key ++ [e]) (a ++ e :: b) = if key <:+ a then some b else after? (key ++ [e]) b := by
  induction a with
  | nil =>
    by_cases hnil : key = []
    · subst hnil
      have hstarts : ([] : List α) ++ [e] <+: e :: b := ⟨b, rfl⟩
      rw [if_pos List.nil_suffix]
      exact after?_of_starts hstarts
    · have hstarts : ¬ key ++ [e] <+: [] ++ e :: b := by
        rw [starts_append_iff hkey (by simp)]
        exact hnil
      rw [if_neg (by rwa [List.suffix_nil])]
      exact after?_cons_of_not_starts hstarts
  | cons c a ih =>
    have hrest := ih (fun hmem => ha (List.mem_cons_of_mem _ hmem))
    by_cases heq : key = c :: a
    · have hstarts : key ++ [e] <+: c :: a ++ e :: b := (starts_append_iff hkey ha).mpr heq
      rw [after?_of_starts hstarts, if_pos (heq ▸ List.suffix_refl _), heq]
      congr 1
      simp
    · have hstarts : ¬ key ++ [e] <+: c :: (a ++ e :: b) := by
        rw [← List.cons_append, starts_append_iff hkey ha]
        exact heq
      rw [List.cons_append, after?_cons_of_not_starts hstarts, hrest]
      by_cases hsuffix : key <:+ a
      · rw [if_pos hsuffix, if_pos (hsuffix.trans (List.suffix_cons c a))]
      · rw [if_neg hsuffix, if_neg]
        intro hcons
        rcases List.suffix_cons_iff.mp hcons with hall | htail
        · exact heq hall
        · exact hsuffix htail

/-- The field is found at the first equals sign that has the key before it. -/
theorem after?_first (ha : e ∉ a) (hsuffix : key <:+ a) :
    after? (key ++ [e]) (a ++ e :: b) = some b := by
  rw [after?_append_equals hkey ha, if_pos hsuffix]

/-- A search steps over an equals sign that has another name before it. -/
theorem after?_skip (ha : e ∉ a) (hsuffix : ¬ key <:+ a) :
    after? (key ++ [e]) (a ++ e :: b) = after? (key ++ [e]) b := by
  rw [after?_append_equals hkey ha, if_neg hsuffix]

end Cut

/-- **A search past a value.** Where the needle is not found in the value, it is not found up to
the delimiter that ends it; where it is, what follows the value is part of the answer. -/
theorem after?_value (hdelimiter : d ∉ key) (hne : d ≠ e) (value : List α) :
    after? (key ++ [e]) (value ++ d :: b)
      = match after? (key ++ [e]) value with
        | some found => some (found ++ d :: b)
        | none => after? (key ++ [e]) (d :: b) := by
  induction value with
  | nil =>
    have hnone : after? (key ++ [e]) ([] : List α) = none := after?_of_not_mem (by simp)
    rw [hnone]
    rfl
  | cons c value ih =>
    by_cases hstarts : key ++ [e] <+: c :: value
    · have hlength := hstarts.length_le
      rw [after?_of_starts hstarts, after?_of_starts (hstarts.trans (List.prefix_append _ _)),
        List.drop_append_of_le_length hlength]
    · have hlonger : ¬ key ++ [e] <+: c :: (value ++ d :: b) := by
        intro hlong
        -- an occurrence that does not end within the value holds the delimiter
        rcases Nat.lt_or_ge (c :: value).length (key ++ [e]).length with hlt | hle
        · have hcut : c :: value ++ [d] <+: key ++ [e] := by
            refine @List.prefix_of_prefix_length_le _ _ _ (c :: value ++ d :: b) ?_ hlong ?_
            · exact ⟨b, by simp⟩
            · rw [List.length_append, List.length_singleton]
              exact hlt
          have hmem : d ∈ key ++ [e] := hcut.subset (by simp)
          rcases List.mem_append.mp hmem with hmem | hmem
          · exact hdelimiter hmem
          · exact hne (List.mem_singleton.mp hmem)
        · exact hstarts (List.prefix_of_prefix_length_le hlong
            (List.prefix_append (c :: value) (d :: b)) hle)
      rw [after?_cons_of_not_starts hstarts, List.cons_append, after?_cons_of_not_starts hlonger, ih]

omit [DecidableEq α] in
/-- A key without the delimiter does not reach over it. -/
theorem suffix_of_cut (hd : d ∉ key) (h : key <:+ a ++ d :: b) : key <:+ b := by
  rcases Nat.lt_or_ge b.length key.length with hlt | hle
  · have hcut : d :: b <:+ key :=
      List.suffix_of_suffix_length_le (List.suffix_append a (d :: b)) h hlt
    exact absurd (hcut.subset List.mem_cons_self) hd
  · exact List.suffix_of_suffix_length_le h
      ((List.suffix_cons d b).trans (List.suffix_append a (d :: b))) hle

end FieldSearch
