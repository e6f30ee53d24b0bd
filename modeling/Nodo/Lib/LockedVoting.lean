import Nodo.Lib.Quorum

/-!
# Two-phase voting with locks

Voters of a weighted universe prevote and precommit values in numbered rounds.
A log lists the votes of the correct voters, latest first; faulty voters are not
logged, so a quorum is a set of voters whose correct members are in the log.
A correct voter precommits only what a quorum has prevoted in the round, and
after a precommit it prevotes another value only if a quorum has prevoted that
value in a round at least as high.

Nothing orders the rounds of different voters, and the round that excuses a
prevote may be above its own; the argument goes by the order of the log.

## Results

* `Lawful.prevoted_unique` — one value a round has a prevote quorum.
* `Lawful.no_rival_prevote` — after a precommit quorum its correct members
  prevote nothing else in later rounds.
* `Lawful.agreement` — two precommit quorums are for one value.
-/

namespace LockedVoting

variable {α β : Type*}

/-- A vote of a correct voter. -/
inductive Event (α β : Type*)
  | prevote (voter : α) (round : Nat) (value : β)
  | precommit (voter : α) (round : Nat) (value : β)

/-- The voters, their weights, and the faulty ones among them. -/
structure Electorate (α : Type*) where
  w : α → Nat
  U : Finset α
  F : Finset α

namespace Electorate

variable (E : Electorate α)

/-- A quorum has prevoted `value` in `round`. -/
def Prevoted (log : List (Event α β)) (round : Nat) (value : β) : Prop :=
  ∃ S, Quorum.IsQuorum E.w E.U S ∧ ∀ a ∈ S, a ∉ E.F → Event.prevote a round value ∈ log

/-- A quorum has precommitted `value` in `round`. -/
def Precommitted (log : List (Event α β)) (round : Nat) (value : β) : Prop :=
  ∃ S, Quorum.IsQuorum E.w E.U S ∧ ∀ a ∈ S, a ∉ E.F → Event.precommit a round value ∈ log

/-- What a correct voter may add to the log. -/
def Admits (past : List (Event α β)) : Event α β → Prop
  | .prevote voter round value =>
    (∀ value', Event.prevote voter round value' ∈ past → value' = value) ∧
    ∀ round' value', Event.precommit voter round' value' ∈ past →
      ∃ excuse ≥ round', E.Prevoted past excuse value
  | .precommit voter round value =>
    E.Prevoted past round value ∧
    ∀ round' value', Event.prevote voter round' value' ∈ past → round' ≤ round

/-- Logs of correct voters, latest vote first. -/
inductive Lawful : List (Event α β) → Prop
  | nil : Lawful []
  | cons {past : List (Event α β)} {event : Event α β} (hpast : Lawful past)
      (hadmits : E.Admits past event) : Lawful (event :: past)

variable {E}

theorem Prevoted.mono {log log' : List (Event α β)} {round : Nat} {value : β}
    (h : E.Prevoted log round value) (hsub : ∀ event ∈ log, event ∈ log') :
    E.Prevoted log' round value := by
  obtain ⟨S, hS, hall⟩ := h
  exact ⟨S, hS, fun a ha hcorrect => hsub _ (hall a ha hcorrect)⟩

theorem Precommitted.mono {log log' : List (Event α β)} {round : Nat} {value : β}
    (h : E.Precommitted log round value) (hsub : ∀ event ∈ log, event ∈ log') :
    E.Precommitted log' round value := by
  obtain ⟨S, hS, hall⟩ := h
  exact ⟨S, hS, fun a ha hcorrect => hsub _ (hall a ha hcorrect)⟩

namespace Lawful

variable {log : List (Event α β)}

/-- A suffix of a log is an earlier log. -/
theorem suffix (h : E.Lawful log) {past : List (Event α β)} (hsuffix : past <:+ log) :
    E.Lawful past := by
  induction h with
  | nil =>
    rw [List.suffix_nil.mp hsuffix]
    exact Lawful.nil
  | cons hpast hadmits ih =>
    rcases List.suffix_cons_iff.mp hsuffix with rfl | hearlier
    · exact Lawful.cons hpast hadmits
    · exact ih hearlier

/-- Every event was admitted by what came before it. -/
theorem admitted (h : E.Lawful log) {past : List (Event α β)} {event : Event α β}
    (hsuffix : event :: past <:+ log) : E.Admits past event := by
  cases h.suffix hsuffix with
  | cons _ hadmits => exact hadmits

/-- One prevote a round. -/
theorem prevote_unique (h : E.Lawful log) {voter : α} {round : Nat} {value value' : β}
    (hin : Event.prevote voter round value ∈ log) (hin' : Event.prevote voter round value' ∈ log) :
    value = value' := by
  induction h with
  | nil => cases hin
  | cons hpast hadmits ih =>
    rcases List.mem_cons.mp hin with rfl | hold
    · rcases List.mem_cons.mp hin' with heq | hold'
      · cases heq
        rfl
      · exact (hadmits.1 value' hold').symm
    · rcases List.mem_cons.mp hin' with rfl | hold'
      · exact hadmits.1 value hold
      · exact ih hold hold'

/-- A precommitted value has a prevote quorum. -/
theorem prevoted_of_precommit (h : E.Lawful log) {voter : α} {round : Nat} {value : β}
    (hin : Event.precommit voter round value ∈ log) : E.Prevoted log round value := by
  obtain ⟨later, past, rfl⟩ := List.append_of_mem hin
  have hadmits := h.admitted (List.suffix_append later _)
  refine hadmits.1.mono (fun event hevent => ?_)
  exact List.mem_append_right _ (List.mem_cons_of_mem _ hevent)

/-- A precommit comes before the same voter's prevotes of later rounds. -/
theorem precommit_before (h : E.Lawful log) {voter : α} {round round' : Nat} {value value' : β}
    {past : List (Event α β)} (hsuffix : Event.prevote voter round' value' :: past <:+ log)
    (hin : Event.precommit voter round value ∈ log) (hlt : round < round') :
    Event.precommit voter round value ∈ past := by
  obtain ⟨later, rfl⟩ := hsuffix
  rcases List.mem_append.mp hin with hlater | hearlier
  · -- a later precommit would have to be of a round at least as high
    obtain ⟨last, between, rfl⟩ := List.append_of_mem hlater
    rw [List.append_assoc, List.cons_append] at h
    have hadmits := h.admitted (List.suffix_append last _)
    have hle := hadmits.2 round' value' (List.mem_append_right _ List.mem_cons_self)
    omega
  · rcases List.mem_cons.mp hearlier with heq | hpast
    · cases heq
    · exact hpast

section Bounded

variable [DecidableEq α] (hF : 3 * Quorum.weight E.w (E.F ∩ E.U) < Quorum.weight E.w E.U)

include hF

/-- One value a round has a prevote quorum. -/
theorem prevoted_unique (h : E.Lawful log) {round : Nat} {value value' : β}
    (hvalue : E.Prevoted log round value) (hvalue' : E.Prevoted log round value') :
    value = value' := by
  obtain ⟨S, hS, hall⟩ := hvalue
  obtain ⟨S', hS', hall'⟩ := hvalue'
  obtain ⟨a, ha, ha', -, hcorrect⟩ := Quorum.exists_correct_of_quorums hF hS hS'
  exact h.prevote_unique (hall a ha hcorrect) (hall' a ha' hcorrect)

/-- A precommit quorum has a correct member, so the value has a prevote quorum. -/
theorem prevoted_of_precommitted (h : E.Lawful log) {round : Nat} {value : β}
    (hvalue : E.Precommitted log round value) : E.Prevoted log round value := by
  obtain ⟨S, hS, hall⟩ := hvalue
  obtain ⟨a, ha, -, -, hcorrect⟩ := Quorum.exists_correct_of_quorums hF hS hS
  exact h.prevoted_of_precommit (hall a ha hcorrect)

/-- **Key lemma.** Once `value` is to have a precommit quorum in `round`, the
correct members of that quorum prevote nothing else in later rounds. -/
theorem no_rival_prevote (h : E.Lawful log) {round : Nat} {value : β} {S : Finset α}
    (hS : Quorum.IsQuorum E.w E.U S)
    (hall : ∀ a ∈ S, a ∉ E.F → Event.precommit a round value ∈ log) {past : List (Event α β)}
    (hsuffix : past <:+ log) {a : α} (ha : a ∈ S) (hcorrect : a ∉ E.F) {round' : Nat}
    (hlater : round < round') {value' : β} (hin : Event.prevote a round' value' ∈ past) :
    value' = value := by
  have hpolka : E.Prevoted log round value := h.prevoted_of_precommit (hall a ha hcorrect)
  -- by induction on the log: the excuse of a rival prevote needs an earlier one
  induction past generalizing a round' value' with
  | nil => cases hin
  | cons event past ih =>
    have hearlier : past <:+ log := (List.suffix_cons event past).trans hsuffix
    rcases List.mem_cons.mp hin with rfl | hold
    · have hlocked := h.precommit_before hsuffix (hall a ha hcorrect) hlater
      obtain ⟨excuse, hge, hexcuse⟩ := (h.admitted hsuffix).2 round value hlocked
      have hsub : ∀ event ∈ past, event ∈ log := fun event hevent => hearlier.subset hevent
      rcases Nat.eq_or_lt_of_le hge with rfl | hgt
      · exact h.prevoted_unique hF (hexcuse.mono hsub) hpolka
      · obtain ⟨T, hT, hprevoted⟩ := hexcuse
        obtain ⟨b, hb, hb', -, hcorrect'⟩ := Quorum.exists_correct_of_quorums hF hS hT
        exact ih hearlier hb hcorrect' hgt (hprevoted b hb' hcorrect')
    · exact ih hearlier ha hcorrect hlater hold

/-- **Agreement.** Two precommit quorums, of whatever rounds, are for one value. -/
theorem agreement (h : E.Lawful log) {round round' : Nat} {value value' : β}
    (hvalue : E.Precommitted log round value) (hvalue' : E.Precommitted log round' value') :
    value = value' := by
  -- a later quorum agrees with an earlier one
  have hordered : ∀ {r r' : Nat} {v v' : β}, r < r' → E.Precommitted log r v →
      E.Precommitted log r' v' → v' = v := by
    intro r r' v v' hlt hv hv'
    obtain ⟨S, hS, hall⟩ := hv
    obtain ⟨T, hT, hprevoted⟩ := h.prevoted_of_precommitted hF hv'
    obtain ⟨a, ha, ha', -, hcorrect⟩ := Quorum.exists_correct_of_quorums hF hS hT
    exact h.no_rival_prevote hF hS hall List.suffix_rfl ha hcorrect hlt
      (hprevoted a ha' hcorrect)
  rcases Nat.lt_trichotomy round round' with hlt | rfl | hgt
  · exact (hordered hlt hvalue hvalue').symm
  · exact h.prevoted_unique hF (h.prevoted_of_precommitted hF hvalue)
      (h.prevoted_of_precommitted hF hvalue')
  · exact hordered hgt hvalue' hvalue

end Bounded

end Lawful

end Electorate

end LockedVoting
