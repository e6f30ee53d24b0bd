import Mathlib.Data.List.Sort

/-!
# Numbered messages over a channel that keeps no order

A sender gives every message the next number. A receiver takes a message only under a number above
the last one it took. Whatever the channel does to the messages on their way, what is taken is then
a subsequence of what was sent, once no message is taken that was not sent.

## Results

* `Sent.send`, `Sent.skip`, `Sent.filter`, `Sent.map` — a log of numbered messages grows.
* `Taken.take` — so does the log of the receiver.
* `taken_sublist` — the receiver's log is a subsequence of the sender's.
* `nodup_labels` — labels that tell the numbers of two senders apart are never used twice.
-/

namespace NumberedChannel

variable {E F L : Type*} {number : E → ℕ}

/-- The log of a sender whose next number is `next`. -/
structure Sent (number : E → ℕ) (next : ℕ) (log : List E) : Prop where
  increasing : log.Pairwise (fun first second => number first < number second)
  below : ∀ entry ∈ log, number entry < next

/-- The log of a receiver that took the number `last` last. -/
structure Taken (number : E → ℕ) (last : ℕ) (log : List E) : Prop where
  increasing : log.Pairwise (fun first second => number first < number second)
  upTo : ∀ entry ∈ log, number entry ≤ last

/-- A log stays increasing under an entry above all of it. -/
theorem pairwise_concat {log : List E} {entry : E}
    (h : log.Pairwise (fun first second => number first < number second))
    (habove : ∀ other ∈ log, number other < number entry) :
    (log ++ [entry]).Pairwise (fun first second => number first < number second) := by
  rw [List.pairwise_append]
  refine ⟨h, List.pairwise_singleton _ _, ?_⟩
  intro other hother last hlast
  rw [List.mem_singleton] at hlast
  subst hlast
  exact habove other hother

--
-- The sender
--

namespace Sent

variable {next : ℕ} {log : List E}

theorem nil : Sent number next ([] : List E) :=
  ⟨List.Pairwise.nil, fun _ hentry => absurd hentry List.not_mem_nil⟩

theorem skip (h : Sent number next log) : Sent number (next + 1) log :=
  ⟨h.increasing, fun entry hentry => Nat.lt_succ_of_lt (h.below entry hentry)⟩

theorem send (h : Sent number next log) {entry : E} (hnumber : number entry = next) :
    Sent number (next + 1) (log ++ [entry]) := by
  refine ⟨pairwise_concat h.increasing fun other hother => ?_, ?_⟩
  · rw [hnumber]
    exact h.below other hother
  · intro other hother
    rcases List.mem_append.mp hother with hold | hnew
    · exact Nat.lt_succ_of_lt (h.below other hold)
    · rw [List.mem_singleton] at hnew
      rw [hnew, hnumber]
      exact Nat.lt_succ_self next

theorem filter (h : Sent number next log) (keep : E → Bool) :
    Sent number next (log.filter keep) :=
  ⟨h.increasing.sublist List.filter_sublist,
    fun entry hentry => h.below entry (List.mem_filter.mp hentry).1⟩

theorem map (h : Sent number next log) {number' : F → ℕ} {f : E → F}
    (hf : ∀ entry, number' (f entry) = number entry) : Sent number' next (log.map f) := by
  refine ⟨?_, ?_⟩
  · rw [List.pairwise_map]
    exact h.increasing.imp fun hlt => by rw [hf, hf]; exact hlt
  · intro entry hentry
    obtain ⟨source, hsource, rfl⟩ := List.mem_map.mp hentry
    rw [hf]
    exact h.below source hsource

end Sent

--
-- The receiver
--

namespace Taken

variable {last : ℕ} {log : List E}

theorem nil : Taken number last ([] : List E) :=
  ⟨List.Pairwise.nil, fun _ hentry => absurd hentry List.not_mem_nil⟩

theorem take (h : Taken number last log) {entry : E} (hlast : last < number entry) :
    Taken number (number entry) (log ++ [entry]) := by
  have habove : ∀ other ∈ log, number other < number entry :=
    fun other hother => Nat.lt_of_le_of_lt (h.upTo other hother) hlast
  refine ⟨pairwise_concat h.increasing habove, ?_⟩
  intro other hother
  rcases List.mem_append.mp hother with hold | hnew
  · exact Nat.le_of_lt (habove other hold)
  · rw [List.mem_singleton] at hnew
    rw [hnew]

end Taken

/-- **What is taken is a subsequence of what was sent**, when each message taken was sent. -/
theorem taken_sublist {next last : ℕ} {sent taken : List E} (hsent : Sent number next sent)
    (htaken : Taken number last taken) (hgenuine : taken ⊆ sent) : taken.Sublist sent := by
  have hirrefl : Std.Irrefl (fun first second : E => number first < number second) :=
    ⟨fun entry => Nat.lt_irrefl (number entry)⟩
  have hantisymm : Std.Antisymm (fun first second : E => number first < number second) :=
    ⟨fun _ _ hlt hgt => absurd hgt (Nat.lt_asymm hlt)⟩
  exact List.sublist_of_subperm_of_pairwise
    (List.subperm_of_subset htaken.increasing.nodup hgenuine) htaken.increasing hsent.increasing

--
-- Labels
--

/-- Labels that tell two numbers of one sender apart, and the two senders, repeat nowhere. -/
theorem nodup_labels {next next' : ℕ} {log log' : List E} (h : Sent number next log)
    (h' : Sent number next' log') (label : E → L)
    (hown : ∀ a ∈ log, ∀ b ∈ log, label a = label b → number a = number b)
    (hown' : ∀ a ∈ log', ∀ b ∈ log', label a = label b → number a = number b)
    (hapart : ∀ a ∈ log, ∀ b ∈ log', label a ≠ label b) : ((log ++ log').map label).Nodup := by
  rw [List.map_append, List.nodup_append]
  refine ⟨?_, ?_, ?_⟩
  · rw [List.Nodup, List.pairwise_map]
    refine h.increasing.imp_of_mem ?_
    intro a b ha hb hlt hlabel
    exact absurd (hown a ha b hb hlabel) (Nat.ne_of_lt hlt)
  · rw [List.Nodup, List.pairwise_map]
    refine h'.increasing.imp_of_mem ?_
    intro a b ha hb hlt hlabel
    exact absurd (hown' a ha b hb hlabel) (Nat.ne_of_lt hlt)
  · intro first hfirst second hsecond
    obtain ⟨a, ha, rfl⟩ := List.mem_map.mp hfirst
    obtain ⟨b, hb, rfl⟩ := List.mem_map.mp hsecond
    exact hapart a ha b hb

end NumberedChannel
