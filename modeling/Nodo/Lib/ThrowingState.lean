import Mathlib.Logic.Basic

/-!
# Methods that change an object and may throw

A method reads and writes the fields of an object and may throw half way; what it has
written by then stays written. `EStateM` is that: a run ends with a value or an error,
and in both cases with the state it leaves.

## Results

* `run_bind`, `run_refuseIf`, `run_call`, `run_get`, `run_set`, `run_modify` — running a method
  one step at a time.
* `ok_of_bind` — a sequence that returned, cut after its first step.
* `passed_refuseIf`, `passed_call`, `passed_get`, `passed_set`, `passed_modify` — the same
  for each kind of first step.
* `leaves_refuseIf`, `leaves_call`, `leaves_of_ok`, `leaves_bind` — what holds of the state that a
  sequence leaves, whether it returned or threw.
* `onThrow_bind` and its siblings — what holds of the state that a sequence leaves when it throws,
  one step at a time; `AtomicAt` — that state is the one before.
-/

namespace ThrowingState

variable {ε σ τ α β : Type}

/-- The state a run leaves, whether it returned or threw. -/
def left : EStateM.Result ε σ α → σ
  | .ok _ s => s
  | .error _ s => s

/-- A run that ends in the same way, with another state. -/
def withState (t : τ) : EStateM.Result ε σ α → EStateM.Result ε τ α
  | .ok a _ => .ok a t
  | .error e _ => .error e t

@[simp] theorem left_withState (t : τ) (r : EStateM.Result ε σ α) : left (withState t r) = t := by
  cases r <;> rfl

theorem withState_eq_ok {t s' : τ} {r : EStateM.Result ε σ α} {a : α} :
    withState t r = .ok a s' ↔ s' = t ∧ ∃ s, r = .ok a s := by
  cases r with
  | ok b s =>
    constructor
    · intro h
      cases h
      exact ⟨rfl, s, rfl⟩
    · rintro ⟨rfl, s, h⟩
      cases h
      rfl
  | error e s =>
    constructor
    · intro h
      cases h
    · rintro ⟨-, s, h⟩
      cases h

/-- `if (bad) throw e;`. -/
def refuseIf (bad : Bool) (e : ε) : EStateM ε σ Unit := if bad then throw e else pure ()

/-- A computation beside the state that may throw. -/
def call : Except ε α → EStateM ε σ α
  | .ok a => pure a
  | .error e => throw e

--
-- One step at a time
--

section Run

variable {s : σ}

theorem run_bind {x : EStateM ε σ α} {f : α → EStateM ε σ β} {a : α} {t : σ}
    (h : x s = .ok a t) : (x >>= f) s = f a t := by
  change EStateM.bind x f s = f a t
  unfold EStateM.bind
  rw [h]

theorem run_refuseIf {bad : Bool} {e : ε} {f : Unit → EStateM ε σ β} (h : bad = false) :
    (refuseIf bad e >>= f) s = f () s := by
  subst h
  rfl

theorem run_call {x : Except ε α} {f : α → EStateM ε σ β} {a : α} (h : x = .ok a) :
    (call x >>= f) s = f a s := by
  subst h
  rfl

theorem run_get {f : σ → EStateM ε σ β} : (get >>= f) s = f s s := rfl

theorem run_set {a : σ} {f : PUnit → EStateM ε σ β} : (set a >>= f) s = f ⟨⟩ a := rfl

theorem run_modify {g : σ → σ} {f : PUnit → EStateM ε σ β} : (modify g >>= f) s = f ⟨⟩ (g s) := rfl

end Run

--
-- Runs that return
--

theorem ok_of_bind {x : EStateM ε σ α} {f : α → EStateM ε σ β} {s s' : σ} {b : β}
    (h : (x >>= f) s = .ok b s') : ∃ a t, x s = .ok a t ∧ f a t = .ok b s' := by
  change EStateM.bind x f s = .ok b s' at h
  unfold EStateM.bind at h
  cases hx : x s with
  | ok a t =>
    rw [hx] at h
    exact ⟨a, t, rfl, h⟩
  | error e t =>
    rw [hx] at h
    cases h

theorem ok_of_refuseIf {bad : Bool} {e : ε} {s s' : σ} {u : Unit}
    (h : refuseIf bad e s = .ok u s') : bad = false ∧ s' = s := by
  cases bad with
  | false =>
    cases h
    exact ⟨rfl, rfl⟩
  | true => cases h

theorem ok_of_call {x : Except ε α} {a : α} {s s' : σ} (h : call x s = .ok a s') :
    x = .ok a ∧ s' = s := by
  cases x with
  | ok a' =>
    cases h
    exact ⟨rfl, rfl⟩
  | error e => cases h

theorem ok_of_set {a s s' : σ} {u : PUnit} (h : (set a : EStateM ε σ PUnit) s = .ok u s') :
    s' = a := by
  cases h
  rfl

theorem ok_of_modify {f : σ → σ} {s s' : σ} {u : PUnit}
    (h : (modify f : EStateM ε σ PUnit) s = .ok u s') : s' = f s := by
  cases h
  rfl

theorem ok_of_pure {a b : α} {s s' : σ} (h : (pure a : EStateM ε σ α) s = .ok b s') :
    b = a ∧ s' = s := by
  cases h
  exact ⟨rfl, rfl⟩

variable {s s' : σ} {b : β}

theorem passed_refuseIf {bad : Bool} {e : ε} {f : Unit → EStateM ε σ β}
    (h : (refuseIf bad e >>= f) s = .ok b s') : bad = false ∧ f () s = .ok b s' := by
  obtain ⟨u, t, hcheck, hrest⟩ := ok_of_bind h
  obtain ⟨hbad, rfl⟩ := ok_of_refuseIf hcheck
  exact ⟨hbad, hrest⟩

theorem passed_call {x : Except ε α} {f : α → EStateM ε σ β}
    (h : (call x >>= f) s = .ok b s') : ∃ a, x = .ok a ∧ f a s = .ok b s' := by
  obtain ⟨a, t, hcall, hrest⟩ := ok_of_bind h
  obtain ⟨hx, rfl⟩ := ok_of_call hcall
  exact ⟨a, hx, hrest⟩

theorem passed_get {f : σ → EStateM ε σ β} (h : (get >>= f) s = .ok b s') :
    f s s = .ok b s' := h

theorem passed_set {a : σ} {f : PUnit → EStateM ε σ β} (h : (set a >>= f) s = .ok b s') :
    f ⟨⟩ a = .ok b s' := h

theorem passed_modify {g : σ → σ} {f : PUnit → EStateM ε σ β}
    (h : (modify g >>= f) s = .ok b s') : f ⟨⟩ (g s) = .ok b s' := h

--
-- The state that is left
--

section Leaves

variable (P : σ → Prop) {s : σ}

/-- A sequence leaves `P` if its first step does when it throws, and the rest does otherwise. -/
theorem leaves_bind {x : EStateM ε σ α} {f : α → EStateM ε σ β}
    (hthrow : ∀ e t, x s = .error e t → P t) (hrest : ∀ a t, x s = .ok a t → P (left (f a t))) :
    P (left ((x >>= f) s)) := by
  change P (left (EStateM.bind x f s))
  unfold EStateM.bind
  cases hx : x s with
  | ok a t => exact hrest a t hx
  | error e t => exact hthrow e t hx

theorem leaves_of_ok {x : EStateM ε σ α} {f : α → EStateM ε σ β} {a : α} {t : σ}
    (h : x s = .ok a t) (hrest : P (left (f a t))) : P (left ((x >>= f) s)) := by
  rw [run_bind h]
  exact hrest

theorem leaves_refuseIf {bad : Bool} {e : ε} {f : Unit → EStateM ε σ β} (h : P s)
    (hrest : bad = false → P (left (f () s))) : P (left ((refuseIf bad e >>= f) s)) := by
  cases bad with
  | false => exact hrest rfl
  | true => exact h

theorem leaves_call {x : Except ε α} {f : α → EStateM ε σ β} (h : P s)
    (hrest : ∀ a, x = .ok a → P (left (f a s))) : P (left ((call x >>= f) s)) := by
  cases x with
  | ok a => exact hrest a rfl
  | error e => exact h

theorem leaves_get {f : σ → EStateM ε σ β} (h : P (left (f s s))) : P (left ((get >>= f) s)) := h

theorem leaves_set {a : σ} {f : PUnit → EStateM ε σ β} (h : P (left (f ⟨⟩ a))) :
    P (left ((set a >>= f) s)) := h

end Leaves

--
-- The state that an exception leaves
--

/-- If the method throws at `s`, it leaves `P`. -/
def OnThrow (P : σ → Prop) (x : EStateM ε σ α) (s : σ) : Prop :=
  ∀ e t, x s = .error e t → P t

section OnThrow

variable {P : σ → Prop} {s : σ}

theorem onThrow_of_ok {x : EStateM ε σ α} {a : α} {t : σ} (h : x s = .ok a t) :
    OnThrow P x s := by
  intro e left hthrow
  rw [h] at hthrow
  cases hthrow

theorem onThrow_of_error {x : EStateM ε σ α} {e : ε} {t : σ} (h : x s = .error e t) :
    OnThrow P x s ↔ P t := by
  constructor
  · exact fun hthrow => hthrow e t h
  · intro ht e' t' h'
    rw [h] at h'
    cases h'
    exact ht

theorem onThrow_bind {x : EStateM ε σ α} {f : α → EStateM ε σ β} :
    OnThrow P (x >>= f) s ↔
      OnThrow P x s ∧ ∀ a t, x s = .ok a t → OnThrow P (f a) t := by
  cases hx : x s with
  | ok a t =>
    have hrun : (x >>= f) s = f a t := run_bind hx
    constructor
    · intro h
      refine ⟨onThrow_of_ok hx, fun a' t' hsame e left hthrow => ?_⟩
      cases hsame
      exact h e left (hrun.trans hthrow)
    · rintro ⟨-, h⟩ e left hthrow
      exact h a t rfl e left (hrun.symm.trans hthrow)
  | error e t =>
    have hrun : (x >>= f) s = .error e t := by
      change EStateM.bind x f s = .error e t
      unfold EStateM.bind
      rw [hx]
    rw [onThrow_of_error hx, onThrow_of_error hrun]
    refine ⟨fun h => ⟨h, fun _ _ hsame => ?_⟩, fun h => h.1⟩
    cases hsame

theorem onThrow_bind_of_ok {x : EStateM ε σ α} {f : α → EStateM ε σ β} {a : α} {t : σ}
    (h : x s = .ok a t) : OnThrow P (x >>= f) s ↔ OnThrow P (f a) t := by
  unfold OnThrow
  rw [run_bind h]

theorem onThrow_bind_of_error {x : EStateM ε σ α} {f : α → EStateM ε σ β} {e : ε} {t : σ}
    (h : x s = .error e t) : OnThrow P (x >>= f) s ↔ P t := by
  rw [onThrow_bind, onThrow_of_error h]
  refine ⟨fun h => h.1, fun ht => ⟨ht, fun a t' hok => ?_⟩⟩
  rw [h] at hok
  cases hok

theorem onThrow_refuseIf {bad : Bool} {e : ε} {f : Unit → EStateM ε σ β} (h : P s) :
    OnThrow P (refuseIf bad e >>= f) s ↔ (bad = false → OnThrow P (f ()) s) := by
  cases bad with
  | false =>
    rw [onThrow_bind_of_ok (show refuseIf false e s = .ok () s from rfl)]
    exact ⟨fun hrest _ => hrest, fun hrest => hrest rfl⟩
  | true =>
    rw [onThrow_bind_of_error (show refuseIf true e s = .error e s from rfl)]
    refine ⟨fun _ hfalse => ?_, fun _ => h⟩
    cases hfalse

theorem onThrow_call {x : Except ε α} {f : α → EStateM ε σ β} (h : P s) :
    OnThrow P (call x >>= f) s ↔ ∀ a, x = .ok a → OnThrow P (f a) s := by
  cases x with
  | ok a =>
    rw [onThrow_bind_of_ok (show call (.ok a) s = .ok a s from rfl)]
    constructor
    · intro hrest a' hsame
      cases hsame
      exact hrest
    · exact fun hrest => hrest a rfl
  | error e =>
    rw [onThrow_bind_of_error (show call (.error e : Except ε α) s = .error e s from rfl)]
    refine ⟨fun _ a hsame => ?_, fun _ => h⟩
    cases hsame

theorem onThrow_get {f : σ → EStateM ε σ β} :
    OnThrow P (get >>= f) s ↔ OnThrow P (f s) s := onThrow_bind_of_ok rfl

theorem onThrow_set {a : σ} {f : PUnit → EStateM ε σ β} :
    OnThrow P (set a >>= f) s ↔ OnThrow P (f ⟨⟩) a := onThrow_bind_of_ok rfl

theorem onThrow_modify {g : σ → σ} {f : PUnit → EStateM ε σ β} :
    OnThrow P (modify g >>= f) s ↔ OnThrow P (f ⟨⟩) (g s) := onThrow_bind_of_ok rfl

/-- An exception at `s` leaves the state as it was. -/
def AtomicAt (x : EStateM ε σ α) (s : σ) : Prop := OnThrow (· = s) x s

theorem atomicAt_of_ok {x : EStateM ε σ α} {a : α} {t : σ} (h : x s = .ok a t) : AtomicAt x s :=
  onThrow_of_ok h

theorem atomicAt_of_error {x : EStateM ε σ α} {e : ε} {t : σ} (h : x s = .error e t) :
    AtomicAt x s ↔ t = s := onThrow_of_error h

theorem atomicAt_refuseIf {bad : Bool} {e : ε} {f : Unit → EStateM ε σ β} :
    AtomicAt (refuseIf bad e >>= f) s ↔ (bad = false → AtomicAt (f ()) s) := onThrow_refuseIf rfl

theorem atomicAt_call {x : Except ε α} {f : α → EStateM ε σ β} :
    AtomicAt (call x >>= f) s ↔ ∀ a, x = .ok a → AtomicAt (f a) s := onThrow_call rfl

theorem atomicAt_get {f : σ → EStateM ε σ β} :
    AtomicAt (get >>= f) s ↔ AtomicAt (f s) s := onThrow_get

end OnThrow

end ThrowingState
