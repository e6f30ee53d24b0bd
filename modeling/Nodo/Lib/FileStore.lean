import Mathlib.Logic.Function.Basic
import Mathlib.Data.List.Basic

/-!
# A directory with atomic files

A directory is a map from files to what they hold. A storage program reads it and
performs operations, each of them atomic on one file. A program that stops early has
performed a prefix of its operations, so what a stop can leave in a set of files is
decided by the operations on that set alone.

## Results

* `run_filter` — what a file holds depends on the operations on a set around it.
* `filter_take` — a stop leaves a prefix of the operations on a set.
* `Program.Quiet` — programs that leave a set of files alone, and their rules.
-/

namespace FileStore

variable {File : Type} {Contents : File → Type}

/-- What each file holds; `none` where it does not exist. -/
abbrev Directory {File : Type} (Contents : File → Type) := (file : File) → Option (Contents file)

inductive Operation {File : Type} (Contents : File → Type)
  | write (file : File) (contents : Contents file)
  | remove (file : File)

namespace Operation

def file : Operation Contents → File
  | write file _ => file
  | remove file => file

def apply [DecidableEq File] (directory : Directory Contents) : Operation Contents → Directory Contents
  | write file contents => Function.update directory file (some contents)
  | remove file => Function.update directory file none

theorem apply_of_ne [DecidableEq File] (directory : Directory Contents) (operation : Operation Contents)
    {file : File} (h : file ≠ operation.file) :
    operation.apply directory file = directory file := by
  cases operation with
  | write written contents => exact Function.update_of_ne h _ _
  | remove removed => exact Function.update_of_ne h _ _

end Operation

/-- The operations on a set of files. -/
def onFiles (marked : File → Bool) (operations : List (Operation Contents)) :
    List (Operation Contents) :=
  operations.filter (fun operation => marked operation.file)

theorem onFiles_append (marked : File → Bool) (first second : List (Operation Contents)) :
    onFiles marked (first ++ second) = onFiles marked first ++ onFiles marked second :=
  List.filter_append ..

/-- **A stop leaves a prefix** of the operations on a set of files. -/
theorem filter_take (marked : File → Bool) (operations : List (Operation Contents))
    (executed : Nat) :
    ∃ count, onFiles marked (operations.take executed)
      = (onFiles marked operations).take count := by
  refine ⟨(onFiles marked (operations.take executed)).length, ?_⟩
  have hsplit : onFiles marked operations = onFiles marked (operations.take executed) ++
      onFiles marked (operations.drop executed) := by
    rw [← onFiles_append, List.take_append_drop]
  rw [hsplit, List.take_left]

section Running

variable [DecidableEq File]

/-- The directory after some operations. -/
def run (operations : List (Operation Contents)) (directory : Directory Contents) :
    Directory Contents :=
  operations.foldl (fun current operation => operation.apply current) directory

/-- Directories that agree on a set still do after one operation. -/
theorem apply_congr {marked : File → Bool} {directory directory' : Directory Contents}
    (h : ∀ file, marked file = true → directory file = directory' file)
    (operation : Operation Contents) (file : File) (hfile : marked file = true) :
    operation.apply directory file = operation.apply directory' file := by
  by_cases hsame : file = operation.file
  · subst hsame
    cases operation with
    | write written contents => simp [Operation.apply, Operation.file]
    | remove removed => simp [Operation.apply, Operation.file]
  · rw [Operation.apply_of_ne _ _ hsame, Operation.apply_of_ne _ _ hsame]
    exact h file hfile

/-- What a set of files holds depends on the operations on that set only. -/
theorem run_filter (marked : File → Bool) (operations : List (Operation Contents))
    {directory directory' : Directory Contents}
    (h : ∀ file, marked file = true → directory file = directory' file)
    {file : File} (hfile : marked file = true) :
    run operations directory file = run (onFiles marked operations) directory' file := by
  induction operations generalizing directory directory' with
  | nil => exact h file hfile
  | cons operation rest ih =>
    by_cases hop : marked operation.file = true
    · have hcons : onFiles marked (operation :: rest) = operation :: onFiles marked rest :=
        List.filter_cons_of_pos hop
      rw [hcons]
      exact ih (apply_congr h operation)
    · have hcons : onFiles marked (operation :: rest) = onFiles marked rest :=
        List.filter_cons_of_neg hop
      rw [hcons]
      refine ih (fun other hother => ?_)
      have hne : other ≠ operation.file := by
        rintro rfl
        exact hop hother
      exact (Operation.apply_of_ne _ _ hne).trans (h other hother)

end Running

--
-- Programs
--

/-- The operations a program performs in a directory and what it returns. -/
def Program {File : Type} (Contents : File → Type) (ε α : Type) :=
  Directory Contents → List (Operation Contents) × Except ε α

namespace Program

variable {ε ε' α β : Type}

def return_ (a : α) : Program Contents ε α := fun _ => ([], .ok a)

def perform (operation : Operation Contents) : Program Contents ε Unit :=
  fun _ => ([operation], .ok ())

def performAll (operations : List (Operation Contents)) : Program Contents ε Unit :=
  fun _ => (operations, .ok ())

def read (file : File) : Program Contents ε (Option (Contents file)) :=
  fun directory => ([], .ok (directory file))

def reject (e : ε) : Program Contents ε α := fun _ => ([], .error e)

def mapError (f : ε → ε') (program : Program Contents ε α) : Program Contents ε' α :=
  fun directory => ((program directory).1, (program directory).2.mapError f)

/-- Reject unless a check passes. -/
def require (check : Bool) (e : ε) : Program Contents ε Unit :=
  if check then return_ () else reject e

/-- The program performs no operation on a set of files. -/
def Quiet (marked : File → Bool) (program : Program Contents ε α) : Prop :=
  ∀ directory, onFiles marked (program directory).1 = []

variable {marked : File → Bool}

theorem quiet_reject (e : ε) : Quiet marked (reject e : Program Contents ε α) := fun _ => rfl

theorem quiet_read (file : File) :
    Quiet marked (read file : Program Contents ε (Option (Contents file))) := fun _ => rfl

theorem quiet_perform {operation : Operation Contents} (h : marked operation.file = false) :
    Quiet marked (perform operation : Program Contents ε Unit) := by
  intro directory
  simp [perform, onFiles, h]

theorem quiet_performAll {operations : List (Operation Contents)}
    (h : ∀ operation ∈ operations, marked operation.file = false) :
    Quiet marked (performAll operations : Program Contents ε Unit) := by
  intro directory
  simpa [performAll, onFiles, List.filter_eq_nil_iff] using h

theorem quiet_mapError {program : Program Contents ε α} (f : ε → ε') (h : Quiet marked program) :
    Quiet marked (program.mapError f) := h

theorem quiet_require (check : Bool) (e : ε) :
    Quiet marked (require check e : Program Contents ε Unit) := by
  intro directory
  cases check <;> rfl

theorem true_of_require {check : Bool} {e : ε} {directory : Directory Contents} {u : Unit}
    (h : (require check e directory : _ × Except ε Unit).2 = .ok u) : check = true := by
  cases check with
  | false => cases h
  | true => rfl

theorem quiet_ite {c : Prop} [Decidable c] {yes no : Program Contents ε α}
    (hyes : Quiet marked yes) (hno : Quiet marked no) :
    Quiet marked (if c then yes else no) := by
  split
  · exact hyes
  · exact hno

/-- The program fails before it performs an operation on the set, or it performs the
operations of a given form on it. -/
def Marks (marked : File → Bool) (form : List (Operation Contents) → Prop)
    (program : Program Contents ε α) : Prop :=
  ∀ directory,
    (onFiles marked (program directory).1 = [] ∧ ∃ e, (program directory).2 = .error e) ∨
      form (onFiles marked (program directory).1)

variable {form : List (Operation Contents) → Prop}

theorem marks_reject (e : ε) : Marks marked form (reject e : Program Contents ε α) :=
  fun _ => Or.inl ⟨rfl, e, rfl⟩

theorem marks_mapError {program : Program Contents ε α} (f : ε → ε')
    (h : Marks marked form program) : Marks marked form (program.mapError f) := by
  intro directory
  rcases h directory with ⟨hops, e, he⟩ | hform
  · refine Or.inl ⟨hops, f e, ?_⟩
    show (program directory).2.mapError f = _
    rw [he]
    rfl
  · exact Or.inr hform

section Sequencing

variable [DecidableEq File]

/-- The second program sees the directory the first one left. -/
def andThen (program : Program Contents ε α) (next : α → Program Contents ε β) :
    Program Contents ε β := fun directory =>
  match program directory with
  | (operations, .error e) => (operations, .error e)
  | (operations, .ok a) =>
    (operations ++ (next a (run operations directory)).1, (next a (run operations directory)).2)

instance : Monad (Program Contents ε) where
  pure := return_
  bind := andThen

theorem quiet_pure (a : α) : Quiet marked (pure a : Program Contents ε α) := fun _ => rfl

theorem quiet_bind {program : Program Contents ε α} {next : α → Program Contents ε β}
    (hfirst : Quiet marked program) (hnext : ∀ a, Quiet marked (next a)) :
    Quiet marked (program >>= next) := by
  intro directory
  show onFiles marked (andThen program next directory).1 = []
  have hops := hfirst directory
  unfold andThen
  rcases hprogram : program directory with ⟨operations, e | a⟩
  · rw [hprogram] at hops
    exact hops
  · rw [hprogram] at hops
    simp only [onFiles_append, hops, List.nil_append]
    exact hnext a _

/-- A quiet program before one of the given form. -/
theorem marks_bind {program : Program Contents ε α} {next : α → Program Contents ε β}
    (hfirst : Quiet marked program) (hnext : ∀ a, Marks marked form (next a)) :
    Marks marked form (program >>= next) := by
  intro directory
  show (onFiles marked (andThen program next directory).1 = [] ∧
    ∃ e, (andThen program next directory).2 = .error e) ∨
      form (onFiles marked (andThen program next directory).1)
  have hops := hfirst directory
  unfold andThen
  rcases hprogram : program directory with ⟨operations, e | a⟩
  · rw [hprogram] at hops
    exact Or.inl ⟨hops, e, rfl⟩
  · rw [hprogram] at hops
    simp only [onFiles_append, hops, List.nil_append]
    exact hnext a _

/-- A program of the given form before a quiet one. -/
theorem marks_bind_quiet {program : Program Contents ε α} {next : α → Program Contents ε β}
    (hfirst : Marks marked form program) (hnext : ∀ a, Quiet marked (next a)) :
    Marks marked form (program >>= next) := by
  intro directory
  show (onFiles marked (andThen program next directory).1 = [] ∧
    ∃ e, (andThen program next directory).2 = .error e) ∨
      form (onFiles marked (andThen program next directory).1)
  have hmarks := hfirst directory
  unfold andThen
  rcases hprogram : program directory with ⟨operations, e | a⟩
  · rw [hprogram] at hmarks
    rcases hmarks with hfailed | hform
    · exact Or.inl ⟨hfailed.1, e, rfl⟩
    · exact Or.inr hform
  · rw [hprogram] at hmarks
    rcases hmarks with ⟨-, e, he⟩ | hform
    · cases he
    · refine Or.inr ?_
      simp only [onFiles_append, hnext a _, List.append_nil]
      exact hform

/-- A sequence that returns has returned from both parts. -/
theorem ok_of_bind {program : Program Contents ε α} {next : α → Program Contents ε β}
    {directory : Directory Contents} {b : β} (h : ((program >>= next) directory).2 = .ok b) :
    ∃ a, (program directory).2 = .ok a ∧
      (next a (run (program directory).1 directory)).2 = .ok b := by
  change (andThen program next directory).2 = .ok b at h
  unfold andThen at h
  rcases hprogram : program directory with ⟨operations, e | a⟩
  · rw [hprogram] at h
    cases h
  · rw [hprogram] at h
    exact ⟨a, rfl, h⟩

/-- A quiet program leaves every file of the set as it was. -/
theorem Quiet.run_eq {program : Program Contents ε α} (h : Quiet marked program)
    (directory : Directory Contents) {file : File} (hfile : marked file = true) :
    run (program directory).1 directory file = directory file := by
  rw [run_filter marked _ (fun _ _ => rfl) hfile, h directory]
  rfl

end Sequencing

end Program

end FileStore
