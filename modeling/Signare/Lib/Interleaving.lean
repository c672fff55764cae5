import Signare.Lib.Program
import Mathlib.Logic.Function.Basic
import Mathlib.Logic.Relation

/-!
# Interleaved programs

Any number of programs run over a shared state, one call at a time in any order. What a program
does between its calls is its own: what can be said about it, whatever the others do, is said by
`Program.Meets`.
-/

namespace Interleaving

variable {ι σ Λ S ε α : Type} {ρ : σ → Type}

/-- A program under way: what it has left to do, what it holds of its own and what it has done. -/
structure Thread (σ : Type) (ρ : σ → Type) (ε α Λ : Type) where
  program : Program σ ρ ε α
  session : Λ
  history : List (Program.Event ρ)

structure Config (ι σ : Type) (ρ : σ → Type) (ε α Λ S : Type) where
  shared : S
  threads : ι → Thread σ ρ ε α Λ

/-- The programs at their beginning. -/
def Config.start (session : Λ) (programs : ι → Program σ ρ ε α) (shared : S) :
    Config ι σ ρ ε α Λ S :=
  ⟨shared, fun i => ⟨programs i, session, []⟩⟩

def Thread.Finished (t : Thread σ ρ ε α Λ) : Prop := ∃ result, t.program = .done result

/-- All programs have ended. -/
def Config.Finished (c : Config ι σ ρ ε α Λ S) : Prop := ∀ i, (c.threads i).Finished

instance (t : Thread σ ρ ε α Λ) : Decidable t.Finished :=
  match h : t.program with
  | .done result => isTrue ⟨result, h⟩
  | .call .. => isFalse fun ⟨_, hresult⟩ => nomatch h.symm.trans hresult

theorem Thread.not_finished_of_call {t : Thread σ ρ ε α Λ} {s : σ}
    {next : ρ s → Program σ ρ ε α} (h : t.program = .call s next) : ¬ t.Finished := by
  rintro ⟨result, hresult⟩
  rw [h] at hresult
  cases hresult

variable [DecidableEq ι]

/-- The configuration after thread `i` has been given the answer `r` to its call `s`. -/
def Config.after (c : Config ι σ ρ ε α Λ S) (i : ι) (s : σ) (next : ρ s → Program σ ρ ε α)
    (r : ρ s) (session : Λ) (shared : S) : Config ι σ ρ ε α Λ S :=
  ⟨shared, Function.update c.threads i
    ⟨next r, session, (c.threads i).history ++ [⟨s, r⟩]⟩⟩

/-- What the environment may answer to a call of a thread, and what it leaves behind. -/
abbrev Environment (ι σ : Type) (ρ : σ → Type) (ε α Λ S : Type) :=
  Config ι σ ρ ε α Λ S → ι → (s : σ) → ρ s → Λ → S → Prop

inductive Step (act : Environment ι σ ρ ε α Λ S) :
    Config ι σ ρ ε α Λ S → Config ι σ ρ ε α Λ S → Prop
  | call {c : Config ι σ ρ ε α Λ S} (i : ι) {s : σ} {next : ρ s → Program σ ρ ε α}
      {r : ρ s} {session : Λ} {shared : S} (hprogram : (c.threads i).program = .call s next)
      (hact : act c i s r session shared) : Step act c (c.after i s next r session shared)

/-- Any number of steps. -/
abbrev Run (act : Environment ι σ ρ ε α Λ S) := Relation.ReflTransGen (Step act)

/-- Every thread keeps to what its calls are allowed to be. -/
def Config.Meets (allowed : ι → List (Program.Event ρ) → σ → Prop)
    (expected : ι → Except ε α → List (Program.Event ρ) → Prop)
    (c : Config ι σ ρ ε α Λ S) : Prop :=
  ∀ i, (c.threads i).program.Meets (allowed i) (expected i) (c.threads i).history

section Rules

variable {act : Environment ι σ ρ ε α Λ S} {c c' : Config ι σ ρ ε α Λ S}
  {allowed : ι → List (Program.Event ρ) → σ → Prop}
  {expected : ι → Except ε α → List (Program.Event ρ) → Prop}

@[simp] theorem Config.after_shared (i : ι) (s : σ) (next : ρ s → Program σ ρ ε α)
    (r : ρ s) (session : Λ) (shared : S) :
    (c.after i s next r session shared).shared = shared := rfl

@[simp] theorem Config.after_threads_self (i : ι) (s : σ) (next : ρ s → Program σ ρ ε α)
    (r : ρ s) (session : Λ) (shared : S) :
    (c.after i s next r session shared).threads i =
      ⟨next r, session, (c.threads i).history ++ [⟨s, r⟩]⟩ :=
  Function.update_self ..

@[simp] theorem Config.after_threads_of_ne {i j : ι} (h : j ≠ i) (s : σ)
    (next : ρ s → Program σ ρ ε α) (r : ρ s) (session : Λ) (shared : S) :
    (c.after i s next r session shared).threads j = c.threads j :=
  Function.update_of_ne h ..

theorem Config.Meets.step (h : c.Meets allowed expected) (hstep : Step act c c') :
    c'.Meets allowed expected := by
  cases hstep with
  | @call i s next r session shared hprogram hact =>
    intro j
    by_cases hj : j = i
    · subst hj
      have hi := h j
      rw [hprogram, Program.meets_call] at hi
      simpa using hi.2 r
    · simpa [hj] using h j

theorem Run.mono {act' : Environment ι σ ρ ε α Λ S} (hrun : Run act c c')
    (h : ∀ c i s r session shared, act c i s r session shared → act' c i s r session shared) :
    Run act' c c' := by
  induction hrun with
  | refl => exact .refl
  | tail _ hlast ih =>
    cases hlast with
    | call i hprogram hact => exact ih.tail (.call i hprogram (h _ _ _ _ _ _ hact))

/-- What is true at the start, and kept by every call that a thread is allowed to make, is true
throughout. -/
theorem Run.invariant {inv : Config ι σ ρ ε α Λ S → Prop} (hrun : Run act c c')
    (hmeets : c.Meets allowed expected) (hstart : inv c)
    (hstep : ∀ (c : Config ι σ ρ ε α Λ S) (i : ι) (s : σ) (next : ρ s → Program σ ρ ε α) (r : ρ s)
      (session : Λ) (shared : S), c.Meets allowed expected → inv c →
      (c.threads i).program = .call s next → allowed i (c.threads i).history s →
      act c i s r session shared → inv (c.after i s next r session shared)) :
    inv c' ∧ c'.Meets allowed expected := by
  induction hrun with
  | refl => exact ⟨hstart, hmeets⟩
  | tail _ hlast ih =>
    refine ⟨?_, ih.2.step hlast⟩
    cases hlast with
    | @call i s next r session shared hprogram hact =>
      have hi := ih.2 i
      rw [hprogram, Program.meets_call] at hi
      exact hstep _ i s next r session shared ih.2 ih.1 hprogram hi.1 hact

/-- A call of a thread: what the thread held when it made it, and the answer. -/
structure Moment (ι : Type) {σ : Type} (ρ : σ → Type) (Λ : Type) where
  thread : ι
  session : Λ
  event : Program.Event ρ

/-- Any number of steps, with the calls in the order they were made. -/
inductive Steps (act : Environment ι σ ρ ε α Λ S) (c : Config ι σ ρ ε α Λ S) :
    List (Moment ι ρ Λ) → Config ι σ ρ ε α Λ S → Prop
  | refl : Steps act c [] c
  | tail {log : List (Moment ι ρ Λ)} {c' : Config ι σ ρ ε α Λ S} (hsteps : Steps act c log c')
      (i : ι) {s : σ} {next : ρ s → Program σ ρ ε α} {r : ρ s} {session : Λ} {shared : S}
      (hprogram : (c'.threads i).program = .call s next)
      (hact : act c' i s r session shared) :
      Steps act c (log ++ [⟨i, (c'.threads i).session, ⟨s, r⟩⟩])
        (c'.after i s next r session shared)

section Steps

variable {log : List (Moment ι ρ Λ)}

theorem Steps.run (h : Steps act c log c') : Run act c c' := by
  induction h with
  | refl => exact .refl
  | tail _ i hprogram hact ih => exact ih.tail (.call i hprogram hact)

theorem Run.steps (h : Run act c c') : ∃ log, Steps act c log c' := by
  induction h with
  | refl => exact ⟨[], .refl⟩
  | tail _ hlast ih =>
    obtain ⟨log, hsteps⟩ := ih
    cases hlast with
    | call i hprogram hact => exact ⟨_, hsteps.tail i hprogram hact⟩

/-- `Run.invariant`, for what is also about the calls that were made. -/
theorem Steps.invariant {inv : List (Moment ι ρ Λ) → Config ι σ ρ ε α Λ S → Prop}
    (hsteps : Steps act c log c') (hmeets : c.Meets allowed expected) (hstart : inv [] c)
    (hstep : ∀ (log : List (Moment ι ρ Λ)) (c : Config ι σ ρ ε α Λ S) (i : ι) (s : σ)
      (next : ρ s → Program σ ρ ε α) (r : ρ s) (session : Λ) (shared : S), inv log c →
      (c.threads i).program = .call s next → allowed i (c.threads i).history s →
      act c i s r session shared →
      inv (log ++ [⟨i, (c.threads i).session, ⟨s, r⟩⟩]) (c.after i s next r session shared)) :
    inv log c' ∧ c'.Meets allowed expected := by
  induction hsteps with
  | refl => exact ⟨hstart, hmeets⟩
  | @tail log c' _ i s next r session shared hprogram hact ih =>
    have hi := ih.2 i
    rw [hprogram, Program.meets_call] at hi
    exact ⟨hstep log c' i s next r session shared ih.1 hprogram hi.1 hact,
      ih.2.step (.call i hprogram hact)⟩

end Steps

variable (answer : (s : σ) → S → ρ s × S)

/-- The next call of a thread, by a handler that answers the calls of all. -/
def Config.next (c : Config ι σ ρ ε α Λ S) (i : ι) : Config ι σ ρ ε α Λ S :=
  match (c.threads i).program with
  | .done _ => c
  | .call s next => c.after i s next (answer s c.shared).1 (c.threads i).session
      (answer s c.shared).2

/-- The threads are given their turns in order. -/
def Config.follow (c : Config ι σ ρ ε α Λ S) (schedule : List ι) : Config ι σ ρ ε α Λ S :=
  schedule.foldl (fun c i => c.next answer i) c

theorem run_follow
    (hact : ∀ (c : Config ι σ ρ ε α Λ S) (i : ι) (s : σ),
      act c i s (answer s c.shared).1 (c.threads i).session (answer s c.shared).2)
    (c : Config ι σ ρ ε α Λ S) (schedule : List ι) : Run act c (c.follow answer schedule) := by
  induction schedule generalizing c with
  | nil => exact .refl
  | cons i schedule ih =>
    have hnext : Run act c (c.next answer i) := by
      unfold Config.next
      split
      · exact .refl
      · rename_i s next hprogram
        exact .single (.call i hprogram (hact c i s))
    exact hnext.trans (ih (c.next answer i))

end Rules

end Interleaving
