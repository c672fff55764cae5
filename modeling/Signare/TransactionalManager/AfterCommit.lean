import Signare.TransactionalManager.Nested

/-!
# Callbacks after the commit

The callbacks that were registered during a transaction run after its commit, in the order of their
registration, and in no other case.
-/

namespace Signare

variable {ω ρ : Type}

def Event.ranCallback : Event ρ → Option Callback
  | .ran callback => some callback
  | _ => none

/-- What is promised about the callbacks of one outermost call. -/
structure OutermostCall.CallbacksFire (driver : Driver) (call : OutermostCall ω ρ)
    (w : World ω ρ) : Prop where
  commits : .committed w.started ∈ call.events driver w ↔
    (∃ response failure,
      .ended false (.returned response none) failure ∈ call.events driver w) ∧
    driver.commit w.started = none
  afterCommit : .committed w.started ∈ call.events driver w → ∃ before after,
    call.events driver w = before ++ .committed w.started :: after ∧
    before.filterMap Event.ranCallback = [] ∧
    after.filterMap Event.ranCallback =
      upToFailure (before.filterMap (Event.accepted w.started)) ∧
    ∀ ctx callback result, .registered ctx callback result ∉ after
  onlyAfterCommit : .committed w.started ∉ call.events driver w →
    (call.events driver w).filterMap Event.ranCallback = []
  registration : ∀ ctx callback result,
    .registered ctx callback result ∈ call.events driver w → result = ctx.callbacks.isSome

/-- Outermost calls made one after the other, each with the world it starts in. -/
def session (driver : Driver) : List (OutermostCall ω ρ) → World ω ρ →
    List (OutermostCall ω ρ × World ω ρ)
  | [], _ => []
  | call :: calls, w => (call, w) :: session driver calls (call.run driver w).2

private theorem filterMap_ranCallback_inner {inside : List (Event ρ)}
    (hinner : ∀ event ∈ inside, event.Inner) : inside.filterMap Event.ranCallback = [] := by
  rw [List.filterMap_eq_nil_iff]
  intro event hmem
  have h := hinner event hmem
  cases event with
  | ran callback => exact h.elim
  | _ => rfl

private theorem filterMap_ranCallback_ran (callbacks : List Callback) :
    (callbacks.map (.ran : Callback → Event ρ)).filterMap Event.ranCallback = callbacks := by
  induction callbacks with
  | nil => rfl
  | cons callback callbacks ih => simp [Event.ranCallback, ih]

theorem OutermostCall.callbacksFire (driver : Driver) (call : OutermostCall ω ρ)
    (w : World ω ρ) : call.CallbacksFire driver w := by
  rcases call.run_cases driver w with ⟨-, hevents, -⟩ |
    ⟨-, inside, ending, after, failure, hfinishes⟩
  · constructor
    · simp [hevents]
    · simp [hevents]
    · simp [hevents]
    · simp [hevents]
  have hran := filterMap_ranCallback_inner hfinishes.inner
  constructor
  · rw [hfinishes.committed_mem_iff, Commits]
    simp only [hfinishes.ended_false_mem_iff]
    constructor
    · rintro ⟨⟨response, rfl⟩, hdriver⟩
      exact ⟨⟨response, failure, rfl, rfl⟩, hdriver⟩
    · rintro ⟨⟨response, failure', hending, -⟩, hdriver⟩
      exact ⟨⟨response, hending.symm⟩, hdriver⟩
  · intro hcommitted
    rcases hfinishes.end_cases with ⟨-, hafter⟩ | ⟨hcommits, -⟩
    · let callbacks := upToFailure (inside.filterMap (Event.accepted w.started))
      refine ⟨.began w.started :: inside, callbacks.map .ran ++ [.ended false ending failure],
        ?_, ?_, ?_, ?_⟩
      · rw [hfinishes.events, hafter]
        simp [callbacks]
      · rw [List.filterMap_cons_none rfl, hran]
      · rw [List.filterMap_append, filterMap_ranCallback_ran, List.filterMap_cons_none rfl,
          List.filterMap_cons_none rfl, List.filterMap_nil, List.append_nil]
      · simp [callbacks]
    · exact absurd (hfinishes.committed_mem_iff.mp hcommitted) hcommits
  · intro hcommitted
    rcases hfinishes.end_cases with ⟨hcommits, -⟩ | ⟨-, hafter, -⟩
    · exact absurd (hfinishes.committed_mem_iff.mpr hcommits) hcommitted
    · rw [hfinishes.events]
      have hbegan : (Event.began w.started :: inside).filterMap Event.ranCallback = [] := by
        rw [List.filterMap_cons_none rfl, hran]
      rcases hafter with rfl | rfl
      · rw [List.filterMap_append, List.filterMap_append, hbegan]
        rfl
      · rw [List.filterMap_append, List.filterMap_append, hbegan]
        rfl
  · intro ctx callback result hmem
    have hinside : .registered ctx callback result ∈ inside := by
      rcases hfinishes.end_cases with ⟨-, hafter⟩ | ⟨-, hafter | hafter, -⟩
      · simpa [hfinishes.events, hafter] using hmem
      · simpa [hfinishes.events, hafter] using hmem
      · simpa [hfinishes.events, hafter] using hmem
    exact hfinishes.inner _ hinside

theorem le_started_of_mem_session {driver : Driver} {calls : List (OutermostCall ω ρ)}
    {w : World ω ρ} {c : OutermostCall ω ρ × World ω ρ} (hmem : c ∈ session driver calls w) :
    w.started ≤ c.2.started := by
  induction calls generalizing w with
  | nil => cases hmem
  | cons call calls ih =>
    rcases List.mem_cons.mp hmem with rfl | hmem
    · exact Nat.le_refl _
    · have hle := ih hmem
      rw [call.run_started] at hle
      exact Nat.le_of_succ_le hle

/-- In a session of outermost calls each keeps its promise about the callbacks, and no two of them
have a transaction in common. -/
theorem session_callbacksFire (driver : Driver) (calls : List (OutermostCall ω ρ))
    (w : World ω ρ) :
    (∀ c ∈ session driver calls w, c.1.CallbacksFire driver c.2) ∧
      (session driver calls w).Pairwise fun c c' => c.2.started ≠ c'.2.started := by
  constructor
  · exact fun c _ => c.1.callbacksFire driver c.2
  · induction calls generalizing w with
    | nil => exact .nil
    | cons call calls ih =>
      refine .cons ?_ (ih _)
      intro c hmem
      have hle := le_started_of_mem_session hmem
      rw [call.run_started] at hle
      exact Nat.ne_of_lt hle

end Signare
