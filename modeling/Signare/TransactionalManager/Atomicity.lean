import Signare.TransactionalManager.Nested

/-!
# All or nothing

An outermost call commits what was done inside it only if everything went well, except that a
nested call whose function panics reports success.
-/

namespace Signare

variable {ω ρ : Type}

/-- Everything inside the call goes well, or nothing of it is kept and the call fails; and no call
hides the panic of its function. -/
structure OutermostCall.Sound (driver : Driver) (call : OutermostCall ω ρ) (w : World ω ρ) :
    Prop where
  commits : .committed w.started ∈ call.events driver w ↔
    (∃ response failure,
      .ended false (.returned response none) failure ∈ call.events driver w) ∧
    (∀ nested failure, .ended nested .panicked failure ∉ call.events driver w) ∧
    driver.commit w.started = none
  rollsBack : .committed w.started ∉ call.events driver w →
    (call.run driver w).2.durable = w.durable ∧ (call.run driver w).1.2 ≠ none
  surfaces : ∀ nested failure,
    .ended nested .panicked failure ∈ call.events driver w → failure ≠ none

/-- An outermost call is sound if and only if no function of a call nested in it panics. -/
theorem OutermostCall.sound_iff (driver : Driver) (call : OutermostCall ω ρ) (w : World ω ρ) :
    call.Sound driver w ↔
      (driver.beginx w.started = none →
        ¬ call.transactionalFunc.NestedPanics driver (.inside w.started) w.opened) := by
  rcases call.run_cases driver w with ⟨hbegin, hevents, hdurable, hfailure⟩ |
    ⟨hbegin, inside, ending, after, failure, hfinishes⟩
  · refine iff_of_true ?_ fun hnone => absurd hnone hbegin
    constructor
    · simp [hevents]
    · exact fun _ => ⟨hdurable, hfailure⟩
    · simp [hevents]
  simp only [hbegin, forall_const, hfinishes.nestedPanics]
  constructor
  · -- the error of a nested call whose function panics is never assigned
    rintro hsound ⟨failure', hmem⟩
    have hnone : failure' = none := hfinishes.inner _ hmem
    exact hsound.surfaces true failure' ((hfinishes.ended_true_mem_iff _ _).mpr hmem) hnone
  · intro hquiet
    have hnested : ∀ failure', .ended true .panicked failure' ∉ call.events driver w :=
      fun failure' hmem => hquiet ⟨failure', (hfinishes.ended_true_mem_iff _ _).mp hmem⟩
    constructor
    · rw [hfinishes.committed_mem_iff]
      constructor
      · rintro ⟨⟨response, rfl⟩, hdriver⟩
        refine ⟨⟨response, failure, (hfinishes.ended_false_mem_iff _ _).mpr ⟨rfl, rfl⟩⟩, ?_,
          hdriver⟩
        intro nested failure' hmem
        cases nested with
        | false => cases ((hfinishes.ended_false_mem_iff _ _).mp hmem).1
        | true => exact hnested failure' hmem
      · rintro ⟨⟨response, failure', hmem⟩, -, hdriver⟩
        exact ⟨⟨response, ((hfinishes.ended_false_mem_iff _ _).mp hmem).1.symm⟩, hdriver⟩
    · intro hnot
      rcases hfinishes.end_cases with ⟨hcommits, -⟩ | ⟨-, -, hdurable, hfailure, hne⟩
      · exact absurd (hfinishes.committed_mem_iff.mpr hcommits) hnot
      · exact ⟨hdurable, hfailure ▸ hne⟩
    · intro nested failure' hmem
      cases nested with
      | true => exact absurd hmem (hnested failure')
      | false =>
        obtain ⟨rfl, rfl⟩ := (hfinishes.ended_false_mem_iff _ _).mp hmem
        rcases hfinishes.end_cases with ⟨⟨⟨response, hresponse⟩, -⟩, -⟩ | ⟨-, -, -, -, hne⟩
        · cases hresponse
        · exact hne

/-- A function that makes a nested call, whose function panics, and goes on as if nothing were
wrong: half a unit of work is committed. -/
def recoveredPanicCall : OutermostCall Nat Nat where
  ctx := .background
  outside := rfl
  transactionalFunc := .write 1 fun _ => .execute (.done .panicked) fun _ =>
    .done (.returned (some 7) none)

def acceptingDriver : Driver := ⟨fun _ => none, fun _ => none, fun _ => none⟩

def World.initial : World ω ρ := ⟨[], fun _ => none, fun _ => [], 0, []⟩

theorem recoveredPanicCall_not_sound : ¬ recoveredPanicCall.Sound acceptingDriver .initial := by
  intro hsound
  have hevents : recoveredPanicCall.events acceptingDriver .initial =
      [.began 0, .ended true .panicked none, .committed 0,
        .ended false (.returned (some 7) none) none] := rfl
  have hcommitted : .committed 0 ∈ recoveredPanicCall.events acceptingDriver .initial := by
    rw [hevents]
    decide
  have hpanicked := (hsound.commits.mp hcommitted).2.1 true none
  rw [hevents] at hpanicked
  exact hpanicked (by decide)

end Signare
