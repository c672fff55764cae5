import Signare.TransactionalManager.Manager

/-!
# Inside a transaction

What a transactional function does to the world when it runs in the context of an open transaction,
with any calls nested in it, and what becomes of the transaction once the outermost function has
ended.
-/

namespace Signare

variable {ω ρ : Type}

/-- The context that an outermost call gives to its function. -/
def Context.inside (t : Nat) : Context := ⟨some t, some t⟩

/-- The world in which the function of an outermost call starts. -/
def World.opened (w : World ω ρ) : World ω ρ :=
  { durable := w.durable
    pending := Function.update w.pending w.started (some [])
    registries := Function.update w.registries w.started []
    started := w.started + 1
    trace := w.trace ++ [.began w.started] }

/-- What can happen while a function runs inside a transaction: a registration is accepted where
the context has a registry, and a nested call returns the error of its function, and none where its
function panicked. -/
def Event.Inner : Event ρ → Prop
  | .registered ctx _ result => result = ctx.callbacks.isSome
  | .ended true (.returned _ failure) failure' => failure' = failure
  | .ended true .panicked failure' => failure' = none
  | _ => False

/-- The callback that an event adds to the registry of a transaction. -/
def Event.accepted (t : Nat) : Event ρ → Option Callback
  | .registered ⟨_, some r⟩ callback true => if r = t then some callback else none
  | _ => none

/-- Some nested call made by the function, at any depth, has a function that panics. -/
def TransactionalFunc.NestedPanics (driver : Driver) :
    TransactionalFunc ω ρ → Context → World ω ρ → Prop
  | .done _, _, _ => False
  | .write x next, ctx, w =>
    NestedPanics driver (next (writeIn ctx x w).1) ctx (writeIn ctx x w).2
  | .register target callback next, ctx, w =>
    let (result, w) := registerAfterCommitIfTransactionInProgress (target.context ctx) callback w
    NestedPanics driver (next result) ctx w
  | .execute f next, ctx, w =>
    (f.run driver ctx w).1 = .panicked ∨ NestedPanics driver f ctx w ∨
      let (result, w) := executeInTransaction driver ctx (f.run driver) w
      NestedPanics driver (next result) ctx w

/-- The world `w'` comes after `w` within the transaction `t`, which is still open. -/
structure WithinTransaction (t : Nat) (w w' : World ω ρ) (events : List (Event ρ)) : Prop where
  trace : w'.trace = w.trace ++ events
  inner : ∀ event ∈ events, event.Inner
  durable : w'.durable = w.durable
  started : w'.started = w.started
  registered : w'.registries t = w.registries t ++ events.filterMap (Event.accepted t)
  open_ : (w.pending t).isSome → (w'.pending t).isSome

theorem WithinTransaction.refl (t : Nat) (w : World ω ρ) : WithinTransaction t w w [] where
  trace := by simp
  inner := by simp
  durable := rfl
  started := rfl
  registered := by simp
  open_ := id

theorem WithinTransaction.trans {t : Nat} {w₁ w₂ w₃ : World ω ρ} {before after : List (Event ρ)}
    (h : WithinTransaction t w₁ w₂ before) (h' : WithinTransaction t w₂ w₃ after) :
    WithinTransaction t w₁ w₃ (before ++ after) where
  trace := by rw [h'.trace, h.trace, List.append_assoc]
  inner := by
    intro event hmem
    rcases List.mem_append.mp hmem with hmem | hmem
    · exact h.inner event hmem
    · exact h'.inner event hmem
  durable := h'.durable.trans h.durable
  started := h'.started.trans h.started
  registered := by
    rw [h'.registered, h.registered, List.filterMap_append, List.append_assoc]
  open_ := h'.open_ ∘ h.open_

theorem within_writeIn (t : Nat) (x : ω) (w : World ω ρ) :
    WithinTransaction t w (writeIn (.inside t) x w).2 [] := by
  unfold writeIn Context.inside
  dsimp only
  split
  · exact WithinTransaction.refl t w
  · exact { WithinTransaction.refl t w with
      trace := by simp
      durable := rfl
      started := rfl
      registered := by simp
      open_ := by simp }

theorem within_register (t : Nat) (target : Target) (callback : Callback) (w : World ω ρ) :
    ∃ result, WithinTransaction t w
      (registerAfterCommitIfTransactionInProgress (target.context (.inside t)) callback w).2
      [.registered (target.context (.inside t)) callback result] := by
  unfold registerAfterCommitIfTransactionInProgress
  split
  case h_1 hctx =>
    refine ⟨false, rfl, by simp [Event.Inner, hctx], rfl, rfl, ?_, id⟩
    simp [World.emit, Event.accepted]
  case h_2 r hctx =>
    refine ⟨true, rfl, by simp [Event.Inner, hctx], rfl, rfl, ?_, id⟩
    generalize target.context (.inside t) = ctx at hctx
    obtain ⟨transaction, callbacks⟩ := ctx
    obtain rfl : callbacks = some r := hctx
    by_cases hr : r = t
    · subst hr
      simp [World.emit, Event.accepted]
    · simp [World.emit, Event.accepted, hr, Function.update_of_ne (Ne.symm hr)]

theorem executeInTransaction_inside (driver : Driver) (t : Nat)
    (transactionalFunc : Context → World ω ρ → Ending ρ × World ω ρ) (w : World ω ρ) :
    executeInTransaction driver (.inside t) transactionalFunc w =
      let (ending, w') := transactionalFunc (.inside t) w
      match ending with
      | .returned response failure =>
        ((response, failure), w'.emit (.ended true (.returned response failure) failure))
      | .panicked => ((none, none), w'.emit (.ended true .panicked none)) := by
  simp only [executeInTransaction, getTransaction, Context.inside, runInTransaction]
  match transactionalFunc ⟨some t, some t⟩ w with
  | (.panicked, w') => rfl
  | (.returned response (some failure), w') => rfl
  | (.returned response none, w') => rfl

theorem within_emit_ended {t : Nat} {w : World ω ρ} {event : Event ρ} (hinner : event.Inner)
    (haccepted : event.accepted t = none) : WithinTransaction t w (w.emit event) [event] where
  trace := rfl
  inner := by simpa using hinner
  durable := rfl
  started := rfl
  registered := by simp [World.emit, haccepted]
  open_ := id

theorem exists_within_executeInTransaction {driver : Driver} {t : Nat}
    {transactionalFunc : Context → World ω ρ → Ending ρ × World ω ρ} {w : World ω ρ}
    {events : List (Event ρ)}
    (h : WithinTransaction t w (transactionalFunc (.inside t) w).2 events) :
    ∃ failure, WithinTransaction t w (executeInTransaction driver (.inside t) transactionalFunc w).2
      (events ++ [.ended true (transactionalFunc (.inside t) w).1 failure]) := by
  rw [executeInTransaction_inside]
  match hrun : transactionalFunc (.inside t) w with
  | (.returned response failure, w') =>
    rw [hrun] at h
    exact ⟨failure, h.trans (within_emit_ended rfl rfl)⟩
  | (.panicked, w') =>
    rw [hrun] at h
    exact ⟨none, h.trans (within_emit_ended rfl rfl)⟩

/-- The function of an open transaction runs within it. A nested call whose function panics leaves
its mark among the events. -/
theorem TransactionalFunc.exists_within_run (driver : Driver) (t : Nat) (f : TransactionalFunc ω ρ)
    (w : World ω ρ) :
    ∃ events, WithinTransaction t w (f.run driver (.inside t) w).2 events ∧
      (f.NestedPanics driver (.inside t) w ↔
        ∃ failure, Event.ended true .panicked failure ∈ events) := by
  induction f generalizing w with
  | done ending => exact ⟨[], WithinTransaction.refl t w, by simp [NestedPanics]⟩
  | write x next ih =>
    obtain ⟨events, hwithin, hpanics⟩ :=
      ih (writeIn (.inside t) x w).1 (writeIn (.inside t) x w).2
    exact ⟨events, (within_writeIn t x w).trans hwithin, hpanics⟩
  | register target callback next ih =>
    obtain ⟨result, hregister⟩ := within_register t target callback w
    obtain ⟨events, hwithin, hpanics⟩ := ih
      (registerAfterCommitIfTransactionInProgress (target.context (.inside t)) callback w).1
      (registerAfterCommitIfTransactionInProgress (target.context (.inside t)) callback w).2
    exact ⟨_, hregister.trans hwithin, by simpa [NestedPanics] using hpanics⟩
  | execute f next ihf ihnext =>
    obtain ⟨inside, hinside, hpanics⟩ := ihf w
    have hexecute := @exists_within_executeInTransaction _ _ driver _ _ _ _ hinside
    obtain ⟨failure, hcall⟩ := hexecute
    obtain ⟨events, hwithin, hpanics'⟩ := ihnext
      (executeInTransaction driver (.inside t) (f.run driver) w).1
      (executeInTransaction driver (.inside t) (f.run driver) w).2
    refine ⟨_, hcall.trans hwithin, ?_⟩
    simp only [NestedPanics, hpanics, hpanics', List.mem_append, List.mem_singleton,
      Event.ended.injEq, true_and]
    grind

/-- A call of `ExecuteInTransaction` with a context that has no transaction. -/
structure OutermostCall (ω ρ : Type) where
  ctx : Context
  outside : ctx.transaction = none
  transactionalFunc : TransactionalFunc ω ρ

namespace OutermostCall

def run (driver : Driver) (call : OutermostCall ω ρ) (w : World ω ρ) :
    (Option ρ × Option SignareError) × World ω ρ :=
  executeInTransaction driver call.ctx (call.transactionalFunc.run driver) w

/-- What happened during the call. -/
def events (driver : Driver) (call : OutermostCall ω ρ) (w : World ω ρ) : List (Event ρ) :=
  (call.run driver w).2.trace.drop w.trace.length

theorem run_of_beginx_none {driver : Driver} {w : World ω ρ} (call : OutermostCall ω ρ)
    (hbegin : driver.beginx w.started = none) :
    call.run driver w = runInTransaction driver false (.inside w.started)
      (call.transactionalFunc.run driver) w.opened := by
  simp only [run, executeInTransaction, getTransaction, beginTransaction, call.outside, hbegin]
  rfl

theorem run_of_beginx_some {driver : Driver} {w : World ω ρ} (call : OutermostCall ω ρ)
    {err : String} (hbegin : driver.beginx w.started = some err) :
    call.run driver w = ((none, some (transactionError "can not begin transaction" err)),
      { w with started := w.started + 1 }) := by
  simp only [run, executeInTransaction, getTransaction, beginTransaction, call.outside, hbegin]

end OutermostCall

/-- The callbacks up to the first that does not succeed, that one included. -/
def upToFailure : List Callback → List Callback
  | [] => []
  | callback :: rest =>
    if callback.ending = .succeeded then callback :: upToFailure rest else [callback]

theorem runCallbacks_world (callbacks : List Callback) (w : World ω ρ) :
    (runCallbacks callbacks w).2 =
      { w with trace := w.trace ++ (upToFailure callbacks).map .ran } := by
  induction callbacks generalizing w with
  | nil => simp [runCallbacks, upToFailure]
  | cons callback rest ih =>
    cases hending : callback.ending with
    | succeeded => simp [runCallbacks, upToFailure, hending, ih, World.emit]
    | failed failure => simp [runCallbacks, upToFailure, hending, World.emit]
    | panicked => simp [runCallbacks, upToFailure, hending, World.emit]

/-- The outermost function has returned no error and the database commits. -/
def Commits (driver : Driver) (t : Nat) (ending : Ending ρ) : Prop :=
  (∃ response, ending = .returned response none) ∧ driver.commit t = none

theorem rollbackTransaction_inside (driver : Driver) {t : Nat} {w : World ω ρ}
    (hopen : (w.pending t).isSome) :
    (rollbackTransaction driver (.inside t) w).2 =
      { w with
        pending := Function.update w.pending t none
        trace := w.trace ++ [.rolledBack t] } := by
  obtain ⟨writes, hwrites⟩ := Option.isSome_iff_exists.mp hopen
  simp only [rollbackTransaction, Context.inside, hwrites]
  split
  · rfl
  · rfl

theorem commitTransaction_inside (driver : Driver) {t : Nat} {w : World ω ρ} {writes : List ω}
    (hwrites : w.pending t = some writes) :
    commitTransaction driver (.inside t) w =
      match driver.commit t with
      | some err =>
        (some (transactionError "can not commit transaction" err),
          { w with pending := Function.update w.pending t none })
      | none =>
        (none, { w with
          durable := w.durable ++ writes
          pending := Function.update w.pending t none
          trace := w.trace ++ [.committed t] }) := by
  simp only [commitTransaction, Context.inside, hwrites]
  cases driver.commit t with
  | some err => rfl
  | none => rfl

theorem finishTransaction_of_not_commits {driver : Driver} {t : Nat} {ending : Ending ρ}
    {w : World ω ρ} (hopen : (w.pending t).isSome) (hcommits : ¬ Commits driver t ending) :
    ∃ events, (events = [] ∨ events = [.rolledBack t]) ∧
      (finishTransaction driver false (.inside t) ending w).2.trace = w.trace ++ events ∧
      (finishTransaction driver false (.inside t) ending w).2.durable = w.durable ∧
      (finishTransaction driver false (.inside t) ending w).2.started = w.started ∧
      (finishTransaction driver false (.inside t) ending w).1.2 ≠ none := by
  obtain ⟨writes, hwrites⟩ := Option.isSome_iff_exists.mp hopen
  have hrollback := rollbackTransaction_inside driver hopen
  match ending with
  | .panicked =>
    refine ⟨[.rolledBack t], .inr rfl, ?_⟩
    simp only [finishTransaction, recovered, Bool.false_eq_true, if_false]
    match hresult : rollbackTransaction driver (.inside t) w with
    | (some err, w') => rw [hresult] at hrollback; simp at hrollback; simp [hrollback]
    | (none, w') => rw [hresult] at hrollback; simp at hrollback; simp [hrollback]
  | .returned response (some failure) =>
    refine ⟨[.rolledBack t], .inr rfl, ?_⟩
    simp [finishTransaction, hrollback]
  | .returned response none =>
    refine ⟨[], .inl rfl, ?_⟩
    cases hdriver : driver.commit t with
    | none => exact absurd ⟨⟨response, rfl⟩, hdriver⟩ hcommits
    | some err => simp [finishTransaction, commitTransaction_inside driver hwrites, hdriver]

theorem recovered_world_of_closed (driver : Driver) {t : Nat} {w : World ω ρ}
    (hclosed : w.pending t = none) : (recovered driver false (.inside t) w).2 = w := by
  simp [recovered, rollbackTransaction, Context.inside, hclosed]

/-- The world after the outermost function has ended and the database has committed: the callbacks
have run. -/
def World.afterCommit (w : World ω ρ) (t : Nat) (writes : List ω) : World ω ρ :=
  { w with
    durable := w.durable ++ writes
    pending := Function.update w.pending t none
    trace := w.trace ++ .committed t :: (upToFailure (w.registries t)).map .ran }

theorem finishTransaction_of_commits {driver : Driver} {t : Nat} {ending : Ending ρ}
    {w : World ω ρ} {writes : List ω} (hwrites : w.pending t = some writes)
    (hcommits : Commits driver t ending) :
    (finishTransaction driver false (.inside t) ending w).2 = w.afterCommit t writes := by
  obtain ⟨⟨response, rfl⟩, hdriver⟩ := hcommits
  let committed : World ω ρ := { w with
    durable := w.durable ++ writes
    pending := Function.update w.pending t none
    trace := w.trace ++ [.committed t] }
  have hcommit : commitTransaction driver (.inside t) w = (none, committed) := by
    rw [commitTransaction_inside driver hwrites, hdriver]
  have hregistry : (Context.inside t).callbacks = some t := rfl
  have hcallbacks : (runCallbacks (w.registries t) committed).2 = w.afterCommit t writes := by
    rw [runCallbacks_world]
    simp [World.afterCommit, committed]
  have hclosed : (w.afterCommit t writes).pending t = none := Function.update_self ..
  simp only [finishTransaction, Bool.false_eq_true, if_false, hcommit, hregistry]
  cases hresult : runCallbacks (w.registries t) committed with
  | mk outcome w' =>
    rw [hresult] at hcallbacks
    cases outcome with
    | succeeded => exact hcallbacks
    | failed failure => exact hcallbacks
    | panicked =>
      have hw' : w' = w.afterCommit t writes := hcallbacks
      rw [hw']
      exact recovered_world_of_closed driver hclosed

/-- What happens in an outermost call that begins its transaction: the function runs within it, and
it is committed or not. -/
structure OutermostCall.Finishes (driver : Driver) (call : OutermostCall ω ρ) (w : World ω ρ)
    (inside : List (Event ρ)) (ending : Ending ρ) (after : List (Event ρ))
    (failure : Option SignareError) : Prop where
  events : call.events driver w =
    .began w.started :: inside ++ after ++ [.ended false ending failure]
  inner : ∀ event ∈ inside, event.Inner
  nestedPanics : call.transactionalFunc.NestedPanics driver (.inside w.started) w.opened ↔
    ∃ failure, Event.ended true .panicked failure ∈ inside
  end_cases :
    Commits driver w.started ending ∧
        after = .committed w.started ::
          (upToFailure (inside.filterMap (Event.accepted w.started))).map .ran ∨
      ¬ Commits driver w.started ending ∧ (after = [] ∨ after = [.rolledBack w.started]) ∧
        (call.run driver w).2.durable = w.durable ∧ (call.run driver w).1.2 = failure ∧
        failure ≠ none

/-- An outermost call either cannot begin, and then nothing happens, or runs its function. -/
theorem OutermostCall.run_cases (driver : Driver) (call : OutermostCall ω ρ) (w : World ω ρ) :
    (driver.beginx w.started ≠ none ∧ call.events driver w = [] ∧
      (call.run driver w).2.durable = w.durable ∧ (call.run driver w).1.2 ≠ none) ∨
    (driver.beginx w.started = none ∧
      ∃ inside ending after failure, call.Finishes driver w inside ending after failure) := by
  cases hbegin : driver.beginx w.started with
  | some err =>
    left
    simp [events, call.run_of_beginx_some hbegin]
  | none =>
    right
    refine ⟨rfl, ?_⟩
    obtain ⟨inside, hwithin, hpanics⟩ :=
      call.transactionalFunc.exists_within_run driver w.started w.opened
    have hopen := hwithin.open_ (by simp [World.opened])
    have hrun := call.run_of_beginx_none hbegin
    simp only [runInTransaction] at hrun
    generalize call.transactionalFunc.run driver (.inside w.started) w.opened = r at *
    obtain ⟨ending, w'⟩ := r
    have hstart : w'.trace = w.trace ++ .began w.started :: inside := by
      rw [hwithin.trace]
      simp [World.opened]
    have hregistry : w'.registries w.started =
        inside.filterMap (Event.accepted w.started) := by
      rw [hwithin.registered]
      simp [World.opened]
    let failure := (finishTransaction driver false (.inside w.started) ending w').1.2
    by_cases hcommits : Commits driver w.started ending
    · obtain ⟨writes, hwrites⟩ := Option.isSome_iff_exists.mp hopen
      have hworld := finishTransaction_of_commits hwrites hcommits
      refine ⟨inside, ending, _, failure, ?_, hwithin.inner, hpanics, .inl ⟨hcommits, rfl⟩⟩
      simp only [events, hrun, World.emit, hworld, World.afterCommit, hstart, hregistry]
      simp [failure]
    · obtain ⟨after, hafter, htrace, hdurable, -, hfailure⟩ :=
        finishTransaction_of_not_commits hopen hcommits
      refine ⟨inside, ending, after, failure, ?_, hwithin.inner, hpanics,
        .inr ⟨hcommits, hafter, ?_, ?_, hfailure⟩⟩
      · simp only [events, hrun, World.emit, htrace, hstart]
        simp [failure]
      · rw [hrun]
        exact hdurable.trans hwithin.durable
      · rw [hrun]

section Finishes

variable {driver : Driver} {call : OutermostCall ω ρ} {w : World ω ρ} {inside after : List (Event ρ)}
  {ending : Ending ρ} {failure : Option SignareError}

theorem OutermostCall.Finishes.ended_notMem_after
    (h : call.Finishes driver w inside ending after failure) (nested : Bool) (ending' : Ending ρ)
    (failure' : Option SignareError) : .ended nested ending' failure' ∉ after := by
  rcases h.end_cases with ⟨-, rfl⟩ | ⟨-, rfl | rfl, -⟩
  · simp
  · simp
  · simp

theorem OutermostCall.Finishes.committed_mem_iff
    (h : call.Finishes driver w inside ending after failure) :
    .committed w.started ∈ call.events driver w ↔ Commits driver w.started ending := by
  have hinside : .committed w.started ∉ inside := fun hmem => h.inner _ hmem
  rcases h.end_cases with ⟨hcommits, rfl⟩ | ⟨hcommits, rfl | rfl, -⟩
  · simp [h.events, hcommits]
  · simp [h.events, hcommits, hinside]
  · simp [h.events, hcommits, hinside]

theorem OutermostCall.Finishes.ended_false_mem_iff
    (h : call.Finishes driver w inside ending after failure) (ending' : Ending ρ)
    (failure' : Option SignareError) :
    .ended false ending' failure' ∈ call.events driver w ↔
      ending' = ending ∧ failure' = failure := by
  have hinside : .ended false ending' failure' ∉ inside := by
    intro hmem
    have hinner := h.inner _ hmem
    cases ending' with
    | returned response failure => exact hinner
    | panicked => exact hinner
  simp [h.events, hinside, h.ended_notMem_after]

theorem OutermostCall.Finishes.ended_true_mem_iff
    (h : call.Finishes driver w inside ending after failure) (ending' : Ending ρ)
    (failure' : Option SignareError) :
    .ended true ending' failure' ∈ call.events driver w ↔ .ended true ending' failure' ∈ inside := by
  simp [h.events, h.ended_notMem_after]

end Finishes

/-- Every outermost call is given a transaction of its own. -/
theorem OutermostCall.run_started (driver : Driver) (call : OutermostCall ω ρ) (w : World ω ρ) :
    (call.run driver w).2.started = w.started + 1 := by
  cases hbegin : driver.beginx w.started with
  | some err => rw [call.run_of_beginx_some hbegin]
  | none =>
    obtain ⟨inside, hwithin, -⟩ :=
      call.transactionalFunc.exists_within_run driver w.started w.opened
    have hopen := hwithin.open_ (by simp [World.opened])
    have hstarted := hwithin.started
    simp only [call.run_of_beginx_none hbegin, runInTransaction]
    generalize call.transactionalFunc.run driver (.inside w.started) w.opened = r at *
    obtain ⟨ending, w'⟩ := r
    by_cases hcommits : Commits driver w.started ending
    · obtain ⟨writes, hwrites⟩ := Option.isSome_iff_exists.mp hopen
      simp only [World.emit, finishTransaction_of_commits hwrites hcommits]
      exact hstarted
    · obtain ⟨-, -, -, -, hfinish, -⟩ := finishTransaction_of_not_commits hopen hcommits
      exact hfinish.trans hstarted

end Signare
