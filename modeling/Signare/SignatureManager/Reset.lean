import Signare.Lib.Interleaving
import Signare.SignatureManager.Library

/-!
# Resetting the library

Requests open the library and then use it, slots that are created close it and open it again, each
call of the manager being one step. Between the two steps of a reset the library is closed for all.
-/

namespace Signare

/-- Programs over the calls of the manager. -/
abbrev Factory := Program ManagerCall ManagerCall.Answer SignareError Unit

def isAlreadyInitializedErr : MethodFailure → Bool
  | .manager err => err.kind = .alreadyInitialized
  | _ => false

/-- The call to the manager, in a request. -/
def useManager (r : KeyRequest) : Factory := do
  match ← Program.request (ManagerCall.request r) with
  | .error err => Program.fail (internalFromErr (.text err.text) "")
  | .ok _ => return ()

/-- `Create`, and the call to the manager. That the library is open already is no error. -/
def serve (r : KeyRequest) : Factory := do
  match ← Program.request ManagerCall.open_ with
  | .error openErr =>
    if isAlreadyInitializedErr openErr then useManager r
    else Program.fail (internal
      ("failed to open digital signature manager 'SoftHSM'. Error: " ++ openErr.text))
  | .ok _ => useManager r

/-- The second half of `Reset`. That the library is open already is an error. -/
def reopen : Factory := do
  match ← Program.request ManagerCall.open_ with
  | .error openErr => Program.fail (internal
      ("error opening digital signature manager connection 'SoftHSM'. Error: " ++ openErr.text))
  | .ok _ => return ()

def reset : Factory := do
  match ← Program.request ManagerCall.close with
  | .error closeErr => Program.fail (internal
      ("error closing digital signature manager connection 'SoftHSM'. Error: " ++ closeErr.text))
  | .ok _ => reopen

/-- A request, or the creation of a slot. -/
inductive FactoryTask
  | serve (r : KeyRequest)
  | reset

def FactoryTask.program : FactoryTask → Factory
  | .serve r => Signare.serve r
  | .reset => Signare.reset

/-- What is left of a task after its first step. -/
def FactoryTask.rest : FactoryTask → Factory
  | .serve r => useManager r
  | .reset => reopen

theorem FactoryTask.program_ne_done (task : FactoryTask) (result : Except SignareError Unit) :
    task.program ≠ .done result := by
  cases task with
  | serve r => exact nofun
  | reset => exact nofun

theorem FactoryTask.rest_ne_done (task : FactoryTask) (result : Except SignareError Unit) :
    task.rest ≠ .done result := by
  cases task with
  | serve r => exact nofun
  | reset => exact nofun

inductive Phase
  | waiting
  | midway
  | succeeded
  | failed

/-- What the next call of a task makes of the task, and of the library that is open or not. -/
def FactoryTask.advance : FactoryTask → Phase → Bool → Phase × Bool
  | .serve _, .waiting, _ => (.midway, true)
  | .serve _, .midway, isOpen => (if isOpen then .succeeded else .failed, isOpen)
  | .reset, .waiting, isOpen => (if isOpen then .midway else .failed, false)
  | .reset, .midway, isOpen => (if isOpen then .failed else .succeeded, true)
  | _, phase, isOpen => (phase, isOpen)

/-- All that matters of a run: whether the library is open, and how far the tasks are. -/
structure Phases (ι : Type) where
  isOpen : Bool
  phase : ι → Phase

namespace Phases

variable {ι : Type} (tasks : ι → FactoryTask) (a : Phases ι)

/-- A reset that has closed the library, and not opened it. -/
def Resetting (i : ι) : Prop := tasks i = .reset ∧ a.phase i = .midway

def Active (i : ι) : Prop := a.phase i = .waiting ∨ a.phase i = .midway

/-- The library is open but for one reset that is under way. -/
structure Sound : Prop where
  not_failed : ∀ i, a.phase i ≠ .failed
  isOpen_iff : a.isOpen = true ↔ ∀ i, ¬ a.Resetting tasks i
  unique : ∀ i j, a.Resetting tasks i → a.Resetting tasks j → i = j

/-- A task has failed or will: a reset finds the library open, now or after another reset. -/
def Spoilt : Prop :=
  (∃ i, a.phase i = .failed) ∨
    ∃ i, a.Resetting tasks i ∧ (a.isOpen = true ∨ ∃ j, j ≠ i ∧ a.Resetting tasks j)

variable [DecidableEq ι]

def advance (i : ι) : Phases ι where
  isOpen := ((tasks i).advance (a.phase i) a.isOpen).2
  phase := Function.update a.phase i ((tasks i).advance (a.phase i) a.isOpen).1

variable {tasks a} {i j : ι}

@[simp] theorem advance_phase_self :
    (a.advance tasks i).phase i = ((tasks i).advance (a.phase i) a.isOpen).1 :=
  Function.update_self ..

@[simp] theorem advance_phase_of_ne (h : j ≠ i) : (a.advance tasks i).phase j = a.phase j :=
  Function.update_of_ne h ..

theorem resetting_advance_of_ne (h : j ≠ i) :
    (a.advance tasks i).Resetting tasks j ↔ a.Resetting tasks j := by
  rw [Resetting, Resetting, advance_phase_of_ne h]

/-- A step in which no other task is a reset under way. -/
theorem Sound.advance (h : a.Sound tasks) (hactive : a.Active i)
    (hquiet : ∀ j, j ≠ i → ¬ a.Resetting tasks j) : (a.advance tasks i).Sound tasks := by
  have hother (j : ι) (hj : (a.advance tasks i).Resetting tasks j) : j = i := by
    by_contra hne
    exact hquiet j hne ((resetting_advance_of_ne hne).mp hj)
  have hopen : a.isOpen = true ↔ ¬ a.Resetting tasks i := by
    rw [h.isOpen_iff]
    constructor
    · intro hall
      exact hall i
    · intro hi j
      by_cases hj : j = i
      · exact hj ▸ hi
      · exact hquiet j hj
  have hself : (a.advance tasks i).phase i ≠ .failed ∧
      ((a.advance tasks i).isOpen = true ↔ ¬ (a.advance tasks i).Resetting tasks i) := by
    simp only [Resetting, Phases.advance] at hopen ⊢
    cases htask : tasks i with
    | serve r =>
      cases hactive with
      | inl hwaiting => simp [hwaiting, FactoryTask.advance]
      | inr hmidway => simp_all [FactoryTask.advance]
    | reset =>
      cases hactive with
      | inl hwaiting => simp_all [FactoryTask.advance]
      | inr hmidway => simp_all [FactoryTask.advance]
  refine ⟨fun j => ?_, ?_, fun j k hj hk => (hother j hj).trans (hother k hk).symm⟩
  · by_cases hj : j = i
    · exact hj ▸ hself.1
    · rw [advance_phase_of_ne hj]
      exact h.not_failed j
  · rw [hself.2]
    constructor
    · intro hi j hj
      exact hi (hother j hj ▸ hj)
    · intro hall
      exact hall i

theorem spoilt_of_disturbed (hactive : a.Active i) (hne : j ≠ i) (hj : a.Resetting tasks j) :
    (a.advance tasks i).Spoilt tasks := by
  have hj' : (a.advance tasks i).Resetting tasks j := (resetting_advance_of_ne hne).mpr hj
  have hopened (h : (a.advance tasks i).isOpen = true) : (a.advance tasks i).Spoilt tasks :=
    .inr ⟨j, hj', .inl h⟩
  have hfailed (h : (a.advance tasks i).phase i = .failed) : (a.advance tasks i).Spoilt tasks :=
    .inl ⟨i, h⟩
  cases htask : tasks i with
  | serve r =>
    cases hactive with
    | inl hwaiting =>
      apply hopened
      simp only [Phases.advance, htask, hwaiting, FactoryTask.advance]
    | inr hmidway =>
      cases hopen : a.isOpen with
      | true =>
        apply hopened
        simp only [Phases.advance, htask, hmidway, hopen, FactoryTask.advance]
      | false =>
        apply hfailed
        simp [htask, hmidway, hopen, FactoryTask.advance]
  | reset =>
    cases hactive with
    | inl hwaiting =>
      cases hopen : a.isOpen with
      | true =>
        have hi : (a.advance tasks i).Resetting tasks i :=
          ⟨htask, by simp [htask, hwaiting, hopen, FactoryTask.advance]⟩
        exact .inr ⟨j, hj', .inr ⟨i, hne.symm, hi⟩⟩
      | false =>
        apply hfailed
        simp [htask, hwaiting, hopen, FactoryTask.advance]
    | inr hmidway =>
      apply hopened
      simp only [Phases.advance, htask, hmidway, FactoryTask.advance]

theorem Spoilt.advance (h : a.Spoilt tasks) (hactive : a.Active i) :
    (a.advance tasks i).Spoilt tasks := by
  cases h with
  | inl hfailed =>
    obtain ⟨j, hj⟩ := hfailed
    have hne : j ≠ i := by
      intro heq
      subst heq
      cases hactive with
      | inl hwaiting => cases hj.symm.trans hwaiting
      | inr hmidway => cases hj.symm.trans hmidway
    exact .inl ⟨j, (advance_phase_of_ne hne).trans hj⟩
  | inr hresetting =>
    obtain ⟨j, hj, hcause⟩ := hresetting
    by_cases hne : j = i
    · subst hne
      cases hcause with
      | inl hopen =>
        -- the reset is answered that the library is open already
        left
        refine ⟨j, ?_⟩
        simp [hj.1, hj.2, hopen, FactoryTask.advance]
      | inr hother =>
        obtain ⟨k, hk, hresetting⟩ := hother
        exact spoilt_of_disturbed hactive hk hresetting
    · exact spoilt_of_disturbed hactive hne hj

end Phases

section Interleaved

open Interleaving

variable {ι T : Type} [DecidableEq ι] (env : CurveEnv) (byTime : TimeSort) (fuel : Nat)
  (token : TokenHandle T)

/-- Tasks that share one library. -/
abbrev System (ι T : Type) :=
  Config ι ManagerCall ManagerCall.Answer SignareError Unit Unit (Library T)

abbrev SystemEnvironment (ι T : Type) :=
  Environment ι ManagerCall ManagerCall.Answer SignareError Unit Unit (Library T)

def System.start (tasks : ι → FactoryTask) (lib : Library T) : System ι T :=
  Config.start () (fun i => (tasks i).program) lib

/-- Every call is answered by the manager. -/
def answered : SystemEnvironment ι T := fun c _ call answer _ lib =>
  call.perform env byTime fuel token c.shared = (answer, lib)

variable (tasks : ι → FactoryTask)

def Resetting (c : System ι T) (i : ι) : Prop :=
  tasks i = .reset ∧ (c.threads i).program = reopen

/-- The steps in which no other task is a reset under way. -/
def undisturbed : SystemEnvironment ι T := fun c i call answer session lib =>
  answered env byTime fuel token c i call answer session lib ∧ ∀ j, j ≠ i → ¬ Resetting tasks c j

/-- The others. -/
def disturbed : SystemEnvironment ι T := fun c i call answer session lib =>
  answered env byTime fuel token c i call answer session lib ∧ ∃ j, j ≠ i ∧ Resetting tasks c j

/-- No task has ended with an error. -/
def Succeeding (c : System ι T) : Prop := ∀ i err, (c.threads i).program ≠ .done (.error err)

/-- In a library that is open, the requests do not fail. -/
def NoOtherFailure : Prop :=
  ∀ i r, tasks i = .serve r → ∀ t, ((r.method env byTime fuel).run token t).1.isOk

def Phase.Describes (task : FactoryTask) (program : Factory) : Phase → Prop
  | .waiting => program = task.program
  | .midway => program = task.rest
  | .succeeded => program = .done (.ok ())
  | .failed => ∃ err, program = .done (.error err)

theorem Phase.Describes.next {task : FactoryTask} {phase : Phase} {call : ManagerCall}
    {rest : call.Answer → Factory} {answer : call.Answer} {lib lib' : Library T}
    (hother : ∀ r, task = .serve r → ∀ t, ((r.method env byTime fuel).run token t).1.isOk)
    (h : phase.Describes task (.call call rest))
    (hperform : call.perform env byTime fuel token lib = (answer, lib')) :
    (phase = .waiting ∨ phase = .midway) ∧
      (task.advance phase lib.initialised).1.Describes task (rest answer) ∧
      lib'.initialised = (task.advance phase lib.initialised).2 := by
  obtain ⟨initialised, t⟩ := lib
  cases phase with
  | waiting =>
    refine ⟨.inl rfl, ?_⟩
    cases task with
    | serve r =>
      have hcall : Program.call call rest = serve r := h
      cases hcall
      rw [perform_open] at hperform
      cases initialised with
      | true =>
        cases hperform
        exact ⟨rfl, rfl⟩
      | false =>
        cases hperform
        exact ⟨rfl, rfl⟩
    | reset =>
      have hcall : Program.call call rest = reset := h
      cases hcall
      rw [perform_close] at hperform
      cases initialised with
      | true =>
        cases hperform
        exact ⟨rfl, rfl⟩
      | false =>
        cases hperform
        exact ⟨⟨_, rfl⟩, rfl⟩
  | midway =>
    refine ⟨.inr rfl, ?_⟩
    cases task with
    | serve r =>
      have hcall : Program.call call rest = useManager r := h
      cases hcall
      cases initialised with
      | true =>
        rw [perform_request_initialised] at hperform
        have hok := hother r rfl t
        cases hresult : ((r.method env byTime fuel).run token t).1 with
        | error err =>
          rw [hresult] at hok
          cases hok
        | ok _ =>
          rw [hresult] at hperform
          cases hperform
          exact ⟨rfl, rfl⟩
      | false =>
        obtain ⟨err, herr⟩ := perform_request_uninitialised env byTime fuel token r t
        rw [herr] at hperform
        cases hperform
        exact ⟨⟨_, rfl⟩, rfl⟩
    | reset =>
      have hcall : Program.call call rest = reopen := h
      cases hcall
      rw [perform_open] at hperform
      cases initialised with
      | true =>
        cases hperform
        exact ⟨⟨_, rfl⟩, rfl⟩
      | false =>
        cases hperform
        exact ⟨rfl, rfl⟩
  | succeeded => cases h
  | failed =>
    obtain ⟨err, herr⟩ := h
    cases herr

/-- The phases of all tasks of a configuration. -/
structure Tracks (c : System ι T) (a : Phases ι) : Prop where
  isOpen : c.shared.initialised = a.isOpen
  phase : ∀ i, (a.phase i).Describes (tasks i) (c.threads i).program

omit [DecidableEq ι] in
theorem tracks_start {lib : Library T} (h : lib.initialised = true) :
    Tracks tasks (System.start tasks lib) ⟨true, fun _ => .waiting⟩ :=
  ⟨h, fun _ => rfl⟩

variable {tasks} {c c' : System ι T} {a : Phases ι} {i : ι}

omit [DecidableEq ι] in
theorem Tracks.resetting_iff (h : Tracks tasks c a) :
    Resetting tasks c i ↔ a.Resetting tasks i := by
  have hi := h.phase i
  unfold Resetting Phases.Resetting
  refine and_congr_right fun htask => ?_
  rw [htask] at hi
  cases hphase : a.phase i with
  | midway =>
    rw [hphase] at hi
    exact iff_of_true hi rfl
  | waiting =>
    rw [hphase] at hi
    exact iff_of_false (fun hreopen => nomatch hi.symm.trans hreopen) nofun
  | succeeded =>
    rw [hphase] at hi
    exact iff_of_false (fun hreopen => FactoryTask.reset.rest_ne_done _ (hreopen.symm.trans hi)) nofun
  | failed =>
    rw [hphase] at hi
    obtain ⟨err, herr⟩ := hi
    exact iff_of_false (fun hreopen => FactoryTask.reset.rest_ne_done _ (hreopen.symm.trans herr)) nofun

omit [DecidableEq ι] in
theorem Tracks.succeeding_iff (h : Tracks tasks c a) :
    Succeeding c ↔ ∀ i, a.phase i ≠ .failed := by
  constructor
  · intro hall i hfailed
    have hi := h.phase i
    rw [hfailed] at hi
    obtain ⟨err, herr⟩ := hi
    exact hall i err herr
  · intro hall i err herr
    have hi := h.phase i
    rw [herr] at hi
    cases hphase : a.phase i with
    | failed => exact hall i hphase
    | waiting =>
      rw [hphase] at hi
      exact (tasks i).program_ne_done _ hi.symm
    | midway =>
      rw [hphase] at hi
      exact (tasks i).rest_ne_done _ hi.symm
    | succeeded =>
      rw [hphase] at hi
      cases hi

theorem Tracks.after (h : Tracks tasks c a) (hother : NoOtherFailure env byTime fuel token tasks)
    {call : ManagerCall} {rest : call.Answer → Factory} {answer : call.Answer} {session : Unit}
    {lib : Library T} (hprogram : (c.threads i).program = .call call rest)
    (hact : answered env byTime fuel token c i call answer session lib) :
    a.Active i ∧ Tracks tasks (c.after i call rest answer session lib) (a.advance tasks i) := by
  have hphase := h.phase i
  rw [hprogram] at hphase
  obtain ⟨hactive, hdescribes, hopen⟩ :=
    hphase.next env byTime fuel token (hother i) hact
  rw [h.isOpen] at hdescribes hopen
  refine ⟨hactive, hopen, fun j => ?_⟩
  by_cases hj : j = i
  · subst hj
    rw [Phases.advance_phase_self, Config.after_threads_self]
    exact hdescribes
  · rw [Phases.advance_phase_of_ne hj, Config.after_threads_of_ne hj]
    exact h.phase j

section Runs

variable {lib : Library T}

theorem Tracks.step {act : SystemEnvironment ι T} (h : Tracks tasks c a)
    (hother : NoOtherFailure env byTime fuel token tasks)
    (hact : ∀ c i call answer session lib, act c i call answer session lib →
      answered env byTime fuel token c i call answer session lib) (hstep : Step act c c') :
    ∃ i, a.Active i ∧ Tracks tasks c' (a.advance tasks i) ∧
      ∃ call answer session lib, act c i call answer session lib := by
  cases hstep with
  | @call i call rest answer session lib hprogram hcall =>
    have hafter := h.after env byTime fuel token hother hprogram (hact _ _ _ _ _ _ hcall)
    exact ⟨i, hafter.1, hafter.2, _, _, _, _, hcall⟩

theorem sound_of_run (hinit : lib.initialised = true)
    (hother : NoOtherFailure env byTime fuel token tasks)
    (hrun : Run (undisturbed env byTime fuel token tasks) (System.start tasks lib) c) :
    ∃ a, Tracks tasks c a ∧ a.Sound tasks := by
  induction hrun with
  | refl =>
    refine ⟨_, tracks_start tasks hinit, ?_⟩
    exact ⟨nofun, iff_of_true rfl (fun i h => nomatch h.2), fun i j h => nomatch h.2⟩
  | tail _ hstep ih =>
    obtain ⟨a, htracks, hsound⟩ := ih
    obtain ⟨i, hactive, htracks', call, answer, session, lib', -, hquiet⟩ :=
      htracks.step env byTime fuel token hother (fun _ _ _ _ _ _ h => h.1) hstep
    refine ⟨_, htracks', hsound.advance hactive fun j hj hresetting => ?_⟩
    exact hquiet j hj (htracks.resetting_iff.mpr hresetting)

theorem tracks_of_run (hinit : lib.initialised = true)
    (hother : NoOtherFailure env byTime fuel token tasks)
    (hrun : Run (answered env byTime fuel token) (System.start tasks lib) c) :
    ∃ a, Tracks tasks c a := by
  induction hrun with
  | refl => exact ⟨_, tracks_start tasks hinit⟩
  | tail _ hstep ih =>
    obtain ⟨a, htracks⟩ := ih
    obtain ⟨i, -, htracks', -⟩ :=
      htracks.step env byTime fuel token hother (fun _ _ _ _ _ _ h => h) hstep
    exact ⟨_, htracks'⟩

theorem spoilt_of_run (hother : NoOtherFailure env byTime fuel token tasks)
    (htracks : Tracks tasks c a) (hspoilt : a.Spoilt tasks)
    (hrun : Run (answered env byTime fuel token) c c') :
    ∃ a, Tracks tasks c' a ∧ a.Spoilt tasks := by
  induction hrun with
  | refl => exact ⟨a, htracks, hspoilt⟩
  | tail _ hstep ih =>
    obtain ⟨b, htracks, hspoilt⟩ := ih
    obtain ⟨i, hactive, htracks', -⟩ :=
      htracks.step env byTime fuel token hother (fun _ _ _ _ _ _ h => h) hstep
    exact ⟨_, htracks', hspoilt.advance hactive⟩

omit [DecidableEq ι] in
/-- Where all tasks have ended, one of them has failed. -/
theorem not_succeeding_of_spoilt (h : a.Spoilt tasks) (htracks : Tracks tasks c a)
    (hfinished : c.Finished) : ¬ Succeeding c := by
  rw [htracks.succeeding_iff]
  intro hall
  cases h with
  | inl hfailed =>
    obtain ⟨i, hi⟩ := hfailed
    exact hall i hi
  | inr hresetting =>
    obtain ⟨i, hi, -⟩ := hresetting
    obtain ⟨result, hresult⟩ := hfinished i
    have hreopen := (htracks.resetting_iff.mpr hi).2
    exact FactoryTask.reset.rest_ne_done _ (hreopen.symm.trans hresult)

omit [DecidableEq ι] in
/-- A task that goes on next: the reset that is under way, or any. -/
theorem exists_quiet_of_sound (h : a.Sound tasks) (htracks : Tracks tasks c a)
    (hunfinished : ¬ c.Finished) :
    ∃ i call rest, (c.threads i).program = .call call rest ∧
      ∀ j, j ≠ i → ¬ Resetting tasks c j := by
  by_cases hresetting : ∃ i, Resetting tasks c i
  · obtain ⟨i, hi⟩ := hresetting
    refine ⟨i, _, _, hi.2, fun j hne hj => hne ?_⟩
    exact h.unique j i (htracks.resetting_iff.mp hj) (htracks.resetting_iff.mp hi)
  · obtain ⟨i, hi⟩ := not_forall.mp hunfinished
    cases hprogram : (c.threads i).program with
    | done result => exact absurd ⟨result, hprogram⟩ hi
    | call call rest => exact ⟨i, call, rest, hprogram, fun j _ hj => hresetting ⟨j, hj⟩⟩

/-- Where no task goes on during the reset of another, every task succeeds, and can go on until it
has. Where one does, not all of them succeed. -/
theorem tasks_succeed_undisturbed (hinit : lib.initialised = true)
    (hother : NoOtherFailure env byTime fuel token tasks) :
    (∀ c, Run (undisturbed env byTime fuel token tasks) (System.start tasks lib) c →
        Succeeding c ∧
          (¬ c.Finished → ∃ c', Step (undisturbed env byTime fuel token tasks) c c')) ∧
      ∀ c₁ c₂ c₃, Run (answered env byTime fuel token) (System.start tasks lib) c₁ →
        Step (disturbed env byTime fuel token tasks) c₁ c₂ →
        Run (answered env byTime fuel token) c₂ c₃ → c₃.Finished → ¬ Succeeding c₃ := by
  constructor
  · intro c hrun
    obtain ⟨a, htracks, hsound⟩ := sound_of_run env byTime fuel token hinit hother hrun
    refine ⟨htracks.succeeding_iff.mpr hsound.not_failed, fun hunfinished => ?_⟩
    obtain ⟨i, call, rest, hprogram, hquiet⟩ := exists_quiet_of_sound hsound htracks hunfinished
    have hcall : undisturbed env byTime fuel token tasks c i call
        (call.perform env byTime fuel token c.shared).1 ()
        (call.perform env byTime fuel token c.shared).2 := ⟨rfl, hquiet⟩
    exact ⟨_, .call i hprogram hcall⟩
  · intro c₁ c₂ c₃ hbefore hstep hafter hfinished
    obtain ⟨a, htracks⟩ := tracks_of_run env byTime fuel token hinit hother hbefore
    obtain ⟨i, hactive, htracks', call, answer, session, lib', -, j, hne, hresetting⟩ :=
      htracks.step env byTime fuel token hother (fun _ _ _ _ _ _ h => h.1) hstep
    have hspoilt := Phases.spoilt_of_disturbed hactive hne (htracks.resetting_iff.mp hresetting)
    obtain ⟨b, htracks'', hspoilt'⟩ := spoilt_of_run env byTime fuel token hother htracks' hspoilt hafter
    exact not_succeeding_of_spoilt hspoilt' htracks'' hfinished

end Runs

end Interleaved

def signRequest : KeyRequest := .sign "0" "1234" [0x01] Address.zeroAddress

/-- A signature that is asked for while a slot is created. -/
def signAndReset (signs : Bool) : FactoryTask := if signs then .serve signRequest else .reset

theorem signAndReset_noOtherFailure :
    NoOtherFailure noCurve .insertion 2 unlabelledSlot.handle signAndReset := by
  intro i r hr left
  cases i with
  | false => cases hr
  | true =>
    cases hr
    rfl

theorem tasks_succeed_undisturbed_sign :
    (∀ c, Interleaving.Run
          (undisturbed noCurve .insertion 2 unlabelledSlot.handle signAndReset)
          (System.start signAndReset ⟨true, []⟩) c →
        Succeeding c ∧ (¬ c.Finished → ∃ c', Interleaving.Step
          (undisturbed noCurve .insertion 2 unlabelledSlot.handle signAndReset) c c')) ∧
      ∀ c₁ c₂ c₃, Interleaving.Run (answered noCurve .insertion 2 unlabelledSlot.handle)
          (System.start signAndReset ⟨true, []⟩) c₁ →
        Interleaving.Step (disturbed noCurve .insertion 2 unlabelledSlot.handle signAndReset)
          c₁ c₂ →
        Interleaving.Run (answered noCurve .insertion 2 unlabelledSlot.handle) c₂ c₃ →
        c₃.Finished → ¬ Succeeding c₃ :=
  tasks_succeed_undisturbed noCurve .insertion 2 unlabelledSlot.handle rfl
    signAndReset_noOtherFailure

/-- The library is closed when the request comes to sign. -/
theorem sign_fails_in_reset :
    NoOtherFailure noCurve .insertion 2 unlabelledSlot.handle signAndReset ∧
      ∃ c : System Bool (List (List ObjectHandle)),
        Interleaving.Run (answered noCurve .insertion 2 unlabelledSlot.handle)
          (System.start signAndReset ⟨true, []⟩) c ∧ c.Finished ∧ ¬ Succeeding c := by
  refine ⟨signAndReset_noOtherFailure, _, Interleaving.run_follow
    (fun call lib => call.perform noCurve .insertion 2 unlabelledSlot.handle lib)
    (fun _ _ _ => rfl) _ [true, false, true, false], ?_, ?_⟩
  · intro i
    cases i with
    | false => exact ⟨_, rfl⟩
    | true => exact ⟨_, rfl⟩
  · intro h
    exact h true _ rfl

end Signare
