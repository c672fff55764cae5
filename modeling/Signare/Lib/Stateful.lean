import Mathlib.Init

/-!
# Where a stateful computation ends

Fallible computations that change a state, and what holds of the result and the state they end in.
-/

/-- Begun in the state `s`, `p` ends with a result and in a state that satisfy `Q`. -/
def Ends {σ ε α : Type} (p : EStateM ε σ α) (s : σ) (Q : Except ε α → σ → Prop) : Prop :=
  match p.run s with
  | .ok a s' => Q (.ok a) s'
  | .error e s' => Q (.error e) s'

variable {σ ε α β : Type} {p : EStateM ε σ α} {s : σ} {Q R : Except ε α → σ → Prop}

@[simp] theorem ends_pure {a : α} : Ends (pure a) s Q ↔ Q (.ok a) s := Iff.rfl

@[simp] theorem ends_throw {e : ε} : Ends (throw e) s Q ↔ Q (.error e) s := Iff.rfl

@[simp] theorem ends_get_bind {f : σ → EStateM ε σ β} {R : Except ε β → σ → Prop} :
    Ends (get >>= f) s R ↔ Ends (f s) s R := Iff.rfl

@[simp] theorem ends_modify {g : σ → σ} {R : Except ε PUnit → σ → Prop} :
    Ends (modify g) s R ↔ R (.ok ⟨⟩) (g s) := Iff.rfl

@[simp] theorem ends_modify_bind {g : σ → σ} {f : PUnit → EStateM ε σ β}
    {R : Except ε β → σ → Prop} : Ends (modify g >>= f) s R ↔ Ends (f ⟨⟩) (g s) R := Iff.rfl

@[simp] theorem ends_throw_bind {e : ε} {f : α → EStateM ε σ β} {R : Except ε β → σ → Prop} :
    Ends (throw e >>= f) s R ↔ R (.error e) s := Iff.rfl

theorem Ends.mono (h : Ends p s Q) (himp : ∀ result s', Q result s' → R result s') :
    Ends p s R := by
  unfold Ends at h ⊢
  cases hrun : p.run s with
  | ok a s' =>
    rw [hrun] at h
    exact himp _ _ h
  | error e s' =>
    rw [hrun] at h
    exact himp _ _ h

theorem Ends.bind {f : α → EStateM ε σ β} {R : Except ε β → σ → Prop} (h : Ends p s Q)
    (herror : ∀ e s', Q (.error e) s' → R (.error e) s')
    (hok : ∀ a s', Q (.ok a) s' → Ends (f a) s' R) : Ends (p >>= f) s R := by
  unfold Ends at h ⊢
  rw [EStateM.run_bind]
  cases hrun : p.run s with
  | ok a s' =>
    rw [hrun] at h
    exact hok a s' h
  | error e s' =>
    rw [hrun] at h
    exact herror e s' h

theorem run_tryFinally_ok {finalizer : EStateM ε σ β} {a : α} {s' : σ} (h : p.run s = .ok a s') :
    (tryFinally p finalizer).run s = (finalizer >>= fun _ => pure a).run s' := by
  rw [EStateM.run_bind]
  simp only [EStateM.run] at h ⊢
  simp only [tryFinally, tryFinally', Functor.map, EStateM.map, h]
  cases finalizer s' with
  | ok b s'' => rfl
  | error e s'' => rfl

theorem run_tryFinally_error {finalizer : EStateM ε σ β} {e : ε} {s' : σ}
    (h : p.run s = .error e s') :
    (tryFinally p finalizer).run s = (finalizer >>= fun _ => (throw e : EStateM ε σ α)).run s' := by
  rw [EStateM.run_bind]
  simp only [EStateM.run] at h ⊢
  simp only [tryFinally, tryFinally', Functor.map, EStateM.map, h]
  cases finalizer s' with
  | ok b s'' => rfl
  | error e s'' => rfl

/-- The finalizer runs however `p` ends, and its own failure comes first. -/
theorem ends_tryFinally {finalizer : EStateM ε σ β} (h : Ends p s Q)
    (hok : ∀ a s', Q (.ok a) s' → Ends finalizer s' fun result s'' =>
      R (result.map fun _ => a) s'')
    (herror : ∀ e s', Q (.error e) s' → Ends finalizer s' fun result s'' =>
      R (result.bind fun _ => .error e) s'') : Ends (tryFinally p finalizer) s R := by
  unfold Ends at h
  cases hp : p.run s with
  | ok a s' =>
    rw [hp] at h
    have hend : Ends (finalizer >>= fun _ => pure a) s' R :=
      (hok a s' h).bind (fun _ _ hR => hR) fun _ _ hR => hR
    unfold Ends at hend ⊢
    rw [run_tryFinally_ok hp]
    exact hend
  | error e s' =>
    rw [hp] at h
    have hend : Ends (finalizer >>= fun _ => (throw e : EStateM ε σ α)) s' R :=
      (herror e s' h).bind (fun _ _ hR => hR) fun _ _ hR => hR
    unfold Ends at hend ⊢
    rw [run_tryFinally_error hp]
    exact hend

/-- What holds at the end holds of the run. -/
theorem Ends.with_run (h : Ends p s Q) :
    Ends p s fun result s' => Q result s' ∧ ∀ a, result = .ok a → p.run s = .ok a s' := by
  unfold Ends at h ⊢
  cases hp : p.run s with
  | ok a s' =>
    rw [hp] at h
    refine ⟨h, ?_⟩
    intro a' ha
    cases ha
    rfl
  | error e s' =>
    rw [hp] at h
    exact ⟨h, nofun⟩
