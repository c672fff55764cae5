import Signare.Lib.Program

/-!
# Programs whose calls may be answered in many ways

What a call is answered with, and the state it leaves, is a relation: a program has many runs, and a
postcondition is one of all of them.
-/

namespace Program

variable {σ : Type} {ρ : σ → Type} {ε α β S : Type}

/-- The answers that a call may be given in a state, and the states it may leave. -/
abbrev Answering (σ : Type) (ρ : σ → Type) (S : Type) := S → (s : σ) → ρ s → S → Prop

/-- Run from one state, the program may end with a result in another. -/
def EndsIn (may : Answering σ ρ S) : Program σ ρ ε α → S → Except ε α → S → Prop
  | .done result, w, result', w' => result' = result ∧ w' = w
  | .call s next, w, result', w' => ∃ r v, may w s r v ∧ (next r).EndsIn may v result' w'

/-- However the program ends, it ends as expected. -/
def Always (may : Answering σ ρ S) : Program σ ρ ε α → (Except ε α → S → Prop) → S → Prop
  | .done result, expected, w => expected result w
  | .call s next, expected, w => ∀ r v, may w s r v → (next r).Always may expected v

variable {may : Answering σ ρ S} {p : Program σ ρ ε α} {expected : Except ε α → S → Prop} {w : S}

theorem always_iff_endsIn : p.Always may expected w ↔
    ∀ result w', p.EndsIn may w result w' → expected result w' := by
  induction p generalizing w with
  | done result =>
    constructor
    · intro h result' w' hends
      obtain ⟨rfl, rfl⟩ := hends
      exact h
    · intro h
      exact h result w ⟨rfl, rfl⟩
  | call s next ih =>
    constructor
    · intro h result w' hends
      obtain ⟨r, v, hmay, hnext⟩ := hends
      exact (ih r).mp (h r v hmay) result w' hnext
    · intro h r v hmay
      exact (ih r).mpr fun result w' hnext => h result w' ⟨r, v, hmay, hnext⟩

theorem EndsIn.mono {may' : Answering σ ρ S} {result : Except ε α} {w' : S}
    (h : p.EndsIn may w result w') (hmay : ∀ w s r v, may w s r v → may' w s r v) :
    p.EndsIn may' w result w' := by
  induction p generalizing w with
  | done _ => exact h
  | call s next ih =>
    obtain ⟨r, v, hcall, hnext⟩ := h
    exact ⟨r, v, hmay w s r v hcall, ih r hnext⟩

/-- The run by a handler is one of the runs. -/
theorem endsIn_run {handle : (s : σ) → S → ρ s × S}
    (hhandle : ∀ s w, may w s (handle s w).1 (handle s w).2) (p : Program σ ρ ε α) (w : S) :
    p.EndsIn may w (p.run handle w).1 (p.run handle w).2 := by
  induction p generalizing w with
  | done result => exact ⟨rfl, rfl⟩
  | call s next ih => exact ⟨_, _, hhandle s w, ih _ _⟩

@[simp] theorem always_done (result : Except ε α) :
    (Program.done result : Program σ ρ ε α).Always may expected w ↔ expected result w := Iff.rfl

@[simp] theorem always_request (s : σ) (expected : Except ε (ρ s) → S → Prop) :
    (request s : Program σ ρ ε (ρ s)).Always may expected w ↔
      ∀ r v, may w s r v → expected (.ok r) v := Iff.rfl

theorem Always.mono {expected' : Except ε α → S → Prop} (h : p.Always may expected w)
    (himp : ∀ result w', expected result w' → expected' result w') :
    p.Always may expected' w := by
  induction p generalizing w with
  | done result => exact himp _ _ h
  | call s next ih => exact fun r v hmay => ih r (h r v hmay)

theorem always_true (p : Program σ ρ ε α) (w : S) : p.Always may (fun _ _ => True) w := by
  rw [always_iff_endsIn]
  intro _ _ _
  trivial

theorem Always.bind {f : α → Program σ ρ ε β} {between : Except ε α → S → Prop}
    {expected : Except ε β → S → Prop} (hp : p.Always may between w)
    (herror : ∀ e w', between (.error e) w' → expected (.error e) w')
    (hok : ∀ a w', between (.ok a) w' → (f a).Always may expected w') :
    (p >>= f).Always may expected w := by
  induction p generalizing w with
  | done result =>
    cases result with
    | error e => exact herror e w hp
    | ok a => exact hok a w hp
  | call s next ih => exact fun r v hmay => ih r (hp r v hmay)

/-- What follows is given the result, also where it is an error. -/
theorem Always.attempt_bind {f : Except ε α → Program σ ρ ε β} {expected : Except ε β → S → Prop}
    (hp : p.Always may (fun result w' => (f result).Always may expected w') w) :
    (p.attempt >>= f).Always may expected w := by
  induction p generalizing w with
  | done result => exact hp
  | call s next ih => exact fun r v hmay => ih r (hp r v hmay)

theorem Always.orElse {g : ε → ε}
    (hp : p.Always may (fun result => expected (result.mapError g)) w) :
    (p.orElse g).Always may expected w := by
  induction p generalizing w with
  | done result =>
    cases result with
    | error e => exact hp
    | ok a => exact hp
  | call s next ih => exact fun r v hmay => ih r (hp r v hmay)

end Program
