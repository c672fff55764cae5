import Mathlib.Data.List.Basic

/-!
# Programs that call out

A program is a tree of calls: each call is answered, and the program goes on with the answer until
it ends with a result or an error. What a program does is given by a handler of its calls; what it
can do, whatever the answers, is given by its weakest precondition over histories.
-/

/-- Programs whose calls are `σ`, answered in `ρ`, that end with an `α` or an error `ε`. -/
inductive Program (σ : Type) (ρ : σ → Type) (ε α : Type)
  | done (result : Except ε α)
  | call (s : σ) (next : ρ s → Program σ ρ ε α)

namespace Program

variable {σ : Type} {ρ : σ → Type} {ε α β γ : Type}

protected def bind (f : α → Program σ ρ ε β) : Program σ ρ ε α → Program σ ρ ε β
  | .done (.error e) => .done (.error e)
  | .done (.ok a) => f a
  | .call s next => .call s fun r => (next r).bind f

instance : Monad (Program σ ρ ε) where
  pure a := .done (.ok a)
  bind p f := p.bind f

def fail (e : ε) : Program σ ρ ε α := .done (.error e)

def lift (x : Except ε α) : Program σ ρ ε α := .done x

/-- A single call. -/
def request (s : σ) : Program σ ρ ε (ρ s) := .call s fun r => .done (.ok r)

/-- The result as a value, also where it is an error. -/
def attempt : Program σ ρ ε α → Program σ ρ ε (Except ε α)
  | .done result => .done (.ok result)
  | .call s next => .call s fun r => (next r).attempt

/-- What becomes of an error: `if err != nil { return f(err) }`. -/
def orElse (f : ε → ε) : Program σ ρ ε α → Program σ ρ ε α
  | .done (.error e) => .done (.error (f e))
  | .done (.ok a) => .done (.ok a)
  | .call s next => .call s fun r => (next r).orElse f

@[simp] theorem pure_eq (a : α) : (pure a : Program σ ρ ε α) = .done (.ok a) := rfl
@[simp] theorem fail_eq (e : ε) : (fail e : Program σ ρ ε α) = .done (.error e) := rfl
@[simp] theorem lift_eq (x : Except ε α) : (lift x : Program σ ρ ε α) = .done x := rfl
@[simp] theorem done_ok_bind (a : α) (f : α → Program σ ρ ε β) : .done (.ok a) >>= f = f a := rfl
@[simp] theorem done_error_bind (e : ε) (f : α → Program σ ρ ε β) :
    .done (.error e) >>= f = .done (.error e) := rfl
@[simp] theorem call_bind (s : σ) (next : ρ s → Program σ ρ ε α) (f : α → Program σ ρ ε β) :
    .call s next >>= f = .call s fun r => next r >>= f := rfl

section Run

variable {S : Type}

/-- The program run on its own, by a handler that answers each call and changes the state. -/
def run (handle : (s : σ) → S → ρ s × S) : Program σ ρ ε α → S → Except ε α × S
  | .done result, w => (result, w)
  | .call s next, w => (next (handle s w).1).run handle (handle s w).2

variable (handle : (s : σ) → S → ρ s × S)

@[simp] theorem run_done (result : Except ε α) (w : S) :
    (.done result : Program σ ρ ε α).run handle w = (result, w) := rfl

@[simp] theorem run_call (s : σ) (next : ρ s → Program σ ρ ε α) (w : S) :
    (Program.call s next).run handle w = (next (handle s w).1).run handle (handle s w).2 := rfl

@[simp] theorem run_request (s : σ) (w : S) :
    (request s : Program σ ρ ε (ρ s)).run handle w = (.ok (handle s w).1, (handle s w).2) := rfl

theorem run_bind (p : Program σ ρ ε α) (f : α → Program σ ρ ε β) (w : S) :
    (p >>= f).run handle w =
      match p.run handle w with
      | (.error e, w') => (.error e, w')
      | (.ok a, w') => (f a).run handle w' := by
  induction p generalizing w with
  | done result =>
    cases result with
    | error e => rfl
    | ok a => rfl
  | call s next ih => exact ih (handle s w).1 (handle s w).2

theorem run_bind_ok {p : Program σ ρ ε α} {f : α → Program σ ρ ε β} {w w' : S} {a : α}
    (h : p.run handle w = (.ok a, w')) : (p >>= f).run handle w = (f a).run handle w' := by
  rw [run_bind, h]

theorem run_bind_error {p : Program σ ρ ε α} {f : α → Program σ ρ ε β} {w w' : S} {e : ε}
    (h : p.run handle w = (.error e, w')) : (p >>= f).run handle w = (.error e, w') := by
  rw [run_bind, h]

theorem run_attempt (p : Program σ ρ ε α) (w : S) :
    p.attempt.run handle w = (.ok (p.run handle w).1, (p.run handle w).2) := by
  induction p generalizing w with
  | done result => rfl
  | call s next ih => exact ih (handle s w).1 (handle s w).2

theorem run_orElse (f : ε → ε) (p : Program σ ρ ε α) (w : S) :
    (p.orElse f).run handle w = ((p.run handle w).1.mapError f, (p.run handle w).2) := by
  induction p generalizing w with
  | done result =>
    cases result with
    | error e => rfl
    | ok a => rfl
  | call s next ih => exact ih (handle s w).1 (handle s w).2

end Run

/-- A call and its answer. -/
abbrev Event (ρ : σ → Type) := (s : σ) × ρ s

/-- The calls of a run, with their answers. -/
def trace {S : Type} (handle : (s : σ) → S → ρ s × S) : Program σ ρ ε α → S → List (Event ρ)
  | .done _, _ => []
  | .call s next, w =>
    ⟨s, (handle s w).1⟩ :: (next (handle s w).1).trace handle (handle s w).2

theorem trace_attempt_bind {S : Type} (handle : (s : σ) → S → ρ s × S) (p : Program σ ρ ε α)
    (f : Except ε α → Program σ ρ ε β) (w : S) : (p.attempt >>= f).trace handle w =
      p.trace handle w ++ (f (p.run handle w).1).trace handle (p.run handle w).2 := by
  induction p generalizing w with
  | done result => rfl
  | call s next ih => exact congrArg _ (ih (handle s w).1 (handle s w).2)

/-- Every call the program can make is allowed after the calls before it, and every end it can come
to is as expected, whatever the answers are. -/
def Meets (allowed : List (Event ρ) → σ → Prop) :
    Program σ ρ ε α → (Except ε α → List (Event ρ) → Prop) → List (Event ρ) → Prop
  | .done result, expected, history => expected result history
  | .call s next, expected, history =>
    allowed history s ∧ ∀ r, (next r).Meets allowed expected (history ++ [⟨s, r⟩])

variable {allowed : List (Event ρ) → σ → Prop}

@[simp] theorem meets_done (result : Except ε α) (expected : Except ε α → List (Event ρ) → Prop)
    (history : List (Event ρ)) :
    (Program.done result).Meets allowed expected history ↔ expected result history := Iff.rfl

theorem meets_call (s : σ) (next : ρ s → Program σ ρ ε α)
    (expected : Except ε α → List (Event ρ) → Prop) (history : List (Event ρ)) :
    (Program.call s next).Meets allowed expected history ↔
      allowed history s ∧ ∀ r, (next r).Meets allowed expected (history ++ [⟨s, r⟩]) := Iff.rfl

@[simp] theorem meets_request (s : σ) (expected : Except ε (ρ s) → List (Event ρ) → Prop)
    (history : List (Event ρ)) :
    (request s : Program σ ρ ε (ρ s)).Meets allowed expected history ↔
      allowed history s ∧ ∀ r, expected (.ok r) (history ++ [⟨s, r⟩]) := Iff.rfl

theorem Meets.mono {p : Program σ ρ ε α} {expected expected' : Except ε α → List (Event ρ) → Prop}
    {history : List (Event ρ)} (h : p.Meets allowed expected history)
    (himp : ∀ result history, expected result history → expected' result history) :
    p.Meets allowed expected' history := by
  induction p generalizing history with
  | done result => exact himp _ _ h
  | call s next ih => exact ⟨h.1, fun r => ih r (h.2 r)⟩

theorem meets_bind (p : Program σ ρ ε α) (f : α → Program σ ρ ε β)
    (expected : Except ε β → List (Event ρ) → Prop) (history : List (Event ρ)) :
    (p >>= f).Meets allowed expected history ↔
      p.Meets allowed (fun result history' =>
        match result with
        | .error e => expected (.error e) history'
        | .ok a => (f a).Meets allowed expected history') history := by
  induction p generalizing history with
  | done result =>
    cases result with
    | error e => rfl
    | ok a => rfl
  | call s next ih => exact and_congr_right fun _ => forall_congr' fun r => ih r _

theorem meets_orElse (g : ε → ε) (p : Program σ ρ ε α)
    (expected : Except ε α → List (Event ρ) → Prop) (history : List (Event ρ)) :
    (p.orElse g).Meets allowed expected history ↔
      p.Meets allowed (fun result => expected (result.mapError g)) history := by
  induction p generalizing history with
  | done result =>
    cases result with
    | error e => rfl
    | ok a => rfl
  | call s next ih => exact and_congr_right fun _ => forall_congr' fun r => ih r _

theorem meets_attempt (p : Program σ ρ ε α)
    (expected : Except ε (Except ε α) → List (Event ρ) → Prop) (history : List (Event ρ)) :
    p.attempt.Meets allowed expected history ↔
      p.Meets allowed (fun result => expected (.ok result)) history := by
  induction p generalizing history with
  | done result => rfl
  | call s next ih => exact and_congr_right fun _ => forall_congr' fun r => ih r _

theorem Meets.bind {p : Program σ ρ ε α} {f : α → Program σ ρ ε β}
    {between : Except ε α → List (Event ρ) → Prop} {expected : Except ε β → List (Event ρ) → Prop}
    {history : List (Event ρ)} (hp : p.Meets allowed between history)
    (herror : ∀ e history', between (.error e) history' → expected (.error e) history')
    (hok : ∀ a history', between (.ok a) history' → (f a).Meets allowed expected history') :
    (p >>= f).Meets allowed expected history := by
  rw [meets_bind]
  refine hp.mono fun result history' hbetween => ?_
  cases result with
  | error e => exact herror e history' hbetween
  | ok a => exact hok a history' hbetween

/-- What is allowed and expected is what a run calls and how it ends. -/
theorem Meets.along_trace {S : Type} {p : Program σ ρ ε α}
    {expected : Except ε α → List (Event ρ) → Prop} {history : List (Event ρ)}
    (h : p.Meets allowed expected history) (handle : (s : σ) → S → ρ s × S) (w : S) :
    (∀ before s r after, p.trace handle w = before ++ ⟨s, r⟩ :: after →
      allowed (history ++ before) s) ∧
      expected (p.run handle w).1 (history ++ p.trace handle w) := by
  induction p generalizing history w with
  | done result =>
    refine ⟨fun before s r after heq => ?_, ?_⟩
    · cases before <;> cases heq
    · rw [trace, List.append_nil]
      exact h
  | call s next ih =>
    obtain ⟨hallowed, hnext⟩ := h
    obtain ⟨hcalls, hend⟩ := ih _ (hnext (handle s w).1) (handle s w).2
    rw [List.append_assoc, List.singleton_append] at hend
    refine ⟨fun before s' r after heq => ?_, hend⟩
    cases before with
    | nil =>
      cases heq
      rw [List.append_nil]
      exact hallowed
    | cons event before =>
      rw [trace, List.cons_append, List.cons.injEq] at heq
      have hlater := hcalls before s' r after heq.2
      rw [heq.1, List.append_assoc, List.singleton_append] at hlater
      exact hlater

/-- What has been done stays done. -/
theorem Meets.extends {p : Program σ ρ ε α} {expected : Except ε α → List (Event ρ) → Prop}
    {history : List (Event ρ)} (hp : p.Meets allowed expected history) :
    p.Meets allowed (fun result history' =>
      expected result history' ∧ ∃ more, history' = history ++ more) history := by
  induction p generalizing history with
  | done result => exact ⟨hp, [], (List.append_nil history).symm⟩
  | call s next ih =>
    refine ⟨hp.1, fun r => (ih r (hp.2 r)).mono fun result history' h => ⟨h.1, ?_⟩⟩
    obtain ⟨more, hmore⟩ := h.2
    exact ⟨⟨s, r⟩ :: more, by rw [hmore, List.append_assoc, List.singleton_append]⟩

/-- Sequencing, where nothing has to be known of the first program. -/
theorem Meets.bind_any {p : Program σ ρ ε α} {f : α → Program σ ρ ε β}
    {history : List (Event ρ)} (hp : p.Meets allowed (fun _ _ => True) history)
    (hok : ∀ a more, (f a).Meets allowed (fun _ _ => True) (history ++ more)) :
    (p >>= f).Meets allowed (fun _ _ => True) history := by
  apply hp.extends.bind
  · intro e history' _
    trivial
  · intro a history' h
    obtain ⟨more, hmore⟩ := h.2
    rw [hmore]
    exact hok a more

/-- What is allowed, and what is expected where everything is. -/
theorem Meets.expecting {p : Program σ ρ ε α} {expected expected' : Except ε α → List (Event ρ) → Prop}
    {history : List (Event ρ)} (h : p.Meets allowed expected history)
    (h' : p.Meets (fun _ _ => True) expected' history) : p.Meets allowed expected' history := by
  induction p generalizing history with
  | done result => exact h'
  | call s next ih => exact ⟨h.1, fun r => ih r (h.2 r) (h'.2 r)⟩

theorem meets_any (p : Program σ ρ ε α) (history : List (Event ρ)) :
    p.Meets (fun _ _ => True) (fun _ _ => True) history := by
  induction p generalizing history with
  | done result => trivial
  | call s next ih => exact ⟨trivial, fun r => ih r _⟩

theorem Meets.orElse_any {p : Program σ ρ ε α} {g : ε → ε} {history : List (Event ρ)}
    (hp : p.Meets allowed (fun _ _ => True) history) :
    (p.orElse g).Meets allowed (fun _ _ => True) history := by
  rw [meets_orElse]
  exact hp

theorem Meets.attempt_any {p : Program σ ρ ε α} {history : List (Event ρ)}
    (hp : p.Meets allowed (fun _ _ => True) history) :
    p.attempt.Meets allowed (fun _ _ => True) history := by
  rw [meets_attempt]
  exact hp

theorem Meets.orElse {p : Program σ ρ ε α} {g : ε → ε}
    {between expected : Except ε α → List (Event ρ) → Prop} {history : List (Event ρ)}
    (hp : p.Meets allowed between history)
    (herror : ∀ e history', between (.error e) history' → expected (.error (g e)) history')
    (hok : ∀ a history', between (.ok a) history' → expected (.ok a) history') :
    (p.orElse g).Meets allowed expected history := by
  rw [meets_orElse]
  refine hp.mono fun result history' hbetween => ?_
  cases result with
  | error e => exact herror e history' hbetween
  | ok a => exact hok a history' hbetween

/-- What is known of a success is kept where only the error is replaced. -/
theorem Meets.orElse_found {p : Program σ ρ ε α} {g : ε → ε} {kept : List (Event ρ) → Prop}
    {found : α → List (Event ρ) → Prop} {history : List (Event ρ)}
    (hp : p.Meets allowed (fun result history' =>
      kept history' ∧ ∀ a, result = .ok a → found a history') history) :
    (p.orElse g).Meets allowed (fun result history' =>
      kept history' ∧ ∀ a, result = .ok a → found a history') history := by
  apply hp.orElse
  · intro e history' h
    exact ⟨h.1, nofun⟩
  · intro a history' h
    exact h

/-- Every call in the tree is one of `p`. -/
def Only (p : σ → Prop) : Program σ ρ ε α → Prop
  | .done _ => True
  | .call s next => p s ∧ ∀ r, (next r).Only p

section Only

variable {p : σ → Prop}

@[simp] theorem only_done (result : Except ε α) :
    (Program.done result : Program σ ρ ε α).Only p := trivial

@[simp] theorem only_request (s : σ) : (request s : Program σ ρ ε (ρ s)).Only p ↔ p s :=
  ⟨fun h => h.1, fun h => ⟨h, fun _ => trivial⟩⟩

theorem only_bind {q : Program σ ρ ε α} {f : α → Program σ ρ ε β} (hq : q.Only p)
    (hf : ∀ a, (f a).Only p) : (q >>= f).Only p := by
  induction q with
  | done result =>
    cases result with
    | error e => trivial
    | ok a => exact hf a
  | call s next ih => exact ⟨hq.1, fun r => ih r (hq.2 r)⟩

theorem only_orElse {q : Program σ ρ ε α} {f : ε → ε} (hq : q.Only p) : (q.orElse f).Only p := by
  induction q with
  | done result =>
    cases result with
    | error e => trivial
    | ok a => trivial
  | call s next ih => exact ⟨hq.1, fun r => ih r (hq.2 r)⟩

theorem only_attempt {q : Program σ ρ ε α} (hq : q.Only p) : q.attempt.Only p := by
  induction q with
  | done result => trivial
  | call s next ih => exact ⟨hq.1, fun r => ih r (hq.2 r)⟩

theorem Only.mono {q : Program σ ρ ε α} {p' : σ → Prop} (hq : q.Only p) (h : ∀ s, p s → p' s) :
    q.Only p' := by
  induction q with
  | done result => trivial
  | call s next ih => exact ⟨h s hq.1, fun r => ih r (hq.2 r)⟩

theorem Only.meets {q : Program σ ρ ε α} {expected : Except ε α → List (Event ρ) → Prop}
    {history : List (Event ρ)} (hq : q.Only p) (hp : ∀ more s, p s → allowed (history ++ more) s)
    (hexpected : ∀ result more, expected result (history ++ more)) :
    q.Meets allowed expected history := by
  induction q generalizing history with
  | done result => simpa using hexpected result []
  | call s next ih =>
    have hallowed : allowed history s := by simpa using hp [] s hq.1
    refine ⟨hallowed, fun r => ih r (hq.2 r) (fun more s' hs' => ?_) fun result more => ?_⟩
    · rw [List.append_assoc]
      exact hp _ s' hs'
    · rw [List.append_assoc]
      exact hexpected result _

/-- What every such call keeps holds at the end. -/
theorem Only.meets_invariant {q : Program σ ρ ε α} {inv : List (Event ρ) → Prop}
    {history : List (Event ρ)} (hq : q.Only p) (hstart : inv history)
    (hstep : ∀ history s, inv history → p s →
      allowed history s ∧ ∀ r, inv (history ++ [⟨s, r⟩])) :
    q.Meets allowed (fun _ history' => inv history') history := by
  induction q generalizing history with
  | done result => exact hstart
  | call s next ih =>
    obtain ⟨hallowed, hkept⟩ := hstep history s hstart hq.1
    exact ⟨hallowed, fun r => ih r (hq.2 r) (hkept r)⟩

/-- The same, beside what else is known of the end. -/
theorem Only.meets_and {q : Program σ ρ ε α} {inv : List (Event ρ) → Prop}
    {expected : Except ε α → List (Event ρ) → Prop} {history : List (Event ρ)} (hq : q.Only p)
    (hmeets : q.Meets allowed expected history) (hstart : inv history)
    (hstep : ∀ history s r, inv history → p s → inv (history ++ [⟨s, r⟩])) :
    q.Meets allowed (fun result history' => expected result history' ∧ inv history') history := by
  induction q generalizing history with
  | done result => exact ⟨hmeets, hstart⟩
  | call s next ih =>
    exact ⟨hmeets.1, fun r => ih r (hq.2 r) (hmeets.2 r) (hstep history s r hstart hq.1)⟩

end Only

end Program
