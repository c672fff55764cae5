import Mathlib.Data.List.Basic

/-!
# Traced computations

Fallible computations that call out. The trace keeps the calls that were made, also where the
computation fails after them.
-/

/-- The calls made, and how the computation ended. -/
structure Traced (γ ε α : Type) where
  calls : List γ
  result : Except ε α

namespace Traced

variable {γ ε α β : Type}

protected def bind (x : Traced γ ε α) (f : α → Traced γ ε β) : Traced γ ε β :=
  match x.result with
  | .error e => ⟨x.calls, .error e⟩
  | .ok a => ⟨x.calls ++ (f a).calls, (f a).result⟩

instance : Monad (Traced γ ε) where
  pure a := ⟨[], .ok a⟩
  bind := Traced.bind

/-- A computation that calls nothing. -/
def lift (x : Except ε α) : Traced γ ε α := ⟨[], x⟩

def fail (e : ε) : Traced γ ε α := lift (.error e)

def call (c : γ) (x : Except ε α) : Traced γ ε α := ⟨[c], x⟩

@[simp] theorem calls_pure (a : α) : (pure a : Traced γ ε α).calls = [] := rfl
@[simp] theorem result_pure (a : α) : (pure a : Traced γ ε α).result = .ok a := rfl
@[simp] theorem calls_lift (x : Except ε α) : (lift x : Traced γ ε α).calls = [] := rfl
@[simp] theorem result_lift (x : Except ε α) : (lift x : Traced γ ε α).result = x := rfl
@[simp] theorem calls_fail (e : ε) : (fail e : Traced γ ε α).calls = [] := rfl
@[simp] theorem result_fail (e : ε) : (fail e : Traced γ ε α).result = .error e := rfl
@[simp] theorem calls_call (c : γ) (x : Except ε α) : (call c x).calls = [c] := rfl
@[simp] theorem result_call (c : γ) (x : Except ε α) : (call c x).result = x := rfl

theorem bind_of_ok {x : Traced γ ε α} {f : α → Traced γ ε β} {a : α} (h : x.result = .ok a) :
    x >>= f = ⟨x.calls ++ (f a).calls, (f a).result⟩ := by
  change Traced.bind x f = _
  rw [Traced.bind, h]

theorem result_bind_of_ok {x : Traced γ ε α} {f : α → Traced γ ε β} {a : α}
    (h : x.result = .ok a) : (x >>= f).result = (f a).result := by
  rw [bind_of_ok h]

theorem result_lift_bind_of_ok {x : Except ε α} {f : α → Traced γ ε β} {a : α} (h : x = .ok a) :
    (lift x >>= f).result = (f a).result := by
  rw [result_bind_of_ok ((result_lift x).trans h)]

theorem bind_of_error {x : Traced γ ε α} {f : α → Traced γ ε β} {e : ε} (h : x.result = .error e) :
    x >>= f = ⟨x.calls, .error e⟩ := by
  change Traced.bind x f = _
  rw [Traced.bind, h]

/-- A chain that succeeds made the calls of both parts. -/
theorem bind_eq_ok {x : Traced γ ε α} {f : α → Traced γ ε β} {b : β} :
    (x >>= f).result = .ok b ↔ ∃ a, x.result = .ok a ∧ (f a).result = .ok b ∧
      (x >>= f).calls = x.calls ++ (f a).calls := by
  cases h : x.result with
  | error e => simp [bind_of_error h]
  | ok a => simp [bind_of_ok h]

theorem lift_bind_eq_ok {x : Except ε α} {f : α → Traced γ ε β} {b : β} :
    (lift x >>= f).result = .ok b ↔ ∃ a, x = .ok a ∧ (f a).result = .ok b ∧
      (lift x >>= f).calls = (f a).calls := by
  rw [bind_eq_ok, result_lift, calls_lift]
  simp only [List.nil_append]

end Traced
