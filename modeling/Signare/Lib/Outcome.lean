import Mathlib.Data.List.Forall2

/-!
# Outcomes of computations

Inversion of a chain of fallible steps, and runs of a recursive function that may be unfinished:
the recursion is given fuel, and more fuel never changes a finished run.
-/

namespace Except

variable {ε α β : Type}

@[simp] theorem ok_bind (a : α) (f : α → Except ε β) : ((.ok a : Except ε α) >>= f) = f a := rfl

theorem bind_eq_ok {x : Except ε α} {f : α → Except ε β} {b : β} :
    (x >>= f) = .ok b ↔ ∃ a, x = .ok a ∧ f a = .ok b := by
  cases x with
  | error e => simp [bind, Except.bind]
  | ok a => simp [bind, Except.bind]

theorem map_eq_ok {x : Except ε α} {f : α → β} {b : β} :
    x.map f = .ok b ↔ ∃ a, x = .ok a ∧ f a = b := by
  cases x <;> simp [Except.map]

theorem bind_eq_error {x : Except ε α} {f : α → Except ε β} {e : ε} :
    (x >>= f) = .error e ↔ x = .error e ∨ ∃ a, x = .ok a ∧ f a = .error e := by
  cases x with
  | error e' => simp [bind, Except.bind]
  | ok a => simp [bind, Except.bind]

theorem map_eq_error {x : Except ε α} {f : α → β} {e : ε} :
    x.map f = .error e ↔ x = .error e := by
  cases x <;> simp [Except.map]

theorem exists_ok_of_isSome {x : Except ε α} (h : x.toOption.isSome) : ∃ a, x = .ok a := by
  cases x with
  | error e => cases h
  | ok a => exact ⟨a, rfl⟩

theorem toOption_eq_some {x : Except ε α} {a : α} : x.toOption = some a ↔ x = .ok a := by
  cases x <;> simp [Except.toOption]

theorem mapError_eq_ok {δ : Type} {x : Except ε α} {f : ε → δ} {a : α} :
    x.mapError f = .ok a ↔ x = .ok a := by
  cases x with
  | error e => simp [Except.mapError]
  | ok b => simp [Except.mapError]

theorem mapM_eq_ok {f : α → Except ε β} {g : α → β} {xs : List α}
    (h : ∀ x ∈ xs, f x = .ok (g x)) : xs.mapM f = .ok (xs.map g) := by
  induction xs with
  | nil => rfl
  | cons x xs ih =>
    rw [List.mapM_cons, h x (by simp), ih fun y hy => h y (by simp [hy])]
    rfl

theorem mapM_eq_ok_iff {f : α → Except ε β} {xs : List α} {ys : List β} :
    xs.mapM f = .ok ys ↔ List.Forall₂ (fun x y => f x = .ok y) xs ys := by
  induction xs generalizing ys with
  | nil =>
    rw [List.mapM_nil, List.forall₂_nil_left_iff]
    exact ⟨fun h => (Except.ok.inj h).symm, fun h => congrArg Except.ok h.symm⟩
  | cons x xs ih =>
    simp only [List.mapM_cons, bind_eq_ok, List.forall₂_cons_left_iff, ih]
    constructor
    · intro h
      obtain ⟨y, hy, ys', hys, h⟩ := h
      cases h
      exact ⟨y, ys', hy, hys, rfl⟩
    · intro h
      obtain ⟨y, ys', hy, hys, rfl⟩ := h
      exact ⟨y, hy, ys', hys, rfl⟩

theorem length_of_mapM_eq_ok {f : α → Except ε β} {xs : List α} {ys : List β}
    (h : xs.mapM f = .ok ys) : ys.length = xs.length :=
  (mapM_eq_ok_iff.mp h).length_eq.symm

theorem mem_of_mapM_eq_ok {f : α → Except ε β} {xs : List α} {ys : List β}
    (h : xs.mapM f = .ok ys) {y : β} : y ∈ ys ↔ ∃ x ∈ xs, f x = .ok y := by
  rw [mapM_eq_ok_iff] at h
  induction h with
  | nil => simp
  | cons hx _ ih =>
    rw [List.mem_cons, ih, eq_comm]
    simp only [List.mem_cons, or_and_right, exists_or, exists_eq_left, hx, Except.ok.injEq]

theorem exists_mapM_eq_ok {f : α → Except ε β} {xs : List α} :
    (∃ ys, xs.mapM f = .ok ys) ↔ ∀ x ∈ xs, ∃ y, f x = .ok y := by
  induction xs with
  | nil => exact ⟨fun _ => List.forall_mem_nil _, fun _ => ⟨[], rfl⟩⟩
  | cons x xs ih =>
    rw [List.forall_mem_cons, ← ih]
    simp only [mapM_eq_ok_iff, List.forall₂_cons_left_iff]
    constructor
    · intro h
      obtain ⟨_, y, ys, hy, hys, -⟩ := h
      exact ⟨⟨y, hy⟩, ys, hys⟩
    · intro h
      obtain ⟨⟨y, hy⟩, ys, hys⟩ := h
      exact ⟨y :: ys, y, ys, hy, hys, rfl⟩

theorem foldlM_eq_ok {f : β → α → Except ε β} {g : β → α → β} {xs : List α} {b : β}
    (h : ∀ x ∈ xs, ∀ b, f b x = .ok (g b x)) : xs.foldlM f b = .ok (xs.foldl g b) := by
  induction xs generalizing b with
  | nil => rfl
  | cons x xs ih =>
    rw [List.foldlM_cons, h x (by simp)]
    exact ih fun y hy => h y (by simp [hy])

theorem foldl_of_foldlM_eq_ok {f : β → α → Except ε β} {g : β → α → β} {xs : List α} {b c : β}
    (h : ∀ x b b', f b x = .ok b' → b' = g b x) (hfold : xs.foldlM f b = .ok c) :
    c = xs.foldl g b := by
  induction xs generalizing b with
  | nil => exact (Except.ok.inj hfold).symm
  | cons x xs ih =>
    rw [List.foldlM_cons] at hfold
    obtain ⟨b', hb', hrest⟩ := bind_eq_ok.mp hfold
    rw [List.foldl_cons, ← h x b b' hb']
    exact ih hrest

theorem pure_eq_ok {a b : α} : (pure a : Except ε α) = .ok b ↔ a = b := by
  simp [pure, Except.pure]

end Except

/-- A run that is unfinished for want of fuel, has failed, or has a result. -/
inductive Run (ε α : Type)
  | running
  | failed (e : ε)
  | done (a : α)
  deriving DecidableEq, Repr

namespace Run

variable {ε α β : Type}

protected def bind (x : Run ε α) (f : α → Run ε β) : Run ε β :=
  match x with
  | .running => .running
  | .failed e => .failed e
  | .done a => f a

instance : Monad (Run ε) where
  pure := .done
  bind := Run.bind

def ofExcept : Except ε α → Run ε α
  | .error e => .failed e
  | .ok a => .done a

@[simp] theorem pure_eq (a : α) : (pure a : Run ε α) = .done a := rfl
@[simp] theorem bind_running (f : α → Run ε β) : ((.running : Run ε α) >>= f) = .running := rfl
@[simp] theorem bind_failed (e : ε) (f : α → Run ε β) :
    ((.failed e : Run ε α) >>= f) = .failed e := rfl
@[simp] theorem bind_done (a : α) (f : α → Run ε β) : ((.done a : Run ε α) >>= f) = f a := rfl
@[simp] theorem ofExcept_ok (a : α) : ofExcept (.ok a : Except ε α) = .done a := rfl
@[simp] theorem ofExcept_error (e : ε) : ofExcept (.error e : Except ε α) = .failed e := rfl

theorem bind_eq_done {x : Run ε α} {f : α → Run ε β} {b : β} :
    (x >>= f) = .done b ↔ ∃ a, x = .done a ∧ f a = .done b := by
  cases x <;> simp

theorem ofExcept_eq_done {x : Except ε α} {a : α} : ofExcept x = .done a ↔ x = .ok a := by
  cases x <;> simp

def isDone : Run ε α → Bool
  | .done _ => true
  | _ => false

theorem exists_done_of_isDone {x : Run ε α} (h : x.isDone) : ∃ a, x = .done a := by
  cases x with
  | done a => exact ⟨a, rfl⟩
  | running => cases h
  | failed e => cases h

/-- `y` is `x` with more fuel: the same unless `x` is unfinished. -/
def Le (x y : Run ε α) : Prop := x = .running ∨ x = y

theorem Le.refl (x : Run ε α) : Le x x := .inr rfl

theorem Le.trans {x y z : Run ε α} (h : Le x y) (h' : Le y z) : Le x z := by
  rcases h with rfl | rfl
  · exact .inl rfl
  · exact h'

theorem Le.done {x y : Run ε α} {a : α} (h : Le x y) (hx : x = .done a) : y = .done a := by
  subst hx
  rcases h with h | h
  · cases h
  · exact h.symm

theorem Le.failed {x y : Run ε α} {e : ε} (h : Le x y) (hx : x = .failed e) : y = .failed e := by
  subst hx
  rcases h with h | h
  · cases h
  · exact h.symm

theorem Le.bind {x y : Run ε α} {f g : α → Run ε β} (h : Le x y) (hfg : ∀ a, Le (f a) (g a)) :
    Le (x >>= f) (y >>= g) := by
  rcases h with rfl | rfl
  · exact .inl rfl
  · cases x with
    | running => exact .inl rfl
    | failed e => exact .inr rfl
    | done a => exact hfg a

/-- A fuelled family whose runs are only completed by one more unit of fuel. -/
theorem le_of_step {f : Nat → Run ε α} (h : ∀ n, Le (f n) (f (n + 1))) {m n : Nat} (hmn : m ≤ n) :
    Le (f m) (f n) := by
  induction hmn with
  | refl => exact Le.refl _
  | step _ ih => exact ih.trans (h _)

end Run
