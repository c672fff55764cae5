import Signare.UseCases.User
import Signare.Storage.Keyed

/-!
# A use case on its own

What a use case does where nothing else runs and no statement fails for no reason of its own. The
rules hold inside a transaction and outside alike: what is told apart there is what is left after
an error, which inside is not looked at any more but rolled back.
-/

namespace Signare

variable {source : UUIDSource} {α β : Type}

/-- Each call is answered, by what is stored and the key stores. -/
def sequential (source : UUIDSource) (s : Effect) (st : Session × Shared) :
    s.Answer × Session × Shared :=
  s.perform source none st.1 st.2

/-- Where a use case is: outside any transaction at `w`, or in one that was begun at the database
`base` and sees `w`. -/
def TxContext.At (ctx : TxContext) (base : Database) (w : Shared) (st : Session × Shared) : Prop :=
  match ctx with
  | .background => st = (.idle, w)
  | .inTransaction => ∃ writes, Write.applyAll writes base = w.db ∧
      st = (.open_ writes, { w with db := base })

/-- What is left after an error: inside a transaction nothing has been stored yet. -/
def TxContext.AtError (ctx : TxContext) (base : Database) (w : Shared) (st : Session × Shared) :
    Prop :=
  match ctx with
  | .background => st = (.idle, w)
  | .inTransaction => st.2 = { w with db := base }

/-- The use case, begun where it sees `w`, ends with a result and where it sees what `Q` says. -/
def Ensures (source : UUIDSource) (ctx : TxContext) (p : UseCase α) (w : Shared)
    (Q : Except SignareError α → Shared → Prop) : Prop :=
  ∀ base st, ctx.At base w st → ∃ w', Q (p.run (sequential source) st).1 w' ∧
    match (p.run (sequential source) st).1 with
    | .ok _ => ctx.At base w' (p.run (sequential source) st).2
    | .error _ => ctx.AtError base w' (p.run (sequential source) st).2

section Rules

variable {ctx : TxContext} {w : Shared} {Q : Except SignareError α → Shared → Prop}

theorem Ensures.mono {p : UseCase α} {Q' : Except SignareError α → Shared → Prop}
    (h : Ensures source ctx p w Q) (himp : ∀ r w', Q r w' → Q' r w') :
    Ensures source ctx p w Q' := by
  intro base st hst
  obtain ⟨w', hQ, hend⟩ := h base st hst
  exact ⟨w', himp _ _ hQ, hend⟩

theorem Ensures.bind {p : UseCase α} {f : α → UseCase β}
    {R : Except SignareError β → Shared → Prop} (hp : Ensures source ctx p w Q)
    (herror : ∀ err w', Q (.error err) w' → R (.error err) w')
    (hok : ∀ a w', Q (.ok a) w' → Ensures source ctx (f a) w' R) :
    Ensures source ctx (p >>= f) w R := by
  intro base st hst
  obtain ⟨w', hQ, hend⟩ := hp base st hst
  rw [Program.run_bind]
  cases hrun : p.run (sequential source) st with
  | mk result st' =>
    rw [hrun] at hQ hend
    cases result with
    | error err => exact ⟨w', herror err w' hQ, hend⟩
    | ok a => exact hok a w' hQ base st' hend

theorem Ensures.orElse {p : UseCase α} {f : SignareError → SignareError}
    (hp : Ensures source ctx p w fun r w' => Q (r.mapError f) w') :
    Ensures source ctx (p.orElse f) w Q := by
  intro base st hst
  obtain ⟨w', hQ, hend⟩ := hp base st hst
  rw [Program.run_orElse]
  cases hrun : p.run (sequential source) st with
  | mk result st' =>
    rw [hrun] at hQ hend
    cases result with
    | error err => exact ⟨w', hQ, hend⟩
    | ok a => exact ⟨w', hQ, hend⟩

/-- An attempt after which every error is passed on. -/
theorem Ensures.attempt_bind {p : UseCase α} {f : Except SignareError α → UseCase β}
    {R : Except SignareError β → Shared → Prop} (hp : Ensures source ctx p w Q)
    (herror : ∀ err w', Q (.error err) w' → ∃ err', f (.error err) = Program.fail err' ∧
      R (.error err') w')
    (hok : ∀ a w', Q (.ok a) w' → Ensures source ctx (f (.ok a)) w' R) :
    Ensures source ctx (p.attempt >>= f) w R := by
  intro base st hst
  obtain ⟨w', hQ, hend⟩ := hp base st hst
  rw [Program.run_bind, Program.run_attempt]
  cases hrun : p.run (sequential source) st with
  | mk result st' =>
    rw [hrun] at hQ hend
    cases result with
    | error err =>
      obtain ⟨err', hf, hR⟩ := herror err w' hQ
      simp only [hf]
      exact ⟨w', hR, hend⟩
    | ok a => exact hok a w' hQ base st' hend

/-- Outside any transaction an error leaves a use case where it is. -/
theorem Ensures.attempt {p : UseCase α} (hp : Ensures source .background p w Q) :
    Ensures source .background p.attempt w fun r w' => ∃ result, r = .ok result ∧ Q result w' := by
  intro base st hst
  obtain ⟨w', hQ, hend⟩ := hp base st hst
  rw [Program.run_attempt]
  refine ⟨w', ⟨_, rfl, hQ⟩, ?_⟩
  cases hrun : p.run (sequential source) st with
  | mk result st' =>
    rw [hrun] at hend
    cases result with
    | error err => exact hend
    | ok a => exact hend

end Rules

theorem Write.applyAll_append (writes more : List Write) (db : Database) :
    Write.applyAll (writes ++ more) db = Write.applyAll more (Write.applyAll writes db) :=
  List.foldl_append ..

section Calls

variable {ctx : TxContext} {w : Shared}

variable {R : Except SignareError β → Shared → Prop}

end Calls

end Signare
