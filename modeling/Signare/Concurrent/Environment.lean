import Signare.Lib.Interleaving
import Signare.UseCases.User
import Mathlib.Data.Fintype.Basic

/-!
# Use cases side by side

Any number of use cases over one database, one statement at a time in any order. A statement waits
while it would write what an open transaction has written, and may fail while it waits.
-/

namespace Signare

variable {ι α : Type}

abbrev StorageConfig (ι α : Type) :=
  Interleaving.Config ι Effect Effect.Answer SignareError α Session Shared

/-- Whether the first write has to wait for the transaction that made the second. -/
def Write.waitsFor (db : Database) : Write → Write → Prop
  | .insert t row, .insert t' row' => ∃ h : t = t', clash t' (h ▸ row) row'
  | .insert t row, .remove t' identities =>
    ∃ h : t = t', ∃ row' ∈ db t', identity t' row' ∈ identities ∧ clash t' (h ▸ row) row'
  | .remove t identities, .remove t' identities' => t = t' ∧ ∃ id ∈ identities, id ∈ identities'
  | .remove t identities, .change t' identities' _ => t = t' ∧ ∃ id ∈ identities, id ∈ identities'
  | .change t identities _, .remove t' identities' => t = t' ∧ ∃ id ∈ identities, id ∈ identities'
  | .change t identities _, .change t' identities' _ =>
    t = t' ∧ ∃ id ∈ identities, id ∈ identities'
  | _, _ => False

/-- The writes of a transaction that is still open. -/
def Session.pending : Session → List Write
  | .open_ writes => writes
  | _ => []

/-- What the next call of a use case would write. -/
def Effect.write (session : Session) (db : Database) : Effect → Option Write
  | .statement s => s.write (session.view db)
  | _ => none

def Blocked (c : StorageConfig ι α) (i : ι) (s : Effect) : Prop :=
  ∃ j, j ≠ i ∧ ∃ write', write' ∈ (c.threads j).session.pending ∧
    ∃ write, s.write (c.threads i).session c.shared.db = some write ∧
      write.waitsFor c.shared.db write'

/-- The database and the key stores as the environment of the use cases. `faults` are the errors
that a call may fail with for no reason of its own, also when it would have to wait (a deadlock, a
timeout, a lost connection). -/
def storage (source : UUIDSource) (faults : PersistenceError → Prop) :
    Interleaving.Environment ι Effect Effect.Answer SignareError α Session Shared :=
  fun c i s answer session shared => ∃ fault : Option PersistenceError,
    (∀ err ∈ fault, faults err) ∧ (fault = none → ¬ Blocked c i s) ∧
      s.perform source fault (c.threads i).session c.shared = (answer, session, shared)

/-- A statement that is answered has not been made to wait. -/
theorem free_of_answered {source : UUIDSource} {c : StorageConfig ι α} {i : ι} {s : Statement}
    {fault : Option PersistenceError} {result : s.Result} {session : Session} {shared : Shared}
    (hfree : fault = none → ¬ Blocked c i (.statement s))
    (hperform : Effect.perform source (.statement s) fault (c.threads i).session c.shared =
      (.ok result, session, shared)) : ¬ Blocked c i (.statement s) := by
  cases fault with
  | none => exact hfree rfl
  | some err => cases hsession : (c.threads i).session <;> rw [hsession] at hperform <;> cases hperform

/-- No call fails for no reason of its own. -/
def noFaults : PersistenceError → Prop := fun _ => False

/-- An environment whose every step meets a condition on the state before it. -/
def limited
    (act : Interleaving.Environment ι Effect Effect.Answer SignareError α Session Shared)
    (condition : StorageConfig ι α → ι → Effect → Prop) :
    Interleaving.Environment ι Effect Effect.Answer SignareError α Session Shared :=
  fun c i s answer session shared => act c i s answer session shared ∧ condition c i s

/-- No use case has written anything in an open transaction. -/
def Quiet (c : StorageConfig ι α) : Prop := ∀ j, (c.threads j).session.pending.isEmpty

instance [Fintype ι] (c : StorageConfig ι α) : Decidable (Quiet c) :=
  inferInstanceAs (Decidable (∀ j, (c.threads j).session.pending.isEmpty = true))

/-- No other has. -/
def OthersQuiet (c : StorageConfig ι α) (i : ι) : Prop :=
  ∀ j, j ≠ i → (c.threads j).session.pending.isEmpty

instance [Fintype ι] [DecidableEq ι] (c : StorageConfig ι α) (i : ι) : Decidable (OthersQuiet c i) :=
  inferInstanceAs (Decidable (∀ j, j ≠ i → (c.threads j).session.pending.isEmpty = true))

theorem Quiet.others {c : StorageConfig ι α} (h : Quiet c) (i : ι) : OthersQuiet c i :=
  fun j _ => h j

theorem OthersQuiet.not_blocked {c : StorageConfig ι α} {i : ι} (h : OthersQuiet c i) (s : Effect) :
    ¬ Blocked c i s := by
  rintro ⟨j, hj, write', hmem, -⟩
  rw [List.isEmpty_iff.mp (h j hj)] at hmem
  cases hmem

section Schedule

variable [DecidableEq ι]

/-- One step of a use case to which nothing fails and for which nothing is waited. -/
def advance (source : UUIDSource) (c : StorageConfig ι α) (i : ι) : StorageConfig ι α :=
  match (c.threads i).program with
  | .done _ => c
  | .call s next =>
    let (answer, session, shared) := s.perform source none (c.threads i).session c.shared
    c.after i s next answer session shared

/-- Steps in the order of a schedule. -/
def follow (source : UUIDSource) (c : StorageConfig ι α) (schedule : List ι) :
    StorageConfig ι α :=
  schedule.foldl (advance source) c

theorem run_advance {source : UUIDSource} {faults : PersistenceError → Prop}
    {c : StorageConfig ι α} {i : ι} (h : OthersQuiet c i) :
    Interleaving.Run (storage source faults) c (advance source c i) := by
  unfold advance
  split
  · exact .refl
  · next s next hprogram =>
    exact .single (.call i hprogram
      ⟨none, by simp, fun _ => h.not_blocked s, rfl⟩)

theorem run_follow_others {source : UUIDSource} {faults : PersistenceError → Prop}
    {c : StorageConfig ι α} (schedule : List ι)
    (h : ∀ n < schedule.length, ∀ i ∈ schedule[n]?,
      OthersQuiet (follow source c (schedule.take n)) i) :
    Interleaving.Run (storage source faults) c (follow source c schedule) := by
  induction schedule generalizing c with
  | nil => exact .refl
  | cons i schedule ih =>
    have hothers : OthersQuiet c i := h 0 (Nat.succ_pos _) i rfl
    refine (run_advance hothers).trans (ih fun n hn => ?_)
    exact h (n + 1) (Nat.succ_lt_succ hn)

theorem run_follow {source : UUIDSource} {faults : PersistenceError → Prop}
    {c : StorageConfig ι α} (schedule : List ι)
    (h : ∀ n ≤ schedule.length, Quiet (follow source c (schedule.take n))) :
    Interleaving.Run (storage source faults) c (follow source c schedule) :=
  run_follow_others schedule fun n hn i _ => (h n hn.le).others i

theorem run_follow_limited {source : UUIDSource} {faults : PersistenceError → Prop}
    {condition : StorageConfig ι α → ι → Effect → Prop} {c : StorageConfig ι α}
    (schedule : List ι) (h : ∀ n ≤ schedule.length, Quiet (follow source c (schedule.take n)) ∧
      ∀ i s, condition (follow source c (schedule.take n)) i s) :
    Interleaving.Run (limited (storage source faults) condition) c
      (follow source c schedule) := by
  induction schedule generalizing c with
  | nil => exact .refl
  | cons i schedule ih =>
    obtain ⟨hquiet, hcondition⟩ : Quiet c ∧ ∀ i s, condition c i s := h 0 (Nat.zero_le _)
    have hfirst : Interleaving.Run (limited (storage source faults) condition) c
        (advance source c i) := by
      unfold advance
      split
      · exact .refl
      · next s next hprogram =>
        exact .single (.call i hprogram
          ⟨⟨none, by simp, fun _ => (hquiet.others i).not_blocked s, rfl⟩, hcondition i s⟩)
    exact hfirst.trans (ih fun n hn => h (n + 1) (Nat.succ_le_succ hn))

end Schedule

end Signare
