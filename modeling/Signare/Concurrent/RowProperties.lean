import Signare.Concurrent.StoredVersions

/-!
# What is true of every row

A property of rows lasts where every row that is inserted has it and no update loses it. What is
written may go by what was read, and what was read has the property too.
-/

namespace Signare

open Interleaving

def Database.All (P : (t : Table) → Row t → Prop) (db : Database) : Prop :=
  ∀ t, ∀ row ∈ db t, P t row

/-- A write after which the rows have the property if they had it before. -/
def Write.Preserves (P : (t : Table) → Row t → Prop) : Write → Prop
  | .insert t row => P t row
  | .remove .. => True
  | .change t _ assign => ∀ row, P t row → P t (assign row)

/-- A call that makes no other write. -/
def Effect.KeepsRows (P : (t : Table) → Row t → Prop) : Effect → Prop
  | .statement (.insert t row) => P t row
  | .statement (.update t _ _ assign) => ∀ row, P t row → P t (assign row)
  | _ => True

/-- The rows in a result have the property. -/
def Statement.Yields (P : (t : Table) → Row t → Prop) : (s : Statement) → s.Result → Prop
  | .getById t _, (rows : List (Row t)) => ∀ row ∈ rows, P t row
  | .list t _ _, (rows : List (Row t)) => ∀ row ∈ rows, P t row
  | _, _ => True

/-- The rows that were read have the property. -/
def Answered (P : (t : Table) → Row t → Prop) (history : History) : Prop :=
  ∀ (s : Statement) (result : s.Result),
    (⟨.statement s, .ok result⟩ : Program.Event Effect.Answer) ∈ history → s.Yields P result

/-- The writes of a use case, going by what it has read. -/
def Keeping (P : (t : Table) → Row t → Prop) (history : History) (s : Effect) : Prop :=
  Answered P history → s.KeepsRows P

/-- What has the property, while use cases run side by side. -/
structure RowInv {ι α : Type} (P : (t : Table) → Row t → Prop) (c : StorageConfig ι α) : Prop where
  stored : c.shared.db.All P
  pending : ∀ i, ∀ w ∈ (c.threads i).session.pending, w.Preserves P
  answered : ∀ i, Answered P (c.threads i).history

variable {P : (t : Table) → Row t → Prop}

section Call

variable {db : Database} {w : Write} {writes : List Write} {s : Statement}

theorem Database.All.apply (h : db.All P) (hw : w.Preserves P) : (w.apply db).All P := by
  intro t row hrow
  cases w with
  | insert t' row' =>
    obtain hmem | ⟨rfl, rfl⟩ := mem_apply_insert hrow
    · exact h t row hmem
    · exact hw
  | remove t' identities => exact h t row (mem_apply_remove hrow)
  | change t' identities assign =>
    obtain hmem | ⟨row', hmem, -, rfl, rfl⟩ := mem_apply_change hrow
    · exact h t row hmem
    · exact hw row' (h _ row' hmem)

theorem Database.All.applyAll (h : db.All P) (hwrites : ∀ w ∈ writes, Write.Preserves P w) :
    (Write.applyAll writes db).All P := by
  induction writes generalizing db with
  | nil => exact h
  | cons w writes ih =>
    rw [List.forall_mem_cons] at hwrites
    exact ih (h.apply hwrites.1) hwrites.2

theorem yields_of_all (h : db.All P) {result : s.Result} (hanswer : s.answer db = .ok result) :
    s.Yields P result := by
  cases s with
  | getById t key =>
    cases hanswer
    intro row hrow
    exact h t row (List.mem_filter.mp hrow).1
  | list t filter limit =>
    cases hanswer
    intro row hrow
    cases limit with
    | none => exact h t row (List.mem_filter.mp hrow).1
    | some n => exact h t row (List.mem_filter.mp (List.mem_of_mem_take hrow)).1
  | _ => trivial

theorem preserves_of_keepsRows (h : (Effect.statement s).KeepsRows P) (hwrite : s.write db = some w) :
    w.Preserves P := by
  cases s with
  | insert t row =>
    cases hwrite
    exact h
  | update t key resourceVersion assign =>
    cases hwrite
    exact h
  | delete t key =>
    cases hwrite
    trivial
  | deleteAll t filter =>
    cases hwrite
    trivial
  | getById t key => cases hwrite
  | exists_ t key => cases hwrite
  | list t filter limit => cases hwrite

end Call

theorem Answered.of_append {history more : History} (h : Answered P (history ++ more)) :
    Answered P history :=
  fun s result hmem => h s result (List.mem_append_left _ hmem)

theorem Answered.concat {history : History} (h : Answered P history) {s : Effect} {r : s.Answer}
    (hr : ∀ (statement : Statement) (result : statement.Result),
      (⟨.statement statement, .ok result⟩ : Program.Event Effect.Answer) = ⟨s, r⟩ →
        statement.Yields P result) :
    Answered P (history ++ [⟨s, r⟩]) := by
  intro statement result hmem
  cases List.mem_append.mp hmem with
  | inl hold => exact h statement result hold
  | inr hnew => exact hr statement result (List.mem_singleton.mp hnew)

section SideBySide

variable {ι α : Type} {c : StorageConfig ι α}

theorem rowInv_start {programs : ι → UseCase α} {w : Shared} (h : w.db.All P) :
    RowInv P (Config.start .idle programs w) where
  stored := h
  pending _ _ hw := absurd hw List.not_mem_nil
  answered _ _ _ hmem := absurd hmem List.not_mem_nil

theorem RowInv.view (h : RowInv P c) (i : ι) :
    ((c.threads i).session.view c.shared.db).All P := by
  rw [Session.view_eq]
  exact h.stored.applyAll (h.pending i)

theorem RowInv.of_seen (h : RowInv P c) {t : Table} {row : Row t} (hseen : Seen c t row) :
    P t row := by
  cases hseen with
  | inl hmem => exact h.stored t row hmem
  | inr hview =>
    obtain ⟨i, hmem⟩ := hview
    exact (h.stored.applyAll (h.pending i)) t row hmem

variable [DecidableEq ι] {source : UUIDSource} {faults : PersistenceError → Prop} {i : ι} {s : Effect}
  {next : s.Answer → UseCase α} {r : s.Answer} {session : Session} {shared : Shared}

theorem RowInv.after (h : RowInv P c) (hdb : shared.db.All P)
    (hpending : ∀ w ∈ session.pending, w.Preserves P)
    (hanswered : Answered P ((c.threads i).history ++ [⟨s, r⟩])) :
    RowInv P (c.after i s next r session shared) := by
  refine ⟨hdb, fun j => ?_, fun j => ?_⟩
  · by_cases hj : j = i
    · subst hj
      simpa using hpending
    · simpa [hj] using h.pending j
  · by_cases hj : j = i
    · subst hj
      simpa using hanswered
    · simpa [hj] using h.answered j

theorem RowInv.step (h : RowInv P c) (hallowed : Keeping P (c.threads i).history s)
    (hact : storage source faults c i s r session shared) :
    RowInv P (c.after i s next r session shared) := by
  obtain ⟨fault, -, -, hperform⟩ := hact
  have hkeeps := hallowed (h.answered i)
  have hquiet (hnone : ∀ (statement : Statement) (result : statement.Result),
      (⟨.statement statement, .ok result⟩ : Program.Event Effect.Answer) ≠ ⟨s, r⟩) :
      Answered P ((c.threads i).history ++ [⟨s, r⟩]) :=
    (h.answered i).concat fun statement result heq => absurd heq (hnone statement result)
  have hyields {statement : Statement} {result : statement.Result}
      (hanswer : statement.answer ((c.threads i).session.view c.shared.db) = .ok result) :
      Answered P ((c.threads i).history ++ [⟨.statement statement, .ok result⟩]) := by
    apply (h.answered i).concat
    intro statement' result' heq
    cases heq
    exact yields_of_all (h.view i) hanswer
  have hnil (hpending : session.pending = []) : ∀ w ∈ session.pending, w.Preserves P := by
    rw [hpending]
    exact fun w hw => absurd hw List.not_mem_nil
  have hkept (hsession : session = (c.threads i).session) (hdb : shared.db = c.shared.db)
      (hanswered : Answered P ((c.threads i).history ++ [⟨s, r⟩])) :
      RowInv P (c.after i s next r session shared) := by
    apply h.after
    · rw [hdb]
      exact h.stored
    · rw [hsession]
      exact h.pending i
    · exact hanswered
  have hdropped (hpending : session.pending = []) (hdb : shared.db = c.shared.db)
      (hnone : ∀ (statement : Statement) (result : statement.Result),
        (⟨.statement statement, .ok result⟩ : Program.Event Effect.Answer) ≠ ⟨s, r⟩) :
      RowInv P (c.after i s next r session shared) := by
    apply h.after
    · rw [hdb]
      exact h.stored
    · exact hnil hpending
    · exact hquiet hnone
  cases performs hperform with
  | reads _ hsession hdb hanswer => exact hkept hsession hdb (hyields hanswer)
  | fails _ hpending hdb =>
    apply hdropped hpending hdb
    intro statement result heq
    cases heq
  | @pends statement result w _ _ hanswer hwrite hpending hdb =>
    apply h.after
    · rw [hdb]
      exact h.stored
    · rw [hpending, List.forall_mem_append]
      refine ⟨h.pending i, ?_⟩
      simpa using preserves_of_keepsRows hkeeps hwrite
    · exact hyields hanswer
  | @writes statement result w hidle hidle' hanswer hwrite hdb =>
    apply h.after
    · rw [hdb]
      exact h.stored.apply (preserves_of_keepsRows hkeeps hwrite)
    · exact hnil (by rw [hidle']; rfl)
    · apply hyields
      rw [hidle]
      exact hanswer
  | commits hidle hdb =>
    apply h.after
    · rw [hdb]
      exact h.stored.applyAll (h.pending i)
    · exact hnil (by rw [hidle]; rfl)
    · apply hquiet
      intro statement result heq
      cases heq
  | begins hsession hdb =>
    apply hdropped (by rw [hsession]; rfl) hdb
    intro statement result heq
    cases heq
  | uncommitted hidle hdb =>
    apply hdropped (by rw [hidle]; rfl) hdb
    intro statement result heq
    cases heq
  | rollsBack hidle hdb =>
    apply hdropped (by rw [hidle]; rfl) hdb
    intro statement result heq
    cases heq
  | unbegun hsession hdb =>
    apply hkept hsession hdb
    apply hquiet
    intro statement result heq
    cases heq
  | names hsession hdb =>
    apply hkept hsession hdb
    apply hquiet
    intro statement result heq
    cases heq
  | asks hsession hdb =>
    apply hkept hsession hdb
    apply hquiet
    intro statement result heq
    cases heq

/-- What every row has that is written by programs that go by what they read. -/
theorem rowInv_of_run {programs : ι → UseCase α} {w : Shared} {c : StorageConfig ι α}
    (hmeets : ∀ i, (programs i).Meets (Keeping P) (fun _ _ => True) []) (h : w.db.All P)
    (hrun : Run (storage source faults) (Config.start .idle programs w) c) : RowInv P c := by
  have hstart : (Config.start (Λ := Session) (S := Shared) .idle programs w).Meets
      (fun _ => Keeping P) fun _ _ _ => True := hmeets
  apply (hrun.invariant hstart (rowInv_start h) ?_).1
  intro c i s next r session shared _ hinv _ hallowed hact
  exact hinv.step hallowed hact

end SideBySide

/-- A program whose writes keep the property, from here on. -/
abbrev KeepsProperty {α : Type} (P : (t : Table) → Row t → Prop) (p : UseCase α)
    (history : History) : Prop :=
  p.Meets (Keeping P) (fun _ _ => True) history

section Rules

variable {α β : Type} {history : History}

theorem keepsProperty_of_only {p : UseCase α} (h : p.Only fun s => s.KeepsRows P) :
    KeepsProperty P p history :=
  h.meets (fun _ _ hs _ => hs) fun _ _ => trivial

/-- The writes of a program, known from what has been read before it. -/
theorem keepsProperty_of_answered {p : UseCase α}
    (h : p.Only fun s => Answered P history → s.KeepsRows P) : KeepsProperty P p history :=
  h.meets (fun _ _ hs hanswered => hs hanswered.of_append) fun _ _ => trivial

theorem keepsProperty_lift_bind {x : Except SignareError α} {f : α → UseCase β}
    (hf : ∀ a, x = .ok a → KeepsProperty P (f a) history) :
    KeepsProperty P (Program.lift x >>= f) history := by
  cases x with
  | error err => trivial
  | ok a => exact hf a rfl

/-- A row that is read has the property. -/
theorem meets_repositoryGet_keeping {t : Table} {resource : String}
    {mapFromDB : Row t → Except SignareError β} (key : Key t) :
    (repositoryGet t resource mapFromDB key).Meets (Keeping P) (fun result history' =>
      ∀ a, result = .ok a → Answered P history' → ∃ row, P t row ∧ mapFromDB row = .ok a)
      history := by
  apply meets_execute_bind
  · intro _
    trivial
  · intro err a heq
    cases heq
  · intro rows
    split
    · intro a heq
      cases heq
    · next row =>
      intro a heq hanswered
      refine ⟨row, ?_, heq⟩
      apply hanswered (.getById t key) [row]
      · exact List.mem_append_right _ (List.mem_singleton_self _)
      · exact List.mem_singleton_self row
    · intro a heq
      cases heq

end Rules

end Signare
