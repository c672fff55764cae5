import Signare.Concurrent.OptimisticLocking

/-!
# All or nothing

The operations on modules and slots run in a transaction each. Whatever runs beside them and
whichever calls fail: such an operation changes the database at once, in the step that ends it with a
success, and one that fails has changed nothing.
-/

namespace Signare

open ByteCodec Interleaving

def Committed (history : History) : Prop :=
  (⟨.commit, .ok ()⟩ : Program.Event Effect.Answer) ∈ history

/-- The calls of a use case that does everything in one transaction. -/
def InOneTransaction (history : History) (s : Effect) : Prop :=
  ¬ Committed history ∧ (Plain s → (replaced history).isOpen = true)

/-- It succeeds where its transaction is committed. -/
def EndsCommitted {β : Type} (result : Except SignareError β) (history : History) : Prop :=
  (∃ b, result = .ok b) ↔ Committed history

theorem not_committed_nil : ¬ Committed [] := List.not_mem_nil

theorem not_committed_concat {history : History} (h : ¬ Committed history) {s : Effect}
    {r : s.Answer} (hne : (⟨s, r⟩ : Program.Event Effect.Answer) ≠ ⟨.commit, .ok ()⟩) :
    ¬ Committed (history ++ [⟨s, r⟩]) := by
  intro hcommitted
  cases List.mem_append.mp hcommitted with
  | inl hmem => exact h hmem
  | inr hmem => exact hne (List.mem_singleton.mp hmem).symm

theorem not_committed_plain {history : History} (h : ¬ Committed history) {s : Effect}
    (hs : Plain s) (r : s.Answer) : ¬ Committed (history ++ [⟨s, r⟩]) := by
  apply not_committed_concat h
  intro heq
  cases heq
  exact hs

section Programs

variable {β : Type}

theorem endsCommitted_error {err : SignareError} {history : History} (h : ¬ Committed history) :
    EndsCommitted (.error err : Except SignareError β) history :=
  iff_of_false (fun ⟨_, heq⟩ => nomatch heq) h

theorem meets_executeUseCaseInTransaction {p : UseCase β} (hp : p.Only Plain) :
    (executeUseCaseInTransaction .background p).Meets InOneTransaction EndsCommitted [] := by
  refine ⟨⟨not_committed_nil, fun hplain => hplain.elim⟩, fun begun => ?_⟩
  cases begun with
  | error err =>
    apply endsCommitted_error
    exact not_committed_concat not_committed_nil fun heq => by cases heq
  | ok _ =>
    have hbegan : ¬ Committed [⟨.begin_, .ok ()⟩] :=
      not_committed_concat not_committed_nil fun heq => by cases heq
    have hbody : p.attempt.Meets InOneTransaction (fun _ history =>
        (replaced history).isOpen = true ∧ ¬ Committed history) [⟨.begin_, .ok ()⟩] := by
      refine (Program.only_attempt hp).meets_invariant ⟨rfl, hbegan⟩ ?_
      intro history s hinv hs
      refine ⟨⟨hinv.2, fun _ => hinv.1⟩, fun r => ⟨?_, not_committed_plain hinv.2 hs r⟩⟩
      rw [replaced_concat, Replaced.isOpen_after_plain _ hs]
      exact hinv.1
    apply hbody.bind
    · intro err history hinv
      exact endsCommitted_error hinv.2
    · intro result history hinv
      cases result with
      | error failure =>
        refine ⟨⟨hinv.2, fun hplain => hplain.elim⟩, fun r => ?_⟩
        apply endsCommitted_error
        exact not_committed_concat hinv.2 fun heq => by cases heq
      | ok response =>
        refine ⟨⟨hinv.2, fun hplain => hplain.elim⟩, fun committed => ?_⟩
        cases committed with
        | error err =>
          apply endsCommitted_error
          exact not_committed_concat hinv.2 fun heq => by cases heq
        | ok _ =>
          exact iff_of_true ⟨response, rfl⟩ (List.mem_append_right _ (List.mem_singleton_self _))

theorem meets_oneTransaction {p : UseCase β} (hp : p.Only Plain) :
    (do let _ ← executeUseCaseInTransaction .background p : UseCase Unit).Meets InOneTransaction
      EndsCommitted [] := by
  apply (meets_executeUseCaseInTransaction hp).bind
  · intro err history h
    exact endsCommitted_error fun hcommitted => nomatch h.mpr hcommitted
  · intro b history h
    exact iff_of_true ⟨(), rfl⟩ (h.mp ⟨b, rfl⟩)

end Programs

section Operations

theorem plain_linking : AllowsLinking Plain :=
  ⟨⟨plain_reads, trivial, fun _ => trivial, fun _ => trivial⟩, fun _ => trivial⟩

theorem plain_upkeep : AllowsUpkeep Plain := plain_linking.toAllowsUpkeep

/-- The operations that run in a transaction. -/
def StorageCall.transactional : StorageCall → Bool
  | createHSMModule _ => true
  | editHSMModule _ => true
  | deleteHSMModule _ => true
  | createHSMSlot _ => true
  | editPin _ => true
  | editConfig _ => true
  | deleteHSMSlot _ => true
  | _ => false

theorem StorageCall.meets_oneTransaction (setup : ServerSetup)
    {call : StorageCall} (h : call.transactional = true) :
    (call.program setup).Meets InOneTransaction EndsCommitted [] := by
  cases call with
  | createHSMModule input =>
    exact Signare.meets_oneTransaction (only_createHSMModule plain_upkeep input fun _ => trivial)
  | editHSMModule input =>
    exact Signare.meets_oneTransaction (only_editHSMModule plain_upkeep input fun _ _ => trivial)
  | deleteHSMModule id =>
    exact Signare.meets_oneTransaction (only_deleteHSMModule plain_upkeep id trivial)
  | createHSMSlot input =>
    exact Signare.meets_oneTransaction
      (only_createHSMSlot plain_linking setup.keccak input fun _ _ _ => trivial)
  | editPin input =>
    exact Signare.meets_oneTransaction (only_editPin plain_upkeep input fun _ => trivial)
  | editConfig input =>
    exact Signare.meets_oneTransaction
      (only_editConfig plain_upkeep setup.keccak input fun _ => trivial)
  | deleteHSMSlot id =>
    exact Signare.meets_oneTransaction (only_deleteHSMSlot plain_upkeep id trivial)
  | _ => cases h

end Operations

section SideBySide

variable {ι : Type} [DecidableEq ι] {source : UUIDSource} {faults : PersistenceError → Prop}

theorem db_of_inOneTransaction {session session' : Session} {w w' : Shared} {history : History}
    {s : Effect} {r : s.Answer} {fault : Option PersistenceError}
    (hopen : (replaced history).isOpen = session.isOpen) (hallowed : InOneTransaction history s)
    (hperform : s.perform source fault session w = (r, session', w'))
    (hnot : (⟨s, r⟩ : Program.Event Effect.Answer) ≠ ⟨.commit, .ok ()⟩) : w'.db = w.db := by
  cases performs hperform with
  | writes hidle =>
    have hisOpen := hallowed.2 trivial
    rw [hopen, hidle] at hisOpen
    cases hisOpen
  | commits => exact absurd rfl hnot
  | reads _ _ hdb => exact hdb
  | fails _ _ hdb => exact hdb
  | pends _ _ _ _ _ hdb => exact hdb
  | begins _ hdb => exact hdb
  | unbegun _ hdb => exact hdb
  | uncommitted _ hdb => exact hdb
  | rollsBack _ hdb => exact hdb
  | names _ hdb => exact hdb
  | asks _ hdb => exact hdb

/-- What is allowed to the operations that run in a transaction, in every run. -/
theorem inOneTransaction_of_run {setup : ServerSetup}
    {calls : ι → StorageCall} {w : Shared} {c : StorageConfig ι Unit}
    (hrun : Run (storage source faults) (storageCalls setup calls w) c) {i : ι}
    (hi : (calls i).transactional = true) :
    (replaced (c.threads i).history).isOpen = (c.threads i).session.isOpen ∧
      (c.threads i).program.Meets InOneTransaction EndsCommitted (c.threads i).history := by
  have hmeets : (storageCalls setup calls w).Meets
      (fun j => if (calls j).transactional then InOneTransaction else fun _ _ => True)
      (fun j => if (calls j).transactional then EndsCommitted else fun _ _ => True) := by
    intro j
    dsimp only
    split
    · next hj => exact (calls j).meets_oneTransaction setup hj
    · exact Program.meets_any _ _
  have hinv : (∀ j, (replaced (c.threads j).history).isOpen = (c.threads j).session.isOpen) ∧
      c.Meets (fun j => if (calls j).transactional then InOneTransaction else fun _ _ => True)
        (fun j => if (calls j).transactional then EndsCommitted else fun _ _ => True) := by
    apply hrun.invariant hmeets (fun _ => rfl)
    intro c i s next r session shared _ hopen _ _ hact j
    obtain ⟨fault, -, -, hperform⟩ := hact
    by_cases hj : j = i
    · subst hj
      simpa using isOpen_after (hopen j) hperform
    · simpa [hj] using hopen j
  refine ⟨hinv.1 i, ?_⟩
  have hprogram := hinv.2 i
  simpa only [hi, if_true] using hprogram

/-- A step of an operation that runs in a transaction either leaves the database as it is and does
not end the operation with a success, or ends it so and makes all it has seen the database. -/
theorem allOrNothing_of_run {setup : ServerSetup}
    {calls : ι → StorageCall} {w : Shared} {c : StorageConfig ι Unit}
    (hrun : Run (storage source faults) (storageCalls setup calls w) c) {i : ι}
    (hi : (calls i).transactional = true) {s : Effect} {next : s.Answer → UseCase Unit}
    {r : s.Answer} {session : Session} {shared : Shared}
    (hprogram : (c.threads i).program = .call s next)
    (hact : storage source faults c i s r session shared) :
    (shared.db = c.shared.db ∧ next r ≠ .done (.ok ())) ∨
      (shared.db = (c.threads i).session.view c.shared.db ∧ next r = .done (.ok ())) := by
  obtain ⟨hopen, hmeets⟩ := inOneTransaction_of_run hrun hi
  rw [hprogram, Program.meets_call] at hmeets
  obtain ⟨hallowed, hnext⟩ := hmeets
  obtain ⟨fault, -, -, hperform⟩ := hact
  by_cases hcommit : (⟨s, r⟩ : Program.Event Effect.Answer) = ⟨.commit, .ok ()⟩
  · right
    cases hcommit
    have hcommitted : Committed ((c.threads i).history ++ [⟨.commit, .ok ()⟩]) :=
      List.mem_append_right _ (List.mem_singleton_self _)
    have hlast := hnext (.ok ())
    constructor
    · cases performs hperform with
      | commits _ hdb => rw [hdb, Session.view_eq]
    · cases hresult : next (.ok ()) with
      | call s' next' =>
        rw [hresult, Program.meets_call] at hlast
        exact absurd hcommitted hlast.1.1
      | done result =>
        rw [hresult] at hlast
        obtain ⟨b, heq⟩ := hlast.mpr hcommitted
        rw [heq]
  · left
    refine ⟨db_of_inOneTransaction hopen hallowed hperform hcommit, fun hdone => ?_⟩
    have hlast := hnext r
    rw [hdone] at hlast
    exact not_committed_concat hallowed.1 hcommit (hlast.mp ⟨(), rfl⟩)

end SideBySide

/-- A module is created, and an application beside it. -/
def moduleAndApplication : Bool → StorageCall
  | false => .createHSMModule ⟨some "vault", none, some .akv⟩
  | true => .createApplication ⟨some "acme", 1, none⟩

def moduleCreated : StorageConfig Bool Unit :=
  storageCalls unitSetup moduleAndApplication
    ⟨Database.empty, 0, ⟨fun _ => none, fun _ => []⟩⟩

/-- The application is created once the transaction of the module has begun; the next call is its
commit. -/
def untilCommit : List Bool := [false, true, false, true, false, true, true, false, false]

private theorem steps_untilCommit :
    (∀ n < untilCommit.length, ∀ i ∈ untilCommit[n]?,
      OthersQuiet (follow unaryUUIDs moduleCreated (untilCommit.take n)) i) ∧
      OthersQuiet (follow unaryUUIDs moduleCreated untilCommit) false ∧
      succeeded (follow unaryUUIDs moduleCreated untilCommit) true = true ∧
      ((follow unaryUUIDs moduleCreated untilCommit).shared.db .application).length = 1 ∧
      (follow unaryUUIDs moduleCreated untilCommit).shared.db .hsmModule = [] ∧
      (follow unaryUUIDs moduleCreated (untilCommit ++ [false])).shared.db .hsmModule ≠ [] := by
  decide +kernel

/-- The module is stored by the commit. -/
theorem moduleCreated_atOnce :
    succeeded (follow unaryUUIDs moduleCreated untilCommit) true = true ∧
      ((follow unaryUUIDs moduleCreated untilCommit).shared.db .application).length = 1 ∧
      (follow unaryUUIDs moduleCreated untilCommit).shared.db .hsmModule = [] ∧
      (follow unaryUUIDs moduleCreated (untilCommit ++ [false])).shared.db =
        ((follow unaryUUIDs moduleCreated untilCommit).threads false).session.view
          (follow unaryUUIDs moduleCreated untilCommit).shared.db ∧
      succeeded (follow unaryUUIDs moduleCreated (untilCommit ++ [false])) false = true := by
  obtain ⟨hothers, hfree, hsucceeded, happlication, hbefore, hafter⟩ := steps_untilCommit
  have hrun : Run (storage unaryUUIDs noFaults) moduleCreated
      (follow unaryUUIDs moduleCreated untilCommit) := run_follow_others _ hothers
  have hlast : follow unaryUUIDs moduleCreated (untilCommit ++ [false]) =
      advance unaryUUIDs (follow unaryUUIDs moduleCreated untilCommit) false := List.foldl_concat ..
  refine ⟨hsucceeded, happlication, hbefore, ?_⟩
  rw [hlast] at hafter ⊢
  cases hprogram : ((follow unaryUUIDs moduleCreated untilCommit).threads false).program with
  | done result =>
    rw [advance, hprogram] at hafter
    exact absurd hbefore hafter
  | call s next =>
    rw [advance, hprogram] at hafter ⊢
    cases allOrNothing_of_run hrun (i := false) rfl hprogram
      ⟨none, by simp, fun _ => hfree.not_blocked s, rfl⟩ with
    | inl hsame => exact absurd ((congrFun hsame.1 .hsmModule).trans hbefore) hafter
    | inr hchanged =>
      refine ⟨hchanged.1, ?_⟩
      rw [succeeded, Config.after_threads_self]
      split
      · rfl
      · next hnot => exact absurd hchanged.2 (hnot ())

end Signare
