import Signare.Concurrent.Environment
import Signare.Storage.Keyed
import Signare.UseCases.Calls

/-!
# The last administrator

A delete first counts the admins, and takes one away some statements later: between the two, others
may have counted the same admins. The table stays inhabited in the runs in which whoever counts
leaves an admin that nobody who has counted is about to delete.
-/

namespace Signare

open Interleaving

variable {ι : Type}

inductive AdminCall
  | create (id : String) (description : Option String)
  | delete (id : String)
  deriving DecidableEq

def AdminCall.program : AdminCall → UseCase AdminRow
  | .create id description => createAdmin id description
  | .delete id => deleteAdmin id

/-- The statement that counts. -/
def countAdmins : Statement := .list .admin (fun _ => true) (some (defaultPageLimit + 1))

/-- There were at least two admins when they were counted. -/
def Counted (history : History) : Prop :=
  ∃ rows : List (Row .admin), 2 ≤ rows.length ∧
    (⟨.statement countAdmins, .ok rows⟩ : Program.Event Effect.Answer) ∈ history

/-- The calls of both operations: an admin is deleted by a delete of it that has counted. -/
def AdminCall.allowed (call : AdminCall) (history : History) : Effect → Prop
  | .newUUID => True
  | .statement (.insert .admin _) => True
  | .statement (.getById ..) => True
  | .statement (.list ..) => True
  | .statement (.deleteAll .entry _) => True
  | .statement (.delete .admin key) => call = .delete key ∧ Counted history
  | _ => False

theorem createAdmin_only (id : String) (description : Option String) :
    (createAdmin id description).Only fun s =>
      ∀ history, AdminCall.allowed (.create id description) history s := by
  have hadd (id' : String) : Program.Only
      (fun s => ∀ history, AdminCall.allowed (.create id description) history s) (do
      let internalResourceId ← newUUID
      Program.orElse
          (onAlreadyExists (alreadyExistsReadableFromErr ·
            ("admin [" ++ id' ++ "] already exists"))) do
        let data : AdminRow := ⟨id', internalResourceId, [signerAdminRole], description.getD "", ""⟩
        Program.lift ((AdminDB.mapToCreateDB data).mapError asInternal)
        let resourceVersion ← newUUID
        repositoryAdd .admin AdminDB.mapFromDB { data with resourceVersion }) :=
    Program.only_bind (only_newUUID fun _ => trivial) fun _ => Program.only_orElse <|
      Program.only_bind (Program.only_done _) fun _ =>
        Program.only_bind (only_newUUID fun _ => trivial) fun _ =>
          only_repositoryAdd (fun _ => trivial) fun _ => trivial
  refine Program.only_bind (only_validateStruct _ _) fun _ => ?_
  dsimp only
  split
  · exact Program.only_bind (only_newUUID fun _ => trivial) hadd
  · exact Program.only_bind (Program.only_done _) hadd

theorem Counted.append {history : History} (h : Counted history) (more : History) :
    Counted (history ++ more) := by
  obtain ⟨rows, hlength, hmem⟩ := h
  exact ⟨rows, hlength, List.mem_append_left _ hmem⟩

theorem listAdmins_meets (call : AdminCall) (history : History) :
    listAdmins.Meets call.allowed
      (fun result history' => ∀ admins, result = .ok admins → 1 < admins.length → Counted history')
      history := by
  rw [listAdmins, Program.meets_orElse]
  refine meets_execute_bind trivial (fun err admins h => by cases h) fun rows => ?_
  intro admins hadmins hlength
  refine ⟨rows, ?_, List.mem_append_right _ (List.mem_singleton_self _)⟩
  cases hrows : (List.take defaultPageLimit rows).mapM AdminDB.mapFromDB with
  | error e =>
    rw [hrows] at hadmins
    cases hadmins
  | ok admins' =>
    rw [hrows] at hadmins
    cases hadmins
    have htaken : admins.length = (List.take defaultPageLimit rows).length :=
      Except.length_of_mapM_eq_ok hrows
    exact hlength.trans_le (htaken ▸ List.length_take_le' defaultPageLimit rows)

theorem removeAdmin_only (id : String) {history : History} (h : Counted history) :
    (do removeAllAdminDependencies id
        (repositoryRemove .admin "'admin'" AdminDB.mapFromDB id).orElse
          (onNotFound (notFoundReadableFromErr · ("admin [" ++ id ++ "] not found")))).Only
      fun s => ∀ more, AdminCall.allowed (.delete id) (history ++ more) s := by
  have hget : (getAdmin id).Only fun s =>
      ∀ more, AdminCall.allowed (.delete id) (history ++ more) s :=
    Program.only_bind (only_validateStruct _ _) fun _ =>
      Program.only_orElse (only_repositoryGet fun _ => trivial)
  refine Program.only_bind (Program.only_bind hget fun admin =>
    only_removeDependencies (fun _ => trivial) (fun _ => trivial) fun _ => trivial) fun _ => ?_
  exact Program.only_orElse
    (only_repositoryRemove (fun _ => trivial) fun more => ⟨rfl, h.append more⟩)

theorem deleteAdmin_meets (id : String) :
    (deleteAdmin id).Meets (AdminCall.allowed (.delete id)) (fun _ _ => True) [] := by
  refine meets_validateStruct_bind (fun _ => trivial) fun _ => ?_
  refine (listAdmins_meets (.delete id) []).bind (fun _ _ _ => trivial)
    fun admins history hcounted => ?_
  split
  · trivial
  · next hlength =>
    exact (removeAdmin_only id (hcounted admins rfl (not_le.mp hlength))).meets
      (fun more _ h => h more) fun _ _ => trivial

theorem AdminCall.meets (call : AdminCall) :
    call.program.Meets call.allowed (fun _ _ => True) [] := by
  cases call with
  | create id description =>
    exact (createAdmin_only id description).meets (fun more s h => h more) fun _ _ => trivial
  | delete id => exact deleteAdmin_meets id

/-- A delete that has counted and has not returned. -/
def Pending (c : StorageConfig ι AdminRow) (j : ι) : Prop :=
  ¬ (c.threads j).Finished ∧ Counted (c.threads j).history

/-- Whoever counts at least two admins leaves one that is the target neither of the count nor of
anyone who has counted and not yet returned. -/
def SparesAnAdmin (calls : ι → AdminCall) (c : StorageConfig ι AdminRow) (i : ι) (s : Effect) :
    Prop :=
  ∀ id, calls i = .delete id → s = .statement countAdmins → 2 ≤ (c.shared.db .admin).length →
    ∃ admin ∈ c.shared.db .admin, AdminRow.id admin ≠ id ∧
      ∀ j id', Pending c j → calls j = .delete id' → AdminRow.id admin ≠ id'

/-- The calls that leave a given admin where it is. -/
def keepsAdmin (admin : AdminRow) : Effect → Prop
  | .statement (.delete .admin key) => admin.id ≠ key
  | _ => True

theorem insert_keeps {db : Database} {row : Row .admin} {result : Unit} (hkeyed : db.Keyed)
    (hanswer : (Statement.insert .admin row).answer db = .ok result) :
    ((Write.insert .admin row).apply db).Keyed ∧
      ∀ admin ∈ db .admin, admin ∈ (Write.insert .admin row).apply db .admin := by
  refine ⟨hkeyed.insert (Statement.insert_answer_ok hanswer).2, fun admin hadmin => ?_⟩
  rw [Write.apply, Function.update_self]
  exact List.mem_append_left _ hadmin

/-- A step of either operation outside any transaction keeps the keys, and all admins but the one
it deletes. -/
theorem perform_keeps {call : AdminCall} {history : History} {s : Effect}
    (hallowed : call.allowed history s) {source : UUIDSource} {fault : Option PersistenceError}
    {shared shared' : Shared} {answer : s.Answer} {session : Session}
    (hperform : s.perform source fault .idle shared = (answer, session, shared'))
    (hkeyed : shared.db.Keyed) :
    session = .idle ∧ shared'.db.Keyed ∧ ∀ admin ∈ shared.db .admin, keepsAdmin admin s →
      admin ∈ shared'.db .admin := by
  cases s with
  | statement s =>
    obtain ⟨rfl, ⟨-, rfl⟩ | ⟨result, -, hanswer, rfl⟩⟩ := Effect.perform_statement_idle hperform
    · exact ⟨rfl, hkeyed, fun _ h _ => h⟩
    · cases s with
      | insert t row =>
        cases t with
        | admin =>
          obtain ⟨hkeyed', hkept⟩ := insert_keeps hkeyed hanswer
          exact ⟨rfl, hkeyed', fun admin h _ => hkept admin h⟩
        | _ => exact hallowed.elim
      | getById t key => exact ⟨rfl, hkeyed, fun _ h _ => h⟩
      | list t filter limit => exact ⟨rfl, hkeyed, fun _ h _ => h⟩
      | exists_ t key => exact hallowed.elim
      | update t key resourceVersion assign => exact hallowed.elim
      | deleteAll t filter =>
        cases t with
        | entry => exact ⟨rfl, hkeyed.remove _, fun admin h _ => h⟩
        | _ => exact hallowed.elim
      | delete t key =>
        cases t with
        | admin =>
          refine ⟨rfl, hkeyed.remove _, fun admin h hne => ?_⟩
          change admin ∈ (Statement.delete .admin key).written shared.db .admin
          rw [hkeyed.delete_written, Function.update_self, List.mem_filter]
          exact ⟨h, decide_eq_true hne⟩
        | _ => exact hallowed.elim
  | newUUID =>
    cases hperform
    exact ⟨rfl, hkeyed, fun _ h _ => h⟩
  | _ => exact hallowed.elim

structure AdminInv (calls : ι → AdminCall) (c : StorageConfig ι AdminRow) : Prop where
  keyed : c.shared.db.Keyed
  idle : ∀ j, (c.threads j).session = .idle
  spared : ∃ admin ∈ c.shared.db .admin,
    ∀ j id, Pending c j → calls j = .delete id → AdminRow.id admin ≠ id

variable [DecidableEq ι] {calls : ι → AdminCall} {c c' : StorageConfig ι AdminRow}

/-- Who is pending after a step was pending before it, or has just counted. -/
theorem pending_after {i j : ι} {s : Effect} {next : s.Answer → UseCase AdminRow} {r : s.Answer}
    {session : Session} {shared : Shared} (hprogram : (c.threads i).program = .call s next)
    (h : Pending (c.after i s next r session shared) j) :
    Pending c j ∨ j = i ∧ ∃ rows : List (Row .admin), 2 ≤ rows.length ∧
      (⟨.statement countAdmins, .ok rows⟩ : Program.Event Effect.Answer) = ⟨s, r⟩ := by
  by_cases hj : j = i
  · subst hj
    obtain ⟨rows, hlength, hmem⟩ := h.2
    rw [Config.after_threads_self, List.mem_append, List.mem_singleton] at hmem
    cases hmem with
    | inl hmem => exact .inl ⟨Thread.not_finished_of_call hprogram, rows, hlength, hmem⟩
    | inr heq => exact .inr ⟨rfl, rows, hlength, heq⟩
  · rw [Pending, Config.after_threads_of_ne hj] at h
    exact .inl h

theorem two_le_of_counted {source : UUIDSource} {fault : Option PersistenceError}
    {shared shared' : Shared} {rows : List (Row .admin)} {session : Session}
    (hperform : Effect.perform source (.statement countAdmins) fault .idle shared =
      (.ok rows, session, shared')) (hlength : 2 ≤ rows.length) :
    2 ≤ (shared.db .admin).length := by
  obtain ⟨-, ⟨⟨err, herr⟩, -⟩ | ⟨result, hresult, hanswer, -⟩⟩ :=
    Effect.perform_statement_idle hperform
  · cases herr
  · cases hresult
    cases hanswer
    calc 2 ≤ _ := hlength
      _ ≤ ((shared.db .admin).filter fun _ => true).length := List.length_take_le' ..
      _ ≤ (shared.db .admin).length := List.length_filter_le ..

/-- Nobody that is pending after a step is about to delete the admin that is spared. -/
theorem spared_after {source : UUIDSource} {fault : Option PersistenceError} {i : ι} {s : Effect}
    {next : s.Answer → UseCase AdminRow} {r : s.Answer} {session : Session} {shared : Shared}
    (hinv : AdminInv calls c) (hprogram : (c.threads i).program = .call s next)
    (hcondition : SparesAnAdmin calls c i s)
    (hperform : s.perform source fault .idle c.shared = (r, session, shared)) :
    ∃ admin ∈ c.shared.db .admin, (∀ j id, Pending c j → calls j = .delete id →
      AdminRow.id admin ≠ id) ∧
      ∀ j id, Pending (c.after i s next r session shared) j → calls j = .delete id →
        AdminRow.id admin ≠ id := by
  obtain ⟨admin, hadmin, hpending⟩ := hinv.spared
  by_cases hcount : ∃ rows : List (Row .admin), 2 ≤ rows.length ∧
      (⟨.statement countAdmins, .ok rows⟩ : Program.Event Effect.Answer) = ⟨s, r⟩
  · obtain ⟨rows, hlength, heq⟩ := hcount
    cases heq
    cases hi : calls i with
    | create id description =>
      refine ⟨admin, hadmin, hpending, fun j id' hj hid => ?_⟩
      obtain hj | ⟨rfl, -⟩ := pending_after hprogram hj
      · exact hpending j id' hj hid
      · rw [hi] at hid
        cases hid
    | delete id =>
      obtain ⟨admin, hadmin, hne, hothers⟩ :=
        hcondition id hi rfl (two_le_of_counted hperform hlength)
      refine ⟨admin, hadmin, hothers, fun j id' hj hid => ?_⟩
      obtain hj | ⟨rfl, -⟩ := pending_after hprogram hj
      · exact hothers j id' hj hid
      · rw [hi] at hid
        cases hid
        exact hne
  · refine ⟨admin, hadmin, hpending, fun j id hj hid => ?_⟩
    obtain hj | ⟨-, hj⟩ := pending_after hprogram hj
    · exact hpending j id hj hid
    · exact absurd hj hcount

theorem AdminInv.step {source : UUIDSource} {faults : PersistenceError → Prop} {i : ι} {s : Effect}
    {next : s.Answer → UseCase AdminRow} {r : s.Answer} {session : Session} {shared : Shared}
    (hinv : AdminInv calls c) (hprogram : (c.threads i).program = .call s next)
    (hallowed : (calls i).allowed (c.threads i).history s)
    (hact : limited (storage source faults) (SparesAnAdmin calls) c i s r session shared) :
    AdminInv calls (c.after i s next r session shared) := by
  obtain ⟨⟨fault, -, -, hperform⟩, hcondition⟩ := hact
  rw [hinv.idle i] at hperform
  obtain ⟨hsession, hkeyed, hkeeps⟩ := perform_keeps hallowed hperform hinv.keyed
  obtain ⟨admin, hadmin, hpending, hafter⟩ := spared_after hinv hprogram hcondition hperform
  have hkept : keepsAdmin admin s := by
    have hi : Counted (c.threads i).history → Pending c i :=
      fun h => ⟨Thread.not_finished_of_call hprogram, h⟩
    unfold keepsAdmin
    split
    · next key => exact hpending i key (hi hallowed.2) hallowed.1
    · trivial
  refine ⟨hkeyed, fun j => ?_, admin, hkeeps admin hadmin hkept, hafter⟩
  by_cases hj : j = i
  · rw [hj, Config.after_threads_self, hsession]
  · rw [Config.after_threads_of_ne hj, hinv.idle j]

/-- In the runs in which every count spares an admin, there is one in every state. -/
theorem adminCalls_admin_ne_nil {source : UUIDSource} {faults : PersistenceError → Prop}
    {shared : Shared} (hkeyed : shared.db.Keyed) (hadmin : shared.db .admin ≠ [])
    (hrun : Run (limited (storage source faults) (SparesAnAdmin calls))
      (Config.start .idle (fun i => (calls i).program) shared) c) :
    c.shared.db .admin ≠ [] := by
  have hstart : AdminInv calls (Config.start .idle (fun i => (calls i).program) shared) := by
    obtain ⟨admin, hmem⟩ := List.exists_mem_of_ne_nil _ hadmin
    refine ⟨hkeyed, fun _ => rfl, admin, hmem, fun j id hj => ?_⟩
    obtain ⟨rows, -, hmem⟩ := hj.2
    cases hmem
  obtain ⟨hinv, -⟩ := Run.invariant hrun (fun i => (calls i).meets) hstart
    fun c i s next r session shared _ hinv hprogram hallowed hact =>
      hinv.step hprogram hallowed hact
  obtain ⟨admin, hmem, -⟩ := hinv.spared
  exact List.ne_nil_of_mem hmem

def adminAlice : Row .admin :=
  AdminRow.mk "alice" "internal-alice" [signerAdminRole] "" "version-alice"

def adminBob : Row .admin := AdminRow.mk "bob" "internal-bob" [signerAdminRole] "" "version-bob"

def twoAdmins : Database := Function.update Database.empty .admin [adminAlice, adminBob]

theorem twoAdmins_keyed : twoAdmins.Keyed := by
  intro t
  cases t with
  | admin => decide
  | _ => exact List.Pairwise.nil

/-- Each of two admins is deleted. -/
def deletesOfBoth : Bool → AdminCall
  | false => .delete "alice"
  | true => .delete "bob"

def emptyKeyStores : KeyStores := ⟨fun _ => none, fun _ => []⟩

def bothDeletes : StorageConfig Bool AdminRow :=
  Config.start .idle (fun i => (deletesOfBoth i).program) ⟨twoAdmins, 0, emptyKeyStores⟩

/-- Both count, then both go on to their end. -/
def countsFirst : List Bool :=
  [false, true] ++ List.replicate 6 false ++ List.replicate 6 true

private theorem quiet_countsFirst :
    ∀ n ≤ countsFirst.length, Quiet (follow unaryUUIDs bothDeletes (countsFirst.take n)) := by
  decide +kernel

/-- Two admins, two deletes, and no admin is left. -/
theorem bothDeletes_lose_admins :
    bothDeletes.shared.db .admin ≠ [] ∧ bothDeletes.shared.db.Keyed ∧
      ∃ c, Run (storage unaryUUIDs noFaults) bothDeletes c ∧ c.shared.db .admin = [] := by
  refine ⟨by decide, twoAdmins_keyed, follow unaryUUIDs bothDeletes countsFirst,
    run_follow _ quiet_countsFirst, ?_⟩
  exact List.isEmpty_iff.mp (by decide +kernel)

def adminCarol : Row .admin :=
  AdminRow.mk "carol" "internal-carol" [signerAdminRole] "" "version-carol"

def threeAdmins : Database :=
  Function.update Database.empty .admin [adminAlice, adminBob, adminCarol]

theorem threeAdmins_keyed : threeAdmins.Keyed := by
  intro t
  cases t with
  | admin => decide
  | _ => exact List.Pairwise.nil

/-- The same deletes, where there is a third admin. -/
def deletesOfTwo : StorageConfig Bool AdminRow :=
  Config.start .idle (fun i => (deletesOfBoth i).program) ⟨threeAdmins, 0, emptyKeyStores⟩

private theorem steps_deletesOfTwo : ∀ n ≤ countsFirst.length,
    Quiet (follow unaryUUIDs deletesOfTwo (countsFirst.take n)) ∧
      adminCarol ∈ (follow unaryUUIDs deletesOfTwo (countsFirst.take n)).shared.db .admin := by
  decide +kernel

theorem deletesOfTwo_admin_ne_nil :
    (follow unaryUUIDs deletesOfTwo countsFirst).shared.db .admin ≠ [] := by
  have hrun : Run (limited (storage unaryUUIDs noFaults) (SparesAnAdmin deletesOfBoth))
      deletesOfTwo (follow unaryUUIDs deletesOfTwo countsFirst) := by
    apply run_follow_limited
    intro n hn
    obtain ⟨hquiet, hcarol⟩ := steps_deletesOfTwo n hn
    refine ⟨hquiet, fun i s id hid _ _ => ⟨_, hcarol, ?_, fun j id' _ hid' => ?_⟩⟩
    · cases i <;> cases hid <;> decide
    · cases j <;> cases hid' <;> decide
  exact adminCalls_admin_ne_nil threeAdmins_keyed (by decide) hrun

end Signare
