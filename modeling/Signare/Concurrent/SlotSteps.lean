import Signare.Concurrent.SlotCalls
import Signare.Concurrent.Environment
import Signare.Storage.Keyed

/-!
# What a step does to a slot

A step of an operation on a slot either leaves the slot as it is or is the one by which the change
of the operation takes effect: an update of the keys when it is made, the change of a transaction
when it is committed.
-/

namespace Signare

open ByteCodec Interleaving

/-- Whether the change of a slot takes effect with an answer. A delete that finds no slot takes
effect at once: there is nothing to commit. -/
def Session.takesEffect : Session → (s : Effect) → s.Answer → Bool
  | .idle, .statement (.update .hsmSlot _ _ _), .ok (rowsAffected : Nat) => rowsAffected != 0
  | .open_ _, .statement (.delete .hsmSlot _), .ok (rowsAffected : Nat) => rowsAffected == 0
  | .open_ writes, .commit, .ok _ => writes.any Write.touchesSlots
  | _, _, _ => false

theorem Effect.perform_statement_open {source : UUIDSource} {s : Statement} {writes : List Write}
    {shared shared' : Shared} {answer : Except PersistenceError s.Result} {session : Session}
    (h : Effect.perform source (.statement s) none (.open_ writes) shared =
      (answer, session, shared')) : shared' = shared ∧
      ((∃ err, answer = .error err ∧ s.answer (Write.applyAll writes shared.db) = .error err) ∧
          session = .aborted ∨
        ∃ result, answer = .ok result ∧
          s.answer (Write.applyAll writes shared.db) = .ok result ∧
          session = .open_ (writes ++ (s.write (Write.applyAll writes shared.db)).toList)) := by
  cases hanswer : s.answer (Write.applyAll writes shared.db) with
  | error err =>
    simp only [Effect.perform, Statement.perform, hanswer] at h
    cases h
    exact ⟨rfl, .inl ⟨⟨err, rfl, rfl⟩, rfl⟩⟩
  | ok result =>
    simp only [Effect.perform, Statement.perform, hanswer] at h
    cases h
    exact ⟨rfl, .inr ⟨result, rfl, rfl, rfl⟩⟩

theorem Effect.perform_statement_aborted {source : UUIDSource} {s : Statement}
    {fault : Option PersistenceError} {shared shared' : Shared}
    {answer : Except PersistenceError s.Result} {session : Session}
    (h : Effect.perform source (.statement s) fault .aborted shared =
      (answer, session, shared')) :
    answer = .error inFailedTransaction ∧ session = .aborted ∧ shared' = shared := by
  cases h
  exact ⟨rfl, rfl, rfl⟩

section Statements

variable {id : String} {db : Database}

theorem Stores.nil_or_singleton {rows : List HSMSlotRow} {content : Option SlotContent}
    (h : Stores rows content) : rows = [] ∨ ∃ row, rows = [row] := by
  cases content with
  | none => exact .inl h
  | some content =>
    obtain ⟨row, hrow, -⟩ := h
    exact .inr ⟨row, hrow⟩

theorem rowsAt_eq_nil_of_insert {row : HSMSlotRow} {u : Unit} (hid : row.id = id)
    (h : (Statement.insert .hsmSlot row).answer db = .ok u) : rowsAt id db = [] := by
  have hclash : (db .hsmSlot).any (clash .hsmSlot row) = false := (Statement.insert_answer_ok h).2
  apply List.filter_eq_nil_iff.mpr
  intro row' hrow' hkey
  have hkey' : keyOf .hsmSlot row' = id := of_decide_eq_true hkey
  apply keyOf_ne_of_clash (Bool.eq_false_iff.mpr (List.any_eq_false.mp hclash row' hrow'))
  rw [hkey']
  exact hid

theorem write_update_hsmSlot (resourceVersion : String) (assign : HSMSlotRow → HSMSlotRow) :
    (Statement.update .hsmSlot id resourceVersion assign).write db =
      some (.change .hsmSlot (((rowsAt id db).filter fun row =>
        row.resourceVersion = resourceVersion).map HSMSlotRow.internalResourceId) assign) := by
  simp only [rowsAt, List.filter_filter]
  simp only [Statement.write, Bool.decide_and, Bool.and_comm]
  rfl

theorem answer_update_hsmSlot {resourceVersion : String} {assign : HSMSlotRow → HSMSlotRow}
    {rowsAffected : Nat}
    (h : (Statement.update .hsmSlot id resourceVersion assign).answer db = .ok rowsAffected) :
    rowsAffected = ((rowsAt id db).filter fun row =>
      row.resourceVersion = resourceVersion).length := by
  simp only [Statement.answer] at h
  split at h
  · cases h
    simp only [rowsAt, List.filter_filter, Bool.decide_and, Bool.and_comm]
    rfl
  · cases h

/-- An update changes the row of the slot where it has the version that is asked for. -/
theorem update_cases {resourceVersion : String} {assign : HSMSlotRow → HSMSlotRow}
    {content : Option SlotContent} (hstores : Stores (rowsAt id db) content) {rowsAffected : Nat}
    (h : (Statement.update .hsmSlot id resourceVersion assign).answer db = .ok rowsAffected) :
    rowsAffected = 0 ∧ (Statement.update .hsmSlot id resourceVersion assign).write db =
        some (.change .hsmSlot [] assign) ∨
      ∃ row, rowsAt id db = [row] ∧ row.resourceVersion = resourceVersion ∧ rowsAffected = 1 ∧
        (Statement.update .hsmSlot id resourceVersion assign).write db =
          some (.change .hsmSlot [row.internalResourceId] assign) := by
  rw [write_update_hsmSlot, answer_update_hsmSlot h]
  cases hstores.nil_or_singleton with
  | inl hnil =>
    rw [hnil]
    exact .inl ⟨rfl, rfl⟩
  | inr hrow =>
    obtain ⟨row, hrow⟩ := hrow
    rw [hrow]
    by_cases hversion : row.resourceVersion = resourceVersion
    · rw [List.filter_singleton, decide_eq_true hversion]
      exact .inr ⟨row, rfl, hversion, rfl, rfl⟩
    · rw [List.filter_singleton, decide_eq_false hversion]
      exact .inl ⟨rfl, rfl⟩

/-- A write on the row of the slot, or of a row that takes its place. -/
inductive Acts (id : String) (rows : List HSMSlotRow) : Write → Prop
  | insert {row : HSMSlotRow} (hid : row.id = id) (hrows : rows = []) :
      Acts id rows (.insert .hsmSlot row)
  | remove {row : HSMSlotRow} (hrows : rows = [row]) :
      Acts id rows (.remove .hsmSlot [row.internalResourceId])
  | change {row : HSMSlotRow} (assign : HSMSlotRow → HSMSlotRow) (hrows : rows = [row]) :
      Acts id rows (.change .hsmSlot [row.internalResourceId] assign)

/-- Two writes on one slot wait for one another. -/
theorem Acts.waitsFor {rows : List HSMSlotRow} {w w' : Write} (h : Acts id rows w)
    (h' : Acts id rows w') : w.waitsFor db w' := by
  cases h with
  | @insert row hid hrows =>
    cases h' with
    | @insert row' hid' _ =>
      refine ⟨rfl, ?_⟩
      have hkey : keyOf .hsmSlot row = keyOf .hsmSlot row' := hid.trans hid'.symm
      simp [clash, hkey]
    | remove hrows' => rw [hrows] at hrows'; cases hrows'
    | change assign hrows' => rw [hrows] at hrows'; cases hrows'
  | @remove row hrows =>
    cases h' with
    | insert _ hrows' => rw [hrows] at hrows'; cases hrows'
    | remove hrows' =>
      rw [hrows] at hrows'
      cases hrows'
      exact ⟨rfl, _, List.mem_singleton_self _, List.mem_singleton_self _⟩
    | change assign hrows' =>
      rw [hrows] at hrows'
      cases hrows'
      exact ⟨rfl, _, List.mem_singleton_self _, List.mem_singleton_self _⟩
  | @change row assign hrows =>
    cases h' with
    | insert _ hrows' => rw [hrows] at hrows'; cases hrows'
    | remove hrows' =>
      rw [hrows] at hrows'
      cases hrows'
      exact ⟨rfl, _, List.mem_singleton_self _, List.mem_singleton_self _⟩
    | change assign hrows' =>
      rw [hrows] at hrows'
      cases hrows'
      exact ⟨rfl, _, List.mem_singleton_self _, List.mem_singleton_self _⟩

end Statements

section Phases

variable (keccak : Hash256) (id : String) (call : SlotCall) (history : History)

/-- The write of an open transaction, whose slot is still as it was found. -/
inductive Pends (rows : List HSMSlotRow) : Write → Prop
  | insert {row : HSMSlotRow} (hcall : call.Inserts keccak id history row) (hrows : rows = []) :
      Pends rows (.insert .hsmSlot row)
  | remove {row : HSMSlotRow} (hcall : call = .deleteHSMSlot) (hrows : rows = [row]) :
      Pends rows (.remove .hsmSlot [row.internalResourceId])
  | change {row : HSMSlotRow} {resourceVersion pin hsmModuleId version : String}
      (hcall : call = .editPin resourceVersion pin hsmModuleId)
      (hversion : Given history version)
      (hrows : rows = [row]) :
      Pends rows (.change .hsmSlot [row.internalResourceId] (assignPin pin version))

/-- No write of an open transaction changes a slot. -/
def Session.LeavesSlots (session : Session) : Prop :=
  ∀ w ∈ session.pending, Write.touchesSlots w = false

/-- How far a call is with its slot. `effective` says that its change has taken effect. -/
inductive SlotPhase (session : Session) (effective : Prop) (rows : List HSMSlotRow) : Prop
  | before (hwrote : wrote history = false) (hnot : ¬ effective) (hsession : session.LeavesSlots)
  | pending {writes : List Write} {w : Write} (hcall : call.transactional = true)
      (hwrote : wrote history = true) (hnot : ¬ effective)
      (hsession : session = .open_ (writes ++ [w]))
      (hwrites : ∀ w ∈ writes, Write.touchesSlots w = false)
      (hpends : Pends keccak id call history rows w)
  | deleted {writes : List Write} (hcall : call = .deleteHSMSlot) (hwrote : wrote history = true)
      (heffective : effective) (hsession : session = .open_ writes)
      (hwrites : ∀ w ∈ writes, Write.touchesSlots w = false)
  | done (hwrote : wrote history = true) (heffective : effective) (hsession : session = .idle)
      (hcommitted : call.transactional = true → committed history = true)
  | undone (hcall : call.transactional = true) (hwrote : wrote history = true) (hnot : ¬ effective)
      (hsession : session = .idle) (hcommitted : committed history = false)

end Phases

variable {keccak : Hash256} {id : String} {call : SlotCall} {history : History}
  {rows : List HSMSlotRow}

theorem Pends.acts {w : Write} (h : Pends keccak id call history rows w) : Acts id rows w := by
  cases h with
  | insert hcall hrows =>
    obtain ⟨_, _, _, _, -, hid, -⟩ := hcall
    exact .insert hid hrows
  | remove hcall hrows => exact .remove hrows
  | change hcall hversion hrows => exact .change _ hrows

theorem Pends.touchesSlots {w : Write} (h : Pends keccak id call history rows w) :
    w.touchesSlots = true := by
  cases h with
  | insert hcall hrows => rfl
  | remove hcall hrows => rfl
  | change hcall hversion hrows => rfl

theorem Pends.append {w : Write} (h : Pends keccak id call history rows w) (more : History) :
    Pends keccak id call (history ++ more) rows w := by
  cases h with
  | insert hcall hrows =>
    obtain ⟨applicationId, hsmModuleId, slot, config, hcall, hid, hne, hconfig, hversion⟩ := hcall
    exact .insert ⟨applicationId, hsmModuleId, slot, config, hcall, hid, hne, hconfig,
      List.mem_append_left _ hversion⟩ hrows
  | remove hcall hrows => exact .remove hcall hrows
  | change hcall hversion hrows => exact .change hcall (List.mem_append_left _ hversion) hrows

/-- A change of the slot by a call: of what is stored, what the call is to make of it, under a
version that the call was given. -/
structure Changes (call : SlotCall) (history : History) (rows rows' : List HSMSlotRow) : Prop where
  content : ∀ content, Stores rows content → Stores rows' (call.apply content)
  kept : call ≠ .deleteHSMSlot → rows' ≠ []
  version : ∀ row ∈ rows',
    Given history row.resourceVersion

theorem Pends.changes {w : Write} (h : Pends keccak id call history rows w) {db : Database}
    (hdb : rowsAt id db = rows) : Changes call history rows (rowsAt id (w.apply db)) := by
  cases h with
  | @insert row hcall hrows =>
    obtain ⟨applicationId, hsmModuleId, slot, config, hcall, hid, hne, hconfig, hversion⟩ := hcall
    rw [rowsAt_insert hid, hdb, hrows, List.nil_append]
    refine ⟨fun content _ => ?_, fun _ => List.cons_ne_nil _ _, fun row' hrow' => ?_⟩
    · rw [hcall]
      exact ⟨row, rfl, HSMSlotRow.loads_serialize hne hconfig⟩
    · rw [List.mem_singleton.mp hrow']
      exact hversion
  | @remove row hcall hrows =>
    have hgone : ([row].filter fun row' =>
        row'.internalResourceId ∉ [row.internalResourceId]) = [] := by simp
    rw [rowsAt_remove, hdb, hrows, hgone]
    refine ⟨fun content _ => ?_, fun hne => absurd hcall hne, nofun⟩
    rw [hcall]
    rfl
  | @change row resourceVersion pin hsmModuleId version hcall hversion hrows =>
    have hkeeps : ∀ row, (assignPin pin version row).id = row.id := fun _ => rfl
    rw [rowsAt_change _ hkeeps, hdb, hrows, List.map_singleton,
      if_pos (List.mem_singleton_self _)]
    refine ⟨fun content hstores => ?_, fun _ => List.cons_ne_nil _ _, fun row' hrow' => ?_⟩
    · obtain ⟨content', rfl, hloads⟩ := hstores.exists_some
      rw [hcall]
      exact ⟨_, rfl, hloads.assignPin pin version⟩
    · rw [List.mem_singleton.mp hrow']
      exact hversion

theorem changes_of_keys (hcall : call.transactional = false) {row : HSMSlotRow} {slot : HSMSlot}
    (hslot : HSMSlotDB.mapFromDB row = .ok slot) {version : String}
    (hversion : Given history version) :
    Changes call history [row] [assignConfig (HSMSlotDB.serialize keccak
      (slot.withKeyStore (call.editStore slot.keyStore)).config) version row] := by
  refine ⟨fun content hstores => ?_, fun _ => List.cons_ne_nil _ _, fun row' hrow' => ?_⟩
  · obtain ⟨content', rfl, hloads⟩ := hstores.exists_some
    have hlookup : ∀ address, slot.keyStore.lookup address = content'.privateKey address := by
      obtain ⟨slot', hslot', -, hlookup⟩ := hloads
      rw [hslot] at hslot'
      cases hslot'
      exact hlookup
    have hwritten (keyStore : HSMSlot.KeyStore) (privateKey : Address → Option String)
        (hkeys : ∀ address, keyStore.lookup address = privateKey address) :
        (assignConfig (HSMSlotDB.serialize keccak (slot.withKeyStore keyStore).config) version
          row).Loads { content' with privateKey } := by
      have heq : privateKey = fun address => keyStore.lookup address :=
        (funext hkeys).symm
      rw [heq]
      exact hloads.assignConfig slot keyStore version
    cases call with
    | addLocalKey privateKey address =>
      refine ⟨_, rfl, hwritten _ _ fun address' => ?_⟩
      by_cases heq : address' = address
      · rw [heq, Function.update_self]
        exact AList.lookup_insert _
      · rw [Function.update_of_ne heq, ← hlookup]
        exact AList.lookup_insert_ne heq
    | removeLocalKey address =>
      refine ⟨_, rfl, hwritten _ _ fun address' => ?_⟩
      by_cases heq : address' = address
      · rw [heq, Function.update_self]
        exact AList.lookup_erase _ _
      · rw [Function.update_of_ne heq, ← hlookup]
        exact AList.lookup_erase_ne heq
    | _ => cases hcall
  · rw [List.mem_singleton.mp hrow']
    exact hversion

/-- Whether a statement is one that changes slots. -/
def Statement.aboutSlots : Statement → Bool
  | .insert .hsmSlot _ => true
  | .delete .hsmSlot _ => true
  | .deleteAll .hsmSlot _ => true
  | .update .hsmSlot .. => true
  | _ => false

theorem Statement.touchesSlots_write {s : Statement} (h : s.aboutSlots = false) (db : Database) :
    ∀ w ∈ (s.write db).toList, Write.touchesSlots w = false := by
  intro w hw
  cases s with
  | insert t row =>
    rw [List.mem_singleton.mp hw]
    cases t with
    | hsmSlot => cases h
    | _ => rfl
  | delete t key =>
    rw [List.mem_singleton.mp hw]
    cases t with
    | hsmSlot => cases h
    | _ => rfl
  | deleteAll t filter =>
    rw [List.mem_singleton.mp hw]
    cases t with
    | hsmSlot => cases h
    | _ => rfl
  | update t key resourceVersion assign =>
    rw [List.mem_singleton.mp hw]
    cases t with
    | hsmSlot => cases h
    | _ => rfl
  | _ => cases hw

theorem Statement.wroteSlot_of_not_aboutSlots {s : Statement} (h : s.aboutSlots = false)
    (r : (Effect.statement s).Answer) : (Effect.statement s).wroteSlot r = false := by
  cases s with
  | insert t row =>
    cases t with
    | hsmSlot => cases h
    | _ => rfl
  | delete t key =>
    cases t with
    | hsmSlot => cases h
    | _ => rfl
  | update t key resourceVersion assign =>
    cases t with
    | hsmSlot => cases h
    | _ => rfl
  | _ => rfl

theorem Session.takesEffect_of_not_aboutSlots {s : Statement} (h : s.aboutSlots = false)
    (session : Session) (r : (Effect.statement s).Answer) :
    session.takesEffect (.statement s) r = false := by
  cases s with
  | insert t row => cases session <;> rfl
  | delete t key =>
    cases t with
    | hsmSlot => cases h
    | _ => cases session <;> rfl
  | update t key resourceVersion assign =>
    cases t with
    | hsmSlot => cases h
    | _ => cases session <;> rfl
  | _ => cases session <;> rfl

theorem wroteSlot_error (s : Statement) (err : PersistenceError) :
    (Effect.statement s).wroteSlot (.error err) = false := by
  cases s with
  | insert t row => cases t <;> rfl
  | delete t key => cases t <;> rfl
  | update t key resourceVersion assign => cases t <;> rfl
  | _ => rfl

theorem takesEffect_error (session : Session) (s : Statement) (err : PersistenceError) :
    session.takesEffect (.statement s) (.error err) = false := by
  cases s with
  | delete t key => cases session <;> cases t <;> rfl
  | update t key resourceVersion assign => cases session <;> cases t <;> rfl
  | _ => cases session <;> rfl

theorem rowsAt_congr {db db' : Database} (h : db .hsmSlot = db' .hsmSlot) :
    rowsAt id db = rowsAt id db' := by
  rw [rowsAt, rowsAt, h]

theorem rowsAt_applyAll {writes : List Write} (h : ∀ w ∈ writes, Write.touchesSlots w = false)
    (db : Database) : rowsAt id (Write.applyAll writes db) = rowsAt id db :=
  rowsAt_congr (Write.applyAll_of_not_touchesSlots h db)

theorem Statement.written_of_write {s : Statement} {db : Database} {w : Write}
    (h : s.write db = some w) : s.written db = w.apply db := by
  rw [Statement.written, h]
  rfl

theorem rowsAt_written {s : Statement} (h : s.aboutSlots = false) (db : Database) :
    rowsAt id (s.written db) = rowsAt id db := by
  have htouches := Statement.touchesSlots_write h db
  unfold Statement.written
  cases hw : s.write db with
  | none => rfl
  | some w =>
    rw [hw] at htouches
    exact rowsAt_congr (Write.apply_of_not_touchesSlots (htouches w (List.mem_singleton_self _)) db)

theorem SlotCall.allowedStatement.reads {s : Statement}
    (h : call.allowedStatement keccak id history s) (hwrote : wrote history = true)
    (db : Database) :
    s.aboutSlots = false ∧ s.write db = none ∧ ∃ result, s.answer db = .ok result := by
  have hnot : ¬ wrote history = false := by
    rw [hwrote]
    exact Bool.noConfusion
  cases s with
  | getById t key => exact ⟨rfl, rfl, _, rfl⟩
  | exists_ t key => exact ⟨rfl, rfl, _, rfl⟩
  | list t filter limit => exact ⟨rfl, rfl, _, rfl⟩
  | insert t row =>
    cases t with
    | hsmSlot => exact absurd h.1 hnot
    | _ => exact absurd h hnot
  | delete t key =>
    cases t with
    | hsmSlot => exact absurd h.1 hnot
    | _ => exact absurd h hnot
  | deleteAll t filter =>
    cases t with
    | hsmSlot => exact h.elim
    | _ => exact absurd h hnot
  | update t key resourceVersion assign =>
    cases t with
    | hsmSlot => exact absurd h.1 hnot
    | _ => exact absurd h hnot

/-- What a step of a call does to the slot and to how far the call is: nothing takes effect, or the
change of the call does. `alone` says that no other call has changed the slot in an open
transaction. -/
inductive Outcome (keccak : Hash256) (id : String) (call : SlotCall) (history : History)
    (session : Session) (effective : Prop) (rows : List HSMSlotRow) (alone : Prop) (s : Effect)
    (r : s.Answer) (session' : Session) (rows' : List HSMSlotRow) : Prop
  | still (htakes : session.takesEffect s r = false) (hrows : rows' = rows)
      (hphase : SlotPhase keccak id call (history ++ [⟨s, r⟩]) session' effective rows)
      (hleaves : session.LeavesSlots → ¬ session'.LeavesSlots → alone)
  | effect (htakes : session.takesEffect s r = true) (hnot : ¬ effective)
      (hchanges : Changes call history rows rows')
      (hphase : SlotPhase keccak id call (history ++ [⟨s, r⟩]) session' True rows')
      (hleaves : session'.LeavesSlots) (halone : rows' = rows ∨ alone)

section Steps

variable {session session' : Session} {effective alone : Prop} {rows' : List HSMSlotRow}
  {s : Effect} {r : s.Answer}

theorem Outcome.before (htakes : session.takesEffect s r = false) (hwrote : wrote history = false)
    (hquiet : s.wroteSlot r = false) (hnot : ¬ effective) (hleaves : session'.LeavesSlots)
    (hrows : rows' = rows) :
    Outcome keccak id call history session effective rows alone s r session' rows' := by
  refine .still htakes hrows (.before ?_ hnot hleaves) fun _ h => absurd hleaves h
  rw [wrote_concat, hwrote, hquiet]
  rfl

theorem SlotPhase.not_wrote (h : SlotPhase keccak id call history session effective rows)
    (hwrote : wrote history = false) : ¬ effective ∧ session.LeavesSlots := by
  have hno {p : Prop} (h : wrote history = true) : p := by
    rw [hwrote] at h
    cases h
  cases h with
  | before _ hnot hsession => exact ⟨hnot, hsession⟩
  | pending _ h _ _ _ _ => exact hno h
  | deleted _ h _ _ _ => exact hno h
  | done h _ _ _ => exact hno h
  | undone _ h _ _ _ => exact hno h

theorem leavesSlots_idle : Session.idle.LeavesSlots := nofun

theorem leavesSlots_aborted : Session.aborted.LeavesSlots := nofun

theorem SlotPhase.idle_concat (h : SlotPhase keccak id call history .idle effective rows)
    (hcall : call.transactional = false) (hquiet : s.wroteSlot r = false) :
    SlotPhase keccak id call (history ++ [⟨s, r⟩]) .idle effective rows := by
  have hwrote : wrote (history ++ [⟨s, r⟩]) = wrote history := by
    rw [wrote_concat, hquiet, Bool.or_false]
  cases h with
  | before h hnot hsession => exact .before (hwrote.trans h) hnot hsession
  | pending h _ _ _ _ _ =>
    rw [hcall] at h
    cases h
  | deleted _ _ _ hsession _ => cases hsession
  | done h heffective hsession _ =>
    refine .done (hwrote.trans h) heffective hsession fun h => ?_
    rw [hcall] at h
    cases h
  | undone h _ _ _ _ =>
    rw [hcall] at h
    cases h

variable {db : Database} {statement : Statement}
  {answer : Except PersistenceError statement.Result}

theorem outcome_idle {effective : Prop}
    (hphase : SlotPhase keccak id call history .idle effective (rowsAt id db))
    (hcall : call.transactional = false) {content : Option SlotContent}
    (hstores : Stores (rowsAt id db) content)
    (hallowed : call.allowedStatement keccak id history statement)
    (hread : ∀ row, ReadAt id history (.ok [row]) → row.id = id ∧
      ∀ row' ∈ rowsAt id db, row'.resourceVersion = row.resourceVersion → row' = row)
    (halone : ∀ w, statement.write db = some w → Acts id (rowsAt id db) w → alone)
    {db' : Database}
    (hperform : (∃ err, answer = .error err) ∧ db' = db ∨
      ∃ result, answer = .ok result ∧ statement.answer db = .ok result ∧
        db' = statement.written db) :
    Outcome keccak id call history .idle effective (rowsAt id db) alone (.statement statement)
      answer .idle (rowsAt id db') := by
  have hstill (htakes : Session.idle.takesEffect (.statement statement) answer = false)
      (hquiet : (Effect.statement statement).wroteSlot answer = false)
      (hrows : rowsAt id db' = rowsAt id db) :
      Outcome keccak id call history .idle effective (rowsAt id db) alone (.statement statement)
        answer .idle (rowsAt id db') :=
    .still htakes hrows (hphase.idle_concat hcall hquiet) fun _ h => absurd leavesSlots_idle h
  obtain ⟨⟨err, rfl⟩, rfl⟩ | ⟨result, rfl, hanswer, rfl⟩ := hperform
  · exact hstill (takesEffect_error ..) (wroteSlot_error ..) rfl
  · cases habout : statement.aboutSlots with
    | false =>
      exact hstill (Session.takesEffect_of_not_aboutSlots habout _ _)
        (Statement.wroteSlot_of_not_aboutSlots habout _) (rowsAt_written habout db)
    | true =>
      cases statement with
      | insert t row =>
        cases t with
        | hsmSlot =>
          obtain ⟨-, _, _, _, _, heq, -⟩ := hallowed
          rw [heq] at hcall
          cases hcall
        | _ => cases habout
      | delete t key =>
        cases t with
        | hsmSlot =>
          obtain ⟨-, heq, -⟩ := hallowed
          rw [heq] at hcall
          cases hcall
        | _ => cases habout
      | deleteAll t filter =>
        cases t with
        | hsmSlot => exact hallowed.elim
        | _ => cases habout
      | update t key resourceVersion assign =>
        cases t with
        | hsmSlot =>
          obtain ⟨hwrote, hupdates⟩ := hallowed
          obtain ⟨hnot, -⟩ := hphase.not_wrote hwrote
          cases hupdates with
          | pin heq _ =>
            rw [heq] at hcall
            cases hcall
          | @keys row slot _ _ version _ hidle hreadAt hslot hkey hguard hversion =>
            obtain ⟨hid, hsame⟩ := hread row hreadAt
            have hfields := (HSMSlotDB.mapFromDB_ok hslot).2
            have hkeyid : key = id := by rw [hkey, hfields, ← hid]
            have hstamp : row.resourceVersion = resourceVersion := by rw [hguard, hfields]
            subst hkeyid
            obtain ⟨rfl, hwrite⟩ | ⟨row', hrow', hversion', rfl, hwrite⟩ :=
              update_cases hstores hanswer
            · apply hstill rfl rfl
              rw [Statement.written_of_write hwrite]
              exact rowsAt_congr (Write.apply_of_not_touchesSlots rfl db)
            · have heq : row' = row := by
                apply hsame row' _ (hversion'.trans hstamp.symm)
                rw [hrow']
                exact List.mem_singleton_self row'
              subst heq
              let assign := assignConfig (HSMSlotDB.serialize keccak
                (slot.withKeyStore (call.editStore slot.keyStore)).config) version
              have hkeeps : ∀ row, (assign row).id = row.id := fun _ => rfl
              have hrows : rowsAt key ((Statement.update .hsmSlot key resourceVersion
                  assign).written db) = [assign row'] := by
                rw [Statement.written_of_write hwrite, rowsAt_change _ hkeeps, hrow',
                  List.map_singleton, if_pos (List.mem_singleton_self _)]
              apply Outcome.effect rfl hnot
              · rw [hrows, hrow']
                exact changes_of_keys hcall hslot hversion
              · refine .done ?_ trivial rfl fun h => ?_
                · exact (wrote_concat ..).trans (Bool.or_true _)
                · rw [hcall] at h
                  cases h
              · exact leavesSlots_idle
              · exact .inr (halone _ hwrite (.change _ hrow'))
        | _ => cases habout
      | _ => cases habout

theorem leavesSlots_open {writes more : List Write} (h : (Session.open_ writes).LeavesSlots)
    (hmore : ∀ w ∈ more, Write.touchesSlots w = false) :
    (Session.open_ (writes ++ more)).LeavesSlots := by
  intro w hw
  cases List.mem_append.mp hw with
  | inl hw => exact h w hw
  | inr hw => exact hmore w hw

theorem outcome_open_before {writes : List Write} (hwrote : wrote history = false)
    (hnot : ¬ effective) (hleaves : (Session.open_ writes).LeavesSlots)
    (hbegan : began history = true) {content : Option SlotContent}
    (hstores : Stores (rowsAt id db) content)
    (hallowed : call.allowedStatement keccak id history statement)
    (halone : ∀ w, statement.write (Write.applyAll writes db) = some w →
      Acts id (rowsAt id db) w → alone) {result : statement.Result}
    (hanswer : statement.answer (Write.applyAll writes db) = .ok result) :
    Outcome keccak id call history (.open_ writes) effective (rowsAt id db) alone
      (.statement statement) (.ok result)
      (.open_ (writes ++ (statement.write (Write.applyAll writes db)).toList)) (rowsAt id db) := by
  have hview : rowsAt id (Write.applyAll writes db) = rowsAt id db := rowsAt_applyAll hleaves db
  have hpends {w : Write} (hcall : call.transactional = true)
      (htakes : (Session.open_ writes).takesEffect (.statement statement) (.ok result) = false)
      (hquiet : (Effect.statement statement).wroteSlot (.ok result) = true)
      (hwrite : statement.write (Write.applyAll writes db) = some w)
      (hpends : Pends keccak id call history (rowsAt id db) w) :
      Outcome keccak id call history (.open_ writes) effective (rowsAt id db) alone
        (.statement statement) (.ok result)
        (.open_ (writes ++ (statement.write (Write.applyAll writes db)).toList))
        (rowsAt id db) := by
    rw [hwrite]
    refine .still htakes rfl (.pending hcall ?_ hnot rfl hleaves (hpends.append _)) fun _ _ =>
      halone w hwrite hpends.acts
    exact (wrote_concat ..).trans ((congrArg (wrote history || ·) hquiet).trans (Bool.or_true _))
  cases habout : statement.aboutSlots with
  | false =>
    exact .before (Session.takesEffect_of_not_aboutSlots habout _ _) hwrote
      (Statement.wroteSlot_of_not_aboutSlots habout _) hnot
      (leavesSlots_open hleaves (Statement.touchesSlots_write habout _)) rfl
  | true =>
    cases statement with
    | insert t row =>
      cases t with
      | hsmSlot =>
        obtain ⟨-, hinserts⟩ := hallowed
        have hsome := hinserts
        obtain ⟨_, _, _, _, hcall, hid, -⟩ := hsome
        apply hpends (by rw [hcall]; rfl) rfl rfl rfl
        apply Pends.insert hinserts
        rw [← hview]
        exact rowsAt_eq_nil_of_insert hid hanswer
      | _ => cases habout
    | delete t key =>
      cases t with
      | hsmSlot =>
        obtain ⟨-, hcall, rfl⟩ := hallowed
        have hresult : (rowsAt key db).length = result := by
          rw [← hview]
          exact Except.ok.inj hanswer
        have hwrite : (Statement.delete .hsmSlot key).write (Write.applyAll writes db) =
            some (.remove .hsmSlot ((rowsAt key db).map HSMSlotRow.internalResourceId)) := by
          rw [← hview]
          rfl
        cases hstores.nil_or_singleton with
        | inl hnil =>
          rw [hnil] at hresult hwrite
          subst hresult
          rw [hwrite, hnil]
          refine .effect rfl hnot ⟨fun content' _ => ?_, fun hne => absurd hcall hne, nofun⟩
            (.deleted hcall ?_ trivial rfl ?_) ?_ (.inl rfl)
          · rw [hcall]
            rfl
          · exact (wrote_concat ..).trans (Bool.or_true _)
          · exact leavesSlots_open hleaves fun w hw => by rw [List.mem_singleton.mp hw]; rfl
          · exact leavesSlots_open hleaves fun w hw => by rw [List.mem_singleton.mp hw]; rfl
        | inr hrow =>
          obtain ⟨row, hrow⟩ := hrow
          rw [hrow] at hresult hwrite
          subst hresult
          exact hpends (by rw [hcall]; rfl) rfl rfl hwrite (.remove hcall hrow)
      | _ => cases habout
    | deleteAll t filter =>
      cases t with
      | hsmSlot => exact hallowed.elim
      | _ => cases habout
    | update t key resourceVersion assign =>
      cases t with
      | hsmSlot =>
        obtain ⟨-, hupdates⟩ := hallowed
        cases hupdates with
        | keys _ hidle _ _ _ _ _ =>
          rw [hbegan] at hidle
          cases hidle
        | @pin _ pin hsmModuleId version hcall hversion =>
          rw [← hview] at hstores
          obtain ⟨rfl, hwrite⟩ | ⟨row, hrow, -, rfl, hwrite⟩ := update_cases hstores hanswer
          · rw [hwrite]
            apply Outcome.before rfl hwrote rfl hnot _ rfl
            exact leavesSlots_open hleaves fun w hw => by rw [List.mem_singleton.mp hw]; rfl
          · rw [hview] at hrow
            exact hpends (by rw [hcall]; rfl) rfl rfl hwrite (.change hcall hversion hrow)
      | _ => cases habout
    | _ => cases habout

theorem outcome_open {writes : List Write}
    (hphase : SlotPhase keccak id call history (.open_ writes) effective (rowsAt id db))
    (hbegan : began history = true) {content : Option SlotContent}
    (hstores : Stores (rowsAt id db) content)
    (hdelete : call = .deleteHSMSlot → wrote history = false)
    (hallowed : call.allowedStatement keccak id history statement)
    (halone : ∀ w, statement.write (Write.applyAll writes db) = some w →
      Acts id (rowsAt id db) w → alone)
    (hperform : (∃ err, answer = .error err ∧
        statement.answer (Write.applyAll writes db) = .error err) ∧ session' = .aborted ∨
      ∃ result, answer = .ok result ∧ statement.answer (Write.applyAll writes db) = .ok result ∧
        session' = .open_ (writes ++ (statement.write (Write.applyAll writes db)).toList)) :
    Outcome keccak id call history (.open_ writes) effective (rowsAt id db) alone
      (.statement statement) answer session' (rowsAt id db) := by
  cases hphase with
  | before hwrote hnot hleaves =>
    obtain ⟨⟨err, rfl, -⟩, rfl⟩ | ⟨result, rfl, hanswer, rfl⟩ := hperform
    · exact .before (takesEffect_error ..) hwrote (wroteSlot_error ..) hnot leavesSlots_aborted rfl
    · exact outcome_open_before hwrote hnot hleaves hbegan hstores hallowed halone hanswer
  | @pending writes' w hcall hwrote hnot hsession hwrites hpends =>
    cases hsession
    obtain ⟨habout, hwrite, result, hanswer⟩ :=
      hallowed.reads hwrote (Write.applyAll (writes' ++ [w]) db)
    obtain ⟨⟨err, -, herr⟩, -⟩ | ⟨result', rfl, -, rfl⟩ := hperform
    · rw [hanswer] at herr
      cases herr
    · rw [hwrite, Option.toList_none, List.append_nil]
      have hwrote' : wrote (history ++ [⟨.statement statement, .ok result'⟩]) = true :=
        (wrote_concat ..).trans (by rw [hwrote]; rfl)
      refine .still (Session.takesEffect_of_not_aboutSlots habout _ _) rfl
        (.pending hcall hwrote' hnot rfl hwrites (hpends.append _)) fun hleaves hnot' =>
          absurd hleaves hnot'
  | deleted hcall hwrote _ _ _ =>
    rw [hdelete hcall] at hwrote
    cases hwrote
  | done _ _ hsession _ => cases hsession
  | undone _ _ _ hsession _ => cases hsession

variable {source : UUIDSource} {shared shared' : Shared}

/-- A session is idle where no transaction is under way. -/
theorem idle_iff_began (hsession : session = .idle ↔ began history = false)
    {fault : Option PersistenceError}
    (hperform : s.perform source fault session shared = (r, session', shared')) :
    session' = .idle ↔ began (history ++ [⟨s, r⟩]) = false := by
  rw [began_concat]
  cases s with
  | statement s =>
    have hkept : session' = .idle ↔ session = .idle := by
      cases session with
      | idle =>
        have hidle := (Effect.perform_statement_idle hperform).1
        rw [hidle]
      | aborted =>
        have haborted := (Effect.perform_statement_aborted hperform).2.1
        rw [haborted]
      | open_ writes =>
        have hopen : session' ≠ .idle := by
          cases fault with
          | some err =>
            cases hperform
            nofun
          | none =>
            obtain ⟨-, ⟨-, rfl⟩ | ⟨_, -, -, rfl⟩⟩ := Effect.perform_statement_open hperform
            · nofun
            · nofun
        exact iff_of_false hopen nofun
    exact hkept.trans hsession
  | begin_ =>
    cases fault with
    | some err =>
      cases hperform
      exact hsession
    | none =>
      cases hperform
      exact iff_of_false nofun nofun
  | commit =>
    have hidle : session' = .idle := by
      cases fault with
      | some err =>
        cases hperform
        rfl
      | none => cases session <;> cases hperform <;> rfl
    exact iff_of_true hidle rfl
  | rollback =>
    have hidle : session' = .idle := by
      cases fault <;> cases hperform <;> rfl
    exact iff_of_true hidle rfl
  | newUUID =>
    cases hperform
    exact hsession
  | hsm request =>
    have hkept : session' = session := by
      cases fault <;> cases hperform <;> rfl
    rw [hkept]
    exact hsession

theorem outcome_commit
    (hphase : SlotPhase keccak id call history session effective (rowsAt id shared.db))
    (hsession : session = .idle ↔ began history = false)
    (hallowed : call.transactional → began history)
    (hlone : ¬ session.LeavesSlots → alone) {answer : Except PersistenceError Unit}
    (hperform : Effect.perform source .commit none session shared =
      (answer, session', shared')) :
    Outcome keccak id call history session effective (rowsAt id shared.db) alone .commit answer
      session' (rowsAt id shared'.db) := by
  have hidle {p : Prop} (h : session = .idle) (hcall : call.transactional = true) : p := by
    have hbegan : began history = true := hallowed hcall
    rw [hsession.mp h] at hbegan
    cases hbegan
  have hwrote : wrote (history ++ [⟨.commit, answer⟩]) = (wrote history || false) :=
    wrote_concat ..
  rw [Bool.or_false] at hwrote
  cases hphase with
  | before hnotYet hnot hleaves =>
    cases session with
    | idle =>
      cases hperform
      exact .before rfl hnotYet rfl hnot leavesSlots_idle rfl
    | aborted =>
      cases hperform
      exact .before rfl hnotYet rfl hnot leavesSlots_idle rfl
    | open_ writes =>
      cases hperform
      apply Outcome.before _ hnotYet rfl hnot leavesSlots_idle (rowsAt_applyAll hleaves _)
      exact List.any_eq_false.mpr fun w hw => by rw [hleaves w hw]; exact Bool.false_ne_true
  | @pending writes w hcall hwritten hnot heq hwrites hpends =>
    subst heq
    have hloud : ¬ (Session.open_ (writes ++ [w])).LeavesSlots := by
      intro h
      have hw := h w (List.mem_append_right _ (List.mem_singleton_self w))
      rw [hpends.touchesSlots] at hw
      cases hw
    cases hperform
    have happly : Write.applyAll (writes ++ [w]) shared.db =
        w.apply (Write.applyAll writes shared.db) := List.foldl_append ..
    refine .effect ?_ hnot ?_ (.done (hwrote.trans hwritten) trivial rfl fun _ => ?_)
      leavesSlots_idle (.inr (hlone hloud))
    · exact List.any_eq_true.mpr
        ⟨w, List.mem_append_right _ (List.mem_singleton_self w), hpends.touchesSlots⟩
    · dsimp only
      rw [happly]
      exact hpends.changes (rowsAt_applyAll hwrites _)
    · exact committed_commit ..
  | @deleted writes hcall hwritten heffective heq hwrites =>
    subst heq
    cases hperform
    refine .still ?_ (rowsAt_applyAll hwrites _)
      (.done (hwrote.trans hwritten) heffective rfl fun _ => committed_commit ..)
      fun _ h => absurd leavesSlots_idle h
    exact List.any_eq_false.mpr fun w hw => by rw [hwrites w hw]; exact Bool.false_ne_true
  | done hwritten heffective heq _ =>
    subst heq
    cases hperform
    exact .still rfl rfl (.done (hwrote.trans hwritten) heffective rfl fun h => hidle rfl h)
      fun _ h => absurd leavesSlots_idle h
  | undone hcall _ _ heq _ => exact hidle heq hcall

theorem outcome_rollback
    (hphase : SlotPhase keccak id call history session effective (rowsAt id shared.db))
    (hsession : session = .idle ↔ began history = false)
    (hallowed : (call.transactional → began history) ∧
      (call = .deleteHSMSlot → wrote history = false))
    {answer : Except PersistenceError Unit}
    (hperform : Effect.perform source .rollback none session shared =
      (answer, session', shared')) :
    Outcome keccak id call history session effective (rowsAt id shared.db) alone .rollback answer
      session' (rowsAt id shared'.db) := by
  have hidle {p : Prop} (h : session = .idle) (hcall : call.transactional = true) : p := by
    have hbegan : began history = true := hallowed.1 hcall
    rw [hsession.mp h] at hbegan
    cases hbegan
  have hwrote : wrote (history ++ [⟨.rollback, answer⟩]) = (wrote history || false) :=
    wrote_concat ..
  rw [Bool.or_false] at hwrote
  have htakes : session.takesEffect .rollback answer = false := by
    cases session <;> rfl
  cases hperform
  cases hphase with
  | before hnotYet hnot hleaves => exact .before htakes hnotYet rfl hnot leavesSlots_idle rfl
  | pending hcall hwritten hnot _ _ _ =>
    exact .still htakes rfl (.undone hcall (hwrote.trans hwritten) hnot rfl
      (committed_concat_of_ne nofun)) fun _ h => absurd leavesSlots_idle h
  | deleted hcall hwritten _ _ _ =>
    rw [hallowed.2 hcall] at hwritten
    cases hwritten
  | done hwritten heffective heq _ =>
    exact .still htakes rfl (.done (hwrote.trans hwritten) heffective rfl fun h => hidle heq h)
      fun _ h => absurd leavesSlots_idle h
  | undone hcall _ _ heq _ => exact hidle heq hcall

theorem outcome
    (hphase : SlotPhase keccak id call history session effective (rowsAt id shared.db))
    (hsession : session = .idle ↔ began history = false) {content : Option SlotContent}
    (hstores : Stores (rowsAt id shared.db) content)
    (hallowed : call.allowed keccak id history s)
    (hread : call.transactional = false → ∀ row, ReadAt id history (.ok [row]) → row.id = id ∧
      ∀ row' ∈ rowsAt id shared.db, row'.resourceVersion = row.resourceVersion → row' = row)
    (halone : ∀ statement w, s = .statement statement →
      statement.write (session.view shared.db) = some w →
      Acts id (rowsAt id shared.db) w → alone)
    (hlone : ¬ session.LeavesSlots → alone)
    (hperform : s.perform source none session shared = (r, session', shared')) :
    Outcome keccak id call history session effective (rowsAt id shared.db) alone s r session'
      (rowsAt id shared'.db) := by
  cases s with
  | newUUID =>
    obtain ⟨hnot, hleaves⟩ := hphase.not_wrote hallowed
    cases hperform
    exact .before (by cases session <;> rfl) hallowed rfl hnot hleaves rfl
  | hsm request =>
    obtain ⟨hnot, hleaves⟩ := hphase.not_wrote hallowed
    cases hperform
    exact .before (by cases session <;> rfl) hallowed rfl hnot hleaves rfl
  | begin_ =>
    obtain ⟨hnot, -⟩ := hphase.not_wrote hallowed
    cases hperform
    exact .before (by cases session <;> rfl) hallowed rfl hnot nofun rfl
  | commit => exact outcome_commit hphase hsession hallowed hlone hperform
  | rollback => exact outcome_rollback hphase hsession hallowed hperform
  | statement statement =>
    obtain ⟨hbegun, hdelete, hstatement⟩ := hallowed
    cases session with
    | idle =>
      have hcall : call.transactional = false := by
        by_contra h
        have hbegan : began history = true := hbegun (Bool.eq_true_of_not_eq_false h)
        rw [hsession.mp rfl] at hbegan
        cases hbegan
      obtain ⟨rfl, hresult⟩ := Effect.perform_statement_idle hperform
      apply outcome_idle hphase hcall hstores hstatement (hread hcall)
      · intro w hwrite hacts
        exact halone statement w rfl hwrite hacts
      · obtain ⟨herr, hshared⟩ | ⟨result, hr, hanswer, hshared⟩ := hresult
        · exact .inl ⟨herr, by rw [hshared]⟩
        · exact .inr ⟨result, hr, hanswer, by rw [hshared]⟩
    | open_ writes =>
      have hbegan : began history = true := by
        by_contra h
        cases hsession.mpr (Bool.eq_false_of_not_eq_true h)
      obtain ⟨rfl, hresult⟩ := Effect.perform_statement_open hperform
      exact outcome_open hphase hbegan hstores hdelete hstatement
        (fun w hwrite hacts => halone statement w rfl hwrite hacts) hresult
    | aborted =>
      obtain ⟨rfl, rfl, rfl⟩ := Effect.perform_statement_aborted hperform
      cases hphase with
      | before hwrote hnot hleaves =>
        exact .before (takesEffect_error ..) hwrote (wroteSlot_error ..) hnot leavesSlots_aborted
          rfl
      | pending _ _ _ hsession _ _ => cases hsession
      | deleted _ _ _ hsession _ => cases hsession
      | done _ _ hsession _ => cases hsession
      | undone _ _ _ hsession _ => cases hsession

end Steps

end Signare
