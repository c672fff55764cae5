import Signare.Concurrent.AccountCalls
import Signare.Concurrent.SlotSteps
import Signare.Concurrent.SlotVersions
import Signare.UseCases.Keys

/-!
# Steps of the operations on accounts

What one step of an operation on accounts does to the accounts and to the keys of the slot, where
nothing is pending in any transaction.
-/

namespace Signare

open ByteCodec Interleaving

/-- Rows of one slot, which may differ in its keys. -/
structure SameSlot (row slot : HSMSlotRow) : Prop where
  id : row.id = slot.id
  applicationId : row.applicationId = slot.applicationId
  hsmModuleId : row.hsmModuleId = slot.hsmModuleId
  pin : row.pin = slot.pin
  slot : row.slot = slot.slot

theorem SameSlot.refl (slot : HSMSlotRow) : SameSlot slot slot := ⟨rfl, rfl, rfl, rfl, rfl⟩

theorem SameSlot.assignConfig {row slot : HSMSlotRow} (h : SameSlot row slot)
    (configuration : Json) (version : String) :
    SameSlot (Signare.assignConfig configuration version row) slot :=
  ⟨h.id, h.applicationId, h.hsmModuleId, h.pin, h.slot⟩

/-- The application has one slot, in a module that stays what it is. -/
structure HasSlot (applicationId : String) (slot : HSMSlotRow) (hsmModule : HSMModuleRow)
    (db : Database) : Prop where
  application : ∃ application ∈ db .application, ApplicationRow.id application = applicationId
  slot_application : slot.applicationId = applicationId
  slots : ∀ row ∈ db .hsmSlot,
    HSMSlotRow.applicationId row = applicationId ∨ HSMSlotRow.id row = slot.id → SameSlot row slot
  current : ∃ row storedSlot, rowsAt slot.id db = [row] ∧ HSMSlotDB.mapFromDB row = .ok storedSlot
  module_mem : hsmModule ∈ db .hsmModule
  module_id : hsmModule.id = slot.hsmModuleId
  modules : ∀ row ∈ db .hsmModule, HSMModuleRow.id row = hsmModule.id → row = hsmModule

/-- The key of an address is in the slot of the application. -/
def KeyInSlot (w : Shared) (applicationId : String) (address : Address) : Prop :=
  ∃ slot hsmModule, Connected w applicationId slot hsmModule ∧ Backs w slot hsmModule.kind address

section HasSlot

variable {applicationId : String} {slot : HSMSlotRow} {hsmModule : HSMModuleRow} {w w' : Shared}
  {db db' : Database} {address : Address}

theorem mem_rowsAt {row : HSMSlotRow} : row ∈ rowsAt slot.id db ↔ row ∈ db .hsmSlot ∧
    row.id = slot.id := by
  rw [rowsAt, List.mem_filter, decide_eq_true_iff]
  rfl

theorem HasSlot.congr (h : HasSlot applicationId slot hsmModule db)
    (happlication : db' .application = db .application) (hslot : db' .hsmSlot = db .hsmSlot)
    (hmodule : db' .hsmModule = db .hsmModule) : HasSlot applicationId slot hsmModule db' := by
  refine ⟨happlication ▸ h.application, h.slot_application, hslot ▸ h.slots, ?_,
    hmodule ▸ h.module_mem, h.module_id, hmodule ▸ h.modules⟩
  rw [rowsAt_congr hslot]
  exact h.current

/-- The key is in the slot as it is stored now. -/
theorem HasSlot.keyInSlot_iff (h : HasSlot applicationId slot hsmModule w.db) {row : HSMSlotRow}
    (hrow : rowsAt slot.id w.db = [row]) :
    KeyInSlot w applicationId address ↔ Backs w row hsmModule.kind address := by
  have hmem : row ∈ w.db .hsmSlot ∧ row.id = slot.id := by
    rw [← mem_rowsAt, hrow]
    exact List.mem_singleton_self row
  have hsame : SameSlot row slot := h.slots row hmem.1 (.inr hmem.2)
  constructor
  · intro hkey
    obtain ⟨slot', hsmModule', hconnected, hbacks⟩ := hkey
    have hsame' : SameSlot slot' slot :=
      h.slots slot' hconnected.slot_mem (.inl hconnected.slot_application)
    have hslot : slot' = row := by
      have hmem' : slot' ∈ rowsAt slot.id w.db := mem_rowsAt.mpr ⟨hconnected.slot_mem, hsame'.id⟩
      rw [hrow, List.mem_singleton] at hmem'
      exact hmem'
    have hid : hsmModule'.id = hsmModule.id := by
      rw [hconnected.module_id, hsame'.hsmModuleId, h.module_id]
    rw [h.modules hsmModule' hconnected.module_mem hid, hslot] at hbacks
    exact hbacks
  · intro hbacks
    refine ⟨row, hsmModule, ⟨h.application, hmem.1, ?_, h.module_mem, ?_⟩, hbacks⟩
    · rw [hsame.applicationId, h.slot_application]
    · rw [hsame.hsmModuleId, h.module_id]

theorem Backs.congr {kind : HSMModuleKind} (h : Backs w slot kind address)
    (hstores : w'.stores = w.stores) : Backs w' slot kind address := by
  cases kind with
  | softHSM =>
    rw [Backs, hstores]
    exact h
  | _ => exact h

theorem KeyInSlot.congr (hkey : KeyInSlot w applicationId address)
    (happlication : w'.db .application = w.db .application)
    (hslot : w'.db .hsmSlot = w.db .hsmSlot) (hmodule : w'.db .hsmModule = w.db .hsmModule)
    (hstores : w'.stores = w.stores) : KeyInSlot w' applicationId address := by
  obtain ⟨slot', hsmModule', hconnected, hbacks⟩ := hkey
  exact ⟨slot', hsmModule', ⟨happlication ▸ hconnected.application, hslot ▸ hconnected.slot_mem,
    hconnected.slot_application, hmodule ▸ hconnected.module_mem, hconnected.module_id⟩,
    hbacks.congr hstores⟩

/-- The keys of a slot that was read. -/
theorem mem_keyStore {row : HSMSlotRow} {storedSlot : HSMSlot}
    (hrow : HSMSlotDB.mapFromDB row = .ok storedSlot) :
    Backs w row .lkv address ↔ address ∈ storedSlot.keyStore := by
  obtain ⟨hconfig, -⟩ := HSMSlotDB.mapFromDB_ok hrow
  constructor
  · intro hbacks
    obtain ⟨config, hconfig', hmem⟩ := hbacks
    rw [hconfig] at hconfig'
    cases hconfig'
    exact hmem
  · intro hmem
    exact ⟨storedSlot.config, hconfig, hmem⟩

theorem backs_erase {keccak : Hash256} {row : HSMSlotRow} {storedSlot : HSMSlot}
    (hrow : HSMSlotDB.mapFromDB row = .ok storedSlot) {removed : Address} (hne : address ≠ removed)
    (version : String) (hbacks : Backs w row .lkv address) :
    Backs w' (assignConfig (HSMSlotDB.serialize keccak
      (storedSlot.withKeyStore (storedSlot.keyStore.erase removed)).config) version row) .lkv
      address := by
  obtain ⟨config, hload, -, -, hlookup⟩ := HSMSlotDB.deserialize_serialize keccak
    (storedSlot.withKeyStore (storedSlot.keyStore.erase removed)).config
  refine ⟨config, hload, ?_⟩
  rw [← AList.lookup_isSome, hlookup]
  have hmem : address ∈ storedSlot.keyStore := (mem_keyStore hrow).mp hbacks
  have herase : (storedSlot.keyStore.erase removed).lookup address =
      storedSlot.keyStore.lookup address := AList.lookup_erase_ne hne
  change ((storedSlot.keyStore.erase removed).lookup address).isSome
  rw [herase, AList.lookup_isSome]
  exact hmem

theorem exists_mapFromDB_assignConfig {keccak : Hash256} {row : HSMSlotRow} {storedSlot : HSMSlot}
    (hrow : HSMSlotDB.mapFromDB row = .ok storedSlot) (config : HSMSlot.SlotConfig)
    (version : String) : ∃ storedSlot',
      HSMSlotDB.mapFromDB (assignConfig (HSMSlotDB.serialize keccak config) version row) =
        .ok storedSlot' := by
  obtain ⟨config', hload, -⟩ := HSMSlotDB.deserialize_serialize keccak config
  have hid : row.internalResourceId ≠ "" := HSMSlotDB.internalResourceId_ne_of_mapFromDB hrow
  let row' := assignConfig (HSMSlotDB.serialize keccak config) version row
  have hid' : row'.internalResourceId ≠ "" := hid
  exact ⟨_, HSMSlotDB.mapFromDB_eq_readSlot hid' hload⟩

end HasSlot

/-- A statement that writes does so outside any transaction. It fails and nothing is changed, or it
is answered and its write is made. -/
theorem perform_statement_settled {source : UUIDSource} {s : Statement}
    {fault : Option PersistenceError} {session session' : Session} {w w' : Shared}
    {r : Except PersistenceError s.Result} (hpending : session.pending = [])
    (hwrites : (∃ db, s.write db ≠ none) → session = .idle)
    (hperform : Effect.perform source (.statement s) fault session w = (r, session', w')) :
    session'.pending = [] ∧
      ((∃ err, r = .error err ∧
          (fault = none → session = .idle → s.answer w.db = .error err)) ∧ w' = w ∨
        ∃ result, r = .ok result ∧ s.answer w.db = .ok result ∧
          w' = { w with db := s.written w.db }) := by
  cases session with
  | idle =>
    cases fault with
    | some err =>
      cases hperform
      exact ⟨rfl, .inl ⟨⟨err, rfl, fun hfault => by cases hfault⟩, rfl⟩⟩
    | none =>
      cases hanswer : s.answer w.db with
      | error err =>
        simp only [Effect.perform, Statement.perform, hanswer] at hperform
        cases hperform
        exact ⟨rfl, .inl ⟨⟨err, rfl, fun _ _ => rfl⟩, rfl⟩⟩
      | ok result =>
        simp only [Effect.perform, Statement.perform, hanswer] at hperform
        cases hperform
        exact ⟨rfl, .inr ⟨result, rfl, rfl, rfl⟩⟩
  | aborted =>
    cases hperform
    exact ⟨rfl, .inl ⟨⟨inFailedTransaction, rfl, fun _ hidle => by cases hidle⟩, rfl⟩⟩
  | open_ writes =>
    cases hpending
    have hreads : ∀ db, s.write db = none := by
      intro db
      by_contra hwrite
      cases hwrites ⟨db, hwrite⟩
    cases fault with
    | some err =>
      cases hperform
      exact ⟨rfl, .inl ⟨⟨err, rfl, fun hfault => by cases hfault⟩, rfl⟩⟩
    | none =>
      obtain ⟨rfl, ⟨⟨err, rfl, -⟩, rfl⟩ | ⟨result, rfl, hanswer, rfl⟩⟩ :=
        Effect.perform_statement_open hperform
      · exact ⟨rfl, .inl ⟨⟨err, rfl, fun _ hidle => by cases hidle⟩, rfl⟩⟩
      · refine ⟨?_, .inr ⟨result, rfl, hanswer, ?_⟩⟩
        · rw [hreads]
          rfl
        · rw [Statement.written, hreads]
          rfl

/-- What is answered of the slot of an application, as far as it stays what it is. -/
def Told (applicationId : String) (slot : HSMSlotRow) (hsmModule : HSMModuleRow) :
    (s : Effect) → s.Answer → Prop
  | .statement (.getById .application id), .ok (rows : List ApplicationRow) =>
    ∀ row ∈ rows, row.id = id
  | .statement (.list .hsmSlot filter none), .ok (rows : List HSMSlotRow) =>
    ∀ row ∈ rows, filter row = true ∧ (row.applicationId = applicationId → SameSlot row slot)
  | .statement (.getById .hsmModule id), .ok (rows : List HSMModuleRow) =>
    ∀ row ∈ rows, row.id = id ∧ (id = hsmModule.id → row = hsmModule)
  | .statement (.getById .hsmSlot id), .ok (rows : List HSMSlotRow) => ∀ row ∈ rows, row.id = id
  | _, _ => True

section Told

variable {applicationId : String} {slot : HSMSlotRow} {hsmModule : HSMModuleRow}
  {history : History}

theorem told_answer {db : Database} (h : HasSlot applicationId slot hsmModule db) {s : Statement}
    {result : s.Result} (hanswer : s.answer db = .ok result) :
    Told applicationId slot hsmModule (.statement s) (.ok result) := by
  cases s with
  | getById t key =>
    cases hanswer
    cases t with
    | application =>
      intro row hrow
      exact of_decide_eq_true (List.mem_filter.mp hrow).2
    | hsmModule =>
      intro row hrow
      have hid : row.id = key := of_decide_eq_true (List.mem_filter.mp hrow).2
      refine ⟨hid, fun hkey => h.modules row (List.mem_filter.mp hrow).1 ?_⟩
      exact hid.trans hkey
    | hsmSlot =>
      intro row hrow
      exact of_decide_eq_true (List.mem_filter.mp hrow).2
    | _ => trivial
  | list t filter limit =>
    cases hanswer
    cases limit with
    | some n => cases t <;> trivial
    | none =>
      cases t with
      | hsmSlot =>
        intro row hrow
        obtain ⟨hmem, hfilter⟩ := List.mem_filter.mp hrow
        exact ⟨hfilter, fun happlication => h.slots row hmem (.inl happlication)⟩
      | _ => trivial
  | _ => trivial

theorem told_error (s : Statement) (err : PersistenceError) :
    Told applicationId slot hsmModule (.statement s) (.error err) := by
  cases s with
  | getById t key => cases t <;> trivial
  | list t filter limit => cases limit <;> cases t <;> trivial
  | _ => trivial

theorem FoundSlot.same {slot' : HSMSlotRow} {hsmModule' : HSMModuleRow}
    (h : FoundSlot applicationId history slot' hsmModule') (hid : hsmModule.id = slot.hsmModuleId)
    (htold : ∀ event ∈ history, Told applicationId slot hsmModule event.1 event.2) :
    SameSlot slot' slot ∧ hsmModule' = hsmModule := by
  obtain ⟨application, hget, hlist, hmodule⟩ := h
  have happlication : application.id = applicationId :=
    htold _ hget application (List.mem_singleton_self application)
  obtain ⟨hfilter, hsame⟩ := htold _ hlist slot' (List.mem_singleton_self slot')
  have hslot : SameSlot slot' slot := hsame ((of_decide_eq_true hfilter).trans happlication)
  obtain ⟨-, hmodule'⟩ := htold _ hmodule hsmModule' (List.mem_singleton_self hsmModule')
  exact ⟨hslot, hmodule' (hslot.hsmModuleId.trans hid.symm)⟩

end Told

/-- What a step does: it adds accounts that are enabled or takes some away and leaves the keys as
they are, or it takes one key away, from the key store or from the slot. -/
inductive Revises (applicationId : String) (slot : HSMSlotRow) (hsmModule : HSMModuleRow)
    (call : AccountCall) (history : History) (s : Effect) (r : s.Answer) (w w' : Shared) : Prop
  | accounts (happlication : w'.db .application = w.db .application)
      (hslot : w'.db .hsmSlot = w.db .hsmSlot) (hmodule : w'.db .hsmModule = w.db .hsmModule)
      (hstores : w'.stores = w.stores) (hwrote : s.wroteSlot r = false)
      (haccounts : ∀ account ∈ w'.db .account, account ∈ w.db .account ∨
        AccountDB.mapFromDB account = .ok account ∧
          AccountCall.Enables applicationId call history (AccountRow.key account))
  | stored {address : Address} (hcall : call = .deleteAllAccountsForAddress address)
      (hremoved : s.unstores r = true) (hwrote : s.wroteSlot r = false) (hdb : w'.db = w.db)
      (hkeys : ∀ other, other ≠ address → KeyInSlot w applicationId other →
        KeyInSlot w' applicationId other)
  | local_ {address : Address} (hcall : call = .deleteAllAccountsForAddress address)
      (hnot : wrote history = false) (hwrote : s.wroteSlot r = true)
      (haccounts : w'.db .account = w.db .account)
      (hhas : HasSlot applicationId slot hsmModule w'.db)
      (hversion : ∀ row ∈ rowsAt slot.id w'.db, Given history (HSMSlotRow.resourceVersion row))
      (hkeys : ∀ other, other ≠ address → KeyInSlot w applicationId other →
        KeyInSlot w' applicationId other)

section Revises

variable {keccak : Hash256} {applicationId : String} {slot : HSMSlotRow}
  {hsmModule : HSMModuleRow} {call : AccountCall} {history : History} {source : UUIDSource}
  {session session' : Session} {w w' : Shared}

theorem Revises.hasSlot {s : Effect} {r : s.Answer}
    (hrevises : Revises applicationId slot hsmModule call history s r w w')
    (h : HasSlot applicationId slot hsmModule w.db) : HasSlot applicationId slot hsmModule w'.db := by
  cases hrevises with
  | accounts happlication hslot hmodule _ _ _ => exact h.congr happlication hslot hmodule
  | stored _ _ _ hdb _ =>
    rw [hdb]
    exact h
  | local_ _ _ _ _ hhas _ _ => exact hhas

/-- An account that is there after a step was there before, or is one that the call enables. -/
theorem Revises.account {s : Effect} {r : s.Answer}
    (hrevises : Revises applicationId slot hsmModule call history s r w w') {account : AccountRow}
    (haccount : account ∈ w'.db .account) : account ∈ w.db .account ∨
      AccountDB.mapFromDB account = .ok account ∧
        AccountCall.Enables applicationId call history account.key := by
  cases hrevises with
  | accounts _ _ _ _ _ haccounts => exact haccounts account haccount
  | stored _ _ _ hdb _ =>
    rw [hdb] at haccount
    exact .inl haccount
  | local_ _ _ _ haccounts _ _ _ =>
    rw [haccounts] at haccount
    exact .inl haccount

theorem revises_of_eq {s : Effect} {r : s.Answer} (hdb : w'.db = w.db)
    (hstores : w'.stores = w.stores) (hwrote : s.wroteSlot r = false) :
    Revises applicationId slot hsmModule call history s r w w' := by
  apply Revises.accounts _ _ _ hstores hwrote
  · rw [hdb]
    intro account haccount
    exact .inl haccount
  · rw [hdb]
  · rw [hdb]
  · rw [hdb]

theorem mem_of_mem_remove {t : Table} {identities : List String} {db : Database} {row : Row t}
    (h : row ∈ (Write.remove t identities).apply db t) : row ∈ db t := by
  rw [Write.apply, Function.update_self] at h
  exact (List.mem_filter.mp h).1

theorem filter_of_mem_deleteAll {t : Table} {filter : Row t → Bool} {db : Database} {row : Row t}
    (h : row ∈ (Statement.deleteAll t filter).written db t) : row ∈ db t ∧ filter row = false := by
  change row ∈ (Write.remove t (((db t).filter filter).map (identity t))).apply db t at h
  rw [Write.apply, Function.update_self, List.mem_filter, decide_eq_true_iff] at h
  refine ⟨h.1, Bool.eq_false_of_not_eq_true fun hfilter => h.2 ?_⟩
  exact List.mem_map_of_mem (List.mem_filter.mpr ⟨h.1, hfilter⟩)

theorem revises_update (h : HasSlot applicationId slot hsmModule w.db)
    (htold : ∀ event ∈ history, Told applicationId slot hsmModule event.1 event.2)
    {key resourceVersion : String} {assign : HSMSlotRow → HSMSlotRow}
    (hremoves : call.Removes keccak applicationId history key resourceVersion assign)
    (hread : ∀ row, ReadAt slot.id history (.ok [row]) → ∀ row' ∈ rowsAt slot.id w.db,
      HSMSlotRow.resourceVersion row' = row.resourceVersion → row' = row)
    {rowsAffected : Nat}
    (hanswer : (Statement.update .hsmSlot key resourceVersion assign).answer w.db =
      .ok rowsAffected) :
    Revises applicationId slot hsmModule call history
      (.statement (.update .hsmSlot key resourceVersion assign)) (.ok rowsAffected) w
      { w with db := (Statement.update .hsmSlot key resourceVersion assign).written w.db } := by
  obtain ⟨address, slot', hsmModule', row, storedSlot, version, hcall, hfound, hkind, hat, hrow,
    hkey, hguard, hversion, hassign⟩ := hremoves.found
  obtain ⟨hsame, hmodule⟩ := hfound.same h.module_id htold
  rw [hsame.id] at hat
  rw [hmodule] at hkind
  have hfields := (HSMSlotDB.mapFromDB_ok hrow).2
  have hrowId : row.id = slot.id := htold _ hat row (List.mem_singleton_self row)
  have hkey' : key = slot.id := by
    rw [hkey, hfields]
    exact hrowId
  have hguard' : resourceVersion = row.resourceVersion := by rw [hguard, hfields]
  subst hkey'
  obtain ⟨current, stored, hcurrent, hstored⟩ := h.current
  have hstores : Stores (rowsAt slot.id w.db)
      (some ⟨stored.pin, fun address => stored.keyStore.lookup address⟩) :=
    ⟨current, hcurrent, stored, hstored, rfl, fun _ => rfl⟩
  obtain ⟨rfl, hwrite⟩ | ⟨current', hcurrent', hsameVersion, rfl, hwrite⟩ :=
    update_cases hstores hanswer
  · have hnothing : (Statement.update .hsmSlot slot.id resourceVersion assign).written w.db =
        (Write.change .hsmSlot [] assign).apply w.db := Statement.written_of_write hwrite
    rw [hnothing]
    have hslots : (Write.change .hsmSlot [] assign).apply w.db .hsmSlot = w.db .hsmSlot :=
      Write.apply_of_not_touchesSlots rfl w.db
    exact .accounts rfl hslots rfl rfl rfl fun account haccount => .inl haccount
  · have hmem : current' ∈ rowsAt slot.id w.db := by
      rw [hcurrent']
      exact List.mem_singleton_self current'
    have hcurrent_eq : current' = row := hread row hat current' hmem (hsameVersion.trans hguard')
    subst hcurrent_eq
    let db' := (Write.change .hsmSlot [current'.internalResourceId] assign).apply w.db
    have hwritten : (Statement.update .hsmSlot slot.id resourceVersion assign).written w.db = db' :=
      Statement.written_of_write hwrite
    rw [hwritten]
    have hrows : rowsAt slot.id db' = [assign current'] := by
      have hids : ∀ row, (assign row).id = row.id := by
        rw [hassign]
        exact fun _ => rfl
      refine (rowsAt_change _ hids).trans ?_
      rw [hcurrent', List.map_singleton, if_pos (List.mem_singleton_self _)]
    have hhas : HasSlot applicationId slot hsmModule db' := by
      refine ⟨h.application, h.slot_application, fun row' hrow' hwhich => ?_, ?_, h.module_mem,
        h.module_id, h.modules⟩
      · change row' ∈ Function.update w.db .hsmSlot _ .hsmSlot at hrow'
        rw [Function.update_self, List.mem_map] at hrow'
        obtain ⟨old, hold, rfl⟩ := hrow'
        have hold_same : HSMSlotRow.applicationId old = applicationId ∨
            HSMSlotRow.id old = slot.id := by
          split at hwhich
          · rw [hassign] at hwhich
            exact hwhich
          · exact hwhich
        have hsame' := h.slots old hold hold_same
        split
        · rw [hassign]
          exact hsame'.assignConfig _ _
        · exact hsame'
      · obtain ⟨storedSlot', hstored'⟩ := exists_mapFromDB_assignConfig hrow
          (storedSlot.withKeyStore (storedSlot.keyStore.erase address)).config version
        rw [← hassign] at hstored'
        exact ⟨_, storedSlot', hrows, hstored'⟩
    refine .local_ hcall hremoves.wrote_eq rfl rfl hhas ?_ ?_
    · intro row' hrow'
      change row' ∈ rowsAt slot.id db' at hrow'
      rw [hrows, List.mem_singleton] at hrow'
      rw [hrow', hassign]
      exact hversion
    · intro other hne hkeyIn
      rw [h.keyInSlot_iff hcurrent', hkind] at hkeyIn
      have hbacks : Backs { w with db := db' } (assign current') .lkv other := by
        rw [hassign]
        exact backs_erase hrow hne version hkeyIn
      rw [HasSlot.keyInSlot_iff hhas hrows, hkind]
      exact hbacks

theorem revises_statement (h : HasSlot applicationId slot hsmModule w.db)
    (htold : ∀ event ∈ history, Told applicationId slot hsmModule event.1 event.2)
    {s : Statement} (hallowed : call.allowedStatement keccak applicationId history s)
    (hread : ∀ row, ReadAt slot.id history (.ok [row]) → ∀ row' ∈ rowsAt slot.id w.db,
      HSMSlotRow.resourceVersion row' = row.resourceVersion → row' = row)
    {result : s.Result} (hanswer : s.answer w.db = .ok result) :
    Revises applicationId slot hsmModule call history (.statement s) (.ok result) w
      { w with db := s.written w.db } := by
  cases s with
  | insert t row =>
    cases t with
    | account =>
      refine .accounts rfl rfl rfl rfl rfl fun account haccount => ?_
      have hmem : account ∈ w.db .account ++ [row] := haccount
      rw [List.mem_append, List.mem_singleton] at hmem
      cases hmem with
      | inl hold => exact .inl hold
      | inr hnew =>
        rw [hnew]
        exact .inr ⟨hallowed.2.1, hallowed.2.2⟩
    | entry => exact .accounts rfl rfl rfl rfl rfl fun account haccount => .inl haccount
    | _ => exact hallowed.elim
  | getById t key => exact revises_of_eq rfl rfl rfl
  | exists_ t key => exact revises_of_eq rfl rfl rfl
  | list t filter limit => exact revises_of_eq rfl rfl rfl
  | delete t key =>
    cases t with
    | account =>
      exact .accounts rfl rfl rfl rfl rfl fun account haccount => .inl (mem_of_mem_remove haccount)
    | _ => exact hallowed.elim
  | deleteAll t filter =>
    cases t with
    | account =>
      exact .accounts rfl rfl rfl rfl rfl fun account haccount => .inl (mem_of_mem_remove haccount)
    | entry => exact .accounts rfl rfl rfl rfl rfl fun account haccount => .inl haccount
    | _ => exact hallowed.elim
  | update t key resourceVersion assign =>
    cases t with
    | hsmSlot => exact revises_update h htold hallowed.2 hread hanswer
    | _ => exact hallowed.elim

theorem idle_of_writes (hsession : session = .idle ↔ began history = false) {s : Statement}
    (hallowed : call.allowedStatement keccak applicationId history s)
    (hwrites : ∃ db, s.write db ≠ none) : session = .idle := by
  obtain ⟨db, hwrite⟩ := hwrites
  cases s with
  | insert t row =>
    cases t with
    | account => exact hsession.mpr hallowed.1
    | entry => exact hsession.mpr hallowed
    | _ => exact hallowed.elim
  | delete t key =>
    cases t with
    | account => exact hsession.mpr hallowed
    | _ => exact hallowed.elim
  | deleteAll t filter =>
    cases t with
    | account => exact hsession.mpr hallowed
    | entry => exact hsession.mpr hallowed
    | _ => exact hallowed.elim
  | update t key resourceVersion assign =>
    cases t with
    | hsmSlot => exact hsession.mpr hallowed.1
    | _ => exact hallowed.elim
  | _ => exact absurd rfl hwrite

theorem revises_removeAddress {slotName pin : String} {kind : HSMModuleKind} {address : Address}
    (hcall : call = .deleteAllAccountsForAddress address) {fault : Option PersistenceError}
    {r : Except SignareError Unit}
    (hperform : Effect.perform source (.hsm (.removeAddress slotName pin kind address)) fault
      session w = (r, session', w')) :
    session' = session ∧ Revises applicationId slot hsmModule call history
      (.hsm (.removeAddress slotName pin kind address)) r w w' := by
  cases fault with
  | some err =>
    cases hperform
    exact ⟨rfl, revises_of_eq rfl rfl rfl⟩
  | none =>
    simp only [Effect.perform, HSMRequest.perform] at hperform
    split at hperform
    · cases hperform
      exact ⟨rfl, revises_of_eq rfl rfl rfl⟩
    · split at hperform
      · cases hperform
        exact ⟨rfl, revises_of_eq rfl rfl rfl⟩
      · split at hperform
        · cases hperform
          exact ⟨rfl, revises_of_eq rfl rfl rfl⟩
        · split at hperform
          · cases hperform
            exact ⟨rfl, revises_of_eq rfl rfl rfl⟩
          · cases hperform
            refine ⟨rfl, .stored hcall rfl rfl rfl fun other hne hkey => ?_⟩
            obtain ⟨slot', hsmModule', hconnected, hbacks⟩ := hkey
            refine ⟨slot', hsmModule', ⟨hconnected.application, hconnected.slot_mem,
              hconnected.slot_application, hconnected.module_mem, hconnected.module_id⟩, ?_⟩
            cases hkind : hsmModule'.kind with
            | softHSM =>
              rw [hkind] at hbacks
              refine ⟨hbacks.1, ?_⟩
              change other ∈ Function.update w.stores.keys slotName _ slot'.slot
              by_cases hslot : slot'.slot = slotName
              · rw [hslot, Function.update_self, List.mem_filter, ← hslot]
                exact ⟨hbacks.2, decide_eq_true hne⟩
              · rw [Function.update_of_ne hslot]
                exact hbacks.2
            | _ =>
              rw [hkind] at hbacks
              exact hbacks

theorem listAddresses_stores {slotName pin : String} {kind : HSMModuleKind}
    {fault : Option PersistenceError} {r : Except SignareError (List Address)}
    (hperform : Effect.perform source (.hsm (.listAddresses slotName pin kind)) fault session w =
      (r, session', w')) :
    session' = session ∧ w' = w ∧ ∀ addresses, r = .ok addresses →
      kind = .softHSM ∧ w.stores.pin slotName = some pin ∧ addresses = w.stores.keys slotName := by
  cases fault with
  | some err =>
    cases hperform
    exact ⟨rfl, rfl, fun _ heq => by cases heq⟩
  | none =>
    simp only [Effect.perform, HSMRequest.perform] at hperform
    split at hperform
    · cases hperform
      exact ⟨rfl, rfl, fun _ heq => by cases heq⟩
    · next hreads =>
      rw [not_or, not_not, not_not] at hreads
      cases hperform
      refine ⟨rfl, rfl, fun addresses heq => ?_⟩
      cases heq
      exact ⟨hreads.1, hreads.2, rfl⟩

/-- A step of an operation on accounts. -/
theorem revises (h : HasSlot applicationId slot hsmModule w.db)
    (htold : ∀ event ∈ history, Told applicationId slot hsmModule event.1 event.2)
    (hpending : session.pending = []) (hsession : session = .idle ↔ began history = false)
    (hread : ∀ row, ReadAt slot.id history (.ok [row]) → ∀ row' ∈ rowsAt slot.id w.db,
      HSMSlotRow.resourceVersion row' = row.resourceVersion → row' = row)
    {s : Effect} (hallowed : call.allowed keccak applicationId history s)
    {fault : Option PersistenceError} {r : s.Answer}
    (hperform : s.perform source fault session w = (r, session', w')) :
    session'.pending = [] ∧ Revises applicationId slot hsmModule call history s r w w' ∧
      Told applicationId slot hsmModule s r := by
  cases s with
  | statement s =>
    obtain ⟨hpending', ⟨⟨err, rfl, -⟩, rfl⟩ | ⟨result, rfl, hanswer, rfl⟩⟩ :=
      perform_statement_settled hpending (idle_of_writes hsession hallowed) hperform
    · exact ⟨hpending', revises_of_eq rfl rfl (wroteSlot_error s err), told_error s err⟩
    · exact ⟨hpending', revises_statement h htold hallowed hread hanswer, told_answer h hanswer⟩
  | begin_ =>
    cases fault with
    | some err =>
      cases hperform
      exact ⟨hpending, revises_of_eq rfl rfl rfl, trivial⟩
    | none =>
      cases hperform
      exact ⟨rfl, revises_of_eq rfl rfl rfl, trivial⟩
  | commit =>
    cases fault with
    | some err =>
      cases hperform
      exact ⟨rfl, revises_of_eq rfl rfl rfl, trivial⟩
    | none =>
      cases session with
      | open_ writes =>
        cases hpending
        cases hperform
        exact ⟨rfl, revises_of_eq rfl rfl rfl, trivial⟩
      | _ =>
        cases hperform
        exact ⟨rfl, revises_of_eq rfl rfl rfl, trivial⟩
  | rollback =>
    cases fault with
    | _ =>
      cases hperform
      exact ⟨rfl, revises_of_eq rfl rfl rfl, trivial⟩
  | newUUID =>
    cases hperform
    exact ⟨hpending, revises_of_eq rfl rfl rfl, trivial⟩
  | hsm request =>
    cases request with
    | removeAddress slotName pin kind address =>
      have hremoves : session' = session ∧ Revises applicationId slot hsmModule call history _ r w
          w' := revises_removeAddress hallowed hperform
      rw [hremoves.1]
      exact ⟨hpending, hremoves.2, trivial⟩
    | listAddresses slotName pin kind =>
      obtain ⟨rfl, rfl, -⟩ := listAddresses_stores hperform
      exact ⟨hpending, revises_of_eq rfl rfl rfl, trivial⟩
    | _ => exact hallowed.elim

end Revises

end Signare
