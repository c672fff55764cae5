import Signare.Concurrent.SlotHistory

/-!
# The operations on accounts

What enabling and disabling accounts and removing a key call, in the order they call it. None of
them runs in a transaction: the key store is asked first, the accounts are written afterwards.
-/

namespace Signare

open ByteCodec

/-- The operations on the accounts of an application. -/
inductive AccountCall
  | enableAccounts (userId : String) (addresses : List Address)
  | disableAccount (userId : String) (address : Address)
  | deleteAllAccountsForAddress (address : Address)

def AccountCall.program (keccak : Hash256) (applicationId : String) : AccountCall → UseCase Unit
  | enableAccounts userId addresses => do
    let _ ← Signare.enableAccounts keccak ⟨userId, applicationId, addresses⟩
    return ()
  | disableAccount userId address => do
    let _ ← Signare.disableAccount keccak ⟨address, userId, applicationId⟩
    return ()
  | deleteAllAccountsForAddress address => do
    let _ ← Signare.deleteAllAccountsForAddress keccak applicationId address
    return ()

/-- The slot and the module that were found for the application. -/
def FoundSlot (applicationId : String) (history : History) (slot : HSMSlotRow)
    (hsmModule : HSMModuleRow) : Prop :=
  ∃ application : ApplicationRow,
    (⟨.statement (.getById .application applicationId), .ok [application]⟩ :
      Program.Event Effect.Answer) ∈ history ∧
    (⟨.statement (.list .hsmSlot (fun row : HSMSlotRow => row.applicationId = application.id) none),
      .ok [slot]⟩ : Program.Event Effect.Answer) ∈ history ∧
    (⟨.statement (.getById .hsmModule slot.hsmModuleId), .ok [hsmModule]⟩ :
      Program.Event Effect.Answer) ∈ history

/-- The key of an address was in what the key store, or the slot, was answered to hold. -/
def SawKey (history : History) (address : Address) : Prop :=
  (∃ slot pin kind, ∃ addresses : List Address,
    (⟨.hsm (.listAddresses slot pin kind), .ok addresses⟩ : Program.Event Effect.Answer) ∈ history ∧
      address ∈ addresses) ∨
    ∃ id row slot, ReadAt id history (.ok [row]) ∧ HSMSlotDB.mapFromDB row = .ok slot ∧
      address ∈ slot.keyStore

/-- Whether a call removes a key from the key store. -/
def Effect.unstores : (s : Effect) → s.Answer → Bool
  | .hsm (.removeAddress ..), .ok _ => true
  | _, _ => false

/-- Whether a key has been removed from the key store. -/
def unstored (history : History) : Bool := history.any fun event => event.1.unstores event.2

/-- Whether a key has been removed, from the key store or from the slot. -/
def removedKey (history : History) : Bool := wrote history || unstored history

@[simp] theorem unstored_concat (history : History) (s : Effect) (r : s.Answer) :
    unstored (history ++ [⟨s, r⟩]) = (unstored history || s.unstores r) := by
  simp [unstored]

theorem removedKey_concat (history : History) (s : Effect) (r : s.Answer) :
    removedKey (history ++ [⟨s, r⟩]) = (removedKey history || (s.wroteSlot r || s.unstores r)) := by
  simp only [removedKey, wrote_concat, unstored_concat]
  ac_rfl

theorem removedKey_eq_false {history : History} (hwrote : wrote history = false)
    (hunstored : unstored history = false) : removedKey history = false := by
  rw [removedKey, hwrote, hunstored]
  rfl

theorem FoundSlot.append {applicationId : String} {history : History} {slot : HSMSlotRow}
    {hsmModule : HSMModuleRow} (h : FoundSlot applicationId history slot hsmModule)
    (more : History) : FoundSlot applicationId (history ++ more) slot hsmModule := by
  obtain ⟨application, hget, hlist, hmodule⟩ := h
  exact ⟨application, List.mem_append_left _ hget, List.mem_append_left _ hlist,
    List.mem_append_left _ hmodule⟩

theorem SawKey.append {history : History} {address : Address} (h : SawKey history address)
    (more : History) : SawKey (history ++ more) address := by
  obtain ⟨slot, pin, kind, addresses, hmem, haddress⟩ | ⟨id, row, slot, hread, hslot, haddress⟩ := h
  · exact .inl ⟨slot, pin, kind, addresses, List.mem_append_left _ hmem, haddress⟩
  · exact .inr ⟨id, row, slot, hread.append more, hslot, haddress⟩

/-- Statements that fail for no reason of their own. -/
def Statement.Answers (s : Statement) : Prop := ∀ db, ∃ result, s.answer db = .ok result

namespace AccountCall

variable (keccak : Hash256) (applicationId : String) (call : AccountCall)

/-- The update by which a local key is removed. -/
structure Removes (history : History) (key resourceVersion : String)
    (assign : HSMSlotRow → HSMSlotRow) : Prop where
  wrote_eq : wrote history = false
  found : ∃ address slot hsmModule row storedSlot version,
    call = deleteAllAccountsForAddress address ∧ FoundSlot applicationId history slot hsmModule ∧
      hsmModule.kind = .lkv ∧ ReadAt slot.id history (.ok [row]) ∧
      HSMSlotDB.mapFromDB row = .ok storedSlot ∧ key = storedSlot.id ∧
      resourceVersion = storedSlot.resourceVersion ∧ Given history version ∧
      assign = assignConfig (HSMSlotDB.serialize keccak
        (storedSlot.withKeyStore (storedSlot.keyStore.erase address)).config) version

/-- Slots are read for the application, accounts are added for keys that were seen, and nothing is
written inside a transaction. -/
def allowedStatement (history : History) : Statement → Prop
  | .getById .hsmSlot id => ∀ userId addresses, call = enableAccounts userId addresses →
    ∃ slot hsmModule, FoundSlot applicationId history slot hsmModule ∧ hsmModule.kind = .lkv ∧
      id = slot.id
  | .getById .. => True
  | .exists_ .. => True
  | .list .. => True
  | .insert .account account => began history = false ∧
    AccountDB.mapFromDB account = .ok account ∧
    ∃ userId addresses, call = enableAccounts userId addresses ∧
      AccountRow.key account ∈ EnableAccountsInput.keys ⟨userId, applicationId, addresses⟩ ∧
      (SawKey history (AccountRow.key account).address ∨
        ∃ slot hsmModule, FoundSlot applicationId history slot hsmModule ∧ hsmModule.kind = .akv)
  | .update .hsmSlot key resourceVersion assign => began history = false ∧
    call.Removes keccak applicationId history key resourceVersion assign
  | .insert .entry _ => began history = false
  | .deleteAll .entry _ => began history = false
  | .delete .account _ => began history = false
  | .deleteAll .account _ => began history = false
  | _ => False

def allowed (history : History) : Effect → Prop
  | .statement s => call.allowedStatement keccak applicationId history s
  | .hsm (.listAddresses slot pin kind) => ∃ row hsmModule,
    FoundSlot applicationId history row hsmModule ∧ hsmModule.kind = .softHSM ∧
      kind = .softHSM ∧ slot = row.slot ∧ pin = row.pin
  | .hsm (.removeAddress _ _ _ address) => call = deleteAllAccountsForAddress address
  | .hsm _ => False
  | _ => True

/-- How the removal of a key ends: with the accounts, or with something that could not be read. -/
inductive Completion (address : Address) (history : History) : Prop
  | deleted {count : Nat} (hlast : history.getLast? = some
      ⟨.statement (.deleteAll .account (filterByAddress applicationId address)), .ok count⟩)
  | failed {s : Statement} {err : PersistenceError} (hs : s.Answers)
      (hlast : history.getLast? = some ⟨.statement s, .error err⟩)
  | unread {slot : HSMSlotRow} {hsmModule : HSMModuleRow} {row : HSMSlotRow}
      {rows : List HSMSlotRow} (hfound : FoundSlot applicationId history slot hsmModule)
      (hread : ReadAt slot.id history (.ok [row]))
      (hlast : history.getLast? = some ⟨.statement (.getById .hsmSlot row.id), .ok rows⟩)
      (hbad : ∀ row' storedSlot, rows = [row'] → HSMSlotDB.mapFromDB row' ≠ .ok storedSlot)
  | unlisted {filter : AccountRow → Bool} {accounts : List AccountRow}
      (hlast : history.getLast? = some ⟨.statement (.list .account filter none), .ok accounts⟩)
      (hbad : ∀ accounts', accounts.mapM AccountDB.mapFromDB ≠ .ok accounts')

/-- How a call ends once it has removed a key. -/
def expected {α : Type} (_ : Except SignareError α) (history : History) : Prop :=
  ∀ address, call = deleteAllAccountsForAddress address → removedKey history = true →
    began history = false ∧ Completion applicationId address history

variable {keccak applicationId call} {history : History}

theorem allowed_readsModule {hsmModuleId : String} {s : Effect} (hs : ReadsModule hsmModuleId s) :
    call.allowed keccak applicationId history s := by
  cases s with
  | statement s =>
    cases s with
    | getById t key =>
      cases t with
      | hsmModule => trivial
      | _ => exact hs.elim
    | _ => exact hs.elim
  | hsm request => exact hs.elim
  | _ => trivial

theorem application_of_mapFromDB {row application : ApplicationRow}
    (h : ApplicationDB.mapFromDB row = .ok application) : application = row := by
  obtain ⟨_, -, h⟩ := Except.bind_eq_ok.mp (Except.mapError_eq_ok.mp h)
  obtain ⟨_, -, h⟩ := Except.bind_eq_ok.mp h
  cases h
  rfl

theorem hsmModule_of_mapFromDB {row hsmModule : HSMModuleRow}
    (h : HSMModuleDB.mapFromDB row = .ok hsmModule) : hsmModule = row := by
  obtain ⟨_, -, h⟩ := Except.bind_eq_ok.mp (Except.mapError_eq_ok.mp h)
  obtain ⟨_, -, h⟩ := Except.bind_eq_ok.mp h
  cases h
  rfl

theorem quiet_list (t : Table) (filter : Row t → Bool) (limit : Option Nat) :
    (Effect.statement (.list t filter limit)).Quiet := fun _ => ⟨fun _ => rfl, rfl⟩

theorem meets_getHSMSlotByApplication (id : String) (hwrote : wrote history = false) :
    (getHSMSlotByApplication id).Meets (call.allowed keccak applicationId)
      (fun result history' => Leaves history history' ∧ ∀ slot, result = .ok slot → ∃ row,
        (⟨.statement (.list .hsmSlot (fun row : HSMSlotRow => row.applicationId = id) none),
          .ok [row]⟩ : Program.Event Effect.Answer) ∈ history' ∧
          HSMSlotDB.mapFromDB row = .ok slot) history := by
  apply meets_validateStruct_bind
  · intro err
    exact ⟨Leaves.refl hwrote, nofun⟩
  · intro _
    rw [Program.meets_orElse]
    refine ⟨trivial, fun answer => ?_⟩
    have hleaves := (Leaves.refl hwrote).concat (quiet_list .hsmSlot
      (fun row : HSMSlotRow => row.applicationId = id) none) answer
    cases answer with
    | error err => exact ⟨hleaves, nofun⟩
    | ok rows =>
      cases rows with
      | nil => exact ⟨hleaves, nofun⟩
      | cons row rows =>
        cases rows with
        | cons row' rows => exact ⟨hleaves, nofun⟩
        | nil =>
          refine ⟨hleaves, fun slot hslot => ⟨row, List.mem_append_right _ ?_, ?_⟩⟩
          · exact List.mem_singleton_self _
          · exact Except.mapError_eq_ok.mp hslot

theorem meets_byApplication (hwrote : wrote history = false) (hbegan : began history = false) :
    (byApplication applicationId).Meets (call.allowed keccak applicationId)
      (fun result history' => Leaves history history' ∧ ∀ connection, result = .ok connection →
        ∃ slot hsmModule, FoundSlot applicationId history' slot hsmModule ∧
          HSMSlotDB.mapFromDB slot = .ok connection.slot ∧
          connection.moduleKind = hsmModule.kind) history := by
  have happlication : (getApplication applicationId).Meets (call.allowed keccak applicationId)
      (fun result history' => Leaves history history' ∧ ∀ app, result = .ok app →
        ∃ row : ApplicationRow, (⟨.statement (.getById .application applicationId), .ok [row]⟩ :
          Program.Event Effect.Answer) ∈ history' ∧ ApplicationDB.mapFromDB row = .ok app)
      history := meets_get hwrote trivial
  rw [byApplication]
  apply happlication.orElse_found.bind
  · intro err history₁ h
    exact ⟨h.1, nofun⟩
  · intro app history₁ h₁
    obtain ⟨application, happ, hmap⟩ := h₁.2 app rfl
    have happ_eq := application_of_mapFromDB hmap
    subst happ_eq
    have hslot : (getHSMSlotByApplication app.id).Meets (call.allowed keccak applicationId) _
        history₁ := meets_getHSMSlotByApplication app.id h₁.1.wrote_eq
    apply hslot.orElse_found.bind
    · intro err history₂ h
      exact ⟨h₁.1.trans h.1, nofun⟩
    · intro slot history₂ h₂
      obtain ⟨row, hlist, hrow⟩ := h₂.2 slot rfl
      have hmoduleId : slot.hsmModuleId = row.hsmModuleId := by
        rw [(HSMSlotDB.mapFromDB_ok hrow).2]
      have hmodule : (getHSMModule .background slot.hsmModuleId).Meets
          (call.allowed keccak applicationId) _ history₂ :=
        meets_getHSMModule h₂.1.wrote_eq ((h₁.1.trans h₂.1).began_eq.trans hbegan)
          fun _ _ _ _ hs => allowed_readsModule hs
      apply hmodule.orElse_found.bind
      · intro err history₃ h
        exact ⟨(h₁.1.trans h₂.1).trans h.1, nofun⟩
      · intro hsmModule history₃ h₃
        obtain ⟨moduleRow, hget, hmap⟩ := h₃.2 hsmModule rfl
        have hmodule_eq := hsmModule_of_mapFromDB hmap
        subst hmodule_eq
        rw [hmoduleId] at hget
        refine ⟨(h₁.1.trans h₂.1).trans h₃.1, fun connection heq => ?_⟩
        cases heq
        exact ⟨row, hsmModule, ⟨app, (h₂.1.trans h₃.1).mem happ, h₃.1.mem hlist, hget⟩, hrow, rfl⟩

theorem meets_hsmListAddresses {slot : HSMSlotRow} {hsmModule : HSMModuleRow}
    (hfound : FoundSlot applicationId history slot hsmModule) (hkind : hsmModule.kind = .softHSM)
    (hwrote : wrote history = false) :
    (hsmListAddresses slot.slot slot.pin .softHSM).Meets (call.allowed keccak applicationId)
      (fun result history' => Leaves history history' ∧ ∀ addresses, result = .ok addresses →
        ∀ address ∈ addresses, SawKey history' address) history := by
  refine ⟨⟨slot, hsmModule, hfound, hkind, rfl, rfl, rfl⟩, fun answer => ?_⟩
  have hquiet : (Effect.hsm (.listAddresses slot.slot slot.pin .softHSM)).Quiet :=
    fun _ => ⟨fun _ => rfl, rfl⟩
  have hleaves := (Leaves.refl hwrote).concat hquiet answer
  cases answer with
  | error err => exact ⟨hleaves, nofun⟩
  | ok addresses =>
    refine ⟨hleaves, fun addresses' heq address haddress => .inl ?_⟩
    cases heq
    exact ⟨_, _, _, addresses, List.mem_append_right _ (List.mem_singleton_self _), haddress⟩

theorem meets_listLocalKeys {slot : HSMSlotRow} {hsmModule : HSMModuleRow}
    (hfound : FoundSlot applicationId history slot hsmModule) (hkind : hsmModule.kind = .lkv)
    (hwrote : wrote history = false) (hbegan : began history = false) :
    (listLocalKeys slot.id).Meets (call.allowed keccak applicationId)
      (fun result history' => Leaves history history' ∧ ∀ addresses, result = .ok addresses →
        ∀ address ∈ addresses, SawKey history' address) history := by
  apply meets_validateStruct_bind
  · intro err
    exact ⟨Leaves.refl hwrote, nofun⟩
  · intro _
    have hget : (getLocalKeySlot slot.id "list local keys").Meets
        (call.allowed keccak applicationId) _ history :=
      meets_getLocalKeySlot hwrote hbegan (fun _ _ _ => ⟨slot, hsmModule, hfound, hkind, rfl⟩)
        (fun _ _ _ _ _ hs => allowed_readsModule hs) "list local keys"
    apply hget.bind
    · intro err history' h
      exact ⟨h.1, nofun⟩
    · intro storedSlot history' h
      obtain ⟨row, hread, hrow⟩ := h.2 storedSlot rfl
      refine ⟨h.1, fun addresses heq address haddress => .inr ?_⟩
      cases heq
      exact ⟨slot.id, row, storedSlot, hread, hrow, AList.mem_keys.mpr haddress⟩

theorem meets_addressesBackedByModule {connection : HSMConnection} {slot : HSMSlotRow}
    {hsmModule : HSMModuleRow} (hfound : FoundSlot applicationId history slot hsmModule)
    (hslot : HSMSlotDB.mapFromDB slot = .ok connection.slot)
    (hkind : connection.moduleKind = hsmModule.kind) (hwrote : wrote history = false)
    (hbegan : began history = false) :
    (addressesBackedByModule connection).Meets (call.allowed keccak applicationId)
      (fun result history' => Leaves history history' ∧ ∀ addresses, result = .ok addresses →
        ∀ address ∈ addresses, SawKey history' address ∨
          FoundSlot applicationId history' slot hsmModule ∧ hsmModule.kind = .akv) history := by
  have hread := (HSMSlotDB.mapFromDB_ok hslot).2
  have hname : connection.slot.slot = slot.slot := by rw [hread]
  have hpin : connection.slot.pin = slot.pin := by rw [hread]
  have hid : connection.slot.id = slot.id := by rw [hread]
  apply Program.Meets.orElse_found
  cases hmodule : hsmModule.kind with
  | softHSM =>
    simp only [hkind, hmodule, hname, hpin]
    have hlist : (hsmListAddresses slot.slot slot.pin .softHSM).Meets
        (call.allowed keccak applicationId) _ history :=
      meets_hsmListAddresses hfound hmodule hwrote
    exact hlist.mono fun _ _ h => ⟨h.1, fun addresses heq address haddress =>
      .inl (h.2 addresses heq address haddress)⟩
  | lkv =>
    simp only [hkind, hmodule, hid]
    have hlist : (listLocalKeys slot.id).Meets (call.allowed keccak applicationId) _ history :=
      meets_listLocalKeys hfound hmodule hwrote hbegan
    exact hlist.mono fun _ _ h => ⟨h.1, fun addresses heq address haddress =>
      .inl (h.2 addresses heq address haddress)⟩
  | akv =>
    simp only [hkind, hmodule]
    exact ⟨Leaves.refl hwrote, fun _ _ _ _ => .inr ⟨hfound, trivial⟩⟩

/-- What is called for the accounts of `keys`, outside any transaction. -/
def Writes (keys : List AccountID) : Effect → Prop
  | .newUUID => True
  | .statement (.getById t _) => t ≠ .hsmSlot
  | .statement (.list ..) => True
  | .statement (.insert .entry _) => True
  | .statement (.insert .account account) =>
    AccountDB.mapFromDB account = .ok account ∧ AccountRow.key account ∈ keys
  | .statement (.deleteAll .entry _) => True
  | .statement (.delete .account _) => True
  | _ => False

/-- An account may be added: the call is to enable it, and its key was seen. -/
def Enables (applicationId : String) (call : AccountCall) (history : History) (key : AccountID) :
    Prop :=
  ∃ userId addresses, call = enableAccounts userId addresses ∧
    key ∈ EnableAccountsInput.keys ⟨userId, applicationId, addresses⟩ ∧
    (SawKey history key.address ∨
      ∃ slot hsmModule, FoundSlot applicationId history slot hsmModule ∧ hsmModule.kind = .akv)

theorem Enables.append {key : AccountID} (h : Enables applicationId call history key)
    (more : History) : Enables applicationId call (history ++ more) key := by
  obtain ⟨userId, addresses, hcall, hkey, hsaw | ⟨slot, hsmModule, hfound, hkind⟩⟩ := h
  · exact ⟨userId, addresses, hcall, hkey, .inl (hsaw.append more)⟩
  · exact ⟨userId, addresses, hcall, hkey, .inr ⟨slot, hsmModule, hfound.append more, hkind⟩⟩

theorem Writes.allowed {keys : List AccountID} {s : Effect} (hs : Writes keys s)
    (hbegan : began history = false) (hkeys : ∀ key ∈ keys, Enables applicationId call history key) :
    call.allowed keccak applicationId history s := by
  cases s with
  | statement s =>
    cases s with
    | getById t key =>
      cases t with
      | hsmSlot => exact absurd rfl hs
      | _ => trivial
    | list t filter limit => trivial
    | insert t row =>
      cases t with
      | entry => exact hbegan
      | account => exact ⟨hbegan, hs.1, hkeys _ hs.2⟩
      | _ => exact hs.elim
    | deleteAll t filter =>
      cases t with
      | entry => exact hbegan
      | _ => exact hs.elim
    | delete t key =>
      cases t with
      | account => exact hbegan
      | _ => exact hs.elim
    | _ => exact hs.elim
  | newUUID => trivial
  | _ => exact hs.elim

theorem Writes.quiet {keys : List AccountID} {s : Effect} (hs : Writes keys s) : s.Quiet := by
  intro r
  cases s with
  | statement s =>
    cases s with
    | insert t row =>
      cases t with
      | account => exact ⟨fun _ => rfl, rfl⟩
      | entry => exact ⟨fun _ => rfl, rfl⟩
      | _ => exact hs.elim
    | update t key resourceVersion assign => exact hs.elim
    | delete t key =>
      cases t with
      | account => exact ⟨fun _ => rfl, rfl⟩
      | _ => exact hs.elim
    | _ => exact ⟨fun _ => rfl, rfl⟩
  | newUUID => exact ⟨fun _ => rfl, rfl⟩
  | _ => exact hs.elim

theorem meets_of_writes {α : Type} {q : UseCase α} {keys : List AccountID}
    (hq : q.Only (Writes keys)) (hwrote : wrote history = false) (hbegan : began history = false)
    (hkeys : ∀ key ∈ keys, Enables applicationId call history key) :
    q.Meets (call.allowed keccak applicationId) (fun _ history' => Leaves history history')
      history := by
  apply meets_of_quiet hq (fun _ hs => hs.quiet) hwrote
  intro history' s h hs
  apply hs.allowed (h.began_eq.trans hbegan)
  intro key hkey
  obtain ⟨more, hmore⟩ := h.append
  rw [hmore]
  exact (hkeys key hkey).append more

theorem account_mapFromDB {account : AccountRow} {u : Unit}
    (h : AccountDB.mapToCreateDB account = .ok u) :
    AccountDB.mapFromDB account = .ok account := by
  obtain ⟨_, hinternal, h⟩ := Except.bind_eq_ok.mp h
  rw [AccountDB.mapFromDB, hinternal, Except.ok_bind]
  dsimp only at h ⊢
  split at h
  · cases h
  · next haddress =>
    obtain ⟨_, huser, h⟩ := Except.bind_eq_ok.mp h
    rw [huser, Except.ok_bind, h, if_neg haddress]
    rfl

theorem only_createAccount {keys : List AccountID} {key : AccountID} (hkey : key ∈ keys) :
    (createAccount keccak key).Only (Writes keys) := by
  apply Program.only_bind (only_validateStruct _ _)
  intro _
  apply Program.only_bind (only_newUUID trivial)
  intro internalResourceId
  have hget : (getUser key.user).Only (Writes keys) := only_getUser_of _ nofun fun _ => trivial
  have hdependency : (addAccountToUserDependency keccak ⟨key, internalResourceId⟩).Only
      (Writes keys) :=
    Program.only_bind (Program.only_orElse hget) fun _ =>
      only_addDependency_of trivial (fun _ => trivial) fun _ => nofun
  apply Program.only_bind hdependency
  intro _
  apply Program.only_orElse
  apply only_lift_bind
  intro _ hmap
  apply only_repositoryAdd
  · exact ⟨account_mapFromDB (Except.mapError_eq_ok.mp hmap), hkey⟩
  · exact nofun

theorem only_createAccounts {keys keys' : List AccountID} (hkeys : ∀ key ∈ keys', key ∈ keys) :
    (createAccounts keccak keys').Only (Writes keys) := by
  induction keys' with
  | nil => trivial
  | cons key keys' ih =>
    rw [List.forall_mem_cons] at hkeys
    apply Program.only_bind (Program.only_attempt (only_createAccount hkeys.1))
    intro created
    apply Program.only_bind (ih hkeys.2)
    intro accountsNotAdded
    cases created with
    | ok account => trivial
    | error err =>
      dsimp only
      split
      · trivial
      · trivial

theorem meets_enableAccounts (userId : String) (addresses : List Address) :
    (Signare.enableAccounts keccak ⟨userId, applicationId, addresses⟩).Meets
      (allowed keccak applicationId (enableAccounts userId addresses)) (fun _ _ => True) [] := by
  let input : EnableAccountsInput := ⟨userId, applicationId, addresses⟩
  apply meets_validateStruct_bind (fun _ => trivial)
  intro _
  have hsome : (require (input.addresses ≠ [])
      (invalidArgumentReadable "at least one address is required")).Only (Writes []) :=
    only_require _ _
  apply (meets_of_writes hsome rfl rfl nofun).bind (fun _ _ _ => trivial)
  intro _ history₁ h₁
  have huser : (getUserFromStorage input.user).Only (Writes []) := only_repositoryGet nofun
  apply (meets_of_writes (Program.only_orElse huser) h₁.wrote_eq h₁.began_eq nofun).bind
    (fun _ _ _ => trivial)
  intro user history₂ h₂
  have hbegan₂ : began history₂ = false := h₂.began_eq.trans h₁.began_eq
  apply (meets_byApplication h₂.wrote_eq hbegan₂).bind (fun _ _ _ => trivial)
  intro connection history₃ h₃
  obtain ⟨slot, hsmModule, hfound, hslot, hkind⟩ := h₃.2 connection rfl
  have hbegan₃ : began history₃ = false := h₃.1.began_eq.trans hbegan₂
  apply (meets_addressesBackedByModule hfound hslot hkind h₃.1.wrote_eq hbegan₃).bind
    (fun _ _ _ => trivial)
  intro knownAddresses history₄ h₄
  have hbegan₄ : began history₄ = false := h₄.1.began_eq.trans hbegan₃
  cases hknown : input.addresses.all fun address => decide (address ∈ knownAddresses) with
  | false => trivial
  | true =>
    have hkeys : ∀ key ∈ input.keys, Enables applicationId (enableAccounts userId addresses)
        history₄ key := by
      intro key hkey
      obtain ⟨address, haddress, rfl⟩ := List.mem_map.mp hkey
      have hmem : address ∈ knownAddresses :=
        of_decide_eq_true (List.all_eq_true.mp hknown address haddress)
      refine ⟨userId, addresses, rfl, hkey, ?_⟩
      cases h₄.2 knownAddresses rfl address hmem with
      | inl hsaw => exact .inl hsaw
      | inr hakv => exact .inr ⟨slot, hsmModule, hakv⟩
    have hrest : Program.Only (Writes input.keys) (do
        let accountsNotAdded ← createAccounts keccak input.keys
        require (accountsNotAdded = []) (internal
          ("error while adding accounts to the user. The following accounts were not added: " ++
            addressesText keccak ", " accountsNotAdded))
        let accounts ← (listAccounts input.user).orElse asInternal
        return (user, accounts)) :=
      Program.only_bind (only_createAccounts fun _ h => h) fun _ =>
        Program.only_bind (only_require _ _) fun _ =>
          Program.only_bind (Program.only_orElse (only_listAccounts_of _ fun _ => trivial))
            fun _ => trivial
    exact (meets_of_writes hrest h₄.1.wrote_eq hbegan₄ hkeys).mono fun _ _ _ => trivial

theorem only_disableAccount (key : AccountID) :
    (Signare.disableAccount keccak key).Only (Writes []) := by
  have hget : (getAccount keccak key).Only (Writes []) :=
    Program.only_bind (only_validateStruct _ _) fun _ =>
      Program.only_orElse (only_repositoryGet nofun)
  have hdependencies : (removeAllAccountDependencies keccak key).Only (Writes []) :=
    Program.only_bind hget fun _ => only_removeDependencies trivial trivial trivial
  have hdelete : (deleteAccount keccak key).Only (Writes []) :=
    Program.only_bind (only_validateStruct _ _) fun _ =>
      Program.only_bind hdependencies fun _ =>
        Program.only_orElse (only_repositoryRemove nofun trivial)
  have huser : (getUserFromStorage key.user).Only (Writes []) := only_repositoryGet nofun
  exact Program.only_bind (only_validateStruct _ _) fun _ =>
    Program.only_bind (Program.only_orElse hdelete) fun _ =>
      Program.only_bind (Program.only_orElse huser) fun _ =>
        Program.only_bind (Program.only_orElse (only_listAccounts_of _ fun _ => trivial))
          fun _ => trivial

/-- Everything but the key store. -/
def BesideKeyStore : Effect → Prop
  | .hsm _ => False
  | _ => True

theorem besideKeyStore_reads : AllowsTransactions BesideKeyStore :=
  ⟨⟨fun _ _ => trivial, fun _ _ => trivial, fun _ _ _ => trivial⟩, trivial, trivial, trivial⟩

theorem unstored_besideKeyStore (history : History) (s : Effect) (r : s.Answer)
    (h : unstored history = false) (hs : BesideKeyStore s) :
    unstored (history ++ [⟨s, r⟩]) = false := by
  rw [unstored_concat, h]
  cases s with
  | hsm request => exact hs.elim
  | _ => rfl

theorem only_removeLocalKey (id : String) (address : Address) :
    (removeLocalKey keccak id address).Only BesideKeyStore := by
  apply Program.only_bind (only_validateStruct _ _)
  intro _
  apply Program.only_bind (only_getLocalKeySlot besideKeyStore_reads id _)
  intro storedSlot
  split
  · trivial
  · have hedit (slot : HSMSlot) : (hsmSlotEditConfig keccak slot).Only BesideKeyStore := by
      apply only_lift_bind
      intro _ _
      exact only_repositoryEdit besideKeyStore_reads.toAllowsReads trivial fun _ => trivial
    exact Program.only_bind (Program.only_orElse (hedit _)) fun _ => trivial

theorem answers_getById (t : Table) (key : Key t) : (Statement.getById t key).Answers :=
  fun _ => ⟨_, rfl⟩

theorem answers_list (t : Table) (filter : Row t → Bool) (limit : Option Nat) :
    (Statement.list t filter limit).Answers := fun _ => ⟨_, rfl⟩

theorem answers_deleteAll (t : Table) (filter : Row t → Bool) :
    (Statement.deleteAll t filter).Answers := fun _ => ⟨_, rfl⟩

/-- A local key is removed from what was read, or something could not be read once it was. -/
theorem meets_removeLocalKey {address : Address} {slot : HSMSlotRow} {hsmModule : HSMModuleRow}
    (hcall : call = deleteAllAccountsForAddress address)
    (hfound : FoundSlot applicationId history slot hsmModule) (hkind : hsmModule.kind = .lkv)
    (hwrote : wrote history = false) (hbegan : began history = false) :
    (removeLocalKey keccak slot.id address).Meets (call.allowed keccak applicationId)
      (fun result history' => began history' = false ∧ ((∃ err, result = .error err) →
        wrote history' = true → Completion applicationId address history')) history := by
  have hnot {history' : History} (h : Leaves history history') {P Q : Prop} :
      began history' = false ∧ (P → wrote history' = true → Q) := by
    refine ⟨h.began_eq.trans hbegan, fun _ hwrote' => ?_⟩
    rw [h.wrote_eq] at hwrote'
    cases hwrote'
  have henables (userId : String) (addresses : List Address) :
      call ≠ enableAccounts userId addresses := by
    rw [hcall]
    nofun
  apply meets_validateStruct_bind
  · intro err
    exact hnot (Leaves.refl hwrote)
  · intro _
    have hget : (getLocalKeySlot slot.id "remove local key").Meets
        (call.allowed keccak applicationId) _ history :=
      meets_getLocalKeySlot hwrote hbegan
        (fun userId addresses h => absurd h (henables userId addresses))
        (fun _ _ _ _ _ hs => allowed_readsModule hs) "remove local key"
    apply hget.bind
    · intro err history₁ h
      exact hnot h.1
    · intro storedSlot history₁ h₁
      obtain ⟨row, hread, hrow⟩ := h₁.2 storedSlot rfl
      split
      · exact hnot h₁.1
      · have hbegan₁ : began history₁ = false := h₁.1.began_eq.trans hbegan
        have hfound₁ : FoundSlot applicationId history₁ slot hsmModule := by
          obtain ⟨more, hmore⟩ := h₁.1.append
          rw [hmore]
          exact hfound.append more
        have hedit : (hsmSlotEditConfig keccak
            (storedSlot.withKeyStore (storedSlot.keyStore.erase address))).Meets
            (call.allowed keccak applicationId) (Updated storedSlot.id history₁) history₁ := by
          apply meets_hsmSlotEditConfig h₁.1.wrote_eq trivial fun _ _ => trivial
          · intro version history' h hversion
            obtain ⟨more, hmore⟩ := h.append
            refine ⟨h.began_eq.trans hbegan₁, h.wrote_eq, address, slot, hsmModule, row, storedSlot,
              version, hcall, ?_, hkind, h.mem hread, hrow, rfl, rfl, hversion, rfl⟩
            rw [hmore]
            exact hfound₁.append more
          · intro history' _ _ userId addresses h
            exact absurd h (henables userId addresses)
        rw [Program.meets_bind, Program.meets_orElse]
        apply hedit.mono
        intro result history₂ h₂
        have hbegan₂ : began history₂ = false := h₂.began_eq.trans hbegan₁
        cases result with
        | ok slot' => exact ⟨hbegan₂, nofun⟩
        | error err =>
          refine ⟨hbegan₂, fun _ hwrote₂ => ?_⟩
          obtain ⟨answer, hlast, hbad⟩ := h₂.last_of_error ⟨err, rfl⟩ hwrote₂
          cases answer with
          | error err => exact .failed (answers_getById _ _) hlast
          | ok rows =>
            have hid : storedSlot.id = row.id := by rw [(HSMSlotDB.mapFromDB_ok hrow).2]
            rw [hid] at hlast
            obtain ⟨more, hmore⟩ := h₂.append
            have hfound₂ : FoundSlot applicationId history₂ slot hsmModule := by
              rw [hmore]
              exact hfound₁.append more
            refine .unread hfound₂ (h₂.mem hread) hlast fun row' storedSlot' heq => ?_
            exact hbad row' storedSlot' (congrArg Except.ok heq)

theorem meets_removeAccounts {address : Address} (hbegan : began history = false) :
    Program.Meets (call.allowed keccak applicationId) (Program.orElse asInternal do
      let accounts ←
        repositoryAll .account AccountDB.mapFromDB (filterByAddress applicationId address)
      let _ ← execute (.deleteAll .account (filterByAddress applicationId address))
      return accounts)
      (fun _ history' => began history' = false ∧ Completion applicationId address history')
      history := by
  let filter := filterByAddress applicationId address
  have hlisted (answer : Except PersistenceError (List AccountRow)) :
      began (history ++ [⟨.statement (.list .account filter none), answer⟩]) = false :=
    (began_concat ..).trans hbegan
  have hall : (repositoryAll .account AccountDB.mapFromDB filter).Meets
      (call.allowed keccak applicationId) (fun result history' => began history' = false ∧
        ((∃ err, result = .error err) → Completion applicationId address history')) history := by
    apply meets_execute_bind trivial
    · intro err
      exact ⟨hlisted _, fun _ => .failed (answers_list _ _ _) (List.getLast?_concat ..)⟩
    · intro storageData
      refine ⟨hlisted _, fun herr => .unlisted (List.getLast?_concat ..) fun accounts hread => ?_⟩
      obtain ⟨err, herr⟩ := herr
      rw [hread] at herr
      cases herr
  rw [Program.meets_orElse]
  apply hall.bind
  · intro err history' h
    exact ⟨h.1, h.2 ⟨err, rfl⟩⟩
  · intro accounts history' h
    have hended (answer : Except PersistenceError Nat) :
        began (history' ++ [⟨.statement (.deleteAll .account filter), answer⟩]) = false :=
      (began_concat ..).trans h.1
    apply meets_execute_bind (show call.allowed keccak applicationId history'
      (.statement (.deleteAll .account filter)) from h.1)
    · intro err
      exact ⟨hended _, .failed (answers_deleteAll _ _) (List.getLast?_concat ..)⟩
    · intro count
      exact ⟨hended _, .deleted (List.getLast?_concat ..)⟩

/-- How the key is removed, before the accounts are. -/
theorem meets_removeKey {address : Address} {connection : HSMConnection} {slot : HSMSlotRow}
    {hsmModule : HSMModuleRow} (hcall : call = deleteAllAccountsForAddress address)
    (hfound : FoundSlot applicationId history slot hsmModule)
    (hslot : HSMSlotDB.mapFromDB slot = .ok connection.slot)
    (hkind : connection.moduleKind = hsmModule.kind) (hwrote : wrote history = false)
    (hunstored : unstored history = false) (hbegan : began history = false) :
    Program.Meets (call.allowed keccak applicationId)
      (match connection.moduleKind with
      | .lkv => removeLocalKey keccak connection.slot.id address
      | kind => hsmRemoveAddress connection.slot.slot connection.slot.pin kind address)
      (fun result history' => began history' = false ∧ ((∃ err, result = .error err) →
        removedKey history' = true → Completion applicationId address history')) history := by
  have hid : connection.slot.id = slot.id := by rw [(HSMSlotDB.mapFromDB_ok hslot).2]
  have hstore (kind : HSMModuleKind) :
      (hsmRemoveAddress connection.slot.slot connection.slot.pin kind address).Meets
        (call.allowed keccak applicationId) (fun result history' => began history' = false ∧
          ((∃ err, result = .error err) → removedKey history' = true →
            Completion applicationId address history')) history := by
    refine ⟨hcall, fun answer => ?_⟩
    let remove : HSMRequest := .removeAddress connection.slot.slot connection.slot.pin kind address
    have hbegan' : began (history ++ [⟨.hsm remove, answer⟩]) = began history := began_concat ..
    cases answer with
    | ok u => exact ⟨hbegan'.trans hbegan, nofun⟩
    | error err =>
      have hwrote' : wrote (history ++ [⟨.hsm remove, .error err⟩]) = (wrote history || false) :=
        wrote_concat ..
      have hunstored' : unstored (history ++ [⟨.hsm remove, .error err⟩]) =
          (unstored history || false) := unstored_concat ..
      rw [hwrote] at hwrote'
      rw [hunstored] at hunstored'
      refine ⟨hbegan'.trans hbegan, fun _ hremoved => ?_⟩
      rw [removedKey_eq_false hwrote' hunstored'] at hremoved
      cases hremoved
  cases hmodule : connection.moduleKind with
  | softHSM => exact hstore .softHSM
  | akv => exact hstore .akv
  | lkv =>
    have hremove : (removeLocalKey keccak slot.id address).Meets
        (call.allowed keccak applicationId) _ history :=
      meets_removeLocalKey hcall hfound (hkind.symm.trans hmodule) hwrote hbegan
    rw [← hid] at hremove
    apply Program.Meets.mono
      ((only_removeLocalKey _ _).meets_and hremove hunstored unstored_besideKeyStore)
    intro result history' h
    refine ⟨h.1.1, fun herr hremoved => h.1.2 herr ?_⟩
    rw [removedKey, h.2, Bool.or_false] at hremoved
    exact hremoved

theorem meets_deleteAllAccountsForAddress (address : Address) :
    (Signare.deleteAllAccountsForAddress keccak applicationId address).Meets
      (allowed keccak applicationId (deleteAllAccountsForAddress address))
      (expected applicationId (deleteAllAccountsForAddress address)) [] := by
  have hnot {α : Type} {result : Except SignareError α} {history : History}
      (hwrote : wrote history = false) (hunstored : unstored history = false) :
      expected applicationId (deleteAllAccountsForAddress address) result history := by
    intro _ _ hremoved
    rw [removedKey_eq_false hwrote hunstored] at hremoved
    cases hremoved
  apply meets_validateStruct_bind
  · intro err
    exact hnot rfl rfl
  · intro _
    have hnone : unstored [] = false := rfl
    have hconnection : (byApplication applicationId).Meets
        (allowed keccak applicationId (deleteAllAccountsForAddress address)) _ [] :=
      (only_byApplication besideKeyStore_reads applicationId).meets_and
        (meets_byApplication rfl rfl) hnone unstored_besideKeyStore
    apply hconnection.bind
    · intro err history₁ h
      exact hnot h.1.1.wrote_eq h.2
    · intro connection history₁ h
      obtain ⟨slot, hsmModule, hfound, hslot, hkind⟩ := h.1.2 connection rfl
      rw [Program.meets_bind, Program.meets_orElse]
      apply (meets_removeKey rfl hfound hslot hkind h.1.1.wrote_eq h.2 h.1.1.began_eq).mono
      intro result history₂ h₂
      cases result with
      | error err =>
        intro address' heq hremoved
        cases heq
        exact ⟨h₂.1, h₂.2 ⟨err, rfl⟩ hremoved⟩
      | ok u =>
        apply (meets_removeAccounts h₂.1).mono
        intro result history₃ h₃ address' heq _
        cases heq
        exact h₃

theorem meets (call : AccountCall) :
    (call.program keccak applicationId).Meets (call.allowed keccak applicationId)
      (call.expected applicationId) [] := by
  cases call with
  | enableAccounts userId addresses =>
    apply (meets_enableAccounts userId addresses).bind
    · intro err history _
      exact nofun
    · intro a history _
      exact nofun
  | disableAccount userId address =>
    have hdisable : (Signare.disableAccount keccak ⟨address, userId, applicationId⟩).Meets
        (allowed keccak applicationId (disableAccount userId address))
        (fun _ history => Leaves [] history) [] :=
      meets_of_writes (only_disableAccount _) rfl rfl nofun
    apply hdisable.bind
    · intro err history _
      exact nofun
    · intro a history _
      exact nofun
  | deleteAllAccountsForAddress address =>
    apply (meets_deleteAllAccountsForAddress address).bind
    · intro err history h
      exact h
    · intro a history h
      exact h

end AccountCall

end Signare
