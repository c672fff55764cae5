import Signare.UseCases.Calls
import Signare.UseCases.Edits

/-!
# What each use case may write

Beside what all of them may call, which is everything but the writes of resources, a use case makes
the few writes that it is for. Which rows and keys these name is known from its input, whatever it
is answered.
-/

namespace Signare

open ByteCodec

/-- What an operation that creates nothing needs beside the writes that it is for. -/
structure AllowsUpkeep (p : Effect → Prop) : Prop extends AllowsReads p where
  newUUID : p .newUUID
  hsm : ∀ request, p (.hsm request)
  unlink : ∀ filter, p (.statement (.deleteAll .entry filter))

/-- What every operation needs beside the writes that it is for. -/
structure AllowsLinking (p : Effect → Prop) : Prop extends AllowsUpkeep p where
  link : ∀ entry, p (.statement (.insert .entry entry))

variable {p : Effect → Prop}

section Pieces

variable {t : Table} {β γ : Type} {resource : String} {mapFromDB : Row t → Except SignareError β}

theorem only_addition (h : AllowsUpkeep p) {x : Except SignareError γ} {f : SignareError → SignareError}
    {row : γ → String → Row t} (hinsert : ∀ a, x = .ok a → ∀ version,
      p (.statement (.insert t (row a version)))) :
    Program.Only p (Program.orElse f (do
      let a ← Program.lift x
      let resourceVersion ← newUUID
      repositoryAdd t mapFromDB (row a resourceVersion))) := by
  apply Program.only_orElse
  apply only_lift_bind
  intro a hx
  apply Program.only_bind (only_newUUID h.newUUID)
  intro version
  exact only_repositoryAdd (hinsert a hx version) (h.getById t _)

theorem only_edition (h : AllowsUpkeep p) {x : Except SignareError Unit}
    {f : SignareError → SignareError} {key : Key t} {resourceVersion : String}
    {assign : String → Row t → Row t}
    (hupdate : ∀ version, p (.statement (.update t key resourceVersion (assign version)))) :
    Program.Only p (Program.orElse f (do
      Program.lift x
      repositoryEdit t resource mapFromDB key resourceVersion assign)) := by
  apply Program.only_orElse
  apply only_lift_bind
  intro _ _
  exact only_repositoryEdit h.toAllowsReads h.newUUID hupdate

theorem only_deletion (h : AllowsUpkeep p) {get : UseCase γ} {dependencies : γ → UseCase Unit}
    {id description : γ → String} {kind : ResourceKind} {f : SignareError → SignareError}
    {key : Key t} (hget : get.Only p)
    (hp : ∀ found, dependencies found = removeDependencies (id found) kind (description found))
    (hdelete : p (.statement (.delete t key))) :
    Program.Only p (do
      get >>= dependencies
      (repositoryRemove t resource mapFromDB key).orElse f) := by
  apply Program.only_bind
  · apply Program.only_bind hget
    intro found
    rw [hp]
    exact only_removeDependencies (h.list _ _ _) (h.list _ _ _) (h.unlink _)
  · intro _
    exact Program.only_orElse (only_repositoryRemove (h.getById t key) hdelete)

end Pieces

theorem only_createApplication (h : AllowsUpkeep p) (input : CreateApplicationInput)
    (hinsert : ∀ row, p (.statement (.insert .application row))) :
    (createApplication input).Only p := by
  apply Program.only_bind (only_validateStruct _ _)
  intro _
  apply Program.only_bind (only_orRandomID h.newUUID)
  intro id
  apply Program.only_bind (only_newUUID h.newUUID)
  intro internalResourceId
  exact only_addition h fun _ _ _ => hinsert _

theorem only_editApplication (h : AllowsUpkeep p) (input : EditApplicationInput)
    (hupdate : ∀ resourceVersion assign,
      p (.statement (.update .application input.id resourceVersion assign))) :
    (editApplication input).Only p :=
  Program.only_bind (only_validateStruct _ _) fun _ => only_edition h fun _ => hupdate _ _

theorem only_deleteApplication (h : AllowsUpkeep p) (id : String)
    (hdelete : p (.statement (.delete .application id))) : (deleteApplication id).Only p :=
  Program.only_bind (only_validateStruct _ _) fun _ =>
    only_deletion h (only_getApplication h.toAllowsReads id) (fun _ => rfl) hdelete

theorem only_createHSMModule (h : AllowsUpkeep p) (input : CreateHSMModuleInput)
    (hinsert : ∀ row, p (.statement (.insert .hsmModule row))) :
    (createHSMModule .inTransaction input).Only p := by
  rw [createHSMModule, executeUseCaseInTransaction]
  split
  · trivial
  · apply Program.only_bind (only_orRandomID h.newUUID)
    intro id
    apply Program.only_bind (only_newUUID h.newUUID)
    intro internalResourceId
    exact only_addition h fun _ _ _ => hinsert _

theorem only_editHSMModule (h : AllowsUpkeep p) (input : EditHSMModuleInput)
    (hupdate : ∀ resourceVersion assign,
      p (.statement (.update .hsmModule input.id resourceVersion assign))) :
    (editHSMModule .inTransaction input).Only p :=
  Program.only_bind (only_validateStruct _ _) fun _ => only_edition h fun _ => hupdate _ _

theorem only_deleteHSMModule (h : AllowsUpkeep p) (id : String)
    (hdelete : p (.statement (.delete .hsmModule id))) :
    (deleteHSMModule .inTransaction id).Only p :=
  Program.only_bind (only_validateStruct _ _) fun _ =>
    only_deletion h (only_getHSMModuleUndecorated h.toAllowsReads id) (fun _ => rfl) hdelete

theorem only_createAdmin (h : AllowsUpkeep p) (id : String) (description : Option String)
    (hinsert : ∀ row, p (.statement (.insert .admin row))) : (createAdmin id description).Only p := by
  apply Program.only_bind (only_validateStruct _ _)
  intro _
  dsimp only
  split
  · apply Program.only_bind (only_newUUID h.newUUID)
    intro id
    apply Program.only_bind (only_newUUID h.newUUID)
    intro internalResourceId
    exact only_addition h fun _ _ _ => hinsert _
  · apply Program.only_bind (only_newUUID h.newUUID)
    intro internalResourceId
    exact only_addition h fun _ _ _ => hinsert _

theorem only_editAdmin (h : AllowsUpkeep p) (input : EditAdminInput)
    (hupdate : ∀ resourceVersion assign,
      p (.statement (.update .admin input.id resourceVersion assign))) :
    (editAdmin input).Only p :=
  Program.only_bind (only_validateStruct _ _) fun _ => only_edition h fun _ => hupdate _ _

theorem only_deleteAdmin (h : AllowsUpkeep p) (id : String)
    (hdelete : p (.statement (.delete .admin id))) : (deleteAdmin id).Only p := by
  apply Program.only_bind (only_validateStruct _ _)
  intro _
  apply Program.only_bind
  · apply Program.only_orElse
    exact Program.only_bind (only_execute (h.list _ _ _)) fun _ => trivial
  · intro admins
    split
    · trivial
    · exact only_deletion h (only_getAdmin h.toAllowsReads id) (fun _ => rfl) hdelete

theorem only_createSlot (h : AllowsLinking p) (keccak : Hash256) (input : CreateHSMSlotInput)
    (hinsert : ∀ row : HSMSlotRow, row.applicationId = input.applicationId →
      row.configuration = HSMSlotDB.serialize keccak input.config →
      p (.statement (.insert .hsmSlot row))) :
    (createSlot keccak .inTransaction input).Only p := by
  apply Program.only_bind (only_orRandomID h.newUUID)
  intro id
  apply Program.only_bind (only_newUUID h.newUUID)
  intro internalResourceId
  apply Program.only_bind
  · apply Program.only_bind (Program.only_orElse (only_getApplication h.toAllowsReads _))
    intro application
    exact only_addDependency h.toAllowsReads h.newUUID h.link
  · intro _
    apply Program.only_bind
    · apply Program.only_bind
        (Program.only_orElse (only_getHSMModuleUndecorated h.toAllowsReads _))
      intro hsmModule
      exact only_addDependency h.toAllowsReads h.newUUID h.link
    · intro _
      apply only_addition h.toAllowsUpkeep
      intro db hdb version
      obtain ⟨_, -, hdb⟩ := Except.bind_eq_ok.mp (Except.mapError_eq_ok.mp hdb)
      obtain ⟨_, -, hdb⟩ := Except.bind_eq_ok.mp hdb
      obtain ⟨_, -, hdb⟩ := Except.bind_eq_ok.mp hdb
      obtain ⟨_, -, hdb⟩ := Except.bind_eq_ok.mp hdb
      cases hdb
      exact hinsert _ rfl rfl

theorem only_createHSMSlot (h : AllowsLinking p) (keccak : Hash256) (input : CreateHSMSlotInput)
    (hinsert : ∀ row : HSMSlotRow, row.applicationId = input.applicationId →
      row.configuration = HSMSlotDB.serialize keccak input.config →
      p (.statement (.insert .hsmSlot row))) :
    (createHSMSlot keccak .inTransaction input).Only p := by
  have hcreate := only_createSlot h keccak input hinsert
  apply Program.only_bind (only_validateStruct _ _)
  intro _
  apply Program.only_bind (Program.only_orElse (only_getHSMModuleUndecorated h.toAllowsReads _))
  intro hsmModule
  dsimp only
  split
  · apply Program.only_bind (only_resetModule h.hsm _)
    intro _
    apply Program.only_bind (only_requireAlive h.hsm _ _ _ _)
    intro _
    exact Program.only_orElse hcreate
  · exact Program.only_orElse hcreate

theorem only_editPin (h : AllowsUpkeep p) (input : EditPinInput)
    (hupdate : ∀ version, p (.statement
      (.update .hsmSlot input.id input.resourceVersion (assignPin input.pin version)))) :
    (editPin .inTransaction input).Only p := by
  apply Program.only_bind (only_validateStruct _ _)
  intro _
  apply Program.only_bind (only_getHSMSlot h.toAllowsReads _)
  intro hsmSlot
  apply Program.only_bind (only_require _ _)
  intro _
  apply Program.only_bind (Program.only_orElse (only_getHSMModuleUndecorated h.toAllowsReads _))
  intro hsmModule
  apply Program.only_bind (only_requireAlive h.hsm _ _ _ _)
  intro _
  exact only_edition h hupdate

theorem only_editConfig (h : AllowsUpkeep p) (keccak : Hash256) (input : EditConfigInput)
    (hupdate : ∀ version, p (.statement (.update .hsmSlot input.id input.resourceVersion
      (assignConfig (HSMSlotDB.serialize keccak (input.config.getD ⟨[], none⟩)) version)))) :
    (editConfig keccak .inTransaction input).Only p := by
  apply Program.only_bind (only_validateStruct _ _)
  intro _
  apply Program.only_bind (only_getHSMSlot h.toAllowsReads _)
  intro hsmSlot
  apply Program.only_bind (only_require _ _)
  intro _
  apply Program.only_bind (Program.only_orElse (only_getHSMModuleUndecorated h.toAllowsReads _))
  intro hsmModule
  apply Program.only_bind (only_require _ _)
  intro _
  exact only_edition h hupdate

theorem only_deleteHSMSlot (h : AllowsUpkeep p) (id : String)
    (hdelete : p (.statement (.delete .hsmSlot id))) : (deleteHSMSlot .inTransaction id).Only p :=
  Program.only_bind (only_validateStruct _ _) fun _ =>
    only_deletion h (only_getHSMSlot h.toAllowsReads id) (fun _ => rfl) hdelete

theorem only_createUser (h : AllowsLinking p) (supportedRoles : List Role) (input : CreateUserInput)
    (hinsert : ∀ row : UserRow, row.key.applicationId = input.applicationId →
      p (.statement (.insert .user row))) :
    (createUser supportedRoles input).Only p := by
  apply Program.only_bind (only_validateStruct _ _)
  intro _
  apply Program.only_bind (only_orRandomID h.newUUID)
  intro id
  apply only_lift_bind
  intro _ _
  apply Program.only_bind (only_newUUID h.newUUID)
  intro internalResourceId
  apply Program.only_bind
  · apply Program.only_bind (Program.only_orElse (only_getApplication h.toAllowsReads _))
    intro application
    exact only_addDependency h.toAllowsReads h.newUUID h.link
  · intro _
    exact only_addition h.toAllowsUpkeep fun _ _ _ => hinsert _ rfl

theorem only_editUser (h : AllowsUpkeep p) (supportedRoles : List Role) (input : EditUserInput)
    (hupdate : ∀ resourceVersion roles description version, p (.statement
      (.update .user input.key resourceVersion (assignUser roles description version)))) :
    (editUser supportedRoles input).Only p := by
  apply Program.only_bind (only_validateStruct _ _)
  intro _
  apply Program.only_bind (only_require _ _)
  intro _
  apply only_lift_bind
  intro _ _
  apply Program.only_bind (only_edition h fun _ => hupdate _ _ _ _)
  intro edited
  apply Program.only_bind (Program.only_orElse (only_listAccounts h.toAllowsReads _))
  intro accounts
  trivial

theorem only_deleteUser (h : AllowsUpkeep p) (key : ApplicationStandardID)
    (hdelete : p (.statement (.delete .user key))) : (deleteUser key).Only p :=
  Program.only_bind (only_validateStruct _ _) fun _ =>
    only_deletion h (only_getUser h.toAllowsReads key) (fun _ => rfl) hdelete

theorem only_createAccount (h : AllowsLinking p) (keccak : Hash256) (key : AccountID)
    (hinsert : ∀ row : AccountRow, row.key = key → p (.statement (.insert .account row))) :
    (createAccount keccak key).Only p := by
  apply Program.only_bind (only_validateStruct _ _)
  intro _
  apply Program.only_bind (only_newUUID h.newUUID)
  intro internalResourceId
  apply Program.only_bind
  · apply Program.only_bind (Program.only_orElse (only_getUser h.toAllowsReads _))
    intro user
    exact only_addDependency h.toAllowsReads h.newUUID h.link
  · intro _
    apply Program.only_orElse
    apply only_lift_bind
    intro _ _
    exact only_repositoryAdd (hinsert _ rfl) (h.getById _ _)

theorem only_deleteAccount (h : AllowsUpkeep p) (keccak : Hash256) (key : AccountID)
    (hdelete : p (.statement (.delete .account key))) : (deleteAccount keccak key).Only p :=
  Program.only_bind (only_validateStruct _ _) fun _ =>
    only_deletion h (only_getAccount h.toAllowsReads keccak key) (fun _ => rfl) hdelete

theorem only_disableAccount (h : AllowsUpkeep p) (keccak : Hash256) (key : AccountID)
    (hdelete : p (.statement (.delete .account key))) : (disableAccount keccak key).Only p := by
  apply Program.only_bind (only_validateStruct _ _)
  intro _
  apply Program.only_bind (Program.only_orElse (only_deleteAccount h keccak key hdelete))
  intro _
  apply Program.only_bind (Program.only_orElse (only_repositoryGet (h.getById _ _)))
  intro user
  apply Program.only_bind (Program.only_orElse (only_listAccounts h.toAllowsReads _))
  intro accounts
  trivial

theorem only_createAccounts (h : AllowsLinking p) (keccak : Hash256) (keys : List AccountID)
    (hinsert : ∀ row : AccountRow, row.key ∈ keys → p (.statement (.insert .account row))) :
    (createAccounts keccak keys).Only p := by
  induction keys with
  | nil => trivial
  | cons key keys ih =>
    apply Program.only_bind
    · apply Program.only_attempt
      apply only_createAccount h keccak key
      intro row hrow
      exact hinsert row (hrow ▸ List.mem_cons_self)
    · intro created
      apply Program.only_bind (ih fun row hrow => hinsert row (List.mem_cons_of_mem _ hrow))
      intro accountsNotAdded
      cases created with
      | ok account => trivial
      | error err =>
        dsimp only
        split
        · trivial
        · trivial

section Keys

variable (h : AllowsUpkeep p) (ht : AllowsTransactions p) (keccak : Hash256)

include h

theorem only_hsmSlotEditConfig (slot : HSMSlot) (hupdate : ∀ version, p (.statement
      (.update .hsmSlot slot.id slot.resourceVersion
        (assignConfig (HSMSlotDB.serialize keccak slot.config) version)))) :
    (hsmSlotEditConfig keccak slot).Only p := by
  apply only_lift_bind
  intro _ _
  exact only_repositoryEdit h.toAllowsReads h.newUUID hupdate

include ht

theorem only_removeLocalKey (id : String) (address : Address)
    (hupdate : ∀ id resourceVersion configuration version, p (.statement
      (.update .hsmSlot id resourceVersion (assignConfig configuration version)))) :
    (removeLocalKey keccak id address).Only p := by
  apply Program.only_bind (only_validateStruct _ _)
  intro _
  apply Program.only_bind (only_getLocalKeySlot ht _ _)
  intro storedSlot
  split
  · trivial
  · apply Program.only_bind (Program.only_orElse
      (only_hsmSlotEditConfig h keccak _ fun _ => hupdate _ _ _ _))
    intro _
    trivial

theorem only_addressesBackedByModule (connection : HSMConnection) :
    (addressesBackedByModule connection).Only p := by
  apply Program.only_orElse
  split
  · refine ⟨h.hsm _, fun answer => ?_⟩
    cases answer with
    | error err => trivial
    | ok addresses => trivial
  · apply Program.only_bind (only_validateStruct _ _)
    intro _
    apply Program.only_bind (only_getLocalKeySlot ht _ _)
    intro storedSlot
    trivial
  · trivial

end Keys

theorem only_enableAccounts (h : AllowsLinking p) (ht : AllowsTransactions p) (keccak : Hash256)
    (input : EnableAccountsInput)
    (hinsert : ∀ row : AccountRow, row.key.applicationId = input.applicationId →
      p (.statement (.insert .account row))) :
    (enableAccounts keccak input).Only p := by
  apply Program.only_bind (only_validateStruct _ _)
  intro _
  apply Program.only_bind (only_require _ _)
  intro _
  apply Program.only_bind (Program.only_orElse (only_repositoryGet (h.getById _ _)))
  intro user
  apply Program.only_bind (only_byApplication ht _)
  intro hsmConnection
  apply Program.only_bind (only_addressesBackedByModule h.toAllowsUpkeep ht _)
  intro knownAddresses
  apply Program.only_bind (only_require _ _)
  intro _
  apply Program.only_bind
  · apply only_createAccounts h
    intro row hrow
    obtain ⟨address, -, hkey⟩ := List.mem_map.mp hrow
    exact hinsert row (by rw [← hkey])
  · intro accountsNotAdded
    apply Program.only_bind (only_require _ _)
    intro _
    apply Program.only_bind (Program.only_orElse (only_listAccounts h.toAllowsReads _))
    intro accounts
    trivial

end Signare
