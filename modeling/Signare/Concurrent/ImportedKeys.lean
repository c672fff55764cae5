import Signare.Concurrent.Atomicity
import Signare.Concurrent.LocalKeys
import Signare.Concurrent.RowProperties
import Signare.HttpIn.AdminSlots

/-!
# Imported keys

A local key comes into a slot by being imported, under the address that is derived from it. Whatever
use cases run side by side, an address signs with a private key of its own or not at all.
-/

namespace Signare

open ByteCodec Interleaving

variable {setup : ServerSetup}

/-- The text of a private key with this address. -/
def Imported (setup : ServerSetup) (address : Address) (text : String) : Prop :=
  ∃ privateKey, text = privateKeyText privateKey ∧
    LKVSignatureManager.deriveAddressFromPrivateKey setup.keccak setup.curve privateKey = .ok address

/-- The keys of a slot are under their own addresses. -/
def HSMSlot.KeysImported (setup : ServerSetup) (slot : HSMSlot) : Prop :=
  ∀ address text, slot.keyStore.lookup address = some text → Imported setup address text

/-- A slot that can be read has such keys. -/
def HoldsImported (setup : ServerSetup) : (t : Table) → Row t → Prop
  | .hsmSlot, row => ∀ slot, HSMSlotDB.mapFromDB row = .ok slot → slot.KeysImported setup
  | _, _ => True

theorem imported_ne_nil {address : Address} {privateKey : HexBytes}
    (h : LKVSignatureManager.deriveAddressFromPrivateKey setup.keccak setup.curve privateKey =
      .ok address) : privateKey ≠ [] := by
  intro hnil
  have hlength := (LKVSignatureManager.checkScalar_of_deriveAddress h).1
  rw [hnil] at hlength
  cases hlength

theorem signingScalar_of_none {slot : HSMSlot} {address : Address}
    (h : slot.keyStore.lookup address = none) :
    LKVSignatureManager.signingScalar slot.config.localKeyVault address =
      .error (.internal "cannot obtain private key to sign") := by
  have hlookup : slot.config.localKeyVault.bind (AList.lookup address) = none := by
    rw [HSMSlot.keyStore] at h
    cases hvault : slot.config.localKeyVault with
    | none => rfl
    | some keyStore =>
      rw [hvault] at h
      exact h
  rw [LKVSignatureManager.signingScalar, hlookup]

theorem holdsImported_of_serialize {row : HSMSlotRow} {config : HSMSlot.SlotConfig}
    (hconfiguration : row.configuration = HSMSlotDB.serialize setup.keccak config)
    (h : ∀ address text, (config.localKeyVault.getD ∅).lookup address = some text →
      Imported setup address text) : HoldsImported setup .hsmSlot row := by
  intro slot hslot address text hlookup
  have hid := HSMSlotDB.internalResourceId_ne_of_mapFromDB hslot
  obtain ⟨slot', hslot', -, hsame⟩ := HSMSlotRow.loads_serialize hid hconfiguration
  rw [hslot] at hslot'
  cases hslot'
  apply h
  exact (hsame address).symm.trans hlookup

theorem holdsImported_of_noKeys {row : HSMSlotRow} {config : HSMSlot.SlotConfig}
    (hconfiguration : row.configuration = HSMSlotDB.serialize setup.keccak config)
    (hnone : config.localKeyVault = none) : HoldsImported setup .hsmSlot row := by
  apply holdsImported_of_serialize hconfiguration
  intro address text hlookup
  rw [hnone] at hlookup
  cases hlookup

theorem holdsImported_assignPin {row : HSMSlotRow} (h : HoldsImported setup .hsmSlot row)
    (pin version : String) : HoldsImported setup .hsmSlot (assignPin pin version row) := by
  intro slot hslot
  have hassigned := HSMSlotDB.internalResourceId_ne_of_mapFromDB hslot
  have hid : row.internalResourceId ≠ "" := hassigned
  have hconfig : HSMSlotDB.deserialize row.configuration = .ok slot.config :=
    (HSMSlotDB.mapFromDB_ok hslot).1
  have hkeys : (readSlot row slot.config).KeysImported setup :=
    h _ (HSMSlotDB.mapFromDB_eq_readSlot hid hconfig)
  exact hkeys

theorem imported_insert {keyStore : HSMSlot.KeyStore} {address : Address} {text : String}
    (h : ∀ address text, keyStore.lookup address = some text → Imported setup address text)
    (hnew : Imported setup address text) :
    ∀ address' text', (keyStore.insert address text).lookup address' = some text' →
      Imported setup address' text' := by
  intro address' text' hlookup
  by_cases heq : address' = address
  · subst heq
    rw [AList.lookup_insert, Option.some.injEq] at hlookup
    rwa [← hlookup]
  · rw [AList.lookup_insert_ne heq] at hlookup
    exact h address' text' hlookup

theorem imported_erase {keyStore : HSMSlot.KeyStore} {address : Address}
    (h : ∀ address text, keyStore.lookup address = some text → Imported setup address text) :
    ∀ address' text', (keyStore.erase address).lookup address' = some text' →
      Imported setup address' text' := by
  intro address' text' hlookup
  by_cases heq : address' = address
  · subst heq
    rw [AList.lookup_erase] at hlookup
    cases hlookup
  · rw [AList.lookup_erase_ne heq] at hlookup
    exact h address' text' hlookup

section Keys

variable {history : History}

theorem linking_keeps (known : Prop) :
    AllowsLinking fun s => known → s.KeepsRows (HoldsImported setup) where
  getById _ _ _ := trivial
  exists_ _ _ _ := trivial
  list _ _ _ _ := trivial
  newUUID _ := trivial
  hsm _ _ := trivial
  unlink _ _ := trivial
  link _ _ := trivial

theorem keeps_linking : AllowsLinking fun s => s.KeepsRows (HoldsImported setup) where
  getById _ _ := trivial
  exists_ _ _ := trivial
  list _ _ _ := trivial
  newUUID := trivial
  hsm _ := trivial
  unlink _ := trivial
  link _ := trivial

theorem keeps_upkeep : AllowsUpkeep fun s => s.KeepsRows (HoldsImported setup) :=
  keeps_linking.toAllowsUpkeep

theorem keeps_transactions : AllowsTransactions fun s => s.KeepsRows (HoldsImported setup) where
  toAllowsReads := keeps_linking.toAllowsReads
  begin_ := trivial
  commit := trivial
  rollback := trivial

theorem meets_getHSMSlot_keeping (id : String) :
    (getHSMSlot id).Meets (Keeping (HoldsImported setup)) (fun result history' =>
      ∀ slot, result = .ok slot → Answered (HoldsImported setup) history' →
        slot.KeysImported setup) history := by
  apply meets_validateStruct_bind
  · intro err slot heq
    cases heq
  · intro _
    have hget : (hsmSlotGet id).Meets (Keeping (HoldsImported setup)) (fun result history' =>
        ∀ slot, result = .ok slot → Answered (HoldsImported setup) history' →
          ∃ row, HoldsImported setup .hsmSlot row ∧ HSMSlotDB.mapFromDB row = .ok slot) history :=
      meets_repositoryGet_keeping (t := .hsmSlot) id
    apply hget.orElse
    · intro err history' _ slot heq
      cases heq
    · intro slot history' hread slot' heq hanswered
      cases heq
      obtain ⟨row, hrow, hslot⟩ := hread slot rfl hanswered
      exact hrow slot hslot

theorem meets_getLocalKeySlot_keeping (id verb : String) :
    (getLocalKeySlot id verb).Meets (Keeping (HoldsImported setup)) (fun result history' =>
      ∀ slot, result = .ok slot → Answered (HoldsImported setup) history' →
        slot.KeysImported setup) history := by
  apply (meets_getHSMSlot_keeping id).bind
  · intro err history' _ slot heq
    cases heq
  · intro slot history' hread
    have hmodule : (getHSMModuleOfSlot .background slot.hsmModuleId).Only
        fun s => s.KeepsRows (HoldsImported setup) :=
      Program.only_orElse (only_getHSMModule keeps_transactions .background slot.hsmModuleId)
    have hmeets : (getHSMModuleOfSlot .background slot.hsmModuleId).Meets
        (Keeping (HoldsImported setup)) (fun _ _ => True) history' := keepsProperty_of_only hmodule
    apply hmeets.extends.bind
    · intro err history'' _ slot' heq
      cases heq
    · intro storedHSM history'' h
      obtain ⟨more, rfl⟩ := h.2
      split
      · intro slot' heq
        cases heq
      · intro slot' heq hanswered
        cases heq
        exact hread slot rfl hanswered.of_append

theorem keepsProperty_editKeys {slot : HSMSlot} {keyStore : HSMSlot.KeyStore}
    {f : SignareError → SignareError}
    (h : Answered (HoldsImported setup) history → ∀ address text,
      keyStore.lookup address = some text → Imported setup address text) :
    KeepsProperty (HoldsImported setup) (do
      let _ ← (hsmSlotEditConfig setup.keccak (slot.withKeyStore keyStore)).orElse f
      return ()) history := by
  apply keepsProperty_of_answered
  apply Program.only_bind
  · apply Program.only_orElse
    apply only_hsmSlotEditConfig (linking_keeps _).toAllowsUpkeep
    intro version hanswered row _
    exact holdsImported_of_serialize rfl (h hanswered)
  · intro _
    trivial

theorem keepsProperty_addLocalKey {input : AddLocalKeyInput}
    (h : Imported setup input.address (privateKeyText input.privateKey)) :
    KeepsProperty (HoldsImported setup) (addLocalKey setup.keccak input) history := by
  apply meets_validateStruct_bind
  · intro _
    trivial
  · intro _
    apply (meets_getLocalKeySlot_keeping input.id "add local key").bind
    · intro _ _ _
      trivial
    · intro storedSlot history' hread
      split
      · trivial
      · apply keepsProperty_editKeys
        intro hanswered
        exact imported_insert (hread storedSlot rfl hanswered) h

theorem keepsProperty_removeLocalKey (id : String) (address : Address) :
    KeepsProperty (HoldsImported setup) (removeLocalKey setup.keccak id address) history := by
  apply meets_validateStruct_bind
  · intro _
    trivial
  · intro _
    apply (meets_getLocalKeySlot_keeping id "remove local key").bind
    · intro _ _ _
      trivial
    · intro storedSlot history' hread
      split
      · trivial
      · apply keepsProperty_editKeys
        intro hanswered
        exact imported_erase (hread storedSlot rfl hanswered)

theorem keepsProperty_deleteAllAccountsForAddress (applicationId : String) (address : Address) :
    KeepsProperty (HoldsImported setup)
      (deleteAllAccountsForAddress setup.keccak applicationId address) history := by
  apply meets_validateStruct_bind
  · intro _
    trivial
  · intro _
    have hconnection : (byApplication applicationId).Only
        fun s => s.KeepsRows (HoldsImported setup) :=
      only_byApplication keeps_transactions applicationId
    apply (keepsProperty_of_only hconnection).bind_any
    intro hsmConnection more
    apply Program.Meets.bind_any
    · apply Program.Meets.orElse_any
      split
      · exact keepsProperty_removeLocalKey _ _
      · refine ⟨fun _ => trivial, fun answer => ?_⟩
        cases answer with
        | error err => trivial
        | ok _ => trivial
    · intro _ more'
      apply keepsProperty_of_only
      apply Program.only_orElse
      apply Program.only_bind (only_repositoryAll trivial)
      intro accounts
      apply Program.only_bind (only_execute trivial)
      intro _
      trivial

theorem keepsProperty_adaptImportAccount (data : ImportAccountRequestParams) :
    KeepsProperty (HoldsImported setup)
      (adaptImportAccount setup.keccak setup.curve setup.create data) history := by
  rw [adaptImportAccount]
  split
  · trivial
  · split
    · trivial
    · next privateKey _ =>
      have himport : KeepsProperty (HoldsImported setup) (importPrivateKey setup.keccak setup.curve
          setup.create data.applicationId privateKey) history := by
        have hconnection : (byApplication data.applicationId).Only
            fun s => s.KeepsRows (HoldsImported setup) :=
          only_byApplication keeps_transactions data.applicationId
        apply (keepsProperty_of_only hconnection).bind_any
        intro hsmConnection more
        apply keepsProperty_lift_bind
        intro address haddress
        have himported : Imported setup address (privateKeyText privateKey) :=
          ⟨privateKey, rfl, deriveAddressFromPrivateKey_eq_ok haddress⟩
        let input : AddLocalKeyInput := ⟨hsmConnection.slot.id, privateKey, address⟩
        have hadd : KeepsProperty (HoldsImported setup) (addLocalKey setup.keccak input)
            (history ++ more) := keepsProperty_addLocalKey himported
        apply hadd.bind_any
        intro _ _
        trivial
      apply himport.attempt_any.bind_any
      intro _ _
      trivial

end Keys

/-- Local keys come with imported accounts alone, and slots by the admin API. -/
def StorageCall.Served : StorageCall → Prop
  | createHSMSlot input => ∃ data, input = adaptAdminSlotsCreate data
  | editConfig input => ∃ data, input = adaptAdminSlotsUpdateConfig data
  | addLocalKey _ => False
  | _ => True

theorem StorageCall.Served.keepsProperty {call : StorageCall} (h : call.Served) :
    KeepsProperty (HoldsImported setup) (call.program setup) [] := by
  have hdone {β : Type} {p : UseCase β} (hp : KeepsProperty (HoldsImported setup) p []) :
      KeepsProperty (HoldsImported setup) (do let _ ← p) [] :=
    hp.bind_any fun _ _ => trivial
  have honly {β : Type} {p : UseCase β}
      (hp : p.Only fun s => s.KeepsRows (HoldsImported setup)) :
      KeepsProperty (HoldsImported setup) (do let _ ← p) [] :=
    hdone (keepsProperty_of_only hp)
  have htransaction {β : Type} {p : UseCase β}
      (hp : p.Only fun s => s.KeepsRows (HoldsImported setup)) :
      KeepsProperty (HoldsImported setup) (do
        let _ ← executeUseCaseInTransaction .background p) [] :=
    honly (only_executeUseCaseInTransaction trivial trivial trivial hp .background)
  cases call with
  | createApplication input =>
    exact honly (only_createApplication keeps_upkeep input fun _ => trivial)
  | editApplication input =>
    exact honly (only_editApplication keeps_upkeep input fun _ _ _ _ => trivial)
  | deleteApplication id => exact honly (only_deleteApplication keeps_upkeep id trivial)
  | createHSMModule input =>
    exact htransaction (only_createHSMModule keeps_upkeep input fun _ => trivial)
  | editHSMModule input =>
    exact htransaction (only_editHSMModule keeps_upkeep input fun _ _ _ _ => trivial)
  | deleteHSMModule id => exact htransaction (only_deleteHSMModule keeps_upkeep id trivial)
  | createHSMSlot input =>
    obtain ⟨data, rfl⟩ := h
    apply htransaction
    apply only_createHSMSlot keeps_linking
    intro row _ hconfiguration
    exact holdsImported_of_noKeys hconfiguration rfl
  | editPin input =>
    apply htransaction
    apply only_editPin keeps_upkeep
    intro version row hrow
    exact holdsImported_assignPin hrow _ _
  | editConfig input =>
    obtain ⟨data, rfl⟩ := h
    apply htransaction
    apply only_editConfig keeps_upkeep
    intro version row _
    apply holdsImported_of_noKeys rfl
    rw [adaptAdminSlotsUpdateConfig]
    cases data.spec.bind SlotUpdateConfigSpec.config with
    | none => rfl
    | some config => rfl
  | deleteHSMSlot id => exact htransaction (only_deleteHSMSlot keeps_upkeep id trivial)
  | addLocalKey input => exact h.elim
  | removeLocalKey id address => exact keepsProperty_removeLocalKey id address
  | importAccount data => exact hdone (keepsProperty_adaptImportAccount data)
  | createAdmin id description =>
    exact honly (only_createAdmin keeps_upkeep id description fun _ => trivial)
  | editAdmin input => exact honly (only_editAdmin keeps_upkeep input fun _ _ _ _ => trivial)
  | deleteAdmin id => exact honly (only_deleteAdmin keeps_upkeep id trivial)
  | createUser input =>
    exact honly (only_createUser keeps_linking setup.supportedRoles input fun _ _ => trivial)
  | editUser input =>
    exact honly (only_editUser keeps_upkeep setup.supportedRoles input
      fun _ _ _ _ _ _ => trivial)
  | deleteUser key => exact honly (only_deleteUser keeps_upkeep key trivial)
  | createAccount key =>
    exact honly (only_createAccount keeps_linking setup.keccak key fun _ _ => trivial)
  | deleteAccount key => exact honly (only_deleteAccount keeps_upkeep setup.keccak key trivial)
  | enableAccounts input =>
    exact honly (only_enableAccounts keeps_linking keeps_transactions setup.keccak input
      fun _ _ => trivial)
  | disableAccount key => exact honly (only_disableAccount keeps_upkeep setup.keccak key trivial)
  | deleteAllAccountsForAddress applicationId address =>
    exact hdone (keepsProperty_deleteAllAccountsForAddress applicationId address)

/-- In every order of the steps of any operations as they are served, whichever of them fail: a slot
that is stored, or that an open transaction sees, signs for an address with a private key that the
address is derived from, or says that it has none. -/
theorem importedKeys_of_run {ι : Type} [DecidableEq ι] {source : UUIDSource}
    {faults : PersistenceError → Prop} {calls : ι → StorageCall} {w : Shared}
    {c : StorageConfig ι Unit} (hserved : ∀ i, (calls i).Served)
    (hstart : w.db.All (HoldsImported setup))
    (hrun : Run (storage source faults) (storageCalls setup calls w) c) {row : HSMSlotRow}
    (hseen : Seen c .hsmSlot row) {connection : HSMConnection}
    (hslot : HSMSlotDB.mapFromDB row = .ok connection.slot) (hkind : connection.moduleKind = .lkv)
    (from_ : Address) (data : HexBytes) :
    let signed := LKVSignatureManager.sign setup.curve
      (signInput (adaptSlotConnectionData connection) from_ data)
    signed = .error (.internal "cannot obtain private key to sign") ∨
      ∃ privateKey,
        LKVSignatureManager.deriveAddressFromPrivateKey setup.keccak setup.curve privateKey =
          .ok from_ ∧
        LKVSignatureManager.checkScalar (beNat privateKey) = .ok () ∧
        signed = LKVSignatureManager.signScalar setup.curve data (beNat privateKey) := by
  intro signed
  have hsigned : signed = LKVSignatureManager.signingScalar connection.slot.config.localKeyVault
      from_ >>= LKVSignatureManager.signScalar setup.curve data :=
    LKVSignatureManager.sign_of_connection setup.curve hkind from_ data
  have hinv := rowInv_of_run (fun i => (hserved i).keepsProperty) hstart hrun
  have hkeys : connection.slot.KeysImported setup := hinv.of_seen hseen connection.slot hslot
  cases hlookup : connection.slot.keyStore.lookup from_ with
  | none =>
    left
    rw [hsigned, signingScalar_of_none hlookup]
    rfl
  | some text =>
    right
    obtain ⟨privateKey, rfl, hderive⟩ := hkeys from_ text hlookup
    refine ⟨privateKey, hderive, (LKVSignatureManager.checkScalar_of_deriveAddress hderive).2, ?_⟩
    rw [hsigned, signingScalar_of_lookup hlookup (imported_ne_nil hderive)]
    rfl

/-- The address of the base point. -/
def unitAddress : Address := .copyFrom ((keccak256.sum (unitSetup.curve.publicKey []).tail).drop 12)

def vaultApplication : Row .application := ApplicationRow.mk "app" "internal-app" 1 none "version-app"

/-- An application with a slot that has no keys yet. -/
def vaultDB : Database :=
  Function.update (Function.update (Function.update Database.empty .application [vaultApplication])
    .hsmModule [localModule]) .hsmSlot [emptySlot]

/-- The key is imported, and an application is created beside it. -/
def importAndCreate : Bool → StorageCall
  | false => .importAccount
    ⟨"app", "0x0000000000000000000000000000000000000000000000000000000000000001"⟩
  | true => .createApplication ⟨some "acme", 1, none⟩

def importing : StorageConfig Bool Unit :=
  storageCalls unitSetup importAndCreate ⟨vaultDB, 0, ⟨fun _ => none, fun _ => []⟩⟩

def importInTurns : List Bool :=
  [false, false, true, true, false, true, true] ++ List.replicate 10 false

theorem vaultDB_holdsImported : vaultDB.All (HoldsImported unitSetup) := by
  intro t row hrow
  cases t with
  | hsmSlot =>
    have heq : row = emptySlot := List.mem_singleton.mp hrow
    subst heq
    intro slot hslot address text hlookup
    cases hslot
    cases hlookup
  | _ => trivial

/-- The slot that is stored in the row signs for the address of the base point. -/
def SignsForUnit (row : Row .hsmSlot) : Prop :=
  ∃ slot ∈ (HSMSlotDB.mapFromDB row).toOption,
    (LKVSignatureManager.sign unitSetup.curve
      (signInput (adaptSlotConnectionData ⟨slot, .lkv, 1⟩) unitAddress [1])).toOption.isSome

instance : DecidablePred SignsForUnit := fun row =>
  inferInstanceAs (Decidable (∃ slot ∈ (HSMSlotDB.mapFromDB row).toOption, _))

private theorem steps_importing :
    (∀ n ≤ importInTurns.length, Quiet (follow unaryUUIDs importing (importInTurns.take n))) ∧
      succeeded (follow unaryUUIDs importing importInTurns) false = true ∧
      succeeded (follow unaryUUIDs importing importInTurns) true = true ∧
      ∃ row ∈ (follow unaryUUIDs importing importInTurns).shared.db .hsmSlot, SignsForUnit row := by
  decide +kernel

/-- The address of the private key one signs with a private key that it is derived from. -/
theorem importing_signs :
    succeeded (follow unaryUUIDs importing importInTurns) false = true ∧
      succeeded (follow unaryUUIDs importing importInTurns) true = true ∧
      ∃ row ∈ (follow unaryUUIDs importing importInTurns).shared.db .hsmSlot,
        ∃ slot privateKey, HSMSlotDB.mapFromDB row = .ok slot ∧
          LKVSignatureManager.deriveAddressFromPrivateKey keccak256 unitSetup.curve privateKey =
            .ok unitAddress ∧
          LKVSignatureManager.sign unitSetup.curve
            (signInput (adaptSlotConnectionData ⟨slot, .lkv, 1⟩) unitAddress [1]) =
              LKVSignatureManager.signScalar unitSetup.curve [1] (beNat privateKey) := by
  obtain ⟨hquiet, himported, hcreated, row, hrow, slot, hslot, hsigns⟩ := steps_importing
  have hrun : Run (storage unaryUUIDs noFaults) importing
      (follow unaryUUIDs importing importInTurns) := run_follow _ hquiet
  have hserved : ∀ i, (importAndCreate i).Served := fun i => by cases i <;> trivial
  let connection : HSMConnection := ⟨slot, .lkv, 1⟩
  have hread : HSMSlotDB.mapFromDB row = .ok connection.slot := Except.toOption_eq_some.mp hslot
  refine ⟨himported, hcreated, row, hrow, slot, ?_⟩
  cases importedKeys_of_run hserved vaultDB_holdsImported hrun (.inl hrow) hread rfl unitAddress
    [1] with
  | inl herror =>
    rw [herror] at hsigns
    cases hsigns
  | inr hkey =>
    obtain ⟨privateKey, hderive, -, heq⟩ := hkey
    exact ⟨privateKey, hread, hderive, heq⟩

end Signare
