import Signare.UseCases.HSMSlot
import Signare.Lib.Association
import Signare.Lib.Outcome

/-!
# The stored configuration of a slot

The configuration goes through a JSON document and back: the keys of the cloud vault as they were,
and every local address with its private key.
-/

namespace Signare

open ByteCodec

namespace HSMSlot

theorem namesField_keyName_keyVersion : Json.namesField "keyName" "keyVersion" = false := by
  decide

theorem namesField_keyName_address : Json.namesField "keyName" "keyPublicAddress" = false := by
  decide

theorem namesField_keyVersion_address :
    Json.namesField "keyVersion" "keyPublicAddress" = false := by
  decide

theorem namesField_akv_localKeyVault : Json.namesField "akv" "localKeyVault" = false := by
  decide

theorem unmarshalAKVConfig_marshal (config : AKVConfig) :
    unmarshalAKVConfig (marshalAKVConfig config) = .ok config := by
  simp only [marshalAKVConfig, unmarshalAKVConfig, List.foldlM_cons, List.foldlM_nil,
    Json.namesField_self, namesField_keyName_keyVersion, namesField_keyName_address,
    namesField_keyVersion_address, if_true, Bool.false_eq_true, if_false, unmarshalString]
  rfl

theorem unmarshalAKV_marshal (configs : List AKVConfig) :
    unmarshalAKV (.array (configs.map marshalAKVConfig)) = .ok configs := by
  rw [unmarshalAKV, List.mapM_map]
  have h : configs.mapM (unmarshalAKVConfig ∘ marshalAKVConfig) =
      .ok (configs.map fun config => config) :=
    Except.mapM_eq_ok fun config _ => unmarshalAKVConfig_marshal config
  rw [List.map_id'] at h
  exact h

/-- The entries in the order they are written. -/
def sorted (m : StringMap) : StringMap :=
  ⟨m.entries.mergeSort fun a b => a.1 ≤ b.1,
    (List.perm_nodupKeys (List.mergeSort_perm _ _)).mpr m.nodupKeys⟩

theorem lookup_sorted (m : StringMap) (k : String) : (sorted m).lookup k = m.lookup k :=
  AList.perm_lookup (List.mergeSort_perm _ _)

theorem unmarshalStringMap_marshal (m : StringMap) :
    unmarshalStringMap ∅ (marshalStringMap m) = .ok ((sorted m).rekey fun k => k) := by
  rw [marshalStringMap, unmarshalStringMap, List.foldlM_map]
  exact Except.foldlM_eq_ok fun entry _ stored => rfl

theorem mapFromKeyStoreDB_stored (keccak : Hash256) (keyStore : KeyStore) {stored : StringMap}
    (hstored : ∀ k, stored.lookup k = (keyStore.rekey (Address.string keccak)).lookup k) :
    ∃ keyStore' : KeyStore, mapFromKeyStoreDB stored = .ok keyStore' ∧
      ∀ addr, keyStore'.lookup addr = keyStore.lookup addr := by
  have hkeys : ∀ k ∈ stored, ∃ addr : Address, addr.string keccak = k := by
    intro k hk
    rw [← AList.lookup_isSome, hstored, AList.lookup_isSome] at hk
    obtain ⟨addr, -, haddr⟩ := AList.exists_of_mem_rekey hk
    exact ⟨addr, haddr⟩
  let parse (k : String) : Address := (Address.newFromHexString k).toOption.getD Address.zeroAddress
  have hparse (addr : Address) : parse (addr.string keccak) = addr := by
    simp [parse, Address.newFromHexString_string, Except.toOption]
  have hfold : mapFromKeyStoreDB stored = .ok (stored.rekey parse) := by
    apply Except.foldlM_eq_ok
    intro entry hentry keyStore
    obtain ⟨addr, haddr⟩ := hkeys entry.1 (AList.mem_keys.mpr (List.mem_map_of_mem hentry))
    rw [← haddr, Address.newFromHexString_string, hparse]
    rfl
  refine ⟨stored.rekey parse, hfold, fun addr => ?_⟩
  have hinj : Set.InjOn parse (Set.range (Address.string keccak)) := by
    intro k hk k' hk' heq
    obtain ⟨a, rfl⟩ := hk
    obtain ⟨b, rfl⟩ := hk'
    rw [hparse, hparse] at heq
    rw [heq]
  calc (stored.rekey parse).lookup addr
      = (stored.rekey parse).lookup (parse (addr.string keccak)) := by rw [hparse]
    _ = stored.lookup (addr.string keccak) :=
        AList.lookup_rekey hinj (fun k hk => hkeys k hk) ⟨addr, rfl⟩
    _ = (keyStore.rekey (Address.string keccak)).lookup (addr.string keccak) := hstored _
    _ = keyStore.lookup addr :=
        AList.lookup_rekey (s := Set.univ) ((Address.string_injective keccak).injOn)
          (fun _ _ => trivial) trivial

theorem unmarshalLocalKeyVault_marshal (stored : StringMap) :
    unmarshalLocalKeyVault none (.object [("keyStore", marshalStringMap stored)]) =
      .ok (some ((sorted stored).rekey fun k => k)) := by
  simp only [unmarshalLocalKeyVault, List.foldlM_cons, List.foldlM_nil, Json.namesField_self,
    if_true, Option.getD_none, unmarshalStringMap_marshal]
  rfl

theorem unmarshalSlotConfigDB_marshal (config : SlotConfigDB) :
    unmarshalSlotConfigDB (marshalSlotConfigDB config) = .ok ⟨config.akv,
      config.localKeyVault.map fun stored => (sorted stored).rekey fun k => k⟩ := by
  obtain ⟨akv, localKeyVault⟩ := config
  by_cases hakv : akv = []
  · cases localKeyVault with
    | none =>
      rw [hakv]
      rfl
    | some stored =>
      simp only [hakv, marshalSlotConfigDB, unmarshalSlotConfigDB, if_true, List.nil_append,
        List.foldlM_cons, List.foldlM_nil, namesField_akv_localKeyVault, Bool.false_eq_true,
        if_false, Json.namesField_self, unmarshalLocalKeyVault_marshal]
      rfl
  · cases localKeyVault with
    | none =>
      simp only [hakv, marshalSlotConfigDB, unmarshalSlotConfigDB, if_false, List.append_nil,
        List.foldlM_cons, List.foldlM_nil, Json.namesField_self, if_true, unmarshalAKV_marshal]
      rfl
    | some stored =>
      have hpure (config' : SlotConfigDB) :
          (pure config' : Except SignareError SlotConfigDB) = .ok config' := rfl
      simp only [hakv, marshalSlotConfigDB, unmarshalSlotConfigDB, if_false, List.cons_append,
        List.nil_append, List.foldlM_cons, List.foldlM_nil, namesField_akv_localKeyVault,
        Bool.false_eq_true, Json.namesField_self, if_true, unmarshalAKV_marshal, Except.ok_bind,
        hpure, unmarshalLocalKeyVault_marshal, Option.map_some]

end HSMSlot

/-- What is stored of a configuration is what is loaded. -/
theorem HSMSlotDB.deserialize_serialize (keccak : Hash256) (config : HSMSlot.SlotConfig) :
    ∃ config', HSMSlotDB.deserialize (HSMSlotDB.serialize keccak config) = .ok config' ∧
      config'.akv = config.akv ∧
      config'.localKeyVault.isSome = config.localKeyVault.isSome ∧
      ∀ addr, (config'.localKeyVault.getD ∅).lookup addr =
        (config.localKeyVault.getD ∅).lookup addr := by
  obtain ⟨akv, localKeyVault⟩ := config
  rw [HSMSlotDB.deserialize, HSMSlotDB.serialize, HSMSlot.unmarshalSlotConfigDB_marshal]
  cases localKeyVault with
  | none => exact ⟨⟨akv, none⟩, rfl, rfl, rfl, fun _ => rfl⟩
  | some keyStore =>
    let stored := keyStore.rekey (Address.string keccak)
    have hstored : ∀ k, ((HSMSlot.sorted stored).rekey fun k => k).lookup k = stored.lookup k := by
      intro k
      rw [← HSMSlot.lookup_sorted stored k]
      exact AList.lookup_rekey (s := Set.univ) (fun _ _ _ _ h => h) (fun _ _ => trivial) trivial
    obtain ⟨keyStore', hload, hlookup⟩ :=
      HSMSlot.mapFromKeyStoreDB_stored keccak keyStore hstored
    refine ⟨⟨akv, some keyStore'⟩, ?_, rfl, rfl, hlookup⟩
    change (do
      let loaded ← HSMSlot.mapFromKeyStoreDB ((HSMSlot.sorted stored).rekey fun k => k)
      return (⟨akv, some loaded⟩ : HSMSlot.SlotConfig)) = _
    rw [hload]
    rfl

/-- What is read of a slot. -/
def readSlot (row : HSMSlotRow) (config : HSMSlot.SlotConfig) : HSMSlot where
  id := row.id
  internalResourceId := row.internalResourceId
  applicationId := row.applicationId
  hsmModuleId := row.hsmModuleId
  slot := row.slot
  pin := row.pin
  config := config
  resourceVersion := row.resourceVersion

theorem HSMSlotDB.mapFromDB_ok {row : HSMSlotRow} {slot : HSMSlot}
    (h : HSMSlotDB.mapFromDB row = .ok slot) :
    HSMSlotDB.deserialize row.configuration = .ok slot.config ∧
      slot = ⟨row.id, row.internalResourceId, row.applicationId, row.hsmModuleId, row.slot,
        row.pin, slot.config, row.resourceVersion⟩ := by
  obtain ⟨_, -, h⟩ := Except.bind_eq_ok.mp h
  obtain ⟨config, hconfig, h⟩ := Except.bind_eq_ok.mp h
  cases h
  exact ⟨hconfig, rfl⟩

/-- The row that is stored for a new slot. -/
def slotRow (keccak : Hash256) (slot : HSMSlot) (resourceVersion : String) : HSMSlotRow where
  id := slot.id
  internalResourceId := slot.internalResourceId
  hsmModuleId := slot.hsmModuleId
  applicationId := slot.applicationId
  slot := slot.slot
  pin := slot.pin
  configuration := HSMSlotDB.serialize keccak slot.config
  resourceVersion := resourceVersion

theorem slot_mapToCreateDB {keccak : Hash256} {slot : HSMSlot} {db : HSMSlotRow}
    (h : HSMSlotDB.mapToCreateDB keccak slot = .ok db) :
    slot.id ≠ "" ∧ slot.internalResourceId ≠ "" ∧ db = slotRow keccak slot "" := by
  obtain ⟨_, hid, h⟩ := Except.bind_eq_ok.mp h
  obtain ⟨_, hinternal, h⟩ := Except.bind_eq_ok.mp h
  obtain ⟨_, -, h⟩ := Except.bind_eq_ok.mp h
  obtain ⟨_, -, h⟩ := Except.bind_eq_ok.mp h
  cases h
  exact ⟨notEmpty_eq_ok hid, notEmpty_eq_ok hinternal, rfl⟩

end Signare
