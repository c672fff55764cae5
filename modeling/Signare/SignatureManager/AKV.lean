import Signare.RpcInfra.ChainBinding
import Signare.SignatureManager.Errors
import Signare.UseCases.SlotConfig

/-!
# The Azure Key Vault

Accounts are enabled for the addresses that the configured texts denote; to sign, a key is looked up
by the text that its address is printed as. A key can be used for its account exactly if one of the
entries of the account is spelled as it is printed.
-/

namespace Signare

namespace AKVSignatureManager

/-- What the vault is asked to sign: the key, its version and the data. -/
structure KeyRequest where
  name : String
  version : String
  value : HexBytes
  deriving DecidableEq

/-- The loop over the configured keys. The last one with the text is kept. -/
def selectKey (text : String) (configs : List AKVConfig) : String × String :=
  configs.foldl (fun key inputConfig =>
    if inputConfig.keyPublicAddress = text then (inputConfig.keyName, inputConfig.keyVersion)
    else key) ("", "")

/-- `Sign`, where `akvClient` is the vault. -/
def sign (keccak : ByteCodec.Hash256) (akvClient : KeyRequest → Except String ByteCodec.Bytes)
    (input : SignInput) : Traced KeyRequest ManagerError ByteCodec.Bytes :=
  let key := selectKey (input.fromAddress.string keccak) input.config.akv
  if key.1 = "" ∨ key.2 = "" then Traced.fail ⟨.internal, "cannot obtain key to sign"⟩
  else
    let request : KeyRequest := ⟨key.1, key.2, input.data⟩
    Traced.call request
      ((akvClient request).mapError fun err => ⟨.internal, "error signing data: " ++ err⟩)

theorem selectKey_concat (text : String) (configs : List AKVConfig) (config : AKVConfig) :
    selectKey text (configs ++ [config]) =
      if config.keyPublicAddress = text then (config.keyName, config.keyVersion)
      else selectKey text configs := by
  rw [selectKey, List.foldl_append]
  rfl

theorem selectKey_spec (text : String) (configs : List AKVConfig) :
    (∃ config ∈ configs, config.keyPublicAddress = text ∧
        selectKey text configs = (config.keyName, config.keyVersion)) ∨
      (∀ config ∈ configs, config.keyPublicAddress ≠ text) ∧ selectKey text configs = ("", "") := by
  induction configs using List.reverseRecOn with
  | nil => exact .inr ⟨List.forall_mem_nil _, rfl⟩
  | append_singleton configs last ih =>
    rw [selectKey_concat]
    by_cases hlast : last.keyPublicAddress = text
    · left
      rw [if_pos hlast]
      exact ⟨last, by simp, hlast, rfl⟩
    · rw [if_neg hlast]
      cases ih with
      | inl hfound =>
        obtain ⟨config, hconfig, htext, hkey⟩ := hfound
        exact .inl ⟨config, List.mem_append_left _ hconfig, htext, hkey⟩
      | inr hnone =>
        right
        refine ⟨fun config hconfig => ?_, hnone.2⟩
        cases List.mem_append.mp hconfig with
        | inl hmem => exact hnone.1 config hmem
        | inr hmem => rwa [List.mem_singleton.mp hmem]

end AKVSignatureManager

/-- The text of the entry denotes the address. -/
def HSMSlot.AKVConfig.Denotes (config : HSMSlot.AKVConfig) (a : Address) : Prop :=
  Address.newFromHexString config.keyPublicAddress = .ok a

instance (config : HSMSlot.AKVConfig) (a : Address) : Decidable (config.Denotes a) :=
  inferInstanceAs (Decidable (_ = _))

/-- A connection to a slot of the vault. -/
def akvConnection (slot : HSMSlot) (chainId : Int) : HSMConnection := ⟨slot, .akv, chainId⟩

/-- Users can be given the account: it is among the addresses of the module. -/
def HSMConnection.Lists (hsmConnection : HSMConnection) (a : Address) : Prop :=
  ∃ addresses, addressesBackedByModule hsmConnection = .done (.ok addresses) ∧ a ∈ addresses

/-- What the vault is asked when the account of the connection signs. -/
def akvSign (keccak : ByteCodec.Hash256)
    (akvClient : AKVSignatureManager.KeyRequest → Except String ByteCodec.Bytes)
    (hsmConnection : HSMConnection) (a : Address) (data : HexBytes) :
    Traced AKVSignatureManager.KeyRequest ManagerError ByteCodec.Bytes :=
  AKVSignatureManager.sign keccak akvClient
    (signInput (adaptSlotConnectionData hsmConnection) a data)

/-- Where every entry denotes an address and one of them denotes `a`, one is spelled as `a` is
printed. -/
def SpelledAsPrinted (keccak : ByteCodec.Hash256) (configs : List HSMSlot.AKVConfig)
    (a : Address) : Prop :=
  (∀ config ∈ configs, ∃ b, config.Denotes b) → (∃ config ∈ configs, config.Denotes a) →
    ∃ config ∈ configs, config.keyPublicAddress = a.string keccak

theorem lists_akv_iff {slot : HSMSlot} {chainId : Int} {a : Address} :
    (akvConnection slot chainId).Lists a ↔
      (∀ config ∈ slot.config.akv, ∃ b, config.Denotes b) ∧
        ∃ config ∈ slot.config.akv, config.Denotes a := by
  let denoted := slot.config.akv.mapM fun config : HSMSlot.AKVConfig =>
    Address.newFromHexString config.keyPublicAddress
  have hdone (addresses : List Address) :
      addressesBackedByModule (akvConnection slot chainId) = .done (.ok addresses) ↔
        denoted = .ok addresses := by
    show Program.orElse asInternal (Program.lift denoted) = _ ↔ _
    cases denoted with
    | error err => simp [Program.orElse]
    | ok found => simp [Program.orElse]
  simp only [HSMConnection.Lists, hdone]
  constructor
  · intro h
    obtain ⟨addresses, haddresses, ha⟩ := h
    exact ⟨Except.exists_mapM_eq_ok.mp ⟨addresses, haddresses⟩,
      (Except.mem_of_mapM_eq_ok haddresses).mp ha⟩
  · intro h
    obtain ⟨addresses, haddresses⟩ := Except.exists_mapM_eq_ok.mpr h.1
    exact ⟨addresses, haddresses, (Except.mem_of_mapM_eq_ok haddresses).mpr h.2⟩

/-- The vault is asked once for the key of an entry that is spelled as the address is printed, or
there is no such entry and it is not asked. -/
theorem akvSign_calls (keccak : ByteCodec.Hash256)
    (akvClient : AKVSignatureManager.KeyRequest → Except String ByteCodec.Bytes) {slot : HSMSlot}
    (hnames : ∀ config ∈ slot.config.akv, config.keyName ≠ "" ∧ config.keyVersion ≠ "")
    (chainId : Int) (a : Address) (data : HexBytes) :
    (∃ config ∈ slot.config.akv, config.keyPublicAddress = a.string keccak ∧
        (akvSign keccak akvClient (akvConnection slot chainId) a data).calls =
          [⟨config.keyName, config.keyVersion, data⟩]) ∨
      (∀ config ∈ slot.config.akv, config.keyPublicAddress ≠ a.string keccak) ∧
        (akvSign keccak akvClient (akvConnection slot chainId) a data).calls = [] := by
  let configs : List AKVConfig := slot.config.akv.map fun config =>
    ⟨config.keyName, config.keyVersion, config.keyPublicAddress⟩
  have hsign : akvSign keccak akvClient (akvConnection slot chainId) a data =
      let key := AKVSignatureManager.selectKey (a.string keccak) configs
      if key.1 = "" ∨ key.2 = "" then Traced.fail ⟨.internal, "cannot obtain key to sign"⟩
      else
        let request : AKVSignatureManager.KeyRequest := ⟨key.1, key.2, data⟩
        Traced.call request
          ((akvClient request).mapError fun err => ⟨.internal, "error signing data: " ++ err⟩) :=
    rfl
  cases AKVSignatureManager.selectKey_spec (a.string keccak) configs with
  | inl hfound =>
    obtain ⟨_, hmem, htext, hkey⟩ := hfound
    obtain ⟨config, hconfig, rfl⟩ := List.mem_map.mp hmem
    left
    refine ⟨config, hconfig, htext, ?_⟩
    obtain ⟨hname, hversion⟩ := hnames config hconfig
    simp only [hsign, hkey, hname, hversion, or_self, if_false, Traced.calls_call]
  | inr hnone =>
    right
    constructor
    · intro config hconfig
      exact hnone.1 _ (List.mem_map_of_mem hconfig)
    · simp only [hsign, hnone.2, true_or, if_true, Traced.calls_fail]

theorem exists_loaded {keccak : ByteCodec.Hash256} {slot : HSMSlot} {row : HSMSlotRow}
    (hstored : HSMSlotDB.mapToCreateDB keccak slot = .ok row) :
    ∃ loaded, HSMSlotDB.mapFromDB row = .ok loaded ∧ loaded.config.akv = slot.config.akv := by
  obtain ⟨_, -, hstored⟩ := Except.bind_eq_ok.mp hstored
  obtain ⟨_, hinternal, hstored⟩ := Except.bind_eq_ok.mp hstored
  obtain ⟨_, -, hstored⟩ := Except.bind_eq_ok.mp hstored
  obtain ⟨_, -, hstored⟩ := Except.bind_eq_ok.mp hstored
  cases hstored
  obtain ⟨config, hconfig, hakv, -⟩ := HSMSlotDB.deserialize_serialize keccak slot.config
  refine ⟨⟨slot.id, slot.internalResourceId, slot.applicationId, slot.hsmModuleId, slot.slot,
    slot.pin, config, ""⟩, ?_, hakv⟩
  rw [HSMSlotDB.mapFromDB, notEmpty_of_ne (notEmpty_eq_ok hinternal), Except.ok_bind, hconfig]
  rfl

/-- What can be enabled can be signed with, and nothing is signed for another account, if and only
if one of the entries for the account is spelled as it is printed. -/
theorem akv_signs_listed_iff (keccak : ByteCodec.Hash256)
    (akvClient : AKVSignatureManager.KeyRequest → Except String ByteCodec.Bytes) {slot : HSMSlot}
    (hnames : ∀ config ∈ slot.config.akv, config.keyName ≠ "" ∧ config.keyVersion ≠ "")
    {row : HSMSlotRow} (hstored : HSMSlotDB.mapToCreateDB keccak slot = .ok row) (chainId : Int)
    (a : Address) (data : HexBytes) :
    ∃ loaded, HSMSlotDB.mapFromDB row = .ok loaded ∧
      let hsmConnection := akvConnection loaded chainId
      let run := akvSign keccak akvClient hsmConnection a data
      (((hsmConnection.Lists a → ∃ config ∈ slot.config.akv, config.Denotes a ∧
            run.calls = [⟨config.keyName, config.keyVersion, data⟩]) ∧
          ∀ request ∈ run.calls, ∃ config ∈ slot.config.akv, config.Denotes a ∧
            config.keyName = request.name ∧ config.keyVersion = request.version) ↔
        SpelledAsPrinted keccak slot.config.akv a) := by
  obtain ⟨loaded, hloaded, hakv⟩ := exists_loaded hstored
  rw [← hakv] at hnames ⊢
  refine ⟨loaded, hloaded, ?_⟩
  have hprinted {config : HSMSlot.AKVConfig} (h : config.keyPublicAddress = a.string keccak) :
      config.Denotes a := by
    rw [HSMSlot.AKVConfig.Denotes, h, Address.newFromHexString_string]
  have hcalls := akvSign_calls keccak akvClient hnames chainId a data
  constructor
  · intro h hall hsome
    obtain ⟨config, hconfig, -, hcall⟩ := h.1 (lists_akv_iff.mpr ⟨hall, hsome⟩)
    cases hcalls with
    | inl hfound =>
      obtain ⟨config', hconfig', htext, -⟩ := hfound
      exact ⟨config', hconfig', htext⟩
    | inr hnone =>
      rw [hnone.2] at hcall
      cases hcall
  · intro hspelled
    cases hcalls with
    | inl hfound =>
      obtain ⟨config, hconfig, htext, hcall⟩ := hfound
      constructor
      · intro _
        exact ⟨config, hconfig, hprinted htext, hcall⟩
      · intro request hrequest
        rw [hcall, List.mem_singleton] at hrequest
        rw [hrequest]
        exact ⟨config, hconfig, hprinted htext, rfl, rfl⟩
    | inr hnone =>
      constructor
      · intro hlists
        obtain ⟨hall, hsome⟩ := lists_akv_iff.mp hlists
        obtain ⟨config, hconfig, htext⟩ := hspelled hall hsome
        exact absurd htext (hnone.1 config hconfig)
      · intro request hrequest
        rw [hnone.2] at hrequest
        cases hrequest

def vaultSlot (keyPublicAddress : String) : HSMSlot :=
  ⟨"slot", "resource", "application", "module", "", "", ⟨[⟨"key", "1", keyPublicAddress⟩], none⟩, ""⟩

def silentVault : AKVSignatureManager.KeyRequest → Except String ByteCodec.Bytes :=
  fun _ => .error "not reachable"

def vaultAddress : Address :=
  ⟨[0x97, 0x0e, 0x81, 0x28, 0xab, 0x83, 0x4e, 0x8e, 0xac, 0x17, 0xab, 0x8e, 0x38, 0x12, 0xf0, 0x10,
    0x67, 0x8c, 0xf7, 0x91], rfl⟩

/-- As the address is printed, with the letter case that its hash gives. -/
def vaultText : String := "0x970E8128AB834E8EAC17Ab8E3812F010678CF791"

theorem string_vaultAddress : vaultText = vaultAddress.string ByteCodec.keccak256 := by
  decide +kernel

theorem akv_signs_listed_iff_printed :
    ∃ row loaded, HSMSlotDB.mapFromDB row = .ok loaded ∧
      let hsmConnection := akvConnection loaded 1
      let run := akvSign ByteCodec.keccak256 silentVault hsmConnection vaultAddress [0x2a]
      ((hsmConnection.Lists vaultAddress → ∃ config ∈ (vaultSlot vaultText).config.akv,
          config.Denotes vaultAddress ∧
            run.calls = [⟨config.keyName, config.keyVersion, [0x2a]⟩]) ∧
        ∀ request ∈ run.calls, ∃ config ∈ (vaultSlot vaultText).config.akv,
          config.Denotes vaultAddress ∧ config.keyName = request.name ∧
            config.keyVersion = request.version) := by
  have hstored : HSMSlotDB.mapToCreateDB ByteCodec.keccak256 (vaultSlot vaultText) = .ok _ := rfl
  obtain ⟨loaded, hloaded, hsigns⟩ := akv_signs_listed_iff ByteCodec.keccak256 silentVault (by decide)
    hstored 1 vaultAddress [0x2a]
  exact ⟨_, loaded, hloaded,
    hsigns.mpr fun _ _ => ⟨_, List.mem_singleton_self _, string_vaultAddress⟩⟩

/-- A key whose address is written without its prefix is enabled and cannot be used. -/
theorem akv_listed_not_signed :
    ∃ loaded, (HSMSlotDB.mapToCreateDB zeroHash (vaultSlot
        "1111111111111111111111111111111111111111")).bind HSMSlotDB.mapFromDB = .ok loaded ∧
      (akvConnection loaded 1).Lists onesAddress ∧
      (akvSign zeroHash silentVault (akvConnection loaded 1) onesAddress []).calls = [] ∧
      (akvSign zeroHash silentVault (akvConnection loaded 1) onesAddress []).result =
        .error ⟨.internal, "cannot obtain key to sign"⟩ := by
  have hdenotes : HSMSlot.AKVConfig.Denotes ⟨"key", "1", "1111111111111111111111111111111111111111"⟩
      onesAddress := by decide
  refine ⟨vaultSlot "1111111111111111111111111111111111111111", rfl, ?_, ?_, ?_⟩
  · rw [lists_akv_iff]
    constructor
    · intro config hconfig
      rw [List.mem_singleton.mp hconfig]
      exact ⟨onesAddress, hdenotes⟩
    · exact ⟨_, List.mem_singleton_self _, hdenotes⟩
  · decide
  · decide

end Signare
