import Signare.EIP712.TypeString
import Signare.EIP712.Unmarshal
import Signare.HSMConnector.SignTypedData
import Signare.RpcInfra.AuthorizedSigner
import Signare.UseCases.User

/-!
# Typed data and the chain of the application

A request to sign typed data is decoded, checked against the chain of the application, and hashed
under the types that come with it. The chain id is hashed from the record that was checked.
-/

namespace Signare

open ByteCodec Json

structure SignTypedDataRequestParams where
  address : String
  typedData : TypedData

def intoSignTypedDataParams : JsonText → SignTypedDataRequestParams →
    Option SignTypedDataRequestParams
  | .null, old => some old
  | .object members, old => do
    let address ← Json.intoField intoString old.address "address" (JsonText.memberValues members)
    let typedData ← JsonText.intoField intoTypedData old.typedData "typedData" members
    return { address, typedData }
  | _, _ => none

/-- An array of another length is refused, whether its items are decoded or not. -/
def SignTypedDataRequestParams.unmarshalJSON : JsonText → Option SignTypedDataRequestParams
  | .array [obj] => intoSignTypedDataParams obj ⟨"", .zero⟩
  | .array _ => none
  | data => intoSignTypedDataParams data ⟨"", .zero⟩

theorem unmarshalSignTypedData_of_object {text : JsonText} {p old : SignTypedDataRequestParams}
    (h : intoSignTypedDataParams text old = some p) :
    intoSignTypedData (fun _ (u : Unit) => some u) text.value (old.address, ()) =
      some (p.address, ()) := by
  cases text with
  | null =>
    cases h
    rfl
  | object members =>
    obtain ⟨address, haddress, h⟩ := Option.bind_eq_some_iff.mp h
    obtain ⟨typedData, -, h⟩ := Option.bind_eq_some_iff.mp h
    cases h
    have hunit (jsons : List Json) :
        jsons.foldlM (fun (u : Unit) _ => some u) () = some () := by
      induction jsons with
      | nil => rfl
      | cons json jsons ih => exact ih
    show (Json.intoField intoString old.address "address" (JsonText.memberValues members)).bind
      (fun address => (Json.intoField _ () "typedData" (JsonText.memberValues members)).bind
        fun u => some (address, u)) = _
    rw [haddress, Option.bind_some, Json.intoField, hunit]
    rfl
  | _ => cases h

/-- The account that signs is the one that is decoded without the spelling of the texts. -/
theorem unmarshalSignTypedData_of_text {params : JsonText} {p : SignTypedDataRequestParams}
    (h : SignTypedDataRequestParams.unmarshalJSON params = some p) :
    unmarshalSignTypedData (fun _ (u : Unit) => some u) () params.value = some (p.address, ()) := by
  cases params with
  | array items =>
    cases items with
    | nil => cases h
    | cons obj rest =>
      cases rest with
      | nil =>
        have hobj := unmarshalSignTypedData_of_object h
        unfold unmarshalSignTypedData
        simp [JsonText.value, JsonText.values, intoSlice, intoItems, GoSlice.cells, hobj]
      | cons _ _ => cases h
  | null =>
    have hnull : intoSignTypedDataParams .null ⟨"", .zero⟩ = some p := h
    exact unmarshalSignTypedData_of_object hnull
  | object members =>
    have hobject : intoSignTypedDataParams (.object members) ⟨"", .zero⟩ = some p := h
    exact unmarshalSignTypedData_of_object hobject
  | _ => cases h

/-- `SetParamsFrom`, which always fails. -/
def typedDataParamsFrom : List Json → ParamsError
  | [.object _] => .text ("could not decode eth_signTypedData params; " ++
      "expected a single object with [address] and [typedData]")
  | [_] => .text "a single object is expected"
  | _ => .text "only one object is expected"

def processTypedDataParams (reqParams : JsonText) :
    Except ParamsError SignTypedDataRequestParams :=
  match SignTypedDataRequestParams.unmarshalJSON reqParams with
  | some rpcParams => .ok rpcParams
  | none =>
    match reqParams.value with
    | .array posParams =>
      if allFitFloats posParams then .error (typedDataParamsFrom posParams) else .error .unmarshal
    | _ => .error .unmarshal

def SignTypedDataRequestParams.validateParams (p : SignTypedDataRequestParams) :
    Except SignareError Unit :=
  if p.address = "" then .error (.text "[address] cannot be nil") else p.typedData.validate

/-- An error of the handler or of the adapter, before the use case is called. -/
inductive RPCError
  | params (err : ParamsError)
  | invalidParams (err : SignareError)

def adaptModuleKind : HSMModuleKind → ModuleKind
  | .softHSM => .softHSM
  | .akv => .akv
  | .lkv => .localKeyVault

/-- Every kind of module is supported, so this does not fail. -/
def adaptSlotConnectionData (hsmConnection : HSMConnection) : SlotConnectionData :=
  let slot := hsmConnection.slot
  let moduleKind := adaptModuleKind hsmConnection.moduleKind
  match hsmConnection.moduleKind with
  | .softHSM => { slot := slot.slot, pin := slot.pin, config := ⟨[], none⟩, moduleKind }
  | .akv =>
    let akv := slot.config.akv.map fun akvConfigItem =>
      ⟨akvConfigItem.keyName, akvConfigItem.keyVersion, akvConfigItem.keyPublicAddress⟩
    { slot := "", pin := "", config := ⟨akv, none⟩, moduleKind }
  | .lkv =>
    let localKeyVault := slot.config.localKeyVault.map fun keyStore =>
      ⟨keyStore.entries.map fun entry => (entry.1, entry.2)⟩
    { slot := "", pin := "", config := ⟨[], localKeyVault⟩, moduleKind }

/-- A domain without a chain id is let through. -/
def checkDomainChain (typedData : TypedData) (appChainId : Int) : Except RPCError Unit :=
  match typedData.domain.chainId with
  | none => .ok ()
  | some domainChainId =>
    if domainChainId ≠ appChainId then
      .error (.invalidParams (.text ("typed data domain chainId " ++ toString domainChainId ++
        " does not match the application default chain " ++ toString appChainId)))
    else .ok ()

/-- What `AdaptSignTypedData` gives to the use case. -/
def adaptSignTypedData (hsmConnection : HSMConnection) (data : SignTypedDataRequestParams) :
    Except RPCError SignTypedDataInput := do
  let appChainId := hsmConnection.applicationDefaultChainId
  checkDomainChain data.typedData appChainId
  let signer ← (Address.newFromHexString data.address).mapError fun err =>
    RPCError.invalidParams (.wrapText "invalid [address]" err)
  return {
    toSlotConnectionData := adaptSlotConnectionData hsmConnection
    chainId := appChainId
    address := signer
    typedData := data.typedData }

/-- The parameters, decoded and validated. -/
def signTypedDataParams (params : JsonText) : Except RPCError SignTypedDataRequestParams := do
  let reqParams ← (processTypedDataParams params).mapError RPCError.params
  reqParams.validateParams.mapError RPCError.invalidParams
  return reqParams

def handleSignTypedData (hsmConnection : HSMConnection) (params : JsonText) :
    Except RPCError SignTypedDataInput := do
  let reqParams ← signTypedDataParams params
  adaptSignTypedData hsmConnection reqParams

/-- The encodings of the declared fields of the domain, and the separator made of them. -/
structure SeparatorOf (env : HashEnv) (fuel : Nat) (data : TypedData) (words : List Bytes)
    (separator : Bytes) : Prop where
  encodes : List.Forall₂ (fun field word =>
    encodeField env data.types fuel field.type (data.domain.toFieldMap.get field.name) =
      .done word) (data.types.fields "EIP712Domain") words
  separator_eq :
    separator = env.keccak.sum (typeHash env data.types "EIP712Domain" ++ words.flatten)

/-- The word is the chain id in 32 bytes, the most significant first. -/
def BindsChain (chainId : Int) (word : Bytes) : Prop :=
  ∃ n : Nat, n < 2 ^ 256 ∧ chainId = n ∧ word = beWord 32 n

/-- Every declared field that is called `chainId`, of a type for which `P` holds, is bound. -/
def ChainFieldsBound (chainId : Int) (P : String → Prop) (fields : List TypeField)
    (words : List Bytes) : Prop :=
  List.Forall₂ (fun field word => field.name = "chainId" → P field.type →
    BindsChain chainId word) fields words

variable {env : HashEnv} {t : Types}

theorem encodeFields_eq_done {enc : String → Value → Run Failure Bytes} {data : FieldMap}
    {fields : List TypeField} {b : Bytes} (h : encodeFields enc data fields = .done b) :
    ∃ words, List.Forall₂ (fun field word =>
      enc field.type (data.get field.name) = .done word) fields words ∧ b = words.flatten := by
  induction fields generalizing b with
  | nil =>
    cases h
    exact ⟨[], .nil, rfl⟩
  | cons field rest ih =>
    obtain ⟨word, later, hword, hlater, rfl⟩ := encodeFields_cons_eq_done.mp h
    obtain ⟨words, hwords, rfl⟩ := ih hlater
    exact ⟨word :: words, .cons hword hwords, rfl⟩

theorem exists_separatorOf {fuel : Nat} {data : TypedData} {separator : Bytes}
    (h : hashStruct env data.types fuel "EIP712Domain" data.domain.toFieldMap = .done separator) :
    ∃ words, SeparatorOf env fuel data words separator := by
  obtain ⟨b, hb, hseparator⟩ := hashStructWith_eq_done.mp h
  obtain ⟨words, hwords, rfl⟩ := encodeFields_eq_done hb
  exact ⟨words, hwords, hseparator⟩

/-- A chain id that is there is encoded as an integer or not at all. One that is not there is
encoded as a struct without members or not at all. -/
theorem bindsChain_of_encodeField {fuel : Nat} {T : String} {chainId : Option Int} {word : Bytes}
    (h : encodeField env t fuel T (chainId.elim .null .bigInt) = .done word)
    (hbound : chainId.isSome ∨ t.definition T = none) :
    ∃ c, chainId = some c ∧ BindsChain c word := by
  obtain ⟨d, hd, hword⟩ := denotes_of_encodeField h
  cases chainId with
  | none =>
    have hundeclared : t.definition T = none := by
      rcases hbound with h | h
      · cases h
      · exact h
    cases d with
    | struct name members =>
      obtain ⟨m, hkind, -, -⟩ := hd
      rw [fieldKind_of_undeclared hundeclared] at hkind
      exact absurd hkind (undeclaredKind_ne_struct T name)
    | integer n =>
      obtain ⟨-, hspells, -⟩ := hd
      simp [SpellsInteger] at hspells
    | _ => simp [Denotes, HexText] at hd
  | some c =>
    refine ⟨c, rfl, ?_⟩
    cases d with
    | integer n =>
      obtain ⟨-, hspells, hfit⟩ := hd
      have hc : c = n := by simpa [SpellsInteger] using hspells
      exact ⟨n, hfit, hc, hword.symm⟩
    | _ => simp [Denotes, HexText, Members] at hd

theorem chainId_of_checked {data : TypedData} {chainId : Int}
    (h : checkChain data chainId = .ok ()) {c : Int} (hc : data.domain.chainId = some c) :
    c = chainId := by
  rcases checkChain_eq_ok.mp h with hnone | hsome
  · rw [hc] at hnone
    cases hnone
  · rw [hc] at hsome
    exact Option.some.inj hsome

theorem chainFieldsBound_of_separatorOf {fuel : Nat} {data : TypedData} {words : List Bytes}
    {separator : Bytes} {chainId : Int} (h : SeparatorOf env fuel data words separator)
    (hchecked : checkChain data chainId = .ok ()) :
    ChainFieldsBound chainId
      (fun T => data.domain.chainId.isSome ∨ data.types.definition T = none)
      (data.types.fields "EIP712Domain") words := by
  apply h.encodes.imp
  intro field word hword hname hbound
  rw [hname, EIP712Domain.get_chainId] at hword
  obtain ⟨c, hc, hbinds⟩ := bindsChain_of_encodeField hword hbound
  rw [← chainId_of_checked hchecked hc]
  exact hbinds

theorem chainId_of_handled {hsmConnection : HSMConnection} {params : JsonText}
    {input : SignTypedDataInput} (h : handleSignTypedData hsmConnection params = .ok input) :
    input.chainId = hsmConnection.applicationDefaultChainId := by
  obtain ⟨reqParams, -, h⟩ := Except.bind_eq_ok.mp h
  obtain ⟨⟨⟩, -, h⟩ := Except.bind_eq_ok.mp h
  obtain ⟨signer, -, h⟩ := Except.bind_eq_ok.mp h
  rw [← Except.pure_eq_ok.mp h]

/-- What is signed commits to the chain of the application wherever the domain carries a chain id,
or the types declare it of a type that is no struct. -/
theorem typedData_binds_chain {env : TypedDataEnv} {fuel : Nat} {hsmConnection : HSMConnection}
    {params : JsonText} {input : SignTypedDataInput}
    {run : Traced SignInput SignareError SignTypedDataOutput} {out : SignTypedDataOutput}
    (hinput : handleSignTypedData hsmConnection params = .ok input)
    (hrun : signTypedData env fuel input = .done run) (hout : run.result = .ok out) :
    ∃ words separator dataHash,
      run.calls = [signInput input.toSlotConnectionData input.address
        (env.keccak.sum (digestPreimage (separator, dataHash)))] ∧
      SeparatorOf env.toHashEnv fuel input.typedData words separator ∧
      ChainFieldsBound hsmConnection.applicationDefaultChainId
        (fun T => input.typedData.domain.chainId.isSome ∨
          input.typedData.types.definition T = none)
        (input.typedData.types.fields "EIP712Domain") words := by
  obtain ⟨hchecked, hashes, hhashes, hcalls⟩ := signTypedData_ok hrun hout
  obtain ⟨words, hwords⟩ := exists_separatorOf (structHashes_eq_done.mp hhashes).1
  refine ⟨words, hashes.1, hashes.2, hcalls, hwords, ?_⟩
  rw [← chainId_of_handled hinput]
  exact chainFieldsBound_of_separatorOf hwords (checkChain_of_checked hchecked)

/-- A text without escapes. -/
def plainText (s : String) : JsonText := .string s s

def fieldText (field : TypeField) : JsonText :=
  .object [("name", plainText field.name), ("type", plainText field.type)]

/-- A request to sign a note, with the given domain; `chainType` is declared for the chain id. -/
def noteRequest (domain : JsonText) (chainType : String) (types : List (String × JsonText)) :
    JsonText :=
  .array [.object [
    ("address", plainText "0x7e5f4552091a69125d5dfcb7b8c2659029395bdf"),
    ("typedData", .object [
      ("types", .object (types ++ [
        ("EIP712Domain", .array [fieldText ⟨"chainId", chainType⟩]),
        ("Note", .array [fieldText ⟨"text", "string"⟩])])),
      ("primaryType", plainText "Note"),
      ("domain", domain),
      ("message", .object [("text", plainText "hello")])])]]

/-- An application on chain 1. -/
def noteConnection : HSMConnection where
  slot :=
    { id := "slot", internalResourceId := "slot", applicationId := "app", hsmModuleId := "module"
      slot := "0", pin := "userpin", config := ⟨[], none⟩, resourceVersion := "1" }
  moduleKind := .softHSM
  applicationDefaultChainId := 1

/-- The input that a request for a note makes. -/
def noteInput (domain : EIP712Domain) (chainType : String) (types : Types) :
    SignTypedDataInput where
  toSlotConnectionData := adaptSlotConnectionData noteConnection
  chainId := 1
  address := generatorAddress
  typedData :=
    { types := ("Note", some [⟨"text", "string"⟩]) ::
        ("EIP712Domain", some [⟨"chainId", chainType⟩]) :: types
      primaryType := "Note"
      domain
      message := [("text", .string "hello")] }

private theorem id_keys_perm (keys : List String) : (id keys).Perm keys := .refl keys

/-- A backend with one key that signs one digest. -/
def noteEnv (digest signature : Bytes) : TypedDataEnv where
  toSigningEnv := oneKeyEnv digest signature [(27 :: signature, generatorKey)]
  validateSignTypedData _ := .ok ()
  mapOrder := id
  mapOrder_perm := id_keys_perm

/-- Whether the run ends with a signature. -/
def isSigned (env : TypedDataEnv) (fuel : Nat) (input : SignTypedDataInput) : Bool :=
  match signTypedData env fuel input with
  | .done run => run.result.toOption.isSome
  | _ => false

theorem exists_of_isSigned {env : TypedDataEnv} {fuel : Nat} {input : SignTypedDataInput}
    (h : isSigned env fuel input) :
    ∃ run out, signTypedData env fuel input = .done run ∧ run.result = .ok out := by
  unfold isSigned at h
  split at h
  · next run hrun =>
    obtain ⟨out, hout⟩ := Except.exists_ok_of_isSome h
    exact ⟨run, out, hrun, hout⟩
  · cases h

/-- The chain id under another letter case, in hexadecimal text. -/
def boundRequest : JsonText := noteRequest (.object [("ChainID", plainText "0x1")]) "uint256" []

def boundInput : SignTypedDataInput :=
  noteInput { EIP712Domain.zero with chainId := some 1 } "uint256" []

def boundEnv : TypedDataEnv :=
  noteEnv (beWord 32 0xae316dcdbd2476ea84dfe44c4418b0823c90cbf529cc260508352faa6799b5d8)
    (beWord 32 0x89b6bd7a7c385383ff466db721729e2f4ab4c650bb72e2dedfafd6ff61277a55 ++
      beWord 32 0x16ae18cbcd911418d506820133cf47f749d6aae31a9f0c9d3af685bb313e2691)

/-- The chain id is left out, and declared of a type without fields. -/
def openRequest : JsonText := noteRequest (.object []) "Chain" [("Chain", .array [])]

def openInput : SignTypedDataInput := noteInput .zero "Chain" [("Chain", some [])]

def openEnv : TypedDataEnv :=
  noteEnv (beWord 32 0x66aec5eca8904a2975adf95a1b8daffb34fa8a59ed2a3181a9d8593a564e7940)
    (beWord 32 0xf01d6b9018ab421dd410404cb869072065522bf85734008f105cf385a023a80f ++
      beWord 32 0x78a9926124b5b6f92156df8aad2deefa7695f3caf520a28246e2556683e149d5)

theorem handleSignTypedData_bound :
    handleSignTypedData noteConnection boundRequest = .ok boundInput := by rfl

theorem handleSignTypedData_open :
    handleSignTypedData noteConnection openRequest = .ok openInput := by rfl

set_option maxRecDepth 100000 in
private theorem isSigned_bound : isSigned boundEnv 3 boundInput := by decide +kernel

set_option maxRecDepth 100000 in
private theorem isSigned_open : isSigned openEnv 3 openInput := by decide +kernel

theorem typedData_binds_chain_note :
    ∃ words separator,
      SeparatorOf boundEnv.toHashEnv 3 boundInput.typedData words separator ∧
      ChainFieldsBound 1 (fun T => boundInput.typedData.domain.chainId.isSome ∨
        boundInput.typedData.types.definition T = none) [⟨"chainId", "uint256"⟩] words := by
  obtain ⟨run, out, hrun, hout⟩ := exists_of_isSigned isSigned_bound
  obtain ⟨words, separator, -, -, hwords, hbound⟩ :=
    typedData_binds_chain handleSignTypedData_bound hrun hout
  exact ⟨words, separator, hwords, hbound⟩

set_option maxRecDepth 100000 in
private theorem chainWord_open :
    encodeField openEnv.toHashEnv openInput.typedData.types 3 "Chain" .null =
      .done (beWord 32 0xdf8489cfaa8a5bf2c84bce1374a332b2dff6288bff818bf0759138189ecaa296) := by
  decide +kernel

/-- The word of an omitted chain id is the hash of a struct that the caller declares. -/
theorem typedData_omits_chain :
    ∃ run out word separator, handleSignTypedData noteConnection openRequest = .ok openInput ∧
      signTypedData openEnv 3 openInput = .done run ∧ run.result = .ok out ∧
      SeparatorOf openEnv.toHashEnv 3 openInput.typedData [word] separator ∧
      ¬ ChainFieldsBound noteConnection.applicationDefaultChainId (fun _ => True)
        (openInput.typedData.types.fields "EIP712Domain") [word] := by
  obtain ⟨run, out, hrun, hout⟩ := exists_of_isSigned isSigned_open
  refine ⟨run, out, _, _, handleSignTypedData_open, hrun, hout,
    ⟨.cons chainWord_open .nil, rfl⟩, ?_⟩
  intro hbound
  cases hbound with
  | cons hword hnil =>
    obtain ⟨n, -, hn, hword⟩ := hword rfl trivial
    have hone : n = 1 := by
      have : (1 : Int) = n := hn
      omega
    rw [hone] at hword
    exact absurd (beWord_injective 32 hword) (by decide)

end Signare
