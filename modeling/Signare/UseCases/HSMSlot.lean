import Signare.UseCases.Resources
import Mathlib.Data.List.AList

/-!
# HSM slots

A slot belongs to an application and an HSM module and holds the configuration of its keys, stored
as a JSON document. The local keys of a slot are read, changed in memory and written back as a
whole.
-/

namespace Signare

open ByteCodec

namespace HSMSlot

structure AKVConfig where
  keyName : String
  keyVersion : String
  keyPublicAddress : String
  deriving DecidableEq

/-- The stored addresses with their private keys. -/
abbrev KeyStore := AList fun _ : Address => String

structure SlotConfig where
  akv : List AKVConfig
  localKeyVault : Option KeyStore

/-- `map[string]string`. -/
abbrev StringMap := AList fun _ : String => String

structure SlotConfigDB where
  akv : List AKVConfig
  localKeyVault : Option StringMap

def mapToSlotConfigDB (keccak : Hash256) (slotConfig : SlotConfig) : SlotConfigDB where
  akv := slotConfig.akv
  localKeyVault := slotConfig.localKeyVault.map fun keyStore =>
    keyStore.entries.foldl
      (fun stored entry => stored.insert (entry.1.string keccak) entry.2) ∅

def mapFromKeyStoreDB (stored : StringMap) : Except SignareError KeyStore :=
  stored.entries.foldlM (fun keyStore entry => do
    let addr ← Address.newFromHexString entry.1
    return keyStore.insert addr entry.2) ∅

def mapFromSlotConfigDB (slotConfigDB : SlotConfigDB) : Except SignareError SlotConfig :=
  match slotConfigDB.localKeyVault with
  | none => .ok ⟨slotConfigDB.akv, none⟩
  | some stored => do
    let keyStore ← mapFromKeyStoreDB stored
    return ⟨slotConfigDB.akv, some keyStore⟩

def marshalAKVConfig (config : AKVConfig) : Json :=
  .object [("keyName", .string config.keyName), ("keyVersion", .string config.keyVersion),
    ("keyPublicAddress", .string config.keyPublicAddress)]

/-- Keys are written in order. -/
def marshalStringMap (m : StringMap) : Json :=
  .object ((m.entries.mergeSort fun a b => a.1 ≤ b.1).map fun entry => (entry.1, .string entry.2))

/-- `json.Marshal`, with `omitempty` on both fields. -/
def marshalSlotConfigDB (config : SlotConfigDB) : Json :=
  .object
    ((if config.akv = [] then [] else [("akv", .array (config.akv.map marshalAKVConfig))]) ++
      match config.localKeyVault with
      | none => []
      | some stored => [("localKeyVault", .object [("keyStore", marshalStringMap stored)])])

def unmarshalTypeError : SignareError := .text "json: cannot unmarshal value into Go value"

def unmarshalString (old : String) : Json → Except SignareError String
  | .null => .ok old
  | .string s => .ok s
  | _ => .error unmarshalTypeError

def unmarshalAKVConfig : Json → Except SignareError AKVConfig
  | .null => .ok ⟨"", "", ""⟩
  | .object members => members.foldlM (fun config member => do
      if Json.namesField "keyName" member.1 then
        return { config with keyName := ← unmarshalString config.keyName member.2 }
      else if Json.namesField "keyVersion" member.1 then
        return { config with keyVersion := ← unmarshalString config.keyVersion member.2 }
      else if Json.namesField "keyPublicAddress" member.1 then
        return { config with
          keyPublicAddress := ← unmarshalString config.keyPublicAddress member.2 }
      else return config) ⟨"", "", ""⟩
  | _ => .error unmarshalTypeError

/-- Into a map: members are added to those that are there. -/
def unmarshalStringMap (old : StringMap) : Json → Except SignareError StringMap
  | .null => .ok ∅
  | .object members => members.foldlM (fun stored member => do
      return stored.insert member.1 (← unmarshalString "" member.2)) old
  | _ => .error unmarshalTypeError

def unmarshalLocalKeyVault (old : Option StringMap) : Json → Except SignareError (Option StringMap)
  | .null => .ok none
  | .object members => do
    let stored ← members.foldlM (fun stored member =>
      if Json.namesField "keyStore" member.1 then unmarshalStringMap stored member.2
      else .ok stored) (old.getD ∅)
    return some stored
  | _ => .error unmarshalTypeError

def unmarshalAKV : Json → Except SignareError (List AKVConfig)
  | .null => .ok []
  | .array items => items.mapM unmarshalAKVConfig
  | _ => .error unmarshalTypeError

/-- `json.Unmarshal`. -/
def unmarshalSlotConfigDB : Json → Except SignareError SlotConfigDB
  | .null => .ok ⟨[], none⟩
  | .object members => members.foldlM (fun config member => do
      if Json.namesField "akv" member.1 then
        return { config with akv := ← unmarshalAKV member.2 }
      else if Json.namesField "localKeyVault" member.1 then
        return { config with
          localKeyVault := ← unmarshalLocalKeyVault config.localKeyVault member.2 }
      else return config) ⟨[], none⟩
  | _ => .error unmarshalTypeError

end HSMSlot

/-- `hsmslot.HSMSlot`. -/
structure HSMSlot where
  id : String
  internalResourceId : String
  applicationId : String
  hsmModuleId : String
  slot : String
  pin : String
  config : HSMSlot.SlotConfig
  resourceVersion : String

namespace HSMSlotDB

def serialize (keccak : Hash256) (config : HSMSlot.SlotConfig) : Json :=
  HSMSlot.marshalSlotConfigDB (HSMSlot.mapToSlotConfigDB keccak config)

def deserialize (configuration : Json) : Except SignareError HSMSlot.SlotConfig := do
  HSMSlot.mapFromSlotConfigDB (← HSMSlot.unmarshalSlotConfigDB configuration)

def mapToCreateDB (keccak : Hash256) (slot : HSMSlot) : Except SignareError HSMSlotRow := do
  notEmpty "'ID'" slot.id
  notEmpty "'InternalResourceID'" slot.internalResourceId
  notEmpty "'ApplicationID'" slot.applicationId
  notEmpty "'HSMModuleID'" slot.hsmModuleId
  return ⟨slot.id, slot.internalResourceId, slot.hsmModuleId, slot.applicationId, slot.slot,
    slot.pin, serialize keccak slot.config, ""⟩

def mapFromDB (db : HSMSlotRow) : Except SignareError HSMSlot := do
  notEmpty "'InternalResourceID'" db.internalResourceId
  let config ← deserialize db.configuration
  return ⟨db.id, db.internalResourceId, db.applicationId, db.hsmModuleId, db.slot, db.pin, config,
    db.resourceVersion⟩

end HSMSlotDB

def hsmSlotGet (id : String) : UseCase HSMSlot :=
  repositoryGet .hsmSlot "'hsm_slot'" HSMSlotDB.mapFromDB id

def hsmSlotGetByApplication (applicationId : String) : UseCase HSMSlot := do
  match ← execute (.list .hsmSlot (fun row : HSMSlotRow => row.applicationId = applicationId)
    none) with
  | [] => Program.fail (notFound "resource 'hsm_slot' does not exist")
  | [row] => Program.lift (HSMSlotDB.mapFromDB row)
  | _ => Program.fail (internal "unexpected number of results when obtaining 'hsm_slot'")

def assignPin (pin newResourceVersion : String) (row : HSMSlotRow) : HSMSlotRow :=
  { row with pin, resourceVersion := newResourceVersion }

def assignConfig (configuration : Json) (newResourceVersion : String) (row : HSMSlotRow) :
    HSMSlotRow :=
  { row with configuration, resourceVersion := newResourceVersion }

def hsmSlotEditPin (id resourceVersion pin : String) : UseCase HSMSlot := do
  Program.lift ((do notEmpty "'ID'" id; notEmpty "'Pin'" pin : Except SignareError Unit).mapError
    asInternal)
  repositoryEdit .hsmSlot "'hsm_slot'" HSMSlotDB.mapFromDB id resourceVersion (assignPin pin)

def hsmSlotEditConfig (keccak : Hash256) (slot : HSMSlot) : UseCase HSMSlot := do
  Program.lift ((notEmpty "'ID'" slot.id).mapError asInternal)
  repositoryEdit .hsmSlot "'hsm_slot'" HSMSlotDB.mapFromDB slot.id slot.resourceVersion
    (assignConfig (HSMSlotDB.serialize keccak slot.config))

def getHSMSlot (id : String) : UseCase HSMSlot := do
  validateStruct (validID id) couldNotValidate
  (hsmSlotGet id).orElse (onNotFound (notFoundFromErr · ("hsm slot [" ++ id ++ "] not found")))

def getHSMSlotByApplication (applicationId : String) : UseCase HSMSlot := do
  validateStruct (validID applicationId) couldNotValidate
  (hsmSlotGetByApplication applicationId).orElse
    (onNotFound (notFoundFromErr ·
      ("hsm slot not found for application [" ++ applicationId ++ "] not found")))

structure CreateHSMSlotInput where
  id : Option String
  applicationId : String
  hsmModuleId : String
  slot : String
  pin : String
  config : HSMSlot.SlotConfig

def CreateHSMSlotInput.valid (input : CreateHSMSlotInput) : Bool :=
  input.applicationId ≠ "" && input.hsmModuleId ≠ "" &&
    input.config.akv.all fun akv =>
      akv.keyName ≠ "" && akv.keyVersion ≠ "" && akv.keyPublicAddress ≠ ""

def addApplicationDependency (data : HSMSlot) : UseCase Unit := do
  let application ← (getApplication data.applicationId).orElse (replaceNotFound fun _ =>
    preconditionFailed ("can't create HSM slot becauase application '" ++ data.applicationId ++
      "' does not exist"))
  addDependency data.internalResourceId .hsmSlot application.internalResourceId .application

def addHSMModuleDependency (ctx : TxContext) (data : HSMSlot) : UseCase Unit := do
  let hsmModule ← (getHSMModule ctx data.hsmModuleId).orElse (replaceNotFound fun _ =>
    preconditionFailed ("can't create HSM slot becauase HSM module '" ++ data.hsmModuleId ++
      "' does not exist"))
  addDependency data.internalResourceId .hsmSlot hsmModule.internalResourceId .hsmModule

def createSlot (keccak : Hash256) (ctx : TxContext) (input : CreateHSMSlotInput) :
    UseCase HSMSlot := do
  let id ← orRandomID input.id
  let internalResourceId ← newUUID
  let hsmSlot : HSMSlot := ⟨id, internalResourceId, input.applicationId, input.hsmModuleId,
    input.slot, input.pin, input.config, ""⟩
  addApplicationDependency hsmSlot
  addHSMModuleDependency ctx hsmSlot
  Program.orElse
      (onAlreadyExists (alreadyExistsReadableFromErr ·
        ("hsm slot [" ++ id ++ "] already exists"))) do
    let db ← Program.lift ((HSMSlotDB.mapToCreateDB keccak hsmSlot).mapError asInternal)
    let resourceVersion ← newUUID
    repositoryAdd .hsmSlot HSMSlotDB.mapFromDB { db with resourceVersion }

def resetModule (kind : HSMModuleKind) : UseCase Unit := do
  match ← Program.request (Effect.hsm (.reset kind)) with
  | .error err => Program.fail err
  | .ok _ => return ()

/-- `IsAlive`, with what is said where the slot is not. -/
def requireAlive (slot pin : String) (kind : HSMModuleKind) (msg : String) : UseCase Unit := do
  match ← Program.request (Effect.hsm (.isAlive slot pin kind)) with
  | .error err => Program.fail (if isPreconditionFailed err then err else asInternal err)
  | .ok true => return ()
  | .ok false => Program.fail (preconditionFailed msg)

def createHSMSlotUndecorated (keccak : Hash256) (ctx : TxContext) (input : CreateHSMSlotInput) :
    UseCase HSMSlot := do
  validateStruct input.valid couldNotValidate
  let hsmModule ← (getHSMModule ctx input.hsmModuleId).orElse (onNotFound
    (preconditionFailedFromErr · ("slot '" ++ input.slot ++ "' in HSM '" ++ input.hsmModuleId ++
      "' is not reachable")))
  if hsmModule.kind = .softHSM then
    resetModule hsmModule.kind
    requireAlive input.slot input.pin hsmModule.kind
      ("slot " ++ input.slot ++ " is not reachable in the HSM module '" ++ input.hsmModuleId ++ "'")
  (createSlot keccak ctx input).orElse fun err =>
    if isAlreadyExists err then alreadyExistsFromErr err
    else if isPreconditionFailed err then err
    else asInternal err

def createHSMSlot (keccak : Hash256) (ctx : TxContext) (input : CreateHSMSlotInput) :
    UseCase HSMSlot :=
  executeUseCaseInTransaction ctx (createHSMSlotUndecorated keccak .inTransaction input)

/-- The module that a slot is assigned to. -/
def getHSMModuleOfSlot (ctx : TxContext) (hsmModuleId : String) : UseCase HSMModuleRow :=
  (getHSMModule ctx hsmModuleId).orElse (onNotFound (preconditionFailedFromErr ·
    ("HSM '" ++ hsmModuleId ++ "' assigned to this slot does not exist")))

structure EditPinInput where
  id : String
  resourceVersion : String
  pin : String
  hsmModuleId : String

def EditPinInput.valid (input : EditPinInput) : Bool :=
  validID input.id && input.resourceVersion ≠ "" && input.pin ≠ "" && input.hsmModuleId ≠ ""

def editPin (ctx : TxContext) (input : EditPinInput) : UseCase HSMSlot :=
  executeUseCaseInTransaction ctx do
    validateStruct input.valid couldNotValidate
    let hsmSlot ← getHSMSlot input.id
    require (hsmSlot.hsmModuleId = input.hsmModuleId) (notFoundReadable
      ("slot doesn't exist in the HSM module '" ++ input.hsmModuleId ++ "'"))
    let hsmModule ← getHSMModuleOfSlot .inTransaction hsmSlot.hsmModuleId
    requireAlive hsmSlot.slot input.pin hsmModule.kind
      ("slot " ++ hsmSlot.slot ++ " is not reachable in the HSM module '" ++ hsmModule.id ++
        "', the new 'Pin' might be incorrect")
    (hsmSlotEditPin input.id input.resourceVersion input.pin).orElse
      (onNotFound (notFoundFromErr · ("hsm slot [" ++ input.id ++ "] not found")))

def removeAllHSMSlotDependencies (id : String) : UseCase Unit := do
  let hsmSlot ← getHSMSlot id
  removeDependencies hsmSlot.internalResourceId .hsmSlot ("HSM slot '" ++ id ++ "'")

def deleteHSMSlot (ctx : TxContext) (id : String) : UseCase HSMSlot :=
  executeUseCaseInTransaction ctx do
    validateStruct (validID id) couldNotValidate
    removeAllHSMSlotDependencies id
    (repositoryRemove .hsmSlot "'hsm_slot'" HSMSlotDB.mapFromDB id).orElse
      (onNotFound (notFoundFromErr · ("hsm slot [" ++ id ++ "] not found")))

/-- The slot, which must be in a module of local keys. `verb` is what is to be done. -/
def getLocalKeySlot (id verb : String) : UseCase HSMSlot := do
  let storedSlot ← getHSMSlot id
  let storedHSM ← getHSMModuleOfSlot .background storedSlot.hsmModuleId
  if storedHSM.kind ≠ .lkv then
    Program.fail (preconditionFailed ("cannot " ++ verb ++ ": configured HSM '" ++ storedHSM.id ++
      "' is not of kind LocalKeyVault"))
  else return storedSlot

def HSMSlot.keyStore (slot : HSMSlot) : HSMSlot.KeyStore := slot.config.localKeyVault.getD ∅

def HSMSlot.withKeyStore (slot : HSMSlot) (keyStore : HSMSlot.KeyStore) : HSMSlot :=
  { slot with config := { slot.config with localKeyVault := some keyStore } }

structure AddLocalKeyInput where
  id : String
  privateKey : HexBytes
  address : Address

def AddLocalKeyInput.valid (input : AddLocalKeyInput) : Bool :=
  validID input.id && !input.privateKey.isEmpty && !input.address.isEmpty

/-- `strings.TrimPrefix(privateKey.String(), "0x")`. -/
def privateKeyText (privateKey : HexBytes) : String :=
  let text := privateKey.encode.toList
  String.ofList (if "0x".toList.isPrefixOf text then text.drop 2 else text)

def addLocalKey (keccak : Hash256) (input : AddLocalKeyInput) : UseCase Unit := do
  validateStruct input.valid couldNotValidate
  let storedSlot ← getLocalKeySlot input.id "add local key"
  if input.address ∈ storedSlot.keyStore then
    Program.fail (.typed .alreadyExists ("address [" ++ input.address.string keccak ++
      "] already exists in local key vault for slot [" ++ storedSlot.id ++ "]") none)
  else
    let keyStore := storedSlot.keyStore.insert input.address (privateKeyText input.privateKey)
    let _ ← (hsmSlotEditConfig keccak (storedSlot.withKeyStore keyStore)).orElse
      (onNotFound (notFoundFromErr · ("hsm slot [" ++ input.id ++ "] not found")))
    return ()

def removeLocalKey (keccak : Hash256) (id : String) (address : Address) : UseCase Unit := do
  validateStruct (validID id && !address.isEmpty) couldNotValidate
  let storedSlot ← getLocalKeySlot id "remove local key"
  if address ∉ storedSlot.keyStore then
    Program.fail (notFound ("address [" ++ address.string keccak ++
      "] not found in local key vault for slot [" ++ storedSlot.id ++ "]"))
  else
    let _ ← (hsmSlotEditConfig keccak
      (storedSlot.withKeyStore (storedSlot.keyStore.erase address))).orElse
      (onNotFound (notFoundFromErr · ("hsm slot [" ++ id ++ "] not found")))
    return ()

def listLocalKeys (id : String) : UseCase (List Address) := do
  validateStruct (validID id) couldNotValidate
  let storedSlot ← getLocalKeySlot id "list local keys"
  return storedSlot.keyStore.keys

end Signare
