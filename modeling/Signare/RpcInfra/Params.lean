import Signare.Entities.EncodingTypes
import Signare.Lib.JsonDecode

/-!
# Parameters of a request

The parameters of `eth_signTransaction` come as an object or as an array that holds one object. The
object is decoded into the structure; the array is decoded without a type and walked.
-/

namespace Signare

open Json

structure AccessListParamEntry where
  address : String
  storageKeys : Option (List String)
  deriving DecidableEq

/-- It has the fields of an access list entry. -/
abbrev AuthorizationListParamEntry := AccessListParamEntry

/-- A list is `none` where the slice is nil. -/
structure SignTXRequestParams where
  applicationID : String
  fromAddress : String
  toAddress : Option String
  gas : Option String
  gasPrice : Option String
  value : Option String
  data : String
  nonce : String
  chainID : Option String
  maxFeePerGas : Option String
  maxPriorityFeePerGas : Option String
  accessList : Option (List AccessListParamEntry)
  maxFeePerBlobGas : Option String
  blobVersionedHashes : Option (List String)
  authorizationList : Option (List AuthorizationListParamEntry)
  deriving DecidableEq

/-- `unmarshal` is an error of `encoding/json`. -/
inductive ParamsError
  | unmarshal
  | text (message : String)
  deriving DecidableEq

/-- An entry while it is decoded. -/
structure DecodedEntry where
  address : String := ""
  storageKeys : Option (GoSlice String) := none

def DecodedEntry.entry (decoded : DecodedEntry) : AccessListParamEntry :=
  { address := decoded.address, storageKeys := decoded.storageKeys.map GoSlice.items }

def intoEntry : Into DecodedEntry
  | .null, old => some old
  | .object members, old => do
    let address ← intoField intoString old.address "address" members
    let storageKeys ← intoField (intoSlice intoString "") old.storageKeys "storageKeys" members
    return { address, storageKeys }
  | _, _ => none

def textField (field : String) (members : List (String × Json)) : Option String :=
  intoField intoString "" field members

def pointerField (field : String) (members : List (String × Json)) : Option (Option String) :=
  intoField intoPointer none field members

def textsField (field : String) (members : List (String × Json)) :
    Option (Option (List String)) :=
  (intoField (intoSlice intoString "") none field members).map (Option.map GoSlice.items)

def entriesField (field : String) (members : List (String × Json)) :
    Option (Option (List AccessListParamEntry)) :=
  (intoField (intoSlice intoEntry {}) none field members).map
    (Option.map fun slice => slice.items.map DecodedEntry.entry)

/-- The application has no tag: a member may set it under the name of the field. -/
def unmarshalSignTX (members : List (String × Json)) : Option SignTXRequestParams := do
  return {
    applicationID := ← textField "ApplicationID" members
    fromAddress := ← textField "from" members
    toAddress := ← pointerField "to" members
    gas := ← pointerField "gas" members
    gasPrice := ← pointerField "gasPrice" members
    value := ← pointerField "value" members
    data := ← textField "data" members
    nonce := ← textField "nonce" members
    chainID := ← pointerField "chainId" members
    maxFeePerGas := ← pointerField "maxFeePerGas" members
    maxPriorityFeePerGas := ← pointerField "maxPriorityFeePerGas" members
    accessList := ← entriesField "accessList" members
    maxFeePerBlobGas := ← pointerField "maxFeePerBlobGas" members
    blobVersionedHashes := ← textsField "blobVersionedHashes" members
    authorizationList := ← entriesField "authorizationList" members }

def requiredString (field : String) (paramMap : List (String × Json)) :
    Except ParamsError String :=
  match lookup field paramMap with
  | none => .error (.text ("missing required field [" ++ field ++ "]"))
  | some (.string s) => .ok s
  | some _ => .error (.text ("[" ++ field ++ "] must be of type string"))

def optionalString (field : String) (paramMap : List (String × Json)) :
    Except ParamsError (Option String) :=
  match lookup field paramMap with
  | none => .ok none
  | some (.string s) => .ok (some s)
  | some _ => .error (.text ("[" ++ field ++ "] must be of type string"))

/-- What is said of a list that is not one. -/
structure ListTexts where
  notArray : String
  notObject : String
  noAddress : String
  addressType : String
  noStorageKeys : String
  storageKeysType : String
  keyType : String

def accessListTexts : ListTexts where
  notArray := "[accessList] must be an array"
  notObject := "[accessList] entries must be objects"
  noAddress := "[accessList] entry missing required field [address]"
  addressType := "[accessList] entry field [address] must be of type string"
  noStorageKeys := "[accessList] entry missing required field [storageKeys]"
  storageKeysType := "[accessList] entry field [storageKeys] must be an array"
  keyType := "[accessList] entry field [storageKeys] elements must be of type string"

def authorizationListTexts : ListTexts where
  notArray := "[authorizationList] must be an array"
  notObject := "[authorizationList] entries must be objects"
  noAddress := "[authorizationList] entries must contain [address]"
  addressType := "[authorizationList] entry [address] must be of type string"
  noStorageKeys := "[authorizationList] entries must contain [storageKeys]"
  storageKeysType := "[authorizationList] entry [storageKeys] must be an array"
  keyType := "[authorizationList] entry [storageKeys] elements must be of type string"

def stringItem (text : String) : Json → Except ParamsError String
  | .string s => .ok s
  | _ => .error (.text text)

def addressParam (texts : ListTexts) (entryMap : List (String × Json)) :
    Except ParamsError String :=
  match lookup "address" entryMap with
  | none => .error (.text texts.noAddress)
  | some addrParam => stringItem texts.addressType addrParam

def storageKeysParam (texts : ListTexts) (entryMap : List (String × Json)) :
    Except ParamsError (List String) :=
  match lookup "storageKeys" entryMap with
  | none => .error (.text texts.noStorageKeys)
  | some (.array keysVal) => keysVal.mapM (stringItem texts.keyType)
  | some _ => .error (.text texts.storageKeysType)

def entryParam (texts : ListTexts) : Json → Except ParamsError AccessListParamEntry
  | .object entryMap => do
    let address ← addressParam texts entryMap
    let keys ← storageKeysParam texts entryMap
    return { address, storageKeys := some keys }
  | _ => .error (.text texts.notObject)

def listParam (texts : ListTexts) (field : String) (paramMap : List (String × Json)) :
    Except ParamsError (Option (List AccessListParamEntry)) :=
  match lookup field paramMap with
  | none => .ok none
  | some (.array raw) => (raw.mapM (entryParam texts)).map some
  | some _ => .error (.text texts.notArray)

def setAccessListParam (paramMap : List (String × Json)) :
    Except ParamsError (Option (List AccessListParamEntry)) :=
  listParam accessListTexts "accessList" paramMap

def setAuthorizationListParam (paramMap : List (String × Json)) :
    Except ParamsError (Option (List AuthorizationListParamEntry)) :=
  listParam authorizationListTexts "authorizationList" paramMap

def blobVersionedHashesParam (paramMap : List (String × Json)) :
    Except ParamsError (Option (List String)) :=
  match lookup "blobVersionedHashes" paramMap with
  | none => .ok none
  | some (.array raw) =>
    (raw.mapM (stringItem "[blobVersionedHashes] entries must be of type string")).map some
  | some _ => .error (.text "[blobVersionedHashes] must be an array")

/-- Whether both fees are numbers and the priority fee is the higher one. -/
def priorityFeeExceeds (maxFeePerGas maxPriorityFeePerGas : Option String) : Bool :=
  match maxFeePerGas, maxPriorityFeePerGas with
  | some maxFeePerGas, some maxPriorityFeePerGas =>
    match newInt256FromString maxFeePerGas, newInt256FromString maxPriorityFeePerGas with
    | .ok maxFee, .ok maxPriority => maxFee < maxPriority
    | _, _ => false
  | _, _ => false

def setParamsFromMap (paramMap : List (String × Json)) :
    Except ParamsError SignTXRequestParams := do
  let fromAddress ← requiredString "from" paramMap
  let data ← requiredString "data" paramMap
  let nonce ← requiredString "nonce" paramMap
  let toAddress ← optionalString "to" paramMap
  let gas ← optionalString "gas" paramMap
  let gasPrice ← optionalString "gasPrice" paramMap
  let value ← optionalString "value" paramMap
  let chainID ← optionalString "chainId" paramMap
  let maxFeePerGas ← optionalString "maxFeePerGas" paramMap
  let maxPriorityFeePerGas ← optionalString "maxPriorityFeePerGas" paramMap
  if priorityFeeExceeds maxFeePerGas maxPriorityFeePerGas then
    throw (.text "[maxFeePerGas] must be greater than [maxPriorityFeePerGas]")
  let accessList ← setAccessListParam paramMap
  let maxFeePerBlobGas ← optionalString "maxFeePerBlobGas" paramMap
  let blobVersionedHashes ← blobVersionedHashesParam paramMap
  let authorizationList ← setAuthorizationListParam paramMap
  return {
    applicationID := "", fromAddress, toAddress, gas, gasPrice, value, data, nonce, chainID,
    maxFeePerGas, maxPriorityFeePerGas, accessList, maxFeePerBlobGas, blobVersionedHashes,
    authorizationList }

def setParamsFrom : List Json → Except ParamsError SignTXRequestParams
  | [.object paramMap] => setParamsFromMap paramMap
  | [_] => .error (.text "a single object is expected")
  | _ => .error (.text "only one object is expected")

/-- What decoding the parameters into the structure leaves. -/
def unmarshalParams : Json → Option SignTXRequestParams
  | .object members => unmarshalSignTX members
  | .null => unmarshalSignTX []
  | _ => none

def processParams (reqParams : Json) : Except ParamsError SignTXRequestParams :=
  match unmarshalParams reqParams with
  | some rpcParams => .ok rpcParams
  | none =>
    match reqParams with
    | .array posParams =>
      if allFitFloats posParams then setParamsFrom posParams else .error .unmarshal
    | _ => .error .unmarshal

def SignTXRequestParams.validateParams (p : SignTXRequestParams) : Except ParamsError Unit :=
  if p.fromAddress = "" then .error (.text "[from] cannot be nil")
  else if p.nonce = "" then .error (.text "[nonce] cannot be nil")
  else if p.gasPrice.isSome ∧ p.maxFeePerGas.isSome then
    .error (.text "cannot specify both [gasPrice] and [maxFeePerGas]")
  else .ok ()

/-- What `HandleSignTX` gives to the adapter. The application is that of the request's context. -/
def handleSignTX (applicationID : String) (reqParams : Json) :
    Except ParamsError SignTXRequestParams := do
  let reqParams ← processParams reqParams
  reqParams.validateParams
  return { reqParams with applicationID }

end Signare
