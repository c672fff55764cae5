import Signare.Lib.JsonEncode
import Signare.Middleware.RequestContext
import Signare.RpcInfra.ChainBinding

/-!
# Requests and batches

The way of a JSON-RPC request from the entrypoint to its handler. The fan-out, the definition of
the action, the check of the account and the router decode the body each on their own; a batch is
decoded once more before, and its elements are encoded anew.
-/

namespace Signare

open Json

/-- The parameters are the raw text, or nil. -/
structure RPCRequest where
  rpcVersion : String := ""
  id : Json := .null
  method : String := ""
  params : Option JsonText := none

/-- Into a field without a type. -/
def intoAny : Into Json := fun json _ => if fitsFloats json then some json else none

/-- Into a raw message: a `null` is kept. -/
def rawField (field : String) (members : List (String × JsonText)) : Option JsonText :=
  (JsonText.named field members).getLast?

def unmarshalRPCRequest : JsonText → Option RPCRequest
  | .null => some {}
  | .object members => do
    let values := JsonText.memberValues members
    let rpcVersion ← intoField intoString "" "jsonrpc" values
    let id ← intoField intoAny .null "id" values
    let method ← intoField intoString "" "method" values
    return { rpcVersion, id, method, params := rawField "params" members }
  | _ => none

/-- The body as the policy enforcement point of accounts decodes it. -/
structure AuthorizeAccountRPCBody where
  method : String
  id : Json
  params : Option JsonText

def unmarshalAuthorizeAccountRPCBody : JsonText → Option AuthorizeAccountRPCBody
  | .null => some ⟨"", .null, none⟩
  | .object members => do
    let values := JsonText.memberValues members
    let method ← intoField intoString "" "method" values
    let id ← intoField intoAny .null "id" values
    return { method, id, params := rawField "params" members }
  | _ => none

def generateAccountMethod : String := "eth_generateAccount"
def importAccountMethod : String := "eth_importAccount"
def removeAccountMethod : String := "eth_removeAccount"
def listAccountsMethod : String := "eth_accounts"
def signTransactionMethod : String := "eth_signTransaction"
def signTypedDataMethod : String := "eth_signTypedData"

/-- Decoding a nil message fails, and so does the second attempt. -/
def processRaw {ε α : Type} (refused : ε) (process : JsonText → Except ε α) :
    Option JsonText → Except ε α
  | none => .error refused
  | some raw => process raw

/-- The parameters that are one text: `ImportAccountRequestParams`, `RemoveAccountRequestParams`. -/
def unmarshalTextParam (field : String) : Json → Option String
  | .null => some ""
  | .object members => do
    let _ ← textField "ApplicationID" members
    textField field members
  | _ => none

def textParamFrom (field : String) : List Json → Except ParamsError String
  | [.object paramMap] => requiredString field paramMap
  | [_] => .error (.text "a single object is expected")
  | _ => .error (.text "only one object is expected")

def processTextParam (field : String) (params : JsonText) : Except ParamsError String :=
  match unmarshalTextParam field params.value with
  | some text => .ok text
  | none =>
    match params.value with
    | .array posParams =>
      if allFitFloats posParams then textParamFrom field posParams else .error .unmarshal
    | _ => .error .unmarshal

/-- `ProcessParams` and `ValidateParams`. -/
def requireTextParam (field : String) (params : JsonText) : Except ParamsError String := do
  let text ← processTextParam field params
  if text = "" then .error (.text ("[" ++ field ++ "] cannot be nil")) else return text

def privateKeyParam : JsonText → Except ParamsError String := requireTextParam "privateKey"

def removedAddressParam : JsonText → Except ParamsError String := requireTextParam "address"

/-- What the input adapters do to the state, for an application and decoded parameters. -/
structure RPCAdapter (W : Type) where
  generateAccount : String → W → W
  importAccount : String → String → W → W
  removeAccount : String → String → W → W
  listAccounts : String → W → W
  signTx : SignTXRequestParams → W → W
  signTypedData : String → SignTypedDataRequestParams → W → W

variable {W : Type}

/-- With parameters that are refused nothing is done. -/
def unlessRefused {ε α : Type} (params : Except ε α) (act : α → W → W) (w : W) : W :=
  match params with
  | .error _ => w
  | .ok p => act p w

namespace RPCAdapter

variable (adapter : RPCAdapter W) (application : String) (r : RPCRequest)

def handleGenerateAccount : W → W := adapter.generateAccount application

def handleImportAccount : W → W :=
  unlessRefused (processRaw .unmarshal privateKeyParam r.params)
    (adapter.importAccount application)

def handleRemoveAccount : W → W :=
  unlessRefused (processRaw .unmarshal removedAddressParam r.params)
    (adapter.removeAccount application)

def handleListAccounts : W → W := adapter.listAccounts application

def handleSignTX : W → W :=
  unlessRefused
    (processRaw .unmarshal (fun raw => Signare.handleSignTX application raw.value) r.params)
    adapter.signTx

def handleSignTypedData : W → W :=
  unlessRefused (processRaw (.params .unmarshal) signTypedDataParams r.params)
    (adapter.signTypedData application)

/-- The handlers by method. -/
def rpcHandler (method : String) : Option (RPCRequest → W → W) :=
  if method = generateAccountMethod then some fun _ => adapter.handleGenerateAccount application
  else if method = importAccountMethod then some (adapter.handleImportAccount application)
  else if method = removeAccountMethod then some (adapter.handleRemoveAccount application)
  else if method = listAccountsMethod then some fun _ => adapter.handleListAccounts application
  else if method = signTransactionMethod then some (adapter.handleSignTX application)
  else if method = signTypedDataMethod then some (adapter.handleSignTypedData application)
  else none

end RPCAdapter

/-- What comes in. The length is in bytes, and counts white space, which the text is without. -/
structure Body where
  text : JsonText
  length : Nat

/-- The elements between brackets and commas, with some white space. -/
def Body.batch (elements : List Body) (spacing : Nat) : Body where
  text := .array (elements.map Body.text)
  length := (elements.map Body.length).sum + (elements.length - 1) + 2 + spacing

/-- The decisions on users and accounts, what handlers do, how floats are printed, and how long a
body may be. -/
structure Gateway (W : Type) where
  authorizeUser : W → (user application action : String) → Bool
  authorizeAccountUser : W → (user application : String) → Address → Bool
  adapter : RPCAdapter W
  printFloat : String → String
  printFloat_fits : ∀ literal, fitsFloat64 literal → fitsFloat64 (printFloat literal)
  maxBodyBytes : Int

/-- A handler that was invoked, what it was given and what was authorized before. Absent parameters
are recorded as `null`. -/
structure Invocation where
  method : String
  params : Json
  action : String
  account : Option Address

def supportedRPCVersion : String := "2.0"

/-- The name of the only route. -/
def rpcRoute : String := "rpc.method"

variable (g : Gateway W) (headers : RequestHeaders)

/-- A method that is not registered does not become part of the action. -/
def defineAction (body : JsonText) : Option String := do
  let rpcRequest ← unmarshalRPCRequest body
  if rpcRequest.rpcVersion ≠ supportedRPCVersion then none
  else if (g.adapter.rpcHandler headers.definedApplication rpcRequest.method).isSome then
    some (rpcRoute ++ "." ++ rpcRequest.method)
  else some rpcRoute

/-- The account of a request whose parameters may be nil. -/
def bodyAddress (usesAddressParam : Bool) (params : Option JsonText) : Option Address := do
  let raw ← params
  (getAddressFromParamsArray raw.value usesAddressParam).orElse fun _ =>
    getAddressFromParamsObject raw.value usesAddressParam

/-- `AuthorizeAccount`: nothing if the request is rejected, else the account that was checked, if
one was. -/
def authorizeAccount (action : String) (body : JsonText) (w : W) : Option (Option Address) :=
  match accountSigningField action with
  | none => some none
  | some usesAddressParam => do
    let authorizeAccountRPCBody ← unmarshalAuthorizeAccountRPCBody body
    let addr ← bodyAddress usesAddressParam authorizeAccountRPCBody.params
    if g.authorizeAccountUser w headers.definedUser headers.definedApplication addr then
      some (some addr)
    else none

def handleRPCRequest (action : String) (account : Option Address) (body : JsonText) (w : W) :
    W × List Invocation :=
  match unmarshalRPCRequest body with
  | none => (w, [])
  | some rpcRequest =>
    match g.adapter.rpcHandler headers.definedApplication rpcRequest.method with
    | none => (w, [])
    | some handler =>
      (handler rpcRequest w, [{
        method := rpcRequest.method
        params := (rpcRequest.params.map JsonText.value).getD .null
        action
        account }])

/-- What comes after the fan-out, up to the handler. The one route has no path parameter, so the
application is not compared with the path. -/
def serveNext (body : JsonText) (w : W) : W × List Invocation :=
  match defineAction g headers body with
  | none => (w, [])
  | some action =>
    if headers.definedUser = "" then (w, [])
    else if ¬ g.authorizeUser w headers.definedUser headers.definedApplication action then (w, [])
    else
      match authorizeAccount g headers action body w with
      | none => (w, [])
      | some account => handleRPCRequest g headers action account body w

end Signare
