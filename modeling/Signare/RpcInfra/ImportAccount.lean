import Signare.SignatureManager.LocalKeyVault

/-!
# Importing an account

`eth_importAccount`: the private key is parsed, the slot of the application is looked up, and the
key is added to it under the address that is derived from it. The errors of the use cases become
JSON-RPC errors.
-/

namespace Signare

open ByteCodec

inductive RPCErrorCode
  | parse
  | invalidRequest
  | methodNotFound
  | invalidParams
  | internal
  | badGateway
  | alreadyExists
  | unauthorized
  | notFound
  | preconditionFailed
  deriving DecidableEq

/-- `rpcerrors.RPCError`, of which the message goes with the code. -/
structure AdapterError where
  code : RPCErrorCode
  wrappedErr : Option SignareError

def adaptError (err : SignareError) : AdapterError :=
  if isInvalidArgument err then ⟨.invalidParams, err⟩
  else if isNotFound err then ⟨.notFound, err⟩
  else if isPreconditionFailed err then ⟨.preconditionFailed, err⟩
  else if isBadGateway err then ⟨.badGateway, err⟩
  else if isAlreadyExists err then ⟨.alreadyExists, err⟩
  else ⟨.internal, err⟩

/-- `DeriveAddressFromPrivateKey` of the connector, where `create` is the factory of the managers.
Only the manager of local keys derives addresses. -/
def deriveAddressFromPrivateKey (keccak : Hash256) (curve : LKVSignatureManager.Curve)
    (create : HSMModuleKind → Except SignareError Unit) (moduleKind : HSMModuleKind)
    (privateKey : HexBytes) : Except SignareError Address := do
  orInternalFromErr "error creating digital signature manager" (create moduleKind)
  match moduleKind with
  | .lkv =>
    (LKVSignatureManager.deriveAddressFromPrivateKey keccak curve privateKey).mapError fun err =>
      match err with
      | .invalidArgument description =>
        .wrapTyped .invalidArgument "error generating address from private key" none
          (.text ("invalid argument: " ++ description))
      | .passedOn err => internalFromErr err "error generating address from private key"
  | _ =>
    .error (internalFromErr (.text "not implemented") "error generating address from private key")

theorem deriveAddressFromPrivateKey_eq_ok {keccak : Hash256} {curve : LKVSignatureManager.Curve}
    {create : HSMModuleKind → Except SignareError Unit} {moduleKind : HSMModuleKind}
    {privateKey : HexBytes} {address : Address}
    (h : deriveAddressFromPrivateKey keccak curve create moduleKind privateKey = .ok address) :
    LKVSignatureManager.deriveAddressFromPrivateKey keccak curve privateKey = .ok address := by
  obtain ⟨_, -, h⟩ := Except.bind_eq_ok.mp h
  cases moduleKind with
  | lkv => exact Except.mapError_eq_ok.mp h
  | softHSM => cases h
  | akv => cases h

structure ImportAccountRequestParams where
  applicationId : String
  privateKey : String

/-- The key is added to the slot, and the address is what is answered. -/
def importPrivateKey (keccak : Hash256) (curve : LKVSignatureManager.Curve)
    (create : HSMModuleKind → Except SignareError Unit) (applicationId : String)
    (privateKey : HexBytes) : UseCase String := do
  let hsmConnection ← byApplication applicationId
  let address ← Program.lift
    (deriveAddressFromPrivateKey keccak curve create hsmConnection.moduleKind privateKey)
  addLocalKey keccak ⟨hsmConnection.slot.id, privateKey, address⟩
  return address.string keccak

def adaptImportAccount (keccak : Hash256) (curve : LKVSignatureManager.Curve)
    (create : HSMModuleKind → Except SignareError Unit) (data : ImportAccountRequestParams) :
    UseCase (Except AdapterError String) :=
  if data.privateKey = "" then return .error ⟨.invalidRequest, none⟩
  else
    match newHexBytesFromString data.privateKey with
    | .error err => return .error ⟨.invalidParams, err⟩
    | .ok privateKey => do
      let result ←
        (importPrivateKey keccak curve create data.applicationId privateKey).attempt
      return result.mapError adaptError

end Signare
