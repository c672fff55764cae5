import Signare.HSMConnector.Encoding
import Signare.HSMConnector.Signature

/-!
# Signing transactions

`SignTx`: the checks on the input, the transaction type that follows from the fields that are
present, and the signed transaction of either shape. The calls of a run are the requests to the
signing backend.
-/

namespace Signare

open ByteCodec

inductive ModuleKind
  | softHSM
  | akv
  | localKeyVault
  | other (name : String)
  deriving DecidableEq

structure AKVConfig where
  keyName : String
  keyVersion : String
  keyPublicAddress : String
  deriving DecidableEq

structure LocalKeyVaultConfig where
  keyStore : List (Address × String)
  deriving DecidableEq

structure SlotConfig where
  akv : List AKVConfig
  localKeyVault : Option LocalKeyVaultConfig
  deriving DecidableEq

structure SlotConnectionData where
  slot : String
  pin : String
  config : SlotConfig
  moduleKind : ModuleKind
  deriving DecidableEq

structure AuthorizationListEntry where
  address : Address
  storageKeys : List HexBytes32
  deriving DecidableEq

abbrev AuthorizationList := List AuthorizationListEntry

/-- A list that is `none` is a nil slice. -/
structure SignTxInput extends SlotConnectionData where
  fromAddress : Address
  toAddress : Option Address
  gas : Option HexUInt64
  gasPrice : Option Int
  value : Option Int
  data : HexBytes
  nonce : HexUInt64
  chainId : Int
  maxFeePerGas : Option Int
  maxPriorityFeePerGas : Option Int
  accessList : Option AccessList
  maxFeePerBlobGas : Option Int
  blobVersionedHashes : Option (List HexBytes32)
  authorizationList : Option AuthorizationList
  deriving DecidableEq

inductive TransactionType
  | legacy
  | eip2930
  | eip1559
  | eip4844
  | eip7702
  deriving DecidableEq

/-- The request to the signing backend. -/
structure SignInput where
  slot : String
  pin : String
  config : SlotConfig
  fromAddress : Address
  data : HexBytes
  deriving DecidableEq

/-- An error of the signing backend. -/
structure SignError where
  err : SignareError
  isInvalidSlot : Bool

/-- `transaction` is the zero value for an EIP-1559 transaction. -/
structure SignTxOutput where
  signedTx : String
  transaction : EthereumTransaction
  eip1559Tx : Option EIP1559Transaction

/-- Struct validation, the signing backends and the curve. -/
structure SigningEnv extends CurveEnv where
  validateSignTx : SignTxInput → Except SignareError Unit
  create : ModuleKind → Except SignareError Unit
  sign : ModuleKind → SignInput → Except SignError Bytes

def EthereumTransaction.zero : EthereumTransaction where
  fromAddress := .zeroAddress
  toAddress := none
  gas := 0
  gasPrice := 0
  value := none
  data := []
  nonce := 0
  chainId := 0
  signature := none

def identifyTxType (input : SignTxInput) : Except SignareError TransactionType :=
  if input.gasPrice.isSome then
    if input.maxFeePerGas.isSome ∨ input.maxPriorityFeePerGas.isSome ∨
        input.maxFeePerBlobGas.isSome ∨ input.blobVersionedHashes.isSome ∨
        input.authorizationList.isSome then
      .error (invalidArgument "Ambiguous transaction type")
    else if input.accessList.isSome then .ok .eip2930
    else .ok .legacy
  else if input.maxFeePerGas.isSome ∨ input.maxPriorityFeePerGas.isSome then
    if input.maxFeePerGas.isSome ∧ input.maxPriorityFeePerGas.isSome ∧ input.accessList.isSome then
      if input.maxFeePerBlobGas.isSome ∨ input.blobVersionedHashes.isSome ∨
          input.authorizationList.isSome then
        .ok .eip4844
      else .ok .eip1559
    else .error (invalidArgument "Missing mandatory field")
  else .ok .legacy

/-- The gas of `eth_signTransaction` where none is given. -/
def defaultGas : HexUInt64 := 90000

def signInput (slotData : SlotConnectionData) (fromAddress : Address) (data : HexBytes) :
    SignInput where
  slot := slotData.slot
  pin := slotData.pin
  config := slotData.config
  fromAddress := fromAddress
  data := data

def signFailure (slot : String) (signErr : SignError) : SignareError :=
  if signErr.isInvalidSlot then
    let msg := "the slot '" ++ slot ++ "' is not reachable in the HSM module"
    .wrapTyped .badGateway msg (some msg) signErr.err
  else internalFromErr signErr.err ""

/-- What `signAndRecover` and `sign` share; `failure` is the message when there is no backend. -/
def signWith (env : SigningEnv) (failure : String) (slotData : SlotConnectionData)
    (fromAddress : Address) (data : HexBytes) : Traced SignInput SignareError Bytes := do
  Traced.lift (orInternalFromErr failure (env.create slotData.moduleKind))
  let request := signInput slotData fromAddress data
  let signature ← Traced.call request
    ((env.sign slotData.moduleKind request).mapError (signFailure slotData.slot))
  Traced.lift (assembleRecoverableSignature env.toCurveEnv signature fromAddress data)

def signAndRecover (env : SigningEnv) (input : SignTxInput) (payload : HexBytes) :
    Traced SignInput SignareError Bytes :=
  signWith env "error signing transaction" input.toSlotConnectionData input.fromAddress payload

def EthereumTransaction.withSignature (tx : EthereumTransaction) (signature : EthereumSignature) :
    EthereumTransaction :=
  { tx with signature := some signature }

def EIP1559Transaction.withSignature (tx : EIP1559Transaction)
    (signature : EIP1559TransactionSignature) : EIP1559Transaction :=
  { tx with signature := some signature }

def legacyTransaction (input : SignTxInput) : EthereumTransaction where
  fromAddress := input.fromAddress
  toAddress := input.toAddress
  gas := input.gas.getD defaultGas
  gasPrice := input.gasPrice.getD 0
  value := input.value
  data := input.data
  nonce := input.nonce
  chainId := input.chainId
  signature := none

def signLegacyTx (env : SigningEnv) (input : SignTxInput) :
    Traced SignInput SignareError SignTxOutput := do
  let transaction := legacyTransaction input
  let payload ← Traced.lift (transaction.hash env.keccak)
  let signatureWithV ← signAndRecover env input payload
  let signed :=
    transaction.withSignature (generateEthereumSignature signatureWithV input.chainId)
  let transactionRLPEncode ← Traced.lift (orInternalFromErr
    "error signing transaction: failed to RLP encode transaction" (signed.rlpEncode env.keccak))
  return { signedTx := HexBytes.encode transactionRLPEncode, transaction := signed,
           eip1559Tx := none }

def eip1559Transaction (input : SignTxInput) (maxFeePerGas maxPriorityFeePerGas : Int) :
    EIP1559Transaction where
  fromAddress := input.fromAddress
  toAddress := input.toAddress
  gas := input.gas.getD defaultGas
  maxFeePerGas := maxFeePerGas
  maxPriorityFeePerGas := maxPriorityFeePerGas
  value := input.value
  data := input.data
  nonce := input.nonce
  chainId := input.chainId
  accessList := input.accessList.getD []
  signature := none

/-- The fees are dereferenced; the transaction type is only chosen where both are there. -/
def signEIP1559Tx (env : SigningEnv) (input : SignTxInput) :
    Traced SignInput SignareError SignTxOutput :=
  match input.maxFeePerGas, input.maxPriorityFeePerGas with
  | some maxFeePerGas, some maxPriorityFeePerGas => do
    let transaction := eip1559Transaction input maxFeePerGas maxPriorityFeePerGas
    let payload ← Traced.lift (transaction.hash env.keccak)
    let signatureWithV ← signAndRecover env input payload
    let signed :=
      transaction.withSignature (generateEIP1559TransactionSignature signatureWithV)
    let transactionRLPEncode ← Traced.lift (orInternalFromErr
      "error signing EIP-1559 transaction: failed to RLP encode transaction"
      (signed.rlpEncode env.keccak))
    return { signedTx := HexBytes.encode transactionRLPEncode, transaction := .zero,
             eip1559Tx := some signed }
  | _, _ => Traced.fail (.text "runtime error: invalid memory address or nil pointer dereference")

def checkSignTx (env : SigningEnv) (input : SignTxInput) : Except SignareError TransactionType := do
  (env.validateSignTx input).mapError fun err =>
    invalidArgumentFromErr err "couldn't validate input data"
  if input.fromAddress.isEmpty then
    .error (invalidArgumentReadable "field 'from' cannot be empty")
  else if input.chainId < 1 then
    .error (invalidArgumentReadable "field 'chainId' must be a positive EIP-155 value (>= 1)")
  else
    (identifyTxType input).mapError fun err =>
      invalidArgumentFromErr err "Could not determine transaction type"

def signTx (env : SigningEnv) (input : SignTxInput) :
    Traced SignInput SignareError SignTxOutput := do
  let txType ← Traced.lift (checkSignTx env input)
  match txType with
  | .legacy => signLegacyTx env input
  | .eip1559 => signEIP1559Tx env input
  | _ => Traced.fail (invalidArgumentReadable "Not supported transaction type")

end Signare
