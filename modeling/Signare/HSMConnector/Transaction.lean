import Signare.Entities.Address

/-!
# Transactions

Legacy and EIP-1559 transactions with their two encoders: the bytes `Hash` hands to Keccak-256 and
the signed form `RLPEncode` emits. Each is the encoding of a list of RLP items.
-/

namespace Signare

open ByteCodec

structure EthereumSignature where
  v : Int
  r : Int
  s : Int
  deriving DecidableEq

structure EthereumTransaction where
  fromAddress : Address
  toAddress : Option Address
  gas : HexUInt64
  gasPrice : Int
  value : Option Int
  data : HexBytes
  nonce : HexUInt64
  chainId : Int
  signature : Option EthereumSignature
  deriving DecidableEq

/-- Storage keys accessed at an address. -/
structure AccessListEntry where
  address : Address
  storageKeys : List HexBytes32
  deriving DecidableEq

abbrev AccessList := List AccessListEntry

/-- `yParity` is 0 or 1, not the EIP-155 value. -/
structure EIP1559TransactionSignature where
  yParity : Int
  r : Int
  s : Int
  deriving DecidableEq

structure EIP1559Transaction where
  fromAddress : Address
  toAddress : Option Address
  gas : HexUInt64
  maxFeePerGas : Int
  maxPriorityFeePerGas : Int
  value : Option Int
  data : HexBytes
  nonce : HexUInt64
  chainId : Int
  accessList : AccessList
  signature : Option EIP1559TransactionSignature
  deriving DecidableEq

def eip1559TypePrefix : UInt8 := 0x02

def nonceBytes (nonce : HexUInt64) : Except SignareError Bytes :=
  (orInternal "could not convert 'nonce' to hex bytes"
    (newHexBytesFromString (hexStringEvenLength nonce.encode))).map
      fun nonceHex => if nonce.toNat = 0 then [] else nonceHex

/-- Unlike a zero nonce, zero gas stays one zero byte. -/
def gasBytes (gas : HexUInt64) : Except SignareError Bytes :=
  orInternal "could not convert 'gas' to hex bytes"
    (newHexBytesFromString (hexStringEvenLength gas.encode))

def toBytes (keccak : Hash256) : Option Address → Except SignareError Bytes
  | none => .ok []
  | some toAddress =>
    orInternal "could not convert 'to' to hex bytes"
      (newHexBytesFromString (toAddress.string keccak))

def dataBytes (data : HexBytes) : Except SignareError Bytes :=
  if 0 < data.length then
    orInternal "could not convert 'data' to hex bytes" (newHexBytesFromString data.encode)
  else .ok []

def chainIdBytes (chainId : Int) : Except SignareError Bytes :=
  orInternalFromErr "failed to calculate the HexBytes from chain ID"
    (newHexBytesFromString (hexStringEvenLength (HexInt256.encode chainId)))

/-- A zero is left as a nil pointer. -/
def nonZero (value : Int) : Option Int := if value ≠ 0 then some value else none

/-- `rlp.Encode`, with its error wrapped under a message. -/
def encodeOr (message : String) (dataToEncode : List RlpInput) : Except SignareError Bytes :=
  orInternalFromErr message ((rlpEncode (.list dataToEncode)).mapError .rlp)

namespace EthereumTransaction

/-- The loop that looks for the element that fails. -/
def encodeEach : List RlpInput → Except SignareError Unit
  | [] => .ok ()
  | elem :: rest =>
    match rlpEncode elem with
    | .error err => .error (.rlp err)
    | .ok _ => encodeEach rest

/-- `RLPEncode`. -/
def rlpEncode (keccak : Hash256) (tx : EthereumTransaction) : Except SignareError HexBytes := do
  match tx.signature with
  | none => .error (internal "tx doesn't have a signature so it can't be RLP encoded")
  | some signature =>
    let nonce ← nonceBytes tx.nonce
    let gasPrice := nonZero tx.gasPrice
    let gas ← gasBytes tx.gas
    let recipient ← toBytes keccak tx.toAddress
    let value := tx.value.bind nonZero
    let data ← dataBytes tx.data
    let dataToEncode : List RlpInput :=
      [.bytesPointer (some nonce), .bigInt gasPrice, .bytes gas, .bytes recipient, .bigInt value,
        .bytes data, .bigInt (some signature.v), .bigInt (some signature.r),
        .bigInt (some signature.s)]
    encodeEach dataToEncode
    encodeOr "failed to RLP encode the payload to sign" dataToEncode

/-- The bytes `Hash` hands to Keccak-256. -/
def preimage (keccak : Hash256) (tx : EthereumTransaction) : Except SignareError Bytes := do
  let nonce ← nonceBytes tx.nonce
  let gasPrice := nonZero tx.gasPrice
  let gas ← gasBytes tx.gas
  let recipient ← toBytes keccak tx.toAddress
  let value := tx.value.bind nonZero
  let data ← dataBytes tx.data
  let chainId ← chainIdBytes tx.chainId
  encodeOr "failed to RLP encode the payload to sign"
    [.bytesPointer (some nonce), .bigInt gasPrice, .bytes gas, .bytes recipient, .bigInt value,
      .bytes data, .bytes chainId, .uint 0, .uint 0]

/-- `Hash`. -/
def hash (keccak : Hash256) (tx : EthereumTransaction) : Except SignareError HexBytes :=
  (tx.preimage keccak).map keccak.sum

end EthereumTransaction

/-- The address conversion never fails; the source gives up with a nil list. -/
def accessListToRLPInterface (keccak : Hash256) (accessList : AccessList) : List RlpInput :=
  let entries := accessList.mapM fun entry =>
    (newHexBytesFromString (entry.address.string keccak)).map fun addrBytes =>
      RlpInput.list [.bytes addrBytes, .list (entry.storageKeys.map fun key => .bytes key.bytes)]
  match entries with
  | .error _ => []
  | .ok result => result

structure CommonFields where
  nonceBytes : Bytes
  gasBytes : Bytes
  toBytes : Bytes
  value : Option Int
  data : Bytes

def prepareCommonFields (keccak : Hash256) (nonce gas : HexUInt64) (toAddress : Option Address)
    (value : Option Int) (txData : HexBytes) : Except SignareError CommonFields := do
  let nonceBytes ← nonceBytes nonce
  let gasBytes ← gasBytes gas
  let toBytes ← toBytes keccak toAddress
  let valueBigInt := value.bind nonZero
  let data ← dataBytes txData
  return { nonceBytes, gasBytes, toBytes, value := valueBigInt, data }

namespace EIP1559Transaction

/-- `RLPEncode`. -/
def rlpEncode (keccak : Hash256) (tx : EIP1559Transaction) : Except SignareError HexBytes := do
  match tx.signature with
  | none => .error (internal "tx doesn't have a signature so it can't be RLP encoded")
  | some signature =>
    let fields ← prepareCommonFields keccak tx.nonce tx.gas tx.toAddress tx.value tx.data
    let maxFeePerGas := nonZero tx.maxFeePerGas
    let maxPriorityFeePerGas := nonZero tx.maxPriorityFeePerGas
    let chainId ← chainIdBytes tx.chainId
    let accessListRLP := accessListToRLPInterface keccak tx.accessList
    let rlpEncoded ← encodeOr "failed to RLP encode the EIP-1559 transaction"
      [.bytes chainId, .bytesPointer (some fields.nonceBytes), .bigInt maxPriorityFeePerGas,
        .bigInt maxFeePerGas, .bytes fields.gasBytes, .bytes fields.toBytes,
        .bigInt fields.value, .bytes fields.data, .list accessListRLP,
        .bigInt (some signature.yParity), .bigInt (some signature.r), .bigInt (some signature.s)]
    return eip1559TypePrefix :: rlpEncoded

/-- The bytes `Hash` hands to Keccak-256. -/
def preimage (keccak : Hash256) (tx : EIP1559Transaction) : Except SignareError Bytes := do
  let fields ← prepareCommonFields keccak tx.nonce tx.gas tx.toAddress tx.value tx.data
  let maxFeePerGas := nonZero tx.maxFeePerGas
  let maxPriorityFeePerGas := nonZero tx.maxPriorityFeePerGas
  let chainId ← chainIdBytes tx.chainId
  let accessListRLP := accessListToRLPInterface keccak tx.accessList
  let rlpEncoded ← encodeOr "failed to RLP encode the EIP-1559 payload to sign"
    [.bytes chainId, .bytesPointer (some fields.nonceBytes), .bigInt maxPriorityFeePerGas,
      .bigInt maxFeePerGas, .bytes fields.gasBytes, .bytes fields.toBytes,
      .bigInt fields.value, .bytes fields.data, .list accessListRLP]
  return eip1559TypePrefix :: rlpEncoded

/-- `Hash`. -/
def hash (keccak : Hash256) (tx : EIP1559Transaction) : Except SignareError HexBytes :=
  (tx.preimage keccak).map keccak.sum

end EIP1559Transaction

/-- The recipient as a byte string: a contract creation has none. -/
def recipient (toAddress : Option Address) : Bytes := toAddress.elim [] Address.bytes

/-- An amount as an item: no amount is written as zero. -/
def amount (value : Option Int) : RlpItem := .num (value.getD 0).toNat

def accessItem (entry : AccessListEntry) : RlpItem :=
  .list [.str entry.address.bytes, .list (entry.storageKeys.map fun key => .str key.bytes)]

@[simp] theorem nonceBytes_eq (nonce : HexUInt64) :
    nonceBytes nonce = .ok (beBytes nonce.toNat) := by
  rw [nonceBytes, newHexBytesFromString_uint64, orInternal_ok, Except.map]
  by_cases h : nonce.toNat = 0
  · rw [if_pos h, h, beBytes_zero]
  · rw [if_neg h, evenBytes_of_ne h]

@[simp] theorem gasBytes_eq (gas : HexUInt64) : gasBytes gas = .ok (evenBytes gas.toNat) := by
  rw [gasBytes, newHexBytesFromString_uint64, orInternal_ok]

@[simp] theorem toBytes_eq (keccak : Hash256) (toAddress : Option Address) :
    toBytes keccak toAddress = .ok (recipient toAddress) := by
  cases toAddress with
  | none => rfl
  | some a => rw [toBytes, Address.newHexBytesFromString_string, orInternal_ok]; rfl

@[simp] theorem dataBytes_eq (data : HexBytes) : dataBytes data = .ok data := by
  unfold dataBytes
  split
  · rw [newHexBytesFromString_bytes, orInternal_ok]
  · next h =>
    have hnil : data = [] := List.length_eq_zero_iff.mp (by omega)
    rw [hnil]

theorem chainIdBytes_ok {chainId : Int} {b : Bytes} (h : chainIdBytes chainId = .ok b) :
    0 ≤ chainId ∧ b = evenBytes chainId.toNat := by
  have hparse := orInternalFromErr_eq_ok.mp h
  by_cases hc : 0 ≤ chainId
  · rw [newHexBytesFromString_int256 hc] at hparse
    exact ⟨hc, (Except.ok.inj hparse).symm⟩
  · rw [newHexBytesFromString_neg (by omega)] at hparse
    cases hparse

@[simp] theorem getD_nonZero (value : Int) : (nonZero value).getD 0 = value := by
  unfold nonZero
  split
  · rfl
  · next h => simpa using (not_not.mp h).symm

@[simp] theorem getD_bind_nonZero (value : Option Int) :
    (value.bind nonZero).getD 0 = value.getD 0 := by
  cases value with
  | none => rfl
  | some v => exact getD_nonZero v

theorem accessListToRLPInterface_eq (keccak : Hash256) (accessList : AccessList) :
    accessListToRLPInterface keccak accessList = accessList.map fun entry =>
      .list [.bytes entry.address.bytes,
        .list (entry.storageKeys.map fun key => .bytes key.bytes)] := by
  have hmap : ∀ l : AccessList, (l.mapM fun entry =>
      (newHexBytesFromString (entry.address.string keccak)).map fun addrBytes =>
        RlpInput.list [.bytes addrBytes, .list (entry.storageKeys.map fun key => .bytes key.bytes)]) =
      .ok (l.map fun entry => .list [.bytes entry.address.bytes,
        .list (entry.storageKeys.map fun key => .bytes key.bytes)]) := by
    intro l
    induction l with
    | nil => rfl
    | cons entry rest ih =>
      rw [List.mapM_cons, ih, Address.newHexBytesFromString_string]
      rfl
  rw [accessListToRLPInterface, hmap]

private theorem toItems_keys (keys : List HexBytes32) :
    RlpInput.toItems (keys.map fun key => .bytes key.bytes) =
      some (keys.map fun key => .str key.bytes) := by
  induction keys with
  | nil => rfl
  | cons key rest ih => rw [List.map_cons, RlpInput.toItems, ih]; rfl

theorem toItems_accessList (keccak : Hash256) (accessList : AccessList) :
    RlpInput.toItems (accessListToRLPInterface keccak accessList) =
      some (accessList.map accessItem) := by
  rw [accessListToRLPInterface_eq]
  induction accessList with
  | nil => rfl
  | cons entry rest ih =>
    rw [List.map_cons, RlpInput.toItems, ih]
    simp only [RlpInput.toItem, RlpInput.toItems, toItems_keys]
    rfl

theorem toItem_bigInt {value : Option Int} {item : RlpItem} :
    (RlpInput.bigInt value).toItem = some item ↔ 0 ≤ value.getD 0 ∧ item = amount value := by
  cases value with
  | none => simp [RlpInput.toItem, amount, eq_comm]
  | some v =>
    by_cases hv : v < 0
    · simp [RlpInput.toItem, hv]
    · simp [RlpInput.toItem, hv, amount, eq_comm, not_lt.mp hv]

theorem encodeOr_ok {message : String} {dataToEncode : List RlpInput} {b : Bytes}
    (h : encodeOr message dataToEncode = .ok b) :
    ∃ items, RlpInput.toItems dataToEncode = some items ∧ Encodes (.list items) b := by
  have henc := orInternalFromErr_eq_ok.mp h
  cases hrlp : rlpEncode (.list dataToEncode) with
  | error e => rw [hrlp] at henc; cases henc
  | ok bs =>
    rw [hrlp] at henc
    cases henc
    obtain ⟨item, hitem, hb⟩ := rlpEncode_ok hrlp
    rw [RlpInput.toItem] at hitem
    obtain ⟨items, hitems, rfl⟩ := Option.map_eq_some_iff.mp hitem
    exact ⟨items, hitems, hb⟩

theorem toItems_cons {x : RlpInput} {xs : List RlpInput} {items : List RlpItem} :
    RlpInput.toItems (x :: xs) = some items ↔
      ∃ item rest, x.toItem = some item ∧ RlpInput.toItems xs = some rest ∧ items = item :: rest := by
  rw [RlpInput.toItems]
  cases x.toItem <;> cases RlpInput.toItems xs <;> simp [eq_comm]

end Signare
