import Signare.EIP712.TypedData
import Signare.Entities.EncodingTypes
import Signare.Lib.Numeral
import Signare.Lib.Outcome
import Mathlib.Data.List.Sort
import Mathlib.Data.String.Basic

/-!
# Hashing typed data

The encoder of `eip712.go`: dependencies and type strings, the encoding of a field by its declared
type, struct hashes and the digest. The recursion of `EncodeField` follows the types as well as the
message and may not end, so it runs on fuel; a panic is told from an error.
-/

namespace Signare

open ByteCodec

/-- How the encoder stops without a result. -/
inductive Failure
  | error (err : SignareError)
  | panic (message : String)
  deriving DecidableEq, Repr

/-- The hash, and the order in which ranging over a map with the given keys visits them. -/
structure HashEnv where
  keccak : Hash256
  mapOrder : List String → List String
  mapOrder_perm : ∀ keys, (mapOrder keys).Perm keys

/-- The real hash, and maps that are ranged over in the order of their bindings. -/
def keccakEnv : HashEnv := ⟨keccak256, id, fun _ => .refl _⟩

def failText {α : Type} (message : String) : Run Failure α := .failed (.error (.text message))

/-- What stands before the first `c`, or everything. -/
def beforeFirst (c : Char) (cs : List Char) : List Char := cs.takeWhile (· ≠ c)

/-- What stands before the last `c`. -/
def beforeLast (c : Char) : List Char → Option (List Char)
  | [] => none
  | x :: xs =>
    match beforeLast c xs with
    | some before => some (x :: before)
    | none => if x = c then some [] else none

/-- The type name cleaned from array notation. -/
def baseType (type : String) : String := String.ofList (beforeFirst '[' type.toList)

/-- The walk of `findDependencies`. Every call but the first adds a key of the map to `deps`, so
fuel above the number of keys is never used up. -/
def findDependencies (t : Types) : Nat → String → List String → List String
  | 0, _, deps => deps
  | n + 1, primaryType, deps =>
    if primaryType ∈ deps then deps
    else
      match t.definition primaryType with
      | none => deps
      | some fields =>
        fields.foldl (fun deps field =>
          if (t.definition (baseType field.type)).isSome then
            findDependencies t n (baseType field.type) deps
          else deps) (primaryType :: deps)

def dependencies (env : HashEnv) (t : Types) (primaryType : String) : List String :=
  env.mapOrder (findDependencies t (t.length + 1) primaryType [])

def fieldString (field : TypeField) : String := field.type ++ " " ++ field.name

/-- One struct with its fields, as it stands in a type string. -/
def structString (t : Types) (name : String) : String :=
  name ++ "(" ++ ",".intercalate ((t.fields name).map fieldString) ++ ")"

/-- The sorted names with `primaryType` moved to the front. -/
def orderedTypes (primaryType : String) (deps : List String) : List String :=
  let sorted := deps.insertionSort (· ≤ ·)
  if primaryType ∈ sorted then primaryType :: sorted.erase primaryType else sorted

def encodeType (env : HashEnv) (t : Types) (primaryType : String) : String :=
  String.join ((orderedTypes primaryType (dependencies env t primaryType)).map (structString t))

def typeHash (env : HashEnv) (t : Types) (primaryType : String) : Bytes :=
  env.keccak.sum (utf8 (encodeType env t primaryType))

def trimPrefix0x (cs : List Char) : List Char :=
  match cs with
  | '0' :: 'x' :: rest => rest
  | cs => cs

/-- `hex.DecodeString`. -/
def decodeString (cs : List Char) : Run Failure Bytes :=
  match hexDecode cs with
  | .error err => .failed (.error (.hex err))
  | .ok b => .done b

def encodeAddress : Value → Run Failure Bytes
  | .string s => do
    let b ← decodeString (trimPrefix0x s.toList)
    if b.length ≠ 20 then
      failText ("invalid address length: " ++ toString b.length)
    else return leftPad 32 b
  | _ => failText "address must be a string"

/-- `big.Int.SetString`: in an explicit base there is no prefix and no underscore. -/
def setString (base : Nat) (cs : List Char) : Option Int := readSigned base cs

def has0xPrefix : List Char → Bool
  | '0' :: 'x' :: _ => true
  | '0' :: 'X' :: _ => true
  | _ => false

/-- The integer a value is read as. A fraction is cut off. -/
def integerOf : Value → Run Failure Int
  | .string v =>
    if has0xPrefix v.toList then
      match setString 16 (v.toList.drop 2) with
      | none => failText ("invalid hex integer value " ++ v.quote)
      | some bi => .done bi
    else
      match setString 10 v.toList with
      | none => failText ("invalid integer value " ++ v.quote)
      | some bi => .done bi
  | .number literal =>
    match setString 10 literal.toList with
    | none => failText ("invalid integer value " ++ literal.quote)
    | some bi => .done bi
  | .float64 v =>
    if 2 ^ 53 ≤ v then
      failText ("integer value at or above 2^53 exceeds float64 precision: " ++
        "pass such uint256 values as strings")
    else .done (v.num.tdiv v.den)
  | .bigInt v => .done v
  | value => failText ("unsupported integer type " ++ value.goType)

def encodeInteger (value : Value) : Run Failure Bytes := do
  let bi ← integerOf value
  if bi < 0 then
    failText "negative integers not supported in this simplified implementation"
  else if 32 < (beBytes bi.toNat).length then failText "integer overflow"
  else return leftPad 32 (beBytes bi.toNat)

def decodeBytes : Value → Run Failure Bytes
  | .string s => decodeString (trimPrefix0x s.toList)
  | _ => failText "bytes must be a string or []byte"

def stringOf : Value → Run Failure String
  | .string s => .done s
  | value => failText ("string field requires a string value, got " ++ value.goType)

def encodeBool : Value → Run Failure Bytes
  | .bool b => return leftPad 32 [if b then 1 else 0]
  | value => failText ("bool field requires a bool value, got " ++ value.goType)

/-- The branch `EncodeField` takes on a type string, in the order of its checks. -/
inductive FieldKind
  | struct (name : String)
  | array (subType : Option String)
  | address
  | string
  | bytes
  | bool
  | integer
  | fixedBytes
  | unsupported
  deriving DecidableEq, Repr

/-- The branch for a type string that names no struct. `array none` ends in a bracket it never
opens: slicing it at index -1 panics. -/
def undeclaredKind (fieldType : String) : FieldKind :=
  if fieldType.toList.getLast? = some ']' then
    .array ((beforeLast '[' fieldType.toList).map String.ofList)
  else if fieldType = "address" then .address
  else if fieldType = "string" then .string
  else if fieldType = "bytes" then .bytes
  else if fieldType = "bool" then .bool
  else if "uint".toList <+: fieldType.toList ∨ "int".toList <+: fieldType.toList then .integer
  else if "bytes".toList <+: fieldType.toList then .fixedBytes
  else .unsupported

def fieldKind (t : Types) (fieldType : String) : FieldKind :=
  if (t.definition fieldType).isSome then .struct fieldType else undeclaredKind fieldType

/-- The members of a nested struct. A value that is not a map goes through JSON, where only null
gives one: the nil map. -/
def structMembers : Value → Run Failure FieldMap
  | .map entries => .done entries
  | .null => .done []
  | value => failText ("json: cannot unmarshal " ++ value.jsonKind ++
      " into Go value of type map[string]interface {}")

def arrayItems (fieldType : String) : Value → Run Failure (List Value)
  | .array items => .done items
  | value => failText ("expected slice/array for " ++ fieldType ++ ", got " ++ value.goType)

/-- The loop of `EncodeData`. -/
def encodeFields (encodeField : String → Value → Run Failure Bytes) (data : FieldMap) :
    List TypeField → Run Failure Bytes
  | [] => .done []
  | field :: rest => do
    let encoded ← encodeField field.type (data.get field.name)
    let encodedRest ← encodeFields encodeField data rest
    return encoded ++ encodedRest

/-- The loop over the elements of an array. -/
def encodeElements (encodeField : Value → Run Failure Bytes) : List Value → Run Failure Bytes
  | [] => .done []
  | value :: rest => do
    let fieldEncoded ← encodeField value
    let encodedRest ← encodeElements encodeField rest
    return fieldEncoded ++ encodedRest

def encodeDataWith (env : HashEnv) (t : Types) (encodeField : String → Value → Run Failure Bytes)
    (primaryType : String) (data : FieldMap) : Run Failure Bytes := do
  let encoded ← encodeFields encodeField data (t.fields primaryType)
  return typeHash env t primaryType ++ encoded

def hashStructWith (env : HashEnv) (t : Types) (encodeField : String → Value → Run Failure Bytes)
    (primaryType : String) (data : FieldMap) : Run Failure Bytes := do
  let encodedData ← encodeDataWith env t encodeField primaryType data
  return env.keccak.sum encodedData

/-- `EncodeField`; a unit of fuel is one call. -/
def encodeField (env : HashEnv) (t : Types) : Nat → String → Value → Run Failure Bytes
  | 0, _, _ => .running
  | n + 1, fieldType, value =>
    match fieldKind t fieldType with
    | .struct name => do
      let m ← structMembers value
      hashStructWith env t (encodeField env t n) name m
    | .array none => .failed (.panic "runtime error: slice bounds out of range [:-1]")
    | .array (some subType) => do
      let items ← arrayItems fieldType value
      let encoded ← encodeElements (encodeField env t n subType) items
      return env.keccak.sum encoded
    | .address => encodeAddress value
    | .string => do
      let s ← stringOf value
      return env.keccak.sum (utf8 s)
    | .bytes => do
      let b ← decodeBytes value
      return env.keccak.sum b
    | .bool => encodeBool value
    | .integer => encodeInteger value
    | .fixedBytes => do
      let b ← decodeBytes value
      return rightPad 32 b
    | .unsupported => failText ("unsupported type " ++ fieldType)

def hashStruct (env : HashEnv) (t : Types) (fuel : Nat) : String → FieldMap → Run Failure Bytes :=
  hashStructWith env t (encodeField env t fuel)

/-- The domain separator and the struct hash of the message. -/
def structHashes (env : HashEnv) (fuel : Nat) (data : TypedData) : Run Failure (Bytes × Bytes) := do
  let domainSeparator ← hashStruct env data.types fuel "EIP712Domain" data.domain.toFieldMap
  let dataHash ← hashStruct env data.types fuel data.primaryType data.message
  return (domainSeparator, dataHash)

/-- The bytes the digest is the hash of. -/
def digestPreimage (hashes : Bytes × Bytes) : Bytes := [0x19, 0x01] ++ hashes.1 ++ hashes.2

/-- `HashTypedData`: the struct hash of the message and the digest. -/
def hashTypedData (env : HashEnv) (fuel : Nat) (data : TypedData) : Run Failure (Bytes × Bytes) := do
  let hashes ← structHashes env fuel data
  return (hashes.2, env.keccak.sum (digestPreimage hashes))

end Signare
