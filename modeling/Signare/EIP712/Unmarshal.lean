import Signare.EIP712.Encode
import Signare.Lib.JsonDecode

/-!
# Decoding typed data

The text of typed data into its types, its domain and its message. Maps are decoded into the ones
that are there; the chain id is read from its spelling.
-/

namespace Signare

open Json

def intoType : Into TypeField
  | .null, old => some old
  | .object members, old => do
    let name ← intoField intoString old.name "name" members
    let type ← intoField intoString old.type "type" members
    return { name, type }
  | _, _ => none

def typesEntry (member : String × Json) : Option (String × Option (List TypeField)) := do
  let fields ← intoSlice intoType ⟨"", ""⟩ member.2 none
  return (member.1, fields.map GoSlice.items)

/-- The last member of a name is the first binding of it. -/
def intoTypes : Into Types
  | .null, _ => some []
  | .object members, old => do
    let entries ← members.mapM typesEntry
    return entries.reverse ++ old
  | _, _ => none

mutual
/-- Numbers keep their literal. -/
def Value.ofJson : Json → Value
  | .null => .null
  | .bool b => .bool b
  | .number literal => .number literal
  | .string s => .string s
  | .array items => .array (Value.ofJsons items)
  | .object members => .map (Value.ofMembers members).reverse

def Value.ofJsons : List Json → List Value
  | [] => []
  | item :: items => Value.ofJson item :: Value.ofJsons items

def Value.ofMembers : List (String × Json) → FieldMap
  | [] => []
  | (name, value) :: members => (name, Value.ofJson value) :: Value.ofMembers members
end

def intoMessage : Into FieldMap
  | .null, _ => some []
  | .object members, old => some ((Value.ofMembers members).reverse ++ old)
  | _, _ => none

/-- A quoted number is read between its quotes, where an escape is no digit. -/
def readChainId : JsonText → Option (Option Int)
  | .null => some none
  | .string spelling _ =>
    if has0xPrefix spelling.toList then (setString 16 (spelling.toList.drop 2)).map some
    else (setString 10 spelling.toList).map some
  | .number literal => (setString 10 literal.toList).map some
  | _ => none

/-- The chain id of the record stays where the last member is a `null` or there is none. -/
def unmarshalChainId (old : Option Int) (members : List (String × JsonText)) :
    Option (Option Int) :=
  match (JsonText.named "chainId" members).getLast? with
  | none => some old
  | some raw => (readChainId raw).map fun chainId => chainId.orElse fun _ => old

def EIP712Domain.unmarshalJSON (d : EIP712Domain) (members : List (String × JsonText)) :
    Option EIP712Domain := do
  let values := JsonText.memberValues members
  let name ← intoField intoString d.name "name" values
  let version ← intoField intoString d.version "version" values
  let verifyingContract ← intoField intoString d.verifyingContract "verifyingContract" values
  let salt ← intoField intoString d.salt "salt" values
  let chainId ← unmarshalChainId d.chainId members
  return { name, version, chainId, verifyingContract, salt }

def intoDomain : JsonText → EIP712Domain → Option EIP712Domain
  | .null, d => some d
  | .object members, d => d.unmarshalJSON members
  | _, _ => none

def EIP712Domain.zero : EIP712Domain where
  name := ""
  version := ""
  chainId := none
  verifyingContract := ""
  salt := ""

def TypedData.zero : TypedData where
  types := []
  primaryType := ""
  domain := .zero
  message := []

def intoTypedData : JsonText → TypedData → Option TypedData
  | .null, old => some old
  | .object members, old => do
    let values := JsonText.memberValues members
    let types ← intoField intoTypes old.types "types" values
    let primaryType ← intoField intoString old.primaryType "primaryType" values
    let domain ← JsonText.intoField intoDomain old.domain "domain" members
    let message ← intoField intoMessage old.message "message" values
    return { types, primaryType, domain, message }
  | _, _ => none

/-- A number has one chain id, however it is spelled. -/
example :
    (intoDomain (.object [("chainId", .string "0x10" "0x10")]) .zero).map EIP712Domain.chainId =
      some (some 16) ∧
    (intoDomain (.object [("CHAINID", .number "16")]) .zero).map EIP712Domain.chainId =
      some (some 16) ∧
    (intoDomain (.object [("chainId", .string "1\\u0036" "16")]) .zero) = none := by
  decide

end Signare
