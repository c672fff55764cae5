import Signare.Commons.Errors
import Signare.Lib.Keccak

/-!
# Typed data

The message, its types and its domain. A Go map is a list of bindings of which the first for a key
counts; a key bound to a nil slice of fields is declared without being defined.
-/

namespace Signare

open ByteCodec

/-- A field of a struct type. -/
structure TypeField where
  name : String
  type : String
  deriving DecidableEq, Repr

abbrev Types := List (String × Option (List TypeField))

/-- `t[name]`; a name that is absent or bound to a nil slice has no definition. -/
def Types.definition (t : Types) (name : String) : Option (List TypeField) := (t.lookup name).join

/-- What ranging over `t[name]` visits. -/
def Types.fields (t : Types) (name : String) : List TypeField := (t.definition name).getD []

theorem mem_of_definition {t : Types} {name : String} {fields : List TypeField}
    (h : t.definition name = some fields) : (name, some fields) ∈ t := by
  unfold Types.definition at h
  cases hlookup : t.lookup name with
  | none => rw [hlookup] at h; cases h
  | some bound =>
    rw [hlookup] at h
    obtain rfl : bound = some fields := h
    obtain ⟨pre, post, ht, _⟩ := List.lookup_eq_some_iff.mp hlookup
    simp [ht]

/-- A value of a message, in the dynamic types that JSON decoding and `toFieldMap` produce. -/
inductive Value
  | null
  | bool (b : Bool)
  | string (s : String)
  | number (literal : String)
  | float64 (v : Rat)
  | bigInt (i : Int)
  | array (items : List Value)
  | map (entries : List (String × Value))

/-- A message, as the bindings of its map. -/
abbrev FieldMap := List (String × Value)

/-- `data[name]`: the zero value of an interface where the key is absent. -/
def FieldMap.get (data : FieldMap) (name : String) : Value := (data.lookup name).getD .null

/-- The dynamic type, as `%T` prints it. -/
def Value.goType : Value → String
  | .null => "<nil>"
  | .bool _ => "bool"
  | .string _ => "string"
  | .number _ => "json.Number"
  | .float64 _ => "float64"
  | .bigInt _ => "*big.Int"
  | .array _ => "[]interface {}"
  | .map _ => "map[string]interface {}"

/-- The kind of JSON the value marshals to. -/
def Value.jsonKind : Value → String
  | .null => "null"
  | .bool _ => "bool"
  | .string _ => "string"
  | .number _ | .float64 _ | .bigInt _ => "number"
  | .array _ => "array"
  | .map _ => "object"

structure EIP712Domain where
  name : String
  version : String
  chainId : Option Int
  verifyingContract : String
  salt : String
  deriving DecidableEq, Repr

/-- A text field is set when it is not empty. -/
def setField (key val : String) : FieldMap := if val ≠ "" then [(key, .string val)] else []

def EIP712Domain.toFieldMap (d : EIP712Domain) : FieldMap :=
  setField "name" d.name ++ setField "version" d.version ++
    (d.chainId.elim [] fun c => [("chainId", .bigInt c)]) ++
    setField "verifyingContract" d.verifyingContract ++ setField "salt" d.salt

structure TypedData where
  types : Types
  primaryType : String
  domain : EIP712Domain
  message : FieldMap

def TypedData.validate (d : TypedData) : Except SignareError Unit :=
  if d.primaryType = "" then .error (.text "typed data primaryType must not be empty")
  else if d.types.length = 0 then .error (.text "typed data types must not be empty")
  else if (d.types.lookup d.primaryType).isNone then
    .error (.text ("typed data types missing a definition for primaryType " ++
      d.primaryType.quote))
  else if (d.types.lookup "EIP712Domain").isNone then
    .error (.text "typed data types missing the EIP712Domain definition")
  else .ok ()

private theorem lookup_setField_of_ne {key val name : String} (h : name ≠ key) :
    (setField key val).lookup name = none := by
  unfold setField
  split
  · rw [List.lookup_cons, beq_false_of_ne h]; rfl
  · rfl

/-- The chain id is hashed from the same record it is checked in. -/
theorem EIP712Domain.get_chainId (d : EIP712Domain) :
    d.toFieldMap.get "chainId" = d.chainId.elim .null .bigInt := by
  unfold FieldMap.get toFieldMap
  simp only [List.lookup_append, lookup_setField_of_ne (show "chainId" ≠ "name" by decide),
    lookup_setField_of_ne (show "chainId" ≠ "version" by decide),
    lookup_setField_of_ne (show "chainId" ≠ "verifyingContract" by decide),
    lookup_setField_of_ne (show "chainId" ≠ "salt" by decide)]
  cases d.chainId <;> rfl

end Signare
