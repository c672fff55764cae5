import Signare.Entities.Address
import Signare.RpcInfra.ParamForms

/-!
# The account that is authorized and the account that signs

The policy enforcement point decodes the parameters on its own, before the handler does: an array
into a slice of structures, of which it reads the first. The handler of `eth_signTransaction` walks
the array form, where letter case counts.
-/

namespace Signare

open Json

inductive SigningMethod
  | signTransaction
  | signTypedData
  deriving DecidableEq

def SigningMethod.name : SigningMethod → String
  | .signTransaction => "eth_signTransaction"
  | .signTypedData => "eth_signTypedData"

/-- Whether the account that signs is carried in `address` or in `from`. -/
def SigningMethod.usesAddressParam : SigningMethod → Bool
  | .signTransaction => false
  | .signTypedData => true

def actionIsMethod (actionID : String) (method : SigningMethod) : Bool :=
  actionID == method.name || ("." ++ method.name).toList.isSuffixOf actionID.toList

/-- Whether the account is in `address`, for an action that needs an account. -/
def accountSigningField (actionID : String) : Option Bool :=
  ([.signTransaction, .signTypedData].find? (actionIsMethod actionID)).map
    SigningMethod.usesAddressParam

/-- The field in which the account is looked for is that of the method. -/
theorem accountSigningField_method (method : SigningMethod) :
    accountSigningField ("rpc.method." ++ method.name) = some method.usesAddressParam := by
  cases method with
  | signTransaction => decide
  | signTypedData => decide

structure AuthorizeAccountRPCParams where
  fromAddress : String := ""
  address : String := ""

def AuthorizeAccountRPCParams.signerAddress (p : AuthorizeAccountRPCParams)
    (usesAddressParam : Bool) : String :=
  if usesAddressParam then p.address else p.fromAddress

def intoRPCParams : Into AuthorizeAccountRPCParams
  | .null, old => some old
  | .object members, old => do
    let fromAddress ← intoField intoString old.fromAddress "from" members
    let address ← intoField intoString old.address "address" members
    return { fromAddress, address }
  | _, _ => none

def getAddressFromParamsArray (params : Json) (usesAddressParam : Bool) : Option Address := do
  let rpcAddress ← intoSlice intoRPCParams {} params none
  let first ← (rpcAddress.map GoSlice.items).bind List.head?
  (Address.newFromHexString (first.signerAddress usesAddressParam)).toOption

def getAddressFromParamsObject (params : Json) (usesAddressParam : Bool) : Option Address := do
  let rpcAddress ← intoRPCParams params {}
  (Address.newFromHexString (rpcAddress.signerAddress usesAddressParam)).toOption

/-- The account whose use is checked: nothing if the request is rejected before. -/
def authorizedAddress (method : SigningMethod) (params : Json) : Option Address :=
  (getAddressFromParamsArray params method.usesAddressParam).orElse fun _ =>
    getAddressFromParamsObject params method.usesAddressParam

section TypedData

variable {TypedData : Type} (intoTypedData : Into TypedData) (zero : TypedData)

/-- The structure of the parameters of `eth_signTypedData`. `intoTypedData` decodes the data. -/
def intoSignTypedData : Into (String × TypedData)
  | .null, old => some old
  | .object members, old => do
    let address ← intoField intoString old.1 "address" members
    let typedData ← intoField intoTypedData old.2 "typedData" members
    return (address, typedData)
  | _, _ => none

/-- `UnmarshalJSON`. What `SetParamsFrom` is given it refuses. -/
def unmarshalSignTypedData (params : Json) : Option (String × TypedData) :=
  match params with
  | .array _ =>
    match intoSlice (intoSignTypedData intoTypedData) ("", zero) params none with
    | some (some ⟨[obj], _⟩) => some obj
    | _ => none
  | _ => intoSignTypedData intoTypedData params ("", zero)

/-- The account that a request signs with, once its parameters are decoded and validated. -/
def signingAddress (validate : TypedData → Bool) (method : SigningMethod) (params : Json) :
    Option Address :=
  match method with
  | .signTransaction => do
    let data ← (handleSignTX "" params).toOption
    (Address.newFromHexString data.fromAddress).toOption
  | .signTypedData => do
    let (address, typedData) ← unmarshalSignTypedData intoTypedData zero params
    if address = "" ∨ ¬ validate typedData then none
    else (Address.newFromHexString address).toOption

end TypedData

theorem head?_intoItems {α : Type} {into : Into α} {zero : α} {json : Json} {jsons : List Json}
    {slice : GoSlice α} (h : intoItems into zero (json :: jsons) [] = some slice) :
    ∃ a, into json zero = some a ∧ slice.items.head? = some a := by
  obtain ⟨a, ha, h⟩ := Option.bind_eq_some_iff.mp h
  obtain ⟨later, -, h⟩ := Option.bind_eq_some_iff.mp h
  cases h
  exact ⟨a, ha, rfl⟩

/-- What the enforcement point reads in an object. -/
def signerField (method : SigningMethod) (members : List (String × Json)) : String :=
  lastText "" (named (if method.usesAddressParam then "address" else "from") members)

theorem not_newFromHexString_empty : (Address.newFromHexString "").toOption = none := by
  decide

theorem signerAddress_of_object {method : SigningMethod} {members : List (String × Json)}
    {p : AuthorizeAccountRPCParams} (h : intoRPCParams (.object members) {} = some p) :
    p.signerAddress method.usesAddressParam = signerField method members := by
  obtain ⟨fromAddress, hfrom, h⟩ := Option.bind_eq_some_iff.mp h
  obtain ⟨address, haddress, h⟩ := Option.bind_eq_some_iff.mp h
  cases h
  cases method with
  | signTransaction => exact (intoField_intoString.mp hfrom).2
  | signTypedData => exact (intoField_intoString.mp haddress).2

theorem exists_object_of_signer {method : SigningMethod} {json : Json} {A : Address}
    {p : AuthorizeAccountRPCParams} (h : intoRPCParams json {} = some p)
    (hA : (Address.newFromHexString (p.signerAddress method.usesAddressParam)).toOption = some A) :
    ∃ members, json = .object members ∧
      (Address.newFromHexString (signerField method members)).toOption = some A := by
  cases json with
  | object members =>
    rw [signerAddress_of_object h] at hA
    exact ⟨members, rfl, hA⟩
  | null =>
    cases h
    have hempty : (Address.newFromHexString "").toOption = some A := by
      cases method with
      | signTransaction => exact hA
      | signTypedData => exact hA
    rw [not_newFromHexString_empty] at hempty
    cases hempty
  | _ => cases h

theorem authorizedAddress_eq_some {method : SigningMethod} {params : Json} {A : Address}
    (h : authorizedAddress method params = some A) :
    ∃ members, (params = .object members ∨ ∃ later, params = .array (.object members :: later)) ∧
      (Address.newFromHexString (signerField method members)).toOption = some A := by
  have heither : getAddressFromParamsArray params method.usesAddressParam = some A ∨
      getAddressFromParamsObject params method.usesAddressParam = some A := by
    unfold authorizedAddress at h
    cases harray : getAddressFromParamsArray params method.usesAddressParam with
    | none =>
      rw [harray] at h
      exact .inr h
    | some A' =>
      rw [harray] at h
      exact .inl h
  rcases heither with harray | hobject
  · obtain ⟨slice, hslice, harray⟩ := Option.bind_eq_some_iff.mp harray
    obtain ⟨first, hfirst, hA⟩ := Option.bind_eq_some_iff.mp harray
    cases params with
    | array items =>
      cases items with
      | nil =>
        cases hslice
        cases hfirst
      | cons json jsons =>
        obtain ⟨slice', hslice', rfl⟩ := Option.map_eq_some_iff.mp hslice
        obtain ⟨p, hp, hhead⟩ := head?_intoItems hslice'
        have heq : first = p := by
          rw [Option.map_some, Option.bind_some, hhead, Option.some.injEq] at hfirst
          exact hfirst.symm
        rw [heq] at hA
        obtain ⟨members, rfl, hA⟩ := exists_object_of_signer hp hA
        exact ⟨members, .inr ⟨jsons, rfl⟩, hA⟩
    | null =>
      cases hslice
      cases hfirst
    | _ => cases hslice
  · obtain ⟨p, hp, hA⟩ := Option.bind_eq_some_iff.mp hobject
    obtain ⟨members, rfl, hA⟩ := exists_object_of_signer hp hA
    exact ⟨members, .inl rfl, hA⟩

variable {TypedData : Type} {intoTypedData : Into TypedData} {zero : TypedData}
  {validate : TypedData → Bool} {params : Json} {A B : Address}
  {members : List (String × Json)}

theorem signingAddress_typedData
    (h : signingAddress intoTypedData zero validate .signTypedData params = some B)
    (hparams : params = .object members ∨ ∃ later, params = .array (.object members :: later)) :
    (Address.newFromHexString (signerField .signTypedData members)).toOption = some B := by
  obtain ⟨obj, hobj, h⟩ := Option.bind_eq_some_iff.mp h
  have hinto : intoSignTypedData intoTypedData (.object members) ("", zero) = some obj := by
    rcases hparams with rfl | ⟨later, rfl⟩
    · exact hobj
    · unfold unmarshalSignTypedData at hobj
      split at hobj
      · next items heq =>
        cases heq
        split at hobj
        · next first behind hslice =>
          cases hobj
          obtain ⟨slice, hslice', heq⟩ := Option.map_eq_some_iff.mp hslice
          cases heq
          obtain ⟨first', hfirst, hhead⟩ := head?_intoItems hslice'
          cases hhead
          exact hfirst
        · cases hobj
      · next hne => exact absurd rfl (hne _)
  obtain ⟨address, haddress, hinto⟩ := Option.bind_eq_some_iff.mp hinto
  obtain ⟨typedData, -, hinto⟩ := Option.bind_eq_some_iff.mp hinto
  cases hinto
  dsimp only at h
  split at h
  · cases h
  · rw [(intoField_intoString.mp haddress).2] at h
    exact h

theorem signingAddress_transaction
    (h : signingAddress intoTypedData zero validate .signTransaction params = some B)
    (hparams : params = .object members ∨ ∃ later, params = .array (.object members :: later)) :
    (params = .object members ∧
        (Address.newFromHexString (signerField .signTransaction members)).toOption = some B) ∨
      (params = .array [.object members] ∧ ∃ text,
        lookup "from" members = some (.string text) ∧
          (Address.newFromHexString text).toOption = some B) := by
  obtain ⟨p, hp, hB⟩ := Option.bind_eq_some_iff.mp h
  rcases hparams with rfl | ⟨later, rfl⟩
  · obtain ⟨q, hreads, -, heq⟩ := handleSignTX_object.mp hp
    refine .inl ⟨rfl, ?_⟩
    have hfrom : p.fromAddress = q.fromAddress := by rw [← heq]
    rw [hfrom, (textField_eq_some.mp hreads.fromAddress).2] at hB
    exact hB
  · cases later with
    | nil =>
      obtain ⟨-, q, hreads, -, heq⟩ := handleSignTX_array.mp hp
      refine .inr ⟨rfl, q.fromAddress, hreads.fromAddress, ?_⟩
      have hfrom : p.fromAddress = q.fromAddress := by rw [← heq]
      rw [← hfrom]
      exact hB
    | cons json later =>
      have hnone : (handleSignTX "" (.array (.object members :: json :: later))).toOption = none := by
        simp only [handleSignTX, processParams, unmarshalParams, setParamsFrom]
        split <;> rfl
      rw [hnone] at hp
      cases hp

/-- In the array form, the member that the enforcement point reads and the one that the handler
reads spell the same account. -/
def SameFrom (params : Json) : Prop :=
  ∀ members text, params = .array [.object members] →
    lookup "from" members = some (.string text) →
      (Address.newFromHexString (lastText "" (named "from" members))).toOption =
        (Address.newFromHexString text).toOption

/-- A request that is authorized for an account is signed with it exactly if it is for typed data or
the two readings of `from` agree. -/
theorem authorized_signer_iff {method : SigningMethod}
    (hA : authorizedAddress method params = some A)
    (hB : signingAddress intoTypedData zero validate method params = some B) :
    A = B ↔ method = .signTypedData ∨ SameFrom params := by
  obtain ⟨members, hparams, hchecked⟩ := authorizedAddress_eq_some hA
  cases method with
  | signTypedData =>
    have hsigned := signingAddress_typedData hB hparams
    rw [hchecked, Option.some.injEq] at hsigned
    exact iff_of_true hsigned (.inl rfl)
  | signTransaction =>
    rcases signingAddress_transaction hB hparams with ⟨rfl, hsigned⟩ | ⟨rfl, text, htext, hsigned⟩
    · rw [hchecked, Option.some.injEq] at hsigned
      exact iff_of_true hsigned (.inr fun members' text h => by cases h)
    · have hfield : (Address.newFromHexString (lastText "" (named "from" members))).toOption =
          some A := hchecked
      constructor
      · intro heq
        right
        intro members' text' hparams' htext'
        cases hparams'
        rw [htext, Option.some.injEq, Json.string.injEq] at htext'
        rw [hfield, ← htext', hsigned, heq]
      · intro h
        have hsame := (h.resolve_left (by decide)) members text rfl htext
        rw [hfield, hsigned] at hsame
        exact Option.some.inj hsame

/-- The enforcement point reads the last member, the handler the first. -/
def twoSenders : Json :=
  .array [.object
    [("from", .string "0x970e8128ab834e8eac17ab8e3812f010678cf791"), ("data", .string "0x"),
      ("nonce", .string "0x0"), ("FROM", .string "0x53d284357ec70ce289d6d64134dfac8e511c8a3d")]]

theorem twoSenders_diverge :
    ∃ A B, authorizedAddress .signTransaction twoSenders = some A ∧
      signingAddress (fun _ (u : Unit) => some u) () (fun _ => true) .signTransaction twoSenders =
        some B ∧ A ≠ B := by
  refine ⟨_, _, rfl, rfl, ?_⟩
  decide

theorem twoSenders_not_sameFrom :
    ¬ (SigningMethod.signTransaction = .signTypedData ∨ SameFrom twoSenders) := by
  intro h
  have hB : signingAddress (fun _ (u : Unit) => some u) () (fun _ => true) .signTransaction
      twoSenders = some _ := rfl
  exact absurd ((authorized_signer_iff rfl hB).mpr h) (by decide)

end Signare
