import Signare.Lib.Outcome
import Signare.RpcInfra.Params

/-!
# The two forms of the parameters

The object form is decoded into the structure and the array form is walked. Each has its own reasons
to refuse an object, and where neither refuses they read the same parameters only if every field is
last set under its exact name.
-/

namespace Signare

open Json

def requiredFields : List String := ["from", "data", "nonce"]

def optionalFields : List String :=
  ["to", "gas", "gasPrice", "value", "chainId", "maxFeePerGas", "maxPriorityFeePerGas",
    "maxFeePerBlobGas"]

def listFields : List String := ["accessList", "authorizationList"]

/-- An entry of a list, whether its fields are there or not. -/
def IsEntry : Json → Prop
  | .null => True
  | .object members => (∀ json ∈ named "address" members, IsText json) ∧
      ∀ json ∈ named "storageKeys" members, IsArrayOf IsText json
  | _ => False

/-- Some member that names a field in any letter case does not have the type of the field. -/
inductive Mistyped (members : List (String × Json)) : Prop
  | text {field : String} {json : Json}
      (hfield : field ∈ "ApplicationID" :: requiredFields ++ optionalFields)
      (hjson : json ∈ named field members) (h : ¬ IsText json)
  | texts {json : Json} (hjson : json ∈ named "blobVersionedHashes" members)
      (h : ¬ IsArrayOf IsText json)
  | entries {field : String} {json : Json} (hfield : field ∈ listFields)
      (hjson : json ∈ named field members) (h : ¬ IsArrayOf IsEntry json)

/-- Why the object form is refused. -/
inductive ObjectRefused (members : List (String × Json)) : Prop
  | mistyped (h : Mistyped members)
  | emptyFrom (h : lastText "" (named "from" members) = "")
  | emptyNonce (h : lastText "" (named "nonce" members) = "")
  | twoPrices (hgasPrice : lastPointer (named "gasPrice" members) ≠ none)
      (hmaxFee : lastPointer (named "maxFeePerGas" members) ≠ none)

/-- A complete entry, under exact names. -/
inductive IsFullEntry : Json → AccessListParamEntry → Prop
  | entry {members : List (String × Json)} {address : String} {keys : List String}
      (haddress : lookup "address" members = some (.string address))
      (hkeys : lookup "storageKeys" members = some (.array (keys.map .string))) :
      IsFullEntry (.object members) { address, storageKeys := some keys }

/-- Why the array form is refused. -/
inductive ArrayRefused (members : List (String × Json)) : Prop
  | numbers (h : membersFitFloats members = false)
  | required {field : String} (hfield : field ∈ requiredFields)
      (h : ∀ text, lookup field members ≠ some (.string text))
  | optional {field : String} {json : Json} (hfield : field ∈ optionalFields)
      (hjson : lookup field members = some json) (h : ∀ text, json ≠ .string text)
  | texts {json : Json} (hjson : lookup "blobVersionedHashes" members = some json)
      (h : ∀ texts : List String, json ≠ .array (texts.map .string))
  | entries {field : String} {json : Json} (hfield : field ∈ listFields)
      (hjson : lookup field members = some json)
      (h : ∀ items entries, json = .array items → ¬ List.Forall₂ IsFullEntry items entries)
  | priorityFee {maxFee priorityFee : String}
      (hmaxFee : lookup "maxFeePerGas" members = some (.string maxFee))
      (hpriorityFee : lookup "maxPriorityFeePerGas" members = some (.string priorityFee))
      (h : priorityFeeExceeds (some maxFee) (some priorityFee) = true)
  | emptyFrom (h : lookup "from" members = some (.string ""))
  | emptyNonce (h : lookup "nonce" members = some (.string ""))
  | twoPrices (hgasPrice : lookup "gasPrice" members ≠ none)
      (hmaxFee : lookup "maxFeePerGas" members ≠ none)

/-- The value of the last member of an exact name, and a list of entries. -/
inductive SpellsEntries : Option Json → Option (List AccessListParamEntry) → Prop
  | none : SpellsEntries none none
  | some {items : List Json} {entries : List AccessListParamEntry}
      (h : List.Forall₂ IsFullEntry items entries) : SpellsEntries (some (.array items)) (some entries)

/-- What the members of a field in any letter case leave is what the last member of its exact name
says. -/
structure SameReadings (members : List (String × Json)) : Prop where
  applicationID : ∀ json ∈ named "ApplicationID" members, IsText json
  required {field : String} (hfield : field ∈ requiredFields) :
    (∀ json ∈ named field members, IsText json) ∧
      lookup field members = some (.string (lastText "" (named field members)))
  optional {field : String} (hfield : field ∈ optionalFields) :
    (∀ json ∈ named field members, IsText json) ∧
      lookup field members = lastPointer (named field members)
  texts : ∃ texts, textsField "blobVersionedHashes" members = some texts ∧
    lookup "blobVersionedHashes" members = texts.map fun texts => .array (texts.map .string)
  entries {field : String} (hfield : field ∈ listFields) :
    ∃ entries, entriesField field members = some entries ∧
      SpellsEntries (lookup field members) entries

variable {members : List (String × Json)} {field : String}

theorem recognises_intoEntry : Recognises intoEntry IsEntry := by
  intro json old
  cases json with
  | object members =>
    rw [IsEntry, ← exists_intoField recognises_intoString old.address "address" members,
      ← exists_intoField (recognises_intoSlice recognises_intoString "") old.storageKeys "storageKeys"
        members]
    simp only [intoEntry, Option.bind_eq_bind, Option.bind_eq_some_iff]
    constructor
    · intro h
      obtain ⟨decoded, address, haddress, keys, hkeys, -⟩ := h
      exact ⟨⟨address, haddress⟩, ⟨keys, hkeys⟩⟩
    · intro h
      obtain ⟨⟨address, haddress⟩, ⟨keys, hkeys⟩⟩ := h
      exact ⟨_, address, haddress, keys, hkeys, rfl⟩
  | _ => simp [intoEntry, IsEntry]

theorem textField_eq_some {text : String} :
    textField field members = some text ↔
      (∀ json ∈ named field members, IsText json) ∧ text = lastText "" (named field members) :=
  intoField_intoString

theorem pointerField_eq_some {pointer : Option String} :
    pointerField field members = some pointer ↔
      (∀ json ∈ named field members, IsText json) ∧
        pointer.map Json.string = lastPointer (named field members) :=
  intoField_intoPointer

theorem exists_textsField :
    (∃ texts, textsField field members = some texts) ↔
      ∀ json ∈ named field members, IsArrayOf IsText json := by
  rw [← exists_intoField (recognises_intoSlice recognises_intoString "") none field members]
  simp [textsField]

theorem exists_entriesField :
    (∃ entries, entriesField field members = some entries) ↔
      ∀ json ∈ named field members, IsArrayOf IsEntry json := by
  rw [← exists_intoField (recognises_intoSlice recognises_intoEntry {}) none field members]
  simp [entriesField]

theorem requiredString_eq_ok {text : String} :
    requiredString field members = .ok text ↔ lookup field members = some (.string text) := by
  unfold requiredString
  split <;> simp_all

theorem optionalString_eq_ok {pointer : Option String} :
    optionalString field members = .ok pointer ↔
      lookup field members = pointer.map Json.string := by
  unfold optionalString
  split <;> cases pointer <;> simp_all

theorem stringItem_eq_ok {message text : String} {json : Json} :
    stringItem message json = .ok text ↔ json = .string text := by
  cases json <;> simp [stringItem]

theorem mapM_stringItem {message : String} {items : List Json} {texts : List String} :
    items.mapM (stringItem message) = .ok texts ↔ items = texts.map .string := by
  rw [Except.mapM_eq_ok_iff]
  simp only [stringItem_eq_ok]
  rw [← List.forall₂_eq_eq_eq, List.forall₂_map_right_iff]

theorem blobVersionedHashesParam_eq_ok {texts : Option (List String)} :
    blobVersionedHashesParam members = .ok texts ↔
      lookup "blobVersionedHashes" members =
        texts.map fun texts => Json.array (texts.map Json.string) := by
  unfold blobVersionedHashesParam
  split
  · next h =>
    rw [h]
    cases texts <;> simp
  · next raw h =>
    rw [h]
    cases texts <;> simp [Except.map_eq_ok, mapM_stringItem]
  · next json harray h =>
    rw [h]
    cases texts with
    | none => simp
    | some texts =>
      have hne : json ≠ .array (texts.map .string) := harray _
      simp [hne]

theorem addressParam_eq_ok {texts : ListTexts} {address : String} :
    addressParam texts members = .ok address ↔
      lookup "address" members = some (.string address) := by
  unfold addressParam
  split
  · next h =>
    rw [h]
    simp
  · next json h =>
    rw [h, stringItem_eq_ok, Option.some.injEq]

theorem storageKeysParam_eq_ok {texts : ListTexts} {keys : List String} :
    storageKeysParam texts members = .ok keys ↔
      lookup "storageKeys" members = some (.array (keys.map .string)) := by
  unfold storageKeysParam
  split
  · next h =>
    rw [h]
    simp
  · next items h =>
    rw [h, mapM_stringItem, Option.some.injEq, Json.array.injEq]
  · next json harray h =>
    rw [h, Option.some.injEq]
    exact ⟨fun hok => (nomatch hok), fun heq => (harray _ heq).elim⟩

theorem entryParam_eq_ok {texts : ListTexts} {json : Json} {entry : AccessListParamEntry} :
    entryParam texts json = .ok entry ↔ IsFullEntry json entry := by
  constructor
  · intro h
    cases json with
    | object entryMap =>
      obtain ⟨address, haddress, h⟩ := Except.bind_eq_ok.mp h
      obtain ⟨keys, hkeys, h⟩ := Except.bind_eq_ok.mp h
      cases h
      exact .entry (addressParam_eq_ok.mp haddress) (storageKeysParam_eq_ok.mp hkeys)
    | _ => cases h
  · intro h
    cases h with
    | entry haddress hkeys =>
      rw [entryParam, addressParam_eq_ok.mpr haddress, storageKeysParam_eq_ok.mpr hkeys]
      rfl

theorem listParam_eq_ok {texts : ListTexts} {entries : Option (List AccessListParamEntry)} :
    listParam texts field members = .ok entries ↔ SpellsEntries (lookup field members) entries := by
  unfold listParam
  split
  · next h =>
    rw [h]
    constructor
    · intro hok
      cases hok
      exact .none
    · intro hspells
      cases hspells
      rfl
  · next items h =>
    rw [h]
    simp only [Except.map_eq_ok, Except.mapM_eq_ok_iff, entryParam_eq_ok]
    constructor
    · intro hmap
      obtain ⟨list, hlist, rfl⟩ := hmap
      exact .some hlist
    · intro hspells
      cases hspells with
      | some hlist => exact ⟨_, hlist, rfl⟩
  · next json harray h =>
    rw [h]
    constructor
    · intro hok
      cases hok
    · intro hspells
      cases hspells
      exact absurd rfl (harray _)

/-- What the object form reads, field by field. -/
structure ObjectReads (members : List (String × Json)) (p : SignTXRequestParams) : Prop where
  applicationID : textField "ApplicationID" members = some p.applicationID
  fromAddress : textField "from" members = some p.fromAddress
  toAddress : pointerField "to" members = some p.toAddress
  gas : pointerField "gas" members = some p.gas
  gasPrice : pointerField "gasPrice" members = some p.gasPrice
  value : pointerField "value" members = some p.value
  data : textField "data" members = some p.data
  nonce : textField "nonce" members = some p.nonce
  chainID : pointerField "chainId" members = some p.chainID
  maxFeePerGas : pointerField "maxFeePerGas" members = some p.maxFeePerGas
  maxPriorityFeePerGas : pointerField "maxPriorityFeePerGas" members = some p.maxPriorityFeePerGas
  accessList : entriesField "accessList" members = some p.accessList
  maxFeePerBlobGas : pointerField "maxFeePerBlobGas" members = some p.maxFeePerBlobGas
  blobVersionedHashes : textsField "blobVersionedHashes" members = some p.blobVersionedHashes
  authorizationList : entriesField "authorizationList" members = some p.authorizationList

/-- What the array form reads, field by field. -/
structure ArrayReads (members : List (String × Json)) (p : SignTXRequestParams) : Prop where
  applicationID : p.applicationID = ""
  fromAddress : lookup "from" members = some (.string p.fromAddress)
  toAddress : lookup "to" members = p.toAddress.map .string
  gas : lookup "gas" members = p.gas.map .string
  gasPrice : lookup "gasPrice" members = p.gasPrice.map .string
  value : lookup "value" members = p.value.map .string
  data : lookup "data" members = some (.string p.data)
  nonce : lookup "nonce" members = some (.string p.nonce)
  chainID : lookup "chainId" members = p.chainID.map .string
  maxFeePerGas : lookup "maxFeePerGas" members = p.maxFeePerGas.map .string
  maxPriorityFeePerGas : lookup "maxPriorityFeePerGas" members = p.maxPriorityFeePerGas.map .string
  priorityFee : priorityFeeExceeds p.maxFeePerGas p.maxPriorityFeePerGas = false
  accessList : SpellsEntries (lookup "accessList" members) p.accessList
  maxFeePerBlobGas : lookup "maxFeePerBlobGas" members = p.maxFeePerBlobGas.map .string
  blobVersionedHashes : lookup "blobVersionedHashes" members =
    p.blobVersionedHashes.map fun texts => .array (texts.map .string)
  authorizationList : SpellsEntries (lookup "authorizationList" members) p.authorizationList

variable {p : SignTXRequestParams}

theorem unmarshalSignTX_eq_some :
    unmarshalSignTX members = some p ↔ ObjectReads members p := by
  constructor
  · intro h
    obtain ⟨_, happlicationID, h⟩ := Option.bind_eq_some_iff.mp h
    obtain ⟨_, hfromAddress, h⟩ := Option.bind_eq_some_iff.mp h
    obtain ⟨_, htoAddress, h⟩ := Option.bind_eq_some_iff.mp h
    obtain ⟨_, hgas, h⟩ := Option.bind_eq_some_iff.mp h
    obtain ⟨_, hgasPrice, h⟩ := Option.bind_eq_some_iff.mp h
    obtain ⟨_, hvalue, h⟩ := Option.bind_eq_some_iff.mp h
    obtain ⟨_, hdata, h⟩ := Option.bind_eq_some_iff.mp h
    obtain ⟨_, hnonce, h⟩ := Option.bind_eq_some_iff.mp h
    obtain ⟨_, hchainID, h⟩ := Option.bind_eq_some_iff.mp h
    obtain ⟨_, hmaxFeePerGas, h⟩ := Option.bind_eq_some_iff.mp h
    obtain ⟨_, hmaxPriorityFeePerGas, h⟩ := Option.bind_eq_some_iff.mp h
    obtain ⟨_, haccessList, h⟩ := Option.bind_eq_some_iff.mp h
    obtain ⟨_, hmaxFeePerBlobGas, h⟩ := Option.bind_eq_some_iff.mp h
    obtain ⟨_, hblobVersionedHashes, h⟩ := Option.bind_eq_some_iff.mp h
    obtain ⟨_, hauthorizationList, h⟩ := Option.bind_eq_some_iff.mp h
    cases h
    exact ⟨happlicationID, hfromAddress, htoAddress, hgas, hgasPrice, hvalue, hdata, hnonce,
      hchainID, hmaxFeePerGas, hmaxPriorityFeePerGas, haccessList, hmaxFeePerBlobGas,
      hblobVersionedHashes, hauthorizationList⟩
  · intro h
    rw [unmarshalSignTX, h.applicationID, h.fromAddress, h.toAddress, h.gas, h.gasPrice, h.value,
      h.data, h.nonce, h.chainID, h.maxFeePerGas, h.maxPriorityFeePerGas, h.accessList,
      h.maxFeePerBlobGas, h.blobVersionedHashes, h.authorizationList]
    rfl

theorem setParamsFromMap_eq_ok :
    setParamsFromMap members = .ok p ↔ ArrayReads members p := by
  constructor
  · intro h
    obtain ⟨_, hfromAddress, h⟩ := Except.bind_eq_ok.mp h
    obtain ⟨_, hdata, h⟩ := Except.bind_eq_ok.mp h
    obtain ⟨_, hnonce, h⟩ := Except.bind_eq_ok.mp h
    obtain ⟨_, htoAddress, h⟩ := Except.bind_eq_ok.mp h
    obtain ⟨_, hgas, h⟩ := Except.bind_eq_ok.mp h
    obtain ⟨_, hgasPrice, h⟩ := Except.bind_eq_ok.mp h
    obtain ⟨_, hvalue, h⟩ := Except.bind_eq_ok.mp h
    obtain ⟨_, hchainID, h⟩ := Except.bind_eq_ok.mp h
    obtain ⟨_, hmaxFeePerGas, h⟩ := Except.bind_eq_ok.mp h
    obtain ⟨_, hmaxPriorityFeePerGas, h⟩ := Except.bind_eq_ok.mp h
    split at h
    · cases h
    · next hfee =>
      obtain ⟨_, haccessList, h⟩ := Except.bind_eq_ok.mp h
      obtain ⟨_, hmaxFeePerBlobGas, h⟩ := Except.bind_eq_ok.mp h
      obtain ⟨_, hblobVersionedHashes, h⟩ := Except.bind_eq_ok.mp h
      obtain ⟨_, hauthorizationList, h⟩ := Except.bind_eq_ok.mp h
      cases h
      refine ⟨rfl, requiredString_eq_ok.mp hfromAddress, optionalString_eq_ok.mp htoAddress,
        optionalString_eq_ok.mp hgas, optionalString_eq_ok.mp hgasPrice,
        optionalString_eq_ok.mp hvalue, requiredString_eq_ok.mp hdata,
        requiredString_eq_ok.mp hnonce, optionalString_eq_ok.mp hchainID,
        optionalString_eq_ok.mp hmaxFeePerGas, optionalString_eq_ok.mp hmaxPriorityFeePerGas,
        Bool.eq_false_iff.mpr hfee, listParam_eq_ok.mp haccessList,
        optionalString_eq_ok.mp hmaxFeePerBlobGas,
        blobVersionedHashesParam_eq_ok.mp hblobVersionedHashes,
        listParam_eq_ok.mp hauthorizationList⟩
  · intro h
    have haccessList : setAccessListParam members = .ok p.accessList :=
      listParam_eq_ok.mpr h.accessList
    have hauthorizationList : setAuthorizationListParam members = .ok p.authorizationList :=
      listParam_eq_ok.mpr h.authorizationList
    rw [setParamsFromMap, requiredString_eq_ok.mpr h.fromAddress, requiredString_eq_ok.mpr h.data,
      requiredString_eq_ok.mpr h.nonce, optionalString_eq_ok.mpr h.toAddress,
      optionalString_eq_ok.mpr h.gas, optionalString_eq_ok.mpr h.gasPrice,
      optionalString_eq_ok.mpr h.value, optionalString_eq_ok.mpr h.chainID,
      optionalString_eq_ok.mpr h.maxFeePerGas, optionalString_eq_ok.mpr h.maxPriorityFeePerGas]
    simp only [Except.ok_bind, h.priorityFee, Bool.false_eq_true, if_false]
    rw [haccessList, optionalString_eq_ok.mpr h.maxFeePerBlobGas,
      blobVersionedHashesParam_eq_ok.mpr h.blobVersionedHashes, hauthorizationList]
    change Except.ok { p with applicationID := "" } = Except.ok p
    rw [← h.applicationID]

theorem validateParams_eq_ok :
    p.validateParams = .ok () ↔
      p.fromAddress ≠ "" ∧ p.nonce ≠ "" ∧ (p.gasPrice = none ∨ p.maxFeePerGas = none) := by
  unfold SignTXRequestParams.validateParams
  split
  · next h => simp [h]
  · next hfrom =>
    split
    · next h => simp [h]
    · next hnonce =>
      rw [← Option.not_isSome_iff_eq_none, ← Option.not_isSome_iff_eq_none]
      split
      · next h => simp [h]
      · next h =>
        rw [not_and_or] at h
        exact iff_of_true rfl ⟨hfrom, hnonce, h⟩

theorem handleSignTX_object {applicationID : String} :
    (handleSignTX applicationID (.object members)).toOption = some p ↔
      ∃ q, ObjectReads members q ∧ q.validateParams = .ok () ∧ { q with applicationID } = p := by
  have hprocess {q : SignTXRequestParams} :
      processParams (.object members) = .ok q ↔ ObjectReads members q := by
    rw [← unmarshalSignTX_eq_some]
    simp only [processParams, unmarshalParams]
    split
    · next rpcParams h => simp [h]
    · next h => simp [h]
  rw [Except.toOption_eq_some]
  unfold handleSignTX
  simp only [Except.bind_eq_ok, hprocess, Except.pure_eq_ok, Unique.exists_iff]

theorem handleSignTX_array {applicationID : String} :
    (handleSignTX applicationID (.array [.object members])).toOption = some p ↔
      membersFitFloats members = true ∧ ∃ q, ArrayReads members q ∧ q.validateParams = .ok () ∧
        { q with applicationID } = p := by
  have hprocess {q : SignTXRequestParams} : processParams (.array [.object members]) = .ok q ↔
      membersFitFloats members = true ∧ ArrayReads members q := by
    rw [← setParamsFromMap_eq_ok]
    simp only [processParams, unmarshalParams, allFitFloats, fitsFloats, Bool.and_true,
      setParamsFrom]
    split
    · next h => simp [h]
    · next h => simp [h]
  rw [Except.toOption_eq_some]
  unfold handleSignTX
  simp only [Except.bind_eq_ok, hprocess, Except.pure_eq_ok, Unique.exists_iff, and_assoc,
    exists_and_left]

theorem ObjectReads.typed (h : ObjectReads members p) : ¬ Mistyped members := by
  intro hmistyped
  cases hmistyped with
  | @text field json hfield hjson hnot =>
    apply hnot
    simp only [requiredFields, optionalFields, List.cons_append, List.nil_append, List.mem_cons,
      List.not_mem_nil, or_false] at hfield
    rcases hfield with rfl | rfl | rfl | rfl | rfl | rfl | rfl | rfl | rfl | rfl | rfl | rfl
    · exact (textField_eq_some.mp h.applicationID).1 json hjson
    · exact (textField_eq_some.mp h.fromAddress).1 json hjson
    · exact (textField_eq_some.mp h.data).1 json hjson
    · exact (textField_eq_some.mp h.nonce).1 json hjson
    · exact (pointerField_eq_some.mp h.toAddress).1 json hjson
    · exact (pointerField_eq_some.mp h.gas).1 json hjson
    · exact (pointerField_eq_some.mp h.gasPrice).1 json hjson
    · exact (pointerField_eq_some.mp h.value).1 json hjson
    · exact (pointerField_eq_some.mp h.chainID).1 json hjson
    · exact (pointerField_eq_some.mp h.maxFeePerGas).1 json hjson
    · exact (pointerField_eq_some.mp h.maxPriorityFeePerGas).1 json hjson
    · exact (pointerField_eq_some.mp h.maxFeePerBlobGas).1 json hjson
  | @texts json hjson hnot =>
    exact hnot (exists_textsField.mp ⟨_, h.blobVersionedHashes⟩ json hjson)
  | @entries field json hfield hjson hnot =>
    apply hnot
    simp only [listFields, List.mem_cons, List.not_mem_nil, or_false] at hfield
    rcases hfield with rfl | rfl
    · exact exists_entriesField.mp ⟨_, h.accessList⟩ json hjson
    · exact exists_entriesField.mp ⟨_, h.authorizationList⟩ json hjson

theorem exists_objectReads (h : ¬ Mistyped members) : ∃ p, ObjectReads members p := by
  have htext {field : String}
      (hfield : field ∈ "ApplicationID" :: requiredFields ++ optionalFields) :
      ∀ json ∈ named field members, IsText json :=
    fun json hjson => by_contra fun hnot => h (.text hfield hjson hnot)
  have hstring (field : String)
      (hfield : field ∈ "ApplicationID" :: requiredFields ++ optionalFields) :
      ∃ text, textField field members = some text :=
    (exists_intoField recognises_intoString "" field members).mpr (htext hfield)
  have hpointer (field : String)
      (hfield : field ∈ "ApplicationID" :: requiredFields ++ optionalFields) :
      ∃ pointer, pointerField field members = some pointer :=
    (exists_intoField recognises_intoPointer none field members).mpr (htext hfield)
  have hentries (field : String) (hfield : field ∈ listFields) :
      ∃ entries, entriesField field members = some entries :=
    exists_entriesField.mpr fun json hjson =>
      by_contra fun hnot => h (.entries hfield hjson hnot)
  have htexts : ∃ texts, textsField "blobVersionedHashes" members = some texts :=
    exists_textsField.mpr fun json hjson => by_contra fun hnot => h (.texts hjson hnot)
  obtain ⟨applicationID, happlicationID⟩ := hstring "ApplicationID" (by decide)
  obtain ⟨fromAddress, hfromAddress⟩ := hstring "from" (by decide)
  obtain ⟨toAddress, htoAddress⟩ := hpointer "to" (by decide)
  obtain ⟨gas, hgas⟩ := hpointer "gas" (by decide)
  obtain ⟨gasPrice, hgasPrice⟩ := hpointer "gasPrice" (by decide)
  obtain ⟨value, hvalue⟩ := hpointer "value" (by decide)
  obtain ⟨data, hdata⟩ := hstring "data" (by decide)
  obtain ⟨nonce, hnonce⟩ := hstring "nonce" (by decide)
  obtain ⟨chainID, hchainID⟩ := hpointer "chainId" (by decide)
  obtain ⟨maxFeePerGas, hmaxFeePerGas⟩ := hpointer "maxFeePerGas" (by decide)
  obtain ⟨maxPriorityFeePerGas, hmaxPriorityFeePerGas⟩ := hpointer "maxPriorityFeePerGas" (by decide)
  obtain ⟨accessList, haccessList⟩ := hentries "accessList" (by decide)
  obtain ⟨maxFeePerBlobGas, hmaxFeePerBlobGas⟩ := hpointer "maxFeePerBlobGas" (by decide)
  obtain ⟨blobVersionedHashes, hblobVersionedHashes⟩ := htexts
  obtain ⟨authorizationList, hauthorizationList⟩ := hentries "authorizationList" (by decide)
  exact ⟨{ applicationID, fromAddress, toAddress, gas, gasPrice, value, data, nonce, chainID,
           maxFeePerGas, maxPriorityFeePerGas, accessList, maxFeePerBlobGas, blobVersionedHashes,
           authorizationList },
    ⟨happlicationID, hfromAddress, htoAddress, hgas, hgasPrice, hvalue, hdata, hnonce, hchainID,
     hmaxFeePerGas, hmaxPriorityFeePerGas, haccessList, hmaxFeePerBlobGas, hblobVersionedHashes,
     hauthorizationList⟩⟩

theorem objectRefused_iff :
    ObjectRefused members ↔ ¬ ∃ p, ObjectReads members p ∧ p.validateParams = .ok () := by
  constructor
  · intro hrefused hexists
    obtain ⟨p, hreads, hvalid⟩ := hexists
    obtain ⟨hfrom, hnonce, hprices⟩ := validateParams_eq_ok.mp hvalid
    cases hrefused with
    | mistyped h => exact hreads.typed h
    | emptyFrom h => exact hfrom ((textField_eq_some.mp hreads.fromAddress).2.trans h)
    | emptyNonce h => exact hnonce ((textField_eq_some.mp hreads.nonce).2.trans h)
    | twoPrices hgasPrice hmaxFee =>
      rw [← (pointerField_eq_some.mp hreads.gasPrice).2] at hgasPrice
      rw [← (pointerField_eq_some.mp hreads.maxFeePerGas).2] at hmaxFee
      rcases hprices with h | h
      · rw [h] at hgasPrice
        exact hgasPrice rfl
      · rw [h] at hmaxFee
        exact hmaxFee rfl
  · intro hnone
    by_contra hrefused
    obtain ⟨p, hreads⟩ := exists_objectReads fun h => hrefused (.mistyped h)
    apply hnone
    refine ⟨p, hreads, validateParams_eq_ok.mpr ⟨?_, ?_, ?_⟩⟩
    · intro h
      exact hrefused (.emptyFrom ((textField_eq_some.mp hreads.fromAddress).2.symm.trans h))
    · intro h
      exact hrefused (.emptyNonce ((textField_eq_some.mp hreads.nonce).2.symm.trans h))
    · by_contra hboth
      rw [not_or] at hboth
      apply hrefused
      apply ObjectRefused.twoPrices
      · rw [← (pointerField_eq_some.mp hreads.gasPrice).2]
        exact fun h => hboth.1 (Option.map_eq_none_iff.mp h)
      · rw [← (pointerField_eq_some.mp hreads.maxFeePerGas).2]
        exact fun h => hboth.2 (Option.map_eq_none_iff.mp h)

theorem ArrayReads.accepted (hfloats : membersFitFloats members = true) (h : ArrayReads members p)
    (hvalid : p.validateParams = .ok ()) : ¬ ArrayRefused members := by
  obtain ⟨hfrom, hnonce, hprices⟩ := validateParams_eq_ok.mp hvalid
  intro hrefused
  cases hrefused with
  | numbers h =>
    rw [hfloats] at h
    cases h
  | @required field hfield hnot =>
    simp only [requiredFields, List.mem_cons, List.not_mem_nil, or_false] at hfield
    rcases hfield with rfl | rfl | rfl
    · exact hnot _ h.fromAddress
    · exact hnot _ h.data
    · exact hnot _ h.nonce
  | @optional field json hfield hjson hnot =>
    have hpointer (pointer : Option String) (hlookup : lookup field members = pointer.map .string) :
        False := by
      rw [hlookup] at hjson
      obtain ⟨text, -, htext⟩ := Option.map_eq_some_iff.mp hjson
      exact hnot text htext.symm
    simp only [optionalFields, List.mem_cons, List.not_mem_nil, or_false] at hfield
    rcases hfield with rfl | rfl | rfl | rfl | rfl | rfl | rfl | rfl
    · exact hpointer _ h.toAddress
    · exact hpointer _ h.gas
    · exact hpointer _ h.gasPrice
    · exact hpointer _ h.value
    · exact hpointer _ h.chainID
    · exact hpointer _ h.maxFeePerGas
    · exact hpointer _ h.maxPriorityFeePerGas
    · exact hpointer _ h.maxFeePerBlobGas
  | @texts json hjson hnot =>
    rw [h.blobVersionedHashes] at hjson
    obtain ⟨texts, -, htexts⟩ := Option.map_eq_some_iff.mp hjson
    exact hnot texts htexts.symm
  | @entries field json hfield hjson hnot =>
    have hspells (entries : Option (List AccessListParamEntry))
        (hspells : SpellsEntries (lookup field members) entries) : False := by
      rw [hjson] at hspells
      cases hspells with
      | some hlist => exact hnot _ _ rfl hlist
    simp only [listFields, List.mem_cons, List.not_mem_nil, or_false] at hfield
    rcases hfield with rfl | rfl
    · exact hspells _ h.accessList
    · exact hspells _ h.authorizationList
  | priorityFee hmaxFee hpriorityFee hexceeds =>
    rw [h.maxFeePerGas, Option.map_eq_some_iff] at hmaxFee
    rw [h.maxPriorityFeePerGas, Option.map_eq_some_iff] at hpriorityFee
    obtain ⟨_, hmaxFee, heq⟩ := hmaxFee
    obtain ⟨_, hpriorityFee, heq'⟩ := hpriorityFee
    cases heq
    cases heq'
    rw [← hmaxFee, ← hpriorityFee, h.priorityFee] at hexceeds
    cases hexceeds
  | emptyFrom hempty =>
    rw [h.fromAddress, Option.some.injEq, Json.string.injEq] at hempty
    exact hfrom hempty
  | emptyNonce hempty =>
    rw [h.nonce, Option.some.injEq, Json.string.injEq] at hempty
    exact hnonce hempty
  | twoPrices hgasPrice hmaxFee =>
    rcases hprices with hnone | hnone
    · exact hgasPrice (by rw [h.gasPrice, hnone]; rfl)
    · exact hmaxFee (by rw [h.maxFeePerGas, hnone]; rfl)

theorem exists_arrayReads (h : ¬ ArrayRefused members) : membersFitFloats members = true ∧
    ∃ p, ArrayReads members p ∧ p.validateParams = .ok () := by
  have hstring (field : String) (hfield : field ∈ requiredFields) :
      ∃ text, lookup field members = some (.string text) := by
    by_contra hnone
    exact h (.required hfield fun text htext => hnone ⟨text, htext⟩)
  have hpointer (field : String) (hfield : field ∈ optionalFields) :
      ∃ pointer : Option String, lookup field members = pointer.map .string := by
    cases hjson : lookup field members with
    | none => exact ⟨none, rfl⟩
    | some json =>
      by_contra hnone
      exact h (.optional hfield hjson fun text htext => hnone ⟨some text, by rw [htext]; rfl⟩)
  have htexts : ∃ texts : Option (List String), lookup "blobVersionedHashes" members =
      texts.map fun texts => .array (texts.map .string) := by
    cases hjson : lookup "blobVersionedHashes" members with
    | none => exact ⟨none, rfl⟩
    | some json =>
      by_contra hnone
      exact h (.texts hjson fun texts htexts => hnone ⟨some texts, by rw [htexts]; rfl⟩)
  have hentries (field : String) (hfield : field ∈ listFields) :
      ∃ entries, SpellsEntries (lookup field members) entries := by
    cases hjson : lookup field members with
    | none => exact ⟨none, .none⟩
    | some json =>
      by_contra hnone
      apply h (.entries hfield hjson ?_)
      intro items entries hitems hlist
      rw [hitems] at hnone
      exact hnone ⟨some entries, .some hlist⟩
  obtain ⟨fromAddress, hfromAddress⟩ := hstring "from" (by decide)
  obtain ⟨toAddress, htoAddress⟩ := hpointer "to" (by decide)
  obtain ⟨gas, hgas⟩ := hpointer "gas" (by decide)
  obtain ⟨gasPrice, hgasPrice⟩ := hpointer "gasPrice" (by decide)
  obtain ⟨value, hvalue⟩ := hpointer "value" (by decide)
  obtain ⟨data, hdata⟩ := hstring "data" (by decide)
  obtain ⟨nonce, hnonce⟩ := hstring "nonce" (by decide)
  obtain ⟨chainID, hchainID⟩ := hpointer "chainId" (by decide)
  obtain ⟨maxFeePerGas, hmaxFeePerGas⟩ := hpointer "maxFeePerGas" (by decide)
  obtain ⟨maxPriorityFeePerGas, hmaxPriorityFeePerGas⟩ := hpointer "maxPriorityFeePerGas" (by decide)
  obtain ⟨accessList, haccessList⟩ := hentries "accessList" (by decide)
  obtain ⟨maxFeePerBlobGas, hmaxFeePerBlobGas⟩ := hpointer "maxFeePerBlobGas" (by decide)
  obtain ⟨blobVersionedHashes, hblobVersionedHashes⟩ := htexts
  obtain ⟨authorizationList, hauthorizationList⟩ := hentries "authorizationList" (by decide)
  have hfee : priorityFeeExceeds maxFeePerGas maxPriorityFeePerGas = false := by
    cases maxFeePerGas with
    | none => rfl
    | some maxFee =>
      cases maxPriorityFeePerGas with
      | none => rfl
      | some priorityFee =>
        rw [← Bool.not_eq_true]
        exact fun hexceeds => h (.priorityFee hmaxFeePerGas hmaxPriorityFeePerGas hexceeds)
  refine ⟨Bool.not_eq_false _ ▸ fun hnumbers => h (.numbers hnumbers), ?_⟩
  refine ⟨{ applicationID := "", fromAddress, toAddress, gas, gasPrice, value, data, nonce, chainID,
            maxFeePerGas, maxPriorityFeePerGas, accessList, maxFeePerBlobGas, blobVersionedHashes,
            authorizationList },
    ⟨rfl, hfromAddress, htoAddress, hgas, hgasPrice, hvalue, hdata, hnonce, hchainID, hmaxFeePerGas,
     hmaxPriorityFeePerGas, hfee, haccessList, hmaxFeePerBlobGas, hblobVersionedHashes,
     hauthorizationList⟩,
    validateParams_eq_ok.mpr ⟨?_, ?_, ?_⟩⟩
  · intro hempty
    exact h (.emptyFrom (hempty ▸ hfromAddress))
  · intro hempty
    exact h (.emptyNonce (hempty ▸ hnonce))
  · by_contra hboth
    rw [not_or] at hboth
    apply h
    apply ArrayRefused.twoPrices
    · rw [hgasPrice]
      exact fun hnone => hboth.1 (Option.map_eq_none_iff.mp hnone)
    · rw [hmaxFeePerGas]
      exact fun hnone => hboth.2 (Option.map_eq_none_iff.mp hnone)

variable {q : SignTXRequestParams} {applicationID : String}

theorem array_texts_injective :
    Function.Injective fun texts : List String => Json.array (texts.map .string) := by
  intro texts texts' h
  exact List.map_injective_iff.mpr (fun _ _ => Json.string.inj) (Json.array.inj h)

theorem IsFullEntry.unique : Relator.RightUnique IsFullEntry := by
  intro json entry entry' h h'
  cases h with
  | entry haddress hkeys =>
    cases h' with
    | entry haddress' hkeys' =>
      rw [haddress, Option.some.injEq, Json.string.injEq] at haddress'
      rw [hkeys, Option.some.injEq] at hkeys'
      rw [haddress', array_texts_injective hkeys']

theorem SpellsEntries.unique {json : Option Json}
    {entries entries' : Option (List AccessListParamEntry)} (h : SpellsEntries json entries)
    (h' : SpellsEntries json entries') : entries = entries' := by
  cases h with
  | none =>
    cases h'
    rfl
  | some hlist =>
    cases h' with
    | some hlist' => rw [List.right_unique_forall₂' IsFullEntry.unique hlist hlist']

theorem SameReadings.objectReads (h : SameReadings members) (hq : ArrayReads members q) :
    ObjectReads members
      { q with applicationID := lastText "" (named "ApplicationID" members) } := by
  have htext {field text : String} (hfield : field ∈ requiredFields)
      (hlookup : lookup field members = some (.string text)) :
      textField field members = some text := by
    obtain ⟨htyped, hlast⟩ := h.required hfield
    rw [hlookup, Option.some.injEq, Json.string.injEq] at hlast
    exact textField_eq_some.mpr ⟨htyped, hlast⟩
  have hpointer {field : String} {pointer : Option String} (hfield : field ∈ optionalFields)
      (hlookup : lookup field members = pointer.map .string) :
      pointerField field members = some pointer := by
    obtain ⟨htyped, hlast⟩ := h.optional hfield
    exact pointerField_eq_some.mpr ⟨htyped, hlookup.symm.trans hlast⟩
  have hentries {field : String} {entries : Option (List AccessListParamEntry)}
      (hfield : field ∈ listFields) (hspells : SpellsEntries (lookup field members) entries) :
      entriesField field members = some entries := by
    obtain ⟨entries', hentries', hspells'⟩ := h.entries hfield
    rw [hentries', hspells'.unique hspells]
  have htexts : textsField "blobVersionedHashes" members = some q.blobVersionedHashes := by
    obtain ⟨texts, htexts, hlookup⟩ := h.texts
    rw [hq.blobVersionedHashes] at hlookup
    rw [htexts, Option.map_injective array_texts_injective hlookup]
  exact ⟨textField_eq_some.mpr ⟨h.applicationID, rfl⟩, htext (by decide) hq.fromAddress,
    hpointer (by decide) hq.toAddress, hpointer (by decide) hq.gas,
    hpointer (by decide) hq.gasPrice, hpointer (by decide) hq.value, htext (by decide) hq.data,
    htext (by decide) hq.nonce, hpointer (by decide) hq.chainID,
    hpointer (by decide) hq.maxFeePerGas, hpointer (by decide) hq.maxPriorityFeePerGas,
    hentries (by decide) hq.accessList, hpointer (by decide) hq.maxFeePerBlobGas, htexts,
    hentries (by decide) hq.authorizationList⟩

theorem sameReadings_of_reads (hp : ObjectReads members p) (hq : ArrayReads members q)
    (h : { p with applicationID } = { q with applicationID }) : SameReadings members := by
  have htext {field text : String} (hread : textField field members = some text)
      (hlookup : lookup field members = some (.string text)) :
      (∀ json ∈ named field members, IsText json) ∧
        lookup field members = some (.string (lastText "" (named field members))) := by
    obtain ⟨htyped, hlast⟩ := textField_eq_some.mp hread
    rw [← hlast]
    exact ⟨htyped, hlookup⟩
  have hpointer {field : String} {pointer : Option String}
      (hread : pointerField field members = some pointer)
      (hlookup : lookup field members = pointer.map .string) :
      (∀ json ∈ named field members, IsText json) ∧
        lookup field members = lastPointer (named field members) := by
    obtain ⟨htyped, hlast⟩ := pointerField_eq_some.mp hread
    exact ⟨htyped, hlookup.trans hlast⟩
  simp only [SignTXRequestParams.mk.injEq, true_and] at h
  obtain ⟨hfrom, hto, hgas, hgasPrice, hvalue, hdata, hnonce, hchainID, hmaxFee, hpriorityFee,
    haccessList, hblobFee, hhashes, hauthorizationList⟩ := h
  refine ⟨(textField_eq_some.mp hp.applicationID).1, ?_, ?_, ?_, ?_⟩
  · intro field hfield
    simp only [requiredFields, List.mem_cons, List.not_mem_nil, or_false] at hfield
    rcases hfield with rfl | rfl | rfl
    · exact htext (hfrom ▸ hp.fromAddress) hq.fromAddress
    · exact htext (hdata ▸ hp.data) hq.data
    · exact htext (hnonce ▸ hp.nonce) hq.nonce
  · intro field hfield
    simp only [optionalFields, List.mem_cons, List.not_mem_nil, or_false] at hfield
    rcases hfield with rfl | rfl | rfl | rfl | rfl | rfl | rfl | rfl
    · exact hpointer (hto ▸ hp.toAddress) hq.toAddress
    · exact hpointer (hgas ▸ hp.gas) hq.gas
    · exact hpointer (hgasPrice ▸ hp.gasPrice) hq.gasPrice
    · exact hpointer (hvalue ▸ hp.value) hq.value
    · exact hpointer (hchainID ▸ hp.chainID) hq.chainID
    · exact hpointer (hmaxFee ▸ hp.maxFeePerGas) hq.maxFeePerGas
    · exact hpointer (hpriorityFee ▸ hp.maxPriorityFeePerGas) hq.maxPriorityFeePerGas
    · exact hpointer (hblobFee ▸ hp.maxFeePerBlobGas) hq.maxFeePerBlobGas
  · exact ⟨_, hhashes ▸ hp.blobVersionedHashes, hq.blobVersionedHashes⟩
  · intro field hfield
    simp only [listFields, List.mem_cons, List.not_mem_nil, or_false] at hfield
    rcases hfield with rfl | rfl
    · exact ⟨_, haccessList ▸ hp.accessList, hq.accessList⟩
    · exact ⟨_, hauthorizationList ▸ hp.authorizationList, hq.authorizationList⟩

/-- The two forms mean the same exactly if both are refused, or the array form is not and every
field is last set under its exact name. -/
theorem forms_agree_iff (applicationID : String) (members : List (String × Json)) :
    (handleSignTX applicationID (.object members)).toOption =
        (handleSignTX applicationID (.array [.object members])).toOption ↔
      (ObjectRefused members ∧ ArrayRefused members) ∨
        (¬ ArrayRefused members ∧ SameReadings members) := by
  by_cases harray : ArrayRefused members
  · have hnone : (handleSignTX applicationID (.array [.object members])).toOption = none := by
      apply Option.eq_none_iff_forall_ne_some.mpr
      intro p hp
      obtain ⟨hfloats, q, hreads, hvalid, -⟩ := handleSignTX_array.mp hp
      exact hreads.accepted hfloats hvalid harray
    have hobject : (handleSignTX applicationID (.object members)).toOption = none ↔
        ObjectRefused members := by
      rw [objectRefused_iff, Option.eq_none_iff_forall_ne_some]
      constructor
      · intro h hexists
        obtain ⟨p, hreads, hvalid⟩ := hexists
        exact h _ (handleSignTX_object.mpr ⟨p, hreads, hvalid, rfl⟩)
      · intro h p hp
        obtain ⟨q, hreads, hvalid, -⟩ := handleSignTX_object.mp hp
        exact h ⟨q, hreads, hvalid⟩
    rw [hnone, hobject]
    simp only [harray, and_true, not_true_eq_false, false_and, or_false]
  · obtain ⟨hfloats, q, hreads, hvalid⟩ := exists_arrayReads harray
    have hsome : (handleSignTX applicationID (.array [.object members])).toOption =
        some { q with applicationID } :=
      handleSignTX_array.mpr ⟨hfloats, q, hreads, hvalid, rfl⟩
    rw [hsome]
    simp only [harray, and_false, not_false_eq_true, true_and, false_or]
    constructor
    · intro h
      obtain ⟨p, hobject, -, heq⟩ := handleSignTX_object.mp h
      exact sameReadings_of_reads hobject hreads heq
    · intro h
      exact handleSignTX_object.mpr ⟨_, h.objectReads hreads, hvalid, rfl⟩

/-- Only the array form compares the fees. -/
def tipAboveMaximum : List (String × Json) :=
  [("from", .string "0x970e8128ab834e8eac17ab8e3812f010678cf791"), ("data", .string "0x"),
    ("nonce", .string "0x0"), ("maxFeePerGas", .string "0x1"),
    ("maxPriorityFeePerGas", .string "0x2")]

theorem tipAboveMaximum_forms_differ :
    (handleSignTX "app" (.object tipAboveMaximum)).toOption ≠
        (handleSignTX "app" (.array [.object tipAboveMaximum])).toOption ∧
      handleSignTX "app" (.array [.object tipAboveMaximum]) =
        .error (.text "[maxFeePerGas] must be greater than [maxPriorityFeePerGas]") := by
  constructor
  · decide
  · decide

end Signare
