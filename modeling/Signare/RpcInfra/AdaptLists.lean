import Signare.Entities.Bytes32
import Signare.HSMConnector.Carried
import Signare.HSMConnector.Preimage
import Signare.RpcInfra.ChainBinding

/-!
# Lists of keys

The adapter reads the keys of an access list, of an authorization list and of the blobs one after
the other, and the keys of an access list are signed in the order of the request. They are the keys
that were written unless the digits of one do not make 32 bytes.
-/

namespace Signare

open ByteCodec

/-- `NewInvalidParamsFromErr` of an error that is wrapped. -/
def invalidIn (message : String) (err : SignareError) : RPCError :=
  .invalidParams (.wrapText message err)

def adaptKeys (message : String) (keys : List String) : Except RPCError (List HexBytes32) :=
  keys.mapM fun key => (newHexBytes32FromString key).mapError (invalidIn message)

/-- An entry of `field`, which is `accessList` or `authorizationList`. -/
def adaptEntry {α : Type} (field : String) (make : Address → List HexBytes32 → α)
    (entry : AccessListParamEntry) : Except RPCError α := do
  let address ← (Address.newFromHexString entry.address).mapError
    (invalidIn ("invalid [" ++ field ++ "] address"))
  let storageKeys ← adaptKeys ("invalid [" ++ field ++ "] storageKey") (entry.storageKeys.getD [])
  return make address storageKeys

def adaptAccessList (accessList : List AccessListParamEntry) : Except RPCError AccessList :=
  accessList.mapM (adaptEntry "accessList" AccessListEntry.mk)

def adaptAuthorizationList (authorizationList : List AuthorizationListParamEntry) :
    Except RPCError AuthorizationList :=
  authorizationList.mapM (adaptEntry "authorizationList" AuthorizationListEntry.mk)

/-- The hashes of the blobs. -/
def adaptBlobVersionedHashes (blobVersionedHashes : List String) :
    Except RPCError (List HexBytes32) :=
  adaptKeys "invalid [blobVersionedHashes]" blobVersionedHashes

/-- The keys of a request, in its order. -/
def writtenKeys (entry : AccessListParamEntry) : List String := entry.storageKeys.getD []

/-- The signed transaction holds an access list whose keys are those of the request. -/
def SignsKeys (entries : List AccessListParamEntry) (out : SignTxOutput) : Prop :=
  ∃ raw bs items accessList, out.signedTx = HexBytes.encode raw ∧
    unsignEIP1559 raw = some (eip1559TypePrefix :: bs) ∧ Encodes (.list items) bs ∧
    items[8]? = some (.list (accessList.map accessItem)) ∧
    List.Forall₂ (fun entry signed => List.Forall₂ KeyText (writtenKeys entry) signed.storageKeys)
      entries accessList

theorem keyText_iff {input : String} {key : HexBytes32}
    (h : newHexBytes32FromString input = .ok key) : KeyText input key ↔ ¬ Misfit input := by
  constructor
  · intro hkey hmisfit
    obtain ⟨digits, hpre, -, -, hlength⟩ := hmisfit
    obtain ⟨digits', hpre', hlength', -⟩ := hkey
    rw [hpre'.unique hpre] at hlength'
    exact hlength hlength'
  · intro hfits
    exact ((takesKeys_iff input).mpr hfits key).mp h

theorem adaptKeys_eq_ok {message : String} {inputs : List String} {keys : List HexBytes32} :
    adaptKeys message inputs = .ok keys ↔
      List.Forall₂ (fun input key => newHexBytes32FromString input = .ok key) inputs keys := by
  rw [adaptKeys, Except.mapM_eq_ok_iff]
  simp only [Except.mapError_eq_ok]

theorem forall₂_iff_of_forall₂ {α β : Type} {r s : α → β → Prop} {p : α → Prop} {xs : List α}
    {ys : List β} (h : List.Forall₂ r xs ys) (hrs : ∀ x y, r x y → (s x y ↔ p x)) :
    List.Forall₂ s xs ys ↔ ∀ x ∈ xs, p x := by
  induction h with
  | nil => simp
  | cons hxy _ ih => rw [List.forall₂_cons, List.forall_mem_cons, ih, hrs _ _ hxy]

theorem keyTexts_iff {message : String} {inputs : List String} {keys : List HexBytes32}
    (h : adaptKeys message inputs = .ok keys) :
    List.Forall₂ KeyText inputs keys ↔ ∀ input ∈ inputs, ¬ Misfit input :=
  forall₂_iff_of_forall₂ (adaptKeys_eq_ok.mp h) fun _ _ hkey => keyText_iff hkey

theorem entryKeys_iff {α : Type} {field : String} {make : Address → List HexBytes32 → α}
    {keysOf : α → List HexBytes32} (hmake : ∀ address keys, keysOf (make address keys) = keys)
    {entries : List AccessListParamEntry} {taken : List α}
    (h : entries.mapM (adaptEntry field make) = .ok taken) :
    List.Forall₂ (fun entry item => List.Forall₂ KeyText (writtenKeys entry) (keysOf item))
        entries taken ↔
      ∀ entry ∈ entries, ∀ input ∈ writtenKeys entry, ¬ Misfit input := by
  apply forall₂_iff_of_forall₂ (Except.mapM_eq_ok_iff.mp h)
  intro entry item hentry
  obtain ⟨address, -, hentry⟩ := Except.bind_eq_ok.mp hentry
  obtain ⟨storageKeys, hkeys, hentry⟩ := Except.bind_eq_ok.mp hentry
  cases hentry
  rw [hmake]
  exact keyTexts_iff hkeys

theorem accessKeys_iff {entries : List AccessListParamEntry} {accessList : AccessList}
    (h : adaptAccessList entries = .ok accessList) :
    List.Forall₂ (fun entry signed => List.Forall₂ KeyText (writtenKeys entry) signed.storageKeys)
        entries accessList ↔
      ∀ entry ∈ entries, ∀ input ∈ writtenKeys entry, ¬ Misfit input :=
  entryKeys_iff (fun _ _ => rfl) h

theorem authorizationKeys_iff {entries : List AuthorizationListParamEntry}
    {authorizationList : AuthorizationList}
    (h : adaptAuthorizationList entries = .ok authorizationList) :
    List.Forall₂ (fun entry taken => List.Forall₂ KeyText (writtenKeys entry) taken.storageKeys)
        entries authorizationList ↔
      ∀ entry ∈ entries, ∀ input ∈ writtenKeys entry, ¬ Misfit input :=
  entryKeys_iff (fun _ _ => rfl) h

theorem blobKeys_iff {hashes : List String} {keys : List HexBytes32}
    (h : adaptBlobVersionedHashes hashes = .ok keys) :
    List.Forall₂ KeyText hashes keys ↔ ∀ input ∈ hashes, ¬ Misfit input :=
  keyTexts_iff h

variable {env : SigningEnv} {input : SignTxInput} {out : SignTxOutput}

theorem signTx_accessList (hcheck : checkSignTx env input = .ok .eip1559)
    (hok : (signTx env input).result = .ok out) :
    ∃ raw bs items, out.signedTx = HexBytes.encode raw ∧
      unsignEIP1559 raw = some (eip1559TypePrefix :: bs) ∧ Encodes (.list items) bs ∧
      items[8]? = some (.list ((input.accessList.getD []).map accessItem)) := by
  obtain ⟨txType, htype, hrun, -⟩ := Traced.lift_bind_eq_ok.mp hok
  rw [hcheck] at htype
  cases htype
  obtain ⟨maxFeePerGas, maxPriorityFeePerGas, preimage, raw, -, -, hpreimage, -, hout, hunsign⟩ :=
    signEIP1559Tx_ok hrun
  obtain ⟨-, bs, rfl, hencodes⟩ := EIP1559Transaction.preimage_ok hpreimage
  exact ⟨raw, bs, _, hout, hunsign, hencodes, rfl⟩

theorem signsKeys_iff {entries : List AccessListParamEntry} {accessList : AccessList}
    (hadapt : adaptAccessList entries = .ok accessList) (hinput : input.accessList = some accessList)
    (hcheck : checkSignTx env input = .ok .eip1559) (hok : (signTx env input).result = .ok out) :
    SignsKeys entries out ↔ ∀ entry ∈ entries, ∀ key ∈ writtenKeys entry, ¬ Misfit key := by
  obtain ⟨raw, bs, items, hout, hunsign, hencodes, hitem⟩ := signTx_accessList hcheck hok
  rw [hinput, Option.getD_some] at hitem
  rw [← accessKeys_iff hadapt]
  constructor
  · intro h
    obtain ⟨raw', bs', items', accessList', hout', hunsign', hencodes', hitem', hkeys⟩ := h
    have hraw : raw = raw' := HexBytes.encode_injective (hout.symm.trans hout')
    subst hraw
    rw [hunsign, Option.some.injEq, List.cons.injEq] at hunsign'
    rw [← hunsign'.2] at hencodes'
    have hitems : items = items' := RlpItem.list.inj (hencodes.injective hencodes')
    rw [← hitems, hitem, Option.some.injEq, RlpItem.list.injEq] at hitem'
    rw [List.map_injective_iff.mpr accessItem_injective hitem']
    exact hkeys
  · intro h
    exact ⟨raw, bs, items, accessList, hout, hunsign, hencodes, hitem, h⟩

/-- A key is taken exactly or refused unless its digits do not make 32 bytes, the unmarshaller also
fails on the empty text, and of the keys that were taken exactly those of a list that has no such
key are signed as they were written. -/
theorem keys_taken_iff (input : String) :
    (TakesKeys input ↔ ¬ Misfit input) ∧ (UnmarshalsKeys input ↔ ¬ UnmarshalMisfit input) ∧
      (∀ entries accessList env input out, adaptAccessList entries = .ok accessList →
        input.accessList = some accessList → checkSignTx env input = .ok .eip1559 →
        (signTx env input).result = .ok out →
        (SignsKeys entries out ↔ ∀ entry ∈ entries, ∀ key ∈ writtenKeys entry, ¬ Misfit key)) ∧
      (∀ entries taken, adaptAuthorizationList entries = .ok taken →
        (List.Forall₂ (fun entry item => List.Forall₂ KeyText (writtenKeys entry) item.storageKeys)
            entries taken ↔ ∀ entry ∈ entries, ∀ key ∈ writtenKeys entry, ¬ Misfit key)) ∧
      (∀ hashes keys, adaptBlobVersionedHashes hashes = .ok keys →
        (List.Forall₂ KeyText hashes keys ↔ ∀ key ∈ hashes, ¬ Misfit key)) := by
  refine ⟨takesKeys_iff input, unmarshalsKeys_iff input, ?_, ?_, ?_⟩
  · intro entries accessList env input out hadapt hinput hcheck hok
    exact signsKeys_iff hadapt hinput hcheck hok
  · intro entries taken h
    exact authorizationKeys_iff h
  · intro hashes keys h
    exact blobKeys_iff h

def keyOne : String :=
  "0x0000000000000000000000000000000000000000000000000000000000000001"

/-- The access list of `feeInput` as it is written in a request. -/
def feeEntries : List AccessListParamEntry :=
  [⟨"0xcc00000000000000000000000000000000000000", some [keyOne]⟩]

private theorem length_writtenKeys_fee {entry : AccessListParamEntry} {key : String}
    {digits : List Char} (hentry : entry ∈ feeEntries) (hkey : key ∈ writtenKeys entry)
    (hpre : Prefixed key digits) : digits.length = 64 := by
  rw [feeEntries, List.mem_singleton] at hentry
  subst hentry
  rw [writtenKeys, Option.getD_some, List.mem_singleton] at hkey
  subst hkey
  rw [← hpre.drop_eq]
  rfl

private theorem feeEntries_fit :
    ∀ entry ∈ feeEntries, ∀ key ∈ writtenKeys entry, ¬ Misfit key := by
  intro entry hentry key hkey hmisfit
  obtain ⟨digits, hpre, -, -, hlength⟩ := hmisfit
  exact hlength (length_writtenKeys_fee hentry hkey hpre)

private theorem feeEntries_fit_unmarshal :
    ∀ entry ∈ feeEntries, ∀ key ∈ writtenKeys entry, ¬ UnmarshalMisfit key := by
  intro entry hentry key hkey hmisfit
  rcases hmisfit with hempty | ⟨digits, hpre, -, hlength⟩
  · subst hempty
    revert hkey hentry
    decide +revert
  · have h := length_writtenKeys_fee hentry hkey hpre
    omega

set_option maxRecDepth 10000 in
theorem keys_taken_iff_fee :
    (∀ entry ∈ feeEntries, ∀ key ∈ writtenKeys entry, TakesKeys key ∧ UnmarshalsKeys key) ∧
      (∃ out, (signTx feeEnv feeInput).result = .ok out ∧ SignsKeys feeEntries out) ∧
      (∃ taken, adaptAuthorizationList feeEntries = .ok taken ∧
        List.Forall₂ (fun entry item => List.Forall₂ KeyText (writtenKeys entry) item.storageKeys)
          feeEntries taken) ∧
      (∀ entry ∈ feeEntries, ∃ keys, adaptBlobVersionedHashes (writtenKeys entry) = .ok keys ∧
        List.Forall₂ KeyText (writtenKeys entry) keys) := by
  refine ⟨?_, ?_, ?_, ?_⟩
  · intro entry hentry key hkey
    exact ⟨(keys_taken_iff key).1.mpr (feeEntries_fit entry hentry key hkey),
      (keys_taken_iff key).2.1.mpr (feeEntries_fit_unmarshal entry hentry key hkey)⟩
  · obtain ⟨out, hok⟩ := signTx_fee_isOk
    have hadapt : (adaptAccessList feeEntries).toOption =
        some [⟨.copyFrom [0xcc], [.fromBytes (beWord 32 1)]⟩] := by decide +kernel
    have hsigns := (keys_taken_iff keyOne).2.2.1 feeEntries _ feeEnv feeInput out
      (Except.toOption_eq_some.mp hadapt) rfl checkSignTx_fee hok
    exact ⟨out, hok, hsigns.mpr feeEntries_fit⟩
  · have hadapt : (adaptAuthorizationList feeEntries).toOption =
        some [⟨.copyFrom [0xcc], [.fromBytes (beWord 32 1)]⟩] := by decide +kernel
    have htaken := Except.toOption_eq_some.mp hadapt
    exact ⟨_, htaken, ((keys_taken_iff keyOne).2.2.2.1 feeEntries _ htaken).mpr feeEntries_fit⟩
  · intro entry hentry
    have hfits := feeEntries_fit entry hentry
    rw [feeEntries, List.mem_singleton] at hentry
    subst hentry
    have hadapt : (adaptBlobVersionedHashes [keyOne]).toOption =
        some [.fromBytes (beWord 32 1)] := by decide +kernel
    have htaken := Except.toOption_eq_some.mp hadapt
    exact ⟨_, htaken, ((keys_taken_iff keyOne).2.2.2.2 _ _ htaken).mpr hfits⟩

/-- A key of one byte is taken, and 33 bytes run over the end of the array. -/
theorem keys_taken_short_long :
    ¬ TakesKeys "0x01" ∧
      ¬ UnmarshalsKeys "0x000000000000000000000000000000000000000000000000000000000000000000" := by
  constructor
  · intro h
    have haccepted : newHexBytes32FromString "0x01" = .ok (.fromBytes [1]) := by decide +kernel
    obtain ⟨digits, hpre, hlength, -⟩ := (h _).mp haccepted
    rw [← hpre.drop_eq] at hlength
    exact absurd hlength (by decide)
  · intro h
    have hpanic : HexBytes32.unmarshalText
        "0x000000000000000000000000000000000000000000000000000000000000000000" = none := by
      decide +kernel
    rw [UnmarshalsKeys, hpanic] at h
    exact absurd h.1 (by decide)

end Signare
