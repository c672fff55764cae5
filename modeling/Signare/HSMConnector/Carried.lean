import Signare.HSMConnector.SignTx

/-!
# What a signed transaction carries

Each transaction type has a slot for some of the fields of the input. A supplied field is carried
when the slot of its name holds its value, in the byte string that is signed and so in the
transaction that is returned.
-/

namespace Signare

open ByteCodec

inductive TxField
  | nonce
  | gasPrice
  | gas
  | toAddress
  | value
  | data
  | chainId
  | maxFeePerGas
  | maxPriorityFeePerGas
  | accessList
  | maxFeePerBlobGas
  | blobVersionedHashes
  | authorizationList
  deriving DecidableEq

def authorizationItem (entry : AuthorizationListEntry) : RlpItem :=
  .list [.str entry.address.bytes, .list (entry.storageKeys.map fun key => .str key.bytes)]

/-- The item of a list, if it has an entry. -/
def listItem {α : Type} (item : α → RlpItem) (entries : Option (List α)) : Option RlpItem :=
  match entries with
  | some (x :: xs) => some (.list ((x :: xs).map item))
  | _ => none

theorem listItem_eq_some {α : Type} {item : α → RlpItem} {entries : Option (List α)} {i : RlpItem}
    (h : listItem item entries = some i) : ∃ xs, entries = some xs ∧ i = .list (xs.map item) := by
  unfold listItem at h
  split at h
  · cases h
    exact ⟨_, rfl, rfl⟩
  · cases h

/-- What the caller supplied for a field. An empty list is as good as none. -/
def supplied (input : SignTxInput) : TxField → Option RlpItem
  | .nonce => some (.num input.nonce.toNat)
  | .gasPrice => input.gasPrice.map fun v => amount (some v)
  | .gas => input.gas.map fun v => .str (evenBytes v.toNat)
  | .toAddress => input.toAddress.map fun a => .str a.bytes
  | .value => input.value.map fun v => amount (some v)
  | .data => if input.data = [] then none else some (.str input.data)
  | .chainId => some (.str (evenBytes input.chainId.toNat))
  | .maxFeePerGas => input.maxFeePerGas.map fun v => amount (some v)
  | .maxPriorityFeePerGas => input.maxPriorityFeePerGas.map fun v => amount (some v)
  | .accessList => listItem accessItem input.accessList
  | .maxFeePerBlobGas => input.maxFeePerBlobGas.map fun v => amount (some v)
  | .blobVersionedHashes => listItem (fun hash => .str hash.bytes) input.blobVersionedHashes
  | .authorizationList => listItem authorizationItem input.authorizationList

/-- The fields a transaction type has, in their order in the signed list. -/
def slots : TransactionType → List TxField
  | .legacy => [.nonce, .gasPrice, .gas, .toAddress, .value, .data, .chainId]
  | .eip1559 => [.chainId, .nonce, .maxPriorityFeePerGas, .maxFeePerGas, .gas, .toAddress, .value,
      .data, .accessList]
  | _ => []

/-- The list that a signed byte string of the type encodes. -/
def signedItems : TransactionType → Bytes → Option (List RlpItem)
  | .legacy, preimage =>
    match RlpItem.decode preimage with
    | some (.list items) => some items
    | _ => none
  | .eip1559, type :: preimage =>
    match RlpItem.decode preimage with
    | some (.list items) => if type = eip1559TypePrefix then some items else none
    | _ => none
  | _, _ => none

/-- The transaction as it is returned, without its signature. -/
def unsign : TransactionType → Bytes → Option Bytes
  | .legacy => unsignLegacy
  | .eip1559 => unsignEIP1559
  | _ => fun _ => none

/-- Every supplied field is in the slot of its name. -/
def Carries (txType : TransactionType) (input : SignTxInput) (items : List RlpItem) : Prop :=
  ∀ field item, supplied input field = some item → (field, item) ∈ (slots txType).zip items

/-- A fee is supplied, or nothing that only a fee gives room for. -/
def Fits (input : SignTxInput) : Prop :=
  input.gasPrice.isSome ∨ input.maxFeePerGas.isSome ∨ input.maxPriorityFeePerGas.isSome ∨
    (supplied input .accessList = none ∧ input.maxFeePerBlobGas = none ∧
      supplied input .blobVersionedHashes = none ∧ supplied input .authorizationList = none)

theorem identifyTxType_legacy {input : SignTxInput} (h : identifyTxType input = .ok .legacy) :
    input.maxFeePerGas = none ∧ input.maxPriorityFeePerGas = none ∧
      (input.gasPrice.isSome → input.accessList = none ∧ input.maxFeePerBlobGas = none ∧
        input.blobVersionedHashes = none ∧ input.authorizationList = none) := by
  unfold identifyTxType at h
  split_ifs at h with hprice hother haccess hfee hall hblob
  · cases h
  · simp only [not_or, Option.not_isSome_iff_eq_none] at hother haccess
    exact ⟨hother.1, hother.2.1, fun _ => ⟨haccess, hother.2.2⟩⟩
  · cases h
  · cases h
  · simp only [not_or, Option.not_isSome_iff_eq_none] at hfee
    exact ⟨hfee.1, hfee.2, fun hsome => (hprice hsome).elim⟩

theorem identifyTxType_eip1559 {input : SignTxInput} (h : identifyTxType input = .ok .eip1559) :
    input.gasPrice = none ∧ input.maxFeePerGas.isSome ∧ input.maxPriorityFeePerGas.isSome ∧
      input.maxFeePerBlobGas = none ∧ input.blobVersionedHashes = none ∧
        input.authorizationList = none := by
  unfold identifyTxType at h
  split_ifs at h with hprice hother haccess hfee hall hblob
  · cases h
  · cases h
  · cases h
  · simp only [not_or, Option.not_isSome_iff_eq_none] at hprice hblob
    exact ⟨hprice, hall.1, hall.2.1, hblob⟩
  · cases h

theorem carries_eip1559 {input : SignTxInput} {maxFeePerGas maxPriorityFeePerGas : Int}
    (htype : identifyTxType input = .ok .eip1559) (hfee : input.maxFeePerGas = some maxFeePerGas)
    (hpriority : input.maxPriorityFeePerGas = some maxPriorityFeePerGas) :
    Carries .eip1559 input
      (eip1559Transaction input maxFeePerGas maxPriorityFeePerGas).commonItems := by
  obtain ⟨hprice, -, -, hblobFee, hblobs, hauth⟩ := identifyTxType_eip1559 htype
  intro field item h
  simp only [slots, EIP1559Transaction.commonItems, eip1559Transaction, List.zip_cons_cons,
    List.zip_nil_right, List.mem_cons, Prod.mk.injEq, List.not_mem_nil, or_false]
  cases field with
  | nonce => cases h; simp
  | chainId => cases h; simp
  | gasPrice => simp [supplied, hprice] at h
  | maxFeePerBlobGas => simp [supplied, hblobFee] at h
  | blobVersionedHashes => simp [supplied, hblobs, listItem] at h
  | authorizationList => simp [supplied, hauth, listItem] at h
  | maxFeePerGas =>
    simp only [supplied, hfee, Option.map_some, Option.some.injEq] at h
    simp [h]
  | maxPriorityFeePerGas =>
    simp only [supplied, hpriority, Option.map_some, Option.some.injEq] at h
    simp [h]
  | gas =>
    obtain ⟨gas, hgas, rfl⟩ := Option.map_eq_some_iff.mp h
    simp [hgas]
  | toAddress =>
    obtain ⟨a, ha, rfl⟩ := Option.map_eq_some_iff.mp h
    simp [ha, recipient]
  | value =>
    obtain ⟨v, hv, rfl⟩ := Option.map_eq_some_iff.mp h
    simp [hv]
  | data =>
    unfold supplied at h
    split_ifs at h
    cases h
    simp
  | accessList =>
    obtain ⟨entries, hentries, rfl⟩ := listItem_eq_some h
    simp [hentries]

theorem carries_legacy {input : SignTxInput} (htype : identifyTxType input = .ok .legacy)
    {rest : List RlpItem} :
    Carries .legacy input ((legacyTransaction input).commonItems ++
      .str (evenBytes input.chainId.toNat) :: rest) ↔ Fits input := by
  obtain ⟨hfee, hpriority, hother⟩ := identifyTxType_legacy htype
  have hslots : ∀ field item, (field, item) ∈ (slots .legacy).zip
      ((legacyTransaction input).commonItems ++ .str (evenBytes input.chainId.toNat) :: rest) →
      field ∈ slots .legacy := fun _ _ h => (List.of_mem_zip h).1
  constructor
  · intro h
    by_cases hprice : input.gasPrice.isSome
    · exact .inl hprice
    · have hnone : ∀ field, field ∉ slots .legacy → supplied input field = none := by
        intro field hfield
        by_contra hsome
        obtain ⟨item, hitem⟩ := Option.ne_none_iff_exists'.mp hsome
        exact hfield (hslots field item (h field item hitem))
      refine .inr (.inr (.inr ⟨hnone .accessList (by decide), ?_,
        hnone .blobVersionedHashes (by decide), hnone .authorizationList (by decide)⟩))
      exact Option.map_eq_none_iff.mp (hnone .maxFeePerBlobGas (by decide))
  · intro hfits field item h
    have hnone : supplied input .accessList = none ∧ input.maxFeePerBlobGas = none ∧
        supplied input .blobVersionedHashes = none ∧ supplied input .authorizationList = none := by
      rcases hfits with hprice | hsome | hsome | hnone
      · obtain ⟨haccess, hblob, hhashes, hauth⟩ := hother hprice
        simp [supplied, haccess, hblob, hhashes, hauth, listItem]
      · simp [hfee] at hsome
      · simp [hpriority] at hsome
      · exact hnone
    obtain ⟨haccess, hblob, hhashes, hauth⟩ := hnone
    simp only [slots, EthereumTransaction.commonItems, legacyTransaction, List.cons_append,
      List.nil_append, List.zip_cons_cons, List.zip_nil_left, List.mem_cons, Prod.mk.injEq,
      List.not_mem_nil, or_false]
    cases field with
    | nonce => cases h; simp
    | chainId => cases h; simp
    | accessList => rw [haccess] at h; cases h
    | blobVersionedHashes => rw [hhashes] at h; cases h
    | authorizationList => rw [hauth] at h; cases h
    | maxFeePerBlobGas => simp [supplied, hblob] at h
    | maxFeePerGas => simp [supplied, hfee] at h
    | maxPriorityFeePerGas => simp [supplied, hpriority] at h
    | gasPrice =>
      obtain ⟨v, hv, rfl⟩ := Option.map_eq_some_iff.mp h
      simp [hv]
    | gas =>
      obtain ⟨gas, hgas, rfl⟩ := Option.map_eq_some_iff.mp h
      simp [hgas]
    | toAddress =>
      obtain ⟨a, ha, rfl⟩ := Option.map_eq_some_iff.mp h
      simp [ha, recipient]
    | value =>
      obtain ⟨v, hv, rfl⟩ := Option.map_eq_some_iff.mp h
      simp [hv]
    | data =>
      unfold supplied at h
      split_ifs at h
      cases h
      simp

variable {env : SigningEnv} {input : SignTxInput} {out : SignTxOutput}

theorem signWith_ok {failure : String} {slotData : SlotConnectionData} {fromAddress : Address}
    {data : HexBytes} {signature : Bytes}
    (h : (signWith env failure slotData fromAddress data).result = .ok signature) :
    (signWith env failure slotData fromAddress data).calls = [signInput slotData fromAddress data] ∧
      (parity signature = 0 ∨ parity signature = 1) := by
  obtain ⟨_, _, h₁, hcalls₁⟩ := Traced.bind_eq_ok.mp h
  obtain ⟨rawSig, _, h₂, hcalls₂⟩ := Traced.bind_eq_ok.mp h₁
  exact ⟨hcalls₁.trans (by rw [hcalls₂]; rfl), parity_of_assembled h₂⟩

theorem generateEthereumSignature_eq (signature : Bytes) (chainId : Int) :
    generateEthereumSignature signature chainId =
      ⟨35 + 2 * chainId + parity signature, signatureR signature, signatureS signature⟩ := by
  have hv : parity signature + 35 + chainId * 2 = 35 + 2 * chainId + parity signature := by ring
  rw [generateEthereumSignature, hv]

theorem unsign_withSignature {keccak : Hash256} {tx : EthereumTransaction} {signature : Bytes}
    {raw preimage : Bytes} (hchain : 1 ≤ tx.chainId)
    (hparity : parity signature = 0 ∨ parity signature = 1)
    (hraw : (tx.withSignature (generateEthereumSignature signature tx.chainId)).rlpEncode keccak =
      .ok raw)
    (hpre : tx.preimage keccak = .ok preimage) : unsignLegacy raw = some preimage := by
  rw [generateEthereumSignature_eq] at hraw
  exact (tx.withSignature _).unsign_rlpEncode hchain hparity rfl hraw hpre

theorem unsign_withEIP1559Signature {keccak : Hash256} {tx : EIP1559Transaction}
    {signature : EIP1559TransactionSignature} {raw preimage : Bytes}
    (hraw : (tx.withSignature signature).rlpEncode keccak = .ok raw)
    (hpre : tx.preimage keccak = .ok preimage) : unsignEIP1559 raw = some preimage :=
  (tx.withSignature signature).unsign_rlpEncode hraw hpre

theorem signLegacyTx_ok (hchain : 1 ≤ input.chainId)
    (h : (signLegacyTx env input).result = .ok out) :
    ∃ preimage raw, (legacyTransaction input).preimage env.keccak = .ok preimage ∧
      (signLegacyTx env input).calls =
        [signInput input.toSlotConnectionData input.fromAddress (env.keccak.sum preimage)] ∧
      out.signedTx = HexBytes.encode raw ∧ unsignLegacy raw = some preimage := by
  obtain ⟨payload, hpayload, h₁, hcalls₁⟩ := Traced.lift_bind_eq_ok.mp h
  rw [EthereumTransaction.hash, Except.map_eq_ok] at hpayload
  obtain ⟨preimage, hpre, rfl⟩ := hpayload
  obtain ⟨signature, hsig, h₂, hcalls₂⟩ := Traced.bind_eq_ok.mp h₁
  obtain ⟨hcall, hparity⟩ := signWith_ok hsig
  obtain ⟨raw, hraw, h₃, hcalls₃⟩ := Traced.lift_bind_eq_ok.mp h₂
  rw [orInternalFromErr_eq_ok] at hraw
  cases h₃
  refine ⟨preimage, raw, hpre, ?_, rfl, unsign_withSignature hchain hparity hraw hpre⟩
  refine hcalls₁.trans ?_
  rw [hcalls₂, hcalls₃, signAndRecover, hcall]
  rfl

theorem signEIP1559Tx_ok (h : (signEIP1559Tx env input).result = .ok out) :
    ∃ maxFeePerGas maxPriorityFeePerGas preimage raw, input.maxFeePerGas = some maxFeePerGas ∧
      input.maxPriorityFeePerGas = some maxPriorityFeePerGas ∧
      (eip1559Transaction input maxFeePerGas maxPriorityFeePerGas).preimage env.keccak =
        .ok preimage ∧
      (signEIP1559Tx env input).calls =
        [signInput input.toSlotConnectionData input.fromAddress (env.keccak.sum preimage)] ∧
      out.signedTx = HexBytes.encode raw ∧ unsignEIP1559 raw = some preimage := by
  unfold signEIP1559Tx at h ⊢
  split at h
  · next maxFeePerGas maxPriorityFeePerGas hfee hpriority =>
    obtain ⟨payload, hpayload, h₁, hcalls₁⟩ := Traced.lift_bind_eq_ok.mp h
    rw [EIP1559Transaction.hash, Except.map_eq_ok] at hpayload
    obtain ⟨preimage, hpre, rfl⟩ := hpayload
    obtain ⟨signature, hsig, h₂, hcalls₂⟩ := Traced.bind_eq_ok.mp h₁
    obtain ⟨hcall, hparity⟩ := signWith_ok hsig
    obtain ⟨raw, hraw, h₃, hcalls₃⟩ := Traced.lift_bind_eq_ok.mp h₂
    rw [orInternalFromErr_eq_ok] at hraw
    cases h₃
    refine ⟨maxFeePerGas, maxPriorityFeePerGas, preimage, raw, hfee, hpriority, hpre, ?_, rfl,
      unsign_withEIP1559Signature hraw hpre⟩
    refine hcalls₁.trans ?_
    rw [hcalls₂, hcalls₃, signAndRecover, hcall]
    rfl
  · cases h

theorem checkSignTx_ok {txType : TransactionType} (h : checkSignTx env input = .ok txType) :
    1 ≤ input.chainId ∧ identifyTxType input = .ok txType := by
  obtain ⟨_, _, h⟩ := Except.bind_eq_ok.mp h
  split_ifs at h with hfrom hchain
  refine ⟨by omega, ?_⟩
  cases htype : identifyTxType input with
  | error e => rw [htype] at h; cases h
  | ok t => rw [htype] at h; cases h; rfl

theorem signTx_legacy_isOk {payload signature : Bytes}
    (hcheck : checkSignTx env input = .ok .legacy)
    (hpayload : (legacyTransaction input).hash env.keccak = .ok payload)
    (hsign : (signAndRecover env input payload).result = .ok signature)
    (hraw : (((legacyTransaction input).withSignature
      (generateEthereumSignature signature input.chainId)).rlpEncode env.keccak).toOption.isSome) :
    ∃ out, (signTx env input).result = .ok out := by
  obtain ⟨raw, hraw⟩ := Except.exists_ok_of_isSome hraw
  rw [signTx, Traced.result_lift_bind_of_ok hcheck]
  dsimp only
  rw [signLegacyTx, Traced.result_lift_bind_of_ok hpayload, Traced.result_bind_of_ok hsign]
  dsimp only
  rw [hraw]
  exact ⟨_, rfl⟩

theorem signTx_eip1559_isOk {maxFeePerGas maxPriorityFeePerGas : Int} {payload signature : Bytes}
    (hcheck : checkSignTx env input = .ok .eip1559)
    (hfee : input.maxFeePerGas = some maxFeePerGas)
    (hpriority : input.maxPriorityFeePerGas = some maxPriorityFeePerGas)
    (hpayload : (eip1559Transaction input maxFeePerGas maxPriorityFeePerGas).hash env.keccak =
      .ok payload)
    (hsign : (signAndRecover env input payload).result = .ok signature)
    (hraw : (((eip1559Transaction input maxFeePerGas maxPriorityFeePerGas).withSignature
      (generateEIP1559TransactionSignature signature)).rlpEncode env.keccak).toOption.isSome) :
    ∃ out, (signTx env input).result = .ok out := by
  obtain ⟨raw, hraw⟩ := Except.exists_ok_of_isSome hraw
  rw [signTx, Traced.result_lift_bind_of_ok hcheck]
  dsimp only
  rw [signEIP1559Tx, hfee, hpriority, Traced.result_lift_bind_of_ok hpayload,
    Traced.result_bind_of_ok hsign]
  dsimp only
  rw [hraw]
  exact ⟨_, rfl⟩

/-- Every supplied field is in what is signed and in what is returned. -/
def CarriesSupplied (env : SigningEnv) (input : SignTxInput) (out : SignTxOutput) : Prop :=
  ∃ txType preimage items raw, identifyTxType input = .ok txType ∧
    (signTx env input).calls =
      [signInput input.toSlotConnectionData input.fromAddress (env.keccak.sum preimage)] ∧
    signedItems txType preimage = some items ∧ out.signedTx = HexBytes.encode raw ∧
    unsign txType raw = some preimage ∧ Carries txType input items

theorem signTx_ok (hok : (signTx env input).result = .ok out) :
    ∃ txType preimage items raw, identifyTxType input = .ok txType ∧
      (signTx env input).calls =
        [signInput input.toSlotConnectionData input.fromAddress (env.keccak.sum preimage)] ∧
      signedItems txType preimage = some items ∧
      out.signedTx = HexBytes.encode raw ∧ unsign txType raw = some preimage ∧
      (Carries txType input items ↔ Fits input) := by
  obtain ⟨txType, hcheck, hrun, hcalls⟩ := Traced.lift_bind_eq_ok.mp hok
  obtain ⟨hchain, htype⟩ := checkSignTx_ok hcheck
  cases txType with
  | legacy =>
    obtain ⟨preimage, raw, hpre, hcall, hout, hunsign⟩ := signLegacyTx_ok hchain hrun
    obtain ⟨_, _, henc⟩ := EthereumTransaction.preimage_ok hpre
    refine ⟨.legacy, preimage, (legacyTransaction input).commonItems ++
      [.str (evenBytes input.chainId.toNat), .num 0, .num 0], raw, htype, hcalls.trans hcall, ?_,
      hout, hunsign, carries_legacy htype⟩
    rw [signedItems, henc.decode]
    rfl
  | eip1559 =>
    obtain ⟨maxFeePerGas, maxPriorityFeePerGas, preimage, raw, hfee, hpriority, hpre, hcall, hout,
      hunsign⟩ := signEIP1559Tx_ok hrun
    obtain ⟨_, bs, rfl, henc⟩ := EIP1559Transaction.preimage_ok hpre
    refine ⟨.eip1559, _, _, raw, htype, hcalls.trans hcall, ?_, hout, hunsign,
      iff_of_true (carries_eip1559 htype hfee hpriority) (.inr (.inl (by rw [hfee]; rfl)))⟩
    rw [signedItems, henc.decode]
    rfl
  | eip2930 => cases hrun
  | eip4844 => cases hrun
  | eip7702 => cases hrun

/-- In a run that succeeds, every supplied field is carried exactly when a fee is supplied, or
nothing that only a fee gives room for. -/
theorem signTx_carries_iff (env : SigningEnv) (input : SignTxInput) (out : SignTxOutput)
    (hok : (signTx env input).result = .ok out) : CarriesSupplied env input out ↔ Fits input := by
  obtain ⟨txType, preimage, items, raw, htype, hcalls, hitems, hout, hunsign, hiff⟩ :=
    signTx_ok hok
  constructor
  · rintro ⟨txType', preimage', items', raw', htype', -, hitems', hout', hunsign', hcarries⟩
    obtain rfl : txType = txType' := Except.ok.inj (htype.symm.trans htype')
    obtain rfl : raw = raw' := HexBytes.encode_injective (hout.symm.trans hout')
    obtain rfl : preimage = preimage' := Option.some.inj (hunsign.symm.trans hunsign')
    obtain rfl : items = items' := Option.some.inj (hitems.symm.trans hitems')
    exact hiff.mp hcarries
  · intro hfits
    exact ⟨txType, preimage, items, raw, htype, hcalls, hitems, hout, hunsign, hiff.mpr hfits⟩

/-- The public key of the private key 1. -/
def generatorKey : Bytes :=
  4 :: (beWord 32 0x79be667ef9dcbbac55a06295ce870b07029bfcdb2dce28d959f2815b16f81798 ++
    beWord 32 0x483ada7726a3c4655da4fbfc0e1108a8fd17b448a68554199c47d08ffb10d4b8)

def generatorAddress : Address := .copyFrom (beWord 20 0x7e5f4552091a69125d5dfcb7b8c2659029395bdf)

/-- A backend with that key; `recovered` are the keys the signature on the digest recovers. -/
def oneKeyEnv (digest signature : Bytes) (recovered : List (Bytes × Bytes)) : SigningEnv where
  keccak := keccak256
  recoverCompact sig data :=
    if data = digest ∧ (recovered.lookup sig).isSome then .ok (recovered.lookup sig)
    else .error (.text "signature is not for the given message")
  parsePubKey key := .ok key
  validateSignTx _ := .ok ()
  create
    | .softHSM => .ok ()
    | _ => .error (.typed .notImplemented "" none)
  sign _ request :=
    if request.data = digest then .ok signature else .error ⟨.text "no signature", false⟩

def exampleConfig : SlotConfig := ⟨[], none⟩

/-- A call with an access list and both fees. -/
def feeInput : SignTxInput where
  slot := "0"
  pin := "userpin"
  config := exampleConfig
  moduleKind := .softHSM
  fromAddress := generatorAddress
  toAddress := some (.copyFrom [0xbb])
  gas := some 21000
  gasPrice := none
  value := some 5
  data := []
  nonce := 1
  chainId := 1
  maxFeePerGas := some 300
  maxPriorityFeePerGas := some 2
  accessList := some [⟨.copyFrom [0xcc], [.fromBytes (beWord 32 1)]⟩]
  maxFeePerBlobGas := none
  blobVersionedHashes := none
  authorizationList := none

def feeSignature : Bytes :=
  beWord 32 0xf01d6b9018ab421dd410404cb869072065522bf85734008f105cf385a023a80f ++
    beWord 32 0x15944367ec11a05b6f496c378f7b5ee0761dc1a4532187b7acb5e295183ee0df

def feeDigest : Bytes :=
  beWord 32 0xaa8912d6c552971bb79342f95bd93427cfea34f30cf35538f7d0b6b783d362c9

def feeEnv : SigningEnv :=
  oneKeyEnv feeDigest feeSignature
    [(27 :: feeSignature,
      4 :: (beWord 32 0x535e2c8faa4368ca3e5a9e4f5a1dd8c06a1690e46823dacd4892f662ab654064 ++
        beWord 32 0x4c5e37424e23173e4eeec46f0503cf02cea9b649e4b87c9351e91fc2847c88a3)),
      (28 :: feeSignature, generatorKey)]

-- One theorem, as every evaluation in the kernel waits for those before it.
set_option maxRecDepth 100000 in
private theorem steps_fee :
    checkSignTx feeEnv feeInput = .ok .eip1559 ∧
      (eip1559Transaction feeInput 300 2).hash feeEnv.keccak = .ok feeDigest ∧
      (signAndRecover feeEnv feeInput feeDigest).result = .ok (28 :: feeSignature) ∧
      (((eip1559Transaction feeInput 300 2).withSignature
        (generateEIP1559TransactionSignature (28 :: feeSignature))).rlpEncode
          feeEnv.keccak).toOption.isSome := by
  refine ⟨?_, ?_, ?_, ?_⟩
  · decide +kernel
  · decide +kernel
  · decide +kernel
  · decide +kernel

theorem checkSignTx_fee : checkSignTx feeEnv feeInput = .ok .eip1559 := steps_fee.1

theorem signTx_fee_isOk : ∃ out, (signTx feeEnv feeInput).result = .ok out := by
  obtain ⟨hcheck, hhash, hsign, hencode⟩ := steps_fee
  exact signTx_eip1559_isOk hcheck rfl rfl hhash hsign hencode

theorem signTx_carries_iff_fee :
    ∃ out, (signTx feeEnv feeInput).result = .ok out ∧ Fits feeInput ∧
      CarriesSupplied feeEnv feeInput out := by
  obtain ⟨out, hok⟩ := signTx_fee_isOk
  have hfits : Fits feeInput := .inr (.inl rfl)
  exact ⟨out, hok, hfits, (signTx_carries_iff feeEnv feeInput out hok).mpr hfits⟩

/-- The same call without its fees. -/
def unpricedInput : SignTxInput :=
  { feeInput with maxFeePerGas := none, maxPriorityFeePerGas := none }

def unpricedSignature : Bytes :=
  beWord 32 0xf01d6b9018ab421dd410404cb869072065522bf85734008f105cf385a023a80f ++
    beWord 32 0x47ef28e6b652e4bdee964acea76fee06a17426501a6d727345711cf2fb6aa560

def unpricedDigest : Bytes :=
  beWord 32 0x33f736e1c3fc32dbde72584b0309a9e64ed886192b63d0a35983a3eaa584049f

def unpricedEnv : SigningEnv :=
  oneKeyEnv unpricedDigest unpricedSignature [(27 :: unpricedSignature, generatorKey)]

set_option maxRecDepth 100000 in
private theorem steps_unpriced :
    checkSignTx unpricedEnv unpricedInput = .ok .legacy ∧
      (legacyTransaction unpricedInput).hash unpricedEnv.keccak = .ok unpricedDigest ∧
      (signAndRecover unpricedEnv unpricedInput unpricedDigest).result =
        .ok (27 :: unpricedSignature) ∧
      (((legacyTransaction unpricedInput).withSignature
        (generateEthereumSignature (27 :: unpricedSignature) unpricedInput.chainId)).rlpEncode
          unpricedEnv.keccak).toOption.isSome := by
  refine ⟨?_, ?_, ?_, ?_⟩
  · decide +kernel
  · decide +kernel
  · decide +kernel
  · decide +kernel

/-- Without a fee the access list is left out of what is signed. -/
theorem signTx_drops_accessList :
    ¬ ∀ env input out, (signTx env input).result = .ok out → CarriesSupplied env input out := by
  intro h
  obtain ⟨hcheck, hhash, hsign, hencode⟩ := steps_unpriced
  obtain ⟨out, hok⟩ := signTx_legacy_isOk hcheck hhash hsign hencode
  obtain ⟨txType, _, items, _, htype, -, -, -, -, hcarries⟩ := h unpricedEnv unpricedInput out hok
  obtain rfl : TransactionType.legacy = txType := Except.ok.inj htype
  obtain ⟨item, hitem⟩ : ∃ item, supplied unpricedInput .accessList = some item := ⟨_, rfl⟩
  have hslot := (List.of_mem_zip (hcarries .accessList item hitem)).1
  exact absurd hslot (by decide)

end Signare
