import Signare.HSMConnector.Transaction

/-!
# What is emitted is what was signed

The items each encoder writes, and from them the signed transaction with its signature taken out
again: it is the byte string that was hashed.
-/

namespace Signare

open ByteCodec

namespace EthereumTransaction

/-- The items both encoders start with. -/
def commonItems (tx : EthereumTransaction) : List RlpItem :=
  [.num tx.nonce.toNat, amount tx.gasPrice, .str (evenBytes tx.gas.toNat),
    .str (recipient tx.toAddress), amount tx.value, .str tx.data]

def AmountsNonneg (tx : EthereumTransaction) : Prop := 0 ≤ tx.gasPrice ∧ 0 ≤ tx.value.getD 0

theorem toItems_common {tx : EthereumTransaction} {rest : List RlpInput} {items : List RlpItem}
    (h : RlpInput.toItems (.bytesPointer (some (beBytes tx.nonce.toNat)) ::
      .bigInt (nonZero tx.gasPrice) :: .bytes (evenBytes tx.gas.toNat) ::
      .bytes (recipient tx.toAddress) :: .bigInt (tx.value.bind nonZero) ::
      .bytes tx.data :: rest) = some items) :
    tx.AmountsNonneg ∧
      ∃ restItems, RlpInput.toItems rest = some restItems ∧ items = tx.commonItems ++ restItems := by
  obtain ⟨_, _, hnonce, h₁, rfl⟩ := toItems_cons.mp h
  obtain ⟨_, _, hprice, h₂, rfl⟩ := toItems_cons.mp h₁
  obtain ⟨_, _, hgas, h₃, rfl⟩ := toItems_cons.mp h₂
  obtain ⟨_, _, hto, h₄, rfl⟩ := toItems_cons.mp h₃
  obtain ⟨_, _, hvalue, h₅, rfl⟩ := toItems_cons.mp h₄
  obtain ⟨_, restItems, hdata, h₆, rfl⟩ := toItems_cons.mp h₅
  obtain ⟨hprice', rfl⟩ := toItem_bigInt.mp hprice
  obtain ⟨hvalue', rfl⟩ := toItem_bigInt.mp hvalue
  cases hnonce
  cases hgas
  cases hto
  cases hdata
  simp only [getD_nonZero, getD_bind_nonZero] at hprice' hvalue'
  refine ⟨⟨hprice', hvalue'⟩, restItems, h₆, ?_⟩
  simp [commonItems, amount, RlpItem.num]

theorem preimage_ok {keccak : Hash256} {tx : EthereumTransaction} {b : Bytes}
    (h : tx.preimage keccak = .ok b) :
    0 ≤ tx.chainId ∧ tx.AmountsNonneg ∧
      Encodes (.list (tx.commonItems ++ [.str (evenBytes tx.chainId.toNat), .num 0, .num 0])) b := by
  simp only [preimage, nonceBytes_eq, gasBytes_eq, toBytes_eq, dataBytes_eq, Except.ok_bind] at h
  obtain ⟨chainId, hchain, h⟩ := Except.bind_eq_ok.mp h
  obtain ⟨hnonneg, rfl⟩ := chainIdBytes_ok hchain
  obtain ⟨items, hitems, henc⟩ := encodeOr_ok h
  obtain ⟨hamounts, restItems, hrest, rfl⟩ := toItems_common hitems
  cases hrest
  exact ⟨hnonneg, hamounts, henc⟩

theorem rlpEncode_ok {keccak : Hash256} {tx : EthereumTransaction} {b : Bytes}
    (h : tx.rlpEncode keccak = .ok b) :
    ∃ signature, tx.signature = some signature ∧ 0 ≤ signature.v ∧
      Encodes (.list (tx.commonItems ++
        [amount signature.v, amount signature.r, amount signature.s])) b := by
  unfold rlpEncode at h
  split at h
  · cases h
  · next signature hsig =>
    simp only [nonceBytes_eq, gasBytes_eq, toBytes_eq, dataBytes_eq, Except.ok_bind] at h
    obtain ⟨_, _, h⟩ := Except.bind_eq_ok.mp h
    obtain ⟨items, hitems, henc⟩ := encodeOr_ok h
    obtain ⟨_, restItems, hrest, rfl⟩ := toItems_common hitems
    obtain ⟨_, _, hv, hrest₁, rfl⟩ := toItems_cons.mp hrest
    obtain ⟨_, _, hr, hrest₂, rfl⟩ := toItems_cons.mp hrest₁
    obtain ⟨_, _, hs, hrest₃, rfl⟩ := toItems_cons.mp hrest₂
    cases hrest₃
    obtain ⟨hv', rfl⟩ := toItem_bigInt.mp hv
    obtain ⟨_, rfl⟩ := toItem_bigInt.mp hr
    obtain ⟨_, rfl⟩ := toItem_bigInt.mp hs
    exact ⟨signature, hsig, hv', henc⟩

end EthereumTransaction

namespace EIP1559Transaction

/-- The items both encoders start with. -/
def commonItems (tx : EIP1559Transaction) : List RlpItem :=
  [.str (evenBytes tx.chainId.toNat), .num tx.nonce.toNat, amount tx.maxPriorityFeePerGas,
    amount tx.maxFeePerGas, .str (evenBytes tx.gas.toNat), .str (recipient tx.toAddress),
    amount tx.value, .str tx.data, .list (tx.accessList.map accessItem)]

structure AmountsNonneg (tx : EIP1559Transaction) : Prop where
  chainId : 0 ≤ tx.chainId
  maxPriorityFeePerGas : 0 ≤ tx.maxPriorityFeePerGas
  maxFeePerGas : 0 ≤ tx.maxFeePerGas
  value : 0 ≤ tx.value.getD 0

theorem toItems_common {keccak : Hash256} {tx : EIP1559Transaction} {rest : List RlpInput}
    {items : List RlpItem} (hchain : 0 ≤ tx.chainId)
    (h : RlpInput.toItems (.bytes (evenBytes tx.chainId.toNat) ::
      .bytesPointer (some (beBytes tx.nonce.toNat)) :: .bigInt (nonZero tx.maxPriorityFeePerGas) ::
      .bigInt (nonZero tx.maxFeePerGas) :: .bytes (evenBytes tx.gas.toNat) ::
      .bytes (recipient tx.toAddress) :: .bigInt (tx.value.bind nonZero) :: .bytes tx.data ::
      .list (accessListToRLPInterface keccak tx.accessList) :: rest) = some items) :
    tx.AmountsNonneg ∧
      ∃ restItems, RlpInput.toItems rest = some restItems ∧ items = tx.commonItems ++ restItems := by
  obtain ⟨_, _, hchainItem, h₁, rfl⟩ := toItems_cons.mp h
  obtain ⟨_, _, hnonce, h₂, rfl⟩ := toItems_cons.mp h₁
  obtain ⟨_, _, hpriority, h₃, rfl⟩ := toItems_cons.mp h₂
  obtain ⟨_, _, hfee, h₄, rfl⟩ := toItems_cons.mp h₃
  obtain ⟨_, _, hgas, h₅, rfl⟩ := toItems_cons.mp h₄
  obtain ⟨_, _, hto, h₆, rfl⟩ := toItems_cons.mp h₅
  obtain ⟨_, _, hvalue, h₇, rfl⟩ := toItems_cons.mp h₆
  obtain ⟨_, _, hdata, h₈, rfl⟩ := toItems_cons.mp h₇
  obtain ⟨_, restItems, haccess, h₉, rfl⟩ := toItems_cons.mp h₈
  obtain ⟨hpriority', rfl⟩ := toItem_bigInt.mp hpriority
  obtain ⟨hfee', rfl⟩ := toItem_bigInt.mp hfee
  obtain ⟨hvalue', rfl⟩ := toItem_bigInt.mp hvalue
  rw [RlpInput.toItem, toItems_accessList] at haccess
  cases hchainItem
  cases hnonce
  cases hgas
  cases hto
  cases hdata
  cases haccess
  simp only [getD_nonZero, getD_bind_nonZero] at hpriority' hfee' hvalue'
  refine ⟨⟨hchain, hpriority', hfee', hvalue'⟩, restItems, h₉, ?_⟩
  simp [commonItems, amount, RlpItem.num]

theorem prepareCommonFields_eq (keccak : Hash256) (nonce gas : HexUInt64)
    (toAddress : Option Address) (value : Option Int) (data : HexBytes) :
    prepareCommonFields keccak nonce gas toAddress value data =
      .ok { nonceBytes := beBytes nonce.toNat, gasBytes := evenBytes gas.toNat,
            toBytes := recipient toAddress, value := value.bind nonZero, data := data } := by
  simp only [prepareCommonFields, nonceBytes_eq, gasBytes_eq, toBytes_eq, dataBytes_eq]
  rfl

theorem preimage_ok {keccak : Hash256} {tx : EIP1559Transaction} {b : Bytes}
    (h : tx.preimage keccak = .ok b) :
    tx.AmountsNonneg ∧
      ∃ bs, b = eip1559TypePrefix :: bs ∧ Encodes (.list tx.commonItems) bs := by
  simp only [preimage, prepareCommonFields_eq, Except.ok_bind] at h
  obtain ⟨chainId, hchain, h⟩ := Except.bind_eq_ok.mp h
  obtain ⟨hnonneg, rfl⟩ := chainIdBytes_ok hchain
  obtain ⟨bs, hbs, h⟩ := Except.bind_eq_ok.mp h
  cases h
  obtain ⟨items, hitems, henc⟩ := encodeOr_ok hbs
  obtain ⟨hamounts, restItems, hrest, rfl⟩ := toItems_common hnonneg hitems
  cases hrest
  rw [List.append_nil] at henc
  exact ⟨hamounts, bs, rfl, henc⟩

theorem rlpEncode_ok {keccak : Hash256} {tx : EIP1559Transaction} {b : Bytes}
    (h : tx.rlpEncode keccak = .ok b) :
    ∃ signature bs, tx.signature = some signature ∧ b = eip1559TypePrefix :: bs ∧
      Encodes (.list (tx.commonItems ++
        [amount signature.yParity, amount signature.r, amount signature.s])) bs := by
  unfold rlpEncode at h
  split at h
  · cases h
  · next signature hsig =>
    simp only [prepareCommonFields_eq, Except.ok_bind] at h
    obtain ⟨chainId, hchain, h⟩ := Except.bind_eq_ok.mp h
    obtain ⟨hnonneg, rfl⟩ := chainIdBytes_ok hchain
    obtain ⟨bs, hbs, h⟩ := Except.bind_eq_ok.mp h
    cases h
    obtain ⟨items, hitems, henc⟩ := encodeOr_ok hbs
    obtain ⟨_, restItems, hrest, rfl⟩ := toItems_common hnonneg hitems
    obtain ⟨_, _, hv, hrest₁, rfl⟩ := toItems_cons.mp hrest
    obtain ⟨_, _, hr, hrest₂, rfl⟩ := toItems_cons.mp hrest₁
    obtain ⟨_, _, hs, hrest₃, rfl⟩ := toItems_cons.mp hrest₂
    cases hrest₃
    obtain ⟨_, rfl⟩ := toItem_bigInt.mp hv
    obtain ⟨_, rfl⟩ := toItem_bigInt.mp hr
    obtain ⟨_, rfl⟩ := toItem_bigInt.mp hs
    exact ⟨signature, bs, hsig, rfl, henc⟩

end EIP1559Transaction

/-- A signed legacy transaction with the EIP-155 suffix back in the signature's place. -/
def unsignLegacy (raw : Bytes) : Option Bytes :=
  match RlpItem.decode raw with
  | some (.list [nonce, gasPrice, gas, recipient, value, data, .str v, _, _]) =>
    some (RlpItem.encode (.list [nonce, gasPrice, gas, recipient, value, data,
      .num ((beNat v - 35) / 2), .num 0, .num 0]))
  | _ => none

/-- A signed EIP-1559 transaction without its last three items. -/
def unsignEIP1559 : Bytes → Option Bytes
  | [] => none
  | type :: raw =>
    if type = eip1559TypePrefix then
      match RlpItem.decode raw with
      | some (.list items) =>
        some (eip1559TypePrefix :: RlpItem.encode (.list (items.take (items.length - 3))))
      | _ => none
    else none

theorem unsignLegacy_of_encodes {a b c d e f : RlpItem} {v r s : Nat} {raw : Bytes}
    (h : Encodes (.list [a, b, c, d, e, f, .num v, .num r, .num s]) raw) :
    unsignLegacy raw = some (RlpItem.encode
      (.list [a, b, c, d, e, f, .num ((v - 35) / 2), .num 0, .num 0])) := by
  rw [unsignLegacy, h.decode]
  simp only [RlpItem.num, beNat_beBytes]

theorem unsignEIP1559_of_encodes {items : List RlpItem} {a b c : RlpItem} {raw : Bytes}
    (h : Encodes (.list (items ++ [a, b, c])) raw) :
    unsignEIP1559 (eip1559TypePrefix :: raw) =
      some (eip1559TypePrefix :: RlpItem.encode (.list items)) := by
  have htake : (items ++ [a, b, c]).take ((items ++ [a, b, c]).length - 3) = items := by simp
  rw [unsignEIP1559, if_pos rfl, h.decode]
  simp only [htake]

private theorem evenBytes_chainId {chainId parity : Int} (hc : 1 ≤ chainId)
    (hp : parity = 0 ∨ parity = 1) :
    evenBytes chainId.toNat = beBytes (((35 + 2 * chainId + parity).toNat - 35) / 2) := by
  have hdiv : ((35 + 2 * chainId + parity).toNat - 35) / 2 = chainId.toNat := by omega
  rw [hdiv, evenBytes_of_ne (by omega)]

theorem EthereumTransaction.unsign_rlpEncode {keccak : Hash256} {tx : EthereumTransaction}
    {parity r s : Int} {raw preimage : Bytes} (hc : 1 ≤ tx.chainId) (hp : parity = 0 ∨ parity = 1)
    (hsig : tx.signature = some ⟨35 + 2 * tx.chainId + parity, r, s⟩)
    (hraw : tx.rlpEncode keccak = .ok raw) (hpre : tx.preimage keccak = .ok preimage) :
    unsignLegacy raw = some preimage := by
  obtain ⟨signature, hsig', _, henc⟩ := rlpEncode_ok hraw
  obtain ⟨_, _, hpreimage⟩ := preimage_ok hpre
  rw [hsig] at hsig'
  cases hsig'
  rw [evenBytes_chainId hc hp] at hpreimage
  rw [← hpreimage.1]
  exact unsignLegacy_of_encodes henc

theorem EIP1559Transaction.unsign_rlpEncode {keccak : Hash256} {tx : EIP1559Transaction}
    {raw preimage : Bytes} (hraw : tx.rlpEncode keccak = .ok raw)
    (hpre : tx.preimage keccak = .ok preimage) : unsignEIP1559 raw = some preimage := by
  obtain ⟨signature, bs, _, rfl, henc⟩ := rlpEncode_ok hraw
  obtain ⟨_, bs', rfl, hpreimage⟩ := preimage_ok hpre
  rw [← hpreimage.1]
  exact unsignEIP1559_of_encodes henc

/-- The emitted transaction, with its signature taken out, is byte for byte what `Hash` hashed. -/
theorem rlpEncode_carries_preimage (keccak : Hash256) :
    (∀ (tx : EthereumTransaction) (parity r s : Int) (raw hash : Bytes), 1 ≤ tx.chainId →
      parity = 0 ∨ parity = 1 → tx.signature = some ⟨35 + 2 * tx.chainId + parity, r, s⟩ →
      tx.rlpEncode keccak = .ok raw → tx.hash keccak = .ok hash →
        ∃ preimage, tx.preimage keccak = .ok preimage ∧ hash = keccak.sum preimage ∧
          unsignLegacy raw = some preimage) ∧
    (∀ (tx : EIP1559Transaction) (raw hash : Bytes), 1 ≤ tx.chainId →
      tx.rlpEncode keccak = .ok raw → tx.hash keccak = .ok hash →
        ∃ preimage, tx.preimage keccak = .ok preimage ∧ hash = keccak.sum preimage ∧
          unsignEIP1559 raw = some preimage) := by
  constructor
  · intro tx parity r s raw hash hc hp hsig hraw hhash
    obtain ⟨preimage, hpre, rfl⟩ := Except.map_eq_ok.mp hhash
    exact ⟨preimage, hpre, rfl, tx.unsign_rlpEncode hc hp hsig hraw hpre⟩
  · intro tx raw hash _ hraw hhash
    obtain ⟨preimage, hpre, rfl⟩ := Except.map_eq_ok.mp hhash
    exact ⟨preimage, hpre, rfl, tx.unsign_rlpEncode hraw hpre⟩

/-- A signed transfer on chain 1337. -/
def signedTransfer : EthereumTransaction where
  fromAddress := .copyFrom [0xaa]
  toAddress := some (.copyFrom [0xbb])
  gas := 21000
  gasPrice := 1000
  value := some 5
  data := []
  nonce := 0
  chainId := 1337
  signature := some ⟨35 + 2 * 1337 + 1, 7, 9⟩

/-- A signed call with one access list entry. -/
def signedCall : EIP1559Transaction where
  fromAddress := .copyFrom [0xaa]
  toAddress := none
  gas := 0
  maxFeePerGas := 300
  maxPriorityFeePerGas := 0
  value := none
  data := [0xde, 0xad]
  nonce := 1
  chainId := 1
  accessList := [⟨.copyFrom [0xcc], [.fromBytes [1], .fromBytes [2]]⟩]
  signature := some ⟨1, 7, 9⟩

set_option maxRecDepth 100000 in
theorem rlpEncode_carries_preimage_signed :
    (∃ raw preimage, signedTransfer.rlpEncode keccak256 = .ok raw ∧
      signedTransfer.preimage keccak256 = .ok preimage ∧ unsignLegacy raw = some preimage) ∧
    (∃ raw preimage, signedCall.rlpEncode keccak256 = .ok raw ∧
      signedCall.preimage keccak256 = .ok preimage ∧ unsignEIP1559 raw = some preimage) := by
  have hraw : ((signedTransfer.rlpEncode keccak256).toOption.isSome ∧
      (signedTransfer.preimage keccak256).toOption.isSome) ∧
      (signedCall.rlpEncode keccak256).toOption.isSome ∧
      (signedCall.preimage keccak256).toOption.isSome := by decide +kernel
  obtain ⟨⟨h₁, h₂⟩, h₃, h₄⟩ := hraw
  obtain ⟨raw₁, hr₁⟩ := Except.exists_ok_of_isSome h₁
  obtain ⟨pre₁, hp₁⟩ := Except.exists_ok_of_isSome h₂
  obtain ⟨raw₂, hr₂⟩ := Except.exists_ok_of_isSome h₃
  obtain ⟨pre₂, hp₂⟩ := Except.exists_ok_of_isSome h₄
  obtain ⟨p₁, hp₁, _, hu₁⟩ := (rlpEncode_carries_preimage keccak256).1 signedTransfer 1 7 9 raw₁
    (keccak256.sum pre₁) (by decide) (by decide) rfl hr₁
    (by rw [EthereumTransaction.hash, hp₁]; rfl)
  obtain ⟨p₂, hp₂, _, hu₂⟩ := (rlpEncode_carries_preimage keccak256).2 signedCall raw₂
    (keccak256.sum pre₂) (by decide) hr₂ (by rw [EIP1559Transaction.hash, hp₂]; rfl)
  exact ⟨⟨raw₁, p₁, hr₁, hp₁, hu₁⟩, raw₂, p₂, hr₂, hp₂, hu₂⟩

end Signare
