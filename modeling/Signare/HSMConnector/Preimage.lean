import Signare.HSMConnector.Encoding
import Signare.EIP712.Encode

/-!
# Signing preimages

The byte strings hashed for the three kinds of signing request never meet, and within a kind of
transaction they determine every field.
-/

namespace Signare

open ByteCodec

inductive SigningRequest
  | legacy (tx : EthereumTransaction)
  | eip1559 (tx : EIP1559Transaction)
  | typedData (data : TypedData)

namespace SigningRequest

/-- `p` is the byte string handed to Keccak-256 at the top level. -/
def Preimage (env : HashEnv) (p : Bytes) : SigningRequest → Prop
  | legacy tx => tx.preimage env.keccak = .ok p
  | eip1559 tx => tx.preimage env.keccak = .ok p
  | typedData data => ∃ n hashes, structHashes env n data = .done hashes ∧ p = digestPreimage hashes

/-- `d` is the digest that is signed. -/
def Digest (env : HashEnv) (d : Bytes) : SigningRequest → Prop
  | legacy tx => tx.hash env.keccak = .ok d
  | eip1559 tx => tx.hash env.keccak = .ok d
  | typedData data => ∃ n out, hashTypedData env n data = .done out ∧ d = out.2

/-- The same kind of request and, for a transaction, the same value in every field. -/
def SameContent : SigningRequest → SigningRequest → Prop
  | legacy a, legacy b =>
    a.nonce = b.nonce ∧ a.gasPrice = b.gasPrice ∧ a.gas = b.gas ∧ a.toAddress = b.toAddress ∧
      a.value.getD 0 = b.value.getD 0 ∧ a.data = b.data ∧ a.chainId = b.chainId
  | eip1559 a, eip1559 b =>
    a.chainId = b.chainId ∧ a.nonce = b.nonce ∧
      a.maxPriorityFeePerGas = b.maxPriorityFeePerGas ∧ a.maxFeePerGas = b.maxFeePerGas ∧
      a.gas = b.gas ∧ a.toAddress = b.toAddress ∧ a.value.getD 0 = b.value.getD 0 ∧
      a.data = b.data ∧ a.accessList = b.accessList
  | typedData _, typedData _ => True
  | _, _ => False

end SigningRequest

theorem num_injective : Function.Injective RlpItem.num := fun _ _ h =>
  beBytes_injective (RlpItem.str.inj h)

theorem amount_inj {x y : Option Int} (hx : 0 ≤ x.getD 0) (hy : 0 ≤ y.getD 0)
    (h : amount x = amount y) : x.getD 0 = y.getD 0 := by
  have hnat := num_injective h
  omega

theorem recipient_injective : Function.Injective recipient := by
  have hne : ∀ a : Address, a.bytes ≠ [] := fun a h => by
    have hlen := a.length_bytes
    rw [h] at hlen
    cases hlen
  intro x y h
  cases x with
  | none =>
    cases y with
    | none => rfl
    | some b => exact (hne b h.symm).elim
  | some a =>
    cases y with
    | none => exact (hne a h).elim
    | some b => cases a; cases b; cases h; rfl

theorem accessItem_injective : Function.Injective accessItem := by
  intro a b h
  obtain ⟨⟨ab, _⟩, ak⟩ := a
  obtain ⟨⟨bb, _⟩, bk⟩ := b
  simp only [accessItem, RlpItem.list.injEq, List.cons.injEq, RlpItem.str.injEq, and_true] at h
  obtain ⟨rfl, hkeys⟩ := h
  have hinj : Function.Injective fun key : HexBytes32 => RlpItem.str key.bytes := by
    intro x y hxy
    cases x; cases y; cases hxy; rfl
  rw [List.map_injective_iff.mpr hinj hkeys]

theorem uint64_of_beBytes {a b : UInt64} (h : RlpItem.num a.toNat = RlpItem.num b.toNat) : a = b :=
  UInt64.toNat_inj.mp (num_injective h)

theorem uint64_of_evenBytes {a b : UInt64} (h : evenBytes a.toNat = evenBytes b.toNat) : a = b :=
  UInt64.toNat_inj.mp (evenBytes_injective h)

theorem chainId_of_evenBytes {a b : Int} (ha : 0 ≤ a) (hb : 0 ≤ b)
    (h : evenBytes a.toNat = evenBytes b.toNat) : a = b := by
  have hnat := evenBytes_injective h
  omega

theorem EthereumTransaction.preimage_injective {keccak : Hash256} {a b : EthereumTransaction}
    {p : Bytes} (ha : a.preimage keccak = .ok p) (hb : b.preimage keccak = .ok p) :
    SigningRequest.SameContent (.legacy a) (.legacy b) := by
  obtain ⟨hca, ⟨hpa, hva⟩, hea⟩ := preimage_ok ha
  obtain ⟨hcb, ⟨hpb, hvb⟩, heb⟩ := preimage_ok hb
  have hitems := hea.injective heb
  simp only [commonItems, List.cons_append, List.nil_append, RlpItem.list.injEq, List.cons.injEq,
    RlpItem.str.injEq, and_true] at hitems
  obtain ⟨hnonce, hprice, hgas, hto, hvalue, hdata, hchain⟩ := hitems
  have hprice' := amount_inj (x := some a.gasPrice) (y := some b.gasPrice) hpa hpb hprice
  exact ⟨uint64_of_beBytes hnonce, hprice', uint64_of_evenBytes hgas, recipient_injective hto,
    amount_inj hva hvb hvalue, hdata, chainId_of_evenBytes hca hcb hchain⟩

theorem EIP1559Transaction.preimage_injective {keccak : Hash256} {a b : EIP1559Transaction}
    {p : Bytes} (ha : a.preimage keccak = .ok p) (hb : b.preimage keccak = .ok p) :
    SigningRequest.SameContent (.eip1559 a) (.eip1559 b) := by
  obtain ⟨hna, pa, rfl, hea⟩ := preimage_ok ha
  obtain ⟨hnb, pb, hp, heb⟩ := preimage_ok hb
  obtain ⟨-, rfl⟩ := List.cons.inj hp
  have hitems := hea.injective heb
  simp only [commonItems, RlpItem.list.injEq, List.cons.injEq, RlpItem.str.injEq,
    and_true] at hitems
  obtain ⟨hchain, hnonce, hpriority, hfee, hgas, hto, hvalue, hdata, haccess⟩ := hitems
  have hpriority' := amount_inj (x := some a.maxPriorityFeePerGas)
    (y := some b.maxPriorityFeePerGas) hna.maxPriorityFeePerGas hnb.maxPriorityFeePerGas hpriority
  have hfee' := amount_inj (x := some a.maxFeePerGas) (y := some b.maxFeePerGas)
    hna.maxFeePerGas hnb.maxFeePerGas hfee
  exact ⟨chainId_of_evenBytes hna.chainId hnb.chainId hchain, uint64_of_beBytes hnonce, hpriority',
    hfee', uint64_of_evenBytes hgas, recipient_injective hto,
    amount_inj hna.value hnb.value hvalue, hdata,
    List.map_injective_iff.mpr accessItem_injective haccess⟩

theorem Encodes.head_list {items : List RlpItem} {p : Bytes} (h : Encodes (.list items) p) :
    ∃ b rest, p = b :: rest ∧ 0xc0 ≤ b := by
  obtain ⟨rfl, hlt⟩ := h
  have hitems : (RlpItem.encodeItems items).length < 256 ^ 8 := by
    rw [RlpItem.encode, List.length_append] at hlt
    omega
  obtain ⟨b, hb, hle⟩ := RlpItem.head?_encode_list items hitems
  obtain ⟨rest, hrest⟩ := List.head?_eq_some_iff.mp hb
  exact ⟨b, rest, hrest, hle⟩

namespace SigningRequest

def firstByte : SigningRequest → UInt8 → Prop
  | legacy _, b => 0xc0 ≤ b
  | eip1559 _, b => b = 0x02
  | typedData _, b => b = 0x19

theorem Preimage.firstByte {env : HashEnv} {p : Bytes} {r : SigningRequest}
    (h : r.Preimage env p) : ∃ b rest, p = b :: rest ∧ r.firstByte b := by
  cases r with
  | legacy tx =>
    obtain ⟨_, _, henc⟩ := tx.preimage_ok h
    exact henc.head_list
  | eip1559 tx =>
    obtain ⟨_, rest, hp, _⟩ := tx.preimage_ok h
    exact ⟨_, rest, hp, rfl⟩
  | typedData data =>
    obtain ⟨_, hashes, _, hp⟩ := h
    exact ⟨0x19, _, hp, rfl⟩

theorem firstByte_disjoint (b : UInt8) :
    ¬ (0xc0 ≤ b ∧ b = 0x02) ∧ ¬ (0xc0 ≤ b ∧ b = 0x19) ∧ ¬ (b = 0x02 ∧ b = 0x19) := by
  refine ⟨?_, ?_, ?_⟩
  · rintro ⟨h, rfl⟩; revert h; decide
  · rintro ⟨h, rfl⟩; revert h; decide
  · rintro ⟨rfl, h⟩; revert h; decide

theorem Preimage.sameContent {env : HashEnv} {p : Bytes} {r s : SigningRequest}
    (hr : r.Preimage env p) (hs : s.Preimage env p) : SameContent r s := by
  obtain ⟨b, rest, rfl, hbr⟩ := hr.firstByte
  obtain ⟨b', rest', hp, hbs⟩ := hs.firstByte
  obtain ⟨rfl, rfl⟩ := List.cons.inj hp
  obtain ⟨hlegacy2, hlegacy19, h219⟩ := firstByte_disjoint b
  cases r with
  | legacy a =>
    cases s with
    | legacy c => exact EthereumTransaction.preimage_injective hr hs
    | eip1559 c => exact (hlegacy2 ⟨hbr, hbs⟩).elim
    | typedData c => exact (hlegacy19 ⟨hbr, hbs⟩).elim
  | eip1559 a =>
    cases s with
    | legacy c => exact (hlegacy2 ⟨hbs, hbr⟩).elim
    | eip1559 c => exact EIP1559Transaction.preimage_injective hr hs
    | typedData c => exact (h219 ⟨hbr, hbs⟩).elim
  | typedData a =>
    cases s with
    | legacy c => exact (hlegacy19 ⟨hbs, hbr⟩).elim
    | eip1559 c => exact (h219 ⟨hbs, hbr⟩).elim
    | typedData c => trivial

theorem Digest.exists_preimage {env : HashEnv} {d : Bytes} {r : SigningRequest}
    (h : r.Digest env d) : ∃ p, r.Preimage env p ∧ d = env.keccak.sum p := by
  cases r with
  | legacy tx =>
    obtain ⟨p, hp, rfl⟩ := Except.map_eq_ok.mp h
    exact ⟨p, hp, rfl⟩
  | eip1559 tx =>
    obtain ⟨p, hp, rfl⟩ := Except.map_eq_ok.mp h
    exact ⟨p, hp, rfl⟩
  | typedData data =>
    obtain ⟨n, out, hout, rfl⟩ := h
    obtain ⟨hashes, hhashes, hout⟩ := Run.bind_eq_done.mp hout
    cases hout
    exact ⟨_, ⟨n, hashes, hhashes, rfl⟩, rfl⟩

end SigningRequest

/-- Equal preimages come from one kind of request with equal fields, and so do equal digests as far
as the hash tells the two preimages apart. -/
theorem signingPreimage_injective (env : HashEnv) (r s : SigningRequest) :
    (∀ p, r.Preimage env p → s.Preimage env p → r.SameContent s) ∧
    (∀ d, r.Digest env d → s.Digest env d →
      Set.InjOn env.keccak.sum {p | r.Preimage env p ∨ s.Preimage env p} → r.SameContent s) := by
  refine ⟨fun p hr hs => hr.sameContent hs, fun d hr hs hinj => ?_⟩
  obtain ⟨p, hp, rfl⟩ := hr.exists_preimage
  obtain ⟨q, hq, hsum⟩ := hs.exists_preimage
  have hpq : p = q := hinj (.inl hp) (.inr hq) hsum
  exact hp.sameContent (hpq ▸ hq)

set_option maxRecDepth 100000 in
/-- No value and a zero value are the same transaction. -/
theorem signingPreimage_injective_zeroValue :
    (SigningRequest.legacy { signedTransfer with value := none }).SameContent
      (.legacy { signedTransfer with value := some 0 }) := by
  have hok : ({ signedTransfer with value := none } : EthereumTransaction).preimage keccak256 =
      ({ signedTransfer with value := some 0 } : EthereumTransaction).preimage keccak256 ∧
      (({ signedTransfer with value := none } : EthereumTransaction).preimage
        keccak256).toOption.isSome := by decide +kernel
  obtain ⟨p, hp⟩ := Except.exists_ok_of_isSome hok.2
  refine (signingPreimage_injective keccakEnv _ _).2 (keccak256.sum p)
    (Except.map_eq_ok.mpr ⟨p, hp, rfl⟩) (Except.map_eq_ok.mpr ⟨p, hok.1 ▸ hp, rfl⟩) ?_
  have honly : ∀ q, (SigningRequest.legacy { signedTransfer with value := none }).Preimage
      keccakEnv q ∨ (SigningRequest.legacy { signedTransfer with value := some 0 }).Preimage
      keccakEnv q → q = p := by
    rintro q (hq | hq)
    · exact Except.ok.inj (hq.symm.trans hp)
    · exact Except.ok.inj (hq.symm.trans (hok.1 ▸ hp))
  intro x hx y hy _
  rw [honly x hx, honly y hy]

end Signare
