import Signare.HSMConnector.Encoding

/-!
# Integers in transactions

A strict decoder takes the encoder's own output only, and reads an integer from a byte string
without leading zero. It reads the integers of what `Hash` and `RLPEncode` write, except a gas
limit of zero.
-/

namespace Signare

open ByteCodec

/-- Zero is the empty string. -/
def strictInteger : RlpItem → Option Nat
  | .str bs => if bs.head? = some 0 then none else some (beNat bs)
  | .list _ => none

/-- The items of a list, if there is no other way to encode them. -/
def strictItems (raw : Bytes) : Option (List RlpItem) :=
  match RlpItem.decode raw with
  | some (.list items) => if RlpItem.encode (.list items) = raw then some items else none
  | _ => none

/-- The integers at `positions`. -/
def strictIntegers (raw : Bytes) (positions : List Nat) : Option (List Nat) := do
  let items ← strictItems raw
  positions.mapM fun i => items[i]? >>= strictInteger

@[simp] theorem strictInteger_num (n : Nat) : strictInteger (.num n) = some n := by
  rw [RlpItem.num, strictInteger, if_neg (head?_beBytes n), beNat_beBytes]

@[simp] theorem strictInteger_amount (value : Option Int) :
    strictInteger (amount value) = some (value.getD 0).toNat := strictInteger_num _

theorem strictInteger_evenBytes (n : Nat) :
    strictInteger (.str (evenBytes n)) = if n = 0 then none else some n := by
  by_cases h : n = 0
  · subst h
    rfl
  · rw [evenBytes_of_ne h, if_neg h]
    exact strictInteger_num n

theorem strictItems_of_encodes {items : List RlpItem} {raw : Bytes}
    (h : Encodes (.list items) raw) : strictItems raw = some items := by
  rw [strictItems, h.decode]
  exact if_pos h.1

theorem strictIntegers_of_encodes {items : List RlpItem} {raw : Bytes}
    (h : Encodes (.list items) raw) (positions : List Nat) :
    strictIntegers raw positions = positions.mapM fun i => items[i]? >>= strictInteger := by
  rw [strictIntegers, strictItems_of_encodes h]
  rfl

namespace EthereumTransaction

variable {keccak : Hash256} {tx : EthereumTransaction}

theorem preimage_integers {p : Bytes} (hchain : 1 ≤ tx.chainId)
    (h : tx.preimage keccak = .ok p) :
    strictIntegers p [0, 1, 2, 4, 6, 7, 8] =
      if tx.gas.toNat = 0 then none
      else some [tx.nonce.toNat, tx.gasPrice.toNat, tx.gas.toNat, (tx.value.getD 0).toNat,
        tx.chainId.toNat, 0, 0] := by
  obtain ⟨-, -, hencodes⟩ := preimage_ok h
  rw [strictIntegers_of_encodes hencodes]
  have hne : tx.chainId.toNat ≠ 0 := by omega
  by_cases hgas : tx.gas.toNat = 0
  · simp [commonItems, strictInteger_evenBytes, hgas]
  · simp [commonItems, strictInteger_evenBytes, hgas, hne]

theorem rlpEncode_integers {b : Bytes} {signature : EthereumSignature}
    (hsig : tx.signature = some signature) (h : tx.rlpEncode keccak = .ok b) :
    strictIntegers b [0, 1, 2, 4, 6, 7, 8] =
      if tx.gas.toNat = 0 then none
      else some [tx.nonce.toNat, tx.gasPrice.toNat, tx.gas.toNat, (tx.value.getD 0).toNat,
        signature.v.toNat, signature.r.toNat, signature.s.toNat] := by
  obtain ⟨signature', hsig', -, hencodes⟩ := rlpEncode_ok h
  obtain rfl := Option.some.inj (hsig.symm.trans hsig')
  rw [strictIntegers_of_encodes hencodes]
  by_cases hgas : tx.gas.toNat = 0
  · simp [commonItems, strictInteger_evenBytes, hgas]
  · simp [commonItems, strictInteger_evenBytes, hgas]

end EthereumTransaction

namespace EIP1559Transaction

variable {keccak : Hash256} {tx : EIP1559Transaction}

theorem preimage_integers {p : Bytes} (hchain : 1 ≤ tx.chainId)
    (h : tx.preimage keccak = .ok p) :
    strictIntegers p.tail [0, 1, 2, 3, 4, 6] =
      if tx.gas.toNat = 0 then none
      else some [tx.chainId.toNat, tx.nonce.toNat, tx.maxPriorityFeePerGas.toNat,
        tx.maxFeePerGas.toNat, tx.gas.toNat, (tx.value.getD 0).toNat] := by
  obtain ⟨-, bs, rfl, hencodes⟩ := preimage_ok h
  rw [List.tail_cons, strictIntegers_of_encodes hencodes]
  have hne : tx.chainId.toNat ≠ 0 := by omega
  by_cases hgas : tx.gas.toNat = 0
  · simp [commonItems, strictInteger_evenBytes, hgas, hne]
  · simp [commonItems, strictInteger_evenBytes, hgas, hne]

theorem rlpEncode_integers {b : Bytes} {signature : EIP1559TransactionSignature}
    (hchain : 1 ≤ tx.chainId) (hsig : tx.signature = some signature)
    (h : tx.rlpEncode keccak = .ok b) :
    strictIntegers b.tail [0, 1, 2, 3, 4, 6, 9, 10, 11] =
      if tx.gas.toNat = 0 then none
      else some [tx.chainId.toNat, tx.nonce.toNat, tx.maxPriorityFeePerGas.toNat,
        tx.maxFeePerGas.toNat, tx.gas.toNat, (tx.value.getD 0).toNat, signature.yParity.toNat,
        signature.r.toNat, signature.s.toNat] := by
  obtain ⟨signature', bs, hsig', rfl, hencodes⟩ := rlpEncode_ok h
  obtain rfl := Option.some.inj (hsig.symm.trans hsig')
  rw [List.tail_cons, strictIntegers_of_encodes hencodes]
  have hne : tx.chainId.toNat ≠ 0 := by omega
  by_cases hgas : tx.gas.toNat = 0
  · simp [commonItems, strictInteger_evenBytes, hgas, hne]
  · simp [commonItems, strictInteger_evenBytes, hgas, hne]

end EIP1559Transaction

/-- A strict decoder reads the integers of what `Hash` hashes. -/
def EthereumTransaction.HashesIntegers (tx : EthereumTransaction) (p : Bytes) : Prop :=
  strictIntegers p [0, 1, 2, 4, 6, 7, 8] =
    some [tx.nonce.toNat, tx.gasPrice.toNat, tx.gas.toNat, (tx.value.getD 0).toNat,
      tx.chainId.toNat, 0, 0]

/-- A strict decoder reads the integers of what `RLPEncode` emits. -/
def EthereumTransaction.EmitsIntegers (tx : EthereumTransaction) (signature : EthereumSignature)
    (b : Bytes) : Prop :=
  strictIntegers b [0, 1, 2, 4, 6, 7, 8] =
    some [tx.nonce.toNat, tx.gasPrice.toNat, tx.gas.toNat, (tx.value.getD 0).toNat,
      signature.v.toNat, signature.r.toNat, signature.s.toNat]

/-- The same, behind the type prefix. -/
def EIP1559Transaction.HashesIntegers (tx : EIP1559Transaction) (p : Bytes) : Prop :=
  strictIntegers p.tail [0, 1, 2, 3, 4, 6] =
    some [tx.chainId.toNat, tx.nonce.toNat, tx.maxPriorityFeePerGas.toNat, tx.maxFeePerGas.toNat,
      tx.gas.toNat, (tx.value.getD 0).toNat]

def EIP1559Transaction.EmitsIntegers (tx : EIP1559Transaction)
    (signature : EIP1559TransactionSignature) (b : Bytes) : Prop :=
  strictIntegers b.tail [0, 1, 2, 3, 4, 6, 9, 10, 11] =
    some [tx.chainId.toNat, tx.nonce.toNat, tx.maxPriorityFeePerGas.toNat, tx.maxFeePerGas.toNat,
      tx.gas.toNat, (tx.value.getD 0).toNat, signature.yParity.toNat, signature.r.toNat,
      signature.s.toNat]

private theorem eq_some_iff {n : Nat} {integers : Option (List Nat)} {expected : List Nat}
    (h : integers = if n = 0 then none else some expected) :
    integers = some expected ↔ n ≠ 0 := by
  rw [h]
  split
  · next hzero => simp [hzero]
  · next hne => simp [hne]

/-- Every integer is canonical if and only if the gas limit is not zero. -/
theorem integers_canonical_iff (keccak : Hash256) :
    (∀ (tx : EthereumTransaction) (p : Bytes), 1 ≤ tx.chainId → tx.preimage keccak = .ok p →
      (tx.HashesIntegers p ↔ tx.gas.toNat ≠ 0)) ∧
    (∀ (tx : EthereumTransaction) (signature : EthereumSignature) (b : Bytes), 1 ≤ tx.chainId →
      tx.signature = some signature → tx.rlpEncode keccak = .ok b →
      (tx.EmitsIntegers signature b ↔ tx.gas.toNat ≠ 0)) ∧
    (∀ (tx : EIP1559Transaction) (p : Bytes), 1 ≤ tx.chainId → tx.preimage keccak = .ok p →
      (tx.HashesIntegers p ↔ tx.gas.toNat ≠ 0)) ∧
    (∀ (tx : EIP1559Transaction) (signature : EIP1559TransactionSignature) (b : Bytes),
      1 ≤ tx.chainId → tx.signature = some signature → tx.rlpEncode keccak = .ok b →
      (tx.EmitsIntegers signature b ↔ tx.gas.toNat ≠ 0)) := by
  refine ⟨fun tx p hchain h => ?_, fun tx signature b _ hsig h => ?_, fun tx p hchain h => ?_,
    fun tx signature b hchain hsig h => ?_⟩
  · exact eq_some_iff (EthereumTransaction.preimage_integers hchain h)
  · exact eq_some_iff (EthereumTransaction.rlpEncode_integers hsig h)
  · exact eq_some_iff (EIP1559Transaction.preimage_integers hchain h)
  · exact eq_some_iff (EIP1559Transaction.rlpEncode_integers hchain hsig h)

/-- A signed transfer with no gas. -/
def zeroGasTransfer : EthereumTransaction := { signedTransfer with gas := 0 }

set_option maxRecDepth 100000 in
/-- It is hashed and emitted, and no strict decoder takes it. -/
theorem zeroGas_not_canonical :
    ∃ p b, zeroGasTransfer.preimage keccak256 = .ok p ∧
      zeroGasTransfer.rlpEncode keccak256 = .ok b ∧ ¬ zeroGasTransfer.HashesIntegers p ∧
      ¬ zeroGasTransfer.EmitsIntegers ⟨35 + 2 * 1337 + 1, 7, 9⟩ b := by
  have hok : (zeroGasTransfer.preimage keccak256).toOption.isSome ∧
      (zeroGasTransfer.rlpEncode keccak256).toOption.isSome := by decide +kernel
  obtain ⟨p, hp⟩ := Except.exists_ok_of_isSome hok.1
  obtain ⟨b, hb⟩ := Except.exists_ok_of_isSome hok.2
  refine ⟨p, b, hp, hb, fun h => ?_, fun h => ?_⟩
  · exact (eq_some_iff (EthereumTransaction.preimage_integers (by decide) hp)).mp h rfl
  · exact (eq_some_iff (EthereumTransaction.rlpEncode_integers rfl hb)).mp h rfl

end Signare
