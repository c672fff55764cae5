import Signare.Commons.Rlp

/-!
# The RLP encoder and its documentation

The comment above `Encode` says what every value is encoded as, nil pointers included. The encoder
follows it, with one exception.
-/

namespace Signare

open ByteCodec

mutual
/-- The item a value stands for by the comment above `Encode`. -/
def RlpInput.normalForm : RlpInput → RlpItem
  | .string item => .str item
  | .stringPointer item => .str (item.getD [])
  | .stringArray item => .list (item.map .str)
  | .stringArrayPointer item => .list ((item.getD []).map .str)
  | .list items => .list (normalForms items)
  | .listPointer items => .list (normalForms items)
  | .nilListPointer => .list []
  | .bytes item => .str item
  | .bytesPointer item => .str (item.getD [])
  | .uint item => .num item.toNat
  | .bigInt item => .num (item.getD 0).toNat
  | .unhandled => .list []
termination_by structural x => x

def RlpInput.normalForms : List RlpInput → List RlpItem
  | [] => []
  | x :: xs => x.normalForm :: normalForms xs
termination_by structural xs => xs
end

mutual
/-- No negative integer and no other type occurs in the value. -/
def RlpInput.supported : RlpInput → Bool
  | .list items => allSupported items
  | .listPointer items => allSupported items
  | .bigInt item => decide (0 ≤ item.getD 0)
  | .unhandled => false
  | _ => true
termination_by structural x => x

def RlpInput.allSupported : List RlpInput → Bool
  | [] => true
  | x :: xs => x.supported && allSupported xs
termination_by structural xs => xs
end

mutual
/-- A nil pointer to bytes occurs in the value. -/
def RlpInput.hasNilBytes : RlpInput → Bool
  | .list items => anyNilBytes items
  | .listPointer items => anyNilBytes items
  | .bytesPointer none => true
  | _ => false
termination_by structural x => x

def RlpInput.anyNilBytes : List RlpInput → Bool
  | [] => false
  | x :: xs => x.hasNilBytes || anyNilBytes xs
termination_by structural xs => xs
end

theorem encodeLength_of_lt {length : Nat} (offset : Nat) (h : length < 2 ^ 63) :
    encodeLength length offset = .ok (RlpItem.header offset length) := by
  unfold encodeLength RlpItem.header
  rw [if_neg (by omega)]
  split
  · rw [Nat.add_comm]
  · dsimp only
    rw [toBinary_eq, Nat.add_comm _ offset, Nat.add_right_comm]

theorem encodeBytes_of_lt {item : Bytes} (h : item.length < 2 ^ 63) :
    encodeBytes item = .ok (RlpItem.encodeStr item) := by
  unfold encodeBytes
  split
  · next b =>
    split
    · next hb => rw [RlpItem.encodeStr, if_pos hb]
    · next hb =>
      rw [encodeLength_of_lt _ (by norm_num), RlpItem.encodeStr, if_neg hb]
      rfl
  · next hne =>
    rw [encodeLength_of_lt _ h, RlpItem.encodeStr_of_ne fun b hb => (hne b hb).elim]
    rfl

theorem length_le_encodeStr (item : Bytes) : item.length ≤ (RlpItem.encodeStr item).length := by
  unfold RlpItem.encodeStr
  split
  · split <;> simp
  · rw [List.length_append]
    omega

theorem encodeBytes_of_encode {item : Bytes} (h : (RlpItem.encodeStr item).length < 2 ^ 63) :
    encodeBytes item = .ok (RlpItem.encodeStr item) :=
  encodeBytes_of_lt ((length_le_encodeStr item).trans_lt h)

theorem encodeString_of_encode {item : Bytes} (h : (RlpItem.encodeStr item).length < 2 ^ 63) :
    encodeString item = .ok (RlpItem.encodeStr item) := by
  rw [encodeString_eq]
  exact encodeBytes_of_encode h

theorem encodeBigInt_of_encode {value : Int} (hvalue : 0 ≤ value)
    (h : (RlpItem.encodeStr (beBytes value.toNat)).length < 2 ^ 63) :
    encodeBigInt (some value) = .ok (RlpItem.encodeStr (beBytes value.toNat)) := by
  rw [encodeBigInt, if_neg (by omega)]
  split
  · exact encodeBytes_of_encode h
  · next hbig =>
    have hne (b : UInt8) (hb : beBytes value.toNat = [b]) : ¬ b < 0x80 := by
      have hle : (beBytes value.toNat).length ≤ 1 := by rw [hb]; simp
      have := length_beBytes_le_iff.mp hle
      omega
    rw [encodeLength_of_lt _ ((length_le_encodeStr _).trans_lt h), RlpItem.encodeStr_of_ne hne]
    rfl

theorem encodeStrings_of_encode {item : List Bytes}
    (h : (RlpItem.encodeItems (item.map .str)).length < 2 ^ 63) :
    encodeStrings item = .ok (RlpItem.encodeItems (item.map .str)) := by
  induction item with
  | nil => rfl
  | cons s ss ih =>
    rw [List.map_cons, RlpItem.encodeItems, RlpItem.encode] at h ⊢
    rw [List.length_append] at h
    rw [encodeStrings, encodeString_of_encode (by omega), ih (by omega)]
    rfl

theorem prefixList_of_encode {items : List RlpItem}
    (h : (RlpItem.encode (.list items)).length < 2 ^ 63) :
    prefixList (RlpItem.encodeItems items) = .ok (RlpItem.encode (.list items)) := by
  rw [RlpItem.encode, List.length_append] at h
  rw [prefixList, encodeLength_of_lt _ (by omega), RlpItem.encode]
  rfl

theorem length_encodeItems_lt {items : List RlpItem}
    (h : (RlpItem.encode (.list items)).length < 2 ^ 63) :
    (RlpItem.encodeItems items).length < 2 ^ 63 := by
  rw [RlpItem.encode, List.length_append] at h
  omega

theorem encodeStringArray_of_encode {item : List Bytes}
    (h : (RlpItem.encode (.list (item.map .str))).length < 2 ^ 63) :
    encodeStringArray item = .ok (RlpItem.encode (.list (item.map .str))) := by
  have hprefix := prefixList_of_encode h
  rw [prefixList] at hprefix
  rw [encodeStringArray, encodeStrings_of_encode (length_encodeItems_lt h), Except.ok_bind, hprefix]

theorem encode_emptyList : RlpItem.encode (.list []) = [UInt8.ofNat shortListPrefix] := by
  rw [RlpItem.encode]
  rfl

mutual
/-- The encoder accepts every item that fits in a slice. -/
theorem encodeElement_of_toItem : ∀ {x : RlpInput} {item : RlpItem}, x.toItem = some item →
    (RlpItem.encode item).length < 2 ^ 63 → encodeElement x = .ok (RlpItem.encode item)
  | .string s, _, h, hlt => by
    cases h
    rw [RlpItem.encode] at hlt ⊢
    exact encodeString_of_encode hlt
  | .stringPointer none, _, h, hlt => by
    cases h
    rw [RlpItem.encode] at hlt ⊢
    exact encodeString_of_encode hlt
  | .stringPointer (some s), _, h, hlt => by
    cases h
    rw [RlpItem.encode] at hlt ⊢
    exact encodeString_of_encode hlt
  | .stringArray ss, _, h, hlt => by
    cases h
    exact encodeStringArray_of_encode hlt
  | .stringArrayPointer none, _, h, hlt => by
    cases h
    show Except.ok [UInt8.ofNat shortListPrefix] = .ok (RlpItem.encode (.list []))
    rw [encode_emptyList]
  | .stringArrayPointer (some ss), _, h, hlt => by
    cases h
    exact encodeStringArray_of_encode hlt
  | .list items, item, h, hlt => by
    obtain ⟨its, hits, rfl⟩ := Option.map_eq_some_iff.mp h
    have hlist := prefixList_of_encode hlt
    rw [encodeElement, encodeListItems_of_toItems hits (length_encodeItems_lt hlt)]
    exact hlist
  | .listPointer items, item, h, hlt => by
    obtain ⟨its, hits, rfl⟩ := Option.map_eq_some_iff.mp h
    have hlist := prefixList_of_encode hlt
    rw [encodeElement, encodeListItems_of_toItems hits (length_encodeItems_lt hlt)]
    exact hlist
  | .nilListPointer, _, h, hlt => by
    cases h
    rw [encode_emptyList]
    rfl
  | .bytes s, _, h, hlt => by
    cases h
    rw [RlpItem.encode] at hlt ⊢
    exact encodeBytes_of_encode hlt
  | .bytesPointer none, _, h, hlt => by
    cases h
    show Except.ok [UInt8.ofNat shortListPrefix] = .ok (RlpItem.encode (.list []))
    rw [encode_emptyList]
  | .bytesPointer (some s), _, h, hlt => by
    cases h
    show encodeBytes s = .ok (RlpItem.encode (.str s))
    rw [Option.elim, RlpItem.encode] at hlt
    rw [RlpItem.encode]
    exact encodeBytes_of_encode hlt
  | .uint n, _, h, hlt => by
    cases h
    rw [RlpItem.num, RlpItem.encode] at hlt ⊢
    exact encodeBytes_of_encode hlt
  | .bigInt none, _, h, hlt => by
    cases h
    show Except.ok [UInt8.ofNat singleByteValue] = .ok (RlpItem.encode (.num 0))
    rw [RlpItem.num, RlpItem.encode, beBytes_zero]
    rfl
  | .bigInt (some value), item, h, hlt => by
    rw [RlpInput.toItem] at h
    split at h
    · cases h
    · cases h
      rw [RlpItem.num, RlpItem.encode] at hlt ⊢
      exact encodeBigInt_of_encode (by omega) hlt
  | .unhandled, _, h, _ => by cases h

theorem encodeListItems_of_toItems : ∀ {xs : List RlpInput} {items : List RlpItem},
    RlpInput.toItems xs = some items → (RlpItem.encodeItems items).length < 2 ^ 63 →
      encodeListItems xs = .ok (RlpItem.encodeItems items)
  | [], _, h, _ => by
    cases h
    rfl
  | x :: xs, items, h, hlt => by
    rw [RlpInput.toItems] at h
    obtain ⟨item, hitem, h⟩ := Option.bind_eq_some_iff.mp h
    obtain ⟨rest, hrest, h⟩ := Option.bind_eq_some_iff.mp h
    cases h
    rw [RlpItem.encodeItems, List.length_append] at hlt
    have hx := encodeElement_of_toItem hitem (by omega)
    have hxs := encodeListItems_of_toItems hrest (by omega)
    rw [encodeListItems, hx, hxs, RlpItem.encodeItems]
    rfl
end

mutual
/-- Only a nil pointer to bytes is not what the documentation says. -/
theorem toItem_of_supported : ∀ {x : RlpInput}, x.supported = true → x.hasNilBytes = false →
    x.toItem = some x.normalForm
  | .string _, _, _ => rfl
  | .stringPointer _, _, _ => rfl
  | .stringArray _, _, _ => rfl
  | .stringArrayPointer _, _, _ => rfl
  | .list items, hs, hn => by
    rw [RlpInput.toItem, toItems_of_supported hs hn]
    rfl
  | .listPointer items, hs, hn => by
    rw [RlpInput.toItem, toItems_of_supported hs hn]
    rfl
  | .nilListPointer, _, _ => rfl
  | .bytes _, _, _ => rfl
  | .bytesPointer none, _, hn => by cases hn
  | .bytesPointer (some _), _, _ => rfl
  | .uint _, _, _ => rfl
  | .bigInt none, _, _ => rfl
  | .bigInt (some value), hs, _ => by
    have hvalue : 0 ≤ value := of_decide_eq_true hs
    rw [RlpInput.toItem, if_neg (by omega)]
    rfl
  | .unhandled, hs, _ => by cases hs

theorem toItems_of_supported : ∀ {xs : List RlpInput}, RlpInput.allSupported xs = true →
    RlpInput.anyNilBytes xs = false → RlpInput.toItems xs = some (RlpInput.normalForms xs)
  | [], _, _ => rfl
  | x :: xs, hs, hn => by
    rw [RlpInput.allSupported, Bool.and_eq_true] at hs
    rw [RlpInput.anyNilBytes, Bool.or_eq_false_iff] at hn
    rw [RlpInput.toItems, toItem_of_supported hs.1 hn.1, toItems_of_supported hs.2 hn.2]
    rfl
end

mutual
theorem supported_of_toItem : ∀ {x : RlpInput} {item : RlpItem}, x.toItem = some item →
    x.supported = true
  | .string _, _, _ => rfl
  | .stringPointer _, _, _ => rfl
  | .stringArray _, _, _ => rfl
  | .stringArrayPointer _, _, _ => rfl
  | .list items, _, h => by
    obtain ⟨its, hits, -⟩ := Option.map_eq_some_iff.mp h
    exact allSupported_of_toItems hits
  | .listPointer items, _, h => by
    obtain ⟨its, hits, -⟩ := Option.map_eq_some_iff.mp h
    exact allSupported_of_toItems hits
  | .nilListPointer, _, _ => rfl
  | .bytes _, _, _ => rfl
  | .bytesPointer _, _, _ => rfl
  | .uint _, _, _ => rfl
  | .bigInt none, _, _ => rfl
  | .bigInt (some value), _, h => by
    rw [RlpInput.toItem] at h
    split at h
    · cases h
    · next hvalue => exact decide_eq_true (Int.not_lt.mp hvalue)
  | .unhandled, _, h => by cases h

theorem allSupported_of_toItems : ∀ {xs : List RlpInput} {items : List RlpItem},
    RlpInput.toItems xs = some items → RlpInput.allSupported xs = true
  | [], _, _ => rfl
  | x :: xs, _, h => by
    rw [RlpInput.toItems] at h
    obtain ⟨item, hitem, h⟩ := Option.bind_eq_some_iff.mp h
    obtain ⟨rest, hrest, -⟩ := Option.bind_eq_some_iff.mp h
    rw [RlpInput.allSupported, supported_of_toItem hitem, allSupported_of_toItems hrest]
    rfl
end

mutual
theorem toItem_ne_normalForm : ∀ {x : RlpInput} {item : RlpItem}, x.hasNilBytes = true →
    x.toItem = some item → item ≠ x.normalForm
  | .list items, _, hn, h => by
    obtain ⟨its, hits, rfl⟩ := Option.map_eq_some_iff.mp h
    intro heq
    exact toItems_ne_normalForms hn hits (RlpItem.list.inj heq)
  | .listPointer items, _, hn, h => by
    obtain ⟨its, hits, rfl⟩ := Option.map_eq_some_iff.mp h
    intro heq
    exact toItems_ne_normalForms hn hits (RlpItem.list.inj heq)
  | .bytesPointer none, _, _, h => by
    cases h
    intro heq
    cases heq

theorem toItems_ne_normalForms : ∀ {xs : List RlpInput} {items : List RlpItem},
    RlpInput.anyNilBytes xs = true → RlpInput.toItems xs = some items →
      items ≠ RlpInput.normalForms xs
  | x :: xs, _, hn, h => by
    rw [RlpInput.toItems] at h
    obtain ⟨item, hitem, h⟩ := Option.bind_eq_some_iff.mp h
    obtain ⟨rest, hrest, h⟩ := Option.bind_eq_some_iff.mp h
    cases h
    intro heq
    obtain ⟨hhead, htail⟩ := List.cons.inj heq
    rw [RlpInput.anyNilBytes, Bool.or_eq_true] at hn
    rcases hn with hx | hxs
    · exact toItem_ne_normalForm hx hitem hhead
    · exact toItems_ne_normalForms hxs hrest htail
end

theorem rlpEncode_error_of_unsupported {x : RlpInput} (h : x.supported = false) :
    ∃ err, rlpEncode x = .error err := by
  cases hencode : rlpEncode x with
  | error err => exact ⟨err, rfl⟩
  | ok b =>
    obtain ⟨item, hitem, -⟩ := rlpEncode_ok hencode
    rw [supported_of_toItem hitem] at h
    cases h

theorem rlpEncode_of_supported {x : RlpInput} (hsupported : x.supported = true)
    (hnil : x.hasNilBytes = false) (hlt : (RlpItem.encode x.normalForm).length < 2 ^ 63) :
    rlpEncode x = .ok (RlpItem.encode x.normalForm) := by
  rw [rlpEncode_eq_encodeElement]
  exact encodeElement_of_toItem (toItem_of_supported hsupported hnil) hlt

/-- The encoding of a value is the reference encoding of its normal form, alone and as an element
of a list. The result has to fit in a slice. -/
structure MatchesReference (x : RlpInput) : Prop where
  encodes : x.supported = true → (RlpItem.encode x.normalForm).length < 2 ^ 63 →
    rlpEncode x = .ok (RlpItem.encode x.normalForm)
  rejects : x.supported = false → ∃ err, rlpEncode x = .error err
  element : encodeElement x = rlpEncode x

/-- The encoder departs from its documentation at a nil pointer to bytes, and nowhere else. -/
theorem matchesReference_iff (x : RlpInput) :
    MatchesReference x ↔ x.hasNilBytes = false ∨ x.supported = false ∨
      2 ^ 63 ≤ (RlpItem.encode x.normalForm).length := by
  constructor
  · intro h
    by_contra hnot
    rw [not_or, not_or, Bool.not_eq_false, Bool.not_eq_false, Nat.not_le] at hnot
    obtain ⟨hnil, hsupported, hlt⟩ := hnot
    obtain ⟨item, hitem, henc, hlt'⟩ := rlpEncode_ok (h.encodes hsupported hlt)
    have hsame : item = x.normalForm :=
      RlpItem.encode_injOn (by rw [Set.mem_ofPred_eq, henc]; exact hlt') hlt' henc
    exact toItem_ne_normalForm hnil hitem hsame
  · intro h
    refine ⟨fun hsupported hlt => ?_, rlpEncode_error_of_unsupported,
      (rlpEncode_eq_encodeElement x).symm⟩
    rcases h with hnil | hnot | hlong
    · exact rlpEncode_of_supported hsupported hnil hlt
    · rw [hsupported] at hnot
      cases hnot
    · omega

/-- A nil pointer to bytes is encoded as the empty list. -/
theorem nilBytes_not_matchesReference :
    rlpEncode (.bytesPointer none) = .ok [0xc0] ∧ ¬ MatchesReference (.bytesPointer none) := by
  refine ⟨rfl, fun h => ?_⟩
  have hencodes := h.encodes rfl (by decide)
  exact absurd hencodes (by decide)

end Signare
