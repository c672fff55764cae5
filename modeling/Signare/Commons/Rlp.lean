import Signare.Lib.Outcome
import Signare.Lib.RlpItem

/-!
# The RLP encoder

`Encode` takes a dynamically typed value. It is related to the reference encoding of
`RlpItem`: every value it accepts stands for one item, and its output is that item's encoding.
-/

namespace Signare

open ByteCodec

/-- The dynamic types of the encoder's type switch. A Go string is any byte string. -/
inductive RlpInput
  | string (item : Bytes)
  | stringPointer (item : Option Bytes)
  | stringArray (item : List Bytes)
  | stringArrayPointer (item : Option (List Bytes))
  | list (items : List RlpInput)
  | listPointer (items : List RlpInput)
  | nilListPointer
  | bytes (item : Bytes)
  | bytesPointer (item : Option Bytes)
  | uint (item : UInt64)
  | bigInt (item : Option Int)
  | unhandled

/-- `sliceTooLong` stands for the panic of `append`: the length of a slice is an `int`. -/
inductive RlpError
  | unhandledInputType
  | negativeBigInt
  | sliceTooLong
  deriving DecidableEq, Repr

def singleByteValue : Nat := 0x80
def shortListPrefix : Nat := 0xc0

def toBinary (value : Nat) : Bytes :=
  if value = 0 then [] else toBinary (value / 256) ++ [UInt8.ofNat (value % 256)]
termination_by value

def encodeLength (length offset : Nat) : Except RlpError Bytes :=
  if 2 ^ 63 ≤ length then .error .sliceTooLong
  else if length < 56 then .ok [UInt8.ofNat (length + offset)]
  else
    let bl := toBinary length
    .ok (UInt8.ofNat (bl.length + offset + 55) :: bl)

def encodeBytes (item : Bytes) : Except RlpError Bytes :=
  match item with
  | [b] => if b < 0x80 then .ok [b] else (encodeLength 1 0x80).map (· ++ [b])
  | item => (encodeLength item.length 0x80).map (· ++ item)

/-- A nil pointer to bytes gives the empty list, not the empty string the comment above
`Encode` announces. -/
def encodeBytesPointer : Option Bytes → Except RlpError Bytes
  | none => .ok [UInt8.ofNat shortListPrefix]
  | some item => encodeBytes item

def encodeUint (value : Nat) : Except RlpError Bytes := encodeBytes (beBytes value)

def encodeString (item : Bytes) : Except RlpError Bytes :=
  match item with
  | [b] =>
    if b.toNat < singleByteValue then .ok [b] else (encodeLength 1 singleByteValue).map (· ++ [b])
  | item => (encodeLength item.length singleByteValue).map (· ++ item)

def encodeStringPointer : Option Bytes → Except RlpError Bytes
  | none => encodeString []
  | some item => encodeString item

def encodeStrings : List Bytes → Except RlpError Bytes
  | [] => .ok []
  | str :: rest => do
    let encodedStr ← encodeString str
    let encodedRest ← encodeStrings rest
    return encodedStr ++ encodedRest

def encodeStringArray (item : List Bytes) : Except RlpError Bytes := do
  let encodedBytes ← encodeStrings item
  let encodedLength ← encodeLength encodedBytes.length shortListPrefix
  return encodedLength ++ encodedBytes

def encodeStringArrayPointer : Option (List Bytes) → Except RlpError Bytes
  | none => .ok [UInt8.ofNat shortListPrefix]
  | some item => encodeStringArray item

def encodeBigInt : Option Int → Except RlpError Bytes
  | none => .ok [UInt8.ofNat singleByteValue]
  | some value =>
    if value < 0 then .error .negativeBigInt
    -- `BitLen() <= 64`
    else if value < 2 ^ 64 then encodeUint value.toNat
    else (encodeLength (beBytes value.toNat).length 0x80).map (· ++ beBytes value.toNat)

/-- The end of `encodeList`: the items behind their length. -/
def prefixList (encodedItems : Bytes) : Except RlpError Bytes := do
  let encodedLength ← encodeLength encodedItems.length shortListPrefix
  return encodedLength ++ encodedItems

mutual
/-- The type switch inside the loop of `encodeList`. -/
def encodeElement : RlpInput → Except RlpError Bytes
  | .string item => encodeString item
  | .stringPointer item => encodeStringPointer item
  | .stringArray item => encodeStringArray item
  | .stringArrayPointer item => encodeStringArrayPointer item
  | .list items => encodeListItems items >>= prefixList
  | .listPointer items => encodeListItems items >>= prefixList
  | .nilListPointer => .ok [UInt8.ofNat shortListPrefix]
  | .bytes item => encodeBytes item
  | .bytesPointer item => encodeBytesPointer item
  | .uint item => encodeUint item.toNat
  | .bigInt item => encodeBigInt item
  | .unhandled => .error .unhandledInputType
termination_by structural x => x

def encodeListItems : List RlpInput → Except RlpError Bytes
  | [] => .ok []
  | element :: rest => do
    let encoded ← encodeElement element
    let encodedRest ← encodeListItems rest
    return encoded ++ encodedRest
termination_by structural xs => xs
end

def encodeList (items : List RlpInput) : Except RlpError Bytes :=
  encodeListItems items >>= prefixList

/-- `Encode`. -/
def rlpEncode : RlpInput → Except RlpError Bytes
  | .string item => encodeString item
  | .stringPointer item => encodeStringPointer item
  | .stringArray item => encodeStringArray item
  | .stringArrayPointer item => encodeStringArrayPointer item
  | .list items => encodeList items
  | .listPointer items => encodeList items
  | .nilListPointer => .ok [UInt8.ofNat shortListPrefix]
  | .bytes item => encodeBytes item
  | .bytesPointer item => encodeBytesPointer item
  | .uint item => encodeUint item.toNat
  | .bigInt item => encodeBigInt item
  | .unhandled => .error .unhandledInputType

mutual
/-- The item a value stands for, as the encoder treats it. -/
def RlpInput.toItem : RlpInput → Option RlpItem
  | .string item => some (.str item)
  | .stringPointer item => some (.str (item.getD []))
  | .stringArray item => some (.list (item.map .str))
  | .stringArrayPointer item => some (.list ((item.getD []).map .str))
  | .list items => (toItems items).map .list
  | .listPointer items => (toItems items).map .list
  | .nilListPointer => some (.list [])
  | .bytes item => some (.str item)
  | .bytesPointer item => some (item.elim (.list []) .str)
  | .uint item => some (.num item.toNat)
  | .bigInt none => some (.num 0)
  | .bigInt (some value) => if value < 0 then none else some (.num value.toNat)
  | .unhandled => none
termination_by structural x => x

def RlpInput.toItems : List RlpInput → Option (List RlpItem)
  | [] => some []
  | x :: xs => do
    let item ← x.toItem
    let items ← toItems xs
    return item :: items
termination_by structural xs => xs
end

/-- `bs` is the encoding of `item`, and short enough to be read back. -/
def Encodes (item : RlpItem) (bs : Bytes) : Prop :=
  RlpItem.encode item = bs ∧ bs.length < 256 ^ 8

theorem Encodes.injective {x y : RlpItem} {bs : Bytes} (hx : Encodes x bs) (hy : Encodes y bs) :
    x = y := by
  obtain ⟨rfl, hlt⟩ := hx
  have hy' : (RlpItem.encode y).length < 256 ^ 8 := by rw [hy.1]; exact hlt
  exact RlpItem.encode_injOn hlt hy' hy.1.symm

theorem Encodes.decode {x : RlpItem} {bs : Bytes} (h : Encodes x bs) :
    RlpItem.decode bs = some x := by
  obtain ⟨rfl, hlt⟩ := h
  exact RlpItem.decode_encode hlt

theorem toBinary_eq (value : Nat) : toBinary value = beBytes value := by
  induction value using Nat.strong_induction_on with
  | _ value ih =>
    rw [toBinary]
    by_cases h : value = 0
    · rw [if_pos h, h, beBytes_zero]
    · rw [if_neg h, ih _ (by omega), ← beBytes_eq_append h]

theorem encodeLength_ok {length offset : Nat} {h : Bytes} (he : encodeLength length offset = .ok h) :
    h = RlpItem.header offset length ∧ length < 2 ^ 63 := by
  unfold encodeLength at he
  split at he
  · cases he
  · next hlt =>
    refine ⟨?_, by omega⟩
    unfold RlpItem.header
    split at he <;> cases he
    · next hs => rw [if_pos hs, Nat.add_comm]
    · next hs =>
      rw [if_neg hs, toBinary_eq, Nat.add_comm _ offset, Nat.add_right_comm]

private theorem encodes_of_length {item : RlpItem} {offset : Nat} {payload b : Bytes}
    (hitem : RlpItem.encode item = RlpItem.header offset payload.length ++ payload)
    (h : (encodeLength payload.length offset).map (· ++ payload) = .ok b) : Encodes item b := by
  obtain ⟨l, hl, rfl⟩ := Except.map_eq_ok.mp h
  obtain ⟨rfl, hlt⟩ := encodeLength_ok hl
  have hle := @RlpItem.length_header_le offset payload.length (by omega)
  exact ⟨hitem, by rw [List.length_append]; omega⟩

private theorem encode_str_byte {b : UInt8} (h : ¬ b < 0x80) :
    RlpItem.encode (.str [b]) = RlpItem.header 0x80 1 ++ [b] := by
  rw [RlpItem.encode, RlpItem.encodeStr, if_neg h]

private theorem encode_str_of_ne {bs : Bytes} (h : ∀ b : UInt8, bs ≠ [b]) :
    RlpItem.encode (.str bs) = RlpItem.header 0x80 bs.length ++ bs := by
  rw [RlpItem.encode, RlpItem.encodeStr_of_ne fun b hb => (h b hb).elim]

theorem encodeBytes_ok {item b : Bytes} (h : encodeBytes item = .ok b) : Encodes (.str item) b := by
  unfold encodeBytes at h
  split at h
  · next x =>
    split at h
    · next hx =>
      cases h
      exact ⟨by rw [RlpItem.encode, RlpItem.encodeStr, if_pos hx],
        by rw [List.length_singleton]; norm_num⟩
    · next hx => exact @encodes_of_length _ _ [x] _ (encode_str_byte hx) h
  · next hne => exact encodes_of_length (encode_str_of_ne fun x hx => hne x hx) h

/-- The two encoders of byte strings differ in how the source spells the first byte's test. -/
theorem encodeString_eq (item : Bytes) : encodeString item = encodeBytes item := by
  unfold encodeString encodeBytes
  split
  · next b =>
    have hb : b.toNat < singleByteValue ↔ b < 0x80 := by
      rw [UInt8.lt_iff_toNat_lt]
      rfl
    simp only [hb]
    rfl
  · rfl

theorem encodeString_ok {item b : Bytes} (h : encodeString item = .ok b) :
    Encodes (.str item) b := by
  rw [encodeString_eq] at h
  exact encodeBytes_ok h

theorem encodeStringPointer_ok {item : Option Bytes} {b : Bytes}
    (h : encodeStringPointer item = .ok b) : Encodes (.str (item.getD [])) b := by
  cases item with
  | none => exact encodeString_ok h
  | some item => exact encodeString_ok h

theorem encodeUint_ok {n : Nat} {b : Bytes} (h : encodeUint n = .ok b) : Encodes (.num n) b :=
  encodeBytes_ok h

theorem encodeBigInt_ok {value : Option Int} {b : Bytes} (h : encodeBigInt value = .ok b) :
    ∃ item, (RlpInput.bigInt value).toItem = some item ∧ Encodes item b := by
  cases value with
  | none =>
    cases h
    exact ⟨.num 0, rfl, by rw [RlpItem.num, beBytes_zero]; rfl, by decide⟩
  | some value =>
    simp only [encodeBigInt] at h
    split at h
    · cases h
    · next hneg =>
      refine ⟨.num value.toNat, by rw [RlpInput.toItem, if_neg hneg], ?_⟩
      split at h
      · exact encodeUint_ok h
      · next hbig =>
        refine encodes_of_length (encode_str_of_ne fun x hx => ?_) h
        have hle : (beBytes value.toNat).length ≤ 1 := by rw [hx]; simp
        have := length_beBytes_le_iff.mp hle
        omega

theorem encodeStrings_ok {item : List Bytes} {b : Bytes} (h : encodeStrings item = .ok b) :
    RlpItem.encodeItems (item.map .str) = b := by
  induction item generalizing b with
  | nil => cases h; rfl
  | cons s ss ih =>
    obtain ⟨e, he, h⟩ := Except.bind_eq_ok.mp h
    obtain ⟨es, hes, h⟩ := Except.bind_eq_ok.mp h
    cases h
    rw [List.map_cons, RlpItem.encodeItems, (encodeString_ok he).1, ih hes]

theorem prefixList_ok {items : List RlpItem} {payload b : Bytes}
    (hitems : RlpItem.encodeItems items = payload) (h : prefixList payload = .ok b) :
    Encodes (.list items) b := by
  refine @encodes_of_length _ shortListPrefix payload _ ?_ ?_
  · rw [RlpItem.encode, hitems]; rfl
  · rw [← h, prefixList]; cases encodeLength payload.length shortListPrefix <;> rfl

theorem encodeStringArray_ok {item : List Bytes} {b : Bytes} (h : encodeStringArray item = .ok b) :
    Encodes (.list (item.map .str)) b := by
  obtain ⟨payload, hp, h⟩ := Except.bind_eq_ok.mp h
  exact prefixList_ok (encodeStrings_ok hp) h

private theorem encodes_emptyList : Encodes (.list []) [UInt8.ofNat shortListPrefix] :=
  ⟨by rw [RlpItem.encode]; rfl, by decide⟩

theorem encodeStringArrayPointer_ok {item : Option (List Bytes)} {b : Bytes}
    (h : encodeStringArrayPointer item = .ok b) :
    Encodes (.list ((item.getD []).map .str)) b := by
  cases item with
  | none => cases h; exact encodes_emptyList
  | some item => exact encodeStringArray_ok h

theorem encodeBytesPointer_ok {item : Option Bytes} {b : Bytes}
    (h : encodeBytesPointer item = .ok b) : Encodes (item.elim (.list []) .str) b := by
  cases item with
  | none => cases h; exact encodes_emptyList
  | some item => exact encodeBytes_ok h

/-- The loop's type switch does for an element what `Encode` does for a value on its own. -/
theorem rlpEncode_eq_encodeElement (x : RlpInput) : rlpEncode x = encodeElement x := by
  cases x <;> rfl

mutual
theorem encodeElement_ok : ∀ {x : RlpInput} {b : Bytes}, encodeElement x = .ok b →
    ∃ item, x.toItem = some item ∧ Encodes item b
  | .string _, _, h => ⟨_, rfl, encodeString_ok h⟩
  | .stringPointer _, _, h => ⟨_, rfl, encodeStringPointer_ok h⟩
  | .stringArray _, _, h => ⟨_, rfl, encodeStringArray_ok h⟩
  | .stringArrayPointer _, _, h => ⟨_, rfl, encodeStringArrayPointer_ok h⟩
  | .list items, b, h => by
    obtain ⟨payload, hp, h⟩ := Except.bind_eq_ok.mp h
    obtain ⟨its, hits, hp⟩ := encodeListItems_ok hp
    exact ⟨.list its, by rw [RlpInput.toItem, hits]; rfl, prefixList_ok hp h⟩
  | .listPointer items, b, h => by
    obtain ⟨payload, hp, h⟩ := Except.bind_eq_ok.mp h
    obtain ⟨its, hits, hp⟩ := encodeListItems_ok hp
    exact ⟨.list its, by rw [RlpInput.toItem, hits]; rfl, prefixList_ok hp h⟩
  | .nilListPointer, b, h => by
    cases h
    exact ⟨_, rfl, encodes_emptyList⟩
  | .bytes _, _, h => ⟨_, rfl, encodeBytes_ok h⟩
  | .bytesPointer _, _, h => ⟨_, rfl, encodeBytesPointer_ok h⟩
  | .uint _, _, h => ⟨_, rfl, encodeUint_ok h⟩
  | .bigInt _, _, h => encodeBigInt_ok h
  | .unhandled, b, h => by cases h

theorem encodeListItems_ok : ∀ {xs : List RlpInput} {b : Bytes}, encodeListItems xs = .ok b →
    ∃ items, RlpInput.toItems xs = some items ∧ RlpItem.encodeItems items = b
  | [], b, h => by
    cases h
    exact ⟨[], rfl, rfl⟩
  | x :: xs, b, h => by
    obtain ⟨e, he, h⟩ := Except.bind_eq_ok.mp h
    obtain ⟨es, hes, h⟩ := Except.bind_eq_ok.mp h
    cases h
    obtain ⟨item, hitem, henc⟩ := encodeElement_ok he
    obtain ⟨items, hitems, hencs⟩ := encodeListItems_ok hes
    refine ⟨item :: items, ?_, by rw [RlpItem.encodeItems, henc.1, hencs]⟩
    rw [RlpInput.toItems, hitem, hitems]
    rfl
end

/-- Whatever `Encode` accepts stands for an item, and the output is its reference encoding. -/
theorem rlpEncode_ok {x : RlpInput} {b : Bytes} (h : rlpEncode x = .ok b) :
    ∃ item, x.toItem = some item ∧ Encodes item b := by
  rw [rlpEncode_eq_encodeElement] at h
  exact encodeElement_ok h

end Signare
