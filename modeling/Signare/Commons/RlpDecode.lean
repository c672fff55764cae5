import Signare.Commons.Rlp
import Signare.Lib.RlpForm

/-!
# The RLP decoder

`Decode` reads the item at the front of a byte slice. Lengths are machine integers, and a slice
may be cut beyond its own end, up to the end of the array it lies in.
-/

namespace Signare

open ByteCodec

/-- A byte slice: `len` bytes at the front of `array`, what is left of its array. -/
structure Slice where
  array : Bytes
  len : Nat
  len_le : len ≤ array.length
  length_lt : array.length < 2 ^ 63

def Slice.bytes (s : Slice) : Bytes := s.array.take s.len

/-- `s[low:high]`. The bounds are checked against the capacity. -/
def Slice.cut (s : Slice) (low high : Int) : Option Slice :=
  if h : 0 ≤ low ∧ low ≤ high ∧ high ≤ s.array.length then
    some {
      array := s.array.drop low.toNat
      len := (high - low).toNat
      len_le := by
        rw [List.length_drop]
        omega
      length_lt := by
        have := s.length_lt
        rw [List.length_drop]
        omega }
  else none

/-- `sliceBounds` stands for the panic of a slice expression that is out of range. -/
inductive RlpDecodingError
  | nullInput
  | lengthFieldTooShort
  | sliceBounds
  deriving DecidableEq, Repr

/-- The value of an `int`. -/
def wrapInt (x : Int) : Int :=
  if (x % 2 ^ 64).toNat < 2 ^ 63 then x % 2 ^ 64 else x % 2 ^ 64 - 2 ^ 64

/-- `toInt` of the bytes, the last one first. -/
def toIntBackwards : Bytes → Int
  | [] => 0
  | [b] => b.toNat
  | b :: bs => wrapInt (b.toNat + wrapInt (toIntBackwards bs * 256))

def toInt (b : Bytes) : Int := toIntBackwards b.reverse

def singleBytePrefix : UInt8 := 0x7f
def longItemPrefix : UInt8 := 0xb7
def itemListOfLongerThan55BytesItemsPrefix : UInt8 := 0xbf
def itemListOfShortItemsPrefix : UInt8 := 0xf7

/-- Where the data begins, its length and its type. -/
structure DecodedLength where
  offset : Nat
  dataLength : Int
  dataType : RlpItem.Kind

/-- The two long forms: the length is in a field of its own. -/
def decodeLongLength (input : Bytes) (lengthOfLengthField : Nat) (dataType : RlpItem.Kind) :
    Except RlpDecodingError DecodedLength :=
  if input.length ≤ 1 + lengthOfLengthField then .error .lengthFieldTooShort
  else .ok ⟨1 + lengthOfLengthField, toInt ((input.drop 1).take lengthOfLengthField), dataType⟩

def decodeLength (input : Bytes) : Except RlpDecodingError DecodedLength :=
  match input with
  | [] => .error .nullInput
  | first :: _ =>
    if first ≤ singleBytePrefix then .ok ⟨0, 1, .str⟩
    else if first ≤ longItemPrefix then
      .ok ⟨1, (first - UInt8.ofNat singleByteValue).toNat, .str⟩
    else if first ≤ itemListOfLongerThan55BytesItemsPrefix then
      decodeLongLength input (first - longItemPrefix).toNat .str
    else if first ≤ itemListOfShortItemsPrefix then
      .ok ⟨1, (first - UInt8.ofNat shortListPrefix).toNat, .list⟩
    else decodeLongLength input (first - itemListOfShortItemsPrefix).toNat .list

theorem wrapInt_eq (x : Int) : wrapInt x =
    if x % 2 ^ 64 < 2 ^ 63 then x % 2 ^ 64 else x % 2 ^ 64 - 2 ^ 64 := by
  unfold wrapInt
  split <;> split <;> omega

theorem wrapInt_eq_bmod (x : Int) : wrapInt x = x.bmod (2 ^ 64) := by
  rw [wrapInt_eq, Int.bmod_def]
  norm_num

theorem wrapInt_of_lt {x : Int} (h : 0 ≤ x) (h' : x < 2 ^ 63) : wrapInt x = x := by
  rw [wrapInt_eq]
  split <;> omega

theorem toInt_eq (b : Bytes) : toInt b = wrapInt (beNat b) := by
  have hback (b : Bytes) : toIntBackwards b = wrapInt (beNat b.reverse) := by
    induction b with
    | nil => rfl
    | cons x xs ih =>
      rw [List.reverse_cons, beNat_append]
      have hx := x.toNat_lt
      have hsingle : beNat [x] = x.toNat := by simp [beNat]
      cases xs with
      | nil =>
        rw [List.reverse_nil, beNat_nil, Nat.zero_mul, Nat.zero_add, hsingle, wrapInt_of_lt
          (by omega) (by omega)]
        rfl
      | cons y ys =>
        rw [toIntBackwards, ih, hsingle, List.length_singleton]
        · push_cast
          simp only [wrapInt_eq_bmod]
          rw [Int.bmod_mul_bmod, Int.add_bmod_bmod]
          congr 1
          ring
        · simp
  rw [toInt, hback, List.reverse_reverse]

theorem decodeLongLength_of_field {first : UInt8} {field rest : Bytes} (hrest : rest ≠ [])
    (dataType : RlpItem.Kind) :
    decodeLongLength (first :: (field ++ rest)) field.length dataType =
      .ok ⟨1 + field.length, wrapInt (beNat field), dataType⟩ := by
  have hpos := List.length_pos_iff.mpr hrest
  unfold decodeLongLength
  rw [if_neg (by rw [List.length_cons, List.length_append]; omega), List.drop_one, List.tail_cons,
    List.take_left, toInt_eq]

section Prefixes

variable {first : UInt8} {rest : Bytes} {m : Nat}

private theorem le_of_toNat {limit : UInt8} (h : first.toNat ≤ limit.toNat) : first ≤ limit :=
  UInt8.le_iff_toNat_le.mpr h

private theorem not_le_of_toNat {limit : UInt8} (h : limit.toNat < first.toNat) :
    ¬ first ≤ limit := fun hle => absurd (UInt8.le_iff_toNat_le.mp hle) (Nat.not_le.mpr h)

private theorem toNat_sub {base : UInt8} (h : first.toNat = base.toNat + m) :
    (first - base).toNat = m := by
  rw [UInt8.toNat_sub_of_le _ _ (UInt8.le_iff_toNat_le.mpr (by omega)), h,
    Nat.add_sub_cancel_left]

theorem decodeLength_singleByte (h : first < 0x80) :
    decodeLength (first :: rest) = .ok ⟨0, 1, .str⟩ := by
  have hlt := UInt8.lt_iff_toNat_lt.mp h
  rw [decodeLength, if_pos (le_of_toNat (Nat.le_of_lt_succ hlt))]

theorem decodeLength_shortString (h : first.toNat = 0x80 + m) (hm : m < 56) :
    decodeLength (first :: rest) = .ok ⟨1, m, .str⟩ := by
  have hlow : singleBytePrefix.toNat < first.toNat := by
    rw [h, show singleBytePrefix.toNat = 127 from rfl]
    omega
  have hhigh : first.toNat ≤ longItemPrefix.toNat := by
    rw [h, show longItemPrefix.toNat = 183 from rfl]
    omega
  rw [decodeLength, if_neg (not_le_of_toNat hlow), if_pos (le_of_toNat hhigh), toNat_sub h]

theorem decodeLength_longString (h : first.toNat = 0xb7 + m) (hpos : 0 < m) (hm : m ≤ 8) :
    decodeLength (first :: rest) = decodeLongLength (first :: rest) m .str := by
  have hlow : longItemPrefix.toNat < first.toNat := by
    rw [h, show longItemPrefix.toNat = 183 from rfl]
    omega
  have hhigh : first.toNat ≤ itemListOfLongerThan55BytesItemsPrefix.toNat := by
    rw [h, show itemListOfLongerThan55BytesItemsPrefix.toNat = 191 from rfl]
    omega
  have hlow' : singleBytePrefix.toNat < first.toNat := lt_trans (by decide) hlow
  rw [decodeLength, if_neg (not_le_of_toNat hlow'), if_neg (not_le_of_toNat hlow),
    if_pos (le_of_toNat hhigh), toNat_sub h]

theorem decodeLength_shortList (h : first.toNat = 0xc0 + m) (hm : m < 56) :
    decodeLength (first :: rest) = .ok ⟨1, m, .list⟩ := by
  have hlow : itemListOfLongerThan55BytesItemsPrefix.toNat < first.toNat := by
    rw [h, show itemListOfLongerThan55BytesItemsPrefix.toNat = 191 from rfl]
    omega
  have hhigh : first.toNat ≤ itemListOfShortItemsPrefix.toNat := by
    rw [h, show itemListOfShortItemsPrefix.toNat = 247 from rfl]
    omega
  have hlow₁ : longItemPrefix.toNat < first.toNat := lt_trans (by decide) hlow
  have hlow₂ : singleBytePrefix.toNat < first.toNat := lt_trans (by decide) hlow
  rw [decodeLength, if_neg (not_le_of_toNat hlow₂), if_neg (not_le_of_toNat hlow₁),
    if_neg (not_le_of_toNat hlow), if_pos (le_of_toNat hhigh), toNat_sub h]

theorem decodeLength_longList (h : first.toNat = 0xf7 + m) (hpos : 0 < m) :
    decodeLength (first :: rest) = decodeLongLength (first :: rest) m .list := by
  have hlow : itemListOfShortItemsPrefix.toNat < first.toNat := by
    rw [h, show itemListOfShortItemsPrefix.toNat = 247 from rfl]
    omega
  have hlow₁ : itemListOfLongerThan55BytesItemsPrefix.toNat < first.toNat :=
    lt_trans (by decide) hlow
  have hlow₂ : longItemPrefix.toNat < first.toNat := lt_trans (by decide) hlow
  have hlow₃ : singleBytePrefix.toNat < first.toNat := lt_trans (by decide) hlow
  rw [decodeLength, if_neg (not_le_of_toNat hlow₃), if_neg (not_le_of_toNat hlow₂),
    if_neg (not_le_of_toNat hlow₁), if_neg (not_le_of_toNat hlow), toNat_sub h]

theorem firstByte_cases (first : UInt8) :
    first < 0x80 ∨ ∃ kind : RlpItem.Kind, ∃ m : Nat,
      (m < 56 ∧ first.toNat = kind.offset + m) ∨
      (0 < m ∧ m ≤ 8 ∧ first.toNat = kind.offset + 55 + m) := by
  have hlt := first.toNat_lt
  by_cases hbyte : first < 0x80
  · exact .inl hbyte
  · have hge : 0x80 ≤ first.toNat := by
      rw [UInt8.lt_iff_toNat_lt] at hbyte
      exact Nat.not_lt.mp hbyte
    obtain ⟨r, hr⟩ := Nat.exists_eq_add_of_le hge
    right
    by_cases h₁ : r < 56
    · exact ⟨.str, r, .inl ⟨h₁, hr⟩⟩
    · by_cases h₂ : r < 64
      · refine ⟨.str, r - 55, .inr ⟨by omega, by omega, ?_⟩⟩
        show first.toNat = 128 + 55 + (r - 55)
        omega
      · by_cases h₃ : r < 120
        · refine ⟨.list, r - 64, .inl ⟨by omega, ?_⟩⟩
          show first.toNat = 192 + (r - 64)
          omega
        · refine ⟨.list, r - 119, .inr ⟨by omega, by omega, ?_⟩⟩
          show first.toNat = 192 + 55 + (r - 119)
          omega

end Prefixes

/-- The decoder finds the payload that a prefix announces, with its length as an `int`. -/
theorem decodeLength_of_announces {bs : Bytes} {offset length : Nat} {kind : RlpItem.Kind}
    (h : RlpItem.Announces bs offset length kind) :
    decodeLength bs = .ok ⟨offset, wrapInt length, kind⟩ := by
  cases h with
  | byte hb =>
    rw [decodeLength_singleByte hb]
    rfl
  | short hlength =>
    rw [wrapInt_of_lt (by omega) (by omega)]
    cases kind with
    | str =>
      apply decodeLength_shortString _ hlength
      rw [UInt8.toNat_ofNat']
      exact Nat.mod_eq_of_lt (by simp only [RlpItem.Kind.offset]; omega)
    | list =>
      apply decodeLength_shortList _ hlength
      rw [UInt8.toNat_ofNat']
      exact Nat.mod_eq_of_lt (by simp only [RlpItem.Kind.offset]; omega)
  | long hpos hfield hrest =>
    have hlen := List.length_pos_iff.mpr hpos
    cases kind with
    | str =>
      rw [decodeLength_longString _ hlen hfield, decodeLongLength_of_field hrest]
      rw [UInt8.toNat_ofNat']
      exact Nat.mod_eq_of_lt (by simp only [RlpItem.Kind.offset]; omega)
    | list =>
      rw [decodeLength_longList _ hlen, decodeLongLength_of_field hrest]
      rw [UInt8.toNat_ofNat']
      exact Nat.mod_eq_of_lt (by simp only [RlpItem.Kind.offset]; omega)

theorem decodeLength_cases {bs : Bytes} (hbs : bs ≠ []) :
    (∃ offset length kind, RlpItem.Announces bs offset length kind) ∨
      decodeLength bs = .error .lengthFieldTooShort := by
  obtain ⟨first, rest, rfl⟩ := List.exists_cons_of_ne_nil hbs
  have hlong (kind : RlpItem.Kind) (m : Nat) (hpos : 0 < m) (hm : m ≤ 8)
      (hfirst : first.toNat = kind.offset + 55 + m) :
      (∃ offset length kind, RlpItem.Announces (first :: rest) offset length kind) ∨
        decodeLongLength (first :: rest) m kind = .error .lengthFieldTooShort := by
    by_cases hshort : (first :: rest).length ≤ 1 + m
    · exact .inr (by rw [decodeLongLength, if_pos hshort])
    · left
      rw [List.length_cons] at hshort
      have hlen : (rest.take m).length = m := by
        rw [List.length_take]
        omega
      have hfield : rest.take m ≠ [] := by
        rw [← List.length_pos_iff, hlen]
        exact hpos
      have hrest : rest.drop m ≠ [] := by
        rw [← List.length_pos_iff, List.length_drop]
        omega
      have hannounces := @RlpItem.Announces.long kind _ _ hfield (hlen.trans_le hm) hrest
      rw [hlen, ← hfirst, UInt8.ofNat_toNat, List.take_append_drop] at hannounces
      exact ⟨_, _, _, hannounces⟩
  rcases firstByte_cases first with hbyte | ⟨kind, m, ⟨hm, hfirst⟩ | ⟨hpos, hm, hfirst⟩⟩
  · exact .inl ⟨0, 1, .str, .byte hbyte⟩
  · have hannounces := @RlpItem.Announces.short kind m rest hm
    rw [← hfirst, UInt8.ofNat_toNat] at hannounces
    exact .inl ⟨_, _, _, hannounces⟩
  · cases kind with
    | str =>
      rw [decodeLength_longString hfirst hpos hm]
      exact hlong .str m hpos hm hfirst
    | list =>
      rw [decodeLength_longList hfirst hpos]
      exact hlong .list m hpos hm hfirst

theorem Slice.length_bytes (s : Slice) : s.bytes.length = s.len := by
  rw [Slice.bytes, List.length_take]
  have := s.len_le
  omega

theorem Slice.drop_bytes (s : Slice) (i : Nat) :
    s.bytes.drop i = (s.array.drop i).take (s.len - i) := by
  rw [Slice.bytes, List.drop_take]

theorem Slice.cut_of_le {s : Slice} {low high : Nat} (hle : low ≤ high)
    (hcap : high ≤ s.array.length) :
    ∃ data, s.cut low high = some data ∧ data.array = s.array.drop low ∧
      data.len = high - low := by
  have hbounds : 0 ≤ (low : Int) ∧ (low : Int) ≤ high ∧ (high : Int) ≤ s.array.length := by omega
  refine ⟨_, dif_pos hbounds, ?_, ?_⟩
  · show s.array.drop ((low : Int).toNat) = s.array.drop low
    rw [Int.toNat_natCast]
  · show ((high : Int) - low).toNat = high - low
    omega

theorem Slice.cut_eq_none {s : Slice} {low high : Int}
    (h : high < low ∨ (s.array.length : Int) < high) : s.cut low high = none := by
  unfold Slice.cut
  rw [dif_neg]
  omega

/-- `input[i+offset : i+offset+dataLength]`. -/
def Slice.item (input : Slice) (i offset : Nat) (dataLength : Int) : Option Slice :=
  input.cut (wrapInt (i + offset)) (wrapInt (wrapInt (i + offset) + dataLength))

theorem Slice.item_of_le {input : Slice} {i offset length : Nat}
    (hfit : i + offset + length ≤ input.array.length) :
    ∃ data, input.item i offset (wrapInt length) = some data ∧
      data.array = input.array.drop (i + offset) ∧ data.len = length := by
  have hlt := input.length_lt
  have hlength : wrapInt length = length := wrapInt_of_lt (by omega) (by omega)
  have hstart : wrapInt ((i : Int) + offset) = (i + offset : Nat) := by
    rw [wrapInt_of_lt (by omega) (by omega)]
    push_cast
    rfl
  have hend : wrapInt (((i + offset : Nat) : Int) + length) = (i + offset + length : Nat) := by
    rw [wrapInt_of_lt (by omega) (by omega)]
    push_cast
    rfl
  rw [Slice.item, hlength, hstart, hend]
  obtain ⟨data, hcut, harray, hlen⟩ :=
    @Slice.cut_of_le input (i + offset) (i + offset + length) (by omega) hfit
  refine ⟨data, hcut, harray, ?_⟩
  rw [hlen]
  omega

theorem Slice.item_of_lt {input : Slice} {i offset length : Nat}
    (hoffset : i + offset ≤ input.array.length) (hlength : length < 256 ^ 8)
    (hover : input.array.length < i + offset + length) :
    input.item i offset (wrapInt length) = none := by
  have hlt := input.length_lt
  have hstart : wrapInt ((i : Int) + offset) = (i + offset : Nat) := by
    rw [wrapInt_of_lt (by omega) (by omega)]
    push_cast
    rfl
  rw [Slice.item, hstart]
  apply Slice.cut_eq_none
  by_cases hsmall : length < 2 ^ 63
  · have hsame : wrapInt length = length := wrapInt_of_lt (by omega) (by omega)
    rw [hsame, wrapInt_eq]
    split <;> omega
  · have hneg : wrapInt length = length - 2 ^ 64 := by
      rw [wrapInt_eq]
      split <;> omega
    rw [hneg, wrapInt_eq]
    split <;> omega

/-- An item in a slice: its data, and where the next item begins. -/
structure Located where
  dataType : RlpItem.Kind
  data : Slice
  next : Nat

/-- What the switch over the data type cuts out of `input` at `i`. -/
def Slice.locateItem (input : Slice) (i : Nat) (decoded : DecodedLength) :
    Except RlpDecodingError Located :=
  match input.item i decoded.offset decoded.dataLength with
  | none => .error .sliceBounds
  | some data => .ok ⟨decoded.dataType, data, i + decoded.offset + decoded.dataLength.toNat⟩

def Slice.locate (input : Slice) (i : Nat) : Except RlpDecodingError Located :=
  decodeLength (input.bytes.drop i) >>= input.locateItem i

section Locate

variable {input : Slice} {i offset length : Nat} {kind : RlpItem.Kind}

theorem Slice.lt_of_announces (h : RlpItem.Announces (input.bytes.drop i) offset length kind) :
    i < input.len := by
  have hpos := List.length_pos_iff.mpr h.ne_nil
  rw [List.length_drop, Slice.length_bytes] at hpos
  omega

theorem Slice.locateItem_of_some {decoded : DecodedLength} {data : Slice}
    (hitem : input.item i decoded.offset decoded.dataLength = some data) :
    input.locateItem i decoded =
      .ok ⟨decoded.dataType, data, i + decoded.offset + decoded.dataLength.toNat⟩ := by
  rw [Slice.locateItem, hitem]

theorem Slice.locateItem_of_none {decoded : DecodedLength}
    (hitem : input.item i decoded.offset decoded.dataLength = none) :
    input.locateItem i decoded = .error .sliceBounds := by
  rw [Slice.locateItem, hitem]

theorem Slice.locate_of_announces
    (h : RlpItem.Announces (input.bytes.drop i) offset length kind)
    (hfit : i + offset + length ≤ input.array.length) :
    ∃ data, input.locate i = .ok ⟨kind, data, i + offset + length⟩ ∧
      data.array = input.array.drop (i + offset) ∧ data.len = length := by
  obtain ⟨data, hitem, harray, hlen⟩ := Slice.item_of_le hfit
  have hlength : (wrapInt length).toNat = length := by
    have hlt := input.length_lt
    rw [wrapInt_of_lt (by omega) (by omega), Int.toNat_natCast]
  have hlocate := @Slice.locateItem_of_some input i ⟨offset, wrapInt length, kind⟩ data hitem
  refine ⟨data, ?_, harray, hlen⟩
  rw [Slice.locate, decodeLength_of_announces h, Except.ok_bind, hlocate, hlength]

theorem Slice.locate_of_overrun
    (h : RlpItem.Announces (input.bytes.drop i) offset length kind)
    (hover : input.array.length < i + offset + length) :
    input.locate i = .error .sliceBounds := by
  have hoffset : i + offset ≤ input.array.length := by
    have hlt := Slice.lt_of_announces h
    have hle := h.offset_le
    have hlen := input.len_le
    rw [List.length_drop, Slice.length_bytes] at hle
    omega
  have hlocate := @Slice.locateItem_of_none input i ⟨offset, wrapInt length, kind⟩
    (Slice.item_of_lt hoffset h.length_lt hover)
  rw [Slice.locate, decodeLength_of_announces h, Except.ok_bind, hlocate]

/-- Every item is announced, and cut out, overrun, or without its length. -/
theorem Slice.locate_cases (hi : i < input.len) :
    (∃ offset length kind, RlpItem.Announces (input.bytes.drop i) offset length kind ∧
      i + offset + length ≤ input.array.length) ∨
    (∃ offset length kind, RlpItem.Announces (input.bytes.drop i) offset length kind ∧
      input.array.length < i + offset + length) ∨
    input.locate i = .error .lengthFieldTooShort := by
  have hne : input.bytes.drop i ≠ [] := by
    rw [← List.length_pos_iff, List.length_drop, Slice.length_bytes]
    omega
  rcases decodeLength_cases hne with ⟨offset, length, kind, h⟩ | herr
  · by_cases hfit : i + offset + length ≤ input.array.length
    · exact .inl ⟨offset, length, kind, h, hfit⟩
    · exact .inr (.inl ⟨offset, length, kind, h, by omega⟩)
  · refine .inr (.inr ?_)
    rw [Slice.locate, herr]
    rfl

theorem Slice.locate_eq_ok {located : Located} (hi : i < input.len)
    (h : input.locate i = .ok located) :
    ∃ offset length, RlpItem.Announces (input.bytes.drop i) offset length located.dataType ∧
      i + offset + length ≤ input.array.length ∧
      located.data.array = input.array.drop (i + offset) ∧ located.data.len = length ∧
      located.next = i + offset + length := by
  rcases Slice.locate_cases hi with ⟨offset, length, kind, hannounces, hfit⟩ |
    ⟨offset, length, kind, hannounces, hover⟩ | herr
  · obtain ⟨data, hlocate, harray, hlen⟩ := Slice.locate_of_announces hannounces hfit
    rw [hlocate] at h
    cases h
    exact ⟨offset, length, hannounces, hfit, harray, hlen, rfl⟩
  · rw [Slice.locate_of_overrun hannounces hover] at h
    cases h
  · rw [herr] at h
    cases h

/-- Every turn of the loop advances, and what a nested list holds lies further on. -/
theorem Slice.locate_advances {located : Located} (hi : i < input.len)
    (h : input.locate i = .ok located) :
    i < located.next ∧ located.next ≤ input.array.length ∧
      (located.dataType = .list → located.data.array.length < input.array.length - i) := by
  obtain ⟨offset, length, hannounces, hfit, harray, -, hnext⟩ := Slice.locate_eq_ok hi h
  have hadvances := hannounces.advances
  refine ⟨by omega, by omega, fun hlist => ?_⟩
  rw [hlist] at hannounces
  have hpos := hannounces.list_offset_pos
  have hlen := input.len_le
  rw [harray, List.length_drop]
  omega

end Locate

-- The names are for the termination proof.
set_option linter.unusedVariables false in
/-- The loop of `decodeList` from `i` on. -/
def decodeListFrom (input : Slice) (i : Nat) : Except RlpDecodingError (List RlpItem) :=
  if hi : i < input.len then
    match hlocate : input.locate i with
    | .error err => .error err
    | .ok located =>
      match hkind : located.dataType with
      | .str => do
        let output ← decodeListFrom input located.next
        return .str located.data.bytes :: output
      | .list => do
        let nestedList ← decodeListFrom located.data 0
        let output ← decodeListFrom input located.next
        return .list nestedList :: output
  else .ok []
termination_by input.array.length - i
decreasing_by
  · obtain ⟨hnext, hcap, -⟩ := Slice.locate_advances hi hlocate
    omega
  · obtain ⟨-, -, hnested⟩ := Slice.locate_advances hi hlocate
    exact hnested hkind
  · obtain ⟨hnext, hcap, -⟩ := Slice.locate_advances hi hlocate
    omega

def decodeList (input : Slice) : Except RlpDecodingError (List RlpItem) := decodeListFrom input 0

/-- `Decode`. -/
def rlpDecode (input : Slice) : Except RlpDecodingError RlpItem :=
  if input.len = 0 then .error .nullInput
  else do
    let located ← input.locate 0
    match located.dataType with
    | .str => return .str located.data.bytes
    | .list => return .list (← decodeList located.data)

end Signare
