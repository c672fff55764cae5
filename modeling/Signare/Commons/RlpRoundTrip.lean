import Signare.Commons.RlpReference
import Signare.Commons.RlpScan

/-!
# Encoding and decoding

What `Encode` returns is read back as the normal form of the value. The other way round, `Decode`
accepts more than encodings: whatever follows the item is left alone, and lengths may be spelled
in more bytes than they need.
-/

namespace Signare

open ByteCodec RlpItem

theorem scans_of_holds {bs array : Bytes} {n : Nat} {items : List RlpItem}
    (h : Holds Announces bs items) (hbs : bs = array.take n) (hn : n ≤ array.length) :
    Scans array n items := by
  induction h generalizing array n with
  | nil =>
    have hzero : n = 0 := by
      have hlen := congrArg List.length hbs
      rw [List.length_nil, List.length_take] at hlen
      omega
    subst hzero
    exact .nil
  | @str bs offset length items hprefix hfit _ ih =>
    subst hbs
    rw [List.length_take] at hfit
    have hpayload : ((array.take n).drop offset).take length = (array.drop offset).take length := by
      rw [List.drop_take, List.take_take, Nat.min_eq_left (by omega)]
    rw [hpayload]
    apply Scans.str hprefix (by omega)
    apply ih (List.drop_take ..)
    rw [List.length_drop]
    omega
  | @list bs offset length nested items hprefix hfit _ _ ihnested ih =>
    subst hbs
    rw [List.length_take] at hfit
    apply Scans.list hprefix (by omega)
    · apply ihnested
      · rw [List.drop_take, List.take_take, Nat.min_eq_left (by omega)]
      · rw [List.length_drop]
        omega
    · apply ih (List.drop_take ..)
      rw [List.length_drop]
      omega

theorem decodes_of_begins {array rest : Bytes} {n : Nat} {x : RlpItem} (hn : n ≤ array.length)
    (h : Begins Announces (array.take n) x rest) : Decodes array n x := by
  cases h with
  | @str offset length hprefix hfit =>
    rw [List.length_take] at hfit
    have hpayload : ((array.take n).drop offset).take length = (array.drop offset).take length := by
      rw [List.drop_take, List.take_take, Nat.min_eq_left (by omega)]
    rw [hpayload]
    exact .str hprefix (by omega)
  | @list offset length nested hprefix hfit hnested =>
    rw [List.length_take] at hfit
    apply Decodes.list hprefix (by omega)
    apply scans_of_holds hnested
    · rw [List.drop_take, List.take_take, Nat.min_eq_left (by omega)]
    · rw [List.length_drop]
      omega

theorem rlpDecode_of_begins {input : Slice} {rest : Bytes} {x : RlpItem}
    (h : Begins Announces input.bytes x rest) : rlpDecode input = .ok x :=
  rlpDecode_eq_ok.mpr (decodes_of_begins input.len_le h)

theorem rlpDecode_encode {input : Slice} {x : RlpItem} (h : input.bytes = encode x) :
    rlpDecode input = .ok x := by
  have hlt : (encode x).length < 256 ^ 8 := by
    rw [← h, Slice.length_bytes]
    have := input.len_le
    have := input.length_lt
    omega
  have hbegins := (begins_encode x [] hlt).mono Shortest.announces
  rw [List.append_nil, ← h] at hbegins
  exact rlpDecode_of_begins hbegins

/-- The round trip, for every value without a nil pointer to bytes. -/
theorem rlpDecode_rlpEncode (x : RlpInput) (hsupported : x.supported = true)
    (hnil : x.hasNilBytes = false) (hlt : (encode x.normalForm).length < 2 ^ 63) :
    ∃ b, rlpEncode x = .ok b ∧
      ∀ input : Slice, input.bytes = b → rlpDecode input = .ok x.normalForm :=
  ⟨encode x.normalForm, rlpEncode_of_supported hsupported hnil hlt,
    fun _ hinput => rlpDecode_encode hinput⟩

/-- A zero, a string slice and an empty list. -/
theorem rlpDecode_rlpEncode_nested :
    ∃ b, rlpEncode (.list [.bigInt (some 0), .stringArray [[0x61]], .listPointer []]) = .ok b ∧
      ∀ input : Slice, input.bytes = b →
        rlpDecode input = .ok (.list [.num 0, .list [.str [0x61]], .list []]) :=
  rlpDecode_rlpEncode (.list [.bigInt (some 0), .stringArray [[0x61]], .listPointer []]) rfl rfl
    (by
      have hzero : RlpItem.num 0 = .str [] := by rw [RlpItem.num, beBytes_zero]
      simp only [RlpInput.normalForm, RlpInput.normalForms, Option.getD_some, Int.toNat_zero, hzero]
      decide)

/-- An item extends beyond the list it belongs to, though the array holds it. -/
def Overreads (array : Bytes) (n : Nat) : Prop :=
  ∃ offset length kind, Announces (array.take n) offset length kind ∧ n < offset + length

theorem holds_of_scans {array : Bytes} {n : Nat} {items : List RlpItem} (h : Scans array n items)
    (hn : n ≤ array.length) (hwithin : ∀ array' n', Visits array n array' n' →
      ¬ Overreads array' n') : Holds Announces (array.take n) items := by
  induction h with
  | nil =>
    rw [List.take_zero]
    exact .nil
  | @str array n offset length items hprefix hfit _ ih =>
    have hle : offset + length ≤ n := by
      by_contra hlt
      exact hwithin array n .here ⟨offset, length, .str, hprefix, by omega⟩
    have hrest := ih (by rw [List.length_drop]; omega) fun array' n' hvisits =>
      hwithin array' n' (.later hprefix hfit (fun h => by cases h) hvisits)
    rw [← List.drop_take] at hrest
    have hholds := Holds.str hprefix (by rw [List.length_take]; omega) hrest
    rw [List.drop_take, List.take_take, Nat.min_eq_left (by omega)] at hholds
    exact hholds
  | @list array n offset length nested items hprefix hfit hscans _ ihnested ih =>
    have hle : offset + length ≤ n := by
      by_contra hlt
      exact hwithin array n .here ⟨offset, length, .list, hprefix, by omega⟩
    have hrest := ih (by rw [List.length_drop]; omega) fun array' n' hvisits =>
      hwithin array' n' (.later hprefix hfit (fun _ => ⟨nested, hscans⟩) hvisits)
    have hinner := ihnested (by rw [List.length_drop]; omega) fun array' n' hvisits =>
      hwithin array' n' (.inside hprefix hfit hvisits)
    rw [← List.drop_take] at hrest
    apply Holds.list hprefix (by rw [List.length_take]; omega) _ hrest
    rw [List.drop_take, List.take_take, Nat.min_eq_left (by omega)]
    exact hinner

theorem begins_of_decodes {array : Bytes} {n : Nat} {x : RlpItem} (h : Decodes array n x)
    (hn : n ≤ array.length) (hwithin : ∀ array' n', Reaches array n array' n' →
      ¬ Overreads array' n') : ∃ rest, Begins Announces (array.take n) x rest := by
  cases h with
  | @str offset length hprefix hfit =>
    have hle : offset + length ≤ n := by
      by_contra hlt
      exact hwithin array n .first ⟨offset, length, .str, hprefix, by omega⟩
    have hbegins := Begins.str hprefix (by rw [List.length_take]; omega)
    rw [List.drop_take, List.take_take, Nat.min_eq_left (by omega)] at hbegins
    exact ⟨_, hbegins⟩
  | @list offset length nested hprefix hfit hscans =>
    have hle : offset + length ≤ n := by
      by_contra hlt
      exact hwithin array n .first ⟨offset, length, .list, hprefix, by omega⟩
    have hinner := holds_of_scans hscans (by rw [List.length_drop]; omega)
      fun array' n' hvisits => hwithin array' n' (.inside hprefix hfit hvisits)
    refine ⟨_, Begins.list hprefix (by rw [List.length_take]; omega) ?_⟩
    rw [List.drop_take, List.take_take, Nat.min_eq_left (by omega)]
    exact hinner

mutual
/-- What `Decode` returns is passed to `Encode` as it is: strings, and lists of values. -/
def toInput : RlpItem → RlpInput
  | .str bs => .string bs
  | .list items => .list (toInputs items)
termination_by structural x => x

def toInputs : List RlpItem → List RlpInput
  | [] => []
  | x :: xs => toInput x :: toInputs xs
termination_by structural xs => xs
end

mutual
theorem toItem_toInput : ∀ x : RlpItem, (toInput x).toItem = some x
  | .str _ => rfl
  | .list items => by
    rw [toInput, RlpInput.toItem, toItems_toInputs items]
    rfl

theorem toItems_toInputs : ∀ xs : List RlpItem, RlpInput.toItems (toInputs xs) = some xs
  | [] => rfl
  | x :: xs => by
    rw [toInputs, RlpInput.toItems, toItem_toInput x, toItems_toInputs xs]
    rfl
end

theorem rlpEncode_toInput {x : RlpItem} (h : (encode x).length < 2 ^ 63) :
    rlpEncode (toInput x) = .ok (encode x) := by
  rw [rlpEncode_eq_encodeElement]
  exact encodeElement_of_toItem (toItem_toInput x) h

/-- What was read is encoded again as it was if and only if it is all there was, in the shortest
form. -/
theorem rlpEncode_of_begins {input : Slice} {rest : Bytes} {x : RlpItem}
    (h : Begins Announces input.bytes x rest) :
    ∃ b, rlpEncode (toInput x) = .ok b ∧
      (b = input.bytes ↔ Begins Shortest input.bytes x []) := by
  have hlt : (encode x).length < 2 ^ 63 := by
    have hle := h.length_encode_le
    rw [Slice.length_bytes] at hle
    have := input.len_le
    have := input.length_lt
    omega
  refine ⟨encode x, rlpEncode_toInput hlt, ?_, ?_⟩
  · intro hsame
    have hbegins := begins_encode x [] (hlt.trans (by norm_num))
    rw [List.append_nil, hsame] at hbegins
    exact hbegins
  · intro hshortest
    rw [hshortest.eq_encode, List.append_nil]

/-- The decoder accepts what begins with an item, provided that it does not read beyond a list. -/
theorem rlpDecode_accepts (input : Slice) (x : RlpItem)
    (hwithin : ∀ array n, Reaches input.array input.len array n → ¬ Overreads array n) :
    (rlpDecode input = .ok x ↔ ∃ rest, Begins Announces input.bytes x rest) ∧
    (rlpDecode input = .ok x → ∃ b, rlpEncode (toInput x) = .ok b ∧
      (b = input.bytes ↔ Begins Shortest input.bytes x [])) ∧
    (Begins Shortest input.bytes x [] → ∀ other : Slice, Begins Shortest other.bytes x [] →
      other.bytes = input.bytes) := by
  have haccepts : rlpDecode input = .ok x ↔ ∃ rest, Begins Announces input.bytes x rest := by
    constructor
    · intro h
      exact begins_of_decodes (rlpDecode_eq_ok.mp h) input.len_le hwithin
    · rintro ⟨rest, h⟩
      exact rlpDecode_of_begins h
  refine ⟨haccepts, fun h => ?_, fun h other hother => ?_⟩
  · obtain ⟨rest, hbegins⟩ := haccepts.mp h
    exact rlpEncode_of_begins hbegins
  · rw [hother.eq_encode, h.eq_encode]

theorem eq_of_announces {bs : Bytes} {offset offset' length length' : Nat} {kind kind' : Kind}
    (h : Announces bs offset length kind)
    (hdecode : decodeLength bs = .ok ⟨offset', (length' : Int), kind'⟩) (hlt : length' < 2 ^ 63) :
    offset = offset' ∧ length = length' ∧ kind = kind' := by
  have hsame := Except.ok.inj ((decodeLength_of_announces h).symm.trans hdecode)
  have hlength : wrapInt length = length' := congrArg DecodedLength.dataLength hsame
  have hbound := h.length_lt
  rw [wrapInt_eq] at hlength
  refine ⟨congrArg DecodedLength.offset hsame, ?_, congrArg DecodedLength.dataType hsame⟩
  split_ifs at hlength <;> omega

theorem not_overreads_zero {array array' : Bytes} {n' : Nat} (h : Visits array 0 array' n') :
    ¬ Overreads array' n' := by
  cases h with
  | here =>
    rintro ⟨offset, length, kind, hprefix, -⟩
    exact hprefix.ne_nil List.take_zero
  | inside hprefix => exact absurd List.take_zero hprefix.ne_nil
  | later hprefix => exact absurd List.take_zero hprefix.ne_nil

theorem not_overreads_byte {b : UInt8} {rest array' : Bytes} {n' : Nat} (hb : b < 0x80)
    (h : Visits (b :: rest) 1 array' n') : ¬ Overreads array' n' := by
  have hbyte : decodeLength ((b :: rest).take 1) = .ok ⟨0, ((1 : Nat) : Int), .str⟩ := by
    rw [List.take_succ_cons, List.take_zero]
    exact decodeLength_singleByte hb
  cases h with
  | here =>
    rintro ⟨offset, length, kind, hprefix, hover⟩
    obtain ⟨rfl, rfl, -⟩ := eq_of_announces hprefix hbyte (by norm_num)
    exact absurd hover (by decide)
  | inside hprefix =>
    obtain ⟨-, -, hkind⟩ := eq_of_announces hprefix hbyte (by norm_num)
    cases hkind
  | later hprefix _ _ hrest =>
    obtain ⟨rfl, rfl, -⟩ := eq_of_announces hprefix hbyte (by norm_num)
    exact not_overreads_zero hrest

/-- A list with a list in it and a string after that, and a byte that does not belong to it. -/
def nestedTrailing : Slice := ⟨[0xc3, 0xc1, 0x61, 0x62, 0x00], 5, by decide, by norm_num⟩

theorem nestedTrailing_within (array : Bytes) (n : Nat)
    (h : Reaches nestedTrailing.array nestedTrailing.len array n) : ¬ Overreads array n := by
  have houter : decodeLength (nestedTrailing.array.take 5) = .ok ⟨1, ((3 : Nat) : Int), .list⟩ := rfl
  have hinner : decodeLength ((nestedTrailing.array.drop 1).take 3) =
      .ok ⟨1, ((1 : Nat) : Int), .list⟩ := rfl
  cases h with
  | first =>
    rintro ⟨offset, length, kind, hprefix, hover⟩
    obtain ⟨rfl, rfl, -⟩ := eq_of_announces hprefix houter (by norm_num)
    exact absurd hover (by decide)
  | inside hprefix _ hvisits =>
    obtain ⟨rfl, rfl, -⟩ := eq_of_announces hprefix houter (by norm_num)
    cases hvisits with
    | here =>
      rintro ⟨offset, length, kind, hprefix, hover⟩
      obtain ⟨rfl, rfl, -⟩ := eq_of_announces hprefix hinner (by norm_num)
      exact absurd hover (by decide)
    | inside hprefix _ hvisits =>
      obtain ⟨rfl, rfl, -⟩ := eq_of_announces hprefix hinner (by norm_num)
      exact not_overreads_byte (by decide) hvisits
    | later hprefix _ _ hvisits =>
      obtain ⟨rfl, rfl, -⟩ := eq_of_announces hprefix hinner (by norm_num)
      exact not_overreads_byte (by decide) hvisits

theorem begins_nestedTrailing : Begins Announces nestedTrailing.bytes
    (.list [.list [.str [0x61]], .str [0x62]]) [0x00] := by
  have hinner : Holds Announces [0x61] [.str [0x61]] :=
    @Holds.str Announces [0x61] 0 1 [] (.byte (by decide)) (by decide) .nil
  have hlast : Holds Announces [0x62] [.str [0x62]] :=
    @Holds.str Announces [0x62] 0 1 [] (.byte (by decide)) (by decide) .nil
  have hnested : Holds Announces [0xc1, 0x61, 0x62] [.list [.str [0x61]], .str [0x62]] :=
    @Holds.list Announces [0xc1, 0x61, 0x62] 1 1 _ _
      (@Announces.short .list 1 [0x61, 0x62] (by decide)) (by decide) hinner hlast
  exact @Begins.list Announces [0xc3, 0xc1, 0x61, 0x62, 0x00] 1 3 _
    (@Announces.short .list 3 [0xc1, 0x61, 0x62, 0x00] (by decide)) (by decide) hnested

theorem rlpDecode_accepts_nestedTrailing :
    rlpDecode nestedTrailing = .ok (.list [.list [.str [0x61]], .str [0x62]]) ∧
      ∃ b, rlpEncode (toInput (.list [.list [.str [0x61]], .str [0x62]])) = .ok b ∧
        (b = nestedTrailing.bytes ↔
          Begins Shortest nestedTrailing.bytes (.list [.list [.str [0x61]], .str [0x62]]) []) := by
  obtain ⟨haccepts, hencode, -⟩ := rlpDecode_accepts nestedTrailing
    (.list [.list [.str [0x61]], .str [0x62]]) nestedTrailing_within
  have hdecode := haccepts.mpr ⟨[0x00], begins_nestedTrailing⟩
  exact ⟨hdecode, hencode hdecode⟩

/-- A byte, and another one that does not belong to it. -/
def trailing : Slice := ⟨[0x05, 0x00], 2, by decide, by norm_num⟩

theorem begins_trailing : Begins Announces trailing.bytes (.str [0x05]) [0x00] :=
  @Begins.str Announces [0x05, 0x00] 0 1 (.byte (by decide)) (by decide)

/-- The byte alone has the same value, and only it is the encoding of it. -/
theorem rlpDecode_not_injective :
    rlpDecode trailing = .ok (.str [0x05]) ∧ rlpEncode (toInput (.str [0x05])) = .ok [0x05] ∧
      [0x05] ≠ trailing.bytes ∧
      ∃ alone : Slice, alone.bytes = [0x05] ∧ rlpDecode alone = .ok (.str [0x05]) := by
  refine ⟨rlpDecode_of_begins begins_trailing, rfl, by decide, ?_⟩
  let alone : Slice := ⟨[0x05], 1, by decide, by norm_num⟩
  refine ⟨alone, rfl, ?_⟩
  have hbegins : Begins Announces alone.bytes (.str [0x05]) [] :=
    @Begins.str Announces [0x05] 0 1 (.byte (by decide)) (by decide)
  exact rlpDecode_of_begins hbegins

end Signare
