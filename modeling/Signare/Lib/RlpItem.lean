import Signare.Lib.BigEndian

/-!
# Recursive length prefix items

The reference encoding of byte strings and nested lists of them, a decoder, and the round trip.
Injectivity of the encoder follows from the round trip.
-/

namespace ByteCodec

/-- An RLP item: a byte string or a list of items. -/
inductive RlpItem
  | str (bs : Bytes)
  | list (items : List RlpItem)

namespace RlpItem

/-- The minimal big-endian byte string of a natural, as an item. -/
def num (n : Nat) : RlpItem := .str (beBytes n)

/-- Length prefix: one byte up to 55, else the count of the length's own bytes and these. -/
def header (offset length : Nat) : Bytes :=
  if length < 56 then [UInt8.ofNat (offset + length)]
  else UInt8.ofNat (offset + 55 + (beBytes length).length) :: beBytes length

def encodeStr : Bytes → Bytes
  | [b] => if b < 0x80 then [b] else header 0x80 1 ++ [b]
  | bs => header 0x80 bs.length ++ bs

mutual
/-- The reference encoding. -/
def encode : RlpItem → Bytes
  | .str bs => encodeStr bs
  | .list items => header 0xc0 (encodeItems items).length ++ encodeItems items

def encodeItems : List RlpItem → Bytes
  | [] => []
  | x :: xs => encode x ++ encodeItems xs
end

inductive Kind
  | str
  | list

def Kind.offset : Kind → Nat
  | .str => 0x80
  | .list => 0xc0

/-- What the first bytes of an item announce. -/
inductive Announced
  | byte (b : UInt8)
  | payload (kind : Kind) (length : Nat)

def readLength (count : Nat) (bs : Bytes) : Option (Nat × Bytes) :=
  if count ≤ bs.length then some (beNat (bs.take count), bs.drop count) else none

def readHeader : Bytes → Option (Announced × Bytes)
  | [] => none
  | b :: rest =>
    let p := b.toNat
    if p < 0x80 then some (.byte b, rest)
    else if p < 0xb8 then some (.payload .str (p - 0x80), rest)
    else if p < 0xc0 then
      (readLength (p - 0xb7) rest).map fun (length, rest) => (.payload .str length, rest)
    else if p < 0xf8 then some (.payload .list (p - 0xc0), rest)
    else (readLength (p - 0xf7) rest).map fun (length, rest) => (.payload .list length, rest)

mutual
/-- Read one item off the front; the fuel bounds the depth and the number of items together. -/
def readItem : Nat → Bytes → Option (RlpItem × Bytes)
  | 0, _ => none
  | n + 1, bs =>
    match readHeader bs with
    | none => none
    | some (.byte b, rest) => some (.str [b], rest)
    | some (.payload kind length, rest) =>
      if length ≤ rest.length then
        match kind with
        | .str => some (.str (rest.take length), rest.drop length)
        | .list => (readItems n (rest.take length)).map fun items => (.list items, rest.drop length)
      else none

def readItems : Nat → Bytes → Option (List RlpItem)
  | 0, _ => none
  | _ + 1, [] => some []
  | n + 1, b :: bs =>
    match readItem n (b :: bs) with
    | none => none
    | some (x, rest) => (readItems n rest).map (x :: ·)
end

/-- Decode a byte string that holds exactly one item. -/
def decode (bs : Bytes) : Option RlpItem :=
  match readItem (2 * bs.length) bs with
  | some (x, []) => some x
  | _ => none

theorem length_header_pos (offset length : Nat) : 0 < (header offset length).length := by
  unfold header
  split <;> simp

theorem length_header_le (offset : Nat) {length : Nat} (h : length < 256 ^ 8) :
    (header offset length).length ≤ 9 := by
  have hle : (beBytes length).length ≤ 8 := length_beBytes_le_iff.mpr h
  unfold header
  split
  · simp
  · rw [List.length_cons]
    omega

theorem encodeStr_of_ne {bs : Bytes} (h : ∀ b : UInt8, bs = [b] → ¬ b < 0x80) :
    encodeStr bs = header 0x80 bs.length ++ bs := by
  unfold encodeStr
  split
  · next b => rw [if_neg (h b rfl)]; rfl
  · rfl

theorem encode_ne_nil (x : RlpItem) : encode x ≠ [] := by
  cases x with
  | str bs =>
    rw [encode]
    by_cases h : ∃ b : UInt8, bs = [b] ∧ b < 0x80
    · obtain ⟨b, rfl, hb⟩ := h
      simp [encodeStr, hb]
    · rw [encodeStr_of_ne fun b hb hlt => h ⟨b, hb, hlt⟩]
      have := length_header_pos 0x80 bs.length
      intro hnil
      simp [(List.append_eq_nil_iff.mp hnil).1] at this
  | list items =>
    rw [encode]
    have := length_header_pos 0xc0 (encodeItems items).length
    intro hnil
    simp [(List.append_eq_nil_iff.mp hnil).1] at this

theorem readLength_beBytes (length : Nat) (rest : Bytes) :
    readLength (beBytes length).length (beBytes length ++ rest) = some (length, rest) := by
  simp [readLength]

theorem readHeader_header (kind : Kind) {length : Nat} (h : length < 256 ^ 8) (rest : Bytes) :
    readHeader (header kind.offset length ++ rest) = some (.payload kind length, rest) := by
  unfold header
  split
  · next hs =>
    cases kind with
    | str =>
      have hp : (UInt8.ofNat (0x80 + length)).toNat = 0x80 + length := by
        rw [UInt8.toNat_ofNat']; omega
      simp only [Kind.offset, List.cons_append, List.nil_append, readHeader, hp]
      rw [if_neg (by omega), if_pos (by omega), Nat.add_sub_cancel_left]
    | list =>
      have hp : (UInt8.ofNat (0xc0 + length)).toNat = 0xc0 + length := by
        rw [UInt8.toNat_ofNat']; omega
      simp only [Kind.offset, List.cons_append, List.nil_append, readHeader, hp]
      rw [if_neg (by omega), if_neg (by omega), if_neg (by omega), if_pos (by omega),
        Nat.add_sub_cancel_left]
  · next hs =>
    have hle : (beBytes length).length ≤ 8 := length_beBytes_le_iff.mpr h
    have hpos : (beBytes length).length ≠ 0 := by
      rw [Ne, List.length_eq_zero_iff, beBytes_eq_nil]
      omega
    have hread := readLength_beBytes length rest
    generalize (beBytes length).length = k at *
    cases kind with
    | str =>
      have hp : (UInt8.ofNat (0x80 + 55 + k)).toNat = 0xb7 + k := by
        rw [UInt8.toNat_ofNat']; omega
      simp only [Kind.offset, List.cons_append, readHeader, hp]
      rw [if_neg (by omega), if_neg (by omega), if_pos (by omega), Nat.add_sub_cancel_left, hread]
      rfl
    | list =>
      have hp : (UInt8.ofNat (0xc0 + 55 + k)).toNat = 0xf7 + k := by
        rw [UInt8.toNat_ofNat']; omega
      simp only [Kind.offset, List.cons_append, readHeader, hp]
      rw [if_neg (by omega), if_neg (by omega), if_neg (by omega), if_neg (by omega),
        Nat.add_sub_cancel_left, hread]
      rfl

private theorem readItem_encodeStr (bs rest : Bytes) {n : Nat} (hn : n ≠ 0)
    (hl : (encodeStr bs).length < 256 ^ 8) :
    readItem n (encodeStr bs ++ rest) = some (.str bs, rest) := by
  obtain ⟨n, rfl⟩ := Nat.exists_eq_succ_of_ne_zero hn
  by_cases h : ∃ b : UInt8, bs = [b] ∧ b < 0x80
  · obtain ⟨b, rfl, hb⟩ := h
    have hb' : b.toNat < 128 := UInt8.lt_iff_toNat_lt.mp hb
    simp [encodeStr, hb, readItem, readHeader, hb']
  · have he := @encodeStr_of_ne bs fun b hb hlt => h ⟨b, hb, hlt⟩
    rw [he] at hl ⊢
    rw [List.length_append] at hl
    have hread := @readHeader_header .str bs.length (by omega) (bs ++ rest)
    simp only [Kind.offset] at hread
    simp [readItem, hread]

mutual
theorem readItem_encode : ∀ (x : RlpItem) (rest : Bytes) (n : Nat),
    (encode x).length < 256 ^ 8 → 2 * (encode x).length ≤ n →
      readItem n (encode x ++ rest) = some (x, rest)
  | .str bs, rest, n, hl, hn => by
    have hpos : 0 < (encode (.str bs)).length := List.length_pos_iff.mpr (encode_ne_nil _)
    rw [encode] at *
    exact readItem_encodeStr bs rest (by omega) hl
  | .list items, rest, n, hl, hn => by
    have hpos := length_header_pos 0xc0 (encodeItems items).length
    rw [encode, List.length_append] at *
    obtain ⟨n, rfl⟩ := Nat.exists_eq_succ_of_ne_zero (n := n) (by omega)
    have hread := @readHeader_header .list (encodeItems items).length (by omega)
      (encodeItems items ++ rest)
    have hitems := readItems_encodeItems items n (by omega) (by omega)
    simp only [Kind.offset] at hread
    simp [readItem, hread, hitems]

theorem readItems_encodeItems : ∀ (xs : List RlpItem) (n : Nat),
    (encodeItems xs).length < 256 ^ 8 → 2 * (encodeItems xs).length + 1 ≤ n →
      readItems n (encodeItems xs) = some xs
  | [], n, _, hn => by
    obtain ⟨n, rfl⟩ := Nat.exists_eq_succ_of_ne_zero (n := n) (by omega)
    rfl
  | x :: xs, n, hl, hn => by
    have hpos : 0 < (encode x).length := List.length_pos_iff.mpr (encode_ne_nil x)
    rw [encodeItems, List.length_append] at *
    obtain ⟨n, rfl⟩ := Nat.exists_eq_succ_of_ne_zero (n := n) (by omega)
    obtain ⟨b, bs, hcons⟩ := List.exists_cons_of_ne_nil (encode_ne_nil x)
    have hx := readItem_encode x (encodeItems xs) n (by omega) (by omega)
    have hxs := readItems_encodeItems xs n (by omega) (by omega)
    rw [hcons] at hx ⊢
    simp only [List.cons_append] at hx ⊢
    simp [readItems, hx, hxs]
end

/-- The round trip, for every item whose encoding is shorter than `2^64` bytes. -/
theorem decode_encode {x : RlpItem} (h : (encode x).length < 256 ^ 8) :
    decode (encode x) = some x := by
  have hread := readItem_encode x [] _ h le_rfl
  rw [List.append_nil] at hread
  rw [decode, hread]

theorem encode_injOn : Set.InjOn encode {x | (encode x).length < 256 ^ 8} := by
  intro x hx y hy h
  have hdec : some x = some y := by
    rw [← decode_encode hx, h, decode_encode hy]
  exact Option.some.inj hdec

theorem head?_encode_list (items : List RlpItem)
    (h : (encodeItems items).length < 256 ^ 8) :
    ∃ b : UInt8, (encode (.list items)).head? = some b ∧ 0xc0 ≤ b := by
  rw [encode, header]
  split
  · next hs =>
    refine ⟨_, rfl, ?_⟩
    rw [UInt8.le_iff_toNat_le, UInt8.toNat_ofNat']
    have : (0xc0 + (encodeItems items).length) % 2 ^ 8 = 0xc0 + (encodeItems items).length := by
      omega
    rw [this]
    exact Nat.le_add_right _ _
  · have hle : (beBytes (encodeItems items).length).length ≤ 8 := length_beBytes_le_iff.mpr h
    refine ⟨_, rfl, ?_⟩
    generalize (beBytes (encodeItems items).length).length = k at *
    rw [UInt8.le_iff_toNat_le, UInt8.toNat_ofNat']
    have : (0xc0 + 55 + k) % 2 ^ 8 = 0xc0 + (55 + k) := by omega
    rw [this]
    exact Nat.le_add_right _ _

end RlpItem

end ByteCodec
