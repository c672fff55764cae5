import Signare.Lib.RlpItem

/-!
# Byte strings that hold items

A prefix announces a payload. The same length has several prefixes, of which one is the shortest.
The items a byte string holds are read off its prefixes, and it is the encoding of these items if
and only if every prefix is the shortest.
-/

namespace ByteCodec

namespace RlpItem

/-- The prefix at the front of `bs` announces a payload of `length` bytes that begins at `offset`.
A length field may have leading zeros, and something follows it. -/
inductive Announces : Bytes → Nat → Nat → Kind → Prop
  | byte {b : UInt8} {rest : Bytes} (hb : b < 0x80) : Announces (b :: rest) 0 1 .str
  | short {kind : Kind} {length : Nat} {rest : Bytes} (hlength : length < 56) :
      Announces (UInt8.ofNat (kind.offset + length) :: rest) 1 length kind
  | long {kind : Kind} {field rest : Bytes} (hpos : field ≠ []) (hfield : field.length ≤ 8)
      (hrest : rest ≠ []) :
      Announces (UInt8.ofNat (kind.offset + 55 + field.length) :: (field ++ rest))
        (1 + field.length) (beNat field) kind

/-- No other prefix announces the payload in fewer bytes, and a payload that is its own encoding
has none. -/
structure Shortest (bs : Bytes) (offset length : Nat) (kind : Kind) : Prop where
  announces : Announces bs offset length kind
  noShorter : 1 < offset → 56 ≤ length ∧ (bs.drop 1).head? ≠ some 0
  unwrapped : offset = 1 → kind = .str → length = 1 → ∀ b ∈ (bs.drop 1).head?, ¬ b < 0x80

/-- `bs` is a sequence of items, one after the other, with prefixes that satisfy `Prefix`. -/
inductive Holds (Prefix : Bytes → Nat → Nat → Kind → Prop) : Bytes → List RlpItem → Prop
  | nil : Holds Prefix [] []
  | str {bs : Bytes} {offset length : Nat} {items : List RlpItem}
      (hheader : Prefix bs offset length .str) (hfit : offset + length ≤ bs.length)
      (hrest : Holds Prefix (bs.drop (offset + length)) items) :
      Holds Prefix bs (.str ((bs.drop offset).take length) :: items)
  | list {bs : Bytes} {offset length : Nat} {nested items : List RlpItem}
      (hheader : Prefix bs offset length .list) (hfit : offset + length ≤ bs.length)
      (hnested : Holds Prefix ((bs.drop offset).take length) nested)
      (hrest : Holds Prefix (bs.drop (offset + length)) items) :
      Holds Prefix bs (.list nested :: items)

/-- `bs` begins with an item, and `rest` follows it. -/
inductive Begins (Prefix : Bytes → Nat → Nat → Kind → Prop) : Bytes → RlpItem → Bytes → Prop
  | str {bs : Bytes} {offset length : Nat} (hheader : Prefix bs offset length .str)
      (hfit : offset + length ≤ bs.length) :
      Begins Prefix bs (.str ((bs.drop offset).take length)) (bs.drop (offset + length))
  | list {bs : Bytes} {offset length : Nat} {nested : List RlpItem}
      (hheader : Prefix bs offset length .list) (hfit : offset + length ≤ bs.length)
      (hnested : Holds Prefix ((bs.drop offset).take length) nested) :
      Begins Prefix bs (.list nested) (bs.drop (offset + length))

variable {Prefix : Bytes → Nat → Nat → Kind → Prop} {bs rest : Bytes} {offset length : Nat}
  {kind : Kind} {x : RlpItem} {items : List RlpItem}

theorem Holds.cons (h : Begins Prefix bs x rest) (hrest : Holds Prefix rest items) :
    Holds Prefix bs (x :: items) := by
  cases h with
  | str hheader hfit => exact .str hheader hfit hrest
  | list hheader hfit hnested => exact .list hheader hfit hnested hrest

theorem Holds.mono {Prefix' : Bytes → Nat → Nat → Kind → Prop}
    (himp : ∀ {bs offset length kind}, Prefix bs offset length kind →
      Prefix' bs offset length kind) (h : Holds Prefix bs items) : Holds Prefix' bs items := by
  induction h with
  | nil => exact .nil
  | str hheader hfit _ ih => exact .str (himp hheader) hfit ih
  | list hheader hfit _ _ ihnested ih => exact .list (himp hheader) hfit ihnested ih

theorem Begins.mono {Prefix' : Bytes → Nat → Nat → Kind → Prop}
    (himp : ∀ {bs offset length kind}, Prefix bs offset length kind →
      Prefix' bs offset length kind) (h : Begins Prefix bs x rest) : Begins Prefix' bs x rest := by
  cases h with
  | str hheader hfit => exact .str (himp hheader) hfit
  | list hheader hfit hnested => exact .list (himp hheader) hfit (hnested.mono himp)

theorem Announces.ne_nil (h : Announces bs offset length kind) : bs ≠ [] := by
  cases h <;> simp

theorem Announces.offset_le (h : Announces bs offset length kind) : offset ≤ bs.length := by
  cases h with
  | byte hb => simp
  | short hlength => simp
  | long hpos hfield hrest =>
    rw [List.length_cons, List.length_append]
    omega

/-- A payload has a prefix, or it is one byte. -/
theorem Announces.advances (h : Announces bs offset length kind) : 0 < offset + length := by
  cases h with
  | byte hb => omega
  | short hlength => omega
  | long hpos hfield hrest => omega

theorem Announces.length_lt (h : Announces bs offset length kind) : length < 256 ^ 8 := by
  cases h with
  | byte hb => norm_num
  | short hlength => omega
  | @long _ field _ hpos hfield hrest =>
    exact (beNat_lt field).trans_le (Nat.pow_le_pow_right (by norm_num) hfield)

theorem Announces.list_offset_pos (h : Announces bs offset length .list) : 0 < offset := by
  cases h with
  | short hlength => omega
  | long hpos hfield hrest => omega

theorem Announces.eq_byte (h : Announces bs offset length kind) (hzero : offset = 0) :
    ∃ b tail, bs = b :: tail ∧ b < 0x80 ∧ length = 1 ∧ kind = .str := by
  cases h with
  | byte hb => exact ⟨_, _, rfl, hb, rfl, rfl⟩
  | short hlength => omega
  | long hpos hfield hrest => omega

/-- A prefix that announces no more than `length` bytes and is as short as can be. -/
theorem Announces.length_header_le (h : Announces bs offset length kind) (hpos : 0 < offset)
    {length' : Nat} (hle : length' ≤ length) :
    (header kind.offset length').length ≤ offset := by
  unfold header
  cases h with
  | byte hb => omega
  | short hlength =>
    rw [if_pos (by omega)]
    exact le_rfl
  | @long _ field _ hne hfield hrest =>
    have hbytes : (beBytes length').length ≤ field.length :=
      length_beBytes_le_iff.mpr (hle.trans_lt (beNat_lt field))
    split
    · rw [List.length_singleton]
      omega
    · rw [List.length_cons]
      omega

theorem announces_header (hlength : length < 256 ^ 8) (hrest : 56 ≤ length → rest ≠ []) :
    Announces (header kind.offset length ++ rest) (header kind.offset length).length length
      kind := by
  unfold header
  split
  · next hshort => exact .short hshort
  · next hlong =>
    have hne : beBytes length ≠ [] := by
      rw [Ne, beBytes_eq_nil]
      omega
    have h := @Announces.long kind (beBytes length) rest hne (length_beBytes_le_iff.mpr hlength)
      (hrest (by omega))
    rw [beNat_beBytes, Nat.add_comm 1] at h
    exact h

theorem shortest_header (hlength : length < 256 ^ 8) (hrest : 56 ≤ length → rest ≠ [])
    (hstr : kind = .str → length = 1 → ∀ b ∈ rest.head?, ¬ b < 0x80) :
    Shortest (header kind.offset length ++ rest) (header kind.offset length).length length
      kind where
  announces := announces_header hlength hrest
  noShorter h := by
    unfold header at h ⊢
    by_cases hshort : length < 56
    · rw [if_pos hshort, List.length_singleton] at h
      omega
    · have hhead : (beBytes length).head? ≠ some 0 := head?_beBytes length
      have hne : beBytes length ≠ [] := by
        rw [Ne, beBytes_eq_nil]
        omega
      refine ⟨by omega, ?_⟩
      rw [if_neg hshort, List.cons_append, List.drop_one, List.tail_cons,
        List.head?_append_of_ne_nil _ hne]
      exact hhead
  unwrapped hoffset hkind hone := by
    subst hone
    intro b hb
    exact hstr hkind rfl b hb

theorem Shortest.take_eq (h : Shortest bs offset length kind) (hpos : 0 < offset) :
    bs.take offset = header kind.offset length := by
  have hannounces := h.announces
  have hno := h.noShorter
  cases hannounces with
  | byte hb => omega
  | short hlength =>
    rw [header, if_pos hlength]
    rfl
  | @long _ field rest hne hfield hrest =>
    have hfieldPos : 0 < field.length := List.length_pos_iff.mpr hne
    obtain ⟨hlong, hhead⟩ := hno (by omega)
    rw [List.drop_one, List.tail_cons, List.head?_append_of_ne_nil _ hne] at hhead
    rw [header, if_neg (by omega), beBytes_beNat hhead, Nat.add_comm 1, List.take_succ_cons,
      List.take_left]

theorem Shortest.take_str (h : Shortest bs offset length .str) (hfit : offset + length ≤ bs.length) :
    bs.take (offset + length) = encodeStr ((bs.drop offset).take length) := by
  rw [List.take_add]
  have hlen : ((bs.drop offset).take length).length = length := by
    rw [List.length_take, List.length_drop]
    omega
  by_cases hpos : 0 < offset
  · rw [h.take_eq hpos, encodeStr_of_ne, hlen]
    · rfl
    · intro b hb hlt
      rw [hb, List.length_singleton] at hlen
      subst hlen
      have hoffset : offset = 1 := by
        have hno := h.noShorter
        omega
      subst hoffset
      refine h.unwrapped rfl rfl rfl b ?_ hlt
      have hhead : ((bs.drop 1).take 1).head? = some b := by rw [hb]; rfl
      rw [List.head?_take] at hhead
      exact hhead
  · have hzero : offset = 0 := by omega
    obtain ⟨b, tail, rfl, hb, rfl, -⟩ := h.announces.eq_byte hzero
    subst hzero
    show [] ++ [b] = encodeStr [b]
    rw [encodeStr, if_pos hb]
    rfl

theorem Holds.eq_encodeItems (h : Holds Shortest bs items) : bs = encodeItems items := by
  induction h with
  | nil => rfl
  | @str bs offset length items hheader hfit _ ih =>
    rw [encodeItems, encode, ← hheader.take_str hfit, ← ih, List.take_append_drop]
  | @list bs offset length nested items hheader hfit _ _ ihnested ih =>
    have hlen : ((bs.drop offset).take length).length = length := by
      rw [List.length_take, List.length_drop]
      omega
    rw [encodeItems, encode, ← ihnested, hlen, ← ih]
    have htake := hheader.take_eq hheader.announces.list_offset_pos
    simp only [Kind.offset] at htake
    rw [← htake, ← List.take_add, List.take_append_drop]

theorem Begins.eq_encode (h : Begins Shortest bs x rest) : bs = encode x ++ rest := by
  cases h with
  | str hheader hfit => rw [encode, ← hheader.take_str hfit, List.take_append_drop]
  | @list offset length nested hheader hfit hnested =>
    have hlen : ((bs.drop offset).take length).length = length := by
      rw [List.length_take, List.length_drop]
      omega
    rw [encode, ← hnested.eq_encodeItems, hlen]
    have htake := hheader.take_eq hheader.announces.list_offset_pos
    simp only [Kind.offset] at htake
    rw [← htake, ← List.take_add, List.take_append_drop]

theorem begins_encodeStr (payload rest : Bytes) (h : (encodeStr payload).length < 256 ^ 8) :
    Begins Shortest (encodeStr payload ++ rest) (.str payload) rest := by
  by_cases hbyte : ∃ b : UInt8, payload = [b] ∧ b < 0x80
  · obtain ⟨b, rfl, hb⟩ := hbyte
    rw [encodeStr, if_pos hb]
    exact @Begins.str _ (b :: rest) 0 1
      ⟨.byte hb, fun h => absurd h (by omega), fun h => absurd h (by omega)⟩ (by simp)
  · have hne (b : UInt8) (hb : payload = [b]) : ¬ b < 0x80 := fun hlt => hbyte ⟨b, hb, hlt⟩
    rw [encodeStr_of_ne hne] at h ⊢
    rw [List.length_append] at h
    have hshortest : Shortest (header (Kind.str).offset payload.length ++ (payload ++ rest))
        (header (Kind.str).offset payload.length).length payload.length .str := by
      apply shortest_header (by omega)
      · intro hlong hnil
        rw [(List.append_eq_nil_iff.mp hnil).1, List.length_nil] at hlong
        omega
      · intro _ hone b hb
        obtain ⟨c, rfl⟩ := List.length_eq_one_iff.mp hone
        have hcb : c = b := Option.some.inj hb
        exact hcb ▸ hne c rfl
    have hbegins := Begins.str hshortest (by simp only [List.length_append]; omega)
    rw [List.drop_left, List.take_left, ← List.drop_drop, List.drop_left, List.drop_left,
      ← List.append_assoc] at hbegins
    exact hbegins

mutual
/-- What is encoded can be read, with the shortest prefixes. -/
theorem begins_encode : ∀ (x : RlpItem) (rest : Bytes), (encode x).length < 256 ^ 8 →
    Begins Shortest (encode x ++ rest) x rest
  | .str payload, rest, h => by
    rw [encode] at *
    exact begins_encodeStr payload rest h
  | .list items, rest, h => by
    rw [encode, List.length_append] at *
    have hshortest : Shortest (header (Kind.list).offset (encodeItems items).length ++
        (encodeItems items ++ rest)) (header (Kind.list).offset (encodeItems items).length).length
        (encodeItems items).length .list := by
      apply shortest_header (by omega)
      · intro hlong hnil
        rw [(List.append_eq_nil_iff.mp hnil).1, List.length_nil] at hlong
        omega
      · intro hkind
        cases hkind
    have hitems := holds_encodeItems items (by omega)
    rw [← @List.take_left _ (encodeItems items) rest,
      ← @List.drop_left _ (header (Kind.list).offset (encodeItems items).length)
        (encodeItems items ++ rest)] at hitems
    have hbegins := Begins.list hshortest (by simp only [List.length_append]; omega) hitems
    rw [← List.drop_drop, List.drop_left, List.drop_left, ← List.append_assoc] at hbegins
    exact hbegins

theorem holds_encodeItems : ∀ items : List RlpItem, (encodeItems items).length < 256 ^ 8 →
    Holds Shortest (encodeItems items) items
  | [], _ => .nil
  | x :: items, h => by
    rw [encodeItems, List.length_append] at *
    exact .cons (begins_encode x (encodeItems items) (by omega))
      (holds_encodeItems items (by omega))
end

theorem Announces.length_encodeStr_le (h : Announces bs offset length .str)
    (hfit : offset + length ≤ bs.length) :
    (encodeStr ((bs.drop offset).take length)).length ≤ offset + length := by
  have hlen : ((bs.drop offset).take length).length = length := by
    rw [List.length_take, List.length_drop]
    omega
  by_cases hbyte : ∃ b : UInt8, (bs.drop offset).take length = [b] ∧ b < 0x80
  · obtain ⟨b, hb, hlt⟩ := hbyte
    rw [hb, encodeStr, if_pos hlt, List.length_singleton]
    have := h.advances
    omega
  · rw [encodeStr_of_ne fun b hb hlt => hbyte ⟨b, hb, hlt⟩, hlen, List.length_append, hlen]
    by_cases hpos : 0 < offset
    · have := h.length_header_le hpos le_rfl
      simp only [Kind.offset] at this
      omega
    · have hzero : offset = 0 := by omega
      obtain ⟨b, tail, rfl, hb, rfl, -⟩ := h.eq_byte hzero
      subst hzero
      exact absurd ⟨b, rfl, hb⟩ hbyte

theorem Holds.length_encodeItems_le (h : Holds Announces bs items) :
    (encodeItems items).length ≤ bs.length := by
  induction h with
  | nil => exact le_rfl
  | @str bs offset length items hheader hfit _ ih =>
    have hstr := hheader.length_encodeStr_le hfit
    rw [encodeItems, encode, List.length_append]
    rw [List.length_drop] at ih
    omega
  | @list bs offset length nested items hheader hfit _ _ ihnested ih =>
    rw [List.length_take, List.length_drop] at ihnested
    rw [List.length_drop] at ih
    have hle : (encodeItems nested).length ≤ length := by omega
    have hheader := hheader.length_header_le hheader.list_offset_pos hle
    simp only [Kind.offset] at hheader
    rw [encodeItems, encode, List.length_append, List.length_append]
    omega

theorem Begins.length_encode_le (h : Begins Announces bs x rest) :
    (encode x).length + rest.length ≤ bs.length := by
  cases h with
  | str hheader hfit =>
    have hstr := hheader.length_encodeStr_le hfit
    rw [encode, List.length_drop]
    omega
  | @list offset length nested hheader hfit hnested =>
    have hnestedLe := hnested.length_encodeItems_le
    rw [List.length_take, List.length_drop] at hnestedLe
    have hle : (encodeItems nested).length ≤ length := by omega
    have hheader := hheader.length_header_le hheader.list_offset_pos hle
    simp only [Kind.offset] at hheader
    rw [encode, List.length_append, List.length_drop]
    omega

end RlpItem

end ByteCodec
