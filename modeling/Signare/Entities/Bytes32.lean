import Signare.Entities.HexNumber

/-!
# Keys of 32 bytes

The length of a key is looked at nowhere: the digits are decoded and copied into an array of 32
bytes, or decoded straight into it. Both decoders are exact on texts of no digits, of an odd number
of them, and of exactly 64.
-/

namespace Signare

open ByteCodec

/-- The text behind the prefix. A text without one is refused where it is wanted. -/
def checkText (input : String) (wantPrefix : Bool) : Except SignareError (List Char) :=
  if input.toList = [] then .ok []
  else if ¬ checkPrefixFromString input.toList ∧ wantPrefix then
    .error errorHexEncodingMissingPrefix
  else
    let raw := if checkPrefixFromString input.toList then input.toList.drop 2 else input.toList
    if byteLength raw % 2 ≠ 0 then .error errorHexEncodingOddLength else .ok raw

/-- `hex.Decode` into an array that has room for `room` bytes: nothing if it runs over the end of
the array. -/
def hexDecodeInto : List Char → (room : Nat) → Option (Except HexError Bytes)
  | [], _ => some (.ok [])
  | [c], _ => some (if (hexValue c).isSome then .error .oddLength else .error .invalidByte)
  | c :: d :: cs, room =>
    match hexValue c, hexValue d with
    | some a, some b =>
      if room = 0 then none
      else
        (hexDecodeInto cs (room - 1)).map fun decoded => decoded.map (UInt8.ofNat (16 * a + b) :: ·)
    | _, _ => some (.error .invalidByte)

/-- `HexBytes32.UnmarshalText`: nothing if it panics. -/
def HexBytes32.unmarshalText (input : String) : Option (Except SignareError HexBytes32) :=
  match checkText input true with
  | .error err => some (.error err)
  | .ok raw => (hexDecodeInto raw 32).map fun decoded =>
      (decoded.mapError fun err => errorHexEncoding (.hex err)).map HexBytes32.fromBytes

/-- A prefix and exactly 64 digits, and the bytes they denote. -/
def KeyText (input : String) (key : HexBytes32) : Prop :=
  ∃ digits, Prefixed input digits ∧ digits.length = 64 ∧ hexDecode digits = .ok key.bytes

/-- The constructor takes exactly the keys. -/
def TakesKeys (input : String) : Prop :=
  ∀ key, newHexBytes32FromString input = .ok key ↔ KeyText input key

/-- The unmarshaller does not panic and takes exactly the keys. -/
def UnmarshalsKeys (input : String) : Prop :=
  (HexBytes32.unmarshalText input).isSome ∧
    ∀ key, HexBytes32.unmarshalText input = some (.ok key) ↔ KeyText input key

def AreDigits (cs : List Char) : Prop := ∀ c ∈ cs, (hexValue c).isSome

/-- Digits that are decoded to another number of bytes than 32. -/
def Misfit (input : String) : Prop :=
  ∃ digits, Prefixed input digits ∧ AreDigits digits ∧ digits.length % 2 = 0 ∧ digits.length ≠ 64

/-- The text is empty, its digits are fewer than 64, or there is more behind 64 digits and two. -/
def UnmarshalMisfit (input : String) : Prop :=
  input = "" ∨ ∃ digits, Prefixed input digits ∧ byteLength digits % 2 = 0 ∧
    (AreDigits digits ∧ digits.length < 64 ∨ 66 ≤ digits.length ∧ AreDigits (digits.take 66))

/-- Digits do not begin with a prefix. -/
theorem AreDigits.checkPrefix {digits : List Char} (h : AreDigits digits) :
    checkPrefixFromString digits = false := by
  have hnot (c : Char) (hc : hexValue c = none) : c ∉ digits := by
    intro hmem
    have hsome := h c hmem
    rw [hc] at hsome
    cases hsome
  unfold checkPrefixFromString
  split
  · exact absurd (by simp) (hnot 'x' rfl)
  · exact absurd (by simp) (hnot 'X' rfl)
  · rfl

theorem Prefixed.unique {input : String} {digits digits' : List Char} (h : Prefixed input digits)
    (h' : Prefixed input digits') : digits = digits' := by
  rw [← h.drop_eq, h'.drop_eq]

theorem fromBytes_of_length {src : Bytes} (h : src.length = 32) :
    (HexBytes32.fromBytes src).bytes = src := by
  simp [HexBytes32.fromBytes, rightPad, h, List.take_of_length_le]

theorem fromBytes_bytes (key : HexBytes32) : HexBytes32.fromBytes key.bytes = key := by
  have hbytes := fromBytes_of_length key.length_bytes
  cases key with
  | mk bytes length_bytes => exact HexBytes32.mk.injEq .. ▸ hbytes

theorem newHexBytes32FromString_eq_ok {input : String} {key : HexBytes32} :
    newHexBytes32FromString input = .ok key ↔
      ∃ digits bs, Prefixed input digits ∧ hexDecode digits = .ok bs ∧
        key = HexBytes32.fromBytes bs := by
  unfold newHexBytes32FromString
  constructor
  · intro h
    split_ifs at h with hempty hpre
    split at h
    · cases h
    · next bs hbs =>
      cases h
      exact ⟨_, bs, checkPrefixFromString_iff.mp hpre, hbs, rfl⟩
  · intro h
    obtain ⟨digits, bs, hpre, hbs, rfl⟩ := h
    rw [if_neg hpre.ne_nil, if_neg (not_not.mpr hpre.check), hpre.drop_eq, hbs]

theorem KeyText.accepted {input : String} {key : HexBytes32} (h : KeyText input key) :
    newHexBytes32FromString input = .ok key := by
  obtain ⟨digits, hpre, -, hdecode⟩ := h
  rw [newHexBytes32FromString_eq_ok]
  exact ⟨digits, key.bytes, hpre, hdecode, (fromBytes_bytes key).symm⟩

theorem takesKeys_iff (input : String) : TakesKeys input ↔ ¬ Misfit input := by
  constructor
  · intro h hmisfit
    obtain ⟨digits, hpre, hdigits, heven, hlength⟩ := hmisfit
    obtain ⟨bs, hbs⟩ := exists_hexDecode hdigits heven
    have haccepted : newHexBytes32FromString input = .ok (.fromBytes bs) :=
      newHexBytes32FromString_eq_ok.mpr ⟨digits, bs, hpre, hbs, rfl⟩
    obtain ⟨digits', hpre', hlength', -⟩ := (h _).mp haccepted
    rw [hpre.unique hpre'] at hlength
    exact hlength hlength'
  · intro hfits key
    constructor
    · intro h
      obtain ⟨digits, bs, hpre, hbs, rfl⟩ := newHexBytes32FromString_eq_ok.mp h
      have hbytes := length_of_hexDecode hbs
      have hlength : digits.length = 64 := by
        by_contra hne
        exact hfits ⟨digits, hpre, isSome_of_hexDecode hbs, by omega, hne⟩
      refine ⟨digits, hpre, hlength, ?_⟩
      rw [fromBytes_of_length (by omega)]
      exact hbs
    · exact KeyText.accepted

@[simp] theorem hexDecodeInto_zero {c d : Char} {a b : Nat} (cs : List Char)
    (ha : hexValue c = some a) (hb : hexValue d = some b) :
    hexDecodeInto (c :: d :: cs) 0 = none := by
  simp [hexDecodeInto, ha, hb]

@[simp] theorem hexDecodeInto_succ {c d : Char} {a b : Nat} (cs : List Char) (room : Nat)
    (ha : hexValue c = some a) (hb : hexValue d = some b) :
    hexDecodeInto (c :: d :: cs) (room + 1) = (hexDecodeInto cs room).map fun decoded =>
      decoded.map (UInt8.ofNat (16 * a + b) :: ·) := by
  simp [hexDecodeInto, ha, hb]

theorem hexDecodeInto_invalid {c d : Char} (cs : List Char) (room : Nat)
    (h : ∀ a b, hexValue c = some a → hexValue d ≠ some b) :
    hexDecodeInto (c :: d :: cs) room = some (.error .invalidByte) := by
  rw [hexDecodeInto]
  cases ha : hexValue c with
  | none => rfl
  | some a =>
    cases hb : hexValue d with
    | none => rfl
    | some b => exact absurd hb (h a b ha)

theorem hexDecodeInto_eq {room : Nat} {cs : List Char} (h : cs.length ≤ 2 * room + 1) :
    hexDecodeInto cs room = some (hexDecode cs) := by
  induction cs using hexDecode.induct generalizing room with
  | case1 => rfl
  | case2 c hc => simp [hexDecodeInto, hexDecode, hc]
  | case3 c hc => simp [hexDecodeInto, hexDecode, hc]
  | case4 c d cs a b hb ha ih =>
    rw [List.length_cons, List.length_cons] at h
    cases room with
    | zero => omega
    | succ room =>
      rw [hexDecodeInto_succ cs room ha hb, hexDecode_cons_cons _ ha hb, ih (by omega)]
      rfl
  | case5 c d cs hbad =>
    rw [hexDecodeInto_invalid cs room fun a b ha hb => hbad a b ha hb, hexDecode]
    split
    · next a b ha hb => exact (hbad a b ha hb).elim
    · rfl

theorem hexDecodeInto_eq_none {room : Nat} {cs : List Char} :
    hexDecodeInto cs room = none ↔
      2 * room + 2 ≤ cs.length ∧ AreDigits (cs.take (2 * room + 2)) := by
  induction cs using hexDecode.induct generalizing room with
  | case1 => simp [hexDecodeInto]
  | case2 c hc => simp [hexDecodeInto]
  | case3 c hc => simp [hexDecodeInto]
  | case4 c d cs a b hb ha ih =>
    cases room with
    | zero => simp [ha, hb, AreDigits]
    | succ room =>
      have htake : (c :: d :: cs).take (2 * (room + 1) + 2) =
          c :: d :: cs.take (2 * room + 2) := rfl
      have hlength : 2 * (room + 1) + 2 ≤ (c :: d :: cs).length ↔ 2 * room + 2 ≤ cs.length := by
        rw [List.length_cons, List.length_cons]
        omega
      rw [hexDecodeInto_succ cs room ha hb, Option.map_eq_none_iff, ih, htake, hlength]
      simp [AreDigits, ha, hb]
  | case5 c d cs hbad =>
    have htake : (c :: d :: cs).take (2 * room + 2) = c :: d :: cs.take (2 * room) := rfl
    rw [hexDecodeInto_invalid cs room fun a b ha hb => hbad a b ha hb, htake]
    simp only [reduceCtorEq, false_iff, AreDigits, List.forall_mem_cons, not_and]
    intro _ hc hd
    obtain ⟨a, ha⟩ := Option.isSome_iff_exists.mp hc
    obtain ⟨b, hb⟩ := Option.isSome_iff_exists.mp hd
    exact (hbad a b ha hb).elim

theorem hexDecode_of_hexDecodeInto {room : Nat} {cs : List Char} {bs : Bytes}
    (h : hexDecodeInto cs room = some (.ok bs)) : hexDecode cs = .ok bs ∧ cs.length ≤ 2 * room := by
  induction cs using hexDecode.induct generalizing room bs with
  | case1 =>
    cases h
    exact ⟨rfl, Nat.zero_le _⟩
  | case2 c hc => simp [hexDecodeInto, hc] at h
  | case3 c hc => simp [hexDecodeInto, hc] at h
  | case4 c d cs a b hb ha ih =>
    cases room with
    | zero =>
      rw [hexDecodeInto_zero cs ha hb] at h
      cases h
    | succ room =>
      rw [hexDecodeInto_succ cs room ha hb] at h
      obtain ⟨decoded, hdecoded, h⟩ := Option.map_eq_some_iff.mp h
      obtain ⟨tail, rfl, rfl⟩ := Except.map_eq_ok.mp h
      obtain ⟨htail, hlength⟩ := ih hdecoded
      rw [hexDecode_cons_cons _ ha hb, htail, List.length_cons, List.length_cons]
      exact ⟨rfl, by omega⟩
  | case5 c d cs hbad =>
    rw [hexDecodeInto_invalid cs room fun a b ha hb => hbad a b ha hb] at h
    cases h

theorem checkText_eq_ok {input : String} {raw : List Char} (h : input ≠ "") :
    checkText input true = .ok raw ↔ Prefixed input raw ∧ byteLength raw % 2 = 0 := by
  have hne : input.toList ≠ [] := fun hnil => h (String.toList_eq_nil_iff.mp hnil)
  unfold checkText
  rw [if_neg hne]
  constructor
  · intro hraw
    by_cases hcheck : checkPrefixFromString input.toList = true
    · rw [if_neg (fun hbad => hbad.1 hcheck), if_pos hcheck] at hraw
      by_cases heven : byteLength (input.toList.drop 2) % 2 = 0
      · rw [if_neg (not_not.mpr heven), Except.ok.injEq] at hraw
        rw [← hraw]
        exact ⟨checkPrefixFromString_iff.mp hcheck, heven⟩
      · rw [if_pos heven] at hraw
        cases hraw
    · rw [if_pos ⟨hcheck, rfl⟩] at hraw
      cases hraw
  · intro hraw
    obtain ⟨hpre, heven⟩ := hraw
    rw [if_neg (fun hbad => hbad.1 hpre.check), if_pos hpre.check, hpre.drop_eq,
      if_neg (not_not.mpr heven)]

/-- Behind a prefix and with an even number of bytes, the text is decoded into the array. -/
theorem HexBytes32.unmarshalText_eq {input : String} {raw : List Char}
    (h : checkText input true = .ok raw) :
    HexBytes32.unmarshalText input = (hexDecodeInto raw 32).map fun decoded =>
      (decoded.mapError fun err => errorHexEncoding (.hex err)).map HexBytes32.fromBytes := by
  rw [HexBytes32.unmarshalText, h]

theorem KeyText.checked {input : String} {key : HexBytes32} (h : KeyText input key) :
    ∃ digits, checkText input true = .ok digits ∧ hexDecodeInto digits 32 = some (.ok key.bytes) := by
  obtain ⟨digits, hpre, hlength, hdecode⟩ := h
  have hne : input ≠ "" := by
    intro hempty
    subst hempty
    exact hpre.ne_nil rfl
  have hbytes := byteLength_of_digits (isSome_of_hexDecode hdecode)
  refine ⟨digits, (checkText_eq_ok hne).mpr ⟨hpre, by omega⟩, ?_⟩
  rw [hexDecodeInto_eq (by omega), hdecode]

theorem KeyText.unmarshalled {input : String} {key : HexBytes32} (h : KeyText input key) :
    HexBytes32.unmarshalText input = some (.ok key) := by
  obtain ⟨digits, hcheck, hdecode⟩ := h.checked
  rw [HexBytes32.unmarshalText_eq hcheck, hdecode]
  exact congrArg (fun key => some (Except.ok key)) (fromBytes_bytes key)

theorem not_keyText_empty (key : HexBytes32) : ¬ KeyText "" key := by
  intro h
  obtain ⟨digits, hpre, -⟩ := h
  exact hpre.ne_nil rfl

theorem HexBytes32.unmarshalText_eq_ok {input : String} {raw : List Char} {key : HexBytes32}
    (h : checkText input true = .ok raw) : HexBytes32.unmarshalText input = some (.ok key) ↔
      ∃ bs, hexDecodeInto raw 32 = some (.ok bs) ∧ key = .fromBytes bs := by
  rw [HexBytes32.unmarshalText_eq h, Option.map_eq_some_iff]
  constructor
  · intro hkey
    obtain ⟨decoded, hdecoded, hmapped⟩ := hkey
    obtain ⟨bs, hbs, hfrom⟩ := Except.map_eq_ok.mp hmapped
    rw [Except.mapError_eq_ok] at hbs
    rw [hbs] at hdecoded
    exact ⟨bs, hdecoded, hfrom.symm⟩
  · intro hkey
    obtain ⟨bs, hbs, rfl⟩ := hkey
    exact ⟨.ok bs, hbs, rfl⟩

theorem unmarshalsKeys_of_checked {input : String} {raw : List Char} (hne : input ≠ "")
    (h : checkText input true = .ok raw) : UnmarshalsKeys input ↔ ¬ UnmarshalMisfit input := by
  obtain ⟨hpre, heven⟩ := (checkText_eq_ok hne).mp h
  constructor
  · intro hkeys hmisfit
    rcases hmisfit with hempty | ⟨digits, hpre', heven', hfew | hmany⟩
    · exact hne hempty
    · obtain ⟨hdigits, hlength⟩ := hfew
      rw [hpre'.unique hpre] at hdigits hlength
      rw [byteLength_of_digits hdigits] at heven
      obtain ⟨bs, hbs⟩ := exists_hexDecode hdigits heven
      have hkey : HexBytes32.unmarshalText input = some (.ok (.fromBytes bs)) := by
        rw [HexBytes32.unmarshalText_eq_ok h]
        exact ⟨bs, by rw [hexDecodeInto_eq (by omega), hbs], rfl⟩
      obtain ⟨digits', hpre', hlength', -⟩ := (hkeys.2 _).mp hkey
      rw [hpre'.unique hpre] at hlength'
      omega
    · rw [hpre'.unique hpre] at hmany
      have hpanic : hexDecodeInto raw 32 = none := hexDecodeInto_eq_none.mpr hmany
      have hsome := hkeys.1
      rw [HexBytes32.unmarshalText_eq h, hpanic] at hsome
      cases hsome
  · intro hfits
    constructor
    · rw [HexBytes32.unmarshalText_eq h, Option.isSome_map, Option.isSome_iff_ne_none]
      intro hpanic
      exact hfits (.inr ⟨raw, hpre, heven, .inr (hexDecodeInto_eq_none.mp hpanic)⟩)
    · intro key
      constructor
      · intro hkey
        obtain ⟨bs, hbs, rfl⟩ := (HexBytes32.unmarshalText_eq_ok h).mp hkey
        obtain ⟨hdecode, hlength⟩ := hexDecode_of_hexDecodeInto hbs
        have hbytes := length_of_hexDecode hdecode
        have hexact : raw.length = 64 := by
          by_contra hless
          exact hfits (.inr ⟨raw, hpre, heven, .inl ⟨isSome_of_hexDecode hdecode, by omega⟩⟩)
        refine ⟨raw, hpre, hexact, ?_⟩
        rw [fromBytes_of_length (by omega)]
        exact hdecode
      · exact KeyText.unmarshalled

theorem unmarshalsKeys_iff (input : String) : UnmarshalsKeys input ↔ ¬ UnmarshalMisfit input := by
  by_cases hempty : input = ""
  · subst hempty
    have hzero : HexBytes32.unmarshalText "" = some (.ok (.fromBytes [])) := rfl
    constructor
    · intro h
      exact absurd ((h.2 _).mp hzero) (not_keyText_empty _)
    · intro h
      exact absurd (.inl rfl) h
  · cases hcheck : checkText input true with
    | ok raw => exact unmarshalsKeys_of_checked hempty hcheck
    | error err =>
      have hrefused : HexBytes32.unmarshalText input = some (.error err) := by
        rw [HexBytes32.unmarshalText, hcheck]
      constructor
      · intro _ hmisfit
        rcases hmisfit with h | ⟨digits, hpre, heven, -⟩
        · exact hempty h
        · rw [(checkText_eq_ok hempty).mpr ⟨hpre, heven⟩] at hcheck
          cases hcheck
      · intro _
        constructor
        · rw [hrefused]
          rfl
        · intro key
          constructor
          · intro hkey
            rw [hrefused] at hkey
            cases hkey
          · exact KeyText.unmarshalled

end Signare
