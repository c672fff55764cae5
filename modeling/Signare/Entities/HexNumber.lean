import Signare.Entities.EncodingTypes

/-!
# Hexadecimal numbers

The numbers of 256 and of 64 bits in `0x` text: one grammar, two constructors and two unmarshallers.
A number of 256 bits is put together from machine words, whatever their size.
-/

namespace Signare

open ByteCodec

/-- The empty text has no digits. -/
def checkNumberText (input : String) : Except SignareError (List Char) :=
  if input.toList = [] then .ok [] else checkNumber input

def HexInt256.unmarshalText (size : WordSize) (input : String) : Except SignareError Int := do
  let raw ← checkNumberText input
  decodeHexInt256 size raw

/-- The loop over the digits, in 64 bits. -/
def readNibbles (dec : UInt64) : List Char → Except SignareError UInt64
  | [] => .ok dec
  | c :: cs =>
    match hexValue c with
    | none => .error errorHexEncodingSyntax
    | some nib => readNibbles (dec * 16 + UInt64.ofNat nib) cs

def HexUInt64.unmarshalText (input : String) : Except SignareError HexUInt64 := do
  let raw ← checkNumberText input
  if 16 < byteLength raw then .error errorHexEncodingUint64Range else readNibbles 0 raw

/-- `0x` or `0X`, and behind it the digits. -/
def Prefixed (input : String) (digits : List Char) : Prop :=
  input.toList = '0' :: 'x' :: digits ∨ input.toList = '0' :: 'X' :: digits

/-- At most `width` digits behind a prefix, without a leading zero unless it is the only digit, that
denote `n`. -/
def HexNumber (width : Nat) (input : String) (n : Nat) : Prop :=
  ∃ digits, Prefixed input digits ∧ digits.length ≤ width ∧
    (digits.head? = some '0' → digits = ['0']) ∧ Numeral 16 digits n

theorem checkPrefixFromString_iff {input : String} :
    checkPrefixFromString input.toList = true ↔ Prefixed input (input.toList.drop 2) := by
  unfold checkPrefixFromString Prefixed
  split
  · next h => simp [h]
  · next h => simp [h]
  · next hlower hupper =>
    simp only [Bool.false_eq_true, false_iff, not_or]
    exact ⟨hlower _, hupper _⟩

theorem Prefixed.drop_eq {input : String} {digits : List Char} (h : Prefixed input digits) :
    input.toList.drop 2 = digits := by
  rcases h with h | h <;> rw [h] <;> rfl

theorem Prefixed.check {input : String} {digits : List Char} (h : Prefixed input digits) :
    checkPrefixFromString input.toList = true := by
  rw [checkPrefixFromString_iff, h.drop_eq]
  exact h

theorem Prefixed.ne_nil {input : String} {digits : List Char} (h : Prefixed input digits) :
    input.toList ≠ [] := by
  rcases h with h | h <;> rw [h] <;> exact List.cons_ne_nil _ _

theorem checkNumber_eq_ok {input : String} {raw : List Char} :
    checkNumber input = .ok raw ↔
      Prefixed input raw ∧ raw ≠ [] ∧ (raw.head? = some '0' → raw = ['0']) := by
  unfold checkNumber
  constructor
  · intro h
    split_ifs at h with hempty hpre
    rw [checkPrefixFromString_iff] at hpre
    split at h
    · cases h
    · cases h
    · next hne hzero =>
      cases h
      refine ⟨hpre, hne, ?_⟩
      intro hhead
      cases hraw : input.toList.drop 2 with
      | nil => exact absurd hraw hne
      | cons c cs =>
        rw [hraw, List.head?_cons, Option.some.injEq] at hhead
        subst hhead
        cases cs with
        | nil => rfl
        | cons d cs => exact absurd hraw (hzero d cs)
  · intro h
    obtain ⟨hpre, hne, hzero⟩ := h
    rw [if_neg hpre.ne_nil, if_neg (not_not.mpr hpre.check), hpre.drop_eq]
    split
    · exact absurd rfl hne
    · next d cs =>
      have hone := hzero rfl
      cases hone
    · rfl

theorem readWord_eq {size : WordSize} {word k : Nat} {cs : List Char} (hword : word < 16 ^ k)
    (hlength : cs.length + k ≤ size.bigWordNibbles) :
    (readWord size word cs).toOption = readDigits 16 word cs := by
  induction cs generalizing word k with
  | nil => rfl
  | cons c cs ih =>
    cases hc : hexValue c with
    | none =>
      rw [readWord, hc, readDigits_cons_none cs hc]
      rfl
    | some nib =>
      have hnib : nib < 16 := hexValue_lt hc
      have hnext : 16 * word + nib < 16 ^ (k + 1) := by
        rw [pow_succ]
        omega
      have hmodulus : 16 ^ (k + 1) ≤ size.modulus :=
        Nat.pow_le_pow_right (by decide) (by rw [List.length_cons] at hlength; omega)
      -- the word does not overflow before its last digit
      have hword' : (word * 16 % size.modulus + nib) % size.modulus = 16 * word + nib := by
        rw [Nat.mod_add_mod, Nat.mod_eq_of_lt (by omega), Nat.mul_comm]
      rw [readWord, hc, readDigits_sixteen_cons cs hc]
      simp only [hword']
      exact ih hnext (by rw [List.length_cons] at hlength; omega)

theorem readWords_eq {size : WordSize} {count : Nat} {raw : List Char}
    (hlength : raw.length ≤ count * size.bigWordNibbles) :
    ((readWords size count raw).map (setBits size)).toOption = readDigits 16 0 raw := by
  induction count generalizing raw with
  | zero =>
    have hnil : raw = [] := by
      apply List.length_eq_zero_iff.mp
      omega
    subst hnil
    rfl
  | succ count ih =>
    let start := raw.length - size.bigWordNibbles
    have hsplit : raw.take start ++ raw.drop start = raw := List.take_append_drop start raw
    have hdrop : (raw.drop start).length ≤ size.bigWordNibbles := by
      rw [List.length_drop]
      omega
    have htake : (raw.take start).length ≤ count * size.bigWordNibbles := by
      rw [List.length_take]
      rw [Nat.succ_mul] at hlength
      omega
    have hword : (readWord size 0 (raw.drop start)).toOption = readDigits 16 0 (raw.drop start) :=
      readWord_eq (k := 0) (by decide) hdrop
    have hwords := ih htake
    have hscale : ∀ n, readDigits 16 0 (raw.take start) = some n →
        n * 16 ^ (raw.drop start).length = size.modulus * n := by
      intro n hn
      by_cases hfull : size.bigWordNibbles ≤ raw.length
      · have hdropLength : (raw.drop start).length = size.bigWordNibbles := by
          rw [List.length_drop]
          omega
        rw [hdropLength, Nat.mul_comm]
        rfl
      · have hstart : start = 0 := by omega
        rw [hstart, List.take_zero] at hn
        cases hn
        rw [Nat.zero_mul, Nat.mul_zero]
    conv_rhs => rw [← hsplit, readDigits_append]
    rw [readWords]
    cases hread : readWord size 0 (raw.drop start) with
    | error e =>
      rw [hread] at hword
      have hnone : ∀ n, readDigits 16 n (raw.drop start) = none := by
        intro n
        rw [readDigits_acc, ← hword]
        rfl
      cases readDigits 16 0 (raw.take start) with
      | none => rfl
      | some n => exact (hnone n).symm
    | ok word =>
      rw [hread] at hword
      cases hlater : readWords size count (raw.take start) with
      | error e =>
        rw [hlater] at hwords
        rw [← hwords]
        rfl
      | ok words =>
        rw [hlater] at hwords
        have hvalue : readDigits 16 0 (raw.take start) = some (setBits size words) := hwords.symm
        rw [hvalue, Option.bind_some, readDigits_acc, ← hword, hscale _ hvalue]
        exact congrArg some (Nat.add_comm _ _)

theorem decodeHexInt256_eq_ok {size : WordSize} {raw : List Char} {i : Int} :
    decodeHexInt256 size raw = .ok i ↔
      raw.length ≤ 64 ∧ ∃ n, readDigits 16 0 raw = some n ∧ i = n := by
  have hpositive : 0 < size.bigWordNibbles := by cases size <;> decide
  have hcount : raw.length ≤ (byteLength raw / size.bigWordNibbles + 1) * size.bigWordNibbles := by
    have hbytes := length_le_byteLength raw
    have hdiv := Nat.lt_div_mul_add (a := byteLength raw) hpositive
    rw [Nat.succ_mul]
    omega
  have hwords := readWords_eq hcount
  unfold decodeHexInt256
  constructor
  · intro h
    split_ifs at h with hlong
    obtain ⟨words, hread, h⟩ := Except.bind_eq_ok.mp h
    rw [hread] at hwords
    have hbytes := length_le_byteLength raw
    refine ⟨by omega, setBits size words, hwords.symm, ?_⟩
    exact (Except.pure_eq_ok.mp h).symm
  · intro h
    obtain ⟨hlength, n, hn, rfl⟩ := h
    have hbytes := byteLength_of_digits (isSome_hexValue_of_readDigits hn)
    rw [if_neg (by omega)]
    rw [hn, Except.toOption_eq_some, Except.map_eq_ok] at hwords
    obtain ⟨words, hread, hvalue⟩ := hwords
    rw [hread, ← hvalue]
    rfl

theorem newHexInt256FromString_eq_ok {size : WordSize} {input : String} {i : Int} :
    newHexInt256FromString size input = .ok i ↔ ∃ n : Nat, HexNumber 64 input n ∧ i = n := by
  simp only [newHexInt256FromString, Except.bind_eq_ok, checkNumber_eq_ok, decodeHexInt256_eq_ok,
    HexNumber, ← readNumeral_eq_some]
  constructor
  · intro h
    obtain ⟨raw, ⟨hpre, hne, hzero⟩, hlength, n, hn, hi⟩ := h
    refine ⟨n, ⟨raw, hpre, hlength, hzero, ?_⟩, hi⟩
    rw [readNumeral, if_neg hne, hn]
  · intro h
    obtain ⟨n, ⟨raw, hpre, hlength, hzero, hn⟩, hi⟩ := h
    unfold readNumeral at hn
    split_ifs at hn with hne
    exact ⟨raw, ⟨hpre, hne, hzero⟩, hlength, n, hn, hi⟩

theorem parseUint_eq_ok {acc n : Nat} {cs : List Char} (hacc : acc < 2 ^ 64) :
    parseUint acc cs = .ok n ↔ readDigits 16 acc cs = some n ∧ n < 2 ^ 64 := by
  induction cs generalizing acc with
  | nil =>
    simp only [parseUint, readDigits, Except.ok.injEq, Option.some.injEq]
    constructor
    · intro h
      exact ⟨h, h ▸ hacc⟩
    · intro h
      exact h.1
  | cons c cs ih =>
    cases hc : hexValue c with
    | none => simp [parseUint, hc, readDigits_cons_none cs hc]
    | some d =>
      have hd := hexValue_lt hc
      rw [parseUint, hc, readDigits_sixteen_cons cs hc]
      by_cases hrange : 2 ^ 60 ≤ acc
      · simp only [if_pos hrange, reduceCtorEq, false_iff, not_and]
        intro hread
        have hle := le_of_readDigits (by decide) hread
        omega
      · simp only [if_neg hrange]
        exact ih (by omega)

/-- Without leading zeros the size of a number says how many digits it has. -/
theorem length_le_of_lt {raw : List Char} {n width : Nat} (hne : raw ≠ [])
    (hzero : raw.head? = some '0' → raw = ['0']) (hwidth : 0 < width)
    (hn : readDigits 16 0 raw = some n) (hlt : n < 16 ^ width) : raw.length ≤ width := by
  cases raw with
  | nil => exact absurd rfl hne
  | cons c cs =>
    by_cases hc : c = '0'
    · have hone := hzero (congrArg some hc)
      rw [hone]
      exact hwidth
    · have hpow := pow_le_of_readDigits hc hn
      have hless := (Nat.pow_lt_pow_iff_right (by decide : 1 < 16)).mp (hpow.trans_lt hlt)
      rw [List.length_cons]
      omega

theorem newHexUInt64FromString_eq_ok {input : String} {u : HexUInt64} :
    newHexUInt64FromString input = .ok u ↔ HexNumber 16 input u.toNat := by
  simp only [newHexUInt64FromString, Except.bind_eq_ok, checkNumber_eq_ok, HexNumber,
    ← readNumeral_eq_some]
  constructor
  · intro h
    obtain ⟨raw, ⟨hpre, hne, hzero⟩, h⟩ := h
    split at h
    · cases h
    · next decoded hparse =>
      cases h
      obtain ⟨hn, hlt⟩ := (parseUint_eq_ok (by decide)).mp hparse
      have hdecoded : (UInt64.ofNat decoded).toNat = decoded := UInt64.toNat_ofNat_of_lt hlt
      refine ⟨raw, hpre, length_le_of_lt hne hzero (by decide) hn hlt, hzero, ?_⟩
      rw [readNumeral, if_neg hne, hn, hdecoded]
  · intro h
    obtain ⟨raw, hpre, hlength, hzero, hn⟩ := h
    unfold readNumeral at hn
    split_ifs at hn with hne
    have hparse := (parseUint_eq_ok (by decide)).mpr ⟨hn, u.toNat_lt⟩
    refine ⟨raw, ⟨hpre, hne, hzero⟩, ?_⟩
    rw [hparse]
    exact congrArg Except.ok UInt64.ofNat_toNat

theorem checkNumberText_of_ne_empty {input : String} (h : input ≠ "") :
    checkNumberText input = checkNumber input := by
  apply if_neg
  intro hnil
  exact h (String.toList_eq_nil_iff.mp hnil)

theorem HexInt256.unmarshalText_eq (size : WordSize) {input : String} (h : input ≠ "") :
    HexInt256.unmarshalText size input = newHexInt256FromString size input := by
  rw [HexInt256.unmarshalText, checkNumberText_of_ne_empty h, newHexInt256FromString]

theorem readNibbles_eq {dec : UInt64} {k : Nat} {cs : List Char} (hdec : dec.toNat < 16 ^ k)
    (hlength : cs.length + k ≤ 16) :
    (readNibbles dec cs).toOption.map UInt64.toNat = readDigits 16 dec.toNat cs := by
  induction cs generalizing dec k with
  | nil => rfl
  | cons c cs ih =>
    cases hc : hexValue c with
    | none =>
      rw [readNibbles, hc, readDigits_cons_none cs hc]
      rfl
    | some nib =>
      have hnib := hexValue_lt hc
      have hnext : 16 * dec.toNat + nib < 16 ^ (k + 1) := by
        rw [pow_succ]
        omega
      have hdigits : k + 1 ≤ 16 := by
        rw [List.length_cons] at hlength
        omega
      have hrange : 16 ^ (k + 1) ≤ 16 ^ 16 := Nat.pow_le_pow_right (by decide) hdigits
      have hdec' : (dec * 16 + UInt64.ofNat nib).toNat = 16 * dec.toNat + nib := by
        have hsixteen : (16 : UInt64).toNat = 16 := rfl
        simp only [UInt64.toNat_add, UInt64.toNat_mul, UInt64.toNat_ofNat', hsixteen]
        omega
      rw [readNibbles, hc, readDigits_sixteen_cons cs hc, ← hdec']
      exact ih (hdec' ▸ hnext) (by rw [List.length_cons] at hlength; omega)

theorem HexUInt64.unmarshalText_eq_ok {input : String} (h : input ≠ "") {u : HexUInt64} :
    HexUInt64.unmarshalText input = .ok u ↔ HexNumber 16 input u.toNat := by
  have hnibbles (raw : List Char) (hlength : raw.length ≤ 16) :
      readNibbles 0 raw = .ok u ↔ readDigits 16 0 raw = some u.toNat := by
    have hread : (readNibbles 0 raw).toOption.map UInt64.toNat = readDigits 16 0 raw :=
      readNibbles_eq (k := 0) (by decide) hlength
    rw [← hread, ← Except.toOption_eq_some, Option.map_eq_some_iff]
    constructor
    · intro hu
      exact ⟨u, hu, rfl⟩
    · intro hu
      obtain ⟨u', hu', heq⟩ := hu
      rw [← UInt64.toNat_inj.mp heq]
      exact hu'
  simp only [HexUInt64.unmarshalText, checkNumberText_of_ne_empty h, Except.bind_eq_ok,
    checkNumber_eq_ok, HexNumber, ← readNumeral_eq_some]
  constructor
  · intro h
    obtain ⟨raw, ⟨hpre, hne, hzero⟩, h⟩ := h
    split_ifs at h with hlong
    have hlength : raw.length ≤ 16 := (length_le_byteLength raw).trans (not_lt.mp hlong)
    refine ⟨raw, hpre, hlength, hzero, ?_⟩
    rw [readNumeral, if_neg hne, (hnibbles raw hlength).mp h]
  · intro h
    obtain ⟨raw, hpre, hlength, hzero, hn⟩ := h
    unfold readNumeral at hn
    split_ifs at hn with hne
    have hbytes := byteLength_of_digits (isSome_hexValue_of_readDigits hn)
    refine ⟨raw, ⟨hpre, hne, hzero⟩, ?_⟩
    rw [if_neg (by omega), hnibbles raw hlength]
    exact hn

/-- The parsers of hexadecimal numbers take exactly their grammar, with the value the digits denote
on either word size, and constructor and unmarshaller agree on every text that is not empty. -/
theorem hexNumber_parsers :
    (∀ size input i, newHexInt256FromString size input = .ok i ↔
        ∃ n : Nat, HexNumber 64 input n ∧ i = n) ∧
      (∀ input u, newHexUInt64FromString input = .ok u ↔ HexNumber 16 input u.toNat) ∧
      (∀ size input, input ≠ "" →
        (HexInt256.unmarshalText size input).toOption =
          (newHexInt256FromString size input).toOption) ∧
      (∀ input, input ≠ "" →
        (HexUInt64.unmarshalText input).toOption = (newHexUInt64FromString input).toOption) := by
  refine ⟨?_, ?_, ?_, ?_⟩
  · intro size input i
    exact newHexInt256FromString_eq_ok
  · intro input u
    exact newHexUInt64FromString_eq_ok
  · intro size input h
    rw [HexInt256.unmarshalText_eq size h]
  · intro input h
    apply Option.ext
    intro u
    rw [Except.toOption_eq_some, Except.toOption_eq_some, HexUInt64.unmarshalText_eq_ok h,
      newHexUInt64FromString_eq_ok]

theorem hexNumber_parsers_sixteen :
    (HexInt256.unmarshalText .bits32 "0x10").toOption = some 16 ∧
      (HexUInt64.unmarshalText "0x10").toOption = some 16 :=
  ⟨(hexNumber_parsers.2.2.1 .bits32 "0x10" (by decide)).trans rfl,
    (hexNumber_parsers.2.2.2 "0x10" (by decide)).trans rfl⟩

end Signare
