import Signare.Entities.Address
import Signare.Entities.Bytes32

/-!
# The text of an address

An address is read from 40 hexadecimal digits with or without a prefix. Where the checksum is asked
for, digits of both cases have to be those that the address is printed with.
-/

namespace Signare

open ByteCodec

namespace Address

/-- `strings.TrimPrefix`. -/
def trimPrefix (start str : List Char) : List Char :=
  if start.isPrefixOf str then str.drop start.length else str

/-- `removeHexPrefix` with the slice of the first two bytes: nothing if there are fewer. -/
def removeHexPrefixSlice (str : List Char) : Option (List Char) :=
  if byteLength str < 2 then none
  else if str.take 2 = ['0', 'X'] then some (trimPrefix ['0', 'X'] str)
  else some (trimPrefix ['0', 'x'] str)

/-- `NewFromHexString`: nothing if it panics. -/
def parse (address : String) : Option (Except SignareError Address) :=
  if ¬ isHexAddress address then
    some (.error (invalidArgumentReadable ("invalid address: '" ++ address ++ "'")))
  else
    (removeHexPrefixSlice address.toList).map fun hexPart =>
      ((hexDecode hexPart).mapError SignareError.hex).map copyFrom

/-- What `NewFromHexStringChecksum` does with an address that was read. -/
def checkChecksum (keccak : Hash256) (address : String) (a : Address) (hexPart : List Char) :
    Except SignareError Address :=
  if hexPart = hexPart.map Char.toLower ∨ hexPart = hexPart.map Char.toUpper then .ok a
  else if (a.string keccak).toList ≠ '0' :: 'x' :: hexPart then
    .error (invalidArgumentReadable ("invalid address checksum: '" ++ address ++ "'"))
  else .ok a

/-- `NewFromHexStringChecksum`: nothing if it panics. -/
def parseChecksum (keccak : Hash256) (address : String) : Option (Except SignareError Address) :=
  match parse address with
  | none => none
  | some (.error err) => some (.error err)
  | some (.ok a) =>
    (removeHexPrefixSlice address.toList).map (checkChecksum keccak address a)

end Address

/-- 40 digits, with a prefix or without one. -/
def AddressText (input : String) (digits : List Char) : Prop :=
  (input.toList = digits ∨ Prefixed input digits) ∧ digits.length = 40 ∧ AreDigits digits

/-- The halves of the bytes, the high one first. -/
def nibbles : Bytes → List Nat
  | [] => []
  | b :: bs => b.toNat / 16 :: b.toNat % 16 :: nibbles bs

/-- A letter is a capital where the digit of the hash of the small digits is 8 or more. -/
def eip55 (keccak : Hash256) (digits : List Char) : List Char :=
  let lower := digits.map Char.toLower
  let hash := keccak.sum (lower.map fun c => UInt8.ofNat c.toNat)
  List.zipWith (fun nibble c => if 8 ≤ nibble then c.toUpper else c) (nibbles hash) lower

def AllLower (digits : List Char) : Prop := ∀ c ∈ digits, ¬ c.isUpper
def AllUpper (digits : List Char) : Prop := ∀ c ∈ digits, ¬ c.isLower

theorem isHexCharacter_iff (c : Char) : Address.isHexCharacter c = (hexValue c).isSome := by
  unfold Address.isHexCharacter hexValue
  split_ifs <;> simp_all

theorem isHexAddress_iff (input : String) : Address.isHexAddress input = true ↔
    (Address.removeHexPrefix input).length = 40 ∧ AreDigits (Address.removeHexPrefix input) := by
  show ((Address.removeHexPrefix input).length == 2 * addressLength &&
    Address.isHex (Address.removeHexPrefix input)) = true ↔ _
  simp only [Bool.and_eq_true, beq_iff_eq, Address.isHex, List.all_eq_true, isHexCharacter_iff,
    AreDigits]
  constructor
  · intro h
    exact ⟨h.1, h.2.2⟩
  · intro h
    exact ⟨h.1, by rw [h.1], h.2⟩

theorem removeHexPrefix_of_prefixed {input : String} {digits : List Char}
    (h : Prefixed input digits) : Address.removeHexPrefix input = digits := by
  rw [Address.removeHexPrefix, if_pos h.check, h.drop_eq]

theorem addressText_iff {input : String} {digits : List Char} : AddressText input digits ↔
    digits = Address.removeHexPrefix input ∧ Address.isHexAddress input = true := by
  rw [isHexAddress_iff]
  constructor
  · intro h
    obtain ⟨hinput, hlength, hdigits⟩ := h
    have heq : Address.removeHexPrefix input = digits := by
      rcases hinput with hbare | hpre
      · rw [Address.removeHexPrefix, hbare, hdigits.checkPrefix, if_neg (by decide)]
      · exact removeHexPrefix_of_prefixed hpre
    rw [heq]
    exact ⟨rfl, hlength, hdigits⟩
  · intro h
    obtain ⟨rfl, hlength, hdigits⟩ := h
    refine ⟨?_, hlength, hdigits⟩
    by_cases hcheck : checkPrefixFromString input.toList = true
    · right
      rw [Address.removeHexPrefix, if_pos hcheck]
      exact checkPrefixFromString_iff.mp hcheck
    · left
      rw [Address.removeHexPrefix, if_neg hcheck]

theorem removeHexPrefixSlice_eq {input : String} (h : 2 ≤ byteLength input.toList) :
    Address.removeHexPrefixSlice input.toList = some (Address.removeHexPrefix input) := by
  rw [Address.removeHexPrefixSlice, if_neg (by omega)]
  by_cases hcheck : checkPrefixFromString input.toList = true
  · rcases checkPrefixFromString_iff.mp hcheck with hpre | hpre
    · rw [Address.removeHexPrefix, if_pos hcheck, hpre]
      rfl
    · rw [Address.removeHexPrefix, if_pos hcheck, hpre]
      rfl
  · have hpre (digits : List Char) : ¬ Prefixed input digits := fun hpre => hcheck hpre.check
    have hupper : input.toList.take 2 ≠ ['0', 'X'] := by
      intro htake
      apply hpre (input.toList.drop 2)
      right
      rw [← List.take_append_drop 2 input.toList, htake]
      rfl
    have hlower : ¬ ['0', 'x'].isPrefixOf input.toList = true := by
      intro hlower
      obtain ⟨digits, hdigits⟩ := List.isPrefixOf_iff_prefix.mp hlower
      exact hpre digits (.inl hdigits.symm)
    rw [if_neg hupper, Address.trimPrefix, if_neg hlower, Address.removeHexPrefix, if_neg hcheck]

theorem removeHexPrefixSlice_of_isHexAddress {input : String}
    (h : Address.isHexAddress input = true) :
    Address.removeHexPrefixSlice input.toList = some (Address.removeHexPrefix input) := by
  apply removeHexPrefixSlice_eq
  have hlength := ((isHexAddress_iff input).mp h).1
  have hless : (Address.removeHexPrefix input).length ≤ input.toList.length := by
    unfold Address.removeHexPrefix
    split
    · rw [List.length_drop]
      omega
    · exact le_rfl
  have hbytes := length_le_byteLength input.toList
  omega

theorem parse_eq (input : String) : Address.parse input = some (Address.newFromHexString input) := by
  unfold Address.parse Address.newFromHexString
  by_cases h : Address.isHexAddress input = true
  · rw [if_neg (not_not.mpr h), if_neg (not_not.mpr h), removeHexPrefixSlice_of_isHexAddress h,
      Option.map_some]
    cases hexDecode (Address.removeHexPrefix input) <;> rfl
  · rw [if_pos h, if_pos h]

theorem newFromHexString_eq_ok {input : String} {a : Address} :
    Address.newFromHexString input = .ok a ↔
      ∃ digits, AddressText input digits ∧ hexDecode digits = .ok a.bytes := by
  unfold Address.newFromHexString
  constructor
  · intro h
    split_ifs at h with hvalid
    refine ⟨_, addressText_iff.mpr ⟨rfl, hvalid⟩, ?_⟩
    have hlength := ((isHexAddress_iff input).mp hvalid).1
    cases hdecode : hexDecode (Address.removeHexPrefix input) with
    | error err =>
      rw [hdecode] at h
      cases h
    | ok bs =>
      rw [hdecode] at h
      cases h
      have hbytes := length_of_hexDecode hdecode
      have htwenty : bs.length = addressLength := by
        rw [addressLength]
        omega
      simp [Address.copyFrom, rightPad, htwenty, List.take_of_length_le]
  · intro h
    obtain ⟨digits, htext, hdecode⟩ := h
    obtain ⟨rfl, hvalid⟩ := addressText_iff.mp htext
    rw [if_neg (not_not.mpr hvalid), hdecode]
    exact congrArg Except.ok a.copyFrom_bytes

theorem digit_induction {p : Char → Prop}
    (h : ∀ n < 128, (hexValue (Char.ofNat n)).isSome → p (Char.ofNat n)) {c : Char}
    (hc : (hexValue c).isSome) : p c := by
  have hlt : c.toNat < 128 := by
    unfold hexValue at hc
    split_ifs at hc with hdigit hlower hupper
    · exact lt_of_le_of_lt (show c.toNat ≤ 57 from hdigit.2) (by decide)
    · exact lt_of_le_of_lt (show c.toNat ≤ 102 from hlower.2) (by decide)
    · exact lt_of_le_of_lt (show c.toNat ≤ 70 from hupper.2) (by decide)
    · cases hc
  rw [← Char.ofNat_toNat c] at hc ⊢
  exact h c.toNat hlt hc

theorem toLower_eq_self_iff {c : Char} (hc : (hexValue c).isSome) :
    c.toLower = c ↔ ¬ c.isUpper :=
  digit_induction (p := fun c => c.toLower = c ↔ ¬ c.isUpper) (by decide) hc

theorem toUpper_eq_self_iff {c : Char} (hc : (hexValue c).isSome) :
    c.toUpper = c ↔ ¬ c.isLower :=
  digit_induction (p := fun c => c.toUpper = c ↔ ¬ c.isLower) (by decide) hc

theorem hexDigit_of_hexValue {c : Char} {d : Nat} (h : hexValue c = some d) :
    hexDigit d = c.toLower := by
  have hc : (hexValue c).map hexDigit = some c.toLower :=
    digit_induction (p := fun c => (hexValue c).map hexDigit = some c.toLower) (by decide)
      (by rw [h]; rfl)
  rw [h] at hc
  exact Option.some.inj hc

theorem map_eq_self_iff {f : Char → Char} {p : Char → Prop} {digits : List Char}
    (h : ∀ c ∈ digits, (f c = c ↔ p c)) : digits = digits.map f ↔ ∀ c ∈ digits, p c := by
  induction digits with
  | nil => simp
  | cons c digits ih =>
    rw [List.forall_mem_cons] at h
    rw [List.map_cons, List.cons_eq_cons, ih h.2, List.forall_mem_cons, ← h.1, eq_comm]

theorem hexEncode_of_hexDecode {digits : List Char} {bs : Bytes} (h : hexDecode digits = .ok bs) :
    hexEncode bs = digits.map Char.toLower := by
  induction digits using hexDecode.induct generalizing bs with
  | case1 =>
    cases h
    rfl
  | case2 c hc => simp [hexDecode, hc] at h
  | case3 c hc => simp [hexDecode, hc] at h
  | case4 c d cs a b hb ha ih =>
    rw [hexDecode_cons_cons _ ha hb, Except.map_eq_ok] at h
    obtain ⟨rest, hrest, rfl⟩ := h
    have hhigh := hexValue_lt ha
    have hlow := hexValue_lt hb
    have hlt : 16 * a + b < 256 := by omega
    have hbyte : (UInt8.ofNat (16 * a + b)).toNat = 16 * a + b := UInt8.toNat_ofNat_of_lt hlt
    have hdiv : (16 * a + b) / 16 = a := by omega
    have hmod : (16 * a + b) % 16 = b := by omega
    rw [hexEncode, hbyte, hdiv, hmod, hexDigit_of_hexValue ha, hexDigit_of_hexValue hb, ih hrest]
    rfl
  | case5 c d cs hbad =>
    rw [hexDecode] at h
    split at h
    · next a b ha hb => exact (hbad a b ha hb).elim
    · cases h

theorem getElem?_nibbles {hash : Bytes} {i : Nat} (h : i < 2 * hash.length) :
    (nibbles hash)[i]? = some (Address.hashNibble hash i) := by
  induction hash generalizing i with
  | nil => simp at h
  | cons b bs ih =>
    rw [List.length_cons] at h
    rcases i with _ | _ | i
    · rfl
    · rfl
    · have hdiv : (i + 1 + 1) / 2 = i / 2 + 1 := by omega
      have hmod : (i + 1 + 1) % 2 = i % 2 := by omega
      rw [nibbles, List.getElem?_cons_succ, List.getElem?_cons_succ, ih (by omega)]
      simp only [Address.hashNibble, hdiv, hmod, List.getD_cons_succ]

theorem checksumCharacter_eq {n : Nat} (h : n < 16) (nibble : Nat) :
    Address.checksumCharacter (hexDigit n) nibble =
      if 8 ≤ nibble then (hexDigit n).toUpper else hexDigit n := by
  unfold Address.checksumCharacter
  by_cases hnibble : 8 ≤ nibble
  · have hseven : 7 < nibble := hnibble
    simp only [hseven, and_true, if_pos hnibble]
    clear hnibble hseven
    revert n
    decide
  · rw [if_neg (fun hc => hnibble hc.2), if_neg hnibble]

theorem string_eq_eip55 (keccak : Hash256) {a : Address} {digits : List Char}
    (h : hexDecode digits = .ok a.bytes) :
    (a.string keccak).toList = '0' :: 'x' :: eip55 keccak digits := by
  have hlower := hexEncode_of_hexDecode h
  rw [Address.string, String.toList_ofList, eip55, ← hlower]
  congr 2
  apply List.ext_getElem?
  intro i
  rw [List.getElem?_mapIdx, List.getElem?_zipWith]
  by_cases hi : i < (hexEncode a.bytes).length
  · have hlength : (hexEncode a.bytes).length = 40 := by
      rw [length_hexEncode, a.length_bytes]
      rfl
    have hroom : i < 2 * (keccak.sum a.hexDigitBytes).length := by
      rw [keccak.length_sum]
      omega
    have hnibble := getElem?_nibbles hroom
    rw [Address.hexDigitBytes] at hnibble
    obtain ⟨n, hn, hdigit⟩ := Address.hexEncode_digits a.bytes _ (List.getElem_mem hi)
    rw [hnibble, List.getElem?_eq_getElem hi, hdigit, Option.map_some, checksumCharacter_eq hn]
    rfl
  · rw [List.getElem?_eq_none (not_lt.mp hi), Option.map_none]
    cases (nibbles (keccak.sum ((hexEncode a.bytes).map fun c => UInt8.ofNat c.toNat)))[i]? <;> rfl

theorem checkChecksum_eq_ok {keccak : Hash256} {input : String} {a b : Address}
    {digits : List Char} (h : hexDecode digits = .ok a.bytes) :
    Address.checkChecksum keccak input a digits = .ok b ↔
      a = b ∧ (AllLower digits ∨ AllUpper digits ∨ digits = eip55 keccak digits) := by
  have hdigits := isSome_of_hexDecode h
  have hlower : digits = digits.map Char.toLower ↔ AllLower digits :=
    map_eq_self_iff fun c hc => toLower_eq_self_iff (hdigits c hc)
  have hupper : digits = digits.map Char.toUpper ↔ AllUpper digits :=
    map_eq_self_iff fun c hc => toUpper_eq_self_iff (hdigits c hc)
  have hprinted : (a.string keccak).toList = '0' :: 'x' :: digits ↔
      digits = eip55 keccak digits := by
    rw [string_eq_eip55 keccak h, List.cons_inj_right, List.cons_inj_right, eq_comm]
  rw [← hlower, ← hupper, ← hprinted, Address.checkChecksum, ← or_assoc]
  by_cases hone : digits = digits.map Char.toLower ∨ digits = digits.map Char.toUpper
  · rw [if_pos hone, Except.ok.injEq]
    exact (and_iff_left (.inl hone)).symm
  · rw [if_neg hone]
    by_cases heq : (a.string keccak).toList = '0' :: 'x' :: digits
    · rw [if_neg (not_not.mpr heq), Except.ok.injEq]
      exact (and_iff_left (.inr heq)).symm
    · rw [if_pos heq]
      constructor
      · intro hbad
        cases hbad
      · intro hcase
        exact absurd hcase.2 (not_or.mpr ⟨hone, heq⟩)

theorem parseChecksum_eq (keccak : Hash256) (input : String) :
    Address.parseChecksum keccak input = some ((Address.newFromHexString input).bind fun a =>
      Address.checkChecksum keccak input a (Address.removeHexPrefix input)) := by
  rw [Address.parseChecksum, parse_eq]
  cases h : Address.newFromHexString input with
  | error err => rfl
  | ok a =>
    obtain ⟨digits, htext, -⟩ := newFromHexString_eq_ok.mp h
    show (Address.removeHexPrefixSlice input.toList).map _ = _
    rw [removeHexPrefixSlice_of_isHexAddress (addressText_iff.mp htext).2]
    rfl

theorem parseChecksum_eq_ok {keccak : Hash256} {input : String} {a : Address} :
    Address.parseChecksum keccak input = some (.ok a) ↔
      ∃ digits, AddressText input digits ∧ hexDecode digits = .ok a.bytes ∧
        (AllLower digits ∨ AllUpper digits ∨ digits = eip55 keccak digits) := by
  rw [parseChecksum_eq, Option.some.injEq]
  constructor
  · intro h
    obtain ⟨b, hb, h⟩ := Except.bind_eq_ok.mp h
    obtain ⟨digits, htext, hdecode⟩ := newFromHexString_eq_ok.mp hb
    obtain ⟨hdigits, -⟩ := addressText_iff.mp htext
    rw [← hdigits, checkChecksum_eq_ok hdecode] at h
    obtain ⟨rfl, hcase⟩ := h
    exact ⟨digits, htext, hdecode, hcase⟩
  · intro h
    obtain ⟨digits, htext, hdecode, hcase⟩ := h
    obtain ⟨hdigits, -⟩ := addressText_iff.mp htext
    rw [newFromHexString_eq_ok.mpr ⟨digits, htext, hdecode⟩]
    show Address.checkChecksum keccak input a (Address.removeHexPrefix input) = .ok a
    rw [← hdigits, checkChecksum_eq_ok hdecode]
    exact ⟨rfl, hcase⟩

theorem parseChecksum_string (keccak : Hash256) (a : Address) :
    Address.parseChecksum keccak (a.string keccak) = some (.ok a) := by
  rw [parseChecksum_eq_ok]
  obtain ⟨digits, htext, hdecode⟩ := newFromHexString_eq_ok.mp (a.newFromHexString_string keccak)
  refine ⟨digits, htext, hdecode, .inr (.inr ?_)⟩
  have hprinted := string_eq_eip55 keccak hdecode
  have hpre : Prefixed (a.string keccak) (eip55 keccak digits) := .inl hprinted
  exact (addressText_iff.mp htext).1.trans (removeHexPrefix_of_prefixed hpre)

/-- Addresses are read and printed alike: what is printed is read back, a text is taken without a
panic exactly if it is 40 digits behind a prefix or none, and with the checksum exactly if in
addition its letters are of one case or those of EIP-55. -/
theorem address_texts (keccak : Hash256) :
    (∀ a, Address.parse (a.string keccak) = some (.ok a) ∧
        Address.parseChecksum keccak (a.string keccak) = some (.ok a)) ∧
      Function.Injective (Address.string keccak) ∧
      (∀ input, (Address.parse input).isSome ∧ (Address.parseChecksum keccak input).isSome) ∧
      (∀ input a, Address.parse input = some (.ok a) ↔
        ∃ digits, AddressText input digits ∧ hexDecode digits = .ok a.bytes) ∧
      (∀ input a, Address.parseChecksum keccak input = some (.ok a) ↔
        ∃ digits, AddressText input digits ∧ hexDecode digits = .ok a.bytes ∧
          (AllLower digits ∨ AllUpper digits ∨ digits = eip55 keccak digits)) := by
  refine ⟨?_, Address.string_injective keccak, ?_, ?_, ?_⟩
  · intro a
    rw [parse_eq, a.newFromHexString_string]
    exact ⟨rfl, parseChecksum_string keccak a⟩
  · intro input
    rw [parse_eq, parseChecksum_eq]
    exact ⟨rfl, rfl⟩
  · intro input a
    rw [parse_eq, Option.some.injEq]
    exact newFromHexString_eq_ok
  · intro input a
    exact parseChecksum_eq_ok

end Signare
