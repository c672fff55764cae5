import Signare.Entities.EncodingTypes
import Signare.Lib.Keccak

/-!
# Addresses

Addresses are parsed from hexadecimal text and printed with the letter case of EIP-55. The case
carries a checksum only: the printed digits still denote the address's bytes.
-/

namespace Signare

open ByteCodec

def addressLength : Nat := 20

/-- A byte string of exactly 20 bytes. -/
structure Address where
  bytes : Bytes
  length_bytes : bytes.length = addressLength
  deriving DecidableEq

namespace Address

def zeroAddress : Address := ⟨List.replicate addressLength 0, rfl⟩

/-- `copy` into a zeroed array of 20 bytes. -/
def copyFrom (src : Bytes) : Address :=
  ⟨rightPad addressLength src, length_rightPad addressLength src⟩

def isEmpty (a : Address) : Bool := a = zeroAddress

def isHexCharacter (c : Char) : Bool :=
  ('0' ≤ c && c ≤ '9') || ('a' ≤ c && c ≤ 'f') || ('A' ≤ c && c ≤ 'F')

def isHex (str : List Char) : Bool := str.length % 2 == 0 && str.all isHexCharacter

/-- A text of hexadecimal digits has as many bytes as characters. -/
def isHexAddress (address : String) : Bool :=
  let s :=
    if checkPrefixFromString address.toList then address.toList.drop 2 else address.toList
  s.length == 2 * addressLength && isHex s

/-- Only reached with a valid address, so the first two bytes are there. -/
def removeHexPrefix (address : String) : List Char :=
  if checkPrefixFromString address.toList then address.toList.drop 2 else address.toList

def newFromHexString (address : String) : Except SignareError Address :=
  if ¬ isHexAddress address then
    .error (invalidArgumentReadable ("invalid address: '" ++ address ++ "'"))
  else
    match hexDecode (removeHexPrefix address) with
    | .error err => .error (.hex err)
    | .ok bytesAddress => .ok (copyFrom bytesAddress)

/-- One hexadecimal digit of a hash. -/
def hashNibble (hash : Bytes) (i : Nat) : Nat :=
  let hashByte := (hash.getD (i / 2) 0).toNat
  if i % 2 = 0 then hashByte / 16 else hashByte % 16

def checksumCharacter (c : Char) (nibble : Nat) : Char :=
  if '9' < c ∧ 7 < nibble then Char.ofNat (c.toNat - 32) else c

/-- The digits of `prefixedHex`, as the bytes of their characters. -/
def hexDigitBytes (a : Address) : Bytes := (hexEncode a.bytes).map fun c => UInt8.ofNat c.toNat

def string (keccak : Hash256) (a : Address) : String :=
  let hash := keccak.sum a.hexDigitBytes
  String.ofList ('0' :: 'x' ::
    (hexEncode a.bytes).mapIdx fun i c => checksumCharacter c (hashNibble hash i))

theorem hexValue_checksumCharacter {n : Nat} (h : n < 16) (nibble : Nat) :
    hexValue (checksumCharacter (hexDigit n) nibble) = hexValue (hexDigit n) := by
  unfold checksumCharacter
  split
  · next hc =>
    have hletter := hc.1
    revert hletter
    clear hc
    revert n
    decide
  · rfl

theorem hexEncode_digits (bs : Bytes) :
    ∀ c ∈ hexEncode bs, ∃ n < 16, c = hexDigit n := by
  induction bs with
  | nil => simp [hexEncode]
  | cons b bs ih =>
    have hb : b.toNat < 256 := b.toNat_lt
    intro c hc
    simp only [hexEncode, List.mem_cons] at hc
    rcases hc with rfl | rfl | hc
    · exact ⟨_, by omega, rfl⟩
    · exact ⟨_, by omega, rfl⟩
    · exact ih c hc

private theorem forall₂_mapIdx {r : Char → Char → Prop} {cs : List Char} {f : Nat → Char → Char}
    (h : ∀ c ∈ cs, ∀ i, r (f i c) c) : List.Forall₂ r (cs.mapIdx f) cs := by
  induction cs generalizing f with
  | nil => exact .nil
  | cons c cs ih =>
    rw [List.mapIdx_cons]
    exact .cons (h c (by simp) 0) (ih fun d hd i => h d (by simp [hd]) (i + 1))

/-- The printed form, parsed as bytes, is the address. -/
theorem newHexBytesFromString_string (keccak : Hash256) (a : Address) :
    newHexBytesFromString (a.string keccak) = .ok a.bytes := by
  refine newHexBytesFromString_ofList ?_
  rw [← hexDecode_hexEncode a.bytes]
  refine hexDecode_congr (forall₂_mapIdx fun c hc i => ?_)
  obtain ⟨n, hn, rfl⟩ := hexEncode_digits a.bytes c hc
  exact hexValue_checksumCharacter hn _

theorem isHexCharacter_checksumCharacter {n : Nat} (h : n < 16) (nibble : Nat) :
    isHexCharacter (checksumCharacter (hexDigit n) nibble) = true := by
  unfold checksumCharacter
  split
  · next hc =>
    have hletter := hc.1
    revert hletter
    clear hc
    revert n
    decide
  · next hc =>
    clear hc
    revert n
    decide

theorem copyFrom_bytes (a : Address) : copyFrom a.bytes = a := by
  have hpad : rightPad addressLength a.bytes = a.bytes := by
    simp [rightPad, a.length_bytes, List.take_of_length_le]
  cases a
  simp only [copyFrom, hpad]

/-- The printed form is read back. -/
theorem newFromHexString_string (keccak : Hash256) (a : Address) :
    newFromHexString (a.string keccak) = .ok a := by
  let digits := (hexEncode a.bytes).mapIdx fun i c =>
    checksumCharacter c (hashNibble (keccak.sum a.hexDigitBytes) i)
  have htext : (a.string keccak).toList = '0' :: 'x' :: digits := by simp [string, digits]
  have hlength : digits.length = 2 * addressLength := by simp [digits, a.length_bytes]
  have hdigits : digits.all isHexCharacter = true := by
    rw [List.all_eq_true]
    intro c hc
    rw [List.mem_mapIdx] at hc
    obtain ⟨i, hi, rfl⟩ := hc
    obtain ⟨n, hn, heq⟩ := hexEncode_digits a.bytes _ (List.getElem_mem hi)
    rw [heq]
    exact isHexCharacter_checksumCharacter hn _
  have hvalid : isHexAddress (a.string keccak) = true := by
    simp [isHexAddress, isHex, htext, checkPrefixFromString, hlength, hdigits]
  have hprefix : removeHexPrefix (a.string keccak) = digits := by
    simp [removeHexPrefix, htext, checkPrefixFromString]
  have hdecode : hexDecode digits = .ok a.bytes := by
    rw [← hexDecode_hexEncode a.bytes]
    apply hexDecode_congr
    apply forall₂_mapIdx
    intro c hc i
    obtain ⟨n, hn, rfl⟩ := hexEncode_digits a.bytes c hc
    exact hexValue_checksumCharacter hn _
  simp only [newFromHexString, hvalid, hprefix, hdecode, not_true_eq_false, if_false,
    copyFrom_bytes]

theorem string_injective (keccak : Hash256) : Function.Injective (string keccak) := by
  intro a b h
  have ha := newFromHexString_string keccak a
  rw [h, newFromHexString_string keccak b] at ha
  exact (Except.ok.inj ha).symm

end Address

private theorem length_zeros (_ : Bytes) :
    (List.replicate 32 0 : Bytes).length = 32 :=
  List.length_replicate

/-- Keccak is not looked at where the digits of an address have no letters. -/
def zeroHash : Hash256 := ⟨fun _ => List.replicate 32 0, length_zeros⟩

/-- The address whose digits are all one. -/
def onesAddress : Address := ⟨List.replicate 20 0x11, rfl⟩

end Signare
