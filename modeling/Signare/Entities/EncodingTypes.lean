import Signare.Commons.Errors
import Signare.Lib.Numeral

/-!
# Hexadecimal entities

Numbers and byte strings with a `0x` text form. A `HexInt256` is an integer: only its parser bounds
it to 256 bits. Printing a number with an even count of digits and parsing the text as bytes gives
the number's minimal big-endian bytes, except that zero gives one zero byte.
-/

namespace Signare

open ByteCodec

/-- A 64-bit number with a hexadecimal text form. -/
abbrev HexUInt64 := UInt64

abbrev HexBytes := Bytes

/-- A byte string of exactly 32 bytes. -/
structure HexBytes32 where
  bytes : Bytes
  length_bytes : bytes.length = 32
  deriving DecidableEq

def errorHexEncodingEmptyString : SignareError := invalidArgument "hex: empty string"
def errorHexEncodingSyntax : SignareError := invalidArgument "hex: invalid hex string"
def errorHexEncodingMissingPrefix : SignareError :=
  invalidArgument "hex: string without 0x prefix"
def errorHexEncodingOddLength : SignareError := invalidArgument "hex: string of odd length"
def errorHexEncodingEmptyNumber : SignareError := invalidArgument "hex: string 0x"
def errorHexEncodingLeadingZero : SignareError :=
  invalidArgument "hex: number with leading zero digits"
def errorHexEncodingUint64Range : SignareError := invalidArgument "hex: number > 64 bits"
def errorHexEncodingInt256Range : SignareError := invalidArgument "hex: number > 256-bits"

def errorHexEncoding : SignareError → SignareError
  | .num .range => errorHexEncodingUint64Range
  | .num .badSyntax => errorHexEncodingSyntax
  | .hex .invalidByte => errorHexEncodingSyntax
  | .hex .oddLength => errorHexEncodingOddLength
  | err => err

def checkPrefixFromString : List Char → Bool
  | '0' :: 'x' :: _ => true
  | '0' :: 'X' :: _ => true
  | _ => false

def checkNumber (input : String) : Except SignareError (List Char) :=
  if input.toList = [] then .error errorHexEncodingEmptyString
  else if ¬ checkPrefixFromString input.toList then .error errorHexEncodingMissingPrefix
  else
    match input.toList.drop 2 with
    | [] => .error errorHexEncodingEmptyNumber
    | '0' :: _ :: _ => .error errorHexEncodingLeadingZero
    | raw => .ok raw

/-- `strconv.ParseUint` in base 16 for 64 bits. -/
def parseUint (n : Nat) : List Char → Except SignareError Nat
  | [] => .ok n
  | c :: cs =>
    match hexValue c with
    | none => .error (.num .badSyntax)
    | some d => if 2 ^ 60 ≤ n then .error (.num .range) else parseUint (16 * n + d) cs

def newHexUInt64FromString (input : String) : Except SignareError HexUInt64 := do
  let raw ← checkNumber input
  match parseUint 0 raw with
  | .error err => .error (errorHexEncoding err)
  | .ok decoded => .ok (UInt64.ofNat decoded)

/-- The size of a machine word, as the platform has it. -/
inductive WordSize
  | bits32
  | bits64
  deriving DecidableEq

namespace WordSize

/-- Hexadecimal digits in a machine word. -/
def bigWordNibbles : WordSize → Nat
  | .bits32 => 8
  | .bits64 => 16

/-- Arithmetic on machine words is modulo this. -/
def modulus (size : WordSize) : Nat := 16 ^ size.bigWordNibbles

end WordSize

/-- The inner loop: the digits of one word, in the arithmetic of words. -/
def readWord (size : WordSize) (word : Nat) : List Char → Except SignareError Nat
  | [] => .ok word
  | c :: cs =>
    match hexValue c with
    | none => .error errorHexEncodingSyntax
    | some nib => readWord size ((word * 16 % size.modulus + nib) % size.modulus) cs

/-- The outer loop: words are cut off the end, least significant first. -/
def readWords (size : WordSize) : Nat → List Char → Except SignareError (List Nat)
  | 0, _ => .ok []
  | count + 1, raw => do
    let start := raw.length - size.bigWordNibbles
    let word ← readWord size 0 (raw.drop start)
    let words ← readWords size count (raw.take start)
    return word :: words

/-- `big.Int.SetBits`. -/
def setBits (size : WordSize) : List Nat → Nat
  | [] => 0
  | word :: words => word + size.modulus * setBits size words

/-- What `NewHexInt256FromString` and `HexInt256.UnmarshalText` do with the digits. -/
def decodeHexInt256 (size : WordSize) (raw : List Char) : Except SignareError Int :=
  if 64 < byteLength raw then .error errorHexEncodingInt256Range
  else do
    let words ← readWords size (byteLength raw / size.bigWordNibbles + 1) raw
    return setBits size words

def newHexInt256FromString (size : WordSize) (input : String) : Except SignareError Int := do
  let raw ← checkNumber input
  decodeHexInt256 size raw

/-- A negative integer prints its sign before the prefix. -/
def HexInt256.encode (i : Int) : String :=
  if i = 0 then "0x0"
  else if i < 0 then String.ofList ('-' :: '0' :: 'x' :: natHexDigits i.natAbs)
  else String.ofList ('0' :: 'x' :: natHexDigits i.toNat)

def HexUInt64.encode (b : HexUInt64) : String := String.ofList ('0' :: 'x' :: natHexDigits b.toNat)

def HexBytes.encode (b : HexBytes) : String := String.ofList ('0' :: 'x' :: hexEncode b)

def newHexBytesFromString (input : String) : Except SignareError HexBytes :=
  if input.toList = [] then .error errorHexEncodingEmptyString
  else
    let digits := if checkPrefixFromString input.toList then input.toList.drop 2 else input.toList
    match hexDecode digits with
    | .error err => .error (errorHexEncoding (.hex err))
    | .ok b => .ok b

/-- `copy` into a zeroed array of 32 bytes. -/
def HexBytes32.fromBytes (src : Bytes) : HexBytes32 :=
  ⟨rightPad 32 src, length_rightPad 32 src⟩

def newHexBytes32FromString (input : String) : Except SignareError HexBytes32 :=
  if input.toList = [] then .error errorHexEncodingEmptyString
  else if ¬ checkPrefixFromString input.toList then .error errorHexEncodingMissingPrefix
  else
    match hexDecode (input.toList.drop 2) with
    | .error err => .error (errorHexEncoding (.hex err))
    | .ok b => .ok (.fromBytes b)

def hexStringEvenLength (input : String) : String :=
  if input.toList.length % 2 ≠ 0 then String.ofList ('0' :: 'x' :: '0' :: input.toList.drop 2)
  else input

/-- Text with the prefix and digits that decode. -/
theorem newHexBytesFromString_ofList {cs : List Char} {bs : Bytes} (h : hexDecode cs = .ok bs) :
    newHexBytesFromString (String.ofList ('0' :: 'x' :: cs)) = .ok bs := by
  simp [newHexBytesFromString, checkPrefixFromString, h]

theorem hexStringEvenLength_ofList (n : Nat) :
    hexStringEvenLength (String.ofList ('0' :: 'x' :: natHexDigits n)) =
      String.ofList ('0' :: 'x' :: evenHexDigits n) := by
  unfold hexStringEvenLength evenHexDigits
  simp only [String.toList_ofList, List.length_cons, List.drop_succ_cons, List.drop_zero]
  by_cases h : (natHexDigits n).length % 2 = 0
  · rw [if_pos h, if_neg (by omega)]
  · rw [if_neg h, if_pos (by omega)]

/-- The bytes an evened number is parsed to. -/
def evenBytes (n : Nat) : Bytes := if n = 0 then [0] else beBytes n

theorem beNat_evenBytes (n : Nat) : beNat (evenBytes n) = n := by
  unfold evenBytes
  split
  · next h => rw [h]; rfl
  · exact beNat_beBytes n

theorem evenBytes_injective : Function.Injective evenBytes := by
  intro m n h
  rw [← beNat_evenBytes m, h, beNat_evenBytes]

theorem evenBytes_of_ne {n : Nat} (h : n ≠ 0) : evenBytes n = beBytes n := if_neg h

private theorem newHexBytesFromString_even (n : Nat) :
    newHexBytesFromString
      (hexStringEvenLength (String.ofList ('0' :: 'x' :: natHexDigits n))) =
        .ok (evenBytes n) := by
  rw [hexStringEvenLength_ofList]
  exact newHexBytesFromString_ofList (hexDecode_evenHexDigits n)

theorem newHexBytesFromString_uint64 (b : HexUInt64) :
    newHexBytesFromString (hexStringEvenLength b.encode) = .ok (evenBytes b.toNat) :=
  newHexBytesFromString_even b.toNat

theorem newHexBytesFromString_int256 {i : Int} (h : 0 ≤ i) :
    newHexBytesFromString (hexStringEvenLength (HexInt256.encode i)) = .ok (evenBytes i.toNat) := by
  unfold HexInt256.encode
  by_cases hi : i = 0
  · subst hi
    exact newHexBytesFromString_even 0
  · rw [if_neg hi, if_neg (by omega)]
    exact newHexBytesFromString_even i.toNat

theorem newHexBytesFromString_bytes (b : HexBytes) :
    newHexBytesFromString b.encode = .ok b :=
  newHexBytesFromString_ofList (hexDecode_hexEncode b)

theorem HexBytes.encode_injective : Function.Injective HexBytes.encode := by
  intro b b' h
  have hb := newHexBytesFromString_bytes b
  rw [h, newHexBytesFromString_bytes] at hb
  exact (Except.ok.inj hb).symm

private theorem newHexBytesFromString_sign (cs : List Char) :
    newHexBytesFromString (String.ofList ('-' :: '0' :: cs)) = .error errorHexEncodingSyntax := by
  have h : hexDecode ('-' :: '0' :: cs) = .error .invalidByte := rfl
  simp [newHexBytesFromString, checkPrefixFromString, h, errorHexEncoding]

/-- A negative integer has no bytes, whichever parity its text has. -/
theorem newHexBytesFromString_neg {i : Int} (h : i < 0) :
    newHexBytesFromString (hexStringEvenLength (HexInt256.encode i)) =
      .error errorHexEncodingSyntax := by
  rw [HexInt256.encode, if_neg (by omega), if_pos h]
  unfold hexStringEvenLength
  split
  · have hx : ∀ cs, hexDecode ('0' :: 'x' :: cs) = .error .invalidByte := fun _ => rfl
    simp [newHexBytesFromString, checkPrefixFromString, hx, errorHexEncoding]
  · exact newHexBytesFromString_sign _

/-- An integer: only its parser bounds it to 256 bits. -/
abbrev Int256 := Int

def newInt256FromString (s : String) : Except SignareError Int256 :=
  if s.toList = [] then .ok 0
  else
    let bigInt := if checkPrefixFromString s.toList then readSigned 16 (s.toList.drop 2)
      else readSigned 10 s.toList
    match bigInt with
    | none => .error (invalidArgument ("the provided string [" ++ s ++ "] is not a valid number"))
    | some i =>
      if 2 ^ 256 ≤ i.natAbs then
        .error (invalidArgument ("the provided number [" ++ s ++ "] length is more than 256-bits"))
      else .ok i

/-- The bytes of a Go string. -/
def utf8 (s : String) : Bytes := s.toUTF8.data.toList

theorem utf8_injective : Function.Injective utf8 := by
  intro s s' h
  have hdata : s.toUTF8.data = s'.toUTF8.data := Array.toList_inj.mp h
  have hbytes : s.toUTF8 = s'.toUTF8 := by
    cases hs : s.toUTF8
    cases hs' : s'.toUTF8
    rw [hs, hs'] at hdata
    cases hdata
    rfl
  exact String.toByteArray_inj.mp hbytes

end Signare
