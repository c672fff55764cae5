import Signare.Entities.Bytes32
import Signare.Lib.JsonEncode

/-!
# Text and JSON forms

What each hexadecimal entity is written as, and what becomes of it when it is read again. A JSON form
is the text form in quotes. Three of the four types restore every value; the array of 32 bytes is
written without the prefix that all its readers want.
-/

namespace Signare

open ByteCodec

/-- An error of `encoding/json`; without a cause its value is `non-string`. -/
structure UnmarshalTypeError where
  cause : Option SignareError
  type : String

def errorHexEncodingInvalidType (type : String) (err : SignareError) : UnmarshalTypeError :=
  { cause := some err, type }

def errorHexEncodingNonString (type : String) : UnmarshalTypeError := { cause := none, type }

def typeHexBytes : String := "entities.HexBytes"
def typeHexInt256 : String := "*entities.HexInt256"
def typeHexUInt64 : String := "entities.HexUInt64"

def checkString (input : String) : Bool :=
  2 ≤ input.toList.length && input.toList.head? == some '"' && input.toList.getLast? == some '"'

/-- The text between the quotes. -/
def unquoted (input : String) : String := String.ofList input.toList.tail.dropLast

/-- `json.Marshal` of a string. -/
def marshalString (s : String) : String :=
  String.ofList ('"' :: (s.toList.flatMap JsonText.escapeChar ++ ['"']))

/-- What `UnmarshalJSON` does around the reader of the text. -/
def unmarshalString {α : Type} (type : String) (unmarshalText : String → Except SignareError α)
    (input : String) : Except UnmarshalTypeError α :=
  if checkString input then
    (unmarshalText (unquoted input)).mapError (errorHexEncodingInvalidType type)
  else .error (errorHexEncodingNonString type)

namespace HexInt256

def string (i : Int) : String := encode i
def marshalText (i : Int) : String := encode i
def marshalJSON (i : Int) : String := marshalString (encode i)

def unmarshalJSON (size : WordSize) : String → Except UnmarshalTypeError Int :=
  unmarshalString typeHexInt256 (unmarshalText size)

end HexInt256

namespace HexUInt64

def string (b : HexUInt64) : String := encode b
def marshalText (b : HexUInt64) : String := String.ofList ('0' :: 'x' :: natHexDigits b.toNat)
def marshalJSON (b : HexUInt64) : String := marshalString (encode b)

def unmarshalJSON : String → Except UnmarshalTypeError HexUInt64 :=
  unmarshalString typeHexUInt64 unmarshalText

end HexUInt64

namespace HexBytes

def string (b : HexBytes) : String := encode b
def marshalText (b : HexBytes) : String := String.ofList ('0' :: 'x' :: hexEncode b)
def marshalJSON (b : HexBytes) : String := marshalString (encode b)

def unmarshalText (input : String) : Except SignareError HexBytes := do
  let raw ← checkText input true
  (hexDecode raw).mapError fun err => errorHexEncoding (.hex err)

def unmarshalJSON : String → Except UnmarshalTypeError HexBytes :=
  unmarshalString typeHexBytes unmarshalText

end HexBytes

namespace HexBytes32

/-- The bytes before the first zero byte, a character for each: they need not be UTF-8. -/
def string (b : HexBytes32) : String :=
  String.ofList ((b.bytes.takeWhile (· ≠ 0)).map fun byte => Char.ofNat byte.toNat)

/-- There is no prefix. -/
def encode (b : HexBytes32) : String := String.ofList (hexEncode b.bytes)

def marshalJSON (b : HexBytes32) : String := marshalString b.encode

def unmarshalJSON (input : String) : Option (Except UnmarshalTypeError HexBytes32) :=
  if checkString input then
    (unmarshalText (unquoted input)).map fun decoded =>
      decoded.mapError (errorHexEncodingInvalidType typeHexBytes)
  else some (.error (errorHexEncodingNonString typeHexBytes))

end HexBytes32

/-- A value of one of the four types. -/
inductive HexEntity
  | int256 (i : Int) (nonneg : 0 ≤ i) (lt : i < 2 ^ 256)
  | uint64 (b : HexUInt64)
  | bytes (b : HexBytes)
  | bytes32 (b : HexBytes32)

namespace HexEntity

/-- Read again, the JSON form is the value. -/
def RestoresJSON : HexEntity → Prop
  | int256 i _ _ => ∀ size, HexInt256.unmarshalJSON size (HexInt256.marshalJSON i) = .ok i
  | uint64 b => HexUInt64.unmarshalJSON (HexUInt64.marshalJSON b) = .ok b
  | bytes b => HexBytes.unmarshalJSON (HexBytes.marshalJSON b) = .ok b
  | bytes32 b => HexBytes32.unmarshalJSON (HexBytes32.marshalJSON b) = some (.ok b)

/-- Read again, the text form is the value. The array of bytes has none. -/
def RestoresText : HexEntity → Prop
  | int256 i _ _ => ∀ size, HexInt256.unmarshalText size (HexInt256.marshalText i) = .ok i
  | uint64 b => HexUInt64.unmarshalText (HexUInt64.marshalText b) = .ok b
  | bytes b => HexBytes.unmarshalText (HexBytes.marshalText b) = .ok b
  | bytes32 _ => True

/-- The constructor takes the value out of what `Encode` writes. -/
def RestoresEncode : HexEntity → Prop
  | int256 i _ _ => ∀ size, newHexInt256FromString size (HexInt256.encode i) = .ok i
  | uint64 b => newHexUInt64FromString (HexUInt64.encode b) = .ok b
  | bytes b => newHexBytesFromString (HexBytes.encode b) = .ok b
  | bytes32 b => newHexBytes32FromString (HexBytes32.encode b) = .ok b

/-- The constructor takes the value out of what `String` writes. -/
def RestoresString : HexEntity → Prop
  | int256 i _ _ => ∀ size, newHexInt256FromString size (HexInt256.string i) = .ok i
  | uint64 b => newHexUInt64FromString (HexUInt64.string b) = .ok b
  | bytes b => newHexBytesFromString (HexBytes.string b) = .ok b
  | bytes32 b => newHexBytes32FromString (HexBytes32.string b) = .ok b

def IsBytes32 : HexEntity → Prop
  | bytes32 _ => True
  | _ => False

end HexEntity

theorem escapeChar_of_digit {c : Char} (h : (hexValue c).isSome) :
    JsonText.escapeChar c = [c] := by
  have hne (d : Char) (hd : hexValue d = none) : c ≠ d := by
    intro hcd
    rw [hcd, hd] at h
    cases h
  have hrange : 48 ≤ c.toNat := by
    unfold hexValue at h
    split_ifs at h with hdigit hlower hupper
    · exact hdigit.1
    · exact le_trans (by decide) (show 97 ≤ c.toNat from hlower.1)
    · exact le_trans (by decide) (show 65 ≤ c.toNat from hupper.1)
    · cases h
  have hhtml : JsonText.escapesHTML c = false := by
    simp [JsonText.escapesHTML, hne '<' rfl, hne '>' rfl, hne '&' rfl,
      hne (Char.ofNat 0x2028) rfl, hne (Char.ofNat 0x2029) rfl]
  unfold JsonText.escapeChar
  rw [if_neg (not_or.mpr ⟨hne '"' rfl, hne '\\' rfl⟩), if_neg (by omega), if_neg (by omega),
    if_neg (hne '\n' rfl), if_neg (hne '\r' rfl), if_neg (hne '\t' rfl), if_neg]
  rw [hhtml]
  simp only [Bool.false_eq_true, or_false, not_lt]
  omega

theorem flatMap_escapeChar {digits : List Char} (h : AreDigits digits) :
    digits.flatMap JsonText.escapeChar = digits := by
  induction digits with
  | nil => rfl
  | cons c digits ih =>
    rw [AreDigits, List.forall_mem_cons] at h
    rw [List.flatMap_cons, escapeChar_of_digit h.1, ih h.2, List.singleton_append]

theorem unquoted_marshalString {s : String} (h : s.toList.flatMap JsonText.escapeChar = s.toList) :
    checkString (marshalString s) = true ∧ unquoted (marshalString s) = s := by
  have htext : (marshalString s).toList = '"' :: (s.toList ++ ['"']) := by
    rw [marshalString, h, String.toList_ofList]
  constructor
  · rw [checkString, htext, List.head?_cons, List.getLast?_cons, List.getLast?_append]
    simp
  · rw [unquoted, htext, List.tail_cons, List.dropLast_concat, String.ofList_toList]

theorem unmarshalString_marshalString {α : Type} {type : String}
    {unmarshalText : String → Except SignareError α} {digits : List Char} {a : α}
    (h : AreDigits digits)
    (htext : unmarshalText (String.ofList ('0' :: 'x' :: digits)) = .ok a) :
    unmarshalString type unmarshalText (marshalString (String.ofList ('0' :: 'x' :: digits))) =
      .ok a := by
  have hplain : (String.ofList ('0' :: 'x' :: digits)).toList.flatMap JsonText.escapeChar =
      (String.ofList ('0' :: 'x' :: digits)).toList := by
    rw [String.toList_ofList, List.flatMap_cons, List.flatMap_cons, flatMap_escapeChar h]
    rfl
  obtain ⟨hcheck, hunquoted⟩ := unquoted_marshalString hplain
  rw [unmarshalString, if_pos hcheck, hunquoted, htext]
  rfl

theorem areDigits_natHexDigits (n : Nat) : AreDigits (natHexDigits n) :=
  isSome_hexValue_of_readDigits (readDigits_natHexDigits n)

theorem hexNumber_natHexDigits {width n : Nat} (hwidth : 0 < width) (h : n < 16 ^ width) :
    HexNumber width (String.ofList ('0' :: 'x' :: natHexDigits n)) n := by
  have hne : natHexDigits n ≠ [] := by
    intro hnil
    have hread := readDigits_natHexDigits n
    rw [hnil] at hread
    cases hread
    cases hnil
  refine ⟨natHexDigits n, .inl (String.toList_ofList ..), ?_, head?_natHexDigits, ?_⟩
  · exact length_le_of_lt hne head?_natHexDigits hwidth (readDigits_natHexDigits n) h
  · rw [← readNumeral_eq_some, readNumeral, if_neg hne]
    exact readDigits_natHexDigits n

theorem HexInt256.encode_of_nonneg {i : Int} (h : 0 ≤ i) :
    HexInt256.encode i = String.ofList ('0' :: 'x' :: natHexDigits i.toNat) := by
  unfold HexInt256.encode
  by_cases hzero : i = 0
  · subst hzero
    rfl
  · rw [if_neg hzero, if_neg (by omega)]

theorem ofList_prefixed_ne_empty (digits : List Char) :
    String.ofList ('0' :: 'x' :: digits) ≠ "" := by
  intro h
  have hlist := congrArg String.toList h
  rw [String.toList_ofList] at hlist
  cases hlist

section Numbers

variable {i : Int}

theorem newHexInt256FromString_encode (size : WordSize) (h : 0 ≤ i) (hlt : i < 2 ^ 256) :
    newHexInt256FromString size (HexInt256.encode i) = .ok i := by
  have hbound : i.toNat < 16 ^ 64 := by
    have hpow : (2 : Int) ^ 256 = ((16 ^ 64 : Nat) : Int) := by norm_num
    omega
  rw [HexInt256.encode_of_nonneg h, newHexInt256FromString_eq_ok]
  exact ⟨i.toNat, hexNumber_natHexDigits (by decide) hbound, (Int.toNat_of_nonneg h).symm⟩

theorem HexInt256.unmarshalText_encode (size : WordSize) (h : 0 ≤ i) (hlt : i < 2 ^ 256) :
    HexInt256.unmarshalText size (HexInt256.encode i) = .ok i := by
  have hread := newHexInt256FromString_encode size h hlt
  rw [HexInt256.encode_of_nonneg h] at hread ⊢
  rw [HexInt256.unmarshalText_eq size (ofList_prefixed_ne_empty _), hread]

theorem HexInt256.unmarshalJSON_marshalJSON (size : WordSize) (h : 0 ≤ i) (hlt : i < 2 ^ 256) :
    HexInt256.unmarshalJSON size (HexInt256.marshalJSON i) = .ok i := by
  have htext := HexInt256.unmarshalText_encode size h hlt
  unfold HexInt256.unmarshalJSON HexInt256.marshalJSON
  rw [HexInt256.encode_of_nonneg h] at htext ⊢
  exact unmarshalString_marshalString (areDigits_natHexDigits _) htext

end Numbers

theorem hexNumber_encode (b : HexUInt64) : HexNumber 16 (HexUInt64.encode b) b.toNat :=
  hexNumber_natHexDigits (by decide) b.toNat_lt

theorem newHexUInt64FromString_encode (b : HexUInt64) :
    newHexUInt64FromString (HexUInt64.encode b) = .ok b :=
  newHexUInt64FromString_eq_ok.mpr (hexNumber_encode b)

theorem HexUInt64.unmarshalText_encode (b : HexUInt64) :
    HexUInt64.unmarshalText (HexUInt64.encode b) = .ok b :=
  (HexUInt64.unmarshalText_eq_ok (ofList_prefixed_ne_empty _)).mpr (hexNumber_encode b)

theorem areDigits_hexEncode (b : Bytes) : AreDigits (hexEncode b) :=
  isSome_of_hexDecode (hexDecode_hexEncode b)

theorem HexBytes.unmarshalText_encode (b : HexBytes) :
    HexBytes.unmarshalText (HexBytes.encode b) = .ok b := by
  have hcheck : checkText (HexBytes.encode b) true = .ok (hexEncode b) := by
    apply (checkText_eq_ok (ofList_prefixed_ne_empty _)).mpr
    refine ⟨.inl (String.toList_ofList ..), ?_⟩
    rw [byteLength_of_digits (areDigits_hexEncode b), length_hexEncode]
    omega
  rw [HexBytes.unmarshalText, hcheck, Except.ok_bind, hexDecode_hexEncode]
  rfl

namespace HexBytes32

theorem encode_toList (b : HexBytes32) : b.encode.toList = hexEncode b.bytes :=
  String.toList_ofList ..

theorem hexEncode_ne_nil (b : HexBytes32) : hexEncode b.bytes ≠ [] := by
  intro hnil
  have hlength := length_hexEncode b.bytes
  rw [hnil, b.length_bytes] at hlength
  cases hlength

theorem unmarshalText_encode (b : HexBytes32) :
    unmarshalText b.encode = some (.error errorHexEncodingMissingPrefix) := by
  have hcheck : checkText b.encode true = .error errorHexEncodingMissingPrefix := by
    rw [checkText, encode_toList, if_neg b.hexEncode_ne_nil, if_pos]
    rw [(areDigits_hexEncode b.bytes).checkPrefix]
    decide
  rw [unmarshalText, hcheck]

theorem unmarshalJSON_marshalJSON (b : HexBytes32) : unmarshalJSON b.marshalJSON =
    some (.error (errorHexEncodingInvalidType typeHexBytes errorHexEncodingMissingPrefix)) := by
  have hplain : b.encode.toList.flatMap JsonText.escapeChar = b.encode.toList := by
    rw [encode_toList, flatMap_escapeChar (areDigits_hexEncode b.bytes)]
  obtain ⟨hcheck, hunquoted⟩ := unquoted_marshalString hplain
  rw [unmarshalJSON, marshalJSON, if_pos hcheck, hunquoted, unmarshalText_encode]
  rfl

theorem newHexBytes32FromString_encode (b : HexBytes32) :
    newHexBytes32FromString b.encode = .error errorHexEncodingMissingPrefix := by
  rw [newHexBytes32FromString, encode_toList, if_neg b.hexEncode_ne_nil, if_pos]
  rw [(areDigits_hexEncode b.bytes).checkPrefix]
  decide

theorem length_takeWhile_le (bs rest : Bytes) :
    ((bs ++ 0 :: rest).takeWhile (· ≠ 0)).length ≤ bs.length := by
  induction bs with
  | nil => simp
  | cons b bs ih =>
    rw [List.cons_append, List.takeWhile_cons]
    split
    · exact Nat.succ_le_succ ih
    · exact Nat.zero_le _

theorem newHexBytes32FromString_string (b : HexBytes32) :
    newHexBytes32FromString b.string ≠ .ok b := by
  intro h
  obtain ⟨digits, bs, hpre, hdecode, hb⟩ := newHexBytes32FromString_eq_ok.mp h
  have htext : b.string.toList.length = digits.length + 2 := by
    rcases hpre with hpre | hpre <;> rw [hpre] <;> rfl
  have hdigits := length_of_hexDecode hdecode
  have hstring : b.string.toList.length = (b.bytes.takeWhile (· ≠ 0)).length := by
    rw [string, String.toList_ofList, List.length_map]
  have hwhole : (b.bytes.takeWhile (· ≠ 0)).length ≤ 32 := by
    rw [← b.length_bytes]
    exact (List.takeWhile_prefix _).length_le
  -- at most 15 bytes were decoded, and the next one is zero
  have hpad : ∃ rest, b.bytes = bs ++ 0 :: rest := by
    have hroom : 32 - bs.length = (31 - bs.length) + 1 := by omega
    refine ⟨List.replicate (31 - bs.length) 0, ?_⟩
    rw [hb]
    show rightPad 32 bs = _
    rw [rightPad, List.take_of_length_le (by omega), hroom, List.replicate_succ]
  obtain ⟨rest, hrest⟩ := hpad
  have hshort := length_takeWhile_le bs rest
  rw [← hrest] at hshort
  omega

end HexBytes32

/-- The text form restores every value; the other forms restore it exactly if it is not an array of
32 bytes. -/
theorem codecs_inverse_iff (x : HexEntity) :
    (x.RestoresJSON ↔ ¬ x.IsBytes32) ∧ x.RestoresText ∧ (x.RestoresEncode ↔ ¬ x.IsBytes32) ∧
      (x.RestoresString ↔ ¬ x.IsBytes32) := by
  cases x with
  | int256 i nonneg lt =>
    refine ⟨iff_of_true ?_ id, ?_, iff_of_true ?_ id, iff_of_true ?_ id⟩
    · intro size
      exact HexInt256.unmarshalJSON_marshalJSON size nonneg lt
    · intro size
      exact HexInt256.unmarshalText_encode size nonneg lt
    · intro size
      exact newHexInt256FromString_encode size nonneg lt
    · intro size
      exact newHexInt256FromString_encode size nonneg lt
  | uint64 b =>
    refine ⟨iff_of_true ?_ id, ?_, iff_of_true ?_ id, iff_of_true ?_ id⟩
    · exact unmarshalString_marshalString (areDigits_natHexDigits _)
        (HexUInt64.unmarshalText_encode b)
    · exact HexUInt64.unmarshalText_encode b
    · exact newHexUInt64FromString_encode b
    · exact newHexUInt64FromString_encode b
  | bytes b =>
    refine ⟨iff_of_true ?_ id, ?_, iff_of_true ?_ id, iff_of_true ?_ id⟩
    · exact unmarshalString_marshalString (areDigits_hexEncode b) (HexBytes.unmarshalText_encode b)
    · exact HexBytes.unmarshalText_encode b
    · exact newHexBytesFromString_bytes b
    · exact newHexBytesFromString_bytes b
  | bytes32 b =>
    refine ⟨iff_of_false ?_ (not_not.mpr trivial), trivial,
      iff_of_false ?_ (not_not.mpr trivial), iff_of_false ?_ (not_not.mpr trivial)⟩
    · intro h
      rw [HexEntity.RestoresJSON, HexBytes32.unmarshalJSON_marshalJSON] at h
      cases h
    · intro h
      rw [HexEntity.RestoresEncode, HexBytes32.newHexBytes32FromString_encode] at h
      cases h
    · exact HexBytes32.newHexBytes32FromString_string b

/-- The zero array is written in JSON as 64 digits and refused when it is read. -/
theorem codecs_not_inverse_zero : ¬ (HexEntity.bytes32 (.fromBytes [])).RestoresJSON ∧
    ¬ (HexEntity.bytes32 (.fromBytes [])).RestoresEncode := by
  constructor
  · intro h
    rw [HexEntity.RestoresJSON, HexBytes32.unmarshalJSON_marshalJSON] at h
    cases h
  · intro h
    rw [HexEntity.RestoresEncode, HexBytes32.newHexBytes32FromString_encode] at h
    cases h

end Signare
