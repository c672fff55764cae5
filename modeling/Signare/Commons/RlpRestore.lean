import Signare.Commons.RlpDeserialize

/-!
# Structs that are encoded and deserialized

A struct is encoded as the list of its fields. What comes back is the struct itself as long as
every `uint` fits in a byte that is not zero, and no nested struct has a string slice.
-/

namespace Signare

open ByteCodec RlpItem

mutual
def FieldValue.targetType : FieldValue → FieldType
  | .string _ => .string
  | .bytes _ => .bytes
  | .strings _ => .strings
  | .uint _ => .uint
  | .struct fields => .struct (targetTypes fields)
  | .untouched => .otherSlice
termination_by structural value => value

def FieldValue.targetTypes : List FieldValue → List FieldType
  | [] => []
  | value :: values => value.targetType :: targetTypes values
termination_by structural values => values
end

mutual
/-- The zero value of a type. -/
def FieldType.zero : FieldType → FieldValue
  | .string => .string []
  | .bytes => .bytes []
  | .strings => .strings []
  | .uint => .uint 0
  | .definedString => .string []
  | .definedBytes => .bytes []
  | .definedStrings => .strings []
  | .definedUint => .uint 0
  | .struct fields => .struct (zeros fields)
  | .otherSlice => .untouched
  | .other => .untouched
  | .unexported _ => .untouched
termination_by structural targetType => targetType

def FieldType.zeros : List FieldType → List FieldValue
  | [] => []
  | targetType :: types => targetType.zero :: zeros types
termination_by structural types => types
end

mutual
/-- A struct is passed to the encoder as the list of its fields. -/
def FieldValue.toInput : FieldValue → RlpInput
  | .string value => .string value
  | .bytes value => .bytes value
  | .strings value => .stringArray value
  | .uint value => .uint value
  | .struct fields => .list (toInputs fields)
  | .untouched => .unhandled
termination_by structural value => value

def FieldValue.toInputs : List FieldValue → List RlpInput
  | [] => []
  | value :: values => value.toInput :: toInputs values
termination_by structural values => values
end

mutual
/-- Only strings, byte slices, string slices, uints and structs of these. -/
def FieldValue.plain : FieldValue → Bool
  | .struct fields => allPlain fields
  | .untouched => false
  | _ => true
termination_by structural value => value

def FieldValue.allPlain : List FieldValue → Bool
  | [] => true
  | value :: values => value.plain && allPlain values
termination_by structural values => values
end

mutual
def FieldValue.isZero : FieldValue → Bool
  | .string value => value.isEmpty
  | .bytes value => value.isEmpty
  | .strings value => value.isEmpty
  | .uint value => value == 0
  | .struct fields => allZero fields
  | .untouched => true
termination_by structural value => value

def FieldValue.allZero : List FieldValue → Bool
  | [] => true
  | value :: values => value.isZero && allZero values
termination_by structural values => values
end

mutual
/-- `nestedDeserialize` restores the value. -/
def FieldValue.kept : FieldValue → Bool
  | .string _ => true
  | .bytes _ => true
  | .strings _ => false
  | .uint value => decide (1 ≤ value.toNat ∧ value.toNat ≤ 255)
  | .struct fields => allKept fields
  | .untouched => false
termination_by structural value => value

def FieldValue.allKept : List FieldValue → Bool
  | [] => true
  | value :: values => value.kept && allKept values
termination_by structural values => values
end

mutual
/-- `nestedDeserialize` stops at a string slice in the value, and the rest is zero anyway. -/
def FieldValue.stopped : FieldValue → Bool
  | .strings value => value.isEmpty
  | .struct fields => stoppedAmong fields
  | _ => false
termination_by structural value => value

def FieldValue.stoppedAmong : List FieldValue → Bool
  | [] => false
  | value :: values =>
    (value.kept && stoppedAmong values) || (value.stopped && allZero values)
termination_by structural values => values
end

/-- `DecodeAndDeserialize` restores the value of a field. -/
def FieldValue.restored : FieldValue → Bool
  | .uint value => decide (1 ≤ value.toNat ∧ value.toNat ≤ 255)
  | .struct fields => allKept fields || stoppedAmong fields
  | _ => true

mutual
theorem zero_eq_iff : ∀ value : FieldValue, value.plain = true →
    (value.targetType.zero = value ↔ value.isZero = true)
  | .string value, _ => by cases value <;> simp [FieldValue.targetType, FieldType.zero, FieldValue.isZero]
  | .bytes value, _ => by cases value <;> simp [FieldValue.targetType, FieldType.zero, FieldValue.isZero]
  | .strings value, _ => by
    cases value <;> simp [FieldValue.targetType, FieldType.zero, FieldValue.isZero]
  | .uint value, _ => by
    simp only [FieldValue.targetType, FieldType.zero, FieldValue.isZero, FieldValue.uint.injEq,
      beq_iff_eq]
    exact eq_comm
  | .struct fields, h => by
    simp only [FieldValue.targetType, FieldType.zero, FieldValue.isZero, FieldValue.struct.injEq]
    exact zeros_eq_iff fields h
  | .untouched, h => by cases h

theorem zeros_eq_iff : ∀ values : List FieldValue, FieldValue.allPlain values = true →
    (FieldType.zeros (FieldValue.targetTypes values) = values ↔ FieldValue.allZero values = true)
  | [], _ => by simp [FieldValue.targetTypes, FieldType.zeros, FieldValue.allZero]
  | value :: values, h => by
    rw [FieldValue.allPlain, Bool.and_eq_true] at h
    rw [FieldValue.targetTypes, FieldType.zeros, FieldValue.allZero, List.cons.injEq,
      zero_eq_iff value h.1, zeros_eq_iff values h.2, Bool.and_eq_true]
end

theorem setScalar_uint (n : UInt64) (field : FieldValue) :
    (setScalar .uint (.num n.toNat) field = (.uint n, none) ↔
      1 ≤ n.toNat ∧ n.toNat ≤ 255) ∧
    ∀ err, (setScalar .uint (.num n.toNat) field).2 = some err → err.isPanic = true := by
  rw [RlpItem.num]
  have hvalue := beNat_beBytes n.toNat
  have hshort := @length_beBytes_le_iff n.toNat 1
  cases hbytes : beBytes n.toNat with
  | nil =>
    rw [beBytes_eq_nil] at hbytes
    rw [hbytes]
    refine ⟨⟨fun h => ?_, fun h => by omega⟩, fun err h => ?_⟩
    · cases (Prod.ext_iff.mp h).2
    · cases h
      rfl
  | cons b rest =>
    rw [hbytes] at hvalue hshort
    have hb := b.toNat_lt
    have hpos : n.toNat ≠ 0 := by
      rw [Ne, ← beBytes_eq_nil, hbytes]
      exact List.cons_ne_nil b rest
    refine ⟨⟨fun h => ?_, fun h => ?_⟩, fun err h => by cases h⟩
    · have hn : UInt64.ofNat b.toNat = n := FieldValue.uint.inj (Prod.ext_iff.mp h).1
      have hsame : n.toNat = b.toNat := by
        rw [← hn, UInt64.toNat_ofNat']
        exact Nat.mod_eq_of_lt (by omega)
      omega
    · have hlen := hshort.mpr (by omega)
      rw [List.length_cons] at hlen
      have hrest : rest = [] := List.length_eq_zero_iff.mp (by omega)
      subst hrest
      rw [beNat_cons, beNat_nil, List.length_nil, pow_zero, Nat.mul_one, Nat.add_zero] at hvalue
      show (FieldValue.uint (UInt64.ofNat b.toNat), none) = (FieldValue.uint n, none)
      rw [hvalue, UInt64.ofNat_toNat]

theorem length_targetTypes (values : List FieldValue) :
    (FieldValue.targetTypes values).length =
      (RlpInput.normalForms (FieldValue.toInputs values)).length := by
  induction values with
  | nil => rfl
  | cons value values ih =>
    rw [FieldValue.targetTypes, FieldValue.toInputs, RlpInput.normalForms, List.length_cons,
      List.length_cons, ih]

theorem stringsOf_map (value : List Bytes) : stringsOf (value.map .str) = some value := by
  induction value with
  | nil => rfl
  | cons s value ih =>
    rw [List.map_cons, stringsOf, ih]
    rfl

theorem stringsOf_eq_none {nested : List RlpItem} {items : List RlpItem}
    (h : .list nested ∈ items) : stringsOf items = none := by
  induction items with
  | nil => cases h
  | cons item items ih =>
    cases item with
    | str s =>
      rw [stringsOf, ih (by simpa using h)]
      rfl
    | list _ => rfl

theorem mem_normalForms {value : FieldValue} {values : List FieldValue} (h : value ∈ values) :
    value.toInput.normalForm ∈ RlpInput.normalForms (FieldValue.toInputs values) := by
  induction h with
  | head values =>
    rw [FieldValue.toInputs, RlpInput.normalForms]
    exact List.mem_cons_self
  | tail _ _ ih =>
    rw [FieldValue.toInputs, RlpInput.normalForms]
    exact List.mem_cons_of_mem _ ih

theorem stringsOf_normalForms {strings : List Bytes} {values : List FieldValue}
    (h : .strings strings ∈ values) :
    stringsOf (RlpInput.normalForms (FieldValue.toInputs values)) = none := by
  have hmem : .list (strings.map .str) ∈ RlpInput.normalForms (FieldValue.toInputs values) :=
    mem_normalForms h
  exact stringsOf_eq_none hmem

theorem stopAtError_eq_ok {first : FieldValue × Option DeserializationError} {value : FieldValue}
    {untouched values : List FieldValue} {rest : List FieldValue × Option DeserializationError} :
    stopAtError first untouched rest = (value :: values, none) ↔
      first = (value, none) ∧ rest = (values, none) := by
  obtain ⟨field, err⟩ := first
  obtain ⟨fields, err'⟩ := rest
  cases err <;> simp [stopAtError, and_assoc]

/-- Nothing is lost although the walk stopped. -/
def StopsAt {α : Type} (result : α × Option DeserializationError) (value : α) : Prop :=
  ∃ err, err.isPanic = false ∧ result = (value, some err)

theorem stopAtError_stopsAt {first : FieldValue × Option DeserializationError} {value : FieldValue}
    {untouched values : List FieldValue} {rest : List FieldValue × Option DeserializationError} :
    StopsAt (stopAtError first untouched rest) (value :: values) ↔
      (first = (value, none) ∧ StopsAt rest values) ∨
      (StopsAt first value ∧ untouched = values) := by
  obtain ⟨field, err⟩ := first
  obtain ⟨fields, err'⟩ := rest
  cases err with
  | none =>
    simp only [stopAtError, StopsAt, Prod.mk.injEq, List.cons.injEq, reduceCtorEq, and_false,
      exists_false, false_and, or_false, and_true, and_assoc]
    constructor
    · rintro ⟨err, hne, rfl, rfl, rfl⟩
      exact ⟨rfl, err, hne, rfl, rfl⟩
    · rintro ⟨rfl, err, hne, rfl, rfl⟩
      exact ⟨err, hne, rfl, rfl, rfl⟩
  | some err =>
    simp only [stopAtError, StopsAt, Prod.mk.injEq, List.cons.injEq, reduceCtorEq, and_false,
      false_and, false_or, and_assoc]
    constructor
    · rintro ⟨err', hne, rfl, rfl, herr⟩
      exact ⟨⟨err', hne, rfl, herr⟩, rfl⟩
    · rintro ⟨⟨err', hne, rfl, herr⟩, rfl⟩
      exact ⟨err', hne, rfl, rfl, herr⟩

theorem setScalar_restores {value : FieldValue} {targetType : FieldType} {item : RlpItem}
    {field : FieldValue} (h : setScalar targetType item field = (value, none)) :
    ¬ StopsAt (setScalar targetType item field) value := by
  rintro ⟨err, -, herr⟩
  rw [h] at herr
  cases (Prod.ext_iff.mp herr).2

mutual
theorem nestedField_restores (interfaceSlice : List RlpItem) : ∀ value : FieldValue, value.plain = true →
    (∀ strings, value = .strings strings → stringsOf interfaceSlice = none) →
      (nestedField interfaceSlice value.targetType value.toInput.normalForm value.targetType.zero =
          (value, none) ↔ value.kept = true) ∧
      (StopsAt (nestedField interfaceSlice value.targetType value.toInput.normalForm
          value.targetType.zero) value ↔ value.stopped = true)
  | .string s, _, _ => by
    have h : setScalar .string (.str s) (.string []) = (.string s, none) := rfl
    exact ⟨⟨fun _ => rfl, fun _ => h⟩,
      ⟨fun hstops => absurd hstops (setScalar_restores h), fun hstopped => by cases hstopped⟩⟩
  | .bytes s, _, _ => by
    have h : setScalar .bytes (.str s) (.bytes []) = (.bytes s, none) := rfl
    exact ⟨⟨fun _ => rfl, fun _ => h⟩,
      ⟨fun hstops => absurd hstops (setScalar_restores h), fun hstopped => by cases hstopped⟩⟩
  | .strings strings, _, hstrings => by
    have hresult : setStrings interfaceSlice (.strings []) =
        (.strings [], some .unsupportedTypeConversion) := by
      rw [setStrings, hstrings strings rfl]
    show (setStrings interfaceSlice (.strings []) = _ ↔ _) ∧
      (StopsAt (setStrings interfaceSlice (.strings [])) _ ↔ _)
    rw [hresult]
    refine ⟨⟨fun h => ?_, fun h => by cases h⟩, ⟨?_, fun h => ?_⟩⟩
    · cases (Prod.ext_iff.mp h).2
    · rintro ⟨err, -, herr⟩
      cases herr
      rfl
    · have hempty : strings = [] := List.isEmpty_iff.mp h
      subst hempty
      exact ⟨.unsupportedTypeConversion, rfl, rfl⟩
  | .uint n, _, _ => by
    obtain ⟨hkept, herr⟩ := setScalar_uint n (.uint 0)
    refine ⟨?_, ?_, fun h => by cases h⟩
    · rw [FieldValue.kept, decide_eq_true_eq]
      exact hkept
    · rintro ⟨err, hnot, hstops⟩
      cases (herr err (Prod.ext_iff.mp hstops).2).symm.trans hnot
  | .struct values, hplain, _ => by
    obtain ⟨hkept, hstopped⟩ :=
      nestedFields_restores _ values hplain fun _ hmem => stringsOf_normalForms hmem
    have hlen := length_targetTypes values
    rw [FieldValue.targetType, FieldValue.toInput, RlpInput.normalForm, FieldType.zero,
      nestedField_struct, FieldValue.kept, FieldValue.stopped, nestedDeserialize, if_pos hlen,
      FieldValue.fields, ← hkept, ← hstopped]
    generalize nestedFields _ _ _ _ = result
    obtain ⟨fields, err⟩ := result
    simp [StopsAt]
  | .untouched, hplain, _ => by cases hplain

theorem nestedFields_restores (interfaceSlice : List RlpItem) : ∀ values : List FieldValue,
    FieldValue.allPlain values = true →
    (∀ strings, .strings strings ∈ values → stringsOf interfaceSlice = none) →
      (nestedFields interfaceSlice (FieldValue.targetTypes values)
          (RlpInput.normalForms (FieldValue.toInputs values))
          (FieldType.zeros (FieldValue.targetTypes values)) = (values, none) ↔
        FieldValue.allKept values = true) ∧
      (StopsAt (nestedFields interfaceSlice (FieldValue.targetTypes values)
          (RlpInput.normalForms (FieldValue.toInputs values))
          (FieldType.zeros (FieldValue.targetTypes values))) values ↔
        FieldValue.stoppedAmong values = true)
  | [], _, _ => by
    refine ⟨⟨fun _ => rfl, fun _ => rfl⟩, ?_, fun h => by cases h⟩
    rintro ⟨err, -, herr⟩
    cases herr
  | value :: values, hplain, hstrings => by
    rw [FieldValue.allPlain, Bool.and_eq_true] at hplain
    obtain ⟨hkept, hstopped⟩ := nestedField_restores interfaceSlice value hplain.1 fun strings hvalue =>
      hstrings strings (hvalue ▸ List.mem_cons_self)
    obtain ⟨hallKept, hstoppedAmong⟩ := nestedFields_restores interfaceSlice values hplain.2
      fun strings hmem => hstrings strings (List.mem_cons_of_mem _ hmem)
    rw [FieldValue.targetTypes, FieldValue.toInputs, RlpInput.normalForms, FieldType.zeros,
      nestedFields, List.headD_cons, List.tail_cons, stopAtError_eq_ok, stopAtError_stopsAt,
      FieldValue.allKept, FieldValue.stoppedAmong, Bool.and_eq_true, Bool.or_eq_true,
      Bool.and_eq_true, Bool.and_eq_true, hkept, hallKept, hstopped, hstoppedAmong,
      zeros_eq_iff values hplain.2]
    exact ⟨Iff.rfl, Iff.rfl⟩
end

theorem deserializeField_restores (value : FieldValue) (hplain : value.plain = true) :
    deserializeField value.targetType value.toInput.normalForm value.targetType.zero =
      (value, none) ↔ value.restored = true := by
  cases value with
  | string s => exact ⟨fun _ => rfl, fun _ => rfl⟩
  | bytes s => exact ⟨fun _ => rfl, fun _ => rfl⟩
  | strings strings =>
    refine ⟨fun _ => rfl, fun _ => ?_⟩
    show setStrings (strings.map .str) (.strings []) = (.strings strings, none)
    rw [setStrings, stringsOf_map]
  | uint n =>
    rw [FieldValue.restored, decide_eq_true_eq]
    exact (setScalar_uint n (.uint 0)).1
  | struct values =>
    obtain ⟨hkept, hstopped⟩ :=
      nestedFields_restores _ values hplain fun _ hmem => stringsOf_normalForms hmem
    have hlen := length_targetTypes values
    rw [FieldValue.targetType, FieldValue.toInput, RlpInput.normalForm, FieldType.zero,
      FieldValue.restored, Bool.or_eq_true, ← hkept, ← hstopped, deserializeField,
      nestedDeserialize, if_pos hlen, FieldValue.fields]
    generalize nestedFields _ _ _ _ = result
    obtain ⟨fields, err⟩ := result
    cases err with
    | none => simp [StopsAt]
    | some err => cases hpanic : err.isPanic <;> simp [StopsAt, Option.filter_some, hpanic]
  | untouched => cases hplain

theorem deserializeFields_restores (values : List FieldValue)
    (hplain : FieldValue.allPlain values = true) :
    deserializeFields (FieldValue.targetTypes values)
        (RlpInput.normalForms (FieldValue.toInputs values))
        (FieldType.zeros (FieldValue.targetTypes values)) = (values, none) ↔
      values.all FieldValue.restored = true := by
  induction values with
  | nil => exact ⟨fun _ => rfl, fun _ => rfl⟩
  | cons value values ih =>
    rw [FieldValue.allPlain, Bool.and_eq_true] at hplain
    rw [FieldValue.targetTypes, FieldValue.toInputs, RlpInput.normalForms, FieldType.zeros,
      deserializeFields, List.headD_cons, List.tail_cons, stopAtError_eq_ok,
      deserializeField_restores value hplain.1, ih hplain.2, List.all_cons, Bool.and_eq_true]

mutual
theorem supported_toInput : ∀ value : FieldValue, value.plain = true →
    value.toInput.supported = true ∧ value.toInput.hasNilBytes = false
  | .string _, _ => ⟨rfl, rfl⟩
  | .bytes _, _ => ⟨rfl, rfl⟩
  | .strings _, _ => ⟨rfl, rfl⟩
  | .uint _, _ => ⟨rfl, rfl⟩
  | .struct values, h => allSupported_toInputs values h
  | .untouched, h => by cases h

theorem allSupported_toInputs : ∀ values : List FieldValue, FieldValue.allPlain values = true →
    RlpInput.allSupported (FieldValue.toInputs values) = true ∧
      RlpInput.anyNilBytes (FieldValue.toInputs values) = false
  | [], _ => ⟨rfl, rfl⟩
  | value :: values, h => by
    rw [FieldValue.allPlain, Bool.and_eq_true] at h
    obtain ⟨hs, hn⟩ := supported_toInput value h.1
    obtain ⟨hss, hns⟩ := allSupported_toInputs values h.2
    rw [FieldValue.toInputs, RlpInput.allSupported, RlpInput.anyNilBytes, hs, hn, hss, hns]
    exact ⟨rfl, rfl⟩
end

theorem bytes_of_rlpEncode {value : FieldValue} (hplain : value.plain = true) {b : Slice}
    (h : rlpEncode value.toInput = .ok b.bytes) : b.bytes = encode value.toInput.normalForm := by
  obtain ⟨hsupported, hnil⟩ := supported_toInput value hplain
  obtain ⟨item, hitem, hencodes, -⟩ := rlpEncode_ok h
  rw [toItem_of_supported hsupported hnil] at hitem
  cases hitem
  exact hencodes.symm

theorem decodeAndDeserialize_restores {values : List FieldValue}
    (hplain : FieldValue.allPlain values = true) {b : Slice}
    (hb : b.bytes = encode (FieldValue.struct values).toInput.normalForm) :
    decodeAndDeserialize b (FieldValue.struct values).targetType
        (FieldValue.struct values).targetType.zero = (.struct values, none) ↔
      values.all FieldValue.restored = true := by
  rw [← deserializeFields_restores values hplain, FieldValue.targetType,
    decodeAndDeserialize_struct (rlpDecode_encode hb), FieldValue.toInput, RlpInput.normalForm,
    deserializeStruct, if_pos (length_targetTypes values), FieldType.zero, FieldValue.fields]
  generalize deserializeFields _ _ _ = result
  obtain ⟨fields, err⟩ := result
  simp

/-- `value` is encoded, and comes back from every slice that holds its encoding. -/
def Restores (value : FieldValue) : Prop :=
  ∃ encoded : Slice, rlpEncode value.toInput = .ok encoded.bytes ∧
    ∀ b : Slice, b.bytes = encoded.bytes →
      decodeAndDeserialize b value.targetType value.targetType.zero = (value, none)

/-- A struct comes back if and only if each of its fields does. -/
theorem restores_iff (values : List FieldValue) (hplain : FieldValue.allPlain values = true) :
    Restores (.struct values) ↔
      (encode (FieldValue.struct values).toInput.normalForm).length < 2 ^ 63 ∧
        values.all FieldValue.restored = true := by
  constructor
  · rintro ⟨encoded, hencode, hrestores⟩
    have hbytes := @bytes_of_rlpEncode (.struct values) hplain encoded hencode
    refine ⟨?_, (decodeAndDeserialize_restores hplain hbytes).mp (hrestores encoded rfl)⟩
    rw [← hbytes, Slice.length_bytes]
    exact encoded.len_le.trans_lt encoded.length_lt
  · rintro ⟨hlt, hrestored⟩
    obtain ⟨hsupported, hnil⟩ := supported_toInput (.struct values) hplain
    let encoded : Slice := ⟨_, _, le_rfl, hlt⟩
    have hbytes : encoded.bytes = encode (FieldValue.struct values).toInput.normalForm :=
      List.take_length
    refine ⟨encoded, ?_, fun b hb => ?_⟩
    · rw [hbytes]
      exact rlpEncode_of_supported hsupported hnil hlt
    · exact (decodeAndDeserialize_restores hplain (hb.trans hbytes)).mpr hrestored

/-- A string and a number that fits in a byte. -/
theorem restores_pair : Restores (.struct [.string [0x61], .uint 200]) := by
  refine (restores_iff [.string [0x61], .uint 200] rfl).mpr ⟨?_, by decide⟩
  have hbytes : beBytes 200 = [200] := by
    norm_num [beBytes]
    rfl
  simp only [FieldValue.toInput, FieldValue.toInputs, RlpInput.normalForm, RlpInput.normalForms,
    RlpItem.num, UInt64.reduceToNat, hbytes]
  decide

/-- A number of two bytes comes back as its first byte. -/
theorem not_restores_twoBytes : ¬ Restores (.struct [.string [0x61], .uint 256]) := by
  rintro ⟨encoded, hencode, hrestores⟩
  have hbytes := @bytes_of_rlpEncode (.struct [.string [0x61], .uint 256]) rfl encoded hencode
  have hrestored := (@decodeAndDeserialize_restores [.string [0x61], .uint 256] rfl _ hbytes).mp
    (hrestores encoded rfl)
  exact absurd hrestored (by decide)

end Signare
