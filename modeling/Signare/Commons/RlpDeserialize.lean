import Signare.Commons.RlpRoundTrip

/-!
# Deserialization into structs

`DecodeAndDeserialize` walks over the fields of its output. Nested structs have a walk of their
own, `nestedDeserialize`. Fields are written as the walk goes, so that an error leaves the ones
before it set.
-/

namespace Signare

open ByteCodec

/-- The type of a field, as far as the walks look at it. `reflect.Value.Set` does not take a `uint`
for a defined type of that kind, nor a slice for one of elements of a defined type. A field that is
not exported is not set, whatever its type. -/
inductive FieldType
  | string
  | bytes
  | strings
  | uint
  | definedString
  | definedBytes
  | definedStrings
  | definedUint
  | struct (fields : List FieldType)
  | otherSlice
  | other
  | unexported (targetType : FieldType)

/-- The value of a field. Only the types that are ever set have values to speak of. -/
inductive FieldValue
  | string (value : Bytes)
  | bytes (value : Bytes)
  | strings (value : List Bytes)
  | uint (value : UInt64)
  | struct (fields : List FieldValue)
  | untouched

def FieldValue.fields : FieldValue → List FieldValue
  | .struct fields => fields
  | _ => []

/-- The last three stand for panics: of an index expression, and of `reflect.Value.Set`. -/
inductive DeserializationError
  | decoding (err : RlpDecodingError)
  | mismatchedLength
  | unsupportedTypeConversion
  | outputNotStruct
  | indexOutOfRange
  | setUnexported
  | notAssignable
  deriving DecidableEq, Repr

def DeserializationError.isPanic : DeserializationError → Bool
  | .decoding err => err == .sliceBounds
  | .indexOutOfRange => true
  | .setUnexported => true
  | .notAssignable => true
  | _ => false

def stringsOf : List RlpItem → Option (List Bytes)
  | [] => some []
  | .str s :: items => (stringsOf items).map (s :: ·)
  | .list _ :: _ => none

/-- The cases that both walks have in common. A `uint` is the first byte of the string. -/
def setScalar : FieldType → RlpItem → FieldValue → FieldValue × Option DeserializationError
  | .string, .str s, _ => (.string s, none)
  | .definedString, .str s, _ => (.string s, none)
  | .bytes, .str s, _ => (.bytes s, none)
  | .definedBytes, .str _, field => (field, some .notAssignable)
  | .uint, .str [], field => (field, some .indexOutOfRange)
  | .uint, .str (b :: _), _ => (.uint (UInt64.ofNat b.toNat), none)
  | .definedUint, .str [], field => (field, some .indexOutOfRange)
  | .definedUint, .str (_ :: _), field => (field, some .notAssignable)
  | _, _, field => (field, some .unsupportedTypeConversion)

/-- The case of a string slice, for the list the strings are taken from. -/
def setStrings (interfaceSlice : List RlpItem) (field : FieldValue) :
    FieldValue × Option DeserializationError :=
  match stringsOf interfaceSlice with
  | some stringSlice => (.strings stringSlice, none)
  | none => (field, some .unsupportedTypeConversion)

def setDefinedStrings (interfaceSlice : List RlpItem) (field : FieldValue) :
    FieldValue × Option DeserializationError :=
  match stringsOf interfaceSlice with
  | some _ => (field, some .notAssignable)
  | none => (field, some .unsupportedTypeConversion)

/-- A walk stops at an error, and the fields behind it stay as they are. -/
def stopAtError (first : FieldValue × Option DeserializationError) (untouched : List FieldValue)
    (rest : List FieldValue × Option DeserializationError) :
    List FieldValue × Option DeserializationError :=
  match first with
  | (field, some err) => (field :: untouched, some err)
  | (field, none) => (field :: rest.1, rest.2)

mutual
/-- The loop body of `nestedDeserialize`. A string slice is taken from the whole list, not from
the item of the field. -/
def nestedField (interfaceSlice : List RlpItem) :
    FieldType → RlpItem → FieldValue → FieldValue × Option DeserializationError
  | .strings, _, field => setStrings interfaceSlice field
  | .definedStrings, _, field => setDefinedStrings interfaceSlice field
  | .struct types, .list items, field =>
    let result :=
      if types.length = items.length then nestedFields items types items field.fields
      else (field.fields, some .mismatchedLength)
    (.struct result.1, result.2)
  | .unexported _, _, field => (field, none)
  | targetType, item, field => setScalar targetType item field
termination_by structural targetType => targetType

def nestedFields (interfaceSlice : List RlpItem) :
    List FieldType → List RlpItem → List FieldValue →
      List FieldValue × Option DeserializationError
  | targetType :: types, item :: items, fields =>
    stopAtError (nestedField interfaceSlice targetType item (fields.headD .untouched)) fields.tail
      (nestedFields interfaceSlice types items fields.tail)
  | _, _, fields => (fields, none)
termination_by structural types => types
end

/-- `nestedDeserialize`. -/
def nestedDeserialize (interfaceSlice : List RlpItem) (types : List FieldType)
    (output : List FieldValue) : List FieldValue × Option DeserializationError :=
  if types.length = interfaceSlice.length then nestedFields interfaceSlice types interfaceSlice output
  else (output, some .mismatchedLength)

/-- The loop body of `DecodeAndDeserialize`. It tests the error of `Decode` where it means the one
of `nestedDeserialize`, so a nested error is lost; a panic is not. -/
def deserializeField :
    FieldType → RlpItem → FieldValue → FieldValue × Option DeserializationError
  | .strings, .list items, field => setStrings items field
  | .definedStrings, .list items, field => setDefinedStrings items field
  | .otherSlice, _, field => (field, none)
  | .struct types, .list items, field =>
    let result := nestedDeserialize items types field.fields
    (.struct result.1, result.2.filter DeserializationError.isPanic)
  | .unexported _, _, field => (field, none)
  | targetType, item, field => setScalar targetType item field

def deserializeFields : List FieldType → List RlpItem → List FieldValue →
    List FieldValue × Option DeserializationError
  | targetType :: types, item :: items, fields =>
    stopAtError (deserializeField targetType item (fields.headD .untouched)) fields.tail
      (deserializeFields types items fields.tail)
  | _, _, fields => (fields, none)

/-- What follows the decoding, for a struct. A string is an empty list of items here, unless the
struct has a string as its only field. -/
def deserializeStruct (types : List FieldType) (output : List FieldValue) :
    RlpItem → List FieldValue × Option DeserializationError
  | .str s =>
    match types with
    | [.string] => ([.string s], none)
    | [.definedString] => (output, some .notAssignable)
    | [.unexported .string] => (output, some .setUnexported)
    | [.unexported .definedString] => (output, some .setUnexported)
    | types => if types.length = 0 then (output, none) else (output, some .mismatchedLength)
  | .list items =>
    if types.length = items.length then deserializeFields types items output
    else (output, some .mismatchedLength)

/-- `DecodeAndDeserialize`, for a pointer to a value of type `outputType`. -/
def decodeAndDeserialize (b : Slice) (outputType : FieldType) (output : FieldValue) :
    FieldValue × Option DeserializationError :=
  match outputType, rlpDecode b with
  | .string, .ok (.str s) => (.string s, none)
  | .string, .ok (.list _) => (output, some .unsupportedTypeConversion)
  | .definedString, .ok (.str s) => (.string s, none)
  | .definedString, .ok (.list _) => (output, some .unsupportedTypeConversion)
  | .strings, .ok (.list items) => setStrings items output
  | .strings, .ok (.str _) => (output, some .unsupportedTypeConversion)
  | .definedStrings, .ok (.list items) => setDefinedStrings items output
  | .definedStrings, .ok (.str _) => (output, some .unsupportedTypeConversion)
  | .struct types, .ok decodedData =>
    let result := deserializeStruct types output.fields decodedData
    (.struct result.1, result.2)
  | .string, .error err => (output, some (.decoding err))
  | .definedString, .error err => (output, some (.decoding err))
  | .strings, .error err => (output, some (.decoding err))
  | .definedStrings, .error err => (output, some (.decoding err))
  | .struct _, .error err => (output, some (.decoding err))
  | _, _ => (output, some .outputNotStruct)

/-- An error comes back, rather than a success or a panic. -/
def Reports {α : Type} (result : α × Option DeserializationError) : Prop :=
  ∃ err, result.2 = some err ∧ err.isPanic = false

mutual
/-- The item has the shape that is declared, whether the field is exported or not. Types that are not
mentioned have no shape. -/
def FieldType.fits : FieldType → RlpItem → Bool
  | .string, .list _ => false
  | .definedString, .list _ => false
  | .bytes, .list _ => false
  | .definedBytes, .list _ => false
  | .uint, .list _ => false
  | .definedUint, .list _ => false
  | .strings, .str _ => false
  | .strings, .list items => (stringsOf items).isSome
  | .definedStrings, .str _ => false
  | .definedStrings, .list items => (stringsOf items).isSome
  | .struct _, .str _ => false
  | .struct types, .list items => fitsAll types items
  | .unexported targetType, item => targetType.fits item
  | _, _ => true
termination_by structural targetType => targetType

def fitsAll : List FieldType → List RlpItem → Bool
  | [], [] => true
  | targetType :: types, item :: items => targetType.fits item && fitsAll types items
  | _, _ => false
termination_by structural types => types
end

mutual
/-- `nestedDeserialize` gets past the field. -/
def FieldType.passes (interfaceSlice : List RlpItem) : FieldType → RlpItem → Bool
  | .string, .str _ => true
  | .definedString, .str _ => true
  | .bytes, .str _ => true
  | .uint, .str s => !s.isEmpty
  | .strings, _ => (stringsOf interfaceSlice).isSome
  | .struct types, .list items => types.length == items.length && passAll items types items
  | .unexported _, _ => true
  | _, _ => false
termination_by structural targetType => targetType

def passAll (interfaceSlice : List RlpItem) : List FieldType → List RlpItem → Bool
  | targetType :: types, item :: items =>
    targetType.passes interfaceSlice item && passAll interfaceSlice types items
  | _, _ => true
termination_by structural types => types
end

mutual
/-- `nestedDeserialize` panics at the field: a `uint` gets an empty string, or `Set` is given what it
does not take. -/
def FieldType.panics (interfaceSlice : List RlpItem) : FieldType → RlpItem → Bool
  | .uint, .str s => s.isEmpty
  | .definedUint, .str _ => true
  | .definedBytes, .str _ => true
  | .definedStrings, _ => (stringsOf interfaceSlice).isSome
  | .struct types, .list items => types.length == items.length && anyPanics items types items
  | _, _ => false
termination_by structural targetType => targetType

/-- Some field panics, and the walk gets past those before it. -/
def anyPanics (interfaceSlice : List RlpItem) : List FieldType → List RlpItem → Bool
  | targetType :: types, item :: items =>
    targetType.panics interfaceSlice item ||
      (targetType.passes interfaceSlice item && anyPanics interfaceSlice types items)
  | _, _ => false
termination_by structural types => types
end

/-- The same outside nested structs, where a string slice is taken from the item of its field. -/
def FieldType.panicsOutside : FieldType → RlpItem → Bool
  | .definedStrings, .str _ => false
  | .definedStrings, .list items => (stringsOf items).isSome
  | targetType, item => targetType.panics [] item

/-- A mismatch, or a type that is not supported, outside nested structs. -/
def FieldType.refuses : FieldType → RlpItem → Bool
  | .string, .list _ => true
  | .definedString, .list _ => true
  | .bytes, .list _ => true
  | .definedBytes, .list _ => true
  | .uint, .list _ => true
  | .definedUint, .list _ => true
  | .strings, .str _ => true
  | .strings, .list items => (stringsOf items).isNone
  | .definedStrings, .str _ => true
  | .definedStrings, .list items => (stringsOf items).isNone
  | .struct _, .str _ => true
  | .other, _ => true
  | _, _ => false

/-- A field refuses its item, and no field before it panics. -/
def anyRefuses : List FieldType → List RlpItem → Bool
  | targetType :: types, item :: items =>
    targetType.refuses item || (!targetType.panicsOutside item && anyRefuses types items)
  | _, _ => false

def FieldType.isStruct : FieldType → Bool
  | .struct _ => true
  | .unexported targetType => targetType.isStruct
  | _ => false

mutual
/-- Every field in the type has a value, at every depth. -/
def FieldType.setIn : FieldType → FieldValue → Bool
  | .struct types, field => allSetIn types field.fields
  | .unexported targetType, field => targetType.setIn field
  | _, .untouched => false
  | _, _ => true
termination_by structural targetType => targetType

def allSetIn : List FieldType → List FieldValue → Bool
  | [], _ => true
  | targetType :: types, fields =>
    targetType.setIn (fields.headD .untouched) && allSetIn types fields.tail
termination_by structural types => types
end

mutual
/-- `nestedDeserialize` gets past the field, and leaves nothing in it unset. -/
def FieldType.sets (interfaceSlice : List RlpItem) : FieldType → RlpItem → Bool
  | .string, .str _ => true
  | .definedString, .str _ => true
  | .bytes, .str _ => true
  | .uint, .str s => !s.isEmpty
  | .strings, _ => (stringsOf interfaceSlice).isSome
  | .struct types, .list items => types.length == items.length && setAll items types items
  | .unexported targetType, _ => targetType.setIn .untouched
  | _, _ => false
termination_by structural targetType => targetType

def setAll (interfaceSlice : List RlpItem) : List FieldType → List RlpItem → Bool
  | targetType :: types, item :: items =>
    targetType.sets interfaceSlice item && setAll interfaceSlice types items
  | _, _ => true
termination_by structural types => types
end

/-- A struct can be filled from the list, to the last field. -/
def FieldType.filled : FieldType → RlpItem → Bool
  | .struct types, .list items => types.length == items.length && setAll items types items
  | .unexported targetType, _ => !targetType.isStruct || targetType.setIn .untouched
  | _, _ => true

section Walks

variable {targetType : FieldType} {item : RlpItem} {field : FieldValue} {types : List FieldType}
  {items interfaceSlice : List RlpItem} {output : List FieldValue}

theorem nestedField_struct :
    nestedField interfaceSlice (.struct types) (.list items) field =
      (.struct (nestedDeserialize items types field.fields).1,
        (nestedDeserialize items types field.fields).2) := by
  rw [nestedField, nestedDeserialize]

theorem setStrings_error :
    (setStrings interfaceSlice field).2 =
      if (stringsOf interfaceSlice).isSome then none else some .unsupportedTypeConversion := by
  unfold setStrings
  cases stringsOf interfaceSlice <;> rfl

theorem stopAtError_error {first : FieldValue × Option DeserializationError}
    {rest : List FieldValue × Option DeserializationError} :
    (stopAtError first output rest).2 =
      match first.2 with
      | some err => some err
      | none => rest.2 := by
  obtain ⟨field, err⟩ := first
  cases err <;> rfl

theorem setDefinedStrings_error :
    (setDefinedStrings interfaceSlice field).2 =
      if (stringsOf interfaceSlice).isSome then some .notAssignable
      else some .unsupportedTypeConversion := by
  unfold setDefinedStrings
  cases stringsOf interfaceSlice <;> rfl

mutual
theorem nestedField_error (interfaceSlice : List RlpItem) :
    ∀ (targetType : FieldType) (item : RlpItem) (field : FieldValue),
      (nestedField interfaceSlice targetType item field).2.isNone =
        targetType.passes interfaceSlice item ∧
      (nestedField interfaceSlice targetType item field).2.any DeserializationError.isPanic =
        targetType.panics interfaceSlice item
  | .strings, item, field => by
    rw [nestedField, setStrings_error, FieldType.passes, FieldType.panics]
    · cases stringsOf interfaceSlice <;> exact ⟨rfl, rfl⟩
    · simp
    · simp
    · simp
    · simp
    · simp
  | .definedStrings, item, field => by
    rw [nestedField, setDefinedStrings_error, FieldType.passes, FieldType.panics]
    · cases stringsOf interfaceSlice <;> exact ⟨rfl, rfl⟩
    · simp
    · simp
    · simp
    · simp
    · simp
    · simp
    · simp
  | .struct types, .list items, field => by
    have ih := nestedFields_error items types items field.fields
    rw [nestedField, FieldType.passes, FieldType.panics]
    by_cases hlen : types.length = items.length
    · simp only [hlen, if_true, beq_self_eq_true, Bool.true_and]
      exact ih
    · simp [hlen, DeserializationError.isPanic]
  | .struct types, .str s, field => ⟨rfl, rfl⟩
  | .unexported t, item, field => by
    cases item <;> exact ⟨rfl, rfl⟩
  | .string, item, field => by
    cases item <;> exact ⟨rfl, rfl⟩
  | .definedString, item, field => by
    cases item <;> exact ⟨rfl, rfl⟩
  | .bytes, item, field => by
    cases item <;> exact ⟨rfl, rfl⟩
  | .definedBytes, item, field => by
    cases item <;> exact ⟨rfl, rfl⟩
  | .uint, .str [], field => ⟨rfl, rfl⟩
  | .uint, .str (b :: s), field => ⟨rfl, rfl⟩
  | .uint, .list items, field => ⟨rfl, rfl⟩
  | .definedUint, .str [], field => ⟨rfl, rfl⟩
  | .definedUint, .str (b :: s), field => ⟨rfl, rfl⟩
  | .definedUint, .list items, field => ⟨rfl, rfl⟩
  | .otherSlice, item, field => by
    cases item <;> exact ⟨rfl, rfl⟩
  | .other, item, field => by
    cases item <;> exact ⟨rfl, rfl⟩

theorem nestedFields_error (interfaceSlice : List RlpItem) :
    ∀ (types : List FieldType) (items : List RlpItem) (fields : List FieldValue),
      (nestedFields interfaceSlice types items fields).2.isNone =
        passAll interfaceSlice types items ∧
      (nestedFields interfaceSlice types items fields).2.any DeserializationError.isPanic =
        anyPanics interfaceSlice types items
  | [], items, fields => by simp [nestedFields, passAll, anyPanics]
  | targetType :: types, [], fields => by simp [nestedFields, passAll, anyPanics]
  | targetType :: types, item :: items, fields => by
    obtain ⟨hpasses, hpanics⟩ :=
      nestedField_error interfaceSlice targetType item (fields.headD .untouched)
    obtain ⟨hall, hany⟩ := nestedFields_error interfaceSlice types items fields.tail
    rw [nestedFields, stopAtError_error, passAll, anyPanics, ← hpasses, ← hpanics]
    cases (nestedField interfaceSlice targetType item (fields.headD .untouched)).2 with
    | none => simpa using ⟨hall, hany⟩
    | some err => simp
end

theorem nestedDeserialize_panics (items : List RlpItem) (types : List FieldType)
    (output : List FieldValue) :
    (nestedDeserialize items types output).2.any DeserializationError.isPanic =
      (FieldType.struct types).panicsOutside (.list items) := by
  rw [nestedDeserialize, FieldType.panicsOutside, FieldType.panics]
  · by_cases hlen : types.length = items.length
    · simp only [hlen, if_true, beq_self_eq_true, Bool.true_and]
      exact (nestedFields_error items types items output).2
    · simp [hlen, DeserializationError.isPanic]
  · simp
  · simp

/-- The outer walk ends with an error at a field that refuses its item, and with a panic at a field
that panics. -/
theorem deserializeField_error (targetType : FieldType) (item : RlpItem) (field : FieldValue) :
    (targetType.refuses item = true ∧ targetType.panicsOutside item = false ∧
      (deserializeField targetType item field).2 = some .unsupportedTypeConversion) ∨
    (targetType.refuses item = false ∧ targetType.panicsOutside item = true ∧
      (deserializeField targetType item field).2.any DeserializationError.isPanic = true) ∨
    (targetType.refuses item = false ∧ targetType.panicsOutside item = false ∧
      (deserializeField targetType item field).2 = none) := by
  cases targetType with
  | strings =>
    cases item with
    | str s => exact .inl ⟨rfl, rfl, rfl⟩
    | list items =>
      rw [deserializeField, setStrings_error, FieldType.refuses]
      cases stringsOf items
      · exact .inl ⟨rfl, rfl, rfl⟩
      · exact .inr (.inr ⟨rfl, rfl, rfl⟩)
  | definedStrings =>
    cases item with
    | str s => exact .inl ⟨rfl, rfl, rfl⟩
    | list items =>
      rw [deserializeField, setDefinedStrings_error, FieldType.refuses, FieldType.panicsOutside]
      cases stringsOf items
      · exact .inl ⟨rfl, rfl, rfl⟩
      · exact .inr (.inl ⟨rfl, rfl, rfl⟩)
  | uint =>
    cases item with
    | str s =>
      cases s
      · exact .inr (.inl ⟨rfl, rfl, rfl⟩)
      · exact .inr (.inr ⟨rfl, rfl, rfl⟩)
    | list items => exact .inl ⟨rfl, rfl, rfl⟩
  | definedUint =>
    cases item with
    | str s => cases s <;> exact .inr (.inl ⟨rfl, rfl, rfl⟩)
    | list items => exact .inl ⟨rfl, rfl, rfl⟩
  | struct types =>
    cases item with
    | str s => exact .inl ⟨rfl, rfl, rfl⟩
    | list items =>
      right
      rw [deserializeField, ← nestedDeserialize_panics items types field.fields]
      -- only a panic survives
      cases (nestedDeserialize items types field.fields).2 with
      | none => exact .inr ⟨rfl, rfl, rfl⟩
      | some err =>
        cases hpanic : err.isPanic
        · refine .inr ⟨rfl, hpanic, ?_⟩
          rw [Option.filter_some, hpanic]
          rfl
        · refine .inl ⟨rfl, hpanic, ?_⟩
          rw [Option.filter_some, if_pos hpanic]
          exact hpanic
  | definedBytes =>
    cases item with
    | str s => exact .inr (.inl ⟨rfl, rfl, rfl⟩)
    | list items => exact .inl ⟨rfl, rfl, rfl⟩
  | other => exact .inl ⟨by cases item <;> rfl, by cases item <;> rfl, by cases item <;> rfl⟩
  | otherSlice | unexported =>
    exact .inr (.inr ⟨by cases item <;> rfl, by cases item <;> rfl, by cases item <;> rfl⟩)
  | string | definedString | bytes =>
    cases item with
    | str s => exact .inr (.inr ⟨rfl, rfl, rfl⟩)
    | list items => exact .inl ⟨rfl, rfl, rfl⟩

theorem deserializeFields_error (types : List FieldType) (items : List RlpItem)
    (fields : List FieldValue) :
    (anyRefuses types items = true ∧
      (deserializeFields types items fields).2 = some .unsupportedTypeConversion) ∨
    (anyRefuses types items = false ∧
      (types.zip items).any (fun p => p.1.panicsOutside p.2) = true ∧
      (deserializeFields types items fields).2.any DeserializationError.isPanic = true) ∨
    (anyRefuses types items = false ∧
      (types.zip items).any (fun p => p.1.panicsOutside p.2) = false ∧
      (deserializeFields types items fields).2 = none) := by
  induction types generalizing items fields with
  | nil => simp [anyRefuses, deserializeFields]
  | cons targetType types ih =>
    cases items with
    | nil => simp [anyRefuses, deserializeFields]
    | cons item items =>
      rw [deserializeFields, stopAtError_error, anyRefuses, List.zip_cons_cons, List.any_cons]
      rcases deserializeField_error targetType item (fields.headD .untouched) with
        ⟨hrefuses, hpanics, herr⟩ | ⟨hrefuses, hpanics, herr⟩ | ⟨hrefuses, hpanics, herr⟩
      · rw [hrefuses, herr]
        exact .inl ⟨rfl, rfl⟩
      · obtain ⟨err, hsome, hpanic⟩ := Option.any_eq_true _ _ |>.mp herr
        rw [hrefuses, hpanics, hsome]
        exact .inr (.inl ⟨rfl, rfl, hpanic⟩)
      · rw [hrefuses, hpanics, herr]
        simp only [Bool.not_false, Bool.true_and, Bool.false_or]
        exact ih items fields.tail

theorem length_eq_of_fitsAll (types : List FieldType) (items : List RlpItem)
    (h : fitsAll types items = true) : types.length = items.length := by
  induction types generalizing items with
  | nil =>
    cases items with
    | nil => rfl
    | cons item items => cases h
  | cons targetType types ih =>
    cases items with
    | nil => cases h
    | cons item items =>
      rw [fitsAll, Bool.and_eq_true] at h
      rw [List.length_cons, List.length_cons, ih items h.2]

mutual
theorem passes_of_sets : ∀ (interfaceSlice : List RlpItem) (targetType : FieldType) (item : RlpItem),
    targetType.sets interfaceSlice item = true → targetType.passes interfaceSlice item = true
  | _, .struct types, .list items, h => by
    rw [FieldType.sets, Bool.and_eq_true] at h
    rw [FieldType.passes, Bool.and_eq_true]
    exact ⟨h.1, passAll_of_setAll items types items h.2⟩
  | _, .struct _, .str _, h => by cases h
  | _, .unexported _, item, _ => by cases item <;> rfl
  | _, .strings, item, h => by cases item <;> exact h
  | _, .string, .str _, _ => rfl
  | _, .definedString, .str _, _ => rfl
  | _, .bytes, .str _, _ => rfl
  | _, .uint, .str _, h => h
  | _, .string, .list _, h => by cases h
  | _, .definedString, .list _, h => by cases h
  | _, .bytes, .list _, h => by cases h
  | _, .uint, .list _, h => by cases h
  | _, .definedBytes, item, h => by cases item <;> cases h
  | _, .definedStrings, item, h => by cases item <;> cases h
  | _, .definedUint, item, h => by cases item <;> cases h
  | _, .otherSlice, item, h => by cases item <;> cases h
  | _, .other, item, h => by cases item <;> cases h

theorem passAll_of_setAll : ∀ (interfaceSlice : List RlpItem) (types : List FieldType)
    (items : List RlpItem),
    setAll interfaceSlice types items = true → passAll interfaceSlice types items = true
  | _, [], _, _ => rfl
  | _, _ :: _, [], _ => rfl
  | interfaceSlice, targetType :: types, item :: items, h => by
    rw [setAll, Bool.and_eq_true] at h
    rw [passAll, Bool.and_eq_true]
    exact ⟨passes_of_sets interfaceSlice targetType item h.1,
      passAll_of_setAll interfaceSlice types items h.2⟩
end

mutual
theorem setIn_nestedField : ∀ (interfaceSlice : List RlpItem) (targetType : FieldType)
    (item : RlpItem), targetType.fits item = true →
      targetType.setIn (nestedField interfaceSlice targetType item .untouched).1 =
        targetType.sets interfaceSlice item
  | _, .struct types, .list items, hfits => by
    have hlen := length_eq_of_fitsAll types items hfits
    rw [nestedField, FieldType.setIn, FieldType.sets, if_pos hlen, beq_iff_eq.mpr hlen, Bool.true_and]
    exact allSetIn_nestedFields items types items hfits
  | _, .struct _, .str _, hfits => by cases hfits
  | _, .unexported _, item, _ => by cases item <;> rfl
  | interfaceSlice, .strings, item, _ => by
    rw [nestedField, setStrings, FieldType.sets]
    · cases stringsOf interfaceSlice <;> rfl
  | interfaceSlice, .definedStrings, item, _ => by
    rw [nestedField, setDefinedStrings, FieldType.sets]
    · cases stringsOf interfaceSlice <;> rfl
    all_goals simp
  | _, .uint, .str [], _ => rfl
  | _, .uint, .str (_ :: _), _ => rfl
  | _, .definedUint, .str [], _ => rfl
  | _, .definedUint, .str (_ :: _), _ => rfl
  | _, .uint, .list _, hfits => by cases hfits
  | _, .definedUint, .list _, hfits => by cases hfits
  | _, .string, item, _ => by cases item <;> rfl
  | _, .definedString, item, _ => by cases item <;> rfl
  | _, .bytes, item, _ => by cases item <;> rfl
  | _, .definedBytes, item, _ => by cases item <;> rfl
  | _, .otherSlice, item, _ => by cases item <;> rfl
  | _, .other, item, _ => by cases item <;> rfl

theorem allSetIn_nestedFields : ∀ (interfaceSlice : List RlpItem) (types : List FieldType)
    (items : List RlpItem), fitsAll types items = true →
      allSetIn types (nestedFields interfaceSlice types items []).1 =
        setAll interfaceSlice types items
  | _, [], _, _ => by rw [allSetIn, setAll]; simp
  | _, _ :: _, [], hfits => by cases hfits
  | interfaceSlice, targetType :: types, item :: items, hfits => by
    rw [fitsAll, Bool.and_eq_true] at hfits
    have hfirst := setIn_nestedField interfaceSlice targetType item hfits.1
    have hrest := allSetIn_nestedFields interfaceSlice types items hfits.2
    have hpasses := (nestedField_error interfaceSlice targetType item .untouched).1
    rw [nestedFields, List.headD_nil, List.tail_nil, setAll, allSetIn, ← hrest]
    rcases hresult : nestedField interfaceSlice targetType item .untouched with ⟨field, err⟩
    rw [hresult] at hfirst hpasses
    cases err with
    | none =>
      rw [stopAtError, List.headD_cons, List.tail_cons, hfirst]
    | some err =>
      have hsets : targetType.sets interfaceSlice item = false := by
        rw [← Bool.not_eq_true]
        intro hsets
        rw [passes_of_sets interfaceSlice targetType item hsets] at hpasses
        cases hpasses
      rw [stopAtError, List.headD_cons, hfirst, hsets, Bool.false_and, Bool.false_and]
end

theorem setIn_deserializeField (targetType : FieldType) (item : RlpItem)
    (hfits : targetType.fits item = true) :
    (targetType.isStruct = true →
      targetType.setIn (deserializeField targetType item .untouched).1 = true) ↔
      targetType.filled item = true := by
  cases targetType with
  | struct types =>
    cases item with
    | str s => cases hfits
    | list items =>
      have hlen := length_eq_of_fitsAll types items hfits
      rw [deserializeField, FieldType.filled, nestedDeserialize, if_pos hlen, FieldType.setIn,
        beq_iff_eq.mpr hlen, Bool.true_and, ← allSetIn_nestedFields items types items hfits]
      exact ⟨fun h => h rfl, fun h _ => h⟩
  | unexported t =>
    have hfield : (deserializeField (.unexported t) item .untouched).1 = .untouched := by
      cases item <;> rfl
    rw [hfield, FieldType.filled, FieldType.isStruct, FieldType.setIn]
    cases t.isStruct <;> simp
  | _ => exact ⟨fun _ => by cases item <;> rfl, fun _ h => by cases h⟩

theorem setIn_deserializeFields (types : List FieldType) (items : List RlpItem)
    (hfits : fitsAll types items = true) (hnone : (deserializeFields types items []).2 = none) :
    (∀ p ∈ types.zip (deserializeFields types items []).1, p.1.isStruct = true → p.1.setIn p.2 = true) ↔
      (types.zip items).all (fun p => p.1.filled p.2) = true := by
  induction types generalizing items with
  | nil => simp
  | cons targetType types ih =>
    cases items with
    | nil => cases hfits
    | cons item items =>
      rw [fitsAll, Bool.and_eq_true] at hfits
      have hfirst := setIn_deserializeField targetType item hfits.1
      rw [deserializeFields, List.headD_nil, List.tail_nil] at hnone ⊢
      rcases hresult : deserializeField targetType item .untouched with ⟨field, err⟩
      rw [hresult] at hfirst hnone
      cases err with
      | some err => cases hnone
      | none =>
        rw [stopAtError, List.zip_cons_cons, List.forall_mem_cons, List.zip_cons_cons, List.all_cons,
          Bool.and_eq_true, hfirst, ih items hfits.2 hnone]

theorem decodeAndDeserialize_struct {b : Slice} {decodedData : RlpItem} {value : FieldValue}
    (h : rlpDecode b = .ok decodedData) :
    decodeAndDeserialize b (.struct types) value =
      (.struct (deserializeStruct types value.fields decodedData).1,
        (deserializeStruct types value.fields decodedData).2) := by
  unfold decodeAndDeserialize
  rw [h]

end Walks

/-- What deserializing `items` into a struct has to do: a mismatch is an error, whatever the struct
had in it, and after a success no nested struct of a new one is left without a value somewhere. -/
structure ReportsMismatch (types : List FieldType) (items : List RlpItem)
    (deserialize : FieldValue → FieldValue × Option DeserializationError) : Prop where
  mismatch : fitsAll types items = false → ∀ output, Reports (deserialize output)
  complete : (deserialize .untouched).2 = none →
    ∀ p ∈ types.zip (deserialize .untouched).1.fields, p.1.isStruct = true → p.1.setIn p.2 = true

theorem ReportsMismatch.of_error {types : List FieldType} {items : List RlpItem}
    {deserialize : FieldValue → FieldValue × Option DeserializationError}
    {err : DeserializationError} (hnot : err.isPanic = false)
    (h : ∀ output, (deserialize output).2 = some err) : ReportsMismatch types items deserialize where
  mismatch _ output := ⟨err, h output, hnot⟩
  complete hnone := by cases (h .untouched).symm.trans hnone

theorem ReportsMismatch.fitsAll_of_not {types : List FieldType} {items : List RlpItem}
    {deserialize : FieldValue → FieldValue × Option DeserializationError}
    (h : ReportsMismatch types items deserialize) (hnot : ¬ Reports (deserialize .untouched)) :
    fitsAll types items = true := by
  cases hfits : fitsAll types items with
  | true => rfl
  | false => exact absurd (h.mismatch hfits .untouched) hnot

/-- Only what the outermost struct refuses is reported. -/
theorem reportsMismatch_iff {b : Slice} {items : List RlpItem} (types : List FieldType)
    (h : rlpDecode b = .ok (.list items)) :
    ReportsMismatch types items (decodeAndDeserialize b (.struct types)) ↔
      types.length ≠ items.length ∨ anyRefuses types items = true ∨
      fitsAll types items = true ∧
        ((types.zip items).any (fun p => p.1.panicsOutside p.2) = true ∨
          (types.zip items).all (fun p => p.1.filled p.2) = true) := by
  have hresult : ∀ output, decodeAndDeserialize b (.struct types) output =
      (.struct (deserializeStruct types output.fields (.list items)).1,
        (deserializeStruct types output.fields (.list items)).2) :=
    fun output => decodeAndDeserialize_struct h
  by_cases hlen : types.length = items.length
  · have hstruct : ∀ fields, deserializeStruct types fields (.list items) =
        deserializeFields types items fields := fun fields => if_pos hlen
    simp only [hstruct] at hresult
    have herrors := deserializeFields_error types items
    constructor
    · intro hreports
      rcases herrors [] with ⟨hrefuses, -⟩ | ⟨-, hpanics, herr⟩ | ⟨-, -, herr⟩
      · exact .inr (.inl hrefuses)
      · refine .inr (.inr ⟨hreports.fitsAll_of_not ?_, .inl hpanics⟩)
        rintro ⟨err, hsome, hnot⟩
        rw [hresult] at hsome
        rw [show (deserializeFields types items []).2 = some err from hsome, Option.any_some, hnot]
          at herr
        cases herr
      · have hfits : fitsAll types items = true := by
          apply hreports.fitsAll_of_not
          rintro ⟨err, hsome, -⟩
          rw [hresult] at hsome
          cases hsome.symm.trans herr
        refine .inr (.inr ⟨hfits, .inr ((setIn_deserializeFields types items hfits herr).mp ?_)⟩)
        have hcomplete := hreports.complete
        rw [hresult] at hcomplete
        exact hcomplete herr
    · rintro (hne | hrefuses | ⟨hfits, hrest⟩)
      · exact absurd hlen hne
      · have herr : ∀ output, (decodeAndDeserialize b (.struct types) output).2 =
            some .unsupportedTypeConversion := by
          intro output
          rw [hresult]
          rcases herrors output.fields with ⟨-, herr⟩ | ⟨hnot, -⟩ | ⟨hnot, -⟩
          · exact herr
          · cases hrefuses.symm.trans hnot
          · cases hrefuses.symm.trans hnot
        exact .of_error rfl herr
      · refine ⟨fun hnot => ?_, fun hnone => ?_⟩
        · cases hfits.symm.trans hnot
        rw [hresult] at hnone ⊢
        refine (setIn_deserializeFields types items hfits hnone).mpr ?_
        rcases hrest with hpanics | hall
        · rcases herrors [] with ⟨-, herr⟩ | ⟨-, -, herr⟩ | ⟨-, hnot, -⟩
          · cases herr.symm.trans hnone
          · rw [show (deserializeFields types items []).2 = none from hnone] at herr
            cases herr
          · cases hpanics.symm.trans hnot
        · exact hall
  · have herr : ∀ output, (decodeAndDeserialize b (.struct types) output).2 =
        some .mismatchedLength := by
      intro output
      rw [hresult, deserializeStruct, if_neg hlen]
    exact ⟨fun _ => .inl hlen, fun _ => .of_error rfl herr⟩

/-- A list with one string in it, in a list. -/
def nestedSingle : Slice := ⟨[0xc2, 0xc1, 0x61], 3, by decide, by norm_num⟩

theorem rlpDecode_nestedSingle :
    rlpDecode nestedSingle = .ok (.list [.list [.str [0x61]]]) :=
  rlpDecode_encode (by decide)

theorem reportsMismatch_nestedSingle :
    ReportsMismatch [.struct [.string]] [.list [.str [0x61]]]
      (decodeAndDeserialize nestedSingle (.struct [.struct [.string]])) :=
  (reportsMismatch_iff [.struct [.string]] rlpDecode_nestedSingle).mpr (.inr (.inr ⟨rfl, .inr rfl⟩))

/-- Two strings are declared, and one is sent: no error, and neither of them is set. -/
theorem nested_mismatch_not_reported :
    decodeAndDeserialize nestedSingle (.struct [.struct [.string, .string]])
        (.struct [.struct [.string [], .string []]]) =
      (.struct [.struct [.string [], .string []]], none) ∧
    fitsAll [.struct [.string, .string]] [.list [.str [0x61]]] = false ∧
    ¬ ReportsMismatch [.struct [.string, .string]] [.list [.str [0x61]]]
        (decodeAndDeserialize nestedSingle (.struct [.struct [.string, .string]])) := by
  have hresult := @decodeAndDeserialize_struct [.struct [.string, .string]] _ _
    (.struct [.struct [.string [], .string []]]) rlpDecode_nestedSingle
  refine ⟨hresult, rfl, fun h => ?_⟩
  obtain ⟨err, herr, -⟩ := h.mismatch rfl (.struct [.struct [.string [], .string []]])
  rw [hresult] at herr
  cases herr

end Signare
