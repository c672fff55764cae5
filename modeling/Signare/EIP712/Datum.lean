import Signare.EIP712.Encode

/-!
# What a message says

A datum is the information a value carries at its declared type. `Denotes` reads it off the message;
it does not mention the encoder. The encoder succeeds exactly on values that denote a datum, and
its result is the datum's encoding.
-/

namespace Signare

open ByteCodec

/-- A value of a declared type. `fraction` is a float that is not a whole number. -/
inductive Datum
  | bool (b : Bool)
  | address (bs : Bytes)
  | integer (n : Nat)
  | fraction (q : Rat)
  | fixedBytes (bs : Bytes)
  | bytes (bs : Bytes)
  | string (s : String)
  | array (items : List Datum)
  | struct (name : String) (members : List Datum)

mutual
/-- The 32-byte encoding, given the hash of each type string. -/
def Datum.enc (keccak : Hash256) (typeHash : String → Bytes) : Datum → Bytes
  | .bool b => beWord 32 (if b then 1 else 0)
  | .address bs => leftPad 32 bs
  | .integer n => beWord 32 n
  | .fraction q => beWord 32 (q.num.tdiv q.den).toNat
  | .fixedBytes bs => rightPad 32 bs
  | .bytes bs => keccak.sum bs
  | .string s => keccak.sum (utf8 s)
  | .array items => keccak.sum (Datum.encAll keccak typeHash items)
  | .struct name members => keccak.sum (typeHash name ++ Datum.encAll keccak typeHash members)
termination_by structural d => d

def Datum.encAll (keccak : Hash256) (typeHash : String → Bytes) : List Datum → Bytes
  | [] => []
  | d :: ds => Datum.enc keccak typeHash d ++ Datum.encAll keccak typeHash ds
termination_by structural ds => ds
end

/-- Text of an even number of hexadecimal digits, with or without the prefix. -/
def HexText (v : Value) (bs : Bytes) : Prop :=
  ∃ s : String, v = .string s ∧ hexDecode (trimPrefix0x s.toList) = .ok bs

/-- The ways a message spells an integer. -/
def SpellsInteger (v : Value) (i : Int) : Prop :=
  (∃ s : String, v = .string s ∧
    if has0xPrefix s.toList then SignedNumeral 16 (s.toList.drop 2) i
    else SignedNumeral 10 s.toList i) ∨
  (∃ literal : String, v = .number literal ∧ SignedNumeral 10 literal.toList i) ∨
  (v = .float64 i ∧ i < 2 ^ 53) ∨
  v = .bigInt i

/-- A float that is not whole and is small enough to be read. -/
def Fraction (q : Rat) : Prop := q.den ≠ 1 ∧ q < 2 ^ 53 ∧ 0 ≤ q.num.tdiv q.den

/-- The members of a nested struct: null stands for a map without bindings. -/
def Members (v : Value) (m : FieldMap) : Prop := v = .map m ∨ (v = .null ∧ m = [])

mutual
/-- The value `v`, declared of type `fieldType`, says `d`. -/
def Denotes (t : Types) : Datum → String → Value → Prop
  | .bool b, fieldType, v => fieldKind t fieldType = .bool ∧ v = .bool b
  | .address bs, fieldType, v => fieldKind t fieldType = .address ∧ HexText v bs ∧ bs.length = 20
  | .integer n, fieldType, v =>
    fieldKind t fieldType = .integer ∧ SpellsInteger v n ∧ n < 2 ^ 256
  | .fraction q, fieldType, v => fieldKind t fieldType = .integer ∧ v = .float64 q ∧ Fraction q
  | .fixedBytes bs, fieldType, v => fieldKind t fieldType = .fixedBytes ∧ HexText v bs
  | .bytes bs, fieldType, v => fieldKind t fieldType = .bytes ∧ HexText v bs
  | .string s, fieldType, v => fieldKind t fieldType = .string ∧ v = .string s
  | .array items, fieldType, v =>
    ∃ subType values, fieldKind t fieldType = .array (some subType) ∧ v = .array values ∧
      DenotesAll t items subType values
  | .struct name members, fieldType, v =>
    ∃ m, fieldKind t fieldType = .struct name ∧ Members v m ∧
      DenotesFields t members (t.fields name) m
termination_by structural d => d

/-- The elements of an array. -/
def DenotesAll (t : Types) : List Datum → String → List Value → Prop
  | [], _, values => values = []
  | d :: ds, subType, values =>
    ∃ v rest, values = v :: rest ∧ Denotes t d subType v ∧ DenotesAll t ds subType rest
termination_by structural ds => ds

/-- The declared fields of a struct, in order. -/
def DenotesFields (t : Types) : List Datum → List TypeField → FieldMap → Prop
  | [], fields, _ => fields = []
  | d :: ds, fields, m =>
    ∃ field rest, fields = field :: rest ∧ Denotes t d field.type (m.get field.name) ∧
      DenotesFields t ds rest m
termination_by structural ds => ds
end

/-- The value is in the domain of its declared type, as the encoder takes it. -/
def Accepts (t : Types) (fieldType : String) (v : Value) : Prop := ∃ d, Denotes t d fieldType v

theorem decodeString_eq_done {cs : List Char} {b : Bytes} :
    decodeString cs = .done b ↔ hexDecode cs = .ok b := by
  unfold decodeString
  cases hexDecode cs <;> simp

theorem decodeBytes_eq_done {v : Value} {b : Bytes} : decodeBytes v = .done b ↔ HexText v b := by
  unfold HexText
  cases v with
  | string s => simp [decodeBytes, decodeString_eq_done]
  | _ => simp [decodeBytes, failText]

theorem encodeAddress_eq_done {v : Value} {b : Bytes} :
    encodeAddress v = .done b ↔ ∃ bs, HexText v bs ∧ bs.length = 20 ∧ b = leftPad 32 bs := by
  unfold HexText
  cases v with
  | string s =>
    simp only [encodeAddress, Run.bind_eq_done, decodeString_eq_done, Value.string.injEq,
      exists_eq_left']
    constructor
    · rintro ⟨bs, hbs, h⟩
      split at h
      · cases h
      · next hlen =>
        cases h
        exact ⟨bs, hbs, not_not.mp hlen, rfl⟩
    · rintro ⟨bs, hbs, hlen, rfl⟩
      exact ⟨bs, hbs, by rw [if_neg (not_not.mpr hlen)]; rfl⟩
  | _ => simp [encodeAddress, failText]

theorem encodeBool_eq_done {v : Value} {b : Bytes} :
    encodeBool v = .done b ↔ ∃ x, v = .bool x ∧ b = beWord 32 (if x then 1 else 0) := by
  have hfalse : leftPad 32 [0] = beWord 32 0 := by rw [beWord, beBytes_zero]; rfl
  have htrue : leftPad 32 [1] = beWord 32 1 := by rw [beWord, beBytes_eq_append one_ne_zero]; simp
  cases v with
  | bool x => cases x <;> simp [encodeBool, hfalse, htrue, eq_comm]
  | _ => simp [encodeBool, failText]

private theorem float_integer {q : Rat} {i : Int} (hd : q.den = 1) :
    q.num.tdiv q.den = i ↔ q = i := by
  rw [hd, Nat.cast_one, Int.tdiv_one]
  constructor
  · rintro rfl
    exact (Rat.den_eq_one_iff q).mp hd |>.symm
  · rintro rfl
    exact Rat.num_intCast i

theorem integerOf_eq_done {v : Value} {i : Int} :
    integerOf v = .done i ↔
      SpellsInteger v i ∨ ∃ q : Rat, v = .float64 q ∧ q.den ≠ 1 ∧ q < 2 ^ 53 ∧
        q.num.tdiv q.den = i := by
  unfold SpellsInteger
  cases v with
  | string s =>
    simp only [integerOf, setString]
    by_cases hp : has0xPrefix s.toList
    · cases hr : readSigned 16 (s.toList.drop 2) with
      | none => simp [hp, ← readSigned_eq_some, hr, failText]
      | some j => simp [hp, ← readSigned_eq_some, hr]
    · cases hr : readSigned 10 s.toList with
      | none => simp [hp, ← readSigned_eq_some, hr, failText]
      | some j => simp [hp, ← readSigned_eq_some, hr]
  | number literal =>
    cases hr : readSigned 10 literal.toList with
    | none => simp [integerOf, setString, ← readSigned_eq_some, hr, failText]
    | some j => simp [integerOf, setString, ← readSigned_eq_some, hr]
  | float64 q =>
    simp only [integerOf, reduceCtorEq, false_and, exists_false, false_or, Value.float64.injEq,
      exists_eq_left', or_false]
    by_cases hlt : q < 2 ^ 53
    · rw [if_neg (not_le.mpr hlt), Run.done.injEq]
      by_cases hd : q.den = 1
      · rw [float_integer hd]
        constructor
        · rintro rfl
          exact .inl ⟨rfl, by exact_mod_cast hlt⟩
        · rintro (⟨h, _⟩ | ⟨h, _⟩)
          · exact h
          · exact (h hd).elim
      · constructor
        · intro h
          exact .inr ⟨hd, hlt, h⟩
        · rintro (⟨h, _⟩ | ⟨_, _, h⟩)
          · exact (hd (by rw [h]; exact Rat.den_intCast i)).elim
          · exact h
    · rw [if_pos (not_lt.mp hlt)]
      constructor
      · intro h; cases h
      · rintro (⟨rfl, h⟩ | ⟨_, h, _⟩)
        · exact (hlt (by exact_mod_cast h)).elim
        · exact (hlt h).elim
  | bigInt j => simp [integerOf]
  | _ => simp [integerOf, failText]

theorem encodeInteger_eq_done {v : Value} {b : Bytes} :
    encodeInteger v = .done b ↔
      ∃ n : Nat, integerOf v = .done (n : Int) ∧ n < 2 ^ 256 ∧ b = beWord 32 n := by
  have hlen : ∀ n : Nat, (beBytes n).length ≤ 32 ↔ n < 2 ^ 256 := fun n => by
    rw [length_beBytes_le_iff]; norm_num
  simp only [encodeInteger, Run.bind_eq_done]
  constructor
  · rintro ⟨i, hi, h⟩
    split at h
    · cases h
    · next hneg =>
      split at h
      · cases h
      · next hfit =>
        cases h
        refine ⟨i.toNat, ?_, (hlen _).mp (not_lt.mp hfit), rfl⟩
        rw [hi, Int.toNat_of_nonneg (not_lt.mp hneg)]
  · rintro ⟨n, hi, hfit, rfl⟩
    refine ⟨n, hi, ?_⟩
    rw [if_neg (by omega), Int.toNat_natCast, if_neg (not_lt.mpr ((hlen n).mpr hfit))]
    rfl

/-- A float that is read is small, cut off or not. -/
theorem fraction_lt {q : Rat} (hlt : q < 2 ^ 53) (hpos : 0 ≤ q.num.tdiv q.den) :
    (q.num.tdiv q.den).toNat < 2 ^ 256 := by
  have hden : (0 : Int) < q.den := by exact_mod_cast q.den_pos
  have hmul : q.num < 2 ^ 53 * q.den := by
    have h := (Rat.lt_iff q (2 ^ 53)).mp hlt
    simpa using h
  have hle : q.num.tdiv q.den ≤ 2 ^ 53 := by
    rcases le_or_gt 0 q.num with hnum | hnum
    · rw [Int.tdiv_eq_ediv_of_nonneg hnum]
      exact (Int.ediv_lt_of_lt_mul hden hmul).le
    · have hneg := Int.tdiv_nonneg (a := -q.num) (b := q.den) (by omega) hden.le
      rw [Int.neg_tdiv] at hneg
      omega
  omega

theorem arrayItems_eq_done {T : String} {v : Value} {values : List Value} :
    arrayItems T v = .done values ↔ v = .array values := by
  cases v <;> simp [arrayItems, failText]

theorem stringOf_eq_done {v : Value} {s : String} : stringOf v = .done s ↔ v = .string s := by
  cases v <;> simp [stringOf, failText]

theorem structMembers_eq_done {v : Value} {m : FieldMap} :
    structMembers v = .done m ↔ Members v m := by
  unfold Members
  cases v <;> simp [structMembers, failText, eq_comm]

variable {env : HashEnv} {t : Types}

section Loops

variable {enc enc' : String → Value → Run Failure Bytes} {encElem encElem' : Value → Run Failure Bytes}

theorem encodeFields_le (h : ∀ T v, (enc T v).Le (enc' T v)) (m : FieldMap)
    (fields : List TypeField) : (encodeFields enc m fields).Le (encodeFields enc' m fields) := by
  induction fields with
  | nil => exact .refl _
  | cons field rest ih => exact (h _ _).bind fun _ => ih.bind fun _ => .refl _

theorem encodeElements_le (h : ∀ v, (encElem v).Le (encElem' v)) (values : List Value) :
    (encodeElements encElem values).Le (encodeElements encElem' values) := by
  induction values with
  | nil => exact .refl _
  | cons v rest ih => exact (h v).bind fun _ => ih.bind fun _ => .refl _

theorem hashStructWith_le (h : ∀ T v, (enc T v).Le (enc' T v)) (name : String) (m : FieldMap) :
    (hashStructWith env t enc name m).Le (hashStructWith env t enc' name m) :=
  ((encodeFields_le h m _).bind fun _ => .refl _).bind fun _ => .refl _

theorem encodeFields_cons_eq_done {m : FieldMap} {field : TypeField} {rest : List TypeField}
    {b : Bytes} :
    encodeFields enc m (field :: rest) = .done b ↔
      ∃ x xs, enc field.type (m.get field.name) = .done x ∧ encodeFields enc m rest = .done xs ∧
        b = x ++ xs := by
  simp only [encodeFields, Run.bind_eq_done, Run.pure_eq, Run.done.injEq]
  grind

theorem encodeElements_cons_eq_done {v : Value} {rest : List Value} {b : Bytes} :
    encodeElements encElem (v :: rest) = .done b ↔
      ∃ x xs, encElem v = .done x ∧ encodeElements encElem rest = .done xs ∧ b = x ++ xs := by
  simp only [encodeElements, Run.bind_eq_done, Run.pure_eq, Run.done.injEq]
  grind

theorem hashStructWith_eq_done {name : String} {m : FieldMap} {b : Bytes} :
    hashStructWith env t enc name m = .done b ↔
      ∃ bs, encodeFields enc m (t.fields name) = .done bs ∧
        b = env.keccak.sum (typeHash env t name ++ bs) := by
  simp only [hashStructWith, encodeDataWith, Run.bind_eq_done, Run.pure_eq, Run.done.injEq]
  grind

end Loops

theorem encodeField_le (n : Nat) (T : String) (v : Value) :
    (encodeField env t n T v).Le (encodeField env t (n + 1) T v) := by
  induction n generalizing T v with
  | zero => exact .inl rfl
  | succ n ih =>
    rw [encodeField, encodeField]
    cases fieldKind t T with
    | struct name => exact (Run.Le.refl _).bind fun m => hashStructWith_le ih name m
    | array subType =>
      cases subType with
      | none => exact .refl _
      | some subType =>
        exact (Run.Le.refl _).bind fun values =>
          (encodeElements_le (ih subType) values).bind fun _ => .refl _
    | _ => exact .refl _

theorem encodeField_mono {m n : Nat} (h : m ≤ n) (T : String) (v : Value) :
    (encodeField env t m T v).Le (encodeField env t n T v) :=
  Run.le_of_step (f := fun n => encodeField env t n T v) (fun n => encodeField_le n T v) h

theorem hashStruct_mono {m n : Nat} (h : m ≤ n) (name : String) (data : FieldMap) :
    (hashStruct env t m name data).Le (hashStruct env t n name data) :=
  hashStructWith_le (fun T v => encodeField_mono h T v) name data

section Sound

variable {enc : String → Value → Run Failure Bytes} (typeHash : String → Bytes)

theorem denotesFields_of_encodeFields
    (h : ∀ T v b, enc T v = .done b → ∃ d, Denotes t d T v ∧ d.enc env.keccak typeHash = b)
    {fields : List TypeField} {m : FieldMap} {b : Bytes}
    (hb : encodeFields enc m fields = .done b) :
    ∃ ds, DenotesFields t ds fields m ∧ Datum.encAll env.keccak typeHash ds = b := by
  induction fields generalizing b with
  | nil =>
    cases hb
    exact ⟨[], rfl, rfl⟩
  | cons field rest ih =>
    obtain ⟨x, xs, hx, hxs, rfl⟩ := encodeFields_cons_eq_done.mp hb
    obtain ⟨d, hd, rfl⟩ := h _ _ _ hx
    obtain ⟨ds, hds, rfl⟩ := ih hxs
    exact ⟨d :: ds, ⟨field, rest, rfl, hd, hds⟩, rfl⟩

theorem denotesAll_of_encodeElements {T : String}
    (h : ∀ v b, enc T v = .done b → ∃ d, Denotes t d T v ∧ d.enc env.keccak typeHash = b)
    {values : List Value} {b : Bytes} (hb : encodeElements (enc T) values = .done b) :
    ∃ ds, DenotesAll t ds T values ∧ Datum.encAll env.keccak typeHash ds = b := by
  induction values generalizing b with
  | nil =>
    cases hb
    exact ⟨[], rfl, rfl⟩
  | cons v rest ih =>
    obtain ⟨x, xs, hx, hxs, rfl⟩ := encodeElements_cons_eq_done.mp hb
    obtain ⟨d, hd, rfl⟩ := h _ _ hx
    obtain ⟨ds, hds, rfl⟩ := ih hxs
    exact ⟨d :: ds, ⟨v, rest, rfl, hd, hds⟩, rfl⟩

end Sound

private theorem denotes_of_encodeInteger {T : String} {v : Value} {b : Bytes}
    {typeHash : String → Bytes} (hk : fieldKind t T = .integer) (h : encodeInteger v = .done b) :
    ∃ d, Denotes t d T v ∧ d.enc env.keccak typeHash = b := by
  obtain ⟨n, hn, hfit, rfl⟩ := encodeInteger_eq_done.mp h
  rcases integerOf_eq_done.mp hn with hspell | ⟨q, hv, hden, hlt, hq⟩
  · exact ⟨.integer n, ⟨hk, hspell, hfit⟩, rfl⟩
  · exact ⟨.fraction q, ⟨hk, hv, hden, hlt, by omega⟩, by rw [Datum.enc, hq, Int.toNat_natCast]⟩

/-- Whatever the encoder accepts says something, and the result encodes what it says. -/
theorem denotes_of_encodeField {n : Nat} {T : String} {v : Value} {b : Bytes}
    (h : encodeField env t n T v = .done b) :
    ∃ d, Denotes t d T v ∧ d.enc env.keccak (typeHash env t) = b := by
  induction n generalizing T v b with
  | zero => cases h
  | succ n ih =>
    rw [encodeField] at h
    cases hk : fieldKind t T with
    | struct name =>
      rw [hk] at h
      obtain ⟨m, hm, h⟩ := Run.bind_eq_done.mp h
      obtain ⟨bs, hbs, rfl⟩ := hashStructWith_eq_done.mp h
      obtain ⟨ds, hds, rfl⟩ := denotesFields_of_encodeFields _ (fun _ _ _ => ih) hbs
      exact ⟨.struct name ds, ⟨m, hk, structMembers_eq_done.mp hm, hds⟩, rfl⟩
    | array subType =>
      rw [hk] at h
      cases subType with
      | none => cases h
      | some subType =>
        obtain ⟨values, hvalues, h⟩ := Run.bind_eq_done.mp h
        obtain ⟨bs, hbs, h⟩ := Run.bind_eq_done.mp h
        cases h
        obtain ⟨ds, hds, rfl⟩ := denotesAll_of_encodeElements _ (fun _ _ => ih) hbs
        exact ⟨.array ds, ⟨subType, values, hk, arrayItems_eq_done.mp hvalues, hds⟩, rfl⟩
    | address =>
      rw [hk] at h
      obtain ⟨bs, hbs, hlen, rfl⟩ := encodeAddress_eq_done.mp h
      exact ⟨.address bs, ⟨hk, hbs, hlen⟩, rfl⟩
    | string =>
      rw [hk] at h
      obtain ⟨s, hs, h⟩ := Run.bind_eq_done.mp h
      cases h
      exact ⟨.string s, ⟨hk, stringOf_eq_done.mp hs⟩, rfl⟩
    | bytes =>
      rw [hk] at h
      obtain ⟨bs, hbs, h⟩ := Run.bind_eq_done.mp h
      cases h
      exact ⟨.bytes bs, ⟨hk, decodeBytes_eq_done.mp hbs⟩, rfl⟩
    | bool =>
      rw [hk] at h
      obtain ⟨x, rfl, rfl⟩ := encodeBool_eq_done.mp h
      exact ⟨.bool x, ⟨hk, rfl⟩, rfl⟩
    | integer =>
      rw [hk] at h
      exact denotes_of_encodeInteger hk h
    | fixedBytes =>
      rw [hk] at h
      obtain ⟨bs, hbs, h⟩ := Run.bind_eq_done.mp h
      cases h
      exact ⟨.fixedBytes bs, ⟨hk, decodeBytes_eq_done.mp hbs⟩, rfl⟩
    | unsupported =>
      rw [hk] at h
      cases h

mutual
theorem encodeField_of_denotes : ∀ (d : Datum) {T : String} {v : Value}, Denotes t d T v →
    ∃ n, encodeField env t n T v = .done (d.enc env.keccak (typeHash env t))
  | .bool b, T, v, ⟨hk, hv⟩ => by
    refine ⟨1, ?_⟩
    rw [encodeField, hk]
    exact encodeBool_eq_done.mpr ⟨b, hv, rfl⟩
  | .address bs, T, v, ⟨hk, hv, hlen⟩ => by
    refine ⟨1, ?_⟩
    rw [encodeField, hk]
    exact encodeAddress_eq_done.mpr ⟨bs, hv, hlen, rfl⟩
  | .integer n, T, v, ⟨hk, hv, hfit⟩ => by
    refine ⟨1, ?_⟩
    rw [encodeField, hk]
    exact encodeInteger_eq_done.mpr ⟨n, integerOf_eq_done.mpr (.inl hv), hfit, rfl⟩
  | .fraction q, T, v, ⟨hk, hv, hden, hlt, hpos⟩ => by
    refine ⟨1, ?_⟩
    rw [encodeField, hk]
    refine encodeInteger_eq_done.mpr ⟨(q.num.tdiv q.den).toNat, ?_, ?_, rfl⟩
    · exact integerOf_eq_done.mpr (.inr ⟨q, hv, hden, hlt, by omega⟩)
    · exact fraction_lt hlt hpos
  | .fixedBytes bs, T, v, ⟨hk, hv⟩ => by
    refine ⟨1, ?_⟩
    rw [encodeField, hk]
    exact Run.bind_eq_done.mpr ⟨bs, decodeBytes_eq_done.mpr hv, rfl⟩
  | .bytes bs, T, v, ⟨hk, hv⟩ => by
    refine ⟨1, ?_⟩
    rw [encodeField, hk]
    exact Run.bind_eq_done.mpr ⟨bs, decodeBytes_eq_done.mpr hv, rfl⟩
  | .string s, T, v, ⟨hk, hv⟩ => by
    refine ⟨1, ?_⟩
    rw [encodeField, hk]
    exact Run.bind_eq_done.mpr ⟨s, stringOf_eq_done.mpr hv, rfl⟩
  | .array items, T, v, ⟨subType, values, hk, hv, hitems⟩ => by
    obtain ⟨n, hn⟩ := encodeElements_of_denotes items hitems
    refine ⟨n + 1, ?_⟩
    rw [encodeField, hk]
    exact Run.bind_eq_done.mpr ⟨values, arrayItems_eq_done.mpr hv,
      Run.bind_eq_done.mpr ⟨_, hn, rfl⟩⟩
  | .struct name members, T, v, ⟨m, hk, hv, hmembers⟩ => by
    obtain ⟨n, hn⟩ := encodeFields_of_denotes members hmembers
    refine ⟨n + 1, ?_⟩
    rw [encodeField, hk]
    exact Run.bind_eq_done.mpr ⟨m, structMembers_eq_done.mpr hv,
      hashStructWith_eq_done.mpr ⟨_, hn, rfl⟩⟩

theorem encodeElements_of_denotes : ∀ (ds : List Datum) {T : String} {values : List Value},
    DenotesAll t ds T values → ∃ n, encodeElements (encodeField env t n T) values =
      .done (Datum.encAll env.keccak (typeHash env t) ds)
  | [], T, values, h => by
    cases h
    exact ⟨0, rfl⟩
  | d :: ds, T, values, ⟨v, rest, hvalues, hd, hds⟩ => by
    subst hvalues
    obtain ⟨n, hn⟩ := encodeField_of_denotes d hd
    obtain ⟨k, hk⟩ := encodeElements_of_denotes ds hds
    refine ⟨max n k, encodeElements_cons_eq_done.mpr ⟨_, _, ?_, ?_, rfl⟩⟩
    · exact (encodeField_mono (le_max_left n k) T v).done hn
    · exact (encodeElements_le (encodeField_mono (le_max_right n k) T) rest).done hk

theorem encodeFields_of_denotes : ∀ (ds : List Datum) {fields : List TypeField} {m : FieldMap},
    DenotesFields t ds fields m → ∃ n, encodeFields (encodeField env t n) m fields =
      .done (Datum.encAll env.keccak (typeHash env t) ds)
  | [], fields, m, h => by
    cases h
    exact ⟨0, rfl⟩
  | d :: ds, fields, m, ⟨field, rest, hfields, hd, hds⟩ => by
    subst hfields
    obtain ⟨n, hn⟩ := encodeField_of_denotes d hd
    obtain ⟨k, hk⟩ := encodeFields_of_denotes ds hds
    refine ⟨max n k, encodeFields_cons_eq_done.mpr ⟨_, _, ?_, ?_, rfl⟩⟩
    · exact (encodeField_mono (le_max_left n k) _ _).done hn
    · exact (encodeFields_le (encodeField_mono (le_max_right n k)) m rest).done hk
end

/-- Accepted, with enough fuel, is the same as in the domain of the declared type. -/
theorem encodeField_done_iff {T : String} {v : Value} :
    (∃ n b, encodeField env t n T v = .done b) ↔ Accepts t T v := by
  constructor
  · rintro ⟨n, b, h⟩
    obtain ⟨d, hd, _⟩ := denotes_of_encodeField h
    exact ⟨d, hd⟩
  · rintro ⟨d, hd⟩
    exact (encodeField_of_denotes d hd).imp fun _ hn => ⟨_, hn⟩

theorem hashStruct_eq_done {n : Nat} {name : String} {m : FieldMap} {b : Bytes}
    (h : hashStruct env t n name m = .done b) :
    ∃ ds, DenotesFields t ds (t.fields name) m ∧
      b = (Datum.struct name ds).enc env.keccak (typeHash env t) := by
  obtain ⟨bs, hbs, rfl⟩ := hashStructWith_eq_done.mp h
  obtain ⟨ds, hds, rfl⟩ := denotesFields_of_encodeFields _
    (fun _ _ _ => denotes_of_encodeField) hbs
  exact ⟨ds, hds, rfl⟩

theorem hashStruct_of_denotes {name : String} {m : FieldMap} {ds : List Datum}
    (h : DenotesFields t ds (t.fields name) m) :
    ∃ n, hashStruct env t n name m =
      .done ((Datum.struct name ds).enc env.keccak (typeHash env t)) := by
  exact (encodeFields_of_denotes ds h).imp fun _ hn => hashStructWith_eq_done.mpr ⟨_, hn, rfl⟩

theorem structHashes_eq_done {n : Nat} {data : TypedData} {hashes : Bytes × Bytes} :
    structHashes env n data = .done hashes ↔
      hashStruct env data.types n "EIP712Domain" data.domain.toFieldMap = .done hashes.1 ∧
        hashStruct env data.types n data.primaryType data.message = .done hashes.2 := by
  obtain ⟨separator, dataHash⟩ := hashes
  simp only [structHashes, Run.bind_eq_done, Run.pure_eq, Run.done.injEq, Prod.mk.injEq]
  grind

theorem hashTypedData_eq_done {n : Nat} {data : TypedData} {out : Bytes × Bytes} :
    hashTypedData env n data = .done out ↔ ∃ hashes, structHashes env n data = .done hashes ∧
      out = (hashes.2, env.keccak.sum (digestPreimage hashes)) := by
  simp only [hashTypedData, Run.bind_eq_done, Run.pure_eq, Run.done.injEq]
  grind

end Signare
