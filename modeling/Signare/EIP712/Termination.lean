import Signare.EIP712.Datum
import Signare.Lib.Reach

/-!
# When hashing returns

A call of the encoder is a declared type and a value. Following the calls it makes, a run ends with
a result or an error exactly when it reaches neither a type with an array suffix it never opens nor
a call that reaches itself again.
-/

namespace Signare

open ByteCodec Relation

/-- The run is over, with a result or an error. -/
def Stops {α : Type} (x : Run Failure α) : Prop := (∃ a, x = .done a) ∨ ∃ err, x = .failed (.error err)

theorem Stops.mono {α : Type} {x y : Run Failure α} (hx : Stops x) (h : x.Le y) : Stops y := by
  rcases hx with ⟨a, ha⟩ | ⟨err, he⟩
  · exact .inl ⟨a, h.done ha⟩
  · exact .inr ⟨err, h.failed he⟩

theorem not_stops_running {α : Type} : ¬ Stops (.running : Run Failure α) := by
  rintro (⟨_, h⟩ | ⟨_, h⟩) <;> cases h

theorem stops_failText {α : Type} (message : String) :
    Stops (failText message : Run Failure α) := .inr ⟨_, rfl⟩

theorem stops_bind {α β : Type} {x : Run Failure α} {f : α → Run Failure β} :
    Stops (x >>= f) ↔ Stops x ∧ ∀ a, x = .done a → Stops (f a) := by
  cases x with
  | running => exact ⟨fun h => (not_stops_running h).elim, fun h => (not_stops_running h.1).elim⟩
  | failed e =>
    constructor
    · rintro (⟨_, h⟩ | ⟨err, h⟩)
      · cases h
      · cases h
        exact ⟨.inr ⟨err, rfl⟩, fun a ha => by cases ha⟩
    · rintro ⟨⟨_, h⟩ | ⟨err, h⟩, -⟩
      · cases h
      · cases h
        exact .inr ⟨err, rfl⟩
  | done a =>
    constructor
    · exact fun h => ⟨.inl ⟨a, rfl⟩, fun b hb => by cases hb; exact h⟩
    · exact fun h => h.2 a rfl

theorem stops_pure {α : Type} (a : α) : Stops (pure a : Run Failure α) := .inl ⟨a, rfl⟩

/-- A declared type and a value: the arguments of `EncodeField`. -/
abbrev Call := String × Value

/-- The loop over `fields` gets to this field: every field before it is accepted. -/
def FieldCall (t : Types) (fields : List TypeField) (m : FieldMap) (c : Call) : Prop :=
  ∃ pre field post, fields = pre ++ field :: post ∧
    (∀ f ∈ pre, Accepts t f.type (m.get f.name)) ∧ c = (field.type, m.get field.name)

/-- The loop over `values` gets to this element. -/
def ElementCall (t : Types) (T : String) (values : List Value) (c : Call) : Prop :=
  ∃ pre v post, values = pre ++ v :: post ∧ (∀ x ∈ pre, Accepts t T x) ∧ c = (T, v)

/-- The first call makes the second. -/
def SubCall (t : Types) (c c' : Call) : Prop :=
  (∃ name m, fieldKind t c.1 = .struct name ∧ Members c.2 m ∧
    FieldCall t (t.fields name) m c') ∨
  (∃ T values, fieldKind t c.1 = .array (some T) ∧ c.2 = .array values ∧ ElementCall t T values c')

/-- A type that ends in a bracket it never opens. -/
def Malformed (t : Types) (c : Call) : Prop := fieldKind t c.1 = .array none

/-- A call that `HashTypedData` makes itself: for the domain, and for the message once the domain is
accepted. -/
def RootCall (data : TypedData) (c : Call) : Prop :=
  FieldCall data.types (data.types.fields "EIP712Domain") data.domain.toFieldMap c ∨
  ((∀ f ∈ data.types.fields "EIP712Domain",
      Accepts data.types f.type (data.domain.toFieldMap.get f.name)) ∧
    FieldCall data.types (data.types.fields data.primaryType) data.message c)

/-- A call made on the way from a root call, if nothing goes wrong before. -/
def Reached (data : TypedData) (c : Call) : Prop :=
  ∃ root, RootCall data root ∧ ReflTransGen (SubCall data.types) root c

/-- An absent struct of type `T` has an absent member of type `T'`, and every member before it is
accepted. -/
def NullCall (t : Types) (T T' : String) : Prop := SubCall t (T, .null) (T', .null)

/-- An absent struct that has itself among its absent members, at any depth. -/
def Endless (t : Types) (c : Call) : Prop := c.2 = .null ∧ TransGen (NullCall t) c.1 c.1

variable {env : HashEnv} {t : Types}

theorem fieldCall_nil {m : FieldMap} {c : Call} : ¬ FieldCall t [] m c := by
  rintro ⟨pre, field, post, h, -⟩
  simp at h

theorem fieldCall_cons {f : TypeField} {fields : List TypeField} {m : FieldMap} {c : Call} :
    FieldCall t (f :: fields) m c ↔ c = (f.type, m.get f.name) ∨
      (Accepts t f.type (m.get f.name) ∧ FieldCall t fields m c) := by
  constructor
  · rintro ⟨pre, field, post, h, hpre, rfl⟩
    cases pre with
    | nil => cases h; exact .inl rfl
    | cons g pre =>
      obtain ⟨rfl, rfl⟩ := List.cons.inj h
      exact .inr ⟨hpre f (by simp), pre, field, post, rfl, fun x hx => hpre x (by simp [hx]), rfl⟩
  · rintro (rfl | ⟨hf, pre, field, post, rfl, hpre, rfl⟩)
    · exact ⟨[], f, fields, rfl, by simp, rfl⟩
    · exact ⟨f :: pre, field, post, rfl, by simpa using ⟨hf, hpre⟩, rfl⟩

theorem elementCall_nil {T : String} {c : Call} : ¬ ElementCall t T [] c := by
  rintro ⟨pre, v, post, h, -⟩
  simp at h

theorem elementCall_cons {T : String} {v : Value} {values : List Value} {c : Call} :
    ElementCall t T (v :: values) c ↔ c = (T, v) ∨ (Accepts t T v ∧ ElementCall t T values c) := by
  constructor
  · rintro ⟨pre, w, post, h, hpre, rfl⟩
    cases pre with
    | nil => cases h; exact .inl rfl
    | cons x pre =>
      obtain ⟨rfl, rfl⟩ := List.cons.inj h
      exact .inr ⟨hpre v (by simp), pre, w, post, rfl, fun x hx => hpre x (by simp [hx]), rfl⟩
  · rintro (rfl | ⟨hv, pre, w, post, rfl, hpre, rfl⟩)
    · exact ⟨[], v, values, rfl, by simp, rfl⟩
    · exact ⟨v :: pre, w, post, rfl, by simpa using ⟨hv, hpre⟩, rfl⟩

theorem accepts_of_done {n : Nat} {T : String} {v : Value} {b : Bytes}
    (h : encodeField env t n T v = .done b) : Accepts t T v :=
  encodeField_done_iff.mp ⟨n, b, h⟩

theorem not_accepts_of_failed {n : Nat} {T : String} {v : Value} {e : Failure}
    (h : encodeField env t n T v = .failed e) : ¬ Accepts t T v := by
  intro hacc
  obtain ⟨k, b, hk⟩ : ∃ k b, encodeField env t k T v = .done b := encodeField_done_iff.mpr hacc
  have hdone := (encodeField_mono (le_max_left k n) T v).done hk
  rw [(encodeField_mono (le_max_right k n) T v).failed h] at hdone
  cases hdone

theorem fieldCall_stops {n : Nat} {fields : List TypeField} {m : FieldMap}
    (h : Stops (encodeFields (encodeField env t n) m fields)) {c : Call}
    (hc : FieldCall t fields m c) : Stops (encodeField env t n c.1 c.2) := by
  induction fields with
  | nil => exact (fieldCall_nil hc).elim
  | cons f fields ih =>
    obtain ⟨hf, hrest⟩ := stops_bind.mp h
    rcases fieldCall_cons.mp hc with rfl | ⟨hacc, hc⟩
    · exact hf
    · rcases hf with ⟨b, hb⟩ | ⟨err, he⟩
      · exact ih (stops_bind.mp (hrest b hb)).1 hc
      · exact (not_accepts_of_failed he hacc).elim

theorem elementCall_stops {n : Nat} {T : String} {values : List Value}
    (h : Stops (encodeElements (encodeField env t n T) values)) {c : Call}
    (hc : ElementCall t T values c) : Stops (encodeField env t n c.1 c.2) := by
  induction values with
  | nil => exact (elementCall_nil hc).elim
  | cons v values ih =>
    obtain ⟨hv, hrest⟩ := stops_bind.mp h
    rcases elementCall_cons.mp hc with rfl | ⟨hacc, hc⟩
    · exact hv
    · rcases hv with ⟨b, hb⟩ | ⟨err, he⟩
      · exact ih (stops_bind.mp (hrest b hb)).1 hc
      · exact (not_accepts_of_failed he hacc).elim

theorem subCall_stops {n : Nat} {c c' : Call} (h : Stops (encodeField env t (n + 1) c.1 c.2))
    (hc : SubCall t c c') : Stops (encodeField env t n c'.1 c'.2) := by
  rw [encodeField] at h
  rcases hc with ⟨name, m, hk, hm, hc⟩ | ⟨T, values, hk, hv, hc⟩
  · rw [hk] at h
    have hstruct := (stops_bind.mp h).2 m (structMembers_eq_done.mpr hm)
    exact fieldCall_stops (stops_bind.mp (stops_bind.mp hstruct).1).1 hc
  · rw [hk] at h
    have hloop := (stops_bind.mp h).2 values (arrayItems_eq_done.mpr hv)
    exact elementCall_stops (stops_bind.mp hloop).1 hc

theorem stops_encodeFields {fields : List TypeField} {m : FieldMap}
    (h : ∀ c, FieldCall t fields m c → ∃ n, Stops (encodeField env t n c.1 c.2)) :
    ∃ n, Stops (encodeFields (encodeField env t n) m fields) := by
  induction fields with
  | nil => exact ⟨0, .inl ⟨[], rfl⟩⟩
  | cons f fields ih =>
    obtain ⟨n, hn⟩ := h _ (fieldCall_cons.mpr (.inl rfl))
    rcases hn with ⟨b, hb⟩ | ⟨err, he⟩
    · obtain ⟨k, hk⟩ := ih fun c hc => h c (fieldCall_cons.mpr (.inr ⟨accepts_of_done hb, hc⟩))
      have hhead := (encodeField_mono (le_max_left n k) _ _).done hb
      have htail := hk.mono (encodeFields_le (encodeField_mono (le_max_right n k)) m fields)
      exact ⟨max n k, stops_bind.mpr ⟨.inl ⟨b, hhead⟩, fun _ _ =>
        stops_bind.mpr ⟨htail, fun _ _ => stops_pure _⟩⟩⟩
    · exact ⟨n, stops_bind.mpr ⟨.inr ⟨err, he⟩, fun a ha => by rw [he] at ha; cases ha⟩⟩

theorem stops_encodeElements {T : String} {values : List Value}
    (h : ∀ c, ElementCall t T values c → ∃ n, Stops (encodeField env t n c.1 c.2)) :
    ∃ n, Stops (encodeElements (encodeField env t n T) values) := by
  induction values with
  | nil => exact ⟨0, .inl ⟨[], rfl⟩⟩
  | cons v values ih =>
    obtain ⟨n, hn⟩ := h _ (elementCall_cons.mpr (.inl rfl))
    rcases hn with ⟨b, hb⟩ | ⟨err, he⟩
    · obtain ⟨k, hk⟩ := ih fun c hc => h c (elementCall_cons.mpr (.inr ⟨accepts_of_done hb, hc⟩))
      have hhead := (encodeField_mono (le_max_left n k) _ _).done hb
      have htail := hk.mono (encodeElements_le (encodeField_mono (le_max_right n k) T) values)
      exact ⟨max n k, stops_bind.mpr ⟨.inl ⟨b, hhead⟩, fun _ _ =>
        stops_bind.mpr ⟨htail, fun _ _ => stops_pure _⟩⟩⟩
    · exact ⟨n, stops_bind.mpr ⟨.inr ⟨err, he⟩, fun a ha => by rw [he] at ha; cases ha⟩⟩

theorem stops_hashStructWith {enc : String → Value → Run Failure Bytes} {name : String}
    {m : FieldMap} :
    Stops (hashStructWith env t enc name m) ↔ Stops (encodeFields enc m (t.fields name)) := by
  constructor
  · exact fun h => (stops_bind.mp (stops_bind.mp h).1).1
  · exact fun h => stops_bind.mpr ⟨stops_bind.mpr ⟨h, fun _ _ => stops_pure _⟩, fun _ _ => stops_pure _⟩

theorem stops_decodeString (cs : List Char) : Stops (decodeString cs) := by
  unfold decodeString
  cases hexDecode cs with
  | error err => exact .inr ⟨_, rfl⟩
  | ok b => exact .inl ⟨b, rfl⟩

theorem stops_decodeBytes (v : Value) : Stops (decodeBytes v) := by
  cases v <;> first | exact stops_decodeString _ | exact stops_failText _

theorem stops_encodeAddress (v : Value) : Stops (encodeAddress v) := by
  cases v with
  | string s =>
    refine stops_bind.mpr ⟨stops_decodeString _, fun b _ => ?_⟩
    split
    · exact stops_failText _
    · exact stops_pure _
  | _ => exact stops_failText _

theorem stops_integerOf (v : Value) : Stops (integerOf v) := by
  cases v with
  | string s => simp only [integerOf]; split <;> split <;> first | exact stops_failText _ | exact .inl ⟨_, rfl⟩
  | number literal => simp only [integerOf]; split <;> first | exact stops_failText _ | exact .inl ⟨_, rfl⟩
  | float64 q => simp only [integerOf]; split <;> first | exact stops_failText _ | exact .inl ⟨_, rfl⟩
  | bigInt i => exact .inl ⟨i, rfl⟩
  | _ => exact stops_failText _

theorem stops_encodeInteger (v : Value) : Stops (encodeInteger v) := by
  refine stops_bind.mpr ⟨stops_integerOf v, fun i _ => ?_⟩
  split
  · exact stops_failText _
  · split
    · exact stops_failText _
    · exact stops_pure _

theorem stops_structMembers (v : Value) : Stops (structMembers v) := by
  cases v <;> first | exact .inl ⟨_, rfl⟩ | exact stops_failText _

theorem stops_arrayItems (T : String) (v : Value) : Stops (arrayItems T v) := by
  cases v <;> first | exact .inl ⟨_, rfl⟩ | exact stops_failText _

theorem stops_of_subCalls {c : Call} (hwell : ¬ Malformed t c)
    (h : ∀ c', SubCall t c c' → ∃ n, Stops (encodeField env t n c'.1 c'.2)) :
    ∃ n, Stops (encodeField env t n c.1 c.2) := by
  obtain ⟨T, v⟩ := c
  cases hk : fieldKind t T with
  | struct name =>
    rcases stops_structMembers v with ⟨m, hm⟩ | ⟨err, he⟩
    · obtain ⟨n, hn⟩ : ∃ n, Stops (encodeFields (encodeField env t n) m (t.fields name)) :=
        stops_encodeFields fun c' hc' =>
          h c' (.inl ⟨name, m, hk, structMembers_eq_done.mp hm, hc'⟩)
      refine ⟨n + 1, ?_⟩
      simp only [encodeField, hk, hm, Run.bind_done]
      exact stops_hashStructWith.mpr hn
    · refine ⟨1, ?_⟩
      simp only [encodeField, hk, he, Run.bind_failed]
      exact .inr ⟨err, rfl⟩
  | array subType =>
    cases subType with
    | none => exact (hwell hk).elim
    | some subType =>
      rcases stops_arrayItems T v with ⟨values, hv⟩ | ⟨err, he⟩
      · obtain ⟨n, hn⟩ : ∃ n, Stops (encodeElements (encodeField env t n subType) values) :=
          stops_encodeElements fun c' hc' =>
            h c' (.inr ⟨subType, values, hk, arrayItems_eq_done.mp hv, hc'⟩)
        refine ⟨n + 1, ?_⟩
        simp only [encodeField, hk, hv, Run.bind_done]
        exact stops_bind.mpr ⟨hn, fun _ _ => stops_pure _⟩
      · refine ⟨1, ?_⟩
        simp only [encodeField, hk, he, Run.bind_failed]
        exact .inr ⟨err, rfl⟩
  | address => exact ⟨1, by simp only [encodeField, hk]; exact stops_encodeAddress v⟩
  | string =>
    refine ⟨1, ?_⟩
    simp only [encodeField, hk]
    cases v <;> first | exact stops_pure _ | exact stops_bind.mpr ⟨stops_failText _, by simp [stringOf, failText]⟩
  | bytes =>
    refine ⟨1, ?_⟩
    simp only [encodeField, hk]
    exact stops_bind.mpr ⟨stops_decodeBytes v, fun _ _ => stops_pure _⟩
  | bool =>
    refine ⟨1, ?_⟩
    simp only [encodeField, hk]
    cases v <;> first | exact stops_pure _ | exact stops_failText _
  | integer => exact ⟨1, by simp only [encodeField, hk]; exact stops_encodeInteger v⟩
  | fixedBytes =>
    refine ⟨1, ?_⟩
    simp only [encodeField, hk]
    exact stops_bind.mpr ⟨stops_decodeBytes v, fun _ _ => stops_pure _⟩
  | unsupported => exact ⟨1, by simp only [encodeField, hk]; exact stops_failText _⟩

theorem not_malformed_of_stops {n : Nat} {c : Call} (h : Stops (encodeField env t n c.1 c.2)) :
    ¬ Malformed t c := by
  intro hk
  cases n with
  | zero => exact not_stops_running h
  | succ n =>
    rw [encodeField, hk] at h
    rcases h with ⟨_, h⟩ | ⟨_, h⟩ <;> cases h

/-- The types declared for the fields of some struct. -/
def Types.fieldTypes (t : Types) : List String :=
  t.flatMap fun binding => (binding.2.getD []).map (·.type)

theorem mem_fieldTypes {name : String} {field : TypeField} (h : field ∈ t.fields name) :
    field.type ∈ t.fieldTypes := by
  unfold Types.fields at h
  cases hname : t.definition name with
  | none => rw [hname] at h; cases h
  | some fields =>
    rw [hname] at h
    exact List.mem_flatMap.mpr ⟨(name, some fields), mem_of_definition hname, List.mem_map_of_mem h⟩

theorem subCall_null {T : String} {c : Call} (h : SubCall t (T, .null) c) :
    c.2 = .null ∧ c.1 ∈ t.fieldTypes := by
  rcases h with ⟨name, m, _, hm, pre, field, post, hfields, _, rfl⟩ | ⟨_, _, _, h, _⟩
  · rcases hm with h | ⟨_, rfl⟩
    · cases h
    · have hmem : field ∈ t.fields name := by simp [hfields]
      exact ⟨rfl, mem_fieldTypes hmem⟩
  · cases h

theorem sizeOf_get_lt {m : FieldMap} {name : String} (h : m.get name ≠ .null) :
    sizeOf (m.get name) < sizeOf m := by
  unfold FieldMap.get at *
  induction m with
  | nil => exact (h rfl).elim
  | cons binding rest ih =>
    obtain ⟨key, v⟩ := binding
    by_cases hkey : name = key
    · subst hkey
      simp only [List.lookup_cons_self, Option.getD_some, List.cons.sizeOf_spec,
        Prod.mk.sizeOf_spec]
      omega
    · rw [List.lookup_cons, beq_false_of_ne hkey] at h ⊢
      have := ih h
      simp only [List.cons.sizeOf_spec]
      omega

theorem subCall_smaller {c c' : Call} (h : SubCall t c c') :
    c'.2 = .null ∨ sizeOf c'.2 < sizeOf c.2 := by
  rcases h with ⟨name, m, _, hm, pre, field, post, _, _, rfl⟩ | ⟨T, values, _, hv, pre, v, post, hvalues, _, rfl⟩
  · by_cases hget : m.get field.name = .null
    · exact .inl hget
    · have hlt := sizeOf_get_lt hget
      rcases hm with hm | ⟨_, rfl⟩
      · right
        rw [hm, Value.map.sizeOf_spec]
        dsimp only
        omega
      · exact (hget rfl).elim
  · right
    have hlt : sizeOf v < sizeOf values := List.sizeOf_lt_of_mem (by simp [hvalues])
    rw [hv, Value.array.sizeOf_spec]
    dsimp only
    omega

theorem acc_null {T : String} (h : ∀ T', ReflTransGen (NullCall t) T T' → ¬ TransGen (NullCall t) T' T') :
    Acc (fun T' T => NullCall t T T') T := by
  have hfin : {T' | ReflTransGen (NullCall t) T T'}.Finite := by
    refine (T :: t.fieldTypes).finite_toSet.subset fun T' hT' => ?_
    rcases ReflTransGen.cases_tail hT' with rfl | ⟨mid, _, hstep⟩
    · exact List.mem_cons_self
    · exact List.mem_cons_of_mem _ (subCall_null hstep).2
  exact acc_of_finite hfin (fun a ha b hab => ReflTransGen.tail ha hab) h ReflTransGen.refl

theorem stops_null {T : String}
    (h : ∀ c, ReflTransGen (SubCall t) (T, .null) c → ¬ Malformed t c ∧ ¬ Endless t c) :
    ∃ n, Stops (encodeField env t n T .null) := by
  have hnull : ∀ T', ReflTransGen (NullCall t) T T' →
      ReflTransGen (SubCall t) (T, .null) (T', .null) := fun T' hT' => 
      hT'.lift (fun x => (x, Value.null)) fun _ _ => id
  have hacc := acc_null fun T' hT' hcycle => (h _ (hnull T' hT')).2 ⟨rfl, hcycle⟩
  clear hnull
  induction hacc with
  | intro T _ ih =>
    refine stops_of_subCalls (h _ .refl).1 fun ⟨T', v⟩ hc => ?_
    obtain ⟨hv, _⟩ := subCall_null hc
    subst hv
    exact ih T' hc fun c hreach => h c (.head hc hreach)

theorem stops_of_reached {c : Call}
    (h : ∀ c', ReflTransGen (SubCall t) c c' → ¬ Malformed t c' ∧ ¬ Endless t c') :
    ∃ n, Stops (encodeField env t n c.1 c.2) := by
  induction hsize : sizeOf c.2 using Nat.strong_induction_on generalizing c with
  | _ size ih =>
    refine stops_of_subCalls (h c .refl).1 fun c' hc => ?_
    have hreach : ∀ c'', ReflTransGen (SubCall t) c' c'' → ¬ Malformed t c'' ∧ ¬ Endless t c'' :=
      fun c'' hc'' => h c'' (.head hc hc'')
    rcases subCall_smaller hc with hnull | hlt
    · obtain ⟨T, v⟩ := c'
      cases hnull
      exact stops_null hreach
    · exact ih _ (hsize ▸ hlt) hreach rfl

theorem stops_of_reflTransGen {n : Nat} {c c' : Call} (h : Stops (encodeField env t n c.1 c.2))
    (hc : ReflTransGen (SubCall t) c c') : ∃ k ≤ n, Stops (encodeField env t k c'.1 c'.2) := by
  induction hc with
  | refl => exact ⟨n, le_rfl, h⟩
  | tail _ hstep ih =>
    obtain ⟨k, hk, hstops⟩ := ih
    cases k with
    | zero => exact (not_stops_running hstops).elim
    | succ k => exact ⟨k, by omega, subCall_stops hstops hstep⟩

theorem not_endless_of_stops {n : Nat} {c : Call} (h : Stops (encodeField env t n c.1 c.2)) :
    ¬ Endless t c := by
  obtain ⟨T, v⟩ := c
  rintro ⟨hv, hcycle⟩
  dsimp only at hv hcycle
  subst hv
  have hcalls : TransGen (SubCall t) (T, .null) (T, .null) := 
    hcycle.lift (fun x => (x, Value.null)) fun _ _ => id
  obtain ⟨mid, hstep, hback⟩ := TransGen.head'_iff.mp hcalls
  induction n using Nat.strong_induction_on with
  | _ n ih =>
    cases n with
    | zero => exact not_stops_running h
    | succ n =>
      obtain ⟨k, hk, hstops⟩ := stops_of_reflTransGen (subCall_stops h hstep) hback
      exact ih k (by omega) hstops

theorem stops_iff {c : Call} :
    (∃ n, Stops (encodeField env t n c.1 c.2)) ↔
      ∀ c', ReflTransGen (SubCall t) c c' → ¬ Malformed t c' ∧ ¬ Endless t c' := by
  constructor
  · rintro ⟨n, h⟩ c' hc
    obtain ⟨k, _, hk⟩ := stops_of_reflTransGen h hc
    exact ⟨not_malformed_of_stops hk, not_endless_of_stops hk⟩
  · exact stops_of_reached

theorem accepts_of_encodeFields {n : Nat} {fields : List TypeField} {m : FieldMap} {b : Bytes}
    (h : encodeFields (encodeField env t n) m fields = .done b) :
    ∀ f ∈ fields, Accepts t f.type (m.get f.name) := by
  induction fields generalizing b with
  | nil => simp
  | cons f fields ih =>
    obtain ⟨x, xs, hx, hxs, _⟩ := encodeFields_cons_eq_done.mp h
    intro g hg
    rcases List.mem_cons.mp hg with rfl | hg
    · exact accepts_of_done hx
    · exact ih hxs g hg

theorem done_of_accepts {n : Nat} {fields : List TypeField} {m : FieldMap}
    (h : Stops (encodeFields (encodeField env t n) m fields))
    (hacc : ∀ f ∈ fields, Accepts t f.type (m.get f.name)) :
    ∃ b, encodeFields (encodeField env t n) m fields = .done b := by
  induction fields with
  | nil => exact ⟨[], rfl⟩
  | cons f fields ih =>
    obtain ⟨hf, hrest⟩ := stops_bind.mp h
    rcases hf with ⟨b, hb⟩ | ⟨err, he⟩
    · obtain ⟨bs, hbs⟩ := ih (stops_bind.mp (hrest b hb)).1 fun g hg =>
        hacc g (List.mem_cons_of_mem _ hg)
      exact ⟨b ++ bs, encodeFields_cons_eq_done.mpr ⟨b, bs, hb, hbs, rfl⟩⟩
    · exact (not_accepts_of_failed he (hacc f List.mem_cons_self)).elim

theorem stops_hashTypedData {n : Nat} {data : TypedData} :
    Stops (hashTypedData env n data) ↔
      Stops (encodeFields (encodeField env data.types n) data.domain.toFieldMap
        (data.types.fields "EIP712Domain")) ∧
      ∀ b, encodeFields (encodeField env data.types n) data.domain.toFieldMap
          (data.types.fields "EIP712Domain") = .done b →
        Stops (encodeFields (encodeField env data.types n) data.message
          (data.types.fields data.primaryType)) := by
  have hdone : ∀ b, encodeFields (encodeField env data.types n) data.domain.toFieldMap
      (data.types.fields "EIP712Domain") = .done b →
        hashStruct env data.types n "EIP712Domain" data.domain.toFieldMap =
          .done (env.keccak.sum (typeHash env data.types "EIP712Domain" ++ b)) :=
    fun b hb => hashStructWith_eq_done.mpr ⟨b, hb, rfl⟩
  constructor
  · intro h
    obtain ⟨hdomain, hmessage⟩ := stops_bind.mp (stops_bind.mp h).1
    refine ⟨stops_hashStructWith.mp hdomain, fun b hb => ?_⟩
    exact stops_hashStructWith.mp (stops_bind.mp (hmessage _ (hdone b hb))).1
  · rintro ⟨hdomain, hmessage⟩
    refine stops_bind.mpr ⟨stops_bind.mpr ⟨stops_hashStructWith.mpr hdomain, fun b hb => ?_⟩,
      fun _ _ => stops_pure _⟩
    obtain ⟨bs, hbs, _⟩ := hashStructWith_eq_done.mp hb
    exact stops_bind.mpr ⟨stops_hashStructWith.mpr (hmessage bs hbs), fun _ _ => stops_pure _⟩

/-- Hashing returns, with a digest or an error, exactly when no call on the way is for a type that
ends in a bracket it never opens or for an absent struct that holds itself. -/
theorem hashTypedData_returns_iff (env : HashEnv) (data : TypedData) :
    (∃ n, Stops (hashTypedData env n data)) ↔
      ∀ c, Reached data c → ¬ Malformed data.types c ∧ ¬ Endless data.types c := by
  constructor
  · rintro ⟨n, h⟩ c ⟨root, hroot, hc⟩
    obtain ⟨hdomain, hmessage⟩ := stops_hashTypedData.mp h
    have hstops : Stops (encodeField env data.types n root.1 root.2) := by
      rcases hroot with hroot | ⟨hacc, hroot⟩
      · exact fieldCall_stops hdomain hroot
      · obtain ⟨b, hb⟩ := done_of_accepts hdomain hacc
        exact fieldCall_stops (hmessage b hb) hroot
    exact stops_iff.mp ⟨n, hstops⟩ c hc
  · intro h
    have hroot : ∀ root, RootCall data root →
        ∃ n, Stops (encodeField env data.types n root.1 root.2) := fun root hroot =>
      stops_iff.mpr fun c hc => h c ⟨root, hroot, hc⟩
    obtain ⟨n, hdomain⟩ := stops_encodeFields fun c hc => hroot c (.inl hc)
    rcases hdomain with ⟨b, hb⟩ | ⟨err, he⟩
    · obtain ⟨k, hmessage⟩ := stops_encodeFields fun c hc =>
        hroot c (.inr ⟨accepts_of_encodeFields hb, hc⟩)
      have hdomain := (encodeFields_le (encodeField_mono (le_max_left n k)) _ _).done hb
      have hmessage := hmessage.mono (encodeFields_le (encodeField_mono (le_max_right n k)) _ _)
      exact ⟨max n k, stops_hashTypedData.mpr ⟨.inl ⟨b, hdomain⟩, fun _ _ => hmessage⟩⟩
    · exact ⟨n, stops_hashTypedData.mpr ⟨.inr ⟨err, he⟩, fun b hb => by rw [he] at hb; cases hb⟩⟩

def noDomain : EIP712Domain := ⟨"", "", none, "", ""⟩

/-- A field of type `uint]`. -/
def unopenedArray : TypedData where
  types := [("EIP712Domain", some []), ("Point", some [⟨"x", "uint]"⟩])]
  primaryType := "Point"
  domain := noDomain
  message := [("x", .string "1")]

/-- A struct with a member of its own type, and an empty message. -/
def absentNode : TypedData where
  types := [("EIP712Domain", some []), ("Node", some [⟨"next", "Node"⟩])]
  primaryType := "Node"
  domain := noDomain
  message := []

theorem encodeField_absentNode (n : Nat) :
    encodeField env absentNode.types n "Node" .null = .running := by
  induction n with
  | zero => rfl
  | succ n ih =>
    have hkind : fieldKind absentNode.types "Node" = .struct "Node" := by decide
    have hfields : absentNode.types.fields "Node" = [⟨"next", "Node"⟩] := rfl
    have hget : FieldMap.get [] "next" = .null := rfl
    simp only [encodeField, hkind, structMembers, Run.bind_done, hashStructWith, encodeDataWith,
      hfields, encodeFields, hget, ih, Run.bind_running]

/-- One message panics, the other is never done. -/
theorem hashTypedData_not_total :
    (unopenedArray.validate = .ok () ∧ hashTypedData keccakEnv 1 unopenedArray =
      .failed (.panic "runtime error: slice bounds out of range [:-1]")) ∧
    (absentNode.validate = .ok () ∧ ∀ n, hashTypedData keccakEnv n absentNode = .running) ∧
    ¬ ∀ data : TypedData, data.validate = .ok () → ∃ n, Stops (hashTypedData keccakEnv n data) := by
  have hnode : ∀ n, hashTypedData keccakEnv n absentNode = .running := by
    intro n
    have hdomain : absentNode.types.fields "EIP712Domain" = [] := rfl
    have hfields : absentNode.types.fields "Node" = [⟨"next", "Node"⟩] := rfl
    have hget : FieldMap.get [] "next" = .null := rfl
    have hprimary : absentNode.primaryType = "Node" := rfl
    have hmessage : absentNode.message = [] := rfl
    simp only [hashTypedData, structHashes, hashStruct, hashStructWith, encodeDataWith, hdomain,
      hprimary, hmessage, hfields, hget, encodeFields, encodeField_absentNode, Run.bind_running,
      Run.bind_done, Run.pure_eq]
  refine ⟨⟨by decide, ?_⟩, ⟨by decide, hnode⟩, fun h => ?_⟩
  · rfl
  · obtain ⟨n, hn⟩ := h absentNode (by decide)
    rw [hnode n] at hn
    exact not_stops_running hn

end Signare
