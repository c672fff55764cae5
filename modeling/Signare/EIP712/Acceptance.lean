import Signare.EIP712.Standard
import Signare.EIP712.Termination

/-!
# Which values are accepted

The types the encoder goes through from a declared type, and the values it takes at one. `cut` lets
in what loses information: a `bytesN` of more than 32 bytes and a fraction.
-/

namespace Signare

open ByteCodec Relation

/-- The encoder goes from a type to a second one: of a field of the struct, or of the elements of
the array. -/
inductive Refers (t : Types) : String → String → Prop
  | field {T : String} {fields : List TypeField} {field : TypeField} :
      t.definition T = some fields → field ∈ fields → Refers t T field.type
  | element {T subType : String} : t.definition T = none → ArrayOf T subType → Refers t T subType

/-- No type refers back to itself. -/
def Acyclic (t : Types) : Prop := ∀ T, ¬ TransGen (Refers t) T T

/-- The values taken at a type string. -/
inductive InDomain (t : Types) (cut : Prop) : String → Value → Prop
  | struct {T : String} {v : Value} {fields : List TypeField} {m : FieldMap} :
      t.definition T = some fields → Members v m →
      (∀ f ∈ fields, InDomain t cut f.type (m.get f.name)) → InDomain t cut T v
  | array {T subType : String} {values : List Value} : t.definition T = none →
      ArrayOf T subType → (∀ v ∈ values, InDomain t cut subType v) →
      InDomain t cut T (.array values)
  | bool {b : Bool} : t.definition "bool" = none → InDomain t cut "bool" (.bool b)
  | string {s : String} : t.definition "string" = none → InDomain t cut "string" (.string s)
  | address {v : Value} {bs : Bytes} : t.definition "address" = none → HexText v bs →
      bs.length = 20 → InDomain t cut "address" v
  | bytes {v : Value} {bs : Bytes} : t.definition "bytes" = none → HexText v bs →
      InDomain t cut "bytes" v
  | fixedBytes {T : String} {v : Value} {bs : Bytes} : t.definition T = none → FixedBytesType T →
      HexText v bs → (bs.length ≤ 32 ∨ cut) → InDomain t cut T v
  | integer {T : String} {v : Value} {n : Nat} : t.definition T = none → IntegerType T →
      SpellsInteger v n → n < 2 ^ 256 → InDomain t cut T v
  | fraction {T : String} {q : Rat} : t.definition T = none → IntegerType T → Fraction q → cut →
      InDomain t cut T (.float64 q)

variable {env : HashEnv} {t : Types}

theorem InDomain.mono {cut cut' : Prop} (himp : cut → cut') {T : String} {v : Value}
    (h : InDomain t cut T v) : InDomain t cut' T v := by
  induction h with
  | struct hT hm _ ih => exact .struct hT hm ih
  | array hT harray _ ih => exact .array hT harray ih
  | bool hT => exact .bool hT
  | string hT => exact .string hT
  | address hT hv hlen => exact .address hT hv hlen
  | bytes hT hv => exact .bytes hT hv
  | fixedBytes hT hN hv hlen => exact .fixedBytes hT hN hv (hlen.imp_right himp)
  | integer hT hN hv hn => exact .integer hT hN hv hn
  | fraction hT hN hq hcut => exact .fraction hT hN hq (himp hcut)

theorem denotesFields_of_accepts {fields : List TypeField} {m : FieldMap}
    (h : ∀ f ∈ fields, Accepts t f.type (m.get f.name)) : ∃ ds, DenotesFields t ds fields m := by
  induction fields with
  | nil => exact ⟨[], rfl⟩
  | cons f fields ih =>
    obtain ⟨d, hd⟩ := h f List.mem_cons_self
    obtain ⟨ds, hds⟩ := ih fun g hg => h g (List.mem_cons_of_mem _ hg)
    exact ⟨d :: ds, f, fields, rfl, hd, hds⟩

theorem denotesAll_of_accepts {T : String} {values : List Value} (h : ∀ v ∈ values, Accepts t T v) :
    ∃ ds, DenotesAll t ds T values := by
  induction values with
  | nil => exact ⟨[], rfl⟩
  | cons v values ih =>
    obtain ⟨d, hd⟩ := h v List.mem_cons_self
    obtain ⟨ds, hds⟩ := ih fun w hw => h w (List.mem_cons_of_mem _ hw)
    exact ⟨d :: ds, v, values, rfl, hd, hds⟩

theorem InDomain.accepts {T : String} {v : Value} (h : InDomain t True T v) : Accepts t T v := by
  induction h with
  | @struct T v fields m hT hm _ ih =>
    obtain ⟨ds, hds⟩ := denotesFields_of_accepts ih
    have hfields : t.fields T = fields := by rw [Types.fields, hT]; rfl
    exact ⟨.struct T ds, m, fieldKind_of_definition (by rw [hT]; rfl), hm, hfields ▸ hds⟩
  | @array T subType values hT harray _ ih =>
    obtain ⟨ds, hds⟩ := denotesAll_of_accepts ih
    exact ⟨.array ds, subType, values, fieldKind_eq_array.mpr ⟨hT, harray⟩, rfl, hds⟩
  | @bool b hT => exact ⟨.bool b, by rw [fieldKind_of_undeclared hT]; decide, rfl⟩
  | @string s hT => exact ⟨.string s, by rw [fieldKind_of_undeclared hT]; decide, rfl⟩
  | @address v bs hT hv hlen =>
    exact ⟨.address bs, by rw [fieldKind_of_undeclared hT]; decide, hv, hlen⟩
  | @bytes v bs hT hv => exact ⟨.bytes bs, by rw [fieldKind_of_undeclared hT]; decide, hv⟩
  | @fixedBytes T v bs hT hN hv _ =>
    exact ⟨.fixedBytes bs, by rw [fieldKind_of_undeclared hT, undeclaredKind_eq_fixedBytes.mpr hN], hv⟩
  | @integer T v n hT hN hv hn =>
    exact ⟨.integer n, by rw [fieldKind_of_undeclared hT, undeclaredKind_eq_integer.mpr hN], hv, hn⟩
  | @fraction T q hT hN hq _ =>
    exact ⟨.fraction q, by rw [fieldKind_of_undeclared hT, undeclaredKind_eq_integer.mpr hN], rfl, hq⟩

private theorem undeclared {T : String} {kind : FieldKind} (h : fieldKind t T = kind)
    (hkind : ∀ name, kind ≠ .struct name) : t.definition T = none ∧ undeclaredKind T = kind :=
  (fieldKind_eq_undeclared hkind).mp h

mutual
theorem inDomain_of_denotes : ∀ (d : Datum) {T : String} {v : Value}, Denotes t d T v →
    InDomain t True T v
  | .bool b, T, v, ⟨hk, hv⟩ => by
    obtain ⟨hT, hk⟩ := undeclared hk (by simp)
    obtain rfl := undeclaredKind_eq_bool.mp hk
    exact hv ▸ .bool hT
  | .address bs, T, v, ⟨hk, hv, hlen⟩ => by
    obtain ⟨hT, hk⟩ := undeclared hk (by simp)
    obtain rfl := undeclaredKind_eq_address.mp hk
    exact .address hT hv hlen
  | .integer n, T, v, ⟨hk, hv, hn⟩ => by
    obtain ⟨hT, hk⟩ := undeclared hk (by simp)
    exact .integer hT (undeclaredKind_eq_integer.mp hk) hv hn
  | .fraction q, T, v, ⟨hk, hv, hq⟩ => by
    obtain ⟨hT, hk⟩ := undeclared hk (by simp)
    exact hv ▸ .fraction hT (undeclaredKind_eq_integer.mp hk) hq trivial
  | .fixedBytes bs, T, v, ⟨hk, hv⟩ => by
    obtain ⟨hT, hk⟩ := undeclared hk (by simp)
    exact .fixedBytes hT (undeclaredKind_eq_fixedBytes.mp hk) hv (.inr trivial)
  | .bytes bs, T, v, ⟨hk, hv⟩ => by
    obtain ⟨hT, hk⟩ := undeclared hk (by simp)
    obtain rfl := undeclaredKind_eq_bytes.mp hk
    exact .bytes hT hv
  | .string s, T, v, ⟨hk, hv⟩ => by
    obtain ⟨hT, hk⟩ := undeclared hk (by simp)
    obtain rfl := undeclaredKind_eq_string.mp hk
    exact hv ▸ .string hT
  | .array items, T, v, ⟨subType, values, hk, hv, hitems⟩ => by
    obtain ⟨hT, harray⟩ := fieldKind_eq_array.mp hk
    exact hv ▸ .array hT harray (inDomain_of_denotesAll items hitems)
  | .struct name members, T, v, ⟨m, hk, hv, hmembers⟩ => by
    obtain ⟨rfl, hT⟩ := fieldKind_eq_struct.mp hk
    obtain ⟨fields, hfields⟩ := Option.isSome_iff_exists.mp hT
    rw [Types.fields, hfields] at hmembers
    exact .struct hfields hv (inDomain_of_denotesFields members hmembers)

theorem inDomain_of_denotesAll : ∀ (ds : List Datum) {T : String} {values : List Value},
    DenotesAll t ds T values → ∀ v ∈ values, InDomain t True T v
  | [], _, _, h, v, hv => by
    cases h
    cases hv
  | d :: ds, _, _, ⟨w, rest, hvalues, hd, hds⟩, v, hv => by
    subst hvalues
    rcases List.mem_cons.mp hv with rfl | hv
    · exact inDomain_of_denotes d hd
    · exact inDomain_of_denotesAll ds hds v hv

theorem inDomain_of_denotesFields : ∀ (ds : List Datum) {fields : List TypeField} {m : FieldMap},
    DenotesFields t ds fields m → ∀ f ∈ fields, InDomain t True f.type (m.get f.name)
  | [], _, _, h, f, hf => by
    cases h
    cases hf
  | d :: ds, _, _, ⟨field, rest, hfields, hd, hds⟩, f, hf => by
    subst hfields
    rcases List.mem_cons.mp hf with rfl | hf
    · exact inDomain_of_denotes d hd
    · exact inDomain_of_denotesFields ds hds f hf
end

theorem inDomain_iff {T : String} {v : Value} : InDomain t True T v ↔ Accepts t T v :=
  ⟨InDomain.accepts, fun ⟨d, hd⟩ => inDomain_of_denotes d hd⟩

theorem subCall_refers {c c' : Call} (h : SubCall t c c') : Refers t c.1 c'.1 := by
  rcases h with ⟨name, m, hk, _, pre, field, post, hfields, _, rfl⟩ | ⟨T, values, hk, _, _, _, _, _, _, rfl⟩
  · obtain ⟨rfl, hT⟩ := fieldKind_eq_struct.mp hk
    obtain ⟨fields, hT⟩ := Option.isSome_iff_exists.mp hT
    rw [Types.fields, hT, Option.getD_some] at hfields
    exact .field hT (by simp [hfields])
  · obtain ⟨hT, harray⟩ := fieldKind_eq_array.mp hk
    exact .element hT harray

theorem not_endless_of_acyclic (h : Acyclic t) (c : Call) : ¬ Endless t c := by
  rintro ⟨_, hcycle⟩
  exact h c.1 (hcycle.lift id fun _ _ hstep => subCall_refers hstep)

theorem malformed_iff {c : Call} : Malformed t c ↔ t.definition c.1 = none ∧ Unopened c.1 := by
  unfold Malformed
  rw [fieldKind_eq_undeclared (by simp), undeclaredKind_eq_unopened]

theorem stops_of_acyclic (hacyclic : Acyclic t) {T : String}
    (hopened : ∀ T', ReflTransGen (Refers t) T T' → t.definition T' = none → ¬ Unopened T')
    (v : Value) : ∃ n, Stops (encodeField env t n T v) := by
  refine (stops_iff (c := (T, v))).mpr fun c hc => ⟨fun hmal => ?_, not_endless_of_acyclic hacyclic c⟩
  obtain ⟨hT, hun⟩ := malformed_iff.mp hmal
  exact hopened c.1 (hc.lift Prod.fst fun _ _ => subCall_refers) hT hun

/-- On types without cycles the encoder succeeds on every value of the domain. On every other value,
also counting in those that are cut off, it has no result, and it returns an error unless the type
leads to a bracket that is never opened. -/
theorem encodeField_accepts_domain (env : HashEnv) (t : Types) (hacyclic : Acyclic t) (T : String)
    (v : Value) :
    (InDomain t False T v → ∃ n b, encodeField env t n T v = .done b) ∧
    (¬ InDomain t True T v → (∀ n b, encodeField env t n T v ≠ .done b) ∧
      ((∀ T', ReflTransGen (Refers t) T T' → t.definition T' = none → ¬ Unopened T') →
        ∃ n err, encodeField env t n T v = .failed (.error err))) := by
  constructor
  · intro h
    exact encodeField_done_iff.mpr (h.mono False.elim).accepts
  · intro h
    have hnone : ∀ n b, encodeField env t n T v ≠ .done b := fun n b hb =>
      h (inDomain_iff.mpr (accepts_of_done hb))
    refine ⟨hnone, fun hopened => ?_⟩
    obtain ⟨n, ⟨b, hb⟩ | ⟨err, he⟩⟩ := stops_of_acyclic hacyclic hopened v
    · exact (hnone n b hb).elim
    · exact ⟨n, err, he⟩

theorem acyclic_of_rank (rank : String → Nat) (h : ∀ T T', Refers t T T' → rank T' < rank T) :
    Acyclic t := by
  intro T hcycle
  have hlt : ∀ T', TransGen (Refers t) T T' → rank T' < rank T := fun T' hT' => by
    induction hT' with
    | single hstep => exact h _ _ hstep
    | tail _ hstep ih => exact (h _ _ hstep).trans ih
  exact lt_irrefl _ (hlt T hcycle)

/-- A struct with an integer and an array. -/
def orderTypes : Types := [("Order", some [⟨"amount", "uint8"⟩, ⟨"tags", "bytes4[2]"⟩])]

def orderRank (T : String) : Nat :=
  T.toList.length + if "Order".toList <+: T.toList then 100 else 0

theorem orderTypes_definition {T : String} {fields : List TypeField}
    (h : orderTypes.definition T = some fields) :
    T = "Order" ∧ fields = [⟨"amount", "uint8"⟩, ⟨"tags", "bytes4[2]"⟩] := by
  unfold Types.definition orderTypes at h
  rw [List.lookup_cons] at h
  split at h
  · next hT => exact ⟨eq_of_beq hT, by cases h; rfl⟩
  · cases h

theorem orderTypes_acyclic : Acyclic orderTypes := by
  refine acyclic_of_rank orderRank fun T T' hstep => ?_
  cases hstep with
  | field hT hfield =>
    obtain ⟨rfl, rfl⟩ := orderTypes_definition hT
    rcases List.mem_pair.mp hfield with rfl | rfl <;> decide
  | element _ harray =>
    have hlt := harray.length_lt
    unfold orderRank
    by_cases hT' : "Order".toList <+: T'.toList
    · rw [if_pos hT', if_pos (hT'.trans harray.prefixOf)]
      omega
    · rw [if_neg hT']
      omega

theorem encodeField_accepts_domain_order :
    (∃ n b, encodeField keccakEnv orderTypes n "Order"
      (.map [("amount", .string "0x12c"), ("tags", .array [.string "0xdead"])]) = .done b) ∧
    ∃ n err, encodeField keccakEnv orderTypes n "uint8" (.string "1.5") = .failed (.error err) := by
  constructor
  · refine (encodeField_accepts_domain keccakEnv orderTypes orderTypes_acyclic "Order" _).1 ?_
    have hamount : SpellsInteger (.string "0x12c") (300 : Nat) :=
      .inl ⟨_, rfl, readSigned_eq_some.mp (by decide)⟩
    have htag : HexText (.string "0xdead") [0xde, 0xad] := ⟨_, rfl, by decide⟩
    have hbytes4 : ArrayOf "bytes4[2]" "bytes4" := ⟨['2'], by decide, by decide⟩
    refine .struct rfl (.inl rfl) fun f hf => ?_
    rcases List.mem_pair.mp hf with rfl | rfl
    · exact .integer rfl ⟨by decide, by decide⟩ hamount (by norm_num)
    · refine .array rfl hbytes4 fun v hv => ?_
      obtain rfl := List.mem_singleton.mp hv
      exact .fixedBytes rfl ⟨by decide, by decide, by decide⟩ htag (.inl (by decide))
  · refine ((encodeField_accepts_domain keccakEnv orderTypes orderTypes_acyclic "uint8" _).2 ?_).2 ?_
    · intro h
      have hfailed : encodeField keccakEnv orderTypes 1 "uint8" (.string "1.5") =
        failText ("invalid integer value " ++ "1.5".quote) := rfl
      exact not_accepts_of_failed hfailed (inDomain_iff.mp h)
    · intro T' hT' _ hun
      rcases ReflTransGen.cases_head hT' with rfl | ⟨mid, hstep, _⟩
      · exact absurd hun.1 (by decide)
      · cases hstep with
        | field hT _ => exact absurd (orderTypes_definition hT).1 (by decide)
        | element _ harray => exact absurd harray.getLast?_eq (by decide)

/-- A `uint8` of 300 is taken: the width of the type is not looked at. -/
theorem encodeField_accepts_wide_integer :
    ¬ ∀ (t : Types) (T : String) (v : Value), Acyclic t →
      ((∃ n b, encodeField keccakEnv t n T v = .done b) ↔
        ∃ d τ, τ.render = T ∧ Conforms t d τ v) := by
  intro h
  have hdone : ∃ n b, encodeField keccakEnv [] n "uint8" (.number "300") = .done b :=
    ⟨1, _, rfl⟩
  have hempty : Acyclic [] := acyclic_of_rank (fun T => T.toList.length) fun T T' hstep => by
    cases hstep with
    | field hT _ => cases hT
    | element _ harray => exact harray.length_lt
  obtain ⟨d, τ, hτ, hd⟩ := (h [] "uint8" (.number "300") hempty).mp hdone
  have huint : ∀ n : Fin 32, (SolType.uint n).render = "uint8" → n = 0 := by decide +kernel
  have hint : ∀ n : Fin 32, (SolType.int n).render ≠ "uint8" := by decide +kernel
  cases d with
  | integer i =>
    obtain ⟨hspell, ⟨n, rfl, hi⟩ | ⟨n, rfl, _⟩⟩ := hd
    · obtain rfl := huint n hτ
      have hread : readSigned 10 "300".toList = some 300 := by decide
      have hi300 : (i : Int) = 300 := by
        rcases hspell with ⟨_, hv, _⟩ | ⟨_, hv, hspell⟩ | ⟨hv, _⟩ | hv
        · cases hv
        · cases hv
          rw [← readSigned_eq_some, hread] at hspell
          exact (Option.some.inj hspell).symm
        · cases hv
        · cases hv
      have hbits : SolType.bits 0 = 8 := rfl
      rw [hbits] at hi
      omega
    · exact hint n hτ
  | bool b => cases hd.2
  | address bs => obtain ⟨_, ⟨_, hv, _⟩, _⟩ := hd; cases hv
  | fraction q => exact hd
  | fixedBytes bs => obtain ⟨_, _, ⟨_, hv, _⟩, _⟩ := hd; cases hv
  | bytes bs => obtain ⟨_, _, hv, _⟩ := hd; cases hv
  | string s => cases hd.2
  | array items => obtain ⟨_, _, _, hv, _⟩ := hd; cases hv
  | struct name members => obtain ⟨_, _, _, _, hv, _⟩ := hd; cases hv

end Signare
