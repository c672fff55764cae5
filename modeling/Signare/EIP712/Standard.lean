import Signare.EIP712.Datum
import Signare.EIP712.TypeString

/-!
# Types and values of the standard

The types that EIP-712 gives, how they are written, and which values of a message conform to them.
On maps of types with proper names, a value that conforms says the same to the encoder.
-/

namespace Signare

open ByteCodec

/-- A type of the standard. `n : Fin 32` stands for the `n + 1` bytes of a word. -/
inductive SolType
  | bool
  | address
  | string
  | bytes
  | fixedBytes (n : Fin 32)
  | uint (n : Fin 32)
  | int (n : Fin 32)
  | struct (name : String)
  | array (element : SolType)
  | fixedArray (element : SolType) (length : Nat)
  deriving DecidableEq, Repr

namespace SolType

def bits (n : Fin 32) : Nat := 8 * (n.val + 1)

/-- The type as a type string. -/
def render : SolType → String
  | bool => "bool"
  | address => "address"
  | string => "string"
  | bytes => "bytes"
  | fixedBytes n => "bytes" ++ toString (n.val + 1)
  | uint n => "uint" ++ toString (bits n)
  | int n => "int" ++ toString (bits n)
  | struct name => name
  | array element => element.render ++ "[]"
  | fixedArray element length => element.render ++ "[" ++ toString length ++ "]"

/-- Neither a struct nor an array. -/
def Elementary : SolType → Prop
  | struct _ | array _ | fixedArray _ _ => False
  | _ => True

/-- The branch that encodes the type. -/
def kind : SolType → FieldKind
  | bool => .bool
  | address => .address
  | string => .string
  | bytes => .bytes
  | fixedBytes _ => .fixedBytes
  | uint _ | int _ => .integer
  | struct name => .struct name
  | array element => .array (some element.render)
  | fixedArray element _ => .array (some element.render)

end SolType

mutual
/-- The value `v` spells `d`, a value of the standard's type `τ`. -/
def Conforms (t : Types) : Datum → SolType → Value → Prop
  | .bool b, τ, v => τ = .bool ∧ v = .bool b
  | .address bs, τ, v => τ = .address ∧ HexText v bs ∧ bs.length = 20
  | .integer i, τ, v => SpellsInteger v i ∧
      ((∃ n, τ = .uint n ∧ i < 2 ^ SolType.bits n) ∨ ∃ n, τ = .int n ∧ i < 2 ^ (SolType.bits n - 1))
  | .fraction _, _, _ => False
  | .fixedBytes bs, τ, v => ∃ n, τ = .fixedBytes n ∧ HexText v bs ∧ bs.length = n.val + 1
  | .bytes bs, τ, v => τ = .bytes ∧ HexText v bs
  | .string s, τ, v => τ = .string ∧ v = .string s
  | .array items, τ, v =>
    ∃ element values, (τ = .array element ∨ τ = .fixedArray element values.length) ∧
      v = .array values ∧ ConformsAll t items element values
  | .struct name members, τ, v =>
    ∃ fields m, τ = .struct name ∧ t.definition name = some fields ∧ v = .map m ∧
      ConformsFields t members fields m
termination_by structural d => d

/-- The elements of an array. -/
def ConformsAll (t : Types) : List Datum → SolType → List Value → Prop
  | [], _, values => values = []
  | d :: ds, element, values =>
    ∃ v rest, values = v :: rest ∧ Conforms t d element v ∧ ConformsAll t ds element rest
termination_by structural ds => ds

/-- The declared fields of a struct, each of them present. -/
def ConformsFields (t : Types) : List Datum → List TypeField → FieldMap → Prop
  | [], fields, _ => fields = []
  | d :: ds, fields, m =>
    ∃ field rest τ v, fields = field :: rest ∧ field.type = τ.render ∧
      m.lookup field.name = some v ∧ Conforms t d τ v ∧ ConformsFields t ds rest m
termination_by structural ds => ds
end

/-- A letter, `_` or `$`, and then digits too. -/
def Identifier (s : String) : Prop :=
  ∃ c cs, s.toList = c :: cs ∧ (c.isAlpha ∨ c = '_' ∨ c = '$') ∧
    ∀ x ∈ cs, x.isAlphanum ∨ x = '_' ∨ x = '$'

/-- Structs are named by identifiers other than the names of the elementary types. -/
structure ProperNames (t : Types) : Prop where
  identifier : ∀ name, (t.definition name).isSome → Identifier name
  not_builtin : ∀ (τ : SolType), τ.Elementary → t.definition τ.render = none

theorem Identifier.notMem {s : String} {c : Char} (h : Identifier s)
    (hc : ¬ (c.isAlphanum ∨ c = '_' ∨ c = '$')) : c ∉ s.toList := by
  obtain ⟨x, xs, hs, hx, hxs⟩ := h
  rw [hs, List.mem_cons, not_or]
  refine ⟨?_, fun hmem => hc (hxs c hmem)⟩
  rintro rfl
  rcases hx with hx | hx
  · exact hc (.inl (by simp [Char.isAlphanum, hx]))
  · exact hc (.inr hx)

theorem arrayOf_array (τ : SolType) : ArrayOf (SolType.array τ).render τ.render :=
  ⟨[], by simp [SolType.render], by simp⟩

theorem arrayOf_fixedArray (τ : SolType) (length : Nat) :
    ArrayOf (SolType.fixedArray τ length).render τ.render := by
  refine ⟨(toString length).toList, by simp [SolType.render], fun hmem => ?_⟩
  rw [Nat.toString_eq_repr, Nat.toList_repr] at hmem
  have hdigit := Nat.isDigit_of_mem_toDigits (by norm_num) (by norm_num) hmem
  cases hdigit

theorem definition_of_arrayOf {t : Types} (h : ProperNames t) {T sub : String}
    (hT : ArrayOf T sub) : t.definition T = none := by
  by_contra hsome
  have hid := h.identifier T (Option.isSome_iff_ne_none.mpr hsome)
  have hmem : ']' ∈ T.toList := List.mem_of_getLast? hT.getLast?_eq
  exact hid.notMem (by decide) hmem

theorem undeclaredKind_elementary (τ : SolType) (h : τ.Elementary) :
    undeclaredKind τ.render = τ.kind := by
  have huint : ∀ n : Fin 32, undeclaredKind (SolType.uint n).render = .integer := by decide +kernel
  have hint : ∀ n : Fin 32, undeclaredKind (SolType.int n).render = .integer := by decide +kernel
  have hbytes : ∀ n : Fin 32, undeclaredKind (SolType.fixedBytes n).render = .fixedBytes := by
    decide +kernel
  cases τ with
  | bool => decide
  | address => decide
  | string => decide
  | bytes => decide
  | fixedBytes n => exact hbytes n
  | uint n => exact huint n
  | int n => exact hint n
  | _ => exact h.elim

theorem fieldKind_elementary {t : Types} (h : ProperNames t) {τ : SolType} (hτ : τ.Elementary) :
    fieldKind t τ.render = τ.kind := by
  rw [fieldKind_of_undeclared (h.not_builtin τ hτ), undeclaredKind_elementary τ hτ]

variable {t : Types}

mutual
theorem denotes_of_conforms (h : ProperNames t) : ∀ (d : Datum) {τ : SolType} {v : Value},
    Conforms t d τ v → Denotes t d τ.render v
  | .bool b, τ, v, ⟨hτ, hv⟩ => by
    subst hτ
    exact ⟨fieldKind_elementary h (τ := .bool) trivial, hv⟩
  | .address bs, τ, v, ⟨hτ, hv⟩ => by
    subst hτ
    exact ⟨fieldKind_elementary h (τ := .address) trivial, hv⟩
  | .integer i, τ, v, ⟨hv, hi⟩ => by
    have hbits : ∀ (n : Fin 32) (k : Nat), k ≤ SolType.bits n → i < 2 ^ k → i < 2 ^ 256 :=
      fun n k hk hlt => by
        have hle : k ≤ 256 := by
          have := n.isLt
          unfold SolType.bits at hk
          omega
        exact hlt.trans_le (Nat.pow_le_pow_right two_pos hle)
    rcases hi with ⟨n, rfl, hlt⟩ | ⟨n, rfl, hlt⟩
    · exact ⟨fieldKind_elementary h (τ := .uint n) trivial, hv, hbits n _ le_rfl hlt⟩
    · exact ⟨fieldKind_elementary h (τ := .int n) trivial, hv, hbits n _ (Nat.sub_le _ _) hlt⟩
  | .fraction q, τ, v, hq => hq.elim
  | .fixedBytes bs, τ, v, ⟨n, hτ, hv, _⟩ => by
    subst hτ
    exact ⟨fieldKind_elementary h (τ := .fixedBytes n) trivial, hv⟩
  | .bytes bs, τ, v, ⟨hτ, hv⟩ => by
    subst hτ
    exact ⟨fieldKind_elementary h (τ := .bytes) trivial, hv⟩
  | .string s, τ, v, ⟨hτ, hv⟩ => by
    subst hτ
    exact ⟨fieldKind_elementary h (τ := .string) trivial, hv⟩
  | .array items, τ, v, ⟨element, values, hτ, hv, hitems⟩ => by
    have harray : ArrayOf τ.render element.render := by
      rcases hτ with rfl | rfl
      · exact arrayOf_array element
      · exact arrayOf_fixedArray element _
    exact ⟨element.render, values, fieldKind_eq_array.mpr ⟨definition_of_arrayOf h harray, harray⟩,
      hv, denotesAll_of_conforms h items hitems⟩
  | .struct name members, τ, v, ⟨fields, m, hτ, hname, hv, hmembers⟩ => by
    subst hτ
    have hfields : t.fields name = fields := by rw [Types.fields, hname]; rfl
    refine ⟨m, fieldKind_of_definition (by rw [SolType.render, hname]; rfl), .inl hv, ?_⟩
    rw [hfields]
    exact denotesFields_of_conforms h members hmembers

theorem denotesAll_of_conforms (h : ProperNames t) : ∀ (ds : List Datum) {element : SolType}
    {values : List Value}, ConformsAll t ds element values → DenotesAll t ds element.render values
  | [], _, _, hvalues => hvalues
  | d :: ds, _, _, ⟨v, rest, hvalues, hd, hds⟩ =>
    ⟨v, rest, hvalues, denotes_of_conforms h d hd, denotesAll_of_conforms h ds hds⟩

theorem denotesFields_of_conforms (h : ProperNames t) : ∀ (ds : List Datum)
    {fields : List TypeField} {m : FieldMap}, ConformsFields t ds fields m →
    DenotesFields t ds fields m
  | [], _, _, hfields => hfields
  | d :: ds, fields, m, ⟨field, rest, τ, v, hfields, hτ, hv, hd, hds⟩ => by
    refine ⟨field, rest, hfields, ?_, denotesFields_of_conforms h ds hds⟩
    rw [hτ, FieldMap.get, hv]
    exact denotes_of_conforms h d hd
end

end Signare
