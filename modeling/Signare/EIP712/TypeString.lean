import Signare.EIP712.Encode

/-!
# Type strings

What cutting a type string at a bracket gives, and the form of the string that each branch of the
encoder is taken on.
-/

namespace Signare

theorem beforeLast_eq_none {c : Char} {cs : List Char} : beforeLast c cs = none ↔ c ∉ cs := by
  induction cs with
  | nil => simp [beforeLast]
  | cons x xs ih =>
    simp only [beforeLast, List.mem_cons, not_or]
    cases h : beforeLast c xs with
    | some p =>
      have hmem : c ∈ xs := by
        by_contra hc
        rw [ih.mpr hc] at h
        cases h
      simp [hmem]
    | none =>
      have hc := ih.mp h
      by_cases hx : x = c
      · simp [hx]
      · simp [hx, hc, Ne.symm hx]

theorem beforeLast_append {c : Char} {p post : List Char} (h : c ∉ post) :
    beforeLast c (p ++ c :: post) = some p := by
  induction p with
  | nil => simp [beforeLast, beforeLast_eq_none.mpr h]
  | cons x xs ih => simp [beforeLast, ih]

theorem beforeLast_eq_some {c : Char} {cs p : List Char} :
    beforeLast c cs = some p ↔ ∃ post, cs = p ++ c :: post ∧ c ∉ post := by
  constructor
  · induction cs generalizing p with
    | nil => intro h; cases h
    | cons x xs ih =>
      intro h
      rw [beforeLast] at h
      split at h
      · next before hb =>
        cases h
        obtain ⟨post, rfl, hpost⟩ := ih hb
        exact ⟨post, rfl, hpost⟩
      · next hb =>
        split at h
        · next hx =>
          cases h
          exact ⟨xs, by rw [hx]; rfl, beforeLast_eq_none.mp hb⟩
        · cases h
  · rintro ⟨post, rfl, hpost⟩
    exact beforeLast_append hpost

/-- The type string `subType` with one array suffix. -/
def ArrayOf (fieldType subType : String) : Prop :=
  ∃ length, fieldType.toList = subType.toList ++ '[' :: (length ++ [']']) ∧ '[' ∉ length

theorem ArrayOf.getLast?_eq {fieldType subType : String} (h : ArrayOf fieldType subType) :
    fieldType.toList.getLast? = some ']' := by
  obtain ⟨length, hT, _⟩ := h
  have hlast : fieldType.toList = (subType.toList ++ '[' :: length) ++ [']'] := by
    rw [hT, List.append_assoc, List.cons_append]
  rw [hlast, List.getLast?_concat]

theorem ArrayOf.length_lt {fieldType subType : String} (h : ArrayOf fieldType subType) :
    subType.toList.length < fieldType.toList.length := by
  obtain ⟨length, hT, _⟩ := h
  rw [hT]
  simp

theorem ArrayOf.prefixOf {fieldType subType : String} (h : ArrayOf fieldType subType) :
    subType.toList <+: fieldType.toList := by
  obtain ⟨length, hT, _⟩ := h
  rw [hT]
  exact List.prefix_append _ _

theorem undeclaredKind_eq_array {fieldType subType : String} :
    undeclaredKind fieldType = .array (some subType) ↔ ArrayOf fieldType subType := by
  constructor
  · intro h
    unfold undeclaredKind at h
    split at h
    · next hlast =>
      simp only [FieldKind.array.injEq, Option.map_eq_some_iff] at h
      obtain ⟨p, hp, rfl⟩ := h
      obtain ⟨post, hpost, hmem⟩ := beforeLast_eq_some.mp hp
      rcases List.eq_nil_or_concat post with rfl | ⟨length, last, rfl⟩
      · rw [hpost] at hlast
        simp at hlast
      · rw [hpost] at hlast
        simp only [List.getLast?_append, List.getLast?_cons] at hlast
        simp only [List.concat_eq_append] at hpost hmem hlast
        have hbracket : last = ']' := by simpa using hlast
        refine ⟨length, ?_, fun hin => hmem (by simp [hin])⟩
        rw [hpost, hbracket, String.toList_ofList]
    · split_ifs at h
  · intro h
    rw [undeclaredKind, if_pos h.getLast?_eq]
    obtain ⟨length, hT, hmem⟩ := h
    rw [hT, beforeLast_append (by simp [hmem])]
    simp

/-- An array suffix that is closed and never opened. -/
def Unopened (fieldType : String) : Prop :=
  fieldType.toList.getLast? = some ']' ∧ '[' ∉ fieldType.toList

/-- `uint` or `int`, and whatever follows but an array suffix. -/
def IntegerType (fieldType : String) : Prop :=
  fieldType.toList.getLast? ≠ some ']' ∧
    ("uint".toList <+: fieldType.toList ∨ "int".toList <+: fieldType.toList)

/-- `bytes`, and whatever follows but an array suffix. -/
def FixedBytesType (fieldType : String) : Prop :=
  fieldType.toList.getLast? ≠ some ']' ∧ fieldType ≠ "bytes" ∧ "bytes".toList <+: fieldType.toList

theorem undeclaredKind_eq_unopened {fieldType : String} :
    undeclaredKind fieldType = .array none ↔ Unopened fieldType := by
  unfold undeclaredKind Unopened
  rw [← beforeLast_eq_none]
  split_ifs with h <;> simp [h]

theorem undeclaredKind_eq_address {fieldType : String} :
    undeclaredKind fieldType = .address ↔ fieldType = "address" := by
  refine ⟨fun h => ?_, fun h => by subst h; decide⟩
  unfold undeclaredKind at h
  split_ifs at h
  assumption

theorem undeclaredKind_eq_string {fieldType : String} :
    undeclaredKind fieldType = .string ↔ fieldType = "string" := by
  refine ⟨fun h => ?_, fun h => by subst h; decide⟩
  unfold undeclaredKind at h
  split_ifs at h
  assumption

theorem undeclaredKind_eq_bytes {fieldType : String} :
    undeclaredKind fieldType = .bytes ↔ fieldType = "bytes" := by
  refine ⟨fun h => ?_, fun h => by subst h; decide⟩
  unfold undeclaredKind at h
  split_ifs at h
  assumption

theorem undeclaredKind_eq_bool {fieldType : String} :
    undeclaredKind fieldType = .bool ↔ fieldType = "bool" := by
  refine ⟨fun h => ?_, fun h => by subst h; decide⟩
  unfold undeclaredKind at h
  split_ifs at h
  assumption

theorem undeclaredKind_eq_integer {fieldType : String} :
    undeclaredKind fieldType = .integer ↔ IntegerType fieldType := by
  unfold undeclaredKind IntegerType
  split_ifs with hlast ha hs hb hbool hint
  · simp [hlast]
  · subst ha; decide
  · subst hs; decide
  · subst hb; decide
  · subst hbool; decide
  · exact iff_of_true rfl ⟨hlast, hint⟩
  · exact iff_of_false (by simp) fun h => hint h.2
  · exact iff_of_false (by simp) fun h => hint h.2

theorem undeclaredKind_eq_fixedBytes {fieldType : String} :
    undeclaredKind fieldType = .fixedBytes ↔ FixedBytesType fieldType := by
  unfold undeclaredKind FixedBytesType
  split_ifs with hlast ha hs hb hbool hint hbytes
  · simp [hlast]
  · subst ha; decide
  · subst hs; decide
  · simp [hb]
  · subst hbool; decide
  · refine iff_of_false (by simp) fun ⟨_, _, hbytes⟩ => ?_
    rcases hint with hint | hint
    · have := List.prefix_of_prefix_length_le hint hbytes (by decide)
      revert this; decide
    · have := List.prefix_of_prefix_length_le hint hbytes (by decide)
      revert this; decide
  · exact iff_of_true rfl ⟨hlast, hb, hbytes⟩
  · exact iff_of_false (by simp) fun h => hbytes h.2.2

theorem fieldKind_of_definition {t : Types} {T : String} (h : (t.definition T).isSome) :
    fieldKind t T = .struct T := if_pos h

theorem fieldKind_of_undeclared {t : Types} {T : String} (h : t.definition T = none) :
    fieldKind t T = undeclaredKind T := by
  rw [fieldKind, h]
  rfl

theorem undeclaredKind_ne_struct (T name : String) : undeclaredKind T ≠ .struct name := by
  unfold undeclaredKind
  split_ifs <;> simp

theorem fieldKind_eq_undeclared {t : Types} {T : String} {kind : FieldKind}
    (hkind : ∀ name, kind ≠ .struct name) :
    fieldKind t T = kind ↔ t.definition T = none ∧ undeclaredKind T = kind := by
  cases h : t.definition T with
  | some fields => simp [fieldKind_of_definition, h, (hkind T).symm]
  | none => simp [fieldKind_of_undeclared h]

theorem fieldKind_eq_struct {t : Types} {T name : String} :
    fieldKind t T = .struct name ↔ name = T ∧ (t.definition T).isSome := by
  by_cases h : (t.definition T).isSome
  · rw [fieldKind_of_definition h]
    simp [h, eq_comm]
  · rw [fieldKind, if_neg h]
    simp [h, undeclaredKind_ne_struct]

theorem fieldKind_eq_array {t : Types} {T subType : String} :
    fieldKind t T = .array (some subType) ↔ t.definition T = none ∧ ArrayOf T subType := by
  cases h : t.definition T with
  | some fields => simp [fieldKind, h]
  | none => rw [fieldKind_of_undeclared h, undeclaredKind_eq_array]; simp

end Signare
