import Signare.EIP712.Dependencies
import Signare.EIP712.Acceptance

/-!
# The type string commits to the definitions

On maps whose names do not contain the punctuation of a type string, the string can be read back:
two maps with one type string for their primary types give the same definition wherever the encoder
looks one up.
-/

namespace Signare

open Relation

theorem append_cons_inj_of_notMem {α : Type} {c : α} {a b x y : List α} (ha : c ∉ a) (hb : c ∉ b)
    (h : a ++ c :: x = b ++ c :: y) : a = b ∧ x = y := by
  induction a generalizing b with
  | nil =>
    cases b with
    | nil => exact ⟨rfl, List.tail_eq_of_cons_eq h⟩
    | cons d b => exact (hb (by rw [List.head_eq_of_cons_eq h]; exact List.mem_cons_self)).elim
  | cons e a ih =>
    cases b with
    | nil => exact (ha (by rw [← List.head_eq_of_cons_eq h]; exact List.mem_cons_self)).elim
    | cons d b =>
      obtain ⟨rfl, htail⟩ := List.cons.inj h
      obtain ⟨rfl, rfl⟩ := ih (fun hc => ha (List.mem_cons_of_mem _ hc))
        (fun hc => hb (List.mem_cons_of_mem _ hc)) htail
      exact ⟨rfl, rfl⟩

theorem mem_intercalate {α : Type} {c x : α} {ls : List (List α)} (h : x ∈ [c].intercalate ls) :
    x = c ∨ ∃ l ∈ ls, x ∈ l := by
  induction ls with
  | nil => simp at h
  | cons l ls ih =>
    cases ls with
    | nil => exact .inr ⟨l, by simpa using h⟩
    | cons l' ls =>
      rw [List.intercalate_cons_cons, List.append_assoc, List.mem_append, List.mem_append,
        List.mem_singleton] at h
      rcases h with h | h | h
      · exact .inr ⟨l, List.mem_cons_self, h⟩
      · exact .inl h
      · exact (ih h).imp_right fun ⟨m, hm, hx⟩ => ⟨m, List.mem_cons_of_mem _ hm, hx⟩

/-- A field whose type ends at the first space and whose name at the first comma or parenthesis. -/
def PlainField (field : TypeField) : Prop :=
  (' ' ∉ field.type.toList ∧ ',' ∉ field.type.toList ∧ ')' ∉ field.type.toList) ∧
    ',' ∉ field.name.toList ∧ ')' ∉ field.name.toList
  deriving Decidable

/-- A struct name that ends at the first parenthesis and is no array. -/
def PlainName (name : String) : Prop := '(' ∉ name.toList ∧ '[' ∉ name.toList
  deriving Decidable

/-- Names and types without the punctuation that ends them in a type string. -/
def PlainTypes (t : Types) : Prop :=
  ∀ name fields, t.definition name = some fields → PlainName name ∧ ∀ f ∈ fields, PlainField f

theorem plainTypes_of_bindings {t : Types}
    (h : ∀ b ∈ t, PlainName b.1 ∧ ∀ f ∈ b.2.getD [], PlainField f) : PlainTypes t :=
  fun _ _ hname => h _ (mem_of_definition hname)

variable {t t₁ t₂ : Types}

theorem PlainTypes.field (h : PlainTypes t) {name : String} {field : TypeField}
    (hfield : field ∈ t.fields name) : PlainField field := by
  unfold Types.fields at hfield
  cases hname : t.definition name with
  | none => rw [hname] at hfield; cases hfield
  | some fields =>
    rw [hname] at hfield
    exact (h name fields hname).2 field hfield

theorem toList_fieldString (field : TypeField) :
    (fieldString field).toList = field.type.toList ++ ' ' :: field.name.toList := by
  simp [fieldString]

theorem fieldString_injective {f g : TypeField} (hf : PlainField f) (hg : PlainField g)
    (h : (fieldString f).toList = (fieldString g).toList) : f = g := by
  rw [toList_fieldString, toList_fieldString] at h
  obtain ⟨htype, hname⟩ := append_cons_inj_of_notMem hf.1.1 hg.1.1 h
  obtain ⟨name, type⟩ := f
  obtain ⟨name', type'⟩ := g
  obtain rfl : name = name' := String.toList_inj.mp hname
  obtain rfl : type = type' := String.toList_inj.mp htype
  rfl

theorem comma_notMem_fieldString {f : TypeField} (hf : PlainField f) :
    ',' ∉ (fieldString f).toList := by
  rw [toList_fieldString]
  simp [hf.1.2.1, hf.2.1]

theorem parenthesis_notMem_fieldString {f : TypeField} (hf : PlainField f) :
    ')' ∉ (fieldString f).toList := by
  rw [toList_fieldString]
  simp [hf.1.2.2, hf.2.2]

/-- What stands between the parentheses of a definition. -/
def fieldsString (fields : List TypeField) : List Char :=
  [','].intercalate (fields.map fun field => (fieldString field).toList)

theorem toList_structString (t : Types) (name : String) :
    (structString t name).toList = name.toList ++ '(' :: (fieldsString (t.fields name) ++ [')']) := by
  simp [structString, fieldsString, Function.comp_def]

theorem fieldsString_injective {fs gs : List TypeField} (hf : ∀ f ∈ fs, PlainField f)
    (hg : ∀ g ∈ gs, PlainField g) (h : fieldsString fs = fieldsString gs) : fs = gs := by
  have hsplit : ∀ fs : List TypeField, (∀ f ∈ fs, PlainField f) → fs ≠ [] →
      (fieldsString fs).splitOn ',' = fs.map fun field => (fieldString field).toList :=
    fun fs hfs hne => List.splitOn_intercalate ',' (by
      intro l hl
      obtain ⟨f, hfmem, rfl⟩ := List.mem_map.mp hl
      exact comma_notMem_fieldString (hfs f hfmem)) (by simpa using hne)
  have hnil : ∀ fs : List TypeField, (∀ f ∈ fs, PlainField f) → fieldsString fs = [] → fs = [] := by
    intro fs hfs hempty
    by_contra hne
    have hsingle := hsplit fs hfs hne
    rw [hempty] at hsingle
    cases fs with
    | nil => exact hne rfl
    | cons f fs =>
      have hhead : (fieldString f).toList = [] := (List.head_eq_of_cons_eq hsingle).symm
      rw [toList_fieldString] at hhead
      simp at hhead
  rcases eq_or_ne fs [] with rfl | hfs
  · exact (hnil gs hg h.symm).symm
  · rcases eq_or_ne gs [] with rfl | hgs
    · exact hnil fs hf h
    · have hmaps := (hsplit fs hf hfs).symm.trans ((congrArg _ h).trans (hsplit gs hg hgs))
      clear hsplit hnil h hfs hgs
      induction fs generalizing gs with
      | nil =>
        cases gs with
        | nil => rfl
        | cons g gs => cases hmaps
      | cons f fs ih =>
        cases gs with
        | nil => cases hmaps
        | cons g gs =>
          obtain ⟨hhead, htail⟩ := List.cons.inj hmaps
          rw [fieldString_injective (hf f List.mem_cons_self) (hg g List.mem_cons_self) hhead,
            ih (fun x hx => hf x (List.mem_cons_of_mem _ hx))
              (fun x hx => hg x (List.mem_cons_of_mem _ hx)) htail]

theorem parenthesis_notMem_fieldsString {fields : List TypeField}
    (h : ∀ f ∈ fields, PlainField f) : ')' ∉ fieldsString fields := by
  intro hmem
  rcases mem_intercalate hmem with hc | ⟨l, hl, hc⟩
  · cases hc
  · obtain ⟨f, hf, rfl⟩ := List.mem_map.mp hl
    exact parenthesis_notMem_fieldString (h f hf) hc

theorem structStrings_injective (h₁ : PlainTypes t₁) (h₂ : PlainTypes t₂) {names₁ names₂ : List String}
    (hn₁ : ∀ name ∈ names₁, (t₁.definition name).isSome)
    (hn₂ : ∀ name ∈ names₂, (t₂.definition name).isSome)
    (h : names₁.flatMap (fun name => (structString t₁ name).toList) =
      names₂.flatMap (fun name => (structString t₂ name).toList)) :
    names₁ = names₂ ∧ ∀ name ∈ names₁, t₁.fields name = t₂.fields name := by
  induction names₁ generalizing names₂ with
  | nil =>
    cases names₂ with
    | nil => exact ⟨rfl, by simp⟩
    | cons b names₂ => simp [toList_structString] at h
  | cons a names₁ ih =>
    cases names₂ with
    | nil => simp [toList_structString] at h
    | cons b names₂ =>
      have hplain₁ : '(' ∉ a.toList := by
        obtain ⟨fields, hfields⟩ := Option.isSome_iff_exists.mp (hn₁ a List.mem_cons_self)
        exact (h₁ a fields hfields).1.1
      have hplain₂ : '(' ∉ b.toList := by
        obtain ⟨fields, hfields⟩ := Option.isSome_iff_exists.mp (hn₂ b List.mem_cons_self)
        exact (h₂ b fields hfields).1.1
      simp only [List.flatMap_cons, toList_structString, List.append_assoc, List.cons_append,
        List.nil_append] at h
      obtain ⟨hname, hbody⟩ := append_cons_inj_of_notMem hplain₁ hplain₂ h
      obtain ⟨hfields, hrest⟩ := append_cons_inj_of_notMem
        (parenthesis_notMem_fieldsString fun _ => h₁.field)
        (parenthesis_notMem_fieldsString fun _ => h₂.field) hbody
      obtain rfl := String.toList_inj.mp hname
      have hsame := fieldsString_injective (fun _ => h₁.field) (fun _ => h₂.field) hfields
      obtain ⟨rfl, hall⟩ := ih (fun x hx => hn₁ x (List.mem_cons_of_mem _ hx))
        (fun x hx => hn₂ x (List.mem_cons_of_mem _ hx)) (by simpa [toList_structString] using hrest)
      exact ⟨rfl, List.forall_mem_cons.mpr ⟨hsame, hall⟩⟩

/-- A type that a field of a struct leads to, as it stands or cut before an array suffix. -/
def Within (t : Types) (primaryType T : String) : Prop :=
  T = primaryType ∨ ∃ name, Leads t primaryType name ∧ ∃ field ∈ t.fields name, ∃ suffix,
    field.type.toList = T.toList ++ suffix ∧ (suffix = [] ∨ suffix.head? = some '[')

theorem baseType_of_append {T type : String} {suffix : List Char} (hT : '[' ∉ T.toList)
    (h : type.toList = T.toList ++ suffix) (hsuffix : suffix = [] ∨ suffix.head? = some '[') :
    baseType type = T := by
  have htake : beforeFirst '[' (T.toList ++ suffix) = T.toList := by
    have hall : ∀ x ∈ T.toList, x ≠ '[' := fun x hx hc => hT (hc ▸ hx)
    unfold beforeFirst
    rw [List.takeWhile_append_of_pos (by simpa using hall)]
    rcases hsuffix with rfl | hsuffix
    · simp
    · cases suffix with
      | nil => simp
      | cons c cs =>
        obtain rfl : c = '[' := by simpa using hsuffix
        simp
  rw [baseType, h, htake, String.ofList_toList]

theorem Within.leads (h : PlainTypes t) {primaryType T : String} (hT : (t.definition T).isSome)
    (hw : Within t primaryType T) : Leads t primaryType T := by
  rcases hw with rfl | ⟨name, hname, field, hfield, suffix, hsuffix, hend⟩
  · exact .refl
  · obtain ⟨fields, hfields⟩ := Option.isSome_iff_exists.mp hT
    have hbase := baseType_of_append (h T fields hfields).1.2 hsuffix hend
    refine .tail hname (List.mem_filter.mpr ⟨?_, by simpa using hT⟩)
    exact List.mem_map.mpr ⟨field, hfield, hbase⟩

theorem within_of_refers (h : PlainTypes t) {primaryType T : String}
    (hP : (t.definition primaryType).isSome) (hreach : ReflTransGen (Refers t) primaryType T) :
    Within t primaryType T := by
  induction hreach with
  | refl => exact .inl rfl
  | @tail T _ _ hstep ih =>
    cases hstep with
    | @field fields field hT hfield =>
      have hleads := ih.leads h (by rw [hT]; rfl)
      refine .inr ⟨T, hleads, field, ?_, [], by simp, .inl rfl⟩
      rwa [Types.fields, hT]
    | element hT harray =>
      rcases ih with rfl | ⟨name, hname, field, hfield, suffix, hsuffix, _⟩
      · rw [hT] at hP; cases hP
      · obtain ⟨length, hlength, _⟩ := harray
        refine .inr ⟨name, hname, field, hfield, '[' :: (length ++ [']'] ++ suffix), ?_, .inr rfl⟩
        rw [hsuffix, hlength]
        simp

theorem toList_encodeType (env : HashEnv) (t : Types) (P : String) :
    (encodeType env t P).toList =
      (orderedTypes P (dependencies env t P)).flatMap fun name => (structString t name).toList := by
  rw [encodeType, String.toList_join, List.flatMap_map]

theorem orderedTypes_of_undefined {env : HashEnv} {P : String} (h : t.definition P = none) :
    orderedTypes P (dependencies env t P) = [] := by
  have hwalk : findDependencies t (t.length + 1) P [] = [] := by
    rw [findDependencies, if_neg List.not_mem_nil, h]
  have hnil : dependencies env t P = [] := by
    rw [dependencies, hwalk]
    exact (env.mapOrder_perm []).eq_nil
  rw [hnil]
  simp [orderedTypes]

theorem encodeType_injective {env₁ env₂ : HashEnv} (h₁ : PlainTypes t₁) (h₂ : PlainTypes t₂)
    {P₁ P₂ : String} (hP₁ : (t₁.definition P₁).isSome)
    (h : encodeType env₁ t₁ P₁ = encodeType env₂ t₂ P₂) :
    P₁ = P₂ ∧ (t₂.definition P₂).isSome ∧ (∀ name, Leads t₁ P₁ name ↔ Leads t₂ P₂ name) ∧
      ∀ name, Leads t₁ P₁ name → t₁.definition name = t₂.definition name := by
  have hchars := congrArg String.toList h
  rw [toList_encodeType, toList_encodeType] at hchars
  have hn₁ : ∀ name ∈ orderedTypes P₁ (dependencies env₁ t₁ P₁), (t₁.definition name).isSome :=
    fun name hname => definition_of_leads hP₁ ((mem_orderedTypes_iff hP₁).mp hname)
  have hP₂ : (t₂.definition P₂).isSome := by
    by_contra hnone
    rw [Option.not_isSome_iff_eq_none] at hnone
    rw [orderedTypes_of_undefined hnone] at hchars
    obtain ⟨hnil, _⟩ := structStrings_injective h₁ h₂ hn₁ (by simp) hchars
    rw [orderedTypes_eq hP₁] at hnil
    cases hnil
  obtain ⟨horder, hfields⟩ := structStrings_injective h₁ h₂ hn₁
    (fun name hname => definition_of_leads hP₂ ((mem_orderedTypes_iff hP₂).mp hname)) hchars
  have hleads : ∀ name, Leads t₁ P₁ name ↔ Leads t₂ P₂ name := fun name => by
    rw [← @mem_orderedTypes_iff env₁ t₁ P₁ name hP₁, horder, mem_orderedTypes_iff hP₂]
  refine ⟨?_, hP₂, hleads, fun name hname => ?_⟩
  · rw [orderedTypes_eq hP₁, orderedTypes_eq hP₂] at horder
    exact List.head_eq_of_cons_eq horder
  · have hsame := hfields name ((mem_orderedTypes_iff hP₁).mpr hname)
    obtain ⟨fields₁, hf₁⟩ := Option.isSome_iff_exists.mp (definition_of_leads hP₁ hname)
    obtain ⟨fields₂, hf₂⟩ :=
      Option.isSome_iff_exists.mp (definition_of_leads hP₂ ((hleads name).mp hname))
    rw [Types.fields, Types.fields, hf₁, hf₂] at hsame
    rw [hf₁, hf₂]
    exact congrArg some hsame

/-- On plain types one type string leaves no choice in what is looked up: wherever the encoding of a
message of the primary type gets to, both maps give the same definition, or none. -/
theorem encodeType_commits_to_lookups (env₁ env₂ : HashEnv) (t₁ t₂ : Types) (P₁ P₂ : String)
    (h₁ : PlainTypes t₁) (h₂ : PlainTypes t₂) (hP₁ : (t₁.definition P₁).isSome)
    (h : encodeType env₁ t₁ P₁ = encodeType env₂ t₂ P₂) :
    P₁ = P₂ ∧ ∀ message c, ReflTransGen (SubCall t₁) (P₁, .map message) c →
      t₁.definition c.1 = t₂.definition c.1 := by
  obtain ⟨rfl, hP₂, hleads, hsame⟩ := encodeType_injective h₁ h₂ hP₁ h
  refine ⟨rfl, fun message c hc => ?_⟩
  have hrefers : ReflTransGen (Refers t₁) P₁ c.1 := hc.lift Prod.fst fun _ _ => subCall_refers
  have hwithin := within_of_refers h₁ hP₁ hrefers
  cases hc₁ : t₁.definition c.1 with
  | some fields => rw [← hc₁, hsame c.1 (hwithin.leads h₁ (by rw [hc₁]; rfl))]
  | none =>
    cases hc₂ : t₂.definition c.1 with
    | none => rfl
    | some fields =>
      have hwithin₂ : Within t₂ P₁ c.1 := by
        rcases hwithin with heq | ⟨name, hname, field, hfield, hsuffix⟩
        · exact .inl heq
        · refine .inr ⟨name, (hleads name).mp hname, field, ?_, hsuffix⟩
          rwa [Types.fields, ← hsame name hname]
      have hleads₁ := (hleads c.1).mpr (hwithin₂.leads h₂ (by rw [hc₂]; rfl))
      rw [hsame c.1 hleads₁, hc₂] at hc₁
      cases hc₁

def mailType : String × Option (List TypeField) :=
  ("Mail", some [⟨"from", "Person"⟩, ⟨"to", "Person[]"⟩, ⟨"contents", "string"⟩])

def personType : String × Option (List TypeField) :=
  ("Person", some [⟨"name", "string"⟩, ⟨"wallet", "address"⟩])

set_option maxRecDepth 100000 in
/-- The maps may differ in what the primary type does not reach. -/
theorem encodeType_commits_to_lookups_mail :
    "Mail" = "Mail" ∧ ∀ message c,
      ReflTransGen (SubCall [mailType, personType]) ("Mail", .map message) c →
        Types.definition [mailType, personType] c.1 =
          Types.definition [("Order", some []), personType, mailType] c.1 :=
  encodeType_commits_to_lookups keccakEnv keccakEnv _ _ "Mail" "Mail"
    (plainTypes_of_bindings (by decide)) (plainTypes_of_bindings (by decide)) (by decide)
    (by decide +kernel)

def spoofedTypes : Types :=
  [("EIP712Domain", some []), ("Permit", some [⟨"owner,uint256 value", "address"⟩])]

def permitTypes : Types :=
  [("EIP712Domain", some []), ("Permit", some [⟨"owner", "address"⟩, ⟨"value", "uint256"⟩])]

set_option maxRecDepth 100000 in
/-- A field name with a comma in it passes for two fields. -/
theorem encodeType_commits_to_lookups_spoofed :
    (∀ domain message, (TypedData.mk spoofedTypes "Permit" domain message).validate = .ok () ∧
      (TypedData.mk permitTypes "Permit" domain message).validate = .ok ()) ∧
    encodeType keccakEnv spoofedTypes "Permit" = encodeType keccakEnv permitTypes "Permit" ∧
    spoofedTypes.definition "Permit" ≠ permitTypes.definition "Permit" := by
  refine ⟨fun domain message => ⟨rfl, rfl⟩, by decide +kernel, by decide⟩

end Signare
