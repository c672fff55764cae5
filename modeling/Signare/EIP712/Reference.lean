import Signare.EIP712.TypeHash
import Mathlib.Data.Finset.Sort

/-!
# The encoder and the standard

What EIP-712 defines, on data that conforms to its types: the type string lists the structs that are
used at any depth in order, and a struct hash is the hash of the type hash and the encoded members.
The encoder computes the same.
-/

namespace Signare

open ByteCodec Relation

/-- A field of the first struct is of the second one, or an array of it at any depth. -/
def Uses (t : Types) (name name' : String) : Prop :=
  (t.definition name').isSome ∧ ∃ field ∈ t.fields name, ∃ suffix,
    field.type.toList = name'.toList ++ suffix ∧ (suffix = [] ∨ suffix.head? = some '[')

open Classical in
/-- The other structs that are used, at any depth. -/
noncomputable def usedStructs (t : Types) (name : String) : Finset String :=
  t.names.filter fun name' => name' ≠ name ∧ ReflTransGen (Uses t) name name'

/-- The definition of the struct, and those of the structs it uses sorted by name. -/
noncomputable def standardEncodeType (t : Types) (name : String) : String :=
  structString t name ++
    String.join (((usedStructs t name).sort (· ≤ ·)).map (structString t))

noncomputable def standardTypeHash (keccak : Hash256) (t : Types) (name : String) : Bytes :=
  keccak.sum (utf8 (standardEncodeType t name))

variable {env : HashEnv} {t : Types}

theorem mem_usedStructs {name name' : String} :
    name' ∈ usedStructs t name ↔
      name' ∈ t.names ∧ name' ≠ name ∧ ReflTransGen (Uses t) name name' := by
  simp [usedStructs]

theorem mem_mentions_iff (h : ProperNames t) {name name' : String} :
    name' ∈ t.mentions name ↔ Uses t name name' := by
  constructor
  · intro hmem
    refine ⟨definition_of_mem_mentions hmem, ?_⟩
    obtain ⟨field, hfield, rfl⟩ := List.mem_map.mp (List.mem_filter.mp hmem).1
    refine ⟨field, hfield, field.type.toList.dropWhile (· ≠ '['), ?_, ?_⟩
    · rw [baseType, String.toList_ofList, beforeFirst, List.takeWhile_append_dropWhile]
    · cases hdrop : field.type.toList.dropWhile (· ≠ '[') with
      | nil => exact .inl rfl
      | cons c cs =>
        right
        have hc := List.head?_dropWhile_not (fun x => decide (x ≠ '[')) field.type.toList
        rw [hdrop] at hc
        simpa using hc
  · rintro ⟨hname', field, hfield, suffix, hsuffix, hend⟩
    have hbracket := (h.identifier name' hname').notMem (c := '[') (by decide)
    refine List.mem_filter.mpr ⟨List.mem_map.mpr ⟨field, hfield, ?_⟩, by simpa using hname'⟩
    exact baseType_of_append hbracket hsuffix hend

theorem leads_iff_uses (h : ProperNames t) {name name' : String} :
    Leads t name name' ↔ ReflTransGen (Uses t) name name' := by
  have hrel : (fun a b => b ∈ t.mentions a) = Uses t := by
    funext a b
    exact propext (mem_mentions_iff h)
  rw [Leads, hrel]

theorem encodeType_eq_standard (h : ProperNames t) {name : String}
    (hname : (t.definition name).isSome) : encodeType env t name = standardEncodeType t name := by
  have hnodup := (List.perm_insertionSort (· ≤ ·) _).nodup_iff.mpr
    (@nodup_dependencies env t name hname)
  have hperm : (((dependencies env t name).insertionSort (· ≤ ·)).erase name).Perm
      ((usedStructs t name).sort (· ≤ ·)) := by
    refine (List.perm_ext_iff_of_nodup (hnodup.erase _) (Finset.sort_nodup _ _)).mpr fun a => ?_
    rw [Finset.mem_sort, hnodup.mem_erase_iff, List.mem_insertionSort, mem_dependencies_iff hname,
      mem_usedStructs, leads_iff_uses h]
    constructor
    · rintro ⟨hne, huses⟩
      refine ⟨mem_names_of_definition (definition_of_leads hname ?_), hne, huses⟩
      exact (leads_iff_uses h).mpr huses
    · exact fun ⟨_, hne, huses⟩ => ⟨hne, huses⟩
  have hsorted : ((dependencies env t name).insertionSort (· ≤ ·)).erase name =
      (usedStructs t name).sort (· ≤ ·) :=
    hperm.eq_of_pairwise' ((List.pairwise_insertionSort (· ≤ ·) _).sublist List.erase_sublist)
      (Finset.pairwise_sort _ _)
  rw [encodeType, orderedTypes_eq hname, hsorted, List.map_cons, String.join_cons,
    standardEncodeType]

section Encoding

variable {keccak : Hash256} {typeHash₁ typeHash₂ : String → Bytes}

mutual
theorem enc_congr (h : ∀ name, (t.definition name).isSome → typeHash₁ name = typeHash₂ name) :
    ∀ (d : Datum) {τ : SolType} {v : Value}, Conforms t d τ v →
      d.enc keccak typeHash₁ = d.enc keccak typeHash₂
  | .bool _, _, _, _ | .address _, _, _, _ | .integer _, _, _, _ | .fraction _, _, _, _
  | .fixedBytes _, _, _, _ | .bytes _, _, _, _ | .string _, _, _, _ => rfl
  | .array items, _, _, ⟨_, _, _, _, hitems⟩ => by
    rw [Datum.enc, Datum.enc, encAll_congr h items hitems]
  | .struct name members, _, _, ⟨_, _, _, hname, _, hmembers⟩ => by
    rw [Datum.enc, Datum.enc, h name (by rw [hname]; rfl), encFields_congr h members hmembers]

theorem encAll_congr (h : ∀ name, (t.definition name).isSome → typeHash₁ name = typeHash₂ name) :
    ∀ (ds : List Datum) {element : SolType} {values : List Value},
      ConformsAll t ds element values →
      Datum.encAll keccak typeHash₁ ds = Datum.encAll keccak typeHash₂ ds
  | [], _, _, _ => rfl
  | d :: ds, _, _, ⟨_, _, _, hd, hds⟩ => by
    rw [Datum.encAll, Datum.encAll, enc_congr h d hd, encAll_congr h ds hds]

theorem encFields_congr (h : ∀ name, (t.definition name).isSome → typeHash₁ name = typeHash₂ name) :
    ∀ (ds : List Datum) {fields : List TypeField} {m : FieldMap},
      ConformsFields t ds fields m →
      Datum.encAll keccak typeHash₁ ds = Datum.encAll keccak typeHash₂ ds
  | [], _, _, _ => rfl
  | d :: ds, _, _, ⟨_, _, _, _, _, _, _, hd, hds⟩ => by
    rw [Datum.encAll, Datum.encAll, enc_congr h d hd, encFields_congr h ds hds]
end

end Encoding

theorem conforms_struct {name : String} {m : FieldMap} {d : Datum}
    (h : Conforms t d (.struct name) (.map m)) : ∃ members fields, d = .struct name members ∧
      t.definition name = some fields ∧ ConformsFields t members fields m := by
  cases d with
  | struct name' members =>
    obtain ⟨fields, m', hname, hfields, hm, hmembers⟩ := h
    cases hname
    cases hm
    exact ⟨members, fields, rfl, hfields, hmembers⟩
  | integer i => obtain ⟨_, ⟨_, h, _⟩ | ⟨_, h, _⟩⟩ := h <;> cases h
  | fraction q => exact h.elim
  | fixedBytes bs => obtain ⟨_, h, _⟩ := h; cases h
  | array items => obtain ⟨_, _, h | h, _⟩ := h <;> cases h
  | _ => cases h.1

theorem hashStruct_eq_standard (h : ProperNames t) {name : String} {m : FieldMap} {d : Datum}
    (hd : Conforms t d (.struct name) (.map m)) :
    ∃ n, hashStruct env t n name m =
      .done (d.enc env.keccak (standardTypeHash env.keccak t)) := by
  have hcongr : ∀ name, (t.definition name).isSome →
      typeHash env t name = standardTypeHash env.keccak t name := fun name hname => by
    rw [typeHash, encodeType_eq_standard h hname, standardTypeHash]
  rw [← enc_congr hcongr d hd]
  obtain ⟨members, fields, rfl, hname, hmembers⟩ := conforms_struct hd
  refine hashStruct_of_denotes ?_
  rw [Types.fields, hname]
  exact denotesFields_of_conforms h members hmembers

/-- Typed data that conforms is hashed as the standard says. -/
theorem hashTypedData_eq_standard (env : HashEnv) (data : TypedData) (domain message : Datum)
    (hnames : ProperNames data.types)
    (hdomain : Conforms data.types domain (.struct "EIP712Domain") (.map data.domain.toFieldMap))
    (hmessage : Conforms data.types message (.struct data.primaryType) (.map data.message)) :
    let hash := Datum.enc env.keccak (standardTypeHash env.keccak data.types)
    ∃ n, hashTypedData env n data =
      .done (hash message, env.keccak.sum ([0x19, 0x01] ++ hash domain ++ hash message)) := by
  intro hash
  obtain ⟨n, hn⟩ := @hashStruct_eq_standard env _ hnames _ _ _ hdomain
  obtain ⟨k, hk⟩ := @hashStruct_eq_standard env _ hnames _ _ _ hmessage
  refine ⟨max n k, hashTypedData_eq_done.mpr ⟨(hash domain, hash message), ?_, rfl⟩⟩
  exact structHashes_eq_done.mpr ⟨(hashStruct_mono (le_max_left n k) _ _).done hn,
    (hashStruct_mono (le_max_right n k) _ _).done hk⟩

def etherMail : TypedData where
  types :=
    [("EIP712Domain", some [⟨"name", "string"⟩, ⟨"version", "string"⟩, ⟨"chainId", "uint256"⟩,
        ⟨"verifyingContract", "address"⟩]),
      ("Person", some [⟨"name", "string"⟩, ⟨"wallet", "address"⟩]),
      ("Mail", some [⟨"from", "Person"⟩, ⟨"to", "Person"⟩, ⟨"contents", "string"⟩])]
  primaryType := "Mail"
  domain := ⟨"Ether Mail", "1", some 1, "0xCcCCccccCCCCcCCCCCCcCcCccCcCCCcCcccccccC", ""⟩
  message :=
    [("from", .map [("name", .string "Cow"),
        ("wallet", .string "0xCD2a3d9F938E13CD947Ec05AbC7FE734Df8DD826")]),
      ("to", .map [("name", .string "Bob"),
        ("wallet", .string "0xbBbBBBBbbBBBbbbBbbBbbbbBBbBbbbbBbBbbBBbB")]),
      ("contents", .string "Hello, Bob!")]

set_option maxRecDepth 100000 in
example : hashTypedData keccakEnv 3 etherMail = .done
    ([0xc5, 0x2c, 0x0e, 0xe5, 0xd8, 0x42, 0x64, 0x47, 0x18, 0x06, 0x29, 0x0a, 0x3f, 0x2c, 0x4c,
      0xec, 0xfc, 0x54, 0x90, 0x62, 0x6b, 0xf9, 0x12, 0xd0, 0x1f, 0x24, 0x0d, 0x7a, 0x27, 0x4b,
      0x37, 0x1e],
      [0xbe, 0x60, 0x9a, 0xee, 0x34, 0x3f, 0xb3, 0xc4, 0xb2, 0x8e, 0x1d, 0xf9, 0xe6, 0x32, 0xfc,
       0xa6, 0x4f, 0xcf, 0xae, 0xde, 0x20, 0xf0, 0x2e, 0x86, 0x24, 0x4e, 0xfd, 0xdf, 0x30, 0x95,
       0x7b, 0xd2]) := by
  decide +kernel

def cow : Bytes :=
  [0xcd, 0x2a, 0x3d, 0x9f, 0x93, 0x8e, 0x13, 0xcd, 0x94, 0x7e, 0xc0, 0x5a, 0xbc, 0x7f, 0xe7,
   0x34, 0xdf, 0x8d, 0xd8, 0x26]

def bob : Bytes := List.replicate 20 0xbb

def person (name : String) (wallet : Bytes) : Datum := .struct "Person" [.string name, .address wallet]

def etherMailDomain : Datum :=
  .struct "EIP712Domain" [.string "Ether Mail", .string "1", .integer 1,
    .address (List.replicate 20 0xcc)]

def etherMailMessage : Datum :=
  .struct "Mail" [person "Cow" cow, person "Bob" bob, .string "Hello, Bob!"]

private theorem identifier_tail {cs : List Char}
    (h : cs.all fun x => x.isAlphanum || (x == '_' || x == '$')) :
    ∀ x ∈ cs, x.isAlphanum ∨ x = '_' ∨ x = '$' := by
  simpa using h

theorem etherMail_properNames : ProperNames etherMail.types where
  identifier name h := by
    obtain ⟨fields, hfields⟩ := Option.isSome_iff_exists.mp h
    have hmem := List.mem_map_of_mem (f := Prod.fst) (mem_of_definition hfields)
    have hnames : name ∈ ["EIP712Domain", "Person", "Mail"] := hmem
    simp only [List.mem_cons, List.not_mem_nil, or_false] at hnames
    rcases hnames with rfl | rfl | rfl
    · exact ⟨'E', "IP712Domain".toList, by decide, by decide, identifier_tail (by decide)⟩
    · exact ⟨'P', "erson".toList, by decide, by decide, identifier_tail (by decide)⟩
    · exact ⟨'M', "ail".toList, by decide, by decide, identifier_tail (by decide)⟩
  not_builtin τ h := by
    have huint : ∀ n : Fin 32, etherMail.types.definition (SolType.uint n).render = none := by
      decide +kernel
    have hint : ∀ n : Fin 32, etherMail.types.definition (SolType.int n).render = none := by
      decide +kernel
    have hbytes : ∀ n : Fin 32, etherMail.types.definition (SolType.fixedBytes n).render = none := by
      decide +kernel
    cases τ with
    | uint n => exact huint n
    | int n => exact hint n
    | fixedBytes n => exact hbytes n
    | struct name => exact h.elim
    | array element => exact h.elim
    | fixedArray element length => exact h.elim
    | _ => decide

theorem person_conforms {name wallet : String} {bs : Bytes} (h : HexText (.string wallet) bs)
    (hlen : bs.length = 20) : Conforms etherMail.types (person name bs) (.struct "Person")
      (.map [("name", .string name), ("wallet", .string wallet)]) :=
  ⟨_, _, rfl, rfl, rfl, _, _, .string, _, rfl, rfl, rfl, ⟨rfl, rfl⟩,
    _, _, .address, _, rfl, rfl, rfl, ⟨rfl, h, hlen⟩, rfl⟩

theorem etherMail_domain_conforms : Conforms etherMail.types etherMailDomain
    (.struct "EIP712Domain") (.map etherMail.domain.toFieldMap) := by
  have hmap : etherMail.domain.toFieldMap = [("name", .string "Ether Mail"),
      ("version", .string "1"), ("chainId", .bigInt 1),
      ("verifyingContract", .string "0xCcCCccccCCCCcCCCCCCcCcCccCcCCCcCcccccccC")] := rfl
  rw [hmap]
  exact ⟨_, _, rfl, rfl, rfl, _, _, .string, _, rfl, rfl, rfl, ⟨rfl, rfl⟩,
    _, _, .string, _, rfl, rfl, rfl, ⟨rfl, rfl⟩,
    _, _, .uint 31, _, rfl, by decide +kernel, rfl,
      ⟨.inr (.inr (.inr rfl)), .inl ⟨31, rfl, by decide +kernel⟩⟩,
    _, _, .address, _, rfl, rfl, rfl, ⟨rfl, ⟨_, rfl, by decide +kernel⟩, rfl⟩, rfl⟩

theorem etherMail_message_conforms : Conforms etherMail.types etherMailMessage
    (.struct "Mail") (.map etherMail.message) :=
  ⟨_, _, rfl, rfl, rfl,
    _, _, .struct "Person", _, rfl, rfl, rfl,
      person_conforms ⟨_, rfl, by decide +kernel⟩ rfl,
    _, _, .struct "Person", _, rfl, rfl, rfl,
      person_conforms ⟨_, rfl, by decide +kernel⟩ rfl,
    _, _, .string, _, rfl, rfl, rfl, ⟨rfl, rfl⟩, rfl⟩

theorem hashTypedData_eq_standard_mail :
    let hash := Datum.enc keccak256 (standardTypeHash keccak256 etherMail.types)
    ∃ n, hashTypedData keccakEnv n etherMail =
      .done (hash etherMailMessage,
        keccak256.sum ([0x19, 0x01] ++ hash etherMailDomain ++ hash etherMailMessage)) :=
  hashTypedData_eq_standard keccakEnv etherMail etherMailDomain etherMailMessage
    etherMail_properNames etherMail_domain_conforms etherMail_message_conforms

end Signare
