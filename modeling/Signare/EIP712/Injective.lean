import Signare.EIP712.Datum
import Mathlib.Data.Set.Function

/-!
# The digest determines the message

Up to the zero padding of `bytesN`, the encoding of a datum determines it, as far as the hash tells
apart the strings hashed on the way. So two messages with one digest say the same.
-/

namespace Signare

open ByteCodec

section Defs

variable (keccak : Hash256) (typeHash : String → Bytes)

mutual
/-- The strings hashed while a datum is encoded, type strings apart. -/
def Datum.hashInputs : Datum → List Bytes
  | .bytes bs => [bs]
  | .string s => [utf8 s]
  | .array items => Datum.encAll keccak typeHash items :: Datum.hashInputsAll items
  | .struct name members =>
    (typeHash name ++ Datum.encAll keccak typeHash members) :: Datum.hashInputsAll members
  | _ => []
termination_by structural d => d

def Datum.hashInputsAll : List Datum → List Bytes
  | [] => []
  | d :: ds => Datum.hashInputs d ++ Datum.hashInputsAll ds
termination_by structural ds => ds
end

end Defs

mutual
/-- The datum with every `bytesN` padded to its word. -/
def Datum.padded : Datum → Datum
  | .fixedBytes bs => .fixedBytes (rightPad 32 bs)
  | .array items => .array (Datum.paddedAll items)
  | .struct name members => .struct name (Datum.paddedAll members)
  | d => d
termination_by structural d => d

def Datum.paddedAll : List Datum → List Datum
  | [] => []
  | d :: ds => Datum.padded d :: Datum.paddedAll ds
termination_by structural ds => ds
end

mutual
/-- Nothing of the datum is cut off: no fraction, no more than 32 bytes in a word. -/
def Datum.Exact : Datum → Prop
  | .fraction _ => False
  | .fixedBytes bs => bs.length ≤ 32
  | .array items => Datum.ExactAll items
  | .struct _ members => Datum.ExactAll members
  | _ => True
termination_by structural d => d

def Datum.ExactAll : List Datum → Prop
  | [] => True
  | d :: ds => Datum.Exact d ∧ Datum.ExactAll ds
termination_by structural ds => ds
end

section Encoding

variable {keccak : Hash256} {typeHash : String → Bytes} {t : Types}

theorem length_enc {d : Datum} {T : String} {v : Value} (h : Denotes t d T v) :
    (d.enc keccak typeHash).length = 32 := by
  cases d with
  | bool b =>
    rw [Datum.enc]
    refine length_beWord ?_
    split <;> norm_num
  | address bs =>
    obtain ⟨_, _, hlen⟩ := h
    rw [Datum.enc]
    exact length_leftPad (by omega)
  | integer n =>
    obtain ⟨_, _, hn⟩ := h
    rw [Datum.enc]
    exact length_beWord (by norm_num; omega)
  | fraction q =>
    obtain ⟨_, _, _, hlt, hpos⟩ := h
    have hn := fraction_lt hlt hpos
    rw [Datum.enc]
    exact length_beWord (by norm_num; omega)
  | fixedBytes bs => rw [Datum.enc]; exact length_rightPad _ _
  | bytes bs => rw [Datum.enc]; exact keccak.length_sum _
  | string s => rw [Datum.enc]; exact keccak.length_sum _
  | array items => rw [Datum.enc]; exact keccak.length_sum _
  | struct name members => rw [Datum.enc]; exact keccak.length_sum _

theorem denotes_shape {d : Datum} {T : String} {v : Value} (h : Denotes t d T v) :
    match fieldKind t T with
    | .bool => ∃ b, d = .bool b
    | .address => ∃ bs, d = .address bs
    | .integer => (∃ n, d = .integer n) ∨ ∃ q, d = .fraction q
    | .fixedBytes => ∃ bs, d = .fixedBytes bs
    | .bytes => ∃ bs, d = .bytes bs
    | .string => ∃ s, d = .string s
    | .array (some subType) => ∃ items values, d = .array items ∧ DenotesAll t items subType values
    | .struct name => ∃ members m, d = .struct name members ∧
        DenotesFields t members (t.fields name) m
    | _ => False := by
  cases d with
  | array items =>
    obtain ⟨subType, values, hk, _, hitems⟩ := h
    rw [hk]
    exact ⟨items, values, rfl, hitems⟩
  | struct name members =>
    obtain ⟨m, hk, _, hmembers⟩ := h
    rw [hk]
    exact ⟨members, m, rfl, hmembers⟩
  | integer n => rw [h.1]; exact .inl ⟨n, rfl⟩
  | fraction q => rw [h.1]; exact .inr ⟨q, rfl⟩
  | _ => rw [h.1]; exact ⟨_, rfl⟩

private theorem append_inj_of_denotes {d e : Datum} {T : String} {v w : Value} {xs ys : Bytes}
    (hd : Denotes t d T v) (he : Denotes t e T w)
    (h : d.enc keccak typeHash ++ xs = e.enc keccak typeHash ++ ys) :
    d.enc keccak typeHash = e.enc keccak typeHash ∧ xs = ys :=
  List.append_inj h ((length_enc hd).trans (length_enc he).symm)

private theorem encAll_cons_ne_nil {d : Datum} {ds : List Datum} {T : String} {v : Value}
    (hd : Denotes t d T v) : Datum.encAll keccak typeHash (d :: ds) ≠ [] := by
  intro h
  rw [Datum.encAll] at h
  have hlen : (d.enc keccak typeHash).length = 32 := length_enc hd
  rw [(List.append_eq_nil_iff.mp h).1] at hlen
  cases hlen

mutual
theorem padded_of_enc : ∀ (d : Datum) {e : Datum} {T : String} {v w : Value},
    Denotes t d T v → Denotes t e T w → d.Exact → e.Exact →
    Set.InjOn keccak.sum {x | x ∈ d.hashInputs keccak typeHash ∨ x ∈ e.hashInputs keccak typeHash} →
    d.enc keccak typeHash = e.enc keccak typeHash → d.padded = e.padded
  | .bool b, e, T, v, w, hd, he, _, _, _, h => by
    have hshape := denotes_shape he
    rw [hd.1] at hshape
    obtain ⟨c, rfl⟩ := hshape
    rw [Datum.enc, Datum.enc] at h
    have hnum := beWord_injective 32 h
    cases b <;> cases c <;> first | rfl | cases hnum
  | .address bs, e, T, v, w, hd, he, _, _, _, h => by
    have hshape := denotes_shape he
    rw [hd.1] at hshape
    obtain ⟨cs, rfl⟩ := hshape
    have hb : bs.length = 20 := hd.2.2
    have hc : cs.length = 20 := he.2.2
    rw [Datum.enc, Datum.enc, leftPad, leftPad, hb, hc] at h
    rw [List.append_cancel_left h]
  | .integer n, e, T, v, w, hd, he, _, hee, _, h => by
    have hshape := denotes_shape he
    rw [hd.1] at hshape
    obtain ⟨k, rfl⟩ | ⟨q, rfl⟩ := hshape
    · rw [Datum.enc, Datum.enc] at h
      rw [beWord_injective 32 h]
    · exact hee.elim
  | .fraction q, e, T, v, w, _, _, hde, _, _, _ => hde.elim
  | .fixedBytes bs, e, T, v, w, hd, he, _, _, _, h => by
    have hshape := denotes_shape he
    rw [hd.1] at hshape
    obtain ⟨cs, rfl⟩ := hshape
    rw [Datum.enc, Datum.enc] at h
    rw [Datum.padded, Datum.padded, h]
  | .bytes bs, e, T, v, w, hd, he, _, _, hinj, h => by
    have hshape := denotes_shape he
    rw [hd.1] at hshape
    obtain ⟨cs, rfl⟩ := hshape
    rw [Datum.enc, Datum.enc] at h
    rw [hinj (.inl (by simp [Datum.hashInputs])) (.inr (by simp [Datum.hashInputs])) h]
  | .string s, e, T, v, w, hd, he, _, _, hinj, h => by
    have hshape := denotes_shape he
    rw [hd.1] at hshape
    obtain ⟨s', rfl⟩ := hshape
    rw [Datum.enc, Datum.enc] at h
    have hutf8 := hinj (.inl (by simp [Datum.hashInputs])) (.inr (by simp [Datum.hashInputs])) h
    rw [utf8_injective hutf8]
  | .array items, e, T, v, w, hd, he, hde, hee, hinj, h => by
    obtain ⟨subType, values, hk, _, hitems⟩ := hd
    have hshape := denotes_shape he
    rw [hk] at hshape
    obtain ⟨items', values', rfl, hitems'⟩ := hshape
    rw [Datum.enc, Datum.enc] at h
    have hall := hinj (.inl (by simp [Datum.hashInputs])) (.inr (by simp [Datum.hashInputs])) h
    rw [Datum.padded, Datum.padded, paddedAll_of_encAll items hitems hitems' hde hee
      (hinj.mono fun x hx => hx.imp (List.mem_cons_of_mem _) (List.mem_cons_of_mem _)) hall]
  | .struct name members, e, T, v, w, hd, he, hde, hee, hinj, h => by
    obtain ⟨m, hk, _, hmembers⟩ := hd
    have hshape := denotes_shape he
    rw [hk] at hshape
    obtain ⟨members', m', rfl, hmembers'⟩ := hshape
    rw [Datum.enc, Datum.enc] at h
    have hall := hinj (.inl (by simp [Datum.hashInputs])) (.inr (by simp [Datum.hashInputs])) h
    rw [Datum.padded, Datum.padded, paddedFields_of_encAll members hmembers hmembers' hde hee
      (hinj.mono fun x hx => hx.imp (List.mem_cons_of_mem _) (List.mem_cons_of_mem _))
      (List.append_cancel_left hall)]

theorem paddedAll_of_encAll : ∀ (ds : List Datum) {es : List Datum} {T : String}
    {values values' : List Value}, DenotesAll t ds T values → DenotesAll t es T values' →
    Datum.ExactAll ds → Datum.ExactAll es →
    Set.InjOn keccak.sum {x | x ∈ Datum.hashInputsAll keccak typeHash ds ∨
      x ∈ Datum.hashInputsAll keccak typeHash es} →
    Datum.encAll keccak typeHash ds = Datum.encAll keccak typeHash es →
    Datum.paddedAll ds = Datum.paddedAll es
  | [], [], _, _, _, _, _, _, _, _, _ => rfl
  | [], e :: es, _, _, _, _, hes, _, _, _, h => by
    obtain ⟨_, _, _, he, _⟩ := hes
    exact (encAll_cons_ne_nil he h.symm).elim
  | d :: ds, [], _, _, _, hds, _, _, _, _, h => by
    obtain ⟨_, _, _, hd, _⟩ := hds
    exact (encAll_cons_ne_nil hd h).elim
  | d :: ds, e :: es, T, _, _, hds, hes, hde, hee, hinj, h => by
    obtain ⟨v, rest, _, hd, hds⟩ := hds
    obtain ⟨w, rest', _, he, hes⟩ := hes
    obtain ⟨hhead, htail⟩ := append_inj_of_denotes hd he h
    have hsub : ∀ x, x ∈ Datum.hashInputsAll keccak typeHash ds ∨
        x ∈ Datum.hashInputsAll keccak typeHash es →
        x ∈ Datum.hashInputsAll keccak typeHash (d :: ds) ∨
        x ∈ Datum.hashInputsAll keccak typeHash (e :: es) := fun x hx =>
      hx.imp (List.mem_append_right _) (List.mem_append_right _)
    rw [Datum.paddedAll, Datum.paddedAll,
      padded_of_enc d hd he hde.1 hee.1
        (hinj.mono fun x hx => hx.imp (List.mem_append_left _) (List.mem_append_left _)) hhead,
      paddedAll_of_encAll ds hds hes hde.2 hee.2 (hinj.mono hsub) htail]

theorem paddedFields_of_encAll : ∀ (ds : List Datum) {es : List Datum} {fields : List TypeField}
    {m m' : FieldMap}, DenotesFields t ds fields m → DenotesFields t es fields m' →
    Datum.ExactAll ds → Datum.ExactAll es →
    Set.InjOn keccak.sum {x | x ∈ Datum.hashInputsAll keccak typeHash ds ∨
      x ∈ Datum.hashInputsAll keccak typeHash es} →
    Datum.encAll keccak typeHash ds = Datum.encAll keccak typeHash es →
    Datum.paddedAll ds = Datum.paddedAll es
  | [], [], _, _, _, _, _, _, _, _, _ => rfl
  | [], e :: es, _, _, _, _, hes, _, _, _, h => by
    obtain ⟨_, _, _, he, _⟩ := hes
    exact (encAll_cons_ne_nil he h.symm).elim
  | d :: ds, [], _, _, _, hds, _, _, _, _, h => by
    obtain ⟨_, _, _, hd, _⟩ := hds
    exact (encAll_cons_ne_nil hd h).elim
  | d :: ds, e :: es, fields, _, _, hds, hes, hde, hee, hinj, h => by
    obtain ⟨field, rest, hfields, hd, hds⟩ := hds
    obtain ⟨field', rest', hfields', he, hes⟩ := hes
    obtain ⟨rfl, rfl⟩ := List.cons.inj (hfields.symm.trans hfields')
    obtain ⟨hhead, htail⟩ := append_inj_of_denotes hd he h
    have hsub : ∀ x, x ∈ Datum.hashInputsAll keccak typeHash ds ∨
        x ∈ Datum.hashInputsAll keccak typeHash es →
        x ∈ Datum.hashInputsAll keccak typeHash (d :: ds) ∨
        x ∈ Datum.hashInputsAll keccak typeHash (e :: es) := fun x hx =>
      hx.imp (List.mem_append_right _) (List.mem_append_right _)
    rw [Datum.paddedAll, Datum.paddedAll,
      padded_of_enc d hd he hde.1 hee.1
        (hinj.mono fun x hx => hx.imp (List.mem_append_left _) (List.mem_append_left _)) hhead,
      paddedFields_of_encAll ds hds hes hde.2 hee.2 (hinj.mono hsub) htail]
end

end Encoding

/-- The strings that the digest of a message and its struct hash are built from. -/
def hashedStrings (env : HashEnv) (data : TypedData) : Set Bytes :=
  {x | (∃ n hashes, structHashes env n data = .done hashes ∧ x = digestPreimage hashes) ∨
    ∃ ds, DenotesFields data.types ds (data.types.fields data.primaryType) data.message ∧
      x ∈ (Datum.struct data.primaryType ds).hashInputs env.keccak (typeHash env data.types)}

/-- No declared field of the message is cut off. -/
def ExactMessage (t : Types) (primaryType : String) (message : FieldMap) : Prop :=
  ∀ ds, DenotesFields t ds (t.fields primaryType) message → Datum.ExactAll ds

theorem digestPreimage_injective {a b c d : Bytes} (ha : a.length = 32) (hc : c.length = 32)
    (h : digestPreimage (a, b) = digestPreimage (c, d)) : a = c ∧ b = d := by
  have htail : a ++ b = c ++ d := by
    have hcons : 0x19 :: 0x01 :: (a ++ b) = 0x19 :: 0x01 :: (c ++ d) := h
    exact List.tail_eq_of_cons_eq (List.tail_eq_of_cons_eq hcons)
  exact List.append_inj htail (ha.trans hc.symm)

/-- Two accepted messages with one digest agree on every declared field, `bytesN` values compared
as the words they are padded to. -/
theorem digest_determines_message (env : HashEnv) (types : Types) (primaryType : String)
    (domain : EIP712Domain) (m₁ m₂ : FieldMap) (n₁ n₂ : Nat) (out₁ out₂ : Bytes × Bytes)
    (h₁ : hashTypedData env n₁ ⟨types, primaryType, domain, m₁⟩ = .done out₁)
    (h₂ : hashTypedData env n₂ ⟨types, primaryType, domain, m₂⟩ = .done out₂)
    (hexact₁ : ExactMessage types primaryType m₁) (hexact₂ : ExactMessage types primaryType m₂)
    (hinj : Set.InjOn env.keccak.sum (hashedStrings env ⟨types, primaryType, domain, m₁⟩ ∪
      hashedStrings env ⟨types, primaryType, domain, m₂⟩))
    (hdigest : out₁.2 = out₂.2) :
    ∃ ds₁ ds₂, DenotesFields types ds₁ (types.fields primaryType) m₁ ∧
      DenotesFields types ds₂ (types.fields primaryType) m₂ ∧
        Datum.paddedAll ds₁ = Datum.paddedAll ds₂ := by
  obtain ⟨hashes₁, hh₁, rfl⟩ := hashTypedData_eq_done.mp h₁
  obtain ⟨hashes₂, hh₂, rfl⟩ := hashTypedData_eq_done.mp h₂
  have hpre : digestPreimage hashes₁ = digestPreimage hashes₂ :=
    hinj (.inl (.inl ⟨n₁, hashes₁, hh₁, rfl⟩)) (.inr (.inl ⟨n₂, hashes₂, hh₂, rfl⟩)) hdigest
  obtain ⟨hsep₁, hdata₁⟩ := structHashes_eq_done.mp hh₁
  obtain ⟨hsep₂, hdata₂⟩ := structHashes_eq_done.mp hh₂
  obtain ⟨_, _, hlen₁⟩ := hashStruct_eq_done hsep₁
  obtain ⟨_, _, hlen₂⟩ := hashStruct_eq_done hsep₂
  have hhash : hashes₁.2 = hashes₂.2 := (digestPreimage_injective
    (by rw [hlen₁, Datum.enc]; exact env.keccak.length_sum _)
    (by rw [hlen₂, Datum.enc]; exact env.keccak.length_sum _) hpre).2
  obtain ⟨ds₁, hds₁, he₁⟩ := hashStruct_eq_done hdata₁
  obtain ⟨ds₂, hds₂, he₂⟩ := hashStruct_eq_done hdata₂
  rw [he₁, he₂, Datum.enc, Datum.enc] at hhash
  have hall := hinj (.inl (.inr ⟨ds₁, hds₁, by simp [Datum.hashInputs]⟩))
    (.inr (.inr ⟨ds₂, hds₂, by simp [Datum.hashInputs]⟩)) hhash
  refine ⟨ds₁, ds₂, hds₁, hds₂, paddedFields_of_encAll ds₁ hds₁ hds₂ (hexact₁ ds₁ hds₁)
    (hexact₂ ds₂ hds₂) (hinj.mono ?_) (List.append_cancel_left hall)⟩
  rintro x (hx | hx)
  · exact .inl (.inr ⟨ds₁, hds₁, by rw [Datum.hashInputs]; exact List.mem_cons_of_mem _ hx⟩)
  · exact .inr (.inr ⟨ds₂, hds₂, by rw [Datum.hashInputs]; exact List.mem_cons_of_mem _ hx⟩)

def mailTypes : Types := [("EIP712Domain", some []), ("Mail", some [⟨"id", "bytes32"⟩])]

/-- One field of 32 bytes under an empty domain. -/
def idMail (id : String) : TypedData where
  types := mailTypes
  primaryType := "Mail"
  domain := ⟨"", "", none, "", ""⟩
  message := [("id", .string id)]

theorem idMail_denotes {id : String} {bs : Bytes} (h : hexDecode (trimPrefix0x id.toList) = .ok bs)
    (ds : List Datum) :
    DenotesFields mailTypes ds (mailTypes.fields "Mail") (idMail id).message ↔
      ds = [.fixedBytes bs] := by
  have hfields : mailTypes.fields "Mail" = [⟨"id", "bytes32"⟩] := rfl
  have hkind : fieldKind mailTypes "bytes32" = .fixedBytes := by decide
  have hget : (idMail id).message.get "id" = .string id := rfl
  rw [hfields]
  constructor
  · intro hds
    cases ds with
    | nil => cases hds
    | cons d ds =>
      obtain ⟨field, rest, hcons, hd, hds⟩ := hds
      cases hcons
      rw [hget] at hd
      have hshape := denotes_shape hd
      rw [hkind] at hshape
      obtain ⟨cs, rfl⟩ := hshape
      obtain ⟨_, s, hs, hcs⟩ := hd
      cases hs
      rw [h] at hcs
      cases hcs
      cases ds with
      | nil => rfl
      | cons e es =>
        obtain ⟨_, _, hnil, _⟩ := hds
        cases hnil
  · rintro rfl
    exact ⟨_, _, rfl, ⟨hkind, id, hget, h⟩, rfl⟩

theorem idMail_exact {id : String} {bs : Bytes} (h : hexDecode (trimPrefix0x id.toList) = .ok bs)
    (hlen : bs.length ≤ 32) : ExactMessage mailTypes "Mail" (idMail id).message := by
  intro ds hds
  rw [(idMail_denotes h ds).mp hds]
  exact ⟨hlen, trivial⟩

/-- The two strings hashed for one padded word. -/
def idMailStrings (bs : Bytes) : List Bytes :=
  let mail := typeHash keccakEnv mailTypes "Mail" ++ rightPad 32 bs
  [digestPreimage (keccak256.sum (typeHash keccakEnv mailTypes "EIP712Domain"),
    keccak256.sum mail), mail]

theorem idMail_hashedStrings {id : String} {bs : Bytes}
    (h : hexDecode (trimPrefix0x id.toList) = .ok bs) :
    ∀ x ∈ hashedStrings keccakEnv (idMail id), x ∈ idMailStrings bs := by
  rintro x (⟨n, hashes, hh, rfl⟩ | ⟨ds, hds, hx⟩)
  · obtain ⟨hdomain, hmail⟩ := structHashes_eq_done.mp hh
    obtain ⟨ds₀, hds₀, h₀⟩ := hashStruct_eq_done hdomain
    obtain ⟨ds, hds, h₁⟩ := hashStruct_eq_done hmail
    cases (idMail_denotes h ds).mp hds
    have hnil : ds₀ = [] := by
      cases ds₀ with
      | nil => rfl
      | cons d ds =>
        obtain ⟨_, _, hcons, _⟩ := hds₀
        cases hcons
    subst hnil
    have hhashes : hashes = (keccak256.sum (typeHash keccakEnv mailTypes "EIP712Domain"),
        keccak256.sum (typeHash keccakEnv mailTypes "Mail" ++ rightPad 32 bs)) := by
      refine Prod.ext (h₀.trans ?_) (h₁.trans ?_)
      · simp only [Datum.enc, Datum.encAll, List.append_nil]; rfl
      · simp only [Datum.enc, Datum.encAll, List.append_nil]; rfl
    rw [hhashes]
    exact List.mem_cons_self
  · cases (idMail_denotes h ds).mp hds
    simp only [Datum.hashInputs, Datum.hashInputsAll, Datum.encAll, List.append_nil,
      List.mem_singleton] at hx
    rw [hx]
    exact List.mem_cons_of_mem _ List.mem_cons_self

private theorem idMail_injOn {id id' : String} {bs bs' : Bytes}
    (h : hexDecode (trimPrefix0x id.toList) = .ok bs)
    (h' : hexDecode (trimPrefix0x id'.toList) = .ok bs') (hpad : idMailStrings bs = idMailStrings bs')
    (hdec : ∀ x ∈ idMailStrings bs, ∀ y ∈ idMailStrings bs, keccak256.sum x = keccak256.sum y →
      x = y) :
    Set.InjOn keccak256.sum (hashedStrings keccakEnv (idMail id) ∪
      hashedStrings keccakEnv (idMail id')) := by
  have hmem : ∀ x ∈ hashedStrings keccakEnv (idMail id) ∪ hashedStrings keccakEnv (idMail id'),
      x ∈ idMailStrings bs := by
    rintro x (hx | hx)
    · exact idMail_hashedStrings h x hx
    · rw [hpad]; exact idMail_hashedStrings h' x hx
  intro x hx y hy hxy
  exact hdec x (hmem x hx) y (hmem y hy) hxy

set_option maxRecDepth 100000 in
private theorem idMailStrings_injOn : ∀ x ∈ idMailStrings [0xde, 0xad, 0xbe, 0xef],
    ∀ y ∈ idMailStrings [0xde, 0xad, 0xbe, 0xef], keccak256.sum x = keccak256.sum y → x = y := by
  decide +kernel

set_option maxRecDepth 100000 in
/-- The prefix is not part of the bytes. -/
theorem digest_determines_message_prefix :
    ∃ ds₁ ds₂, DenotesFields mailTypes ds₁ (mailTypes.fields "Mail") (idMail "0xdeadbeef").message ∧
      DenotesFields mailTypes ds₂ (mailTypes.fields "Mail") (idMail "deadbeef").message ∧
        Datum.paddedAll ds₁ = Datum.paddedAll ds₂ := by
  have h₁ : hexDecode (trimPrefix0x "0xdeadbeef".toList) = .ok [0xde, 0xad, 0xbe, 0xef] := by decide
  have h₂ : hexDecode (trimPrefix0x "deadbeef".toList) = .ok [0xde, 0xad, 0xbe, 0xef] := by decide
  have hrun : hashTypedData keccakEnv 1 (idMail "0xdeadbeef") =
      hashTypedData keccakEnv 1 (idMail "deadbeef") ∧
      ∃ out, hashTypedData keccakEnv 1 (idMail "0xdeadbeef") = .done out := by
    obtain ⟨out, hout⟩ := Run.exists_done_of_isDone
      (by decide +kernel : (hashTypedData keccakEnv 1 (idMail "0xdeadbeef")).isDone)
    exact ⟨by decide +kernel, out, hout⟩
  obtain ⟨heq, out, hout⟩ := hrun
  exact digest_determines_message keccakEnv mailTypes "Mail" ⟨"", "", none, "", ""⟩ _ _ 1 1 out out
    hout (heq ▸ hout) (idMail_exact h₁ (by decide)) (idMail_exact h₂ (by decide))
    (idMail_injOn h₁ h₂ rfl idMailStrings_injOn) rfl

set_option maxRecDepth 100000 in
/-- Zero bytes at the end of a `bytes32` value are not told from its padding: two messages with
different byte strings share a digest, and not because the hash collides. -/
theorem padding_shares_digest :
    hashTypedData keccakEnv 1 (idMail "0xdeadbeef") =
        hashTypedData keccakEnv 1 (idMail "0xdeadbeef00") ∧
      (∃ out, hashTypedData keccakEnv 1 (idMail "0xdeadbeef") = .done out) ∧
      Set.InjOn keccak256.sum (hashedStrings keccakEnv (idMail "0xdeadbeef") ∪
        hashedStrings keccakEnv (idMail "0xdeadbeef00")) ∧
      ¬ ∃ ds, DenotesFields mailTypes ds (mailTypes.fields "Mail") (idMail "0xdeadbeef").message ∧
        DenotesFields mailTypes ds (mailTypes.fields "Mail") (idMail "0xdeadbeef00").message := by
  have h₁ : hexDecode (trimPrefix0x "0xdeadbeef".toList) = .ok [0xde, 0xad, 0xbe, 0xef] := by decide
  have h₂ : hexDecode (trimPrefix0x "0xdeadbeef00".toList) =
      .ok [0xde, 0xad, 0xbe, 0xef, 0x00] := by decide
  refine ⟨by decide +kernel, Run.exists_done_of_isDone (by decide +kernel),
    idMail_injOn h₁ h₂ rfl idMailStrings_injOn, ?_⟩
  rintro ⟨ds, hds₁, hds₂⟩
  have hds := (idMail_denotes h₁ ds).mp hds₁
  rw [(idMail_denotes h₂ ds).mp hds₂] at hds
  cases hds

end Signare
