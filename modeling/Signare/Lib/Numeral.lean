import Signare.Lib.Hex
import Mathlib.Data.List.Forall2

/-!
# Numerals

Digit strings of a base up to sixteen, optionally signed, and the reader that accepts exactly these.
-/

namespace ByteCodec

/-- `cs` is a nonempty string of digits of the base, the most significant first, and denotes `n`. -/
def Numeral (base : Nat) (cs : List Char) (n : Nat) : Prop :=
  ∃ ds : List Nat, cs ≠ [] ∧ List.Forall₂ (fun c d => hexValue c = some d ∧ d < base) cs ds ∧
    Nat.ofDigits base ds.reverse = n

/-- A numeral behind an optional sign. -/
def SignedNumeral (base : Nat) (cs : List Char) (i : Int) : Prop :=
  ∃ n : Nat, (Numeral base cs n ∧ i = n) ∨
    ∃ digits, Numeral base digits n ∧ ((cs = '+' :: digits ∧ i = n) ∨ (cs = '-' :: digits ∧ i = -n))

/-- Read digits onto an accumulator. -/
def readDigits (base n : Nat) : List Char → Option Nat
  | [] => some n
  | c :: cs =>
    match hexValue c with
    | none => none
    | some d => if d < base then readDigits base (base * n + d) cs else none

def readNumeral (base : Nat) (cs : List Char) : Option Nat :=
  if cs = [] then none else readDigits base 0 cs

def readSigned (base : Nat) : List Char → Option Int
  | '-' :: cs => (readNumeral base cs).map fun n : Nat => -(n : Int)
  | '+' :: cs => (readNumeral base cs).map fun n : Nat => (n : Int)
  | cs => (readNumeral base cs).map fun n : Nat => (n : Int)

theorem readDigits_eq_some {base acc n : Nat} {cs : List Char} :
    readDigits base acc cs = some n ↔
      ∃ ds : List Nat, List.Forall₂ (fun c d => hexValue c = some d ∧ d < base) cs ds ∧
        n = acc * base ^ cs.length + Nat.ofDigits base ds.reverse := by
  induction cs generalizing acc with
  | nil =>
    simp only [readDigits, List.forall₂_nil_left_iff, exists_eq_left, List.reverse_nil,
      Nat.ofDigits_nil, List.length_nil, pow_zero, mul_one, Nat.add_zero, Option.some.injEq]
    exact eq_comm
  | cons c cs ih =>
    have hstep : ∀ d (ds : List Nat), ds.length = cs.length →
        (base * acc + d) * base ^ cs.length + Nat.ofDigits base ds.reverse =
          acc * base ^ (cs.length + 1) + Nat.ofDigits base (d :: ds).reverse := by
      intro d ds hlen
      rw [List.reverse_cons, Nat.ofDigits_append, List.length_reverse, hlen,
        Nat.ofDigits_singleton]
      ring
    simp only [readDigits, List.length_cons]
    constructor
    · intro h
      split at h
      · cases h
      · next d hd =>
        split at h
        · next hlt =>
          obtain ⟨ds, hds, rfl⟩ := ih.mp h
          exact ⟨d :: ds, .cons ⟨hd, hlt⟩ hds, hstep d ds hds.length_eq.symm⟩
        · cases h
    · rintro ⟨ds, hds, rfl⟩
      obtain _ | ⟨⟨hd, hlt⟩, hds⟩ := hds
      rw [hd]
      simp only [if_pos hlt]
      exact ih.mpr ⟨_, hds, (hstep _ _ hds.length_eq.symm).symm⟩

theorem readNumeral_eq_some {base n : Nat} {cs : List Char} :
    readNumeral base cs = some n ↔ Numeral base cs n := by
  unfold readNumeral Numeral
  split
  · next h => simp [h]
  · next h =>
    rw [readDigits_eq_some]
    simp only [Nat.zero_mul, Nat.zero_add, h, ne_eq, not_false_eq_true, true_and]
    exact ⟨fun ⟨ds, hds, he⟩ => ⟨ds, hds, he.symm⟩, fun ⟨ds, hds, he⟩ => ⟨ds, hds, he.symm⟩⟩

theorem Numeral.head_ne {base n : Nat} {c : Char} {cs : List Char} (h : Numeral base (c :: cs) n) :
    c ≠ '+' ∧ c ≠ '-' := by
  obtain ⟨_, _, hds, _⟩ := h
  obtain _ | ⟨⟨hc, _⟩, _⟩ := hds
  constructor
  · rintro rfl; cases hc
  · rintro rfl; cases hc

theorem readSigned_eq_some {base : Nat} {cs : List Char} {i : Int} :
    readSigned base cs = some i ↔ SignedNumeral base cs i := by
  unfold SignedNumeral
  constructor
  · intro h
    unfold readSigned at h
    split at h
    · next cs =>
      obtain ⟨n, hn, rfl⟩ := Option.map_eq_some_iff.mp h
      exact ⟨n, .inr ⟨cs, readNumeral_eq_some.mp hn, .inr ⟨rfl, rfl⟩⟩⟩
    · next cs =>
      obtain ⟨n, hn, rfl⟩ := Option.map_eq_some_iff.mp h
      exact ⟨n, .inr ⟨cs, readNumeral_eq_some.mp hn, .inl ⟨rfl, rfl⟩⟩⟩
    · obtain ⟨n, hn, rfl⟩ := Option.map_eq_some_iff.mp h
      exact ⟨n, .inl ⟨readNumeral_eq_some.mp hn, rfl⟩⟩
  · rintro ⟨n, ⟨hn, rfl⟩ | ⟨digits, hn, ⟨rfl, rfl⟩ | ⟨rfl, rfl⟩⟩⟩
    · unfold readSigned
      split
      · exact (hn.head_ne.2 rfl).elim
      · exact (hn.head_ne.1 rfl).elim
      · rw [readNumeral_eq_some.mpr hn]; rfl
    · rw [readSigned, readNumeral_eq_some.mpr hn]; rfl
    · rw [readSigned, readNumeral_eq_some.mpr hn]; rfl

theorem exists_of_forall₂ {α β : Type} {r : α → β → Prop} {xs : List α} {ys : List β}
    (h : List.Forall₂ r xs ys) {x : α} (hx : x ∈ xs) : ∃ y ∈ ys, r x y := by
  induction h with
  | nil => cases hx
  | @cons x' y xs ys hr _ ih =>
    rw [List.mem_cons] at hx
    rcases hx with rfl | hx
    · exact ⟨y, List.mem_cons_self, hr⟩
    · obtain ⟨y', hy', hr'⟩ := ih hx
      exact ⟨y', List.mem_cons_of_mem _ hy', hr'⟩

theorem readDigits_append (base acc : Nat) (as bs : List Char) :
    readDigits base acc (as ++ bs) = (readDigits base acc as).bind (readDigits base · bs) := by
  induction as generalizing acc with
  | nil => rfl
  | cons a as ih =>
    rw [List.cons_append, readDigits, readDigits]
    cases hexValue a with
    | none => rfl
    | some d =>
      dsimp only
      split
      · exact ih _
      · rfl

/-- The accumulator is in front of the digits. -/
theorem readDigits_acc (base acc : Nat) (cs : List Char) :
    readDigits base acc cs = (readDigits base 0 cs).map (acc * base ^ cs.length + ·) := by
  have hread (n : Nat) : readDigits base acc cs = some n ↔
      ∃ m, readDigits base 0 cs = some m ∧ acc * base ^ cs.length + m = n := by
    simp only [readDigits_eq_some, Nat.zero_mul, Nat.zero_add]
    constructor
    · intro h
      obtain ⟨ds, hds, hn⟩ := h
      exact ⟨_, ⟨ds, hds, rfl⟩, hn.symm⟩
    · intro h
      obtain ⟨m, ⟨ds, hds, hm⟩, hn⟩ := h
      exact ⟨ds, hds, by rw [← hm, hn]⟩
  apply Option.ext
  intro n
  simpa [Option.map_eq_some_iff] using hread n

theorem le_of_readDigits {base acc n : Nat} {cs : List Char} (hbase : 0 < base)
    (h : readDigits base acc cs = some n) : acc ≤ n := by
  obtain ⟨ds, -, hn⟩ := readDigits_eq_some.mp h
  calc acc ≤ acc * base ^ cs.length := Nat.le_mul_of_pos_right acc (Nat.pow_pos hbase)
    _ ≤ n := by omega

theorem hexValue_lt {c : Char} {d : Nat} (h : hexValue c = some d) : d < 16 := by
  unfold hexValue at h
  split_ifs at h with hdigit hlower hupper
  · have hle : c.toNat ≤ 57 := hdigit.2
    cases h
    omega
  · have hle : c.toNat ≤ 102 := hlower.2
    cases h
    omega
  · have hle : c.toNat ≤ 70 := hupper.2
    cases h
    omega

theorem hexValue_eq_zero {c : Char} (h : hexValue c = some 0) : c = '0' := by
  unfold hexValue at h
  split_ifs at h with hdigit hlower hupper
  · have hle : 48 ≤ c.toNat := hdigit.1
    have hzero : c.toNat - 48 = 0 := Option.some.inj h
    apply Char.toNat_inj.mp
    change c.toNat = 48
    omega
  · have hle : 97 ≤ c.toNat := hlower.1
    have hzero : c.toNat - 87 = 0 := Option.some.inj h
    omega
  · have hle : 65 ≤ c.toNat := hupper.1
    have hzero : c.toNat - 55 = 0 := Option.some.inj h
    omega

theorem readDigits_sixteen_cons {acc d : Nat} {c : Char} (cs : List Char)
    (h : hexValue c = some d) :
    readDigits 16 acc (c :: cs) = readDigits 16 (16 * acc + d) cs := by
  rw [readDigits, h]
  exact if_pos (hexValue_lt h)

theorem readDigits_cons_none {base acc : Nat} {c : Char} (cs : List Char)
    (h : hexValue c = none) : readDigits base acc (c :: cs) = none := by
  rw [readDigits, h]

theorem isSome_hexValue_of_readDigits {acc n : Nat} {cs : List Char}
    (h : readDigits 16 acc cs = some n) : ∀ c ∈ cs, (hexValue c).isSome := by
  obtain ⟨ds, hds, -⟩ := readDigits_eq_some.mp h
  intro c hc
  obtain ⟨d, -, hd⟩ := exists_of_forall₂ hds hc
  rw [hd.1]
  rfl

/-- Without a leading zero every digit counts. -/
theorem pow_le_of_readDigits {c : Char} {cs : List Char} {n : Nat} (hc : c ≠ '0')
    (h : readDigits 16 0 (c :: cs) = some n) : 16 ^ cs.length ≤ n := by
  cases hd : hexValue c with
  | none =>
    rw [readDigits_cons_none cs hd] at h
    cases h
  | some d =>
    have hpositive : 1 ≤ d := by
      rw [Nat.one_le_iff_ne_zero]
      intro hzero
      rw [hzero] at hd
      exact hc (hexValue_eq_zero hd)
    rw [readDigits_sixteen_cons cs hd, readDigits_acc] at h
    obtain ⟨m, -, hn⟩ := Option.map_eq_some_iff.mp h
    calc 16 ^ cs.length ≤ (16 * 0 + d) * 16 ^ cs.length := Nat.le_mul_of_pos_left _ (by omega)
      _ ≤ n := by omega

theorem readDigits_reverse {ds : List Nat} (h : ∀ d ∈ ds, d < 16) :
    readDigits 16 0 (ds.map hexDigit).reverse = some (Nat.ofDigits 16 ds) := by
  induction ds with
  | nil => rfl
  | cons d ds ih =>
    rw [List.forall_mem_cons] at h
    rw [List.map_cons, List.reverse_cons, readDigits_append, ih h.2, Option.bind_some,
      readDigits_sixteen_cons [] (hexValue_hexDigit h.1), readDigits, Nat.ofDigits_cons]
    congr 1
    exact Nat.add_comm _ _

theorem readDigits_natHexDigits (n : Nat) : readDigits 16 0 (natHexDigits n) = some n := by
  unfold natHexDigits
  split
  · next h =>
    rw [h]
    rfl
  · next h =>
    rw [readDigits_reverse fun d hd => Nat.digits_lt_base (by decide) hd, Nat.ofDigits_digits]

theorem head?_natHexDigits {n : Nat} (h : (natHexDigits n).head? = some '0') :
    natHexDigits n = ['0'] := by
  unfold natHexDigits at h ⊢
  split
  · rfl
  · next hn =>
    have hne : Nat.digits 16 n ≠ [] := Nat.digits_ne_nil_iff_ne_zero.mpr hn
    rw [if_neg hn, List.head?_reverse, List.getLast?_map, List.getLast?_eq_some_getLast hne,
      Option.map_some, Option.some.injEq] at h
    have hlast := Nat.getLast_digit_ne_zero 16 hn
    have hlt : (Nat.digits 16 n).getLast hne < 16 :=
      Nat.digits_lt_base (by decide) (List.getLast_mem hne)
    have hzero : some ((Nat.digits 16 n).getLast hne) = some 0 := by
      rw [← hexValue_hexDigit hlt, h]
      rfl
    exact absurd (Option.some.inj hzero) hlast

end ByteCodec
