import Mathlib.Data.Nat.Digits.Lemmas

/-!
# Big-endian byte strings

Naturals as byte strings, most significant byte first: the minimal form, which has no leading
zero byte, and the form padded on the left to a fixed width.
-/

namespace ByteCodec

/-- A string of octets. -/
abbrev Bytes := List UInt8

/-- The natural a big-endian byte string denotes. -/
def beNat (bs : Bytes) : Nat := Nat.ofDigits 256 (bs.reverse.map UInt8.toNat)

/-- Minimal big-endian bytes of a natural; zero has none. -/
def beBytes (n : Nat) : Bytes := ((Nat.digits 256 n).map UInt8.ofNat).reverse

/-- Zero bytes are put in front until the string has `width` bytes. -/
def leftPad (width : Nat) (bs : Bytes) : Bytes := List.replicate (width - bs.length) 0 ++ bs

/-- The first `width` bytes, followed by zero bytes where there are fewer. -/
def rightPad (width : Nat) (bs : Bytes) : Bytes :=
  bs.take width ++ List.replicate (width - bs.length) 0

@[simp] theorem beNat_nil : beNat [] = 0 := rfl

theorem beNat_append (as bs : Bytes) :
    beNat (as ++ bs) = beNat as * 256 ^ bs.length + beNat bs := by
  simp only [beNat, List.reverse_append, List.map_append, Nat.ofDigits_append, List.length_map,
    List.length_reverse]
  ring

theorem beNat_cons (b : UInt8) (bs : Bytes) :
    beNat (b :: bs) = b.toNat * 256 ^ bs.length + beNat bs := by
  have h := beNat_append [b] bs
  simpa [beNat] using h

@[simp] theorem beNat_replicate_zero (k : Nat) : beNat (List.replicate k 0) = 0 := by
  simp [beNat]

theorem beNat_lt (bs : Bytes) : beNat bs < 256 ^ bs.length := by
  have h := Nat.ofDigits_lt_base_pow_length (b := 256) (l := bs.reverse.map UInt8.toNat) (by decide)
    (by
      intro x hx
      obtain ⟨b, _, rfl⟩ := List.mem_map.mp hx
      exact b.toNat_lt)
  simpa [beNat] using h

private theorem digits_toBytes (n : Nat) :
    ((Nat.digits 256 n).map UInt8.ofNat).map UInt8.toNat = Nat.digits 256 n := by
  rw [List.map_map]
  conv_rhs => rw [← List.map_id (Nat.digits 256 n)]
  apply List.map_congr_left
  intro d hd
  have hlt : d < 256 := Nat.digits_lt_base (by decide) hd
  simp [Nat.mod_eq_of_lt hlt]

@[simp] theorem beNat_beBytes (n : Nat) : beNat (beBytes n) = n := by
  simp only [beNat, beBytes, List.reverse_reverse, digits_toBytes, Nat.ofDigits_digits]

theorem beBytes_injective : Function.Injective beBytes := by
  intro m n h
  rw [← beNat_beBytes m, h, beNat_beBytes]

@[simp] theorem beBytes_zero : beBytes 0 = [] := by simp [beBytes]

theorem beBytes_eq_nil {n : Nat} : beBytes n = [] ↔ n = 0 := by
  rw [← beBytes_zero, beBytes_injective.eq_iff]

/-- A byte string without a leading zero byte is the minimal form of what it denotes. -/
theorem beBytes_beNat {bs : Bytes} (h : bs.head? ≠ some 0) : beBytes (beNat bs) = bs := by
  have hd : Nat.digits 256 (beNat bs) = bs.reverse.map UInt8.toNat := by
    apply Nat.digits_ofDigits 256 (by decide)
    · intro x hx
      obtain ⟨b, _, rfl⟩ := List.mem_map.mp hx
      exact b.toNat_lt
    · intro hne
      cases bs with
      | nil => simp at hne
      | cons b bs =>
        have hb : b ≠ 0 := by simpa using h
        simpa [← UInt8.toNat_inj] using hb
  rw [beBytes, hd, List.map_map]
  simp [Function.comp_def]

theorem head?_beBytes (n : Nat) : (beBytes n).head? ≠ some 0 := by
  by_cases hn : n = 0
  · subst n; simp
  · have hne : Nat.digits 256 n ≠ [] := Nat.digits_ne_nil_iff_ne_zero.mpr hn
    have hlast := Nat.getLast_digit_ne_zero 256 hn
    have hlt : (Nat.digits 256 n).getLast hne < 256 :=
      Nat.digits_lt_base (by decide) (List.getLast_mem hne)
    rw [beBytes, List.head?_reverse, List.getLast?_map, List.getLast?_eq_some_getLast hne]
    intro h
    have h0 := congrArg UInt8.toNat (Option.some.inj h)
    simp [Nat.mod_eq_of_lt hlt] at h0
    exact hlast h0

theorem length_beBytes_le_iff {n k : Nat} : (beBytes n).length ≤ k ↔ n < 256 ^ k := by
  simp only [beBytes, List.length_reverse, List.length_map]
  exact Nat.digits_length_le_iff (by decide) n

/-- Dividing off the last byte. -/
theorem beBytes_eq_append {n : Nat} (hn : n ≠ 0) :
    beBytes n = beBytes (n / 256) ++ [UInt8.ofNat (n % 256)] := by
  rw [beBytes, Nat.digits_def' (by decide) (Nat.pos_of_ne_zero hn)]
  simp [beBytes]

theorem length_leftPad {width : Nat} {bs : Bytes} (h : bs.length ≤ width) :
    (leftPad width bs).length = width := by
  simp only [leftPad, List.length_append, List.length_replicate]
  omega

@[simp] theorem beNat_leftPad (width : Nat) (bs : Bytes) : beNat (leftPad width bs) = beNat bs := by
  rw [leftPad, beNat_append, beNat_replicate_zero, Nat.zero_mul, Nat.zero_add]

@[simp] theorem length_rightPad (width : Nat) (bs : Bytes) : (rightPad width bs).length = width := by
  simp only [rightPad, List.length_append, List.length_take, List.length_replicate]
  omega

/-- The `width`-byte big-endian word of a natural that fits. -/
def beWord (width n : Nat) : Bytes := leftPad width (beBytes n)

theorem length_beWord {width n : Nat} (h : n < 256 ^ width) : (beWord width n).length = width :=
  length_leftPad (length_beBytes_le_iff.mpr h)

@[simp] theorem beNat_beWord (width n : Nat) : beNat (beWord width n) = n := by simp [beWord]

theorem beWord_injective (width : Nat) : Function.Injective (beWord width) := by
  intro m n h
  rw [← beNat_beWord width m, h, beNat_beWord]

end ByteCodec
