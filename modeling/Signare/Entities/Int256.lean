import Mathlib.Data.Int.Bitwise
import Mathlib.Data.Int.ModEq
import Mathlib.Data.Nat.Size
import Signare.Entities.EncodingTypes

/-!
# Integers of 256 bits as two's complement

An integer is written into a buffer of bytes from its end, word by word and byte by byte, as long as
there is room.
-/

namespace Signare

open ByteCodec

def tt255 : Int := 2 ^ 255
def tt256 : Int := 2 ^ 256
def tt256m1 : Int := tt256 - 1

namespace WordSize

/-- Bytes in a machine word. -/
def wordBytes : WordSize → Nat
  | .bits32 => 4
  | .bits64 => 8

theorem modulus_eq (size : WordSize) : size.modulus = 256 ^ size.wordBytes := by
  cases size with
  | bits32 => rfl
  | bits64 => rfl

theorem one_lt_modulus (size : WordSize) : 1 < size.modulus := by
  cases size with
  | bits32 => decide
  | bits64 => decide

end WordSize

namespace Int256

/-- `big.Int.Bits`: the words of the absolute value, the least significant first. -/
def bits (size : WordSize) (b : Int256) : List Nat := Nat.digits size.modulus b.natAbs

/-- A buffer, and how many of its bytes are still to be written. -/
structure Buffer where
  l : Nat
  buf : Bytes

/-- The inner loop, for at most `count` bytes of the word `d`. -/
def readWordBits : Nat → Nat → Buffer → Buffer
  | 0, _, b => b
  | count + 1, d, b =>
    if b.l = 0 then b
    else readWordBits count (d >>> 8) ⟨b.l - 1, b.buf.set (b.l - 1) (UInt8.ofNat d)⟩

def readBits (size : WordSize) (b : Int256) (buf : Bytes) : Bytes :=
  ((b.bits size).foldl (fun buffer d => readWordBits size.wordBytes d buffer) ⟨buf.length, buf⟩).buf

/-- `big.Int.BitLen`. -/
def bitLen (b : Int256) : Nat := b.natAbs.size

/-- A negative length never comes to be that of a buffer. -/
def paddedBytes (size : WordSize) (b : Int256) (n : Int) : Bytes :=
  if n ≤ (b.bitLen / 8 : Nat) then beBytes b.natAbs
  else b.readBits size (List.replicate n.toNat 0)

/-- `big.Int.And`, which goes by two's complement. The receiver becomes the result. -/
def u256 (b : Int256) : Int := b.land tt256m1

def u256Bytes (size : WordSize) (b : Int256) : Bytes := paddedBytes size b.u256 32

def s256 (b : Int256) : Int := if b < tt255 then b else b - tt256

theorem beNat_inj {as bs : Bytes} (hlength : as.length = bs.length) (h : beNat as = beNat bs) :
    as = bs := by
  have hdigits : as.reverse.map UInt8.toNat = bs.reverse.map UInt8.toNat := by
    have hlt (cs : Bytes) : ∀ x ∈ cs.reverse.map UInt8.toNat, x < 256 := by
      intro x hx
      obtain ⟨b, _, rfl⟩ := List.mem_map.mp hx
      exact b.toNat_lt
    exact Nat.ofDigits_inj_of_len_eq (by decide) (by simpa using hlength) (hlt as) (hlt bs) h
  have hreverse := List.map_injective_iff.mpr (fun _ _ => UInt8.toNat_inj.mp) hdigits
  exact List.reverse_injective hreverse

/-- Zeros that are not written yet, and what has been written behind them. -/
def Filled (buffer : Buffer) (written : Bytes) : Prop :=
  buffer.buf = List.replicate buffer.l 0 ++ written

theorem readWordBits_filled (count d : Nat) {buffer : Buffer} {written : Bytes}
    (h : Filled buffer written) :
    ∃ bytes : Bytes, bytes.length = min count buffer.l ∧ beNat bytes = d % 256 ^ bytes.length ∧
      (readWordBits count d buffer).l = buffer.l - bytes.length ∧
      Filled (readWordBits count d buffer) (bytes ++ written) := by
  induction count generalizing d buffer written with
  | zero => exact ⟨[], by simp, by simp [Nat.mod_one], rfl, h⟩
  | succ count ih =>
    rw [readWordBits]
    by_cases hl : buffer.l = 0
    · rw [if_pos hl]
      exact ⟨[], by simp [hl], by simp [Nat.mod_one], rfl, h⟩
    · rw [if_neg hl]
      have hset : Filled ⟨buffer.l - 1, buffer.buf.set (buffer.l - 1) (UInt8.ofNat d)⟩
          (UInt8.ofNat d :: written) := by
        obtain ⟨l, hl'⟩ := Nat.exists_eq_succ_of_ne_zero hl
        unfold Filled at h ⊢
        rw [h, hl']
        simp [List.replicate_succ']
      obtain ⟨bytes, hlength, hvalue, hl', hfilled⟩ := ih (d >>> 8) hset
      refine ⟨bytes ++ [UInt8.ofNat d], ?_, ?_, ?_, ?_⟩
      · simp only [List.length_append, List.length_singleton, hlength]
        omega
      · have hbyte : beNat [UInt8.ofNat d] = d % 256 := by simp [beNat]
        rw [beNat_append, hvalue, hbyte, List.length_append, List.length_singleton, pow_one,
          pow_succ', Nat.mod_mul, Nat.shiftRight_eq_div_pow]
        ring
      · rw [hl']
        simp only [List.length_append, List.length_singleton]
        omega
      · rw [List.append_assoc]
        exact hfilled

theorem foldl_filled (size : WordSize) {words : List Nat} (hwords : ∀ d ∈ words, d < size.modulus)
    {buffer : Buffer} {written : Bytes} (h : Filled buffer written) :
    ∃ bytes : Bytes, bytes.length = min (size.wordBytes * words.length) buffer.l ∧
      beNat bytes = setBits size words % 256 ^ bytes.length ∧
      Filled (words.foldl (fun b d => readWordBits size.wordBytes d b) buffer)
        (bytes ++ written) ∧
      (words.foldl (fun b d => readWordBits size.wordBytes d b) buffer).l =
        buffer.l - bytes.length := by
  induction words generalizing buffer written with
  | nil => exact ⟨[], by simp, by simp [Nat.mod_one], h, rfl⟩
  | cons d words ih =>
    obtain ⟨low, hlow, hlowValue, hl, hfilled⟩ := readWordBits_filled size.wordBytes d h
    obtain ⟨high, hhigh, hhighValue, hend, hl'⟩ :=
      ih (fun d hd => hwords d (List.mem_cons_of_mem _ hd)) hfilled
    rw [hl] at hhigh hl'
    have hd : d < 256 ^ size.wordBytes := by
      rw [← size.modulus_eq]
      exact hwords d List.mem_cons_self
    refine ⟨high ++ low, ?_, ?_, ?_, ?_⟩
    · simp only [List.length_append, hhigh, hlow, List.length_cons, Nat.mul_add, mul_one]
      omega
    · rw [beNat_append, hlowValue, hhighValue, List.length_append, setBits, size.modulus_eq,
        Nat.add_comm high.length, pow_add, Nat.mod_mul]
      by_cases hroom : size.wordBytes ≤ buffer.l
      · have hwhole : low.length = size.wordBytes := by omega
        rw [hwhole, Nat.add_mul_mod_self_left, Nat.add_mul_div_left _ _ (by positivity),
          Nat.div_eq_of_lt hd, Nat.zero_add]
        ring
      · -- there is no room for what is left of the word, nor for more words
        have hfull : high.length = 0 := by omega
        have hdvd : 256 ^ low.length ∣ 256 ^ size.wordBytes := pow_dvd_pow 256 (by omega)
        rw [hfull, pow_zero, Nat.mod_one, Nat.mod_one, Nat.add_mod,
          Nat.mod_eq_zero_of_dvd (hdvd.mul_right _)]
        simp
    · rw [List.append_assoc]
      exact hend
    · rw [List.foldl_cons, hl', List.length_append]
      omega

theorem setBits_digits (size : WordSize) (n : Nat) :
    setBits size (Nat.digits size.modulus n) = n := by
  have hofDigits (words : List Nat) : setBits size words = Nat.ofDigits size.modulus words := by
    induction words with
    | nil => rfl
    | cons d words ih =>
      rw [setBits, ih, Nat.ofDigits_cons]
  rw [hofDigits, Nat.ofDigits_digits]

theorem readBits_replicate (size : WordSize) {b : Int256} {n : Nat} (h : b.natAbs < 256 ^ n) :
    b.readBits size (List.replicate n 0) = leftPad n (beBytes b.natAbs) := by
  have hwords : ∀ d ∈ b.bits size, d < size.modulus := fun d hd =>
    Nat.digits_lt_base size.one_lt_modulus hd
  have hstart : Filled ⟨n, List.replicate n 0⟩ [] := by simp [Filled]
  obtain ⟨bytes, hlength, hvalue, hfilled, hl⟩ := foldl_filled size hwords hstart
  dsimp only at hlength hl
  have hend : b.readBits size (List.replicate n 0) =
      List.replicate (n - bytes.length) 0 ++ bytes := by
    unfold Filled at hfilled
    rw [List.append_nil] at hfilled
    rw [readBits, List.length_replicate, ← hl]
    exact hfilled
  have hnat : beNat bytes = b.natAbs := by
    rw [hvalue, bits, setBits_digits]
    apply Nat.mod_eq_of_lt
    by_cases hroom : n ≤ size.wordBytes * (b.bits size).length
    · have hfull : bytes.length = n := by omega
      rw [hfull]
      exact h
    · have hall : bytes.length = size.wordBytes * (b.bits size).length := by omega
      rw [hall, pow_mul, ← size.modulus_eq]
      exact Nat.lt_base_pow_length_digits size.one_lt_modulus
  have hle : bytes.length ≤ n := by omega
  apply beNat_inj
  · rw [length_leftPad (length_beBytes_le_iff.mpr h), hend, List.length_append,
      List.length_replicate]
    omega
  · rw [hend, beNat_append, beNat_replicate_zero, beNat_leftPad, beNat_beBytes, hnat]
    omega

theorem bitLen_le_iff {b : Int256} {n : Nat} : b.bitLen ≤ 8 * n ↔ b.natAbs < 256 ^ n := by
  rw [bitLen, Nat.size_le, pow_mul]
  rfl

theorem paddedBytes_eq (size : WordSize) (b : Int256) (n : Int) :
    paddedBytes size b n =
      if 0 ≤ n ∧ b.natAbs < 256 ^ n.toNat then leftPad n.toNat (beBytes b.natAbs)
      else beBytes b.natAbs := by
  unfold paddedBytes
  by_cases hlong : n ≤ (b.bitLen / 8 : Nat)
  · rw [if_pos hlong]
    by_cases hfits : 0 ≤ n ∧ b.natAbs < 256 ^ n.toNat
    · -- the number has just as many bytes
      have hle : n.toNat ≤ (beBytes b.natAbs).length := by
        by_contra hshort
        have hlt : b.bitLen ≤ 8 * (n.toNat - 1) :=
          bitLen_le_iff.mpr (length_beBytes_le_iff.mp (by omega))
        omega
      rw [if_pos hfits, leftPad, Nat.sub_eq_zero_of_le hle, List.replicate_zero, List.nil_append]
    · rw [if_neg hfits]
  · have hfits : b.natAbs < 256 ^ n.toNat := bitLen_le_iff.mp (by omega)
    rw [if_neg hlong, if_pos ⟨by omega, hfits⟩]
    exact readBits_replicate size hfits

theorem u256_eq (b : Int256) : b.u256 = b % 2 ^ 256 := by
  have hmask : tt256m1 = ((2 ^ 256 - 1 : Nat) : Int) := by
    rw [tt256m1, tt256, Nat.cast_sub Nat.one_le_two_pow]
    norm_cast
  rw [u256, hmask]
  cases b with
  | ofNat m =>
    have hand : m &&& (2 ^ 256 - 1) = m % 2 ^ 256 := Nat.and_two_pow_sub_one_eq_mod m 256
    show ((m &&& (2 ^ 256 - 1) : Nat) : Int) = _
    rw [hand]
    norm_cast
  | negSucc m =>
    have hlt : m % 2 ^ 256 < 2 ^ 256 := Nat.mod_lt m (by positivity)
    have hdiff : (2 ^ 256 - 1).ldiff m = 2 ^ 256 - (m % 2 ^ 256 + 1) := by
      apply Nat.eq_of_testBit_eq
      intro i
      rw [Nat.testBit_ldiff, Nat.testBit_two_pow_sub_succ hlt, Nat.testBit_two_pow_sub_one,
        Nat.testBit_mod_two_pow]
      by_cases hi : i < 256
      · simp [hi]
      · simp [hi]
    show (((2 ^ 256 - 1).ldiff m : Nat) : Int) = _
    rw [hdiff, Int.negSucc_emod m (by positivity), Nat.cast_sub (by omega)]
    push_cast
    ring

theorem u256_bounds (b : Int256) : 0 ≤ b.u256 ∧ b.u256.natAbs < 256 ^ 32 := by
  rw [u256_eq]
  have hnonneg : 0 ≤ b % 2 ^ 256 := Int.emod_nonneg b (by norm_num)
  have hlt : b % 2 ^ 256 < 2 ^ 256 := Int.emod_lt_of_pos b (by norm_num)
  have hpow : (256 : Nat) ^ 32 = 2 ^ 256 := by norm_num
  refine ⟨hnonneg, ?_⟩
  rw [hpow]
  zify
  rw [abs_of_nonneg hnonneg]
  exact hlt

theorem u256Bytes_eq (size : WordSize) (b : Int256) :
    u256Bytes size b = beWord 32 (b % 2 ^ 256).toNat := by
  have hbounds := u256_bounds b
  rw [u256Bytes, paddedBytes_eq, if_pos ⟨by norm_num, hbounds.2⟩, ← u256_eq, beWord]
  congr 2
  omega

theorem s256_range (b : Int) : -2 ^ 255 ≤ s256 (b % 2 ^ 256) ∧ s256 (b % 2 ^ 256) < 2 ^ 255 := by
  have hnonneg : 0 ≤ b % 2 ^ 256 := Int.emod_nonneg b (by norm_num)
  have hlt : b % 2 ^ 256 < 2 ^ 256 := Int.emod_lt_of_pos b (by norm_num)
  unfold s256 tt255 tt256
  by_cases hlow : b % 2 ^ 256 < 2 ^ 255
  · rw [if_pos hlow]
    omega
  · rw [if_neg hlow]
    omega

theorem s256_modEq (b : Int256) : s256 (b % 2 ^ 256) ≡ b [ZMOD 2 ^ 256] := by
  have hmod : b % 2 ^ 256 ≡ b [ZMOD 2 ^ 256] := Int.mod_modEq b _
  unfold s256
  split
  · exact hmod
  · exact (Int.ModEq.trans (by simp [Int.ModEq, tt256]) hmod)

theorem eq_of_modEq {x y : Int} (hx : -2 ^ 255 ≤ x ∧ x < 2 ^ 255) (hy : -2 ^ 255 ≤ y ∧ y < 2 ^ 255)
    (h : x ≡ y [ZMOD 2 ^ 256]) : x = y := by
  have hdvd : (2 ^ 256 : Int) ∣ y - x := h.dvd
  obtain ⟨k, hk⟩ := hdvd
  omega

/-- The two's complement forms of an integer, and the padded form of a natural. -/
theorem twosComplement_exact (size : WordSize) :
    (∀ x : Int256, (u256Bytes size x).length = 32 ∧
        u256Bytes size x = beWord 32 (x % 2 ^ 256).toNat) ∧
      (∀ x y : Int256, (-2 ^ 255 ≤ y ∧ y < 2 ^ 255 ∧ y ≡ x [ZMOD 2 ^ 256]) ↔
        y = s256 (x % 2 ^ 256)) ∧
      ∀ (x : Nat) (n : Int),
        (0 ≤ n ∧ x < 256 ^ n.toNat → (paddedBytes size x n).length = n.toNat ∧
          paddedBytes size x n = leftPad n.toNat (beBytes x)) ∧
        (¬ (0 ≤ n ∧ x < 256 ^ n.toNat) → paddedBytes size x n = beBytes x) := by
  refine ⟨fun x => ?_, fun x y => ?_, fun x n => ⟨fun hfits => ?_, fun hlong => ?_⟩⟩
  · have hlt : (x % 2 ^ 256).toNat < 256 ^ 32 := by
      have hbounds := (u256_bounds x).2
      rw [u256_eq] at hbounds
      omega
    rw [u256Bytes_eq]
    exact ⟨length_beWord hlt, rfl⟩
  · constructor
    · intro hy
      exact eq_of_modEq ⟨hy.1, hy.2.1⟩ (s256_range x) (hy.2.2.trans (s256_modEq x).symm)
    · intro hy
      rw [hy]
      exact ⟨(s256_range x).1, (s256_range x).2, s256_modEq x⟩
  · have heq : paddedBytes size x n = leftPad n.toNat (beBytes x) := by
      rw [paddedBytes_eq, Int.natAbs_natCast, if_pos hfits]
    rw [heq]
    exact ⟨length_leftPad (length_beBytes_le_iff.mpr hfits.2), rfl⟩
  · rw [paddedBytes_eq, Int.natAbs_natCast, if_neg hlong]

end Int256

end Signare
