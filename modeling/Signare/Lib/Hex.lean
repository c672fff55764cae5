import Signare.Lib.BigEndian

/-!
# Hexadecimal text

Two digits a byte, decoded in either letter case, and the minimal digits of a natural. Padding the
minimal digits to an even count and decoding them gives the minimal big-endian bytes again.
-/

namespace ByteCodec

/-- The lowercase digit of a value below sixteen. -/
def hexDigit (n : Nat) : Char := if n < 10 then Char.ofNat (48 + n) else Char.ofNat (87 + n)

/-- The value of a hexadecimal digit of either case. -/
def hexValue (c : Char) : Option Nat :=
  if '0' ≤ c ∧ c ≤ '9' then some (c.toNat - 48)
  else if 'a' ≤ c ∧ c ≤ 'f' then some (c.toNat - 87)
  else if 'A' ≤ c ∧ c ≤ 'F' then some (c.toNat - 55)
  else none

/-- The two ways decoding fails; a digit that is not one is reported before an odd count. -/
inductive HexError
  | invalidByte
  | oddLength
  deriving DecidableEq, Repr

def hexEncode : Bytes → List Char
  | [] => []
  | b :: bs => hexDigit (b.toNat / 16) :: hexDigit (b.toNat % 16) :: hexEncode bs

def hexDecode : List Char → Except HexError Bytes
  | [] => .ok []
  | [c] => if (hexValue c).isSome then .error .oddLength else .error .invalidByte
  | c :: d :: cs =>
    match hexValue c, hexValue d with
    | some a, some b => do
      let bs ← hexDecode cs
      return UInt8.ofNat (16 * a + b) :: bs
    | _, _ => .error .invalidByte

theorem hexValue_hexDigit {n : Nat} (h : n < 16) : hexValue (hexDigit n) = some n := by
  revert n; decide

@[simp] theorem hexDecode_cons_cons {c d : Char} {a b : Nat} (cs : List Char)
    (ha : hexValue c = some a) (hb : hexValue d = some b) :
    hexDecode (c :: d :: cs) = (hexDecode cs).map (UInt8.ofNat (16 * a + b) :: ·) := by
  rw [hexDecode, ha, hb]
  cases hexDecode cs <;> rfl

@[simp] theorem hexDecode_hexEncode (bs : Bytes) : hexDecode (hexEncode bs) = .ok bs := by
  induction bs with
  | nil => rfl
  | cons b bs ih =>
    have hb : b.toNat < 256 := b.toNat_lt
    have hsplit : 16 * (b.toNat / 16) + b.toNat % 16 = b.toNat := Nat.div_add_mod _ _
    rw [hexEncode, hexDecode_cons_cons _ (hexValue_hexDigit (by omega))
      (hexValue_hexDigit (by omega)), ih, hsplit, UInt8.ofNat_toNat]
    rfl

@[simp] theorem length_hexEncode (bs : Bytes) : (hexEncode bs).length = 2 * bs.length := by
  induction bs with
  | nil => rfl
  | cons b bs ih => simp only [hexEncode, List.length_cons, ih]; omega

theorem hexEncode_append (as bs : Bytes) : hexEncode (as ++ bs) = hexEncode as ++ hexEncode bs := by
  induction as with
  | nil => rfl
  | cons a as ih => simp only [List.cons_append, hexEncode, ih]

/-- Decoding reads the values of the digits only, so it does not see their case. -/
theorem hexDecode_congr {cs ds : List Char}
    (h : List.Forall₂ (fun c d => hexValue c = hexValue d) cs ds) : hexDecode cs = hexDecode ds := by
  induction cs using hexDecode.induct generalizing ds with
  | case1 => cases h; rfl
  | case2 c | case3 c =>
    obtain _ | ⟨hc, ht⟩ := h
    cases ht
    simp only [hexDecode, hc]
  | case4 c d cs a b hb ha ih =>
    obtain _ | ⟨hc, ht⟩ := h
    obtain _ | ⟨hd, ht⟩ := ht
    rw [hexDecode_cons_cons _ ha hb, hexDecode_cons_cons _ (hc ▸ ha) (hd ▸ hb), ih ht]
  | case5 c d cs hbad =>
    obtain _ | ⟨hc, ht⟩ := h
    obtain _ | ⟨hd, ht⟩ := ht
    rw [hexDecode, hexDecode, ← hc, ← hd]
    cases ha : hexValue c with
    | none => rfl
    | some a =>
      cases hb : hexValue d with
      | none => rfl
      | some b => exact (hbad a b ha hb).elim

theorem length_of_hexDecode {cs : List Char} {bs : Bytes} (h : hexDecode cs = .ok bs) :
    cs.length = 2 * bs.length := by
  induction cs using hexDecode.induct generalizing bs with
  | case1 => cases h; rfl
  | case2 c | case3 c => simp only [hexDecode] at h; split at h <;> cases h
  | case4 c d cs a b hb ha ih =>
    rw [hexDecode_cons_cons _ ha hb] at h
    cases hcs : hexDecode cs with
    | error e => rw [hcs] at h; cases h
    | ok tail =>
      rw [hcs] at h
      cases h
      simp only [List.length_cons, ih hcs]
      omega
  | case5 c d cs hbad =>
    rw [hexDecode] at h
    split at h
    · next a b ha hb => exact (hbad a b ha hb).elim
    · cases h

/-- An even number of hexadecimal digits decodes. -/
theorem exists_hexDecode {cs : List Char} (hd : ∀ c ∈ cs, (hexValue c).isSome)
    (hl : cs.length % 2 = 0) : ∃ bs, hexDecode cs = .ok bs := by
  induction cs using hexDecode.induct with
  | case1 => exact ⟨[], rfl⟩
  | case2 c | case3 c => simp at hl
  | case4 c d cs a b hb ha ih =>
    obtain ⟨bs, hbs⟩ := ih (fun x hx => hd x (by simp [hx]))
      (by simp only [List.length_cons] at hl; omega)
    exact ⟨_, by rw [hexDecode_cons_cons _ ha hb, hbs]; rfl⟩
  | case5 c d cs hbad =>
    obtain ⟨a, ha⟩ := Option.isSome_iff_exists.mp (hd c (by simp))
    obtain ⟨b, hb⟩ := Option.isSome_iff_exists.mp (hd d (by simp))
    exact (hbad a b ha hb).elim

theorem isSome_of_hexDecode {cs : List Char} {bs : Bytes} (h : hexDecode cs = .ok bs) :
    ∀ c ∈ cs, (hexValue c).isSome := by
  induction cs using hexDecode.induct generalizing bs with
  | case1 => simp
  | case2 c | case3 c => simp only [hexDecode] at h; split at h <;> cases h
  | case4 c d cs a b hb ha ih =>
    rw [hexDecode_cons_cons _ ha hb] at h
    cases hcs : hexDecode cs with
    | error e => rw [hcs] at h; cases h
    | ok tail =>
      rw [List.forall_mem_cons, List.forall_mem_cons, ha, hb]
      exact ⟨rfl, rfl, ih hcs⟩
  | case5 c d cs hbad =>
    rw [hexDecode] at h
    split at h
    · next a b ha hb => exact (hbad a b ha hb).elim
    · cases h

/-- The digits of a natural, most significant first; zero is one digit. -/
def natHexDigits (n : Nat) : List Char :=
  if n = 0 then ['0'] else ((Nat.digits 16 n).map hexDigit).reverse

/-- A zero digit is put in front of an odd number of digits. -/
def evenHexDigits (n : Nat) : List Char :=
  if (natHexDigits n).length % 2 = 0 then natHexDigits n else '0' :: natHexDigits n

private theorem natHexDigits_step {n : Nat} (hn : 256 ≤ n) :
    natHexDigits n = natHexDigits (n / 256) ++
      [hexDigit (n % 256 / 16), hexDigit (n % 256 % 16)] := by
  have h16 : n / 16 ≠ 0 := by omega
  have h256 : n / 16 / 16 ≠ 0 := by omega
  have hdiv : n / 16 / 16 = n / 256 := by omega
  have hmid : n / 16 % 16 = n % 256 / 16 := by omega
  have hlow : n % 16 = n % 256 % 16 := by omega
  rw [natHexDigits, if_neg (by omega), Nat.digits_def' (by decide) (by omega),
    Nat.digits_def' (by decide) (Nat.pos_of_ne_zero h16), hdiv, hmid, hlow, natHexDigits,
    if_neg (hdiv ▸ h256)]
  simp

private theorem evenHexDigits_step {n : Nat} (hn : 256 ≤ n) :
    evenHexDigits n = evenHexDigits (n / 256) ++
      [hexDigit (n % 256 / 16), hexDigit (n % 256 % 16)] := by
  simp only [evenHexDigits, natHexDigits_step hn, List.length_append, List.length_cons,
    List.length_nil, Nat.add_mod_right]
  split <;> rfl

private theorem evenHexDigits_byte {n : Nat} (hn : n ≠ 0) (h : n < 256) :
    evenHexDigits n = hexEncode [UInt8.ofNat n] := by
  have hmod : (UInt8.ofNat n).toNat = n := by simp [Nat.mod_eq_of_lt h]
  simp only [hexEncode, hmod]
  by_cases h16 : n < 16
  · have hdig : Nat.digits 16 n = [n] := Nat.digits_of_lt 16 n hn h16
    simp [evenHexDigits, natHexDigits, hn, hdig, Nat.div_eq_of_lt h16, Nat.mod_eq_of_lt h16]
    rfl
  · have hdig : Nat.digits 16 n = [n % 16, n / 16] := by
      rw [Nat.digits_def' (by decide) (by omega), Nat.digits_of_lt 16 (n / 16) (by omega) (by omega)]
    simp [evenHexDigits, natHexDigits, hn, hdig]

theorem hexEncode_beBytes {n : Nat} (hn : n ≠ 0) : hexEncode (beBytes n) = evenHexDigits n := by
  induction n using Nat.strong_induction_on with
  | _ n ih =>
    by_cases h : n < 256
    · rw [beBytes_eq_append hn, Nat.div_eq_of_lt h, Nat.mod_eq_of_lt h, beBytes_zero,
        List.nil_append, evenHexDigits_byte hn h]
    · have hmod : (UInt8.ofNat (n % 256)).toNat = n % 256 := by simp
      have hstep := evenHexDigits_step (n := n) (by omega)
      rw [beBytes_eq_append hn, hexEncode_append, ih (n / 256) (by omega) (by omega), hstep]
      simp only [hexEncode, hmod]

/-- The evened digits decode to the minimal bytes, except that zero gives one zero byte. -/
theorem hexDecode_evenHexDigits (n : Nat) :
    hexDecode (evenHexDigits n) = .ok (if n = 0 then [0] else beBytes n) := by
  by_cases hn : n = 0
  · subst n; rfl
  · rw [if_neg hn, ← hexEncode_beBytes hn, hexDecode_hexEncode]

/-- The length of a text in bytes. -/
def byteLength (cs : List Char) : Nat := (String.ofList cs).utf8ByteSize

@[simp] theorem byteLength_nil : byteLength [] = 0 := rfl

theorem byteLength_cons (c : Char) (cs : List Char) :
    byteLength (c :: cs) = c.utf8Size + byteLength cs := by
  have hsplit : String.ofList (c :: cs) = String.singleton c ++ String.ofList cs := by
    rw [← String.toList_inj]
    simp
  rw [byteLength, hsplit, String.utf8ByteSize_append, String.utf8ByteSize_singleton, byteLength]

theorem length_le_byteLength (cs : List Char) : cs.length ≤ byteLength cs := by
  induction cs with
  | nil => exact Nat.le_refl 0
  | cons c cs ih =>
    have hpos : 0 < c.utf8Size := c.utf8Size_pos
    rw [byteLength_cons, List.length_cons]
    omega

theorem utf8Size_of_hexValue {c : Char} (h : (hexValue c).isSome) : c.utf8Size = 1 := by
  have hascii (d : Char) (hd : d.toNat ≤ 127) (hle : c ≤ d) : c.utf8Size = 1 := by
    have hc : c.toNat ≤ d.toNat := hle
    exact Char.utf8Size_eq_one_iff.mpr (UInt32.le_iff_toNat_le.mpr (hc.trans hd))
  unfold hexValue at h
  split_ifs at h with hdigit hlower hupper
  · exact hascii '9' (by decide) hdigit.2
  · exact hascii 'f' (by decide) hlower.2
  · exact hascii 'F' (by decide) hupper.2
  · cases h

/-- Hexadecimal digits have one byte each. -/
theorem byteLength_of_digits {cs : List Char} (h : ∀ c ∈ cs, (hexValue c).isSome) :
    byteLength cs = cs.length := by
  induction cs with
  | nil => rfl
  | cons c cs ih =>
    rw [List.forall_mem_cons] at h
    rw [byteLength_cons, utf8Size_of_hexValue h.1, ih h.2, List.length_cons, Nat.add_comm]

end ByteCodec
