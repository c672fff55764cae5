import Signare.HSMConnector.Signature

/-!
# Normalised signatures

What `assembleRecoverableSignature` makes of a backend's answer: which answers it accepts, the
recoverable signature it builds from them, and what the three formats made of it contain.
-/

namespace Signare

open ByteCodec

/-- The `r` of a backend's answer. -/
def backendR (rawSig : Bytes) : Nat := beNat (rawSig.take 32)

/-- The `s` of a backend's answer. -/
def backendS (rawSig : Bytes) : Nat := beNat (rawSig.drop 32)

/-- 64 bytes that hold `r` and `s`, both at least one and below the order. -/
structure BackendSignature (rawSig : Bytes) : Prop where
  length_eq : rawSig.length = 64
  one_le_r : 1 ≤ backendR rawSig
  r_le : backendR rawSig ≤ curveOrder - 1
  one_le_s : 1 ≤ backendS rawSig
  s_le : backendS rawSig ≤ curveOrder - 1

/-- The smaller of `s` and its negative. -/
def lowSOf (rawSig : Bytes) : Nat := min (backendS rawSig) (curveOrder - backendS rawSig)

/-- Public key recovery gives a key whose address is `fromAddress`. -/
def RecoversTo (env : CurveEnv) (v : UInt8) (rs : Bytes) (fromAddress : Address) (data : Bytes) :
    Prop :=
  ∃ recoveredPublicKey pubKey, env.recoverCompact (v :: rs) data = .ok (some recoveredPublicKey) ∧
    env.parsePubKey recoveredPublicKey = .ok pubKey ∧
    deriveAddressFromPublicKey env.keccak pubKey = .ok fromAddress

/-- The signature `sign` makes of a recoverable one, for typed data. -/
def typedDataSignature (signature : Bytes) : EthereumSignature where
  v := beNat (signature.take 1)
  r := signatureR signature
  s := signatureS signature

theorem validateBackendSignature_eq_ok {rawSig : Bytes} :
    validateBackendSignature rawSig = .ok () ↔ BackendSignature rawSig := by
  have hhalf : backendSignatureLength / 2 = 32 := rfl
  have hlength : backendSignatureLength = 64 := rfl
  have horder : 0 < curveOrder := by decide
  unfold validateBackendSignature
  rw [hhalf, hlength]
  constructor
  · intro h
    dsimp only at h
    split at h
    · cases h
    · split at h
      · cases h
      · split at h
        · cases h
        · next hlen hr hs =>
          rw [not_or, not_le] at hr hs
          refine ⟨Decidable.not_not.mp hlen, ?_, ?_, ?_, ?_⟩
          · exact Nat.pos_of_ne_zero hr.1
          · exact Nat.le_pred_of_lt hr.2
          · exact Nat.pos_of_ne_zero hs.1
          · exact Nat.le_pred_of_lt hs.2
  · intro h
    have hr : ¬ (backendR rawSig = 0 ∨ curveOrder ≤ backendR rawSig) := by
      have := h.one_le_r
      have := h.r_le
      omega
    have hs : ¬ (backendS rawSig = 0 ∨ curveOrder ≤ backendS rawSig) := by
      have := h.one_le_s
      have := h.s_le
      omega
    exact (if_neg (not_not.mpr h.length_eq)).trans ((if_neg hr).trans (if_neg hs))

theorem curveOrder_lt : curveOrder < 256 ^ 32 := by decide

theorem lowSOf_eq {rawSig : Bytes} (h : BackendSignature rawSig) :
    (if halfOrder < backendS rawSig then curveOrder - backendS rawSig else backendS rawSig) =
      lowSOf rawSig := by
  have hodd : curveOrder = 2 * halfOrder + 1 := by decide
  have := h.s_le
  unfold lowSOf
  split
  · rw [Nat.min_eq_right (by omega)]
  · rw [Nat.min_eq_left (by omega)]

theorem lowSOf_range {rawSig : Bytes} (h : BackendSignature rawSig) :
    1 ≤ lowSOf rawSig ∧ lowSOf rawSig ≤ (curveOrder - 1) / 2 := by
  have hodd : curveOrder = 2 * halfOrder + 1 := by decide
  have := h.one_le_s
  have := h.s_le
  unfold lowSOf
  omega

theorem signatureToLowS_eq {rawSig : Bytes} (h : BackendSignature rawSig) :
    signatureToLowS rawSig = beWord 32 (backendR rawSig) ++ beWord 32 (lowSOf rawSig) := by
  unfold signatureToLowS
  rw [h.length_eq]
  show leftPad 32 (beBytes (backendR rawSig)) ++ leftPad 32 (beBytes
    (if halfOrder < backendS rawSig then curveOrder - backendS rawSig else backendS rawSig)) = _
  rw [lowSOf_eq h]
  rfl

theorem recovers_eq_true {env : CurveEnv} {v : UInt8} {rs data : Bytes} {fromAddress : Address} :
    recovers env v rs fromAddress data = .ok true ↔ RecoversTo env v rs fromAddress data := by
  unfold recovers RecoversTo
  constructor
  · intro h
    split at h
    · cases h
    · cases h
    · next recoveredPublicKey hrecover =>
      split at h
      · cases h
      · next pubKey hparse =>
        obtain ⟨recoveredAddr, hderive, hsame⟩ := Except.map_eq_ok.mp h
        have haddr := Address.string_injective env.keccak (of_decide_eq_true hsame)
        exact ⟨recoveredPublicKey, pubKey, hrecover, hparse, haddr ▸ hderive⟩
  · rintro ⟨recoveredPublicKey, pubKey, hrecover, hparse, hderive⟩
    rw [hrecover]
    dsimp only
    rw [hparse]
    dsimp only
    rw [hderive]
    exact congrArg Except.ok (decide_eq_true rfl)

/-- The first value that recovers the address is taken. The search ends early where a recovered
key has no address. -/
theorem recoverV_eq_ok {env : CurveEnv} {rs data : Bytes} {fromAddress : Address} {v : UInt8} :
    recoverV env rs fromAddress data = .ok v ↔
      (v = 27 ∧ RecoversTo env 27 rs fromAddress data) ∨
      (v = 28 ∧ recovers env 27 rs fromAddress data = .ok false ∧
        RecoversTo env 28 rs fromAddress data) := by
  rw [← recovers_eq_true, ← recovers_eq_true]
  have h27 : UInt8.ofNat signatureVMin = 27 := rfl
  have h28 : UInt8.ofNat signatureVMax = 28 := rfl
  rw [recoverV, recoverFrom, h27]
  cases h : recovers env 27 rs fromAddress data with
  | error err => simp [bind, Except.bind]
  | ok found =>
    cases found with
    | true => simp [pure, Except.pure, eq_comm]
    | false =>
      rw [Except.ok_bind, recoverFrom, h28]
      cases h' : recovers env 28 rs fromAddress data with
      | error err => simp [bind, Except.bind]
      | ok found' => cases found' <;> simp [recoverFrom, pure, Except.pure, eq_comm]

theorem assembleRecoverableSignature_eq_ok {env : CurveEnv} {rawSig data signature : Bytes}
    {fromAddress : Address} :
    assembleRecoverableSignature env rawSig fromAddress data = .ok signature ↔
      BackendSignature rawSig ∧ ∃ v, recoverV env (signatureToLowS rawSig) fromAddress data = .ok v ∧
        signature = v :: signatureToLowS rawSig := by
  rw [← validateBackendSignature_eq_ok]
  unfold assembleRecoverableSignature
  constructor
  · intro h
    obtain ⟨⟨⟩, hvalid, h⟩ := Except.bind_eq_ok.mp h
    obtain ⟨v, hv, h⟩ := Except.bind_eq_ok.mp h
    exact ⟨hvalid, v, hv, (Except.pure_eq_ok.mp h).symm⟩
  · rintro ⟨hvalid, v, hv, rfl⟩
    rw [hvalid, Except.ok_bind]
    dsimp only
    rw [hv]
    rfl

section Formats

variable {v : UInt8} {r s : Nat}

theorem length_recoverable (hr : r < 256 ^ 32) (hs : s < 256 ^ 32) :
    (v :: (beWord 32 r ++ beWord 32 s)).length = 65 := by
  rw [List.length_cons, List.length_append, length_beWord hr, length_beWord hs]

theorem signatureR_recoverable (hr : r < 256 ^ 32) :
    signatureR (v :: (beWord 32 r ++ beWord 32 s)) = r := by
  rw [signatureR, List.drop_one, List.tail_cons, List.take_append_of_le_length
    (length_beWord hr).ge, List.take_of_length_le (length_beWord hr).le, beNat_beWord]

theorem signatureS_recoverable (hr : r < 256 ^ 32) (hs : s < 256 ^ 32) :
    signatureS (v :: (beWord 32 r ++ beWord 32 s)) = s := by
  have hdrop : (v :: (beWord 32 r ++ beWord 32 s)).drop 33 = beWord 32 s := by
    rw [List.drop_succ_cons]
    exact List.drop_left' (length_beWord hr)
  rw [signatureS, hdrop, List.take_of_length_le (length_beWord hs).le, beNat_beWord]

theorem generateEthereumSignature_recoverable (hr : r < 256 ^ 32) (hs : s < 256 ^ 32)
    (chainId : Int) :
    generateEthereumSignature (v :: (beWord 32 r ++ beWord 32 s)) chainId =
      ⟨35 + 2 * chainId + (v.toNat - 27), r, s⟩ := by
  rw [generateEthereumSignature, signatureR_recoverable hr, signatureS_recoverable hr hs, parity,
    List.headD_cons]
  congr 1
  rw [show (signatureVMin : Int) = 27 from rfl]
  ring

theorem generateEIP1559TransactionSignature_recoverable (hr : r < 256 ^ 32) (hs : s < 256 ^ 32) :
    generateEIP1559TransactionSignature (v :: (beWord 32 r ++ beWord 32 s)) =
      ⟨v.toNat - 27, r, s⟩ := by
  rw [generateEIP1559TransactionSignature, signatureR_recoverable hr,
    signatureS_recoverable hr hs, parity, List.headD_cons]
  rfl

theorem beNat_singleton (b : UInt8) : beNat [b] = b.toNat := by
  rw [beNat_cons, beNat_nil, List.length_nil, pow_zero, Nat.mul_one, Nat.add_zero]

theorem toHex_recoverable (hr : r < 256 ^ 32) (hs : s < 256 ^ 32) (hv : v ≠ 0) :
    newHexBytesFromString (typedDataSignature (v :: (beWord 32 r ++ beWord 32 s))).toHex =
      .ok (beWord 32 r ++ beWord 32 s ++ [v]) := by
  have hhead : [v].head? ≠ some 0 := by simpa using hv
  have hbytes : beBytes (beNat [v]) = [v] := beBytes_beNat hhead
  have hsig : (typedDataSignature (v :: (beWord 32 r ++ beWord 32 s))) =
      ⟨(beNat [v] : Nat), r, s⟩ := by
    rw [typedDataSignature, signatureR_recoverable hr, signatureS_recoverable hr hs]
    rfl
  rw [hsig, EthereumSignature.toHex]
  dsimp only
  rw [Int.natAbs_natCast, Int.natAbs_natCast, Int.natAbs_natCast, hbytes]
  exact newHexBytesFromString_bytes _

end Formats

theorem recoverV_cases {env : CurveEnv} {rs data : Bytes} {fromAddress : Address} {v : UInt8}
    (h : recoverV env rs fromAddress data = .ok v) :
    (v = 27 ∨ v = 28) ∧ RecoversTo env v rs fromAddress data := by
  rcases recoverV_eq_ok.mp h with ⟨rfl, hrecovers⟩ | ⟨rfl, -, hrecovers⟩
  · exact ⟨.inl rfl, hrecovers⟩
  · exact ⟨.inr rfl, hrecovers⟩

/-- What a recoverable signature contains, and what is made of it. -/
structure Normalised (env : CurveEnv) (rawSig : Bytes) (fromAddress : Address) (data : Bytes)
    (v : UInt8) (signature : Bytes) : Prop where
  length_eq : signature.length = 65
  bytes_eq : signature = v :: (beWord 32 (backendR rawSig) ++ beWord 32 (lowSOf rawSig))
  recoveryValue : v = 27 ∨ v = 28
  one_le_s : 1 ≤ lowSOf rawSig
  s_le : lowSOf rawSig ≤ (curveOrder - 1) / 2
  recoversTo : RecoversTo env v (beWord 32 (backendR rawSig) ++ beWord 32 (lowSOf rawSig))
    fromAddress data
  legacy : ∀ chainId, generateEthereumSignature signature chainId =
    ⟨35 + 2 * chainId + (v.toNat - 27), backendR rawSig, lowSOf rawSig⟩
  eip1559 : generateEIP1559TransactionSignature signature =
    ⟨v.toNat - 27, backendR rawSig, lowSOf rawSig⟩
  typedData : ∃ b, newHexBytesFromString (typedDataSignature signature).toHex = .ok b ∧
    b.length = 65 ∧ beNat (b.take 32) = backendR rawSig ∧
    beNat ((b.drop 32).take 32) = lowSOf rawSig ∧ beNat (b.drop 64) = v.toNat

theorem normalised_of_recoverV {env : CurveEnv} {rawSig data : Bytes} {fromAddress : Address}
    {v : UInt8} (hvalid : BackendSignature rawSig)
    (hv : recoverV env (signatureToLowS rawSig) fromAddress data = .ok v) :
    Normalised env rawSig fromAddress data v (v :: signatureToLowS rawSig) := by
  obtain ⟨hvalue, hrecovers⟩ := recoverV_cases hv
  obtain ⟨hone, hhalf⟩ := lowSOf_range hvalid
  have hr : backendR rawSig < 256 ^ 32 :=
    (Nat.lt_of_le_pred (by decide) hvalid.r_le).trans curveOrder_lt
  have hs : lowSOf rawSig < 256 ^ 32 :=
    hhalf.trans_lt ((Nat.div_le_self _ _).trans_lt ((Nat.sub_le _ _).trans_lt curveOrder_lt))
  have hne : v ≠ 0 := by
    rcases hvalue with rfl | rfl <;> decide
  rw [signatureToLowS_eq hvalid] at hrecovers ⊢
  refine ⟨length_recoverable hr hs, rfl, hvalue, hone, hhalf, hrecovers,
    generateEthereumSignature_recoverable hr hs, generateEIP1559TransactionSignature_recoverable hr
    hs, _, toHex_recoverable hr hs hne, ?_, ?_, ?_, ?_⟩
  · rw [List.length_append, List.length_append, length_beWord hr, length_beWord hs,
      List.length_singleton]
  · rw [List.append_assoc, List.take_left' (length_beWord hr), beNat_beWord]
  · rw [List.append_assoc, List.drop_left' (length_beWord hr), List.take_left' (length_beWord hs),
      beNat_beWord]
  · rw [List.drop_left' (by rw [List.length_append, length_beWord hr, length_beWord hs]),
      beNat_singleton]

/-- The answer of a backend is normalised, or it is refused. -/
theorem assembleRecoverableSignature_normalises (env : CurveEnv) (rawSig data : Bytes)
    (fromAddress : Address) :
    (∀ signature, assembleRecoverableSignature env rawSig fromAddress data = .ok signature →
      BackendSignature rawSig ∧ ∃ v, Normalised env rawSig fromAddress data v signature) ∧
    (¬ BackendSignature rawSig →
      ∃ err, assembleRecoverableSignature env rawSig fromAddress data = .error err) ∧
    ((¬ ∃ v, (v = 27 ∨ v = 28) ∧ RecoversTo env v (signatureToLowS rawSig) fromAddress data) →
      ∃ err, assembleRecoverableSignature env rawSig fromAddress data = .error err) ∧
    (BackendSignature rawSig →
      RecoversTo env 27 (signatureToLowS rawSig) fromAddress data ∨
        recovers env 27 (signatureToLowS rawSig) fromAddress data = .ok false ∧
          RecoversTo env 28 (signatureToLowS rawSig) fromAddress data →
      ∃ signature, assembleRecoverableSignature env rawSig fromAddress data = .ok signature) := by
  have hfails (hnot : ¬ ∃ signature,
      assembleRecoverableSignature env rawSig fromAddress data = .ok signature) :
      ∃ err, assembleRecoverableSignature env rawSig fromAddress data = .error err := by
    cases h : assembleRecoverableSignature env rawSig fromAddress data with
    | error err => exact ⟨err, rfl⟩
    | ok signature => exact absurd ⟨signature, h⟩ hnot
  refine ⟨fun signature h => ?_, fun hinvalid => hfails ?_, fun hnone => hfails ?_,
    fun hvalid hrecovers => ?_⟩
  · obtain ⟨hvalid, v, hv, rfl⟩ := assembleRecoverableSignature_eq_ok.mp h
    exact ⟨hvalid, v, normalised_of_recoverV hvalid hv⟩
  · rintro ⟨signature, h⟩
    exact hinvalid (assembleRecoverableSignature_eq_ok.mp h).1
  · rintro ⟨signature, h⟩
    obtain ⟨-, v, hv, -⟩ := assembleRecoverableSignature_eq_ok.mp h
    exact hnone ⟨v, recoverV_cases hv⟩
  · rcases hrecovers with h27 | ⟨hnot, h28⟩
    · exact ⟨_, assembleRecoverableSignature_eq_ok.mpr
        ⟨hvalid, 27, recoverV_eq_ok.mpr (.inl ⟨rfl, h27⟩), rfl⟩⟩
    · exact ⟨_, assembleRecoverableSignature_eq_ok.mpr
        ⟨hvalid, 28, recoverV_eq_ok.mpr (.inr ⟨rfl, hnot, h28⟩), rfl⟩⟩

end Signare
