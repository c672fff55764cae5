import Signare.HSMConnector.Transaction
import Signare.Lib.Traced

/-!
# Signatures

The checks on what a signing backend returns, the normalisation of `s`, and the search for the
recovery value. Elliptic curve arithmetic is a parameter.
-/

namespace Signare

open ByteCodec

def backendSignatureLength : Nat := 64
def signatureVMin : Nat := 27
def signatureVMax : Nat := 28

/-- The order of secp256k1. -/
def curveOrder : Nat := 0xfffffffffffffffffffffffffffffffebaaedce6af48a03bbfd25e8cd0364141

def halfOrder : Nat := curveOrder / 2

/-- What `btcec` is asked for. A recovered key is its uncompressed bytes, if there is one. -/
structure CurveEnv where
  keccak : Hash256
  recoverCompact : Bytes → Bytes → Except SignareError (Option Bytes)
  parsePubKey : Bytes → Except SignareError Bytes

def malformedSignature (message : String) : SignareError :=
  badGateway message "the signing backend returned a malformed signature"

def validateBackendSignature (sig : Bytes) : Except SignareError Unit :=
  let r := beNat (sig.take (backendSignatureLength / 2))
  let s := beNat (sig.drop (backendSignatureLength / 2))
  if sig.length ≠ backendSignatureLength then
    .error (malformedSignature ("backend returned a malformed signature: expected " ++
      toString backendSignatureLength ++ "-byte r||s, got " ++ toString sig.length))
  else if r = 0 ∨ curveOrder ≤ r then
    .error (malformedSignature "backend returned a malformed signature: r out of range [1, N-1]")
  else if s = 0 ∨ curveOrder ≤ s then
    .error (malformedSignature "backend returned a malformed signature: s out of range [1, N-1]")
  else .ok ()

/-- Only reached with two halves of one length. -/
def signatureToLowS (sig : Bytes) : Bytes :=
  let rVal := beNat (sig.take (sig.length / 2))
  let sVal := beNat (sig.drop (sig.length / 2))
  let lowS := if halfOrder < sVal then curveOrder - sVal else sVal
  leftPad (sig.length / 2) (beBytes rVal) ++ leftPad (sig.length / 2) (beBytes lowS)

def uncompressedPublicKeyLength : Nat := 65

def deriveAddressFromPublicKey (keccak : Hash256) (publicKeyBytes : Bytes) :
    Except SignareError Address :=
  if publicKeyBytes.length ≠ uncompressedPublicKeyLength ∨ publicKeyBytes.head? ≠ some 0x04 then
    .error (.text "invalid argument: invalid uncompressed public key")
  else .ok (.copyFrom ((keccak.sum publicKeyBytes.tail).drop 12))

/-- One turn of the loop of `recoverV`: whether `v` recovers the address. -/
def recovers (env : CurveEnv) (v : UInt8) (lowS : Bytes) (fromAddress : Address) (data : Bytes) :
    Except SignareError Bool :=
  match env.recoverCompact (v :: lowS) data with
  | .error _ => .ok false
  | .ok none => .ok false
  | .ok (some recoveredPublicKey) =>
    match env.parsePubKey recoveredPublicKey with
    | .error _ => .ok false
    | .ok pubKey =>
      (deriveAddressFromPublicKey env.keccak pubKey).map fun recoveredAddr =>
        recoveredAddr.string env.keccak = fromAddress.string env.keccak

/-- The first of the candidates that recovers the address. -/
def recoverFrom (env : CurveEnv) (lowS : Bytes) (fromAddress : Address) (data : Bytes) :
    List Nat → Except SignareError UInt8
  | [] => .error (internal ("unable to find EC recovery value for address '" ++
      fromAddress.string env.keccak ++ "'"))
  | v :: rest => do
    let found ← recovers env (UInt8.ofNat v) lowS fromAddress data
    if found then return UInt8.ofNat v else recoverFrom env lowS fromAddress data rest

def recoverV (env : CurveEnv) (lowS : Bytes) (fromAddress : Address) (data : Bytes) :
    Except SignareError UInt8 :=
  recoverFrom env lowS fromAddress data [signatureVMin, signatureVMax]

/-- The recovery value followed by `r` and `s`. -/
def assembleRecoverableSignature (env : CurveEnv) (rawSig : Bytes) (fromAddress : Address)
    (data : Bytes) : Except SignareError Bytes := do
  validateBackendSignature rawSig
  let lowS := signatureToLowS rawSig
  let v ← recoverV env lowS fromAddress data
  return v :: lowS

def signatureR (signature : Bytes) : Int := beNat ((signature.drop 1).take 32)
def signatureS (signature : Bytes) : Int := beNat ((signature.drop 33).take 32)

/-- The recovery value as a parity. -/
def parity (signature : Bytes) : Int := (signature.headD 0).toNat - signatureVMin

/-- The EIP-155 value. -/
def generateEthereumSignature (signature : Bytes) (chainId : Int) : EthereumSignature where
  v := parity signature + 35 + chainId * 2
  r := signatureR signature
  s := signatureS signature

def generateEIP1559TransactionSignature (signature : Bytes) : EIP1559TransactionSignature where
  yParity := parity signature
  r := signatureR signature
  s := signatureS signature

/-- `ToHex`: the bytes of `r`, `s` and the last one of `v`. -/
def EthereumSignature.toHex (signature : EthereumSignature) : String :=
  String.ofList ('0' :: 'x' :: hexEncode
    (leftPad 32 (beBytes signature.r.natAbs) ++ leftPad 32 (beBytes signature.s.natAbs) ++
      [(beBytes signature.v.natAbs).getLastD 0]))

theorem recoverFrom_mem {env : CurveEnv} {lowS data : Bytes} {fromAddress : Address} {v : UInt8}
    {candidates : List Nat} (h : recoverFrom env lowS fromAddress data candidates = .ok v) :
    ∃ n ∈ candidates, v = UInt8.ofNat n := by
  induction candidates with
  | nil => cases h
  | cons n rest ih =>
    obtain ⟨found, _, h⟩ := Except.bind_eq_ok.mp h
    split at h
    · exact ⟨n, List.mem_cons_self, (Except.pure_eq_ok.mp h).symm⟩
    · obtain ⟨m, hm, hv⟩ := ih h
      exact ⟨m, List.mem_cons_of_mem _ hm, hv⟩

/-- The recovery values that are tried are the two parities. -/
theorem parity_of_assembled {env : CurveEnv} {rawSig data signature : Bytes} {fromAddress : Address}
    (h : assembleRecoverableSignature env rawSig fromAddress data = .ok signature) :
    parity signature = 0 ∨ parity signature = 1 := by
  obtain ⟨_, _, h⟩ := Except.bind_eq_ok.mp h
  obtain ⟨v, hv, h⟩ := Except.bind_eq_ok.mp h
  obtain rfl := Except.pure_eq_ok.mp h
  obtain ⟨n, hn, rfl⟩ := recoverFrom_mem hv
  simp only [List.mem_cons, List.not_mem_nil, or_false] at hn
  rcases hn with rfl | rfl
  · exact .inl rfl
  · exact .inr rfl

end Signare
