import Signare.EIP712.Datum
import Signare.HSMConnector.Carried
import Signare.HSMConnector.Recoverable

/-!
# Signing typed data

`SignTypedData`: the checks on the input, the digest, and the signature of either recovery value.
Hashing may not end, so it runs on fuel; the calls of a run are the requests to the signing backend.
-/

namespace Signare

open ByteCodec

structure SignTypedDataInput extends SlotConnectionData where
  chainId : Int
  address : Address
  typedData : TypedData

structure SignTypedDataOutput where
  signedData : String
  typedHash : String
  deriving DecidableEq

/-- The backends and the curve, struct validation, and the order in which a map is ranged over. -/
structure TypedDataEnv extends SigningEnv where
  validateSignTypedData : SignTypedDataInput → Except SignareError Unit
  mapOrder : List String → List String
  mapOrder_perm : ∀ keys, (mapOrder keys).Perm keys

def TypedDataEnv.toHashEnv (env : TypedDataEnv) : HashEnv where
  keccak := env.keccak
  mapOrder := env.mapOrder
  mapOrder_perm := env.mapOrder_perm

/-- A domain without a chain id is not refused. -/
def checkChain (typedData : TypedData) (chainId : Int) : Except SignareError Unit :=
  match typedData.domain.chainId with
  | none => .ok ()
  | some domainChainId =>
    if domainChainId ≠ chainId then
      .error (invalidArgumentReadable ("chainId mismatch: domain specifies " ++
        toString domainChainId ++ " but request has " ++ toString chainId))
    else .ok ()

def checkSignTypedData (env : TypedDataEnv) (input : SignTypedDataInput) :
    Except SignareError Unit := do
  (env.validateSignTypedData input).mapError fun err =>
    invalidArgumentFromErr err "couldn't validate input data"
  if input.address.isEmpty then
    throw (invalidArgumentReadable "field 'address' cannot be empty")
  checkChain input.typedData input.chainId
  input.typedData.validate.mapError fun validateErr =>
    invalidArgumentFromErr validateErr "invalid typed data"

/-- What is left to do with the hashes. -/
def signHashes (env : TypedDataEnv) (input : SignTypedDataInput) (hashes : Bytes × Bytes) :
    Traced SignInput SignareError SignTypedDataOutput := do
  let signature ← signWith env.toSigningEnv "error signing typed data" input.toSlotConnectionData
    input.address hashes.2
  return { signedData := (typedDataSignature signature).toHex
           typedHash := String.ofList (hexEncode hashes.1) }

def signTypedData (env : TypedDataEnv) (fuel : Nat) (input : SignTypedDataInput) :
    Run Failure (Traced SignInput SignareError SignTypedDataOutput) := do
  Run.ofExcept ((checkSignTypedData env input).mapError Failure.error)
  let hashes ← hashTypedData env.toHashEnv fuel input.typedData
  return signHashes env input hashes

theorem checkChain_eq_ok {typedData : TypedData} {chainId : Int} :
    checkChain typedData chainId = .ok () ↔
      typedData.domain.chainId = none ∨ typedData.domain.chainId = some chainId := by
  unfold checkChain
  cases typedData.domain.chainId with
  | none => simp
  | some domainChainId =>
    by_cases h : domainChainId = chainId
    · simp [h]
    · simp [h]

theorem checkChain_of_checked {env : TypedDataEnv} {input : SignTypedDataInput}
    (h : checkSignTypedData env input = .ok ()) :
    checkChain input.typedData input.chainId = .ok () := by
  obtain ⟨-, -, h⟩ := Except.bind_eq_ok.mp h
  dsimp only at h
  split at h
  · cases h
  · obtain ⟨⟨⟩, hchain, -⟩ := Except.bind_eq_ok.mp h
    exact hchain

theorem signHashes_ok {env : TypedDataEnv} {input : SignTypedDataInput} {hashes : Bytes × Bytes}
    {out : SignTypedDataOutput} (h : (signHashes env input hashes).result = .ok out) :
    (signHashes env input hashes).calls =
      [signInput input.toSlotConnectionData input.address hashes.2] := by
  obtain ⟨signature, hsign, -, hcalls⟩ := Traced.bind_eq_ok.mp h
  rw [signHashes, hcalls, (signWith_ok hsign).1]
  rfl

/-- A signed request passed the checks, and the backend was asked to sign the digest alone. -/
theorem signTypedData_ok {env : TypedDataEnv} {fuel : Nat} {input : SignTypedDataInput}
    {run : Traced SignInput SignareError SignTypedDataOutput} {out : SignTypedDataOutput}
    (h : signTypedData env fuel input = .done run) (hout : run.result = .ok out) :
    checkSignTypedData env input = .ok () ∧ ∃ hashes,
      structHashes env.toHashEnv fuel input.typedData = .done hashes ∧
      run.calls = [signInput input.toSlotConnectionData input.address
        (env.keccak.sum (digestPreimage hashes))] := by
  obtain ⟨⟨⟩, hcheck, h⟩ := Run.bind_eq_done.mp h
  obtain ⟨out', hhash, h⟩ := Run.bind_eq_done.mp h
  obtain ⟨hashes, hhashes, rfl⟩ := hashTypedData_eq_done.mp hhash
  cases h
  exact ⟨Except.mapError_eq_ok.mp (Run.ofExcept_eq_done.mp hcheck), hashes, hhashes,
    signHashes_ok hout⟩

end Signare
