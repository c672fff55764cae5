import Signare.Concurrent.SlotRows
import Signare.RpcInfra.ChainBinding

/-!
# The local key vault

Private keys are kept as texts in the configuration of a slot, by the addresses of their public
keys. A key that an address is derived from is not refused when it is signed with. secp256k1 is a
parameter.
-/

namespace Signare

open ByteCodec

namespace LKVSignatureManager

def privateKeyLengthBytes : Nat := 32

/-- What is asked of secp256k1: the uncompressed public key of a private key, and `r` and `s` of a
signature, with the random bytes at hand. -/
structure Curve where
  publicKey : Bytes → Bytes
  sign : Nat → Bytes → Except String (Nat × Nat)

def checkScalar (d : Nat) : Except SignareError Unit :=
  if curveOrder ≤ d then .error (internal "invalid private key: D >= N")
  else if d = 0 then .error (internal "invalid private key: D is zero or negative")
  else .ok ()

/-- An error of the manager, which says that the argument is invalid, or another one. -/
inductive DeriveError
  | invalidArgument (description : String)
  | passedOn (err : SignareError)

/-- A public key that is not uncompressed is the only way in which deriving the address fails. -/
def deriveAddressFromPrivateKey (keccak : Hash256) (curve : Curve) (privateKey : HexBytes) :
    Except DeriveError Address :=
  if privateKey.length ≠ privateKeyLengthBytes then
    .error (.invalidArgument
      ("invalid private key length '" ++ toString privateKey.length ++ "'"))
  else do
    (checkScalar (beNat privateKey)).mapError .passedOn
    (deriveAddressFromPublicKey keccak (curve.publicKey privateKey)).mapError fun _ =>
      .passedOn (internal ("failed deriving address from public key: " ++
        "invalid argument: invalid uncompressed public key"))

/-- `Sign`, once the scalar is known. -/
def signScalar (curve : Curve) (data : Bytes) (d : Nat) : Except SignError Bytes := do
  (checkScalar d).mapError SignError.passedOn
  let (r, s) ← (curve.sign d data).mapError fun err =>
    SignError.passedOn (internalFromErr (.text err) "")
  return leftPad 32 (beBytes r) ++ leftPad 32 (beBytes s)

def sign (curve : Curve) (input : SignInput) : Except SignError Bytes :=
  match input.config.localKeyVault.bind fun vault => vault.keyStore.lookup input.fromAddress with
  | none => .error (.internal "cannot obtain private key to sign")
  | some privateKeyStr =>
    match newHexBytesFromString privateKeyStr with
    | .error err => .error (.passedOn (internalFromErr err ""))
    | .ok privateKeyBytes => signScalar curve input.data (beNat privateKeyBytes)

theorem lookup_entries (keyStore : HSMSlot.KeyStore) (address : Address) :
    (keyStore.entries.map fun entry => (entry.1, entry.2)).lookup address =
      keyStore.lookup address := by
  rw [AList.lookup]
  induction keyStore.entries with
  | nil => rfl
  | cons entry entries ih =>
    obtain ⟨address', text⟩ := entry
    by_cases heq : address = address'
    · subst heq
      simp
    · have hne : address' ≠ address := fun h => heq h.symm
      have hbeq : (address == address') = false := by simpa using heq
      simp only [List.map_cons, List.lookup_cons, hbeq]
      rw [ih, List.dlookup_cons_ne _ _ heq]

/-- Signing with the slot of an application is signing with the scalar that is found in it. -/
theorem sign_of_connection (curve : Curve) {connection : HSMConnection}
    (h : connection.moduleKind = .lkv) (from_ : Address) (data : HexBytes) :
    sign curve (signInput (adaptSlotConnectionData connection) from_ data) =
      signingScalar connection.slot.config.localKeyVault from_ >>= signScalar curve data := by
  rw [sign, signingScalar, signInput, adaptSlotConnectionData, h]
  cases connection.slot.config.localKeyVault with
  | none => rfl
  | some keyStore =>
    simp only [Option.map_some, Option.bind_some, lookup_entries]
    cases keyStore.lookup from_ with
    | none => rfl
    | some text =>
      simp only
      cases newHexBytesFromString text with
      | error err => rfl
      | ok privateKeyBytes => rfl

/-- A key with an address can be signed with. -/
theorem checkScalar_of_deriveAddress {keccak : Hash256} {curve : Curve} {privateKey : HexBytes}
    {address : Address} (h : deriveAddressFromPrivateKey keccak curve privateKey = .ok address) :
    privateKey.length = privateKeyLengthBytes ∧ checkScalar (beNat privateKey) = .ok () := by
  rw [deriveAddressFromPrivateKey] at h
  split at h
  · cases h
  · next hlength =>
    refine ⟨not_not.mp hlength, ?_⟩
    cases hscalar : checkScalar (beNat privateKey) with
    | error err =>
      rw [hscalar] at h
      cases h
    | ok _ => rfl

end LKVSignatureManager

end Signare
