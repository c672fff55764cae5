import Signare.Lib.BigEndian

/-!
# Keccak-256

A hash of 32 bytes as a parameter, and the sponge of rate 1088 with the original padding as an
instance of it. A state is one natural of 25 lanes of 64 bits.
-/

namespace ByteCodec

/-- A hash function with digests of 32 bytes. -/
structure Hash256 where
  sum : Bytes → Bytes
  length_sum : ∀ data, (sum data).length = 32

namespace Keccak

def laneMask : Nat := 2 ^ 64 - 1

def rotl (x n : Nat) : Nat := ((x <<< n) &&& laneMask) ||| (x >>> (64 - n))

def rotationOffsets : List Nat :=
  [0, 1, 62, 28, 27, 36, 44, 6, 55, 20, 3, 10, 43, 25, 39, 41, 45, 15, 21, 8, 18, 2, 61, 56, 14]

def roundConstants : List Nat :=
  [0x0000000000000001, 0x0000000000008082, 0x800000000000808A, 0x8000000080008000,
   0x000000000000808B, 0x0000000080000001, 0x8000000080008081, 0x8000000000008009,
   0x000000000000008A, 0x0000000000000088, 0x0000000080008009, 0x000000008000000A,
   0x000000008000808B, 0x800000000000008B, 0x8000000000008089, 0x8000000000008003,
   0x8000000000008002, 0x8000000000000080, 0x000000000000800A, 0x800000008000000A,
   0x8000000080008081, 0x8000000000008080, 0x0000000080000001, 0x8000000080008008]

/-- Lane `(x, y)` of a state is number `x + 5 * y`. -/
def lane (a i : Nat) : Nat := (a >>> (64 * i)) &&& laneMask

/-- The state with the given first lanes. -/
def ofLanes : Nat → (Nat → Nat) → Nat
  | 0, _ => 0
  | n + 1, f => ofLanes n f ||| (f n <<< (64 * n))

def theta (a : Nat) : Nat :=
  let c := ofLanes 5 fun x =>
    lane a x ^^^ lane a (x + 5) ^^^ lane a (x + 10) ^^^ lane a (x + 15) ^^^ lane a (x + 20)
  let d := ofLanes 5 fun x => lane c ((x + 4) % 5) ^^^ rotl (lane c ((x + 1) % 5)) 1
  ofLanes 25 fun i => lane a i ^^^ lane d (i % 5)

/-- Lane `(x, y)` of the result is the rotated lane `(x + 3 * y, x)` of the argument. -/
def rhoPi (a : Nat) : Nat :=
  ofLanes 25 fun i =>
    let j := (i % 5 + 3 * (i / 5)) % 5 + 5 * (i % 5)
    rotl (lane a j) (rotationOffsets.getD j 0)

def chi (a : Nat) : Nat :=
  ofLanes 25 fun i =>
    lane a i ^^^
      ((laneMask - lane a ((i + 1) % 5 + 5 * (i / 5))) &&& lane a ((i + 2) % 5 + 5 * (i / 5)))

def permute (a : Nat) : Nat :=
  roundConstants.foldl (fun a roundConstant => chi (rhoPi (theta a)) ^^^ roundConstant) a

def rate : Nat := 136

/-- Blocks are read least significant byte first. -/
def absorb : Nat → Nat → Bytes → Nat
  | 0, a, _ => a
  | n + 1, a, data =>
    absorb n (permute (a ^^^ beNat (data.take rate).reverse)) (data.drop rate)

/-- The domain byte is `0x01`, not the `0x06` of the later standard. -/
def pad (data : Bytes) : Bytes :=
  let k := rate - data.length % rate
  if k = 1 then data ++ [0x81] else data ++ 0x01 :: List.replicate (k - 2) 0 ++ [0x80]

def digest (data : Bytes) : Bytes :=
  let a := absorb ((pad data).length / rate) 0 (pad data)
  (List.range 32).map fun i => UInt8.ofNat (a >>> (8 * i))

theorem length_digest (data : Bytes) : (digest data).length = 32 := by
  simp [digest]

end Keccak

def keccak256 : Hash256 := ⟨Keccak.digest, Keccak.length_digest⟩

set_option maxRecDepth 10000 in
example : keccak256.sum [] =
    [0xc5, 0xd2, 0x46, 0x01, 0x86, 0xf7, 0x23, 0x3c, 0x92, 0x7e, 0x7d, 0xb2, 0xdc, 0xc7, 0x03,
     0xc0, 0xe5, 0x00, 0xb6, 0x53, 0xca, 0x82, 0x27, 0x3b, 0x7b, 0xfa, 0xd8, 0x04, 0x5d, 0x85,
     0xa4, 0x70] := by
  decide +kernel

end ByteCodec
