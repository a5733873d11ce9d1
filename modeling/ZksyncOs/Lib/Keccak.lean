import Mathlib

/-!
# Keccak-256

The permutation Keccak-f[1600] on a state of 25 lanes of 64 bits, as the `keccak_f1600` of the
Keccak crates computes it round by round (theta, rho and pi, chi, iota), and the Keccak-256 sponge
over it: a rate of 136 bytes, the padding `0x01 .. 0x80` of the original Keccak submission, lanes
read little-endian, and the first four lanes as the digest.
-/

namespace Keccak

/-- `RC`: the round constants of iota. -/
def roundConstants : List UInt64 := [
  0x0000000000000001, 0x0000000000008082, 0x800000000000808a, 0x8000000080008000,
  0x000000000000808b, 0x0000000080000001, 0x8000000080008081, 0x8000000000008009,
  0x000000000000008a, 0x0000000000000088, 0x0000000080008009, 0x000000008000000a,
  0x000000008000808b, 0x800000000000008b, 0x8000000000008089, 0x8000000000008003,
  0x8000000000008002, 0x8000000000000080, 0x000000000000800a, 0x800000008000000a,
  0x8000000080008081, 0x8000000000008080, 0x0000000080000001, 0x8000000080008008]

/-- `RHO`: the rotation of each step of the rho-pi walk. -/
def rho : List UInt64 :=
  [1, 3, 6, 10, 15, 21, 28, 36, 45, 55, 2, 14, 27, 41, 56, 8, 25, 43, 62, 18, 39, 61, 20, 44]

/-- `PI`: the lane each step of the rho-pi walk writes. -/
def pi : List Nat :=
  [10, 7, 11, 17, 18, 3, 5, 16, 8, 21, 24, 4, 15, 23, 19, 13, 12, 2, 20, 14, 22, 9, 6, 1]

def rotateLeft (x n : UInt64) : UInt64 := (x <<< n) ||| (x >>> (64 - n))

/-- Theta: every lane takes the parities of the two neighbouring columns. -/
def theta (state : List UInt64) : List UInt64 :=
  let array := (List.range 5).map fun x =>
    (List.range 5).foldl (fun acc y => acc ^^^ state.getD (5 * y + x) 0) 0
  (List.range 25).map fun i =>
    let x := i % 5
    state.getD i 0 ^^^ (array.getD ((x + 4) % 5) 0 ^^^ rotateLeft (array.getD ((x + 1) % 5) 0) 1)

/-- Rho and pi: the walk from lane `1` that moves each lane to `PI[x]`, rotated by `RHO[x]`. -/
def rhoPi (state : List UInt64) : List UInt64 :=
  ((pi.zip rho).foldl (fun (acc : List UInt64 × UInt64) (step : Nat × UInt64) =>
    (acc.1.set step.1 (rotateLeft acc.2 step.2), acc.1.getD step.1 0)) (state, state.getD 1 0)).1

/-- Chi: the nonlinear step along each row. -/
def chi (state : List UInt64) : List UInt64 :=
  (List.range 25).map fun i =>
    let y := i / 5 * 5
    let x := i % 5
    state.getD i 0 ^^^ (~~~ state.getD (y + (x + 1) % 5) 0 &&& state.getD (y + (x + 2) % 5) 0)

/-- One round, with iota's constant `rc` added to lane `0`. -/
def round (state : List UInt64) (rc : UInt64) : List UInt64 :=
  match chi (rhoPi (theta state)) with
  | lane :: rest => (lane ^^^ rc) :: rest
  | [] => []

/-- `keccak_f1600`: the 24 rounds. -/
def keccakF1600 (state : List UInt64) : List UInt64 := roundConstants.foldl round state

/-- `ALEN_BYTES`: the rate of Keccak-256. -/
def rateBytes : Nat := 136

/-- A lane from 8 bytes, little-endian. -/
def lane (bytes : List UInt8) : UInt64 := bytes.foldr (fun b acc => (acc <<< 8) ||| b.toUInt64) 0

/-- The first `n` lanes of a byte string. -/
def lanes : Nat → List UInt8 → List UInt64
  | 0, _ => []
  | n + 1, bytes => lane (bytes.take 8) :: lanes n (bytes.drop 8)

/-- The 8 bytes of a lane, little-endian. -/
def laneBytes (x : UInt64) : List UInt8 := (List.range 8).map fun i => (x >>> (8 * i).toUInt64).toUInt8

/-- The padding: `0x01`, zeros to the end of the block, and the top bit of its last byte set. -/
def pad (input : List UInt8) : List UInt8 :=
  let padded := input ++ [0x01] ++ List.replicate (rateBytes - input.length % rateBytes - 1) 0
  padded.set (padded.length - 1) (padded.getD (padded.length - 1) 0 ||| 0x80)

/-- Absorbing one block: its 17 lanes added into the state, then the permutation. -/
def absorb (state : List UInt64) (block : List UInt8) : List UInt64 :=
  keccakF1600 ((List.range 25).map fun i => state.getD i 0 ^^^ (lanes 17 block).getD i 0)

/-- The blocks of a padded input, at most `n` of them. -/
def blocks : Nat → List UInt8 → List (List UInt8)
  | 0, _ => []
  | n + 1, bytes => if bytes = [] then [] else bytes.take rateBytes :: blocks n (bytes.drop rateBytes)

/-- Keccak-256 of a byte string. -/
def keccak256 (input : List UInt8) : List UInt8 :=
  let padded := pad input
  let state := (blocks padded.length padded).foldl absorb (List.replicate 25 0)
  (List.range 4).flatMap fun i => laneBytes (state.getD i 0)

end Keccak
