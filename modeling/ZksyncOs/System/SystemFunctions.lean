import Mathlib
import ZksyncOs.System.Resources
import ZksyncOs.System.Types

/-!
# The Keccak-256 system function

`basic_system::system_functions::keccak256`. Keccak-256 itself is a parameter of the model; the
system function charges for it before it hashes, ergs by the EVM's schedule (30 gas, then 6 a
word) and native by the rounds of the permutation, at least one. `keccak256NativeCost` is also
what the bootloader charges for the hashes it computes itself.
-/

namespace ZksyncOs

def keccak256BaseNativeCost : Nat := 2500

def keccak256RoundNativeCost : Nat := 17500

def keccak256ChunkSize : Nat := 136

/-- `keccak256_native_cost`: at least one round. -/
def keccak256NativeCost (len : Nat) : Nat :=
  max 1 ((len + keccak256ChunkSize - 1) / keccak256ChunkSize) * keccak256RoundNativeCost +
    keccak256BaseNativeCost

end ZksyncOs
