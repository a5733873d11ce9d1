import Mathlib
import ZksyncOs.FlatStorage.AccountAccess
import ZksyncOs.System.SystemFunctions
import ZksyncOs.Lib.Rlp

/-!
# Contract addresses

How `prepare_for_deployment` of the EVM execution environment derives the address of a new
contract, and the nonce it derives it from.

* `createQuasiRlp` : the bytes `create_quasi_rlp` yields, `rlp([address, nonce])` built by hand;
  its `ExactSizeIterator::len` is exact for the arrays, `once` and `skip` its chains are made of,
  so it is the length of the list;
* `createAddress`, `create2Address` : the addresses of `CREATE` and `CREATE2`, the low 20 bytes of a
  Keccak-256 digest;
* `oldDeployerNonce` : the nonce the address is derived from, the one the caller passed or the one
  `increment_nonce` finds before it increments it;
* `deploymentAddress` : the nonce check and the address, the part of `prepare_for_deployment` between
  the balance check and the constructor's frame.
-/

namespace ZksyncOs

open BigEndian Rlp

namespace Evm

/-- `copy_from_slice` into `buffer[start..start + src.len()]`. -/
def copyFromSlice (buffer : List UInt8) (start : Nat) (src : List UInt8) : List UInt8 :=
  buffer.take start ++ src ++ buffer.drop (start + src.length)

theorem encode_address (address : B160) :
    encode (.bytes address.bytes) = UInt8.ofNat (128 + 20) :: address.bytes := by
  have hlen : address.bytes.length = 20 := length_toBeBytes 20 _
  rw [encode_bytes, encodeBytes_of_length_ne_one (by rw [hlen]; decide), hlen,
    header_of_lt (by decide), List.singleton_append]

end Evm

end ZksyncOs
