import Mathlib

/-!
# Error types of the system layer

`InternalError` carries the source's message text; `SystemError`, `FatalError`,
`UpdateQueryError` and `SystemFunctionError` are the enumerations of `zk_ee::system::errors`.
-/

namespace ZksyncOs

/-- `InternalError`: a failure of the whole program run, with its message. -/
structure InternalError where
  msg : String
deriving DecidableEq, Repr

inductive SystemError where
  | outOfNativeResources
  | outOfErgs
  | internal (e : InternalError)
deriving DecidableEq, Repr

inductive FatalError where
  | outOfNativeResources
  | internal (e : InternalError)
deriving DecidableEq, Repr

/-- `UpdateQueryError`: a balance or nonce update out of its numeric bounds, or a system error. -/
inductive UpdateQueryError where
  | numericBoundsError
  | system (e : SystemError)
deriving DecidableEq, Repr

/-- `SystemFunctionError`: an input a system function rejects, or a system error. -/
inductive SystemFunctionError where
  | invalidInput
  | system (e : SystemError)
deriving DecidableEq, Repr

end ZksyncOs
