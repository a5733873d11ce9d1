import Mathlib
import ZksyncOs.System.Errors

/-!
# Cache records

`CacheRecord` of `zk_ee::common_structs::cache_record`: the value an IO cache keeps under a key,
with its `Appearance` and cache metadata.

* `CacheRecord.update` : runs the value-and-metadata callback and marks the record `updated`,
  unless it is `deconstructed`, which no update undoes;
* `CacheRecord.setValue` : the update whose callback writes a value and keeps the metadata;
* `CacheRecord.updateMetadata`, `deconstruct`, `unset` : the other three writes.

The source sets the appearance before it runs the callback. Every callback this model passes
either cannot fail or fails with an `InternalError`, which ends the block run, so the state a
failed update leaves behind is never read; a failed update is modelled as writing nothing.
-/

namespace ZksyncOs

inductive Appearance where
  | unset
  | retrieved
  | updated
  | deconstructed
deriving DecidableEq, Repr, Inhabited

structure CacheRecord (V M : Type) where
  appearance : Appearance
  value : V
  metadata : M
deriving DecidableEq, Repr, Inhabited

namespace CacheRecord

variable {V M : Type}

/-- `CacheRecord::new`: default metadata. -/
def new [Inhabited M] (value : V) (appearance : Appearance) : CacheRecord V M :=
  ⟨appearance, value, default⟩

/-- The appearance after an update: `updated`, except that `deconstructed` stays. -/
def updatedAppearance (a : Appearance) : Appearance :=
  if a ≠ .deconstructed then .updated else a

/-- `CacheRecord::update`: the callback rewrites value and metadata. -/
def update {E : Type} (r : CacheRecord V M) (f : V → M → Except E (V × M)) :
    Except E (CacheRecord V M) := do
  let (value, metadata) ← f r.value r.metadata
  pure ⟨updatedAppearance r.appearance, value, metadata⟩

/-- The record after an update whose callback writes `value` and keeps the metadata. -/
def setValue (r : CacheRecord V M) (value : V) : CacheRecord V M :=
  ⟨updatedAppearance r.appearance, value, r.metadata⟩

/-- `CacheRecord::update_metadata`: the appearance is kept. -/
def updateMetadata {E : Type} (r : CacheRecord V M) (f : M → Except E M) :
    Except E (CacheRecord V M) := do
  let metadata ← f r.metadata
  pure { r with metadata }

def deconstruct (r : CacheRecord V M) : CacheRecord V M := { r with appearance := .deconstructed }

def unset (r : CacheRecord V M) : CacheRecord V M := { r with appearance := .unset }

@[simp] theorem value_setValue (r : CacheRecord V M) (v : V) : (r.setValue v).value = v := rfl

@[simp] theorem metadata_setValue (r : CacheRecord V M) (v : V) :
    (r.setValue v).metadata = r.metadata := rfl

@[simp] theorem appearance_setValue (r : CacheRecord V M) (v : V) :
    (r.setValue v).appearance = updatedAppearance r.appearance := rfl

@[simp] theorem updatedAppearance_deconstructed :
    updatedAppearance .deconstructed = .deconstructed := rfl

@[simp] theorem updateMetadata_ok {E : Type} (r : CacheRecord V M) (m : M) :
    r.updateMetadata (fun _ => (.ok m : Except E M)) = .ok { r with metadata := m } := rfl

@[simp] theorem appearance_deconstruct (r : CacheRecord V M) :
    r.deconstruct.appearance = .deconstructed := rfl

@[simp] theorem value_deconstruct (r : CacheRecord V M) : r.deconstruct.value = r.value := rfl

@[simp] theorem metadata_deconstruct (r : CacheRecord V M) : r.deconstruct.metadata = r.metadata :=
  rfl

@[simp] theorem appearance_unset (r : CacheRecord V M) : r.unset.appearance = .unset := rfl

@[simp] theorem value_unset (r : CacheRecord V M) : r.unset.value = r.value := rfl

end CacheRecord

end ZksyncOs
