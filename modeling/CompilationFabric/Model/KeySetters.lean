import CompilationFabric.Model.Key

/-!
# The public operations on a key

The typed setters of `Key.hpp`, one for each field, and `clear`.  A setter is `put` of the
value in the encoding of the field's type, so a call is a field together with a value of that
type, and a key is what a sequence of calls leaves behind.

`lastWritten` is what a sequence says about a field; `findField_setAll` is that the key holds
exactly that.
-/

set_option autoImplicit false

namespace CompilationFabric.Model

/-- The types that the setters take. -/
inductive ValueType where
  | id | digest | string | u8 | u64 | shape | ids | u64s
  deriving DecidableEq

/-- An enumeration is set through its `uint8_t`.
SOURCE: Key.hpp:32-88 -/
def valueType : KeyField → ValueType
  | .LogicalOperation | .SourceIdentity | .IRIdentity => .id
  | .SourceDigest | .IRDigest => .digest
  | .AcceleratorVendor | .AcceleratorFamily | .Datatype | .Layout | .Quantization | .Precision
  | .DebugRelease | .Determinism | .Reproducibility => .u8
  | .Rank | .Alignment | .RuntimeCompatibilityGeneration | .CompilerPolicyGeneration => .u64
  | .StaticShape => .shape
  | .DependencyIdentities => .ids
  | .DependencyGenerations => .u64s
  | _ => .string

abbrev ValueType.Value : ValueType → Type
  | .id => Id128
  | .digest => Digest
  | .string => Bytes
  | .u8 => UInt8
  | .u64 => UInt64
  | .shape => List Int64
  | .ids => List Id128
  | .u64s => List UInt64

/-- SOURCE: Key.cpp:130-137 -/
def encValue : (t : ValueType) → t.Value → Bytes
  | .id => encId
  | .digest => encDigest
  | .string => encString
  | .u8 => encU8
  | .u64 => encU64
  | .shape => encShape
  | .ids => encIds
  | .u64s => encU64s

/-- A call of a typed setter. -/
structure SetterCall where
  field : KeyField
  value : (valueType field).Value

namespace CompilationKey

/-- SOURCE: Key.hpp:32-88, Key.cpp:130-137 -/
def set (k : CompilationKey) (call : SetterCall) : CompilationKey :=
  k.put (encValue _ call.value) call.field

/-- SOURCE: Key.hpp:112 -/
def clear (_ : CompilationKey) : CompilationKey := {}

/-- The key that a sequence of setter calls leaves of an empty one. -/
def setAll (calls : List SetterCall) : CompilationKey := calls.foldl set {}

/-- Setters keep a key sorted. -/
theorem sorted_setAll (calls : List SetterCall) : (setAll calls).Sorted := by
  suffices h : ∀ k : CompilationKey, k.Sorted → (calls.foldl set k).Sorted from
    h {} sorted_empty
  induction calls with
  | nil => exact fun k hk => hk
  | cons call calls ih => exact fun k hk => ih _ (hk.put _ _)

end CompilationKey

/-- The value of a field after one more call. -/
def SetterCall.write (f : KeyField) (before : Option (valueType f).Value) (call : SetterCall) :
    Option (valueType f).Value :=
  if h : call.field = f then some (h ▸ call.value) else before

/-- The value that a sequence of calls writes to a field last. -/
def lastWritten (calls : List SetterCall) (f : KeyField) : Option (valueType f).Value :=
  calls.foldl (SetterCall.write f) none

/-- A setter sets its own field, to what it has been given. -/
theorem findField_set (k : CompilationKey) (call : SetterCall) (f : KeyField)
    {before : Option (valueType f).Value} (h : k.findField f = before.map (encValue _)) :
    (k.set call).findField f = (call.write f before).map (encValue _) := by
  obtain ⟨g, value⟩ := call
  rw [CompilationKey.set, CompilationKey.findField_put, SetterCall.write]
  by_cases hg : g = f
  · subst hg
    simp
  · simp [hg, h]

/-- A key holds the last value written to each field, and nothing else. -/
theorem findField_setAll (calls : List SetterCall) (f : KeyField) :
    (CompilationKey.setAll calls).findField f = (lastWritten calls f).map (encValue _) := by
  suffices h : ∀ (k : CompilationKey) (before : Option (valueType f).Value),
      k.findField f = before.map (encValue _) →
      (calls.foldl CompilationKey.set k).findField f =
        (calls.foldl (SetterCall.write f) before).map (encValue _) from h {} none rfl
  induction calls with
  | nil => exact fun k before h => h
  | cons call calls ih => exact fun k before h => ih _ _ (findField_set k call f h)

end CompilationFabric.Model
