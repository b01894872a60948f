import CompilationFabric.Model.KeySetters

/-!
# The typed getters of a key

`getU8` to `getU128` of `Key.cpp` and the decoders they rest on.  Each public getter of `Key.hpp`
is one of them on its own field; those of enumerations and typed identities convert what they get.
There is no getter for a list of identities or of generations.

`getDigest` is the one that does not read its value as the setter wrote it: it expects a length in
front of the digest, and what it takes for one leaves at most 24 bytes.
-/

set_option autoImplicit false

namespace CompilationFabric.Model

/-! ## Decoders -/

/-- SOURCE: Key.cpp:32-37 -/
def decBytes (s : Bytes) : Option Bytes := do
  let (b, r) ← (CanonicalReader.mk s 0).bytesBlob
  if r.pos = s.length then some b else none

/-- SOURCE: Key.cpp:43-47 -/
def decU8 (s : Bytes) : Option UInt8 := do
  let (v, r) ← (CanonicalReader.mk s 0).u8
  if r.pos = s.length then some v else none

/-- `for (uint32_t i = 0; i < n; ++i)`.
SOURCE: Key.cpp:57-60 -/
def decElements : ℕ → CanonicalReader → Option (List Int64 × CanonicalReader)
  | 0, r => some ([], r)
  | n + 1, r => do
      let (v, r) ← r.u64
      let (vs, r) ← decElements n r
      return (v.toInt64 :: vs, r)

/-- SOURCE: Key.cpp:53-62 -/
def decShape (s : Bytes) : Option (List Int64) := do
  let (n, r) ← (CanonicalReader.mk s 0).u32
  let (vs, r) ← decElements n.toNat r
  if r.pos = s.length then some vs else none

/-- INTERNAL: the dimensions are read back one by one. -/
theorem decElements_after (dims : List Int64) : ∀ (pre tl : Bytes),
    (pre ++ (dims.flatMap (fun e => CanonicalWriter.u64 e.toUInt64) ++ tl)).length < sizeMod →
    decElements dims.length (CanonicalReader.after pre
        (dims.flatMap (fun e => CanonicalWriter.u64 e.toUInt64) ++ tl)) =
      some (dims, CanonicalReader.after
        (pre ++ dims.flatMap fun e => CanonicalWriter.u64 e.toUInt64) tl) := by
  induction dims with
  | nil =>
      intro pre tl _
      simp [decElements]
  | cons e dims ih =>
      intro pre tl hsize
      rw [List.flatMap_cons, List.append_assoc] at hsize ⊢
      have hhead := CanonicalReader.u64_after pre _ hsize
      have hrest := ih (pre ++ CanonicalWriter.u64 e.toUInt64) tl (by simpa using hsize)
      rw [List.length_cons, decElements, hhead]
      simp only [Option.bind_eq_bind, Option.bind_some, hrest]
      simp

/-! ## What the decoders make of an encoded value -/

/-- A string is read back. -/
theorem decBytes_encString {s : Bytes} (hsize : (encString s).length < sizeMod) :
    decBytes (encString s) = some s := by
  have hread := CanonicalReader.bytesBlob_after [] [] (s := s) (by simpa [encString] using hsize)
  rw [List.append_nil, CanonicalReader.after_nil] at hread
  rw [decBytes, encString, hread]
  simp [CanonicalReader.after]

/-- A byte is read back. -/
theorem decU8_encU8 (v : UInt8) : decU8 (encU8 v) = some v := by
  have hread := CanonicalReader.u8_after [] [] (v := v) (by simp [CanonicalWriter.u8, sizeMod])
  rw [List.append_nil, CanonicalReader.after_nil] at hread
  rw [decU8, encU8, hread]
  simp [CanonicalReader.after]

/-- A shape is read back, up to `2 ^ 32` dimensions. -/
theorem decShape_encShape {dims : List Int64} (hdims : dims.length < 2 ^ 32) :
    decShape (encShape dims) = some dims := by
  have hlen : (dims.flatMap fun e => CanonicalWriter.u64 e.toUInt64).length = 8 * dims.length := by
    rw [List.length_flatMap]
    simp only [CanonicalWriter.length_u64, List.map_const', List.sum_replicate_nat]
    omega
  have hsize : ([] ++ (CanonicalWriter.u32 (UInt32.ofNat dims.length) ++
      dims.flatMap fun e : Int64 => CanonicalWriter.u64 e.toUInt64)).length < sizeMod := by
    simp only [List.nil_append, List.length_append, CanonicalWriter.length_u32, hlen, sizeMod]
    omega
  have hcount := CanonicalReader.u32_after [] _ hsize
  have hnat : (UInt32.ofNat dims.length).toNat = dims.length := by
    rw [UInt32.toNat_ofNat']
    omega
  have hloop := decElements_after dims ([] ++ CanonicalWriter.u32 (UInt32.ofNat dims.length)) []
    (by simpa using hsize)
  rw [List.append_nil] at hloop
  rw [decShape, encShape, encList, ← CanonicalReader.after_nil, hcount]
  simp only [Option.bind_eq_bind, Option.bind_some, hnat, hloop]
  simp [CanonicalReader.after]

/-! ## Getters -/

namespace CompilationKey

/-- SOURCE: Key.cpp:139-143 -/
def getU8 (k : CompilationKey) (f : KeyField) : Option UInt8 := (k.findField f).bind decU8

/-- SOURCE: Key.cpp:149-153 -/
def getString (k : CompilationKey) (f : KeyField) : Option Bytes := (k.findField f).bind decBytes

/-- SOURCE: Key.cpp:154-160 -/
def getDigest (k : CompilationKey) (f : KeyField) : Option Digest := do
  let value ← k.findField f
  let (s, _) ← (CanonicalReader.mk value 0).bytesBlob
  if h : s.length = 32 then some ⟨s, h⟩ else none

/-- SOURCE: Key.cpp:161-166 -/
def getShape (k : CompilationKey) (f : KeyField) : Option (List Int64) :=
  (k.findField f).bind decShape

/-- SOURCE: Key.hpp:94 -/
def sourceDigest (k : CompilationKey) : Option Digest := k.getDigest .SourceDigest

/-- SOURCE: Key.hpp:96 -/
def irDigest (k : CompilationKey) : Option Digest := k.getDigest .IRDigest

end CompilationKey

/-- The getter of each type; there is none for the two types of lists.
SOURCE: Key.hpp:90-109 -/
def typedGetter : (t : ValueType) → Option (CompilationKey → KeyField → Option t.Value)
  | .id => some CompilationKey.getU128
  | .digest => some CompilationKey.getDigest
  | .string => some CompilationKey.getString
  | .u8 => some CompilationKey.getU8
  | .u64 => some CompilationKey.getU64
  | .shape => some CompilationKey.getShape
  | .ids | .u64s => none

/-- A getter sees the value of its field and nothing else. -/
theorem typedGetter_congr {k l : CompilationKey} {f : KeyField} (h : k.findField f = l.findField f) :
    ∀ t get, typedGetter t = some get → get k f = get l f := by
  intro t get hget
  cases t <;> cases hget
  · rw [CompilationKey.getU128, CompilationKey.getU128, h]
  · rw [CompilationKey.getDigest, CompilationKey.getDigest, h]
  · rw [CompilationKey.getString, CompilationKey.getString, h]
  · rw [CompilationKey.getU8, CompilationKey.getU8, h]
  · rw [CompilationKey.getU64, CompilationKey.getU64, h]
  · rw [CompilationKey.getShape, CompilationKey.getShape, h]

end CompilationFabric.Model
