import CompilationFabric.Model.KeyGetters
import CompilationFabric.Model.ReaderCalls

/-!
# Typed fields read back

A setter encodes its value and puts it in the place of the field's old one, so the other fields
are as they were.  The getter of the same type decodes what the setter encoded, for every type
that has a getter except digests: `setDigest` writes the 32 bytes as they are, and `getDigest`
expects their number in front of them.
-/

set_option autoImplicit false

namespace CompilationFabric.Analysis

open CompilationFabric.Model

variable {k : CompilationKey} {f : KeyField}

/-- The values of a type that its encoding can hold: a string is an object in memory, and a shape
has fewer dimensions than its count has values. -/
def Encodable : (t : ValueType) → t.Value → Prop
  | .string, s => s.length ≤ maxObjectSize
  | .shape, dims => dims.length < 2 ^ 32
  | _, _ => True

/-- After a call of a setter, the getter of the same type gives the value that was set, and no
getter of another field gives anything new.
SOURCE: Key.hpp:32-109 -/
structure FieldReadsBack (k : CompilationKey) (call : SetterCall) : Prop where
  value : ∀ get, typedGetter (valueType call.field) = some get →
    get (k.set call) call.field = some call.value
  others : ∀ t get, typedGetter t = some get → ∀ f, f ≠ call.field → get (k.set call) f = get k f

/-- A setter sets its own field. -/
theorem findField_set_self (call : SetterCall) :
    (k.set call).findField call.field = some (encValue _ call.value) := by
  rw [CompilationKey.set, CompilationKey.findField_put, if_pos rfl]

/-- A setter leaves the other fields. -/
theorem findField_set_other {call : SetterCall} (hf : f ≠ call.field) :
    (k.set call).findField f = k.findField f := by
  rw [CompilationKey.set, CompilationKey.findField_put, if_neg (Ne.symm hf)]

/-! ## The getters -/

/-- An id that was set is read. -/
theorem getU128_of_encId {v : Id128} (h : k.findField f = some (encId v)) :
    k.getU128 f = some v := by
  have hread := CanonicalReader.u128_after [] [] (v := v) (by simp [sizeMod])
  rw [List.append_nil, CanonicalReader.after_nil] at hread
  rw [CompilationKey.getU128, h, encId]
  simp [hread, CanonicalReader.after]

/-- A number that was set is read. -/
theorem getU64_of_encU64 {v : UInt64} (h : k.findField f = some (encU64 v)) :
    k.getU64 f = some v := by
  have hread := CanonicalReader.u64_after [] [] (v := v) (by simp [sizeMod])
  rw [List.append_nil, CanonicalReader.after_nil] at hread
  rw [CompilationKey.getU64, h, encU64]
  simp [hread, CanonicalReader.after]

/-- The first eight bytes of the digest are taken for a length, and no more than 24 follow.
SOURCE: Key.cpp:12, 154-160 -/
theorem getDigest_of_encDigest {v : Digest} (h : k.findField f = some (encDigest v)) :
    k.getDigest f = none := by
  rw [CompilationKey.getDigest, h, encDigest]
  simp only [Option.bind_eq_bind, Option.bind_some]
  have hview : ∀ s r, (CanonicalReader.mk v.bytes 0).bytesBlob = some (s, r) → s.length ≠ 32 := by
    intro s r hread
    unfold CanonicalReader.bytesBlob at hread
    obtain ⟨⟨len, r₁⟩, hlen, hread⟩ := Option.bind_eq_some_iff.mp hread
    unfold CanonicalReader.u64 at hlen
    split at hlen
    · cases hlen
    · cases hlen
      unfold CanonicalReader.rawBlob at hread
      dsimp only at hread
      split at hread
      · cases hread
      · have hpos : (0 + 8) % sizeMod = 8 := rfl
        rw [Option.some_inj] at hread
        obtain rfl := congrArg Prod.fst hread
        simp only [CanonicalReader.view, CanonicalReader.skip, hpos, List.length_take,
          List.length_drop, v.size]
        omega
  cases hread : (CanonicalReader.mk v.bytes 0).bytesBlob with
  | none => rfl
  | some read =>
      obtain ⟨s, r⟩ := read
      simp only [Option.bind_some]
      exact dif_neg (hview s r hread)

/-! ## What is read back -/

/-- The getter of the type of an encoded value gives the value. -/
theorem typedGetter_of_encValue {t : ValueType} {v : t.Value} (ht : t ≠ .digest)
    (hvalue : Encodable t v) (h : k.findField f = some (encValue t v)) :
    ∀ get, typedGetter t = some get → get k f = some v := by
  intro get hget
  cases t with
  | id => cases hget; exact getU128_of_encId h
  | digest => exact absurd rfl ht
  | string =>
      cases hget
      have hsize := add_lt_sizeMod hvalue
      rw [CompilationKey.getString, h]
      exact decBytes_encString (by rw [encString, CanonicalWriter.length_string]; omega)
  | u8 => cases hget; rw [CompilationKey.getU8, h]; exact decU8_encU8 v
  | u64 => cases hget; exact getU64_of_encU64 h
  | shape => cases hget; rw [CompilationKey.getShape, h]; exact decShape_encShape hvalue
  | ids => cases hget
  | u64s => cases hget

/-- There is a getter for digests, and it gives none. -/
theorem typedGetter_of_digest {t : ValueType} {v : t.Value} (ht : t = .digest)
    (h : k.findField f = some (encValue t v)) :
    ∃ get, typedGetter t = some get ∧ get k f = none := by
  subst ht
  exact ⟨_, rfl, getDigest_of_encDigest h⟩

/-- A typed field reads back exactly if it is not one of the digests.
SOURCE: Key.cpp:11-62, 118-171 -/
theorem fieldReadsBack_iff (k : CompilationKey) (call : SetterCall)
    (hvalue : Encodable _ call.value) :
    FieldReadsBack k call ↔ call.field ≠ .SourceDigest ∧ call.field ≠ .IRDigest := by
  have hdigest : valueType call.field = .digest ↔
      call.field = .SourceDigest ∨ call.field = .IRDigest := by
    cases call.field <;> decide
  have hself := findField_set_self (k := k) call
  rw [ne_eq, ne_eq, ← not_or, ← hdigest]
  constructor
  · rintro ⟨hread, -⟩ htype
    obtain ⟨get, hget, hnone⟩ := typedGetter_of_digest htype hself
    rw [hread get hget] at hnone
    cases hnone
  · intro htype
    exact ⟨typedGetter_of_encValue htype hvalue hself, fun t get hget g hg =>
      typedGetter_congr (findField_set_other hg) t get hget⟩

/-- A shape reads back. -/
theorem fieldReadsBack_iff_staticShape :
    FieldReadsBack {} ⟨.StaticShape, ([2, -1] : List Int64)⟩ :=
  (fieldReadsBack_iff {} ⟨.StaticShape, ([2, -1] : List Int64)⟩ (show 2 < 2 ^ 32 by omega)).mpr
    (by decide)

/-- A digest that has been set is not found. -/
theorem not_fieldReadsBack_sourceDigest :
    (CompilationKey.set {} ⟨.SourceDigest, Digest.zero⟩).sourceDigest = none ∧
      ¬ FieldReadsBack {} ⟨.SourceDigest, Digest.zero⟩ := by
  have hnone : (CompilationKey.set {} ⟨.SourceDigest, Digest.zero⟩).sourceDigest = none :=
    getDigest_of_encDigest (findField_set_self ⟨.SourceDigest, Digest.zero⟩)
  refine ⟨hnone, fun h => ?_⟩
  have hsome : (CompilationKey.set {} ⟨.SourceDigest, Digest.zero⟩).sourceDigest =
      some Digest.zero := h.value _ rfl
  rw [hnone] at hsome
  cases hsome

end CompilationFabric.Analysis
