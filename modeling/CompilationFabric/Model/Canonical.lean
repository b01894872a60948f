import CompilationFabric.Model.Semantic
import Mathlib.Data.List.Sort

/-!
# Canonical binary encoding

`Canonical.hpp` and `Canonical.cpp`: the big-endian writer, the bounded reader, and the
tag-sorted field record.

A writer is the bytes it has written, so a sequence of writes is an append.  A reader is
the string it views and its position.  `after pre bs` is the reader that has consumed
`pre` and still has `bs` in front of it; each `read` lemma below says that reading what a
writer wrote moves the written bytes from the second part to the first.

Lengths are `size_t`: the bound checks of `str`, `bytesBlob` and `rawBlob` add the
position and the claimed length modulo `2 ^ 64`.  When that sum wraps the check passes;
`std::string::assign` then throws `std::length_error`, while `string_view::substr` clamps.
-/

set_option autoImplicit false

namespace CompilationFabric.Model

open CompilationFabric.Library

/-- The number of values of `size_t`. -/
def sizeMod : ℕ := 2 ^ 64

/-- The exceptions the modelled functions let escape. -/
inductive CxxException where
  | lengthError
  | badAlloc
  deriving DecidableEq, Repr

/-- A computation that may leave by an exception. -/
abbrev Throwing (α : Type) := Except CxxException α

/-! ## Writer -/

namespace CanonicalWriter

def u8 (v : UInt8) : Bytes := [v]

/-- SOURCE: Canonical.cpp:15-20 -/
def u32 (v : UInt32) : Bytes :=
  [((v >>> 24) &&& 0xFF).toUInt8, ((v >>> 16) &&& 0xFF).toUInt8, ((v >>> 8) &&& 0xFF).toUInt8,
    (v &&& 0xFF).toUInt8]

/-- `for (int i = 7; i >= 0; --i)`, from shift `8 * (k - 1)` down.
SOURCE: Canonical.cpp:21-23 -/
def u64Bytes (v : UInt64) : ℕ → Bytes
  | 0 => []
  | k + 1 => ((v >>> UInt64.ofNat (8 * k)) &&& 0xFF).toUInt8 :: u64Bytes v k

def u64 (v : UInt64) : Bytes := u64Bytes v 8

def u128 (v : Id128) : Bytes := u64 v.hi ++ u64 v.lo

/-- SOURCE: Canonical.cpp:37 -/
def string (s : Bytes) : Bytes := u64 (UInt64.ofNat s.length) ++ s

/-- The bytes that are written are the digits to the base 256. -/
theorem u64Bytes_eq (v : UInt64) {k : ℕ} (hk : k ≤ 8) :
    u64Bytes v k = Positional.toBytes k v.toNat := by
  induction k with
  | zero => rfl
  | succ k ih =>
      have hshift : (UInt64.ofNat (8 * k)).toNat = 8 * k := by
        rw [UInt64.toNat_ofNat']
        omega
      have hand : v.toNat >>> (8 * k) &&& (0xFF : UInt64).toNat = v.toNat >>> (8 * k) % 2 ^ 8 :=
        Nat.and_two_pow_sub_one_eq_mod _ 8
      have hbyte : ((v >>> UInt64.ofNat (8 * k)) &&& 0xFF).toUInt8 =
          UInt8.ofNat (v.toNat / 256 ^ k % 256) := by
        apply UInt8.toNat_inj.mp
        rw [UInt64.toNat_toUInt8, UInt64.toNat_and, UInt64.toNat_shiftRight, hshift,
          Nat.mod_eq_of_lt (show 8 * k < 64 by omega), hand, UInt8.toNat_ofNat',
          Nat.shiftRight_eq_div_pow, pow_mul]
        norm_num
      rw [u64Bytes, ih (by omega), hbyte]
      rfl

/-- INTERNAL: a `u64` is written in eight digits to the base 256. -/
theorem u64_eq (v : UInt64) : u64 v = Positional.toBytes 8 v.toNat :=
  u64Bytes_eq v le_rfl

/-- INTERNAL: a `u64` is eight bytes long. -/
@[simp] theorem length_u64 (v : UInt64) : (u64 v).length = 8 := by
  rw [u64_eq, Positional.length_toBytes]

/-- Different numbers are written differently. -/
theorem u64_injective : Function.Injective u64 := by
  intro v w h
  rw [u64_eq, u64_eq, Positional.toBytes_inj v.toNat_lt w.toNat_lt] at h
  exact UInt64.toNat_inj.mp h

/-- INTERNAL: a `u32` is four bytes long. -/
@[simp] theorem length_u32 (v : UInt32) : (u32 v).length = 4 := rfl

/-- INTERNAL: a `u32` is written in four digits to the base 256. -/
theorem u32_eq (v : UInt32) : u32 v = Positional.toBytes 4 v.toNat := by
  have hbyte : ∀ s : UInt32, s.toNat < 32 →
      ((v >>> s) &&& 0xFF).toUInt8 = UInt8.ofNat (v.toNat / 2 ^ s.toNat % 256) := by
    intro s hs
    have hand : v.toNat >>> s.toNat &&& (0xFF : UInt32).toNat = v.toNat >>> s.toNat % 2 ^ 8 :=
      Nat.and_two_pow_sub_one_eq_mod _ 8
    apply UInt8.toNat_inj.mp
    rw [UInt32.toNat_toUInt8, UInt32.toNat_and, UInt32.toNat_shiftRight,
      Nat.mod_eq_of_lt hs, hand, UInt8.toNat_ofNat', Nat.shiftRight_eq_div_pow]
    norm_num
  have hlast : (v &&& 0xFF).toUInt8 = UInt8.ofNat (v.toNat / 2 ^ 0 % 256) := by
    simpa using hbyte 0 (by decide)
  rw [u32, hbyte 24 (by decide), hbyte 16 (by decide), hbyte 8 (by decide), hlast]
  rfl

/-- Different numbers are written differently. -/
theorem u32_injective : Function.Injective u32 := by
  intro v w h
  rw [u32_eq, u32_eq, Positional.toBytes_inj v.toNat_lt w.toNat_lt] at h
  exact UInt32.toNat_inj.mp h

/-- INTERNAL: an id is sixteen bytes long. -/
@[simp] theorem length_u128 (v : Id128) : (u128 v).length = 16 := by
  simp [u128]

/-- Different ids are written differently. -/
theorem u128_injective : Function.Injective u128 := by
  intro v w h
  have hsplit := List.append_inj h (by simp)
  cases v
  cases w
  simpa using ⟨u64_injective hsplit.1, u64_injective hsplit.2⟩

/-- INTERNAL: a string is written behind eight bytes of length. -/
@[simp] theorem length_string (s : Bytes) : (string s).length = 8 + s.length := by
  simp [string]

/-- Different strings are written differently, whatever their lengths. -/
theorem string_injective : Function.Injective string := by
  intro s t h
  exact (List.append_inj h (by simp)).2

end CanonicalWriter

/-! ## Reader -/

/-- SOURCE: Canonical.hpp:46-71 -/
structure CanonicalReader where
  data : Bytes
  pos : ℕ := 0
  deriving DecidableEq

/-- `out = (out << 8) | byte`. -/
def pushByte (out : UInt64) (b : UInt8) : UInt64 := (out <<< 8) ||| b.toUInt64

namespace CanonicalReader

def hasRemaining (r : CanonicalReader) : Bool := r.pos < r.data.length

def remaining (r : CanonicalReader) : ℕ := r.data.length - r.pos

/-- The bounds check `pos_ + n > data_.size()`, in `size_t`. -/
def overruns (r : CanonicalReader) (n : ℕ) : Prop := (r.pos + n) % sizeMod > r.data.length

instance (r : CanonicalReader) (n : ℕ) : Decidable (r.overruns n) :=
  inferInstanceAs (Decidable (_ > _))

/-- `data_[pos_ + i]`. -/
def byteAt (r : CanonicalReader) (i : ℕ) : UInt8 := r.data.getD (r.pos + i) 0

/-- The reader after `pos_ += n`. -/
def skip (r : CanonicalReader) (n : ℕ) : CanonicalReader :=
  { r with pos := (r.pos + n) % sizeMod }

/-- SOURCE: Canonical.cpp:40-43 -/
def u8 (r : CanonicalReader) : Option (UInt8 × CanonicalReader) :=
  if r.overruns 1 then none else some (r.byteAt 0, r.skip 1)

/-- SOURCE: Canonical.cpp:50-57 -/
def u32 (r : CanonicalReader) : Option (UInt32 × CanonicalReader) :=
  if r.overruns 4 then none
  else some (((r.byteAt 0).toUInt32 <<< 24) ||| ((r.byteAt 1).toUInt32 <<< 16) |||
    ((r.byteAt 2).toUInt32 <<< 8) ||| (r.byteAt 3).toUInt32, r.skip 4)

/-- SOURCE: Canonical.cpp:58-63 -/
def u64 (r : CanonicalReader) : Option (UInt64 × CanonicalReader) :=
  if r.overruns 8 then none
  else some (((r.data.drop r.pos).take 8).foldl pushByte 0, r.skip 8)

/-- SOURCE: Canonical.cpp:64-69 -/
def u128 (r : CanonicalReader) : Option (Id128 × CanonicalReader) := do
  let (h, r) ← r.u64
  let (l, r) ← r.u64
  return (⟨h, l⟩, r)

/-- `data_.substr(pos_, n)`, which clamps, then `pos_ += n`. -/
def view (r : CanonicalReader) (n : ℕ) : Bytes × CanonicalReader :=
  ((r.data.drop r.pos).take n, r.skip n)

/-- SOURCE: Canonical.hpp:64 -/
def rawBlob (r : CanonicalReader) (n : ℕ) : Option (Bytes × CanonicalReader) :=
  if r.overruns n then none else some (r.view n)

/-- SOURCE: Canonical.cpp:85-89 -/
def bytesBlob (r : CanonicalReader) : Option (Bytes × CanonicalReader) := do
  let (len, r) ← r.u64
  r.rawBlob len.toNat

/-- A length whose sum with the position wraps passes the check, and `assign` throws on it.
SOURCE: Canonical.cpp:80-84 -/
def str (r : CanonicalReader) : Throwing (Option (Bytes × CanonicalReader)) :=
  match r.u64 with
  | none => .ok none
  | some (len, r) =>
      if r.overruns len.toNat then .ok none
      else if sizeMod ≤ r.pos + len.toNat then .error .lengthError
      else .ok (some (r.view len.toNat))

/-- SOURCE: Canonical.hpp:65 -/
def advance (r : CanonicalReader) (n : ℕ) : CanonicalReader :=
  if n ≤ r.remaining then r.skip n else r

/-- The reader that has consumed `pre` and has `bs` in front of it. -/
def after (pre bs : Bytes) : CanonicalReader := ⟨pre ++ bs, pre.length⟩

/-- INTERNAL: the reader in front of all bytes. -/
theorem after_nil (bs : Bytes) : after [] bs = ⟨bs, 0⟩ := rfl

/-- INTERNAL: what is left is what is not read. -/
@[simp] theorem remaining_after (pre bs : Bytes) : (after pre bs).remaining = bs.length := by
  simp [after, remaining]

/-- INTERNAL: something is left unless all is read. -/
@[simp] theorem hasRemaining_after (pre bs : Bytes) :
    (after pre bs).hasRemaining = !bs.isEmpty := by
  cases bs <;> simp [after, hasRemaining]

/-- A machine string is shorter than `2 ^ 64`, and then a check inside it passes. -/
theorem not_overruns_after {pre bs tl : Bytes} {n : ℕ}
    (hsize : (pre ++ (bs ++ tl)).length < sizeMod) (hn : bs.length = n) :
    ¬ (after pre (bs ++ tl)).overruns n := by
  simp only [List.length_append] at hsize
  have hmod : (pre.length + n) % sizeMod = pre.length + n := Nat.mod_eq_of_lt (by omega)
  simp only [overruns, after, hmod, List.length_append]
  omega

/-- INTERNAL: a skip moves over bytes that are there. -/
theorem skip_after {pre bs tl : Bytes} {n : ℕ}
    (hsize : (pre ++ (bs ++ tl)).length < sizeMod) (hn : bs.length = n) :
    (after pre (bs ++ tl)).skip n = after (pre ++ bs) tl := by
  simp only [List.length_append] at hsize
  have hmod : (pre.length + n) % sizeMod = pre.length + n := Nat.mod_eq_of_lt (by omega)
  simp [skip, after, hmod, hn]

/-- INTERNAL: a view gives bytes that are there. -/
theorem view_after {pre bs tl : Bytes} {n : ℕ}
    (hsize : (pre ++ (bs ++ tl)).length < sizeMod) (hn : bs.length = n) :
    (after pre (bs ++ tl)).view n = (bs, after (pre ++ bs) tl) := by
  have hdata : ((after pre (bs ++ tl)).data.drop (after pre (bs ++ tl)).pos).take n = bs := by
    simp [after, ← hn]
  rw [view, skip_after hsize hn, hdata]

/-- Bytes that are pushed are digits to the base 256, modulo `2 ^ 64`. -/
theorem foldl_pushByte (acc : UInt64) (bs : Bytes) :
    (bs.foldl pushByte acc).toNat =
      (acc.toNat * 256 ^ bs.length + Positional.ofBytes bs) % 2 ^ 64 := by
  induction bs generalizing acc with
  | nil => simp [Positional.ofBytes, Nat.mod_eq_of_lt acc.toNat_lt]
  | cons b bs ih =>
      have hb : b.toNat < 2 ^ 8 := b.toNat_lt
      have hor : acc.toNat <<< 8 ||| b.toNat = acc.toNat <<< 8 + b.toNat :=
        (Nat.shiftLeft_add_eq_or_of_lt hb acc.toNat).symm
      have hmod : (acc.toNat <<< 8 ||| b.toNat) % 2 ^ 64 =
          acc.toNat <<< 8 % 2 ^ 64 ||| b.toNat % 2 ^ 64 := Nat.or_mod_two_pow
      have hpush : (pushByte acc b).toNat = (acc.toNat * 256 + b.toNat) % 2 ^ 64 := by
        rw [hor, Nat.mod_eq_of_lt (show b.toNat < 2 ^ 64 by omega)] at hmod
        simpa [pushByte, Nat.shiftLeft_eq] using hmod.symm
      rw [List.foldl_cons, ih, hpush, Nat.add_mod, Nat.mod_mul_mod, ← Nat.add_mod]
      congr 1
      simp only [Positional.ofBytes, List.map_cons, Positional.value_cons, List.length_map,
        List.length_cons]
      ring

/-- The four bytes of a word, shifted back into place, are the word. -/
theorem joinBytes (v : UInt32) :
    (((v >>> 24) &&& 0xFF).toUInt8.toUInt32 <<< 24) |||
      (((v >>> 16) &&& 0xFF).toUInt8.toUInt32 <<< 16) |||
      (((v >>> 8) &&& 0xFF).toUInt8.toUInt32 <<< 8) ||| ((v &&& 0xFF).toUInt8.toUInt32) = v := by
  have h255 : UInt32.toNat 255 = 2 ^ 8 - 1 := rfl
  apply UInt32.toNat_inj.mp
  apply Nat.eq_of_testBit_eq
  intro i
  simp [Nat.testBit_or, Nat.testBit_mod_two_pow, Nat.testBit_shiftLeft, Nat.testBit_shiftRight,
    h255, Nat.and_two_pow_sub_one_eq_mod, -Nat.reducePow]
  -- bit `i` comes from the byte it lies in, and there is none from bit 32 on
  rcases Nat.lt_or_ge i 32 with hi | hi
  · have hsub : ∀ k, k ≤ i → k + (i - k) = i := fun k hk => Nat.add_sub_of_le hk
    grind
  · have hbit : v.toNat.testBit i = false :=
      Nat.testBit_lt_two_pow (lt_of_lt_of_le v.toNat_lt (Nat.pow_le_pow_right (by omega) hi))
    grind

/-- A byte is read back. -/
theorem u8_after (pre tl : Bytes) {v : UInt8}
    (hsize : (pre ++ (CanonicalWriter.u8 v ++ tl)).length < sizeMod) :
    (after pre (CanonicalWriter.u8 v ++ tl)).u8 =
      some (v, after (pre ++ CanonicalWriter.u8 v) tl) := by
  have hlen : (CanonicalWriter.u8 v).length = 1 := rfl
  rw [u8, if_neg (not_overruns_after hsize hlen), skip_after hsize hlen]
  simp [byteAt, after, CanonicalWriter.u8]

/-- A `u64` is read back. -/
theorem u64_after (pre tl : Bytes) {v : UInt64}
    (hsize : (pre ++ (CanonicalWriter.u64 v ++ tl)).length < sizeMod) :
    (after pre (CanonicalWriter.u64 v ++ tl)).u64 =
      some (v, after (pre ++ CanonicalWriter.u64 v) tl) := by
  have hlen := CanonicalWriter.length_u64 v
  have htake : ((pre ++ (CanonicalWriter.u64 v ++ tl)).drop pre.length).take 8 =
      CanonicalWriter.u64 v := by
    rw [List.drop_left, ← hlen, List.take_left]
  have hval : ((CanonicalWriter.u64 v).foldl pushByte 0) = v := by
    apply UInt64.toNat_inj.mp
    have hlt : v.toNat < 256 ^ 8 := v.toNat_lt
    rw [foldl_pushByte, CanonicalWriter.u64_eq, Positional.ofBytes_toBytes_of_lt hlt]
    simp [Nat.mod_eq_of_lt v.toNat_lt]
  rw [u64, if_neg (not_overruns_after hsize hlen), skip_after hsize hlen]
  simp only [after, htake, hval]

/-- A `u32` is read back. -/
theorem u32_after (pre tl : Bytes) {v : UInt32}
    (hsize : (pre ++ (CanonicalWriter.u32 v ++ tl)).length < sizeMod) :
    (after pre (CanonicalWriter.u32 v ++ tl)).u32 =
      some (v, after (pre ++ CanonicalWriter.u32 v) tl) := by
  have hlen := CanonicalWriter.length_u32 v
  rw [u32, if_neg (not_overruns_after hsize hlen), skip_after hsize hlen]
  have hbytes : ∀ i, (after pre (CanonicalWriter.u32 v ++ tl)).byteAt i =
      (CanonicalWriter.u32 v ++ tl).getD i 0 := by
    intro i
    simp [byteAt, after, List.getD_eq_getElem?_getD, List.getElem?_append_right]
  have hjoin := joinBytes v
  simp only [hbytes]
  simp only [CanonicalWriter.u32, List.cons_append, List.getD_cons_zero, List.getD_cons_succ,
    hjoin]

/-- An id is read back. -/
theorem u128_after (pre tl : Bytes) {v : Id128}
    (hsize : (pre ++ (CanonicalWriter.u128 v ++ tl)).length < sizeMod) :
    (after pre (CanonicalWriter.u128 v ++ tl)).u128 =
      some (v, after (pre ++ CanonicalWriter.u128 v) tl) := by
  rw [CanonicalWriter.u128, List.append_assoc] at hsize ⊢
  have hhi := u64_after _ _ hsize
  have hlo := u64_after (pre ++ CanonicalWriter.u64 v.hi) tl (v := v.lo) (by simpa using hsize)
  rw [u128, hhi]
  simp only [Option.bind_eq_bind, Option.bind_some, hlo, Option.pure_def, List.append_assoc]

/-- Reading a length-prefixed string back: neither the check nor `assign` fires. -/
theorem str_after (pre tl : Bytes) {s : Bytes}
    (hsize : (pre ++ (CanonicalWriter.string s ++ tl)).length < sizeMod) :
    (after pre (CanonicalWriter.string s ++ tl)).str =
      .ok (some (s, after (pre ++ CanonicalWriter.string s) tl)) := by
  rw [CanonicalWriter.string, List.append_assoc] at hsize ⊢
  have hlen := u64_after _ _ hsize
  have hs : (UInt64.ofNat s.length).toNat = s.length := by
    rw [UInt64.toNat_ofNat']
    simp only [List.length_append, sizeMod] at hsize
    omega
  have hsize' : ((pre ++ CanonicalWriter.u64 (UInt64.ofNat s.length)) ++ (s ++ tl)).length <
      sizeMod := by
    simpa using hsize
  have hwrap : ¬ sizeMod ≤ (after (pre ++ CanonicalWriter.u64 (UInt64.ofNat s.length))
      (s ++ tl)).pos + s.length := by
    simp only [List.length_append] at hsize'
    simp only [after, List.length_append]
    omega
  rw [str, hlen]
  simp only [hs]
  rw [if_neg (not_overruns_after hsize' rfl), if_neg hwrap, view_after hsize' rfl,
    List.append_assoc]

/-- Bytes that are there are read. -/
theorem rawBlob_after (pre bs tl : Bytes) {n : ℕ}
    (hsize : (pre ++ (bs ++ tl)).length < sizeMod) (hn : bs.length = n) :
    (after pre (bs ++ tl)).rawBlob n = some (bs, after (pre ++ bs) tl) := by
  rw [rawBlob, if_neg (not_overruns_after hsize hn), view_after hsize hn]

/-- INTERNAL: a view of bytes that were written with their length in front. -/
theorem bytesBlob_after (pre tl : Bytes) {s : Bytes}
    (hsize : (pre ++ (CanonicalWriter.string s ++ tl)).length < sizeMod) :
    (after pre (CanonicalWriter.string s ++ tl)).bytesBlob =
      some (s, after (pre ++ CanonicalWriter.string s) tl) := by
  unfold CanonicalWriter.string at hsize ⊢
  rw [List.append_assoc] at hsize ⊢
  have hs : (UInt64.ofNat s.length).toNat = s.length := by
    rw [UInt64.toNat_ofNat']
    simp only [List.length_append, sizeMod] at hsize
    omega
  have hlen := u64_after _ _ hsize
  have hraw := rawBlob_after (pre ++ CanonicalWriter.u64 (.ofNat s.length)) s tl
    (by simpa using hsize) hs.symm
  rw [bytesBlob, hlen]
  simp only [Option.bind_eq_bind, Option.bind_some, hraw, List.append_assoc]

end CanonicalReader

/-! ## Key fields -/

/-- SOURCE: Canonical.hpp:79-137 -/
inductive KeyField where
  | LogicalOperation | SourceIdentity | SourceDigest | IRIdentity | IRDigest | IRFormat
  | Frontend | FrontendVersion | Compiler | CompilerVersion | Backend | BackendVersion
  | CodeGenerator | Optimizer | OptimizerVersion | Linker | LinkerVersion | Runtime
  | RuntimeVersion | Driver | DriverVersion | AcceleratorVendor | AcceleratorFamily
  | TargetArchitecture | ComputeCapability | ISA | ABI | CallingConvention | KernelABI
  | GraphABI | OperatorRevision | Datatype | Layout | Rank | StaticShape | SymbolicShape
  | Alignment | Quantization | Precision | LaunchSpecialization | ScalarConstants
  | FeatureFlags | OptimizationFlags | CodegenFlags | DebugRelease | Determinism
  | Reproducibility | EnvFingerprint | DependencyIdentities | DependencyGenerations
  | ModelRevision | RuntimeCompatibilityGeneration | CompilerPolicyGeneration | Namespace
  | Tenant | SourceContent | IRContent
  deriving DecidableEq, Repr

/-- `static_cast<uint8_t>(f)`; the first enumerator is 1. -/
def keyFieldTag (f : KeyField) : UInt8 := UInt8.ofNat (f.ctorIdx + 1)

/-- The uppermost valid tag.
SOURCE: Canonical.cpp:156 -/
def kMaxKeyField : UInt8 := keyFieldTag .IRContent

/-- The condition `makeCanonicalFields` and `parseKeyFields` test before they use a tag. -/
def validTag (t : UInt8) : Prop := ¬ (t = 0 ∨ t > kMaxKeyField)

instance (t : UInt8) : Decidable (validTag t) := inferInstanceAs (Decidable (¬ _))

/-- INTERNAL: tags are numbered from one. -/
theorem toNat_keyFieldTag (f : KeyField) : (keyFieldTag f).toNat = f.ctorIdx + 1 := by
  have hlt : f.ctorIdx < 57 := by cases f <;> decide
  rw [keyFieldTag, UInt8.toNat_ofNat']
  omega

/-- Different fields have different tags. -/
theorem keyFieldTag_injective : Function.Injective keyFieldTag := by
  intro f g h
  have hidx : f.ctorIdx = g.ctorIdx := by
    have hnat := congrArg UInt8.toNat h
    rw [toNat_keyFieldTag, toNat_keyFieldTag] at hnat
    omega
  rw [← KeyField.ofNat_ctorIdx f, hidx, KeyField.ofNat_ctorIdx]

/-- INTERNAL: two fields with one tag are one field. -/
@[simp] theorem keyFieldTag_inj {f g : KeyField} : keyFieldTag f = keyFieldTag g ↔ f = g :=
  keyFieldTag_injective.eq_iff

/-- The tag of a field is valid. -/
theorem validTag_keyFieldTag (f : KeyField) : validTag (keyFieldTag f) := by
  cases f <;> decide

/-- A valid tag is the tag of a field. -/
theorem exists_keyFieldTag {t : UInt8} (h : validTag t) : ∃ f, keyFieldTag f = t := by
  have hall : ∀ n : Fin 256, validTag (UInt8.ofNat n) →
      keyFieldTag (KeyField.ofNat (n - 1)) = UInt8.ofNat n := by decide +kernel
  have ht := hall ⟨t.toNat, t.toNat_lt⟩
  rw [UInt8.ofNat_toNat] at ht
  exact ⟨_, ht h⟩

/-- A typed field as a record carries it.
SOURCE: Canonical.hpp:143-146 -/
structure KeyFieldEntry where
  tag : UInt8 := 0
  value : Bytes := []
  deriving DecidableEq, Repr

/-! ## Canonical records -/

/-- The bytes of one field; an invalid tag writes nothing. -/
def entryBytes (f : KeyFieldEntry) : Bytes :=
  if f.tag = 0 ∨ f.tag > kMaxKeyField then []
  else CanonicalWriter.u8 f.tag ++ CanonicalWriter.u64 (UInt64.ofNat f.value.length) ++ f.value

/-- The order `std::sort` is given. -/
def tagLE (a b : KeyFieldEntry) : Prop := a.tag ≤ b.tag

instance : DecidableRel tagLE := fun a b => inferInstanceAs (Decidable (a.tag ≤ b.tag))

/-- `std::sort` on the tag; tags are unique in every caller, so stability is not at issue. -/
def sortFields (fields : List KeyFieldEntry) : List KeyFieldEntry :=
  fields.insertionSort tagLE

/-- SOURCE: Canonical.cpp:159-174 -/
def makeCanonicalFields (fields : List KeyFieldEntry) : Bytes :=
  CanonicalWriter.u32 (UInt32.ofNat (sortFields fields).length) ++
    (sortFields fields).flatMap entryBytes

/-- The body of the decoding loop: one field, given those already decoded.
SOURCE: Canonical.cpp:184-199 -/
def parseEntry (rd : CanonicalReader) (out : List KeyFieldEntry) :
    Except Bytes (KeyFieldEntry × CanonicalReader) :=
  match rd.u8 with
  | none => .error (ascii "truncated field tag")
  | some (tag, rd) =>
      if tag = 0 ∨ tag > kMaxKeyField then .error (ascii "unknown field tag")
      else if out.any (fun e => e.tag == tag) then .error (ascii "duplicate field tag")
      else
        match rd.u64 with
        | none => .error (ascii "truncated field length")
        | some (vlen, rd) =>
            if vlen.toNat > rd.remaining then
              .error (ascii "field value length exceeds available bytes")
            else
              .ok (⟨tag, (rd.data.drop rd.pos).take vlen.toNat⟩, rd.advance vlen.toNat)

/-- `for (uint32_t i = 0; i < count; ++i)`. -/
def parseEntries : ℕ → CanonicalReader → List KeyFieldEntry →
    Except Bytes (List KeyFieldEntry × CanonicalReader)
  | 0, rd, out => .ok (out, rd)
  | n + 1, rd, out => do
      let (e, rd) ← parseEntry rd out
      parseEntries n rd (out ++ [e])

/-- The fields of a canonical record, or the `error` text of `ParseFieldsResult`.
SOURCE: Canonical.cpp:176-204 -/
def parseKeyFields (data : Bytes) : Except Bytes (List KeyFieldEntry) :=
  match (CanonicalReader.mk data 0).u32 with
  | none => .error (ascii "truncated field count")
  | some (count, rd) =>
      if count > 4096 then .error (ascii "field count out of range")
      else do
        let (out, rd) ← parseEntries count.toNat rd []
        if rd.hasRemaining then .error (ascii "trailing garbage after canonical record")
        else return out

end CompilationFabric.Model
