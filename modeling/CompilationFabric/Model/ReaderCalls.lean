import CompilationFabric.Model.Canonical
import CompilationFabric.Library.TransitionSystem

/-!
# Sequences of reads

The calls that decoders make on a `CanonicalReader`, as the events of a transition system, so
that "every position a reader can get to" is every state of a run.

The functions of `Canonical` forget the reader when a call fails.  Here it is kept: a call that
reads a length and then fails has moved over the length.
-/

set_option autoImplicit false

namespace CompilationFabric.Model

/-- The largest size of an object, `PTRDIFF_MAX`. -/
def maxObjectSize : ℕ := 2 ^ 63 - 1

/-- No sum of an object's size and the width of a field wraps around. -/
theorem add_lt_sizeMod {n : ℕ} (h : n ≤ maxObjectSize) : n + 8 < sizeMod := by
  unfold maxObjectSize at h
  unfold sizeMod
  omega

/-- INTERNAL: an object is smaller than the address space. -/
theorem lt_sizeMod {n : ℕ} (h : n ≤ maxObjectSize) : n < sizeMod :=
  (Nat.le_add_right n 8).trans_lt (add_lt_sizeMod h)

/-- SOURCE: Canonical.cpp:44-49 -/
def CanonicalReader.u16 (r : CanonicalReader) : Option (UInt16 × CanonicalReader) :=
  if r.overruns 2 then none
  else some (((r.byteAt 0).toUInt16 <<< 8) ||| (r.byteAt 1).toUInt16, r.skip 2)

/-- SOURCE: Canonical.hpp:55-65 -/
inductive ReaderCall where
  | u8 | u16 | u32 | u64 | u128 | f32 | f64 | str | bytesBlob
  | rawBlob (n : UInt64)
  | advance (n : UInt64)
  deriving DecidableEq, Repr

/-- What a call leaves: its result, the string or view it gives, and the reader. -/
structure ReadResult where
  ok : Bool
  out : Bytes := []
  reader : CanonicalReader

/-- A call that reads one number; `f32` and `f64` copy the bits of one. -/
def readNumber {α : Type} (r : CanonicalReader) (read : Option (α × CanonicalReader)) : ReadResult :=
  match read with
  | some (_, r') => { ok := true, reader := r' }
  | none => { ok := false, reader := r }

/-- A call that reads a string or a view. -/
def readBytes (r : CanonicalReader) (read : Option (Bytes × CanonicalReader)) : ReadResult :=
  match read with
  | some (out, r') => { ok := true, out, reader := r' }
  | none => { ok := false, reader := r }

/-- The reader behind a length that has been read. -/
def CanonicalReader.pastLength (r : CanonicalReader) : CanonicalReader :=
  match r.u64 with
  | some (_, r') => r'
  | none => r

/-- SOURCE: Canonical.hpp:55-65, Canonical.cpp:40-89 -/
def CanonicalReader.call (r : CanonicalReader) : ReaderCall → Throwing ReadResult
  | .u8 => .ok (readNumber r r.u8)
  | .u16 => .ok (readNumber r r.u16)
  | .u32 => .ok (readNumber r r.u32)
  | .u64 => .ok (readNumber r r.u64)
  | .u128 => .ok (readNumber r.pastLength r.u128)
  | .f32 => .ok (readNumber r r.u32)
  | .f64 => .ok (readNumber r r.u64)
  | .str => r.str.map (readBytes r.pastLength)
  | .bytesBlob => .ok (readBytes r.pastLength r.bytesBlob)
  | .rawBlob n => .ok (readBytes r (r.rawBlob n.toNat))
  | .advance n => .ok { ok := true, reader := r.advance n.toNat }

/-- The reader after a call; an exception ends the decoding. -/
def CanonicalReader.step (r : CanonicalReader) (c : ReaderCall) : Option CanonicalReader :=
  match r.call c with
  | .ok result => some result.reader
  | .error _ => none

/-- The length that a call declares, with the position it is counted from. -/
def CanonicalReader.declared (r : CanonicalReader) : ReaderCall → Option (ℕ × ℕ)
  | .str | .bytesBlob => r.u64.map fun (len, r') => (r'.pos, len.toNat)
  | .rawBlob n => some (r.pos, n.toNat)
  | _ => none

end CompilationFabric.Model
