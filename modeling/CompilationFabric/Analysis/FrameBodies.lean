import CompilationFabric.Interface.RecordFile
import CompilationFabric.Interface.ViewReads
import CompilationFabric.Model.Framing
import Mathlib.Tactic.IntervalCases

/-!
# Frame bodies

`encodeFrameBody` and `decodeFrameBody` are inverse to each other.  That every accepted body is
the body of its frame is not the bound check's doing alone: a payload length near `2 ^ 64` wraps
past it, but then the cursor is back among the header and the bytes after it are refused as
trailing garbage.
-/

set_option autoImplicit false

namespace CompilationFabric.Analysis

open CompilationFabric.Interface
open CompilationFabric.Model

/-! ## Message types -/

/-- INTERNAL: the number of a type is valid. -/
theorem isValidType_toUInt32 (t : MsgType) : isValidType t.toUInt32 = true := by
  cases t <;> rfl

/-- A type is read back from its number. -/
@[simp] theorem ofUInt32_toUInt32 (t : MsgType) : MsgType.ofUInt32 t.toUInt32 = t := by
  cases t <;> rfl

/-- A valid number is the number of a message type. -/
theorem toUInt32_ofUInt32 {t : UInt32} (h : isValidType t = true) :
    (MsgType.ofUInt32 t).toUInt32 = t := by
  have hlow : MsgType.Register.toUInt32.toNat = 1 := rfl
  have hhigh : MsgType.Control.toUInt32.toNat = 12 := rfl
  unfold isValidType at h
  rw [Bool.and_eq_true, decide_eq_true_eq, decide_eq_true_eq, UInt32.le_iff_toNat_le,
    UInt32.le_iff_toNat_le, hlow, hhigh] at h
  obtain ⟨k, hk⟩ : ∃ k, t.toNat = k := ⟨_, rfl⟩
  rw [hk] at h
  have ht : t = UInt32.ofNat k := by rw [← hk, UInt32.ofNat_toNat]
  obtain ⟨hone, htwelve⟩ := h
  rw [ht]
  interval_cases k <;> rfl

/-! ## Encoding and decoding -/

/-- INTERNAL: a field is there when no error is raised. -/
theorem orTruncated_eq_ok {α : Type} {field : Option α} {message : String} {a : α} :
    orTruncated field message = .ok a ↔ field = some a := by
  cases field <;> simp [orTruncated, Err]

/-- A frame is decoded from its body.
SOURCE: Protocol.cpp:56-80 -/
theorem decodeFrameBody_encodeFrameBody {f : ProtoFrame}
    (hsize : (encodeFrameBody f).length < sizeMod) :
    decodeFrameBody (encodeFrameBody f) = .ok f := by
  have hbody : encodeFrameBody f = CanonicalWriter.u32 kProtocolVersion ++
      (CanonicalWriter.u32 f.type.toUInt32 ++ (CanonicalWriter.u32 f.flags ++
        (CanonicalWriter.u32 f.seq ++ (CanonicalWriter.string f.payload ++ [])))) := by
    simp only [encodeFrameBody, List.append_assoc, List.append_nil]
  rw [hbody] at hsize ⊢
  -- the reader in front of each field
  have hversion := CanonicalReader.u32_after [] _ hsize
  have htype := CanonicalReader.u32_after (CanonicalWriter.u32 kProtocolVersion) _ hsize
  have hflags := CanonicalReader.u32_after (CanonicalWriter.u32 kProtocolVersion ++
    CanonicalWriter.u32 f.type.toUInt32) _ (v := f.flags)
    (by simp only [List.append_assoc]; exact hsize)
  have hseq := CanonicalReader.u32_after (CanonicalWriter.u32 kProtocolVersion ++
    CanonicalWriter.u32 f.type.toUInt32 ++ CanonicalWriter.u32 f.flags) _ (v := f.seq)
    (by simp only [List.append_assoc]; exact hsize)
  have hpayload := CanonicalReader.bytesBlob_after (CanonicalWriter.u32 kProtocolVersion ++
    CanonicalWriter.u32 f.type.toUInt32 ++ CanonicalWriter.u32 f.flags ++
    CanonicalWriter.u32 f.seq) [] (s := f.payload) (by simp only [List.append_assoc]; exact hsize)
  rw [List.nil_append, CanonicalReader.after_nil] at hversion
  unfold decodeFrameBody
  simp only [hversion, htype, hflags, hseq, hpayload, orTruncated, isValidType_toUInt32,
    ofUInt32_toUInt32, CanonicalReader.hasRemaining_after, bind, Except.bind, pure, Except.pure,
    ne_eq, not_true_eq_false, if_false, Bool.not_true, Bool.false_eq_true, List.isEmpty_nil]

/-- An accepted body is the body of its frame.
SOURCE: Protocol.cpp:56-80 -/
theorem encodeFrameBody_of_decode {b : Bytes} {f : ProtoFrame} (hb : b.length ≤ maxObjectSize)
    (h : decodeFrameBody b = .ok f) : encodeFrameBody f = b := by
  have hsize : ([] ++ b).length + 8 < sizeMod := add_lt_sizeMod hb
  unfold decodeFrameBody at h
  obtain ⟨⟨version, r₁⟩, hversion, h⟩ := bind_eq_ok h
  rw [orTruncated_eq_ok, ← CanonicalReader.after_nil] at hversion
  obtain ⟨tl₁, rfl, rfl⟩ := u32_eq_some (by omega) hversion
  dsimp only at h
  split at h
  · cases h
  next hv =>
  obtain ⟨⟨type, r₂⟩, htype, h⟩ := bind_eq_ok h
  obtain ⟨tl₂, rfl, rfl⟩ := u32_eq_some (by simp at hsize ⊢; omega) (orTruncated_eq_ok.mp htype)
  split at h
  · cases h
  next ht =>
  obtain ⟨⟨flags, r₃⟩, hflags, h⟩ := bind_eq_ok h
  obtain ⟨tl₃, rfl, rfl⟩ := u32_eq_some (by simp at hsize ⊢; omega) (orTruncated_eq_ok.mp hflags)
  obtain ⟨⟨seq, r₄⟩, hseq, h⟩ := bind_eq_ok h
  obtain ⟨tl₄, rfl, rfl⟩ := u32_eq_some (by simp at hsize ⊢; omega) (orTruncated_eq_ok.mp hseq)
  obtain ⟨⟨pd, r₅⟩, hpd, h⟩ := bind_eq_ok h
  obtain ⟨⟨len, r₆⟩, hlen, hraw⟩ := Option.bind_eq_some_iff.mp (orTruncated_eq_ok.mp hpd)
  obtain ⟨tl₅, rfl, rfl⟩ := u64_eq_some (by simp at hsize ⊢; omega) hlen
  split at h
  · cases h
  next hend =>
  cases h
  rcases rawBlob_cases (by simp at hb ⊢; omega) len.toNat_lt hraw with
    ⟨tl, rfl, hpayload, rfl⟩ | ⟨-, -, hdata, hpos⟩
  · -- every field is written as it was read, and nothing is left
    rw [CanonicalReader.hasRemaining_after] at hend
    have htl : tl = [] := by simpa using hend
    have hvalid := toUInt32_ofUInt32 (t := type) (by simpa using ht)
    simp only [encodeFrameBody, CanonicalWriter.string, hvalid, hpayload, UInt64.ofNat_toNat, htl,
      List.append_nil, List.append_assoc, not_not.mp hv]
  · -- a cursor that has gone back has bytes in front of it
    exfalso
    apply hend
    simp only [CanonicalReader.hasRemaining, decide_eq_true_eq, hdata]
    rw [List.length_append]
    omega

/-- Every frame has one body, and every body that is accepted is the body of one frame.
SOURCE: Protocol.cpp:56-80, Canonical.cpp:50-89 -/
theorem frameBodies_bijective :
    (∀ f : ProtoFrame, (encodeFrameBody f).length ≤ maxObjectSize →
      decodeFrameBody (encodeFrameBody f) = .ok f) ∧
    (∀ (b : Bytes) (f : ProtoFrame), b.length ≤ maxObjectSize → decodeFrameBody b = .ok f →
      encodeFrameBody f = b) := by
  constructor
  · intro f hsize
    apply decodeFrameBody_encodeFrameBody
    exact lt_sizeMod hsize
  · intro b f hb
    exact encodeFrameBody_of_decode hb

/-- A Submit with flags, a sequence number and a payload. -/
def submitFrame : ProtoFrame where
  type := .Submit
  flags := 3
  seq := 258
  payload := [7, 0, 255]

/-- Its body, and what the body is read as. -/
theorem frameBodies_bijective_submit :
    decodeFrameBody (encodeFrameBody submitFrame) = .ok submitFrame ∧
      ∃ b, decodeFrameBody b = .ok submitFrame ∧ encodeFrameBody submitFrame = b :=
  have hdecode := frameBodies_bijective.1 submitFrame (by decide)
  ⟨hdecode, _, hdecode, frameBodies_bijective.2 _ _ (by decide) hdecode⟩

end CompilationFabric.Analysis
