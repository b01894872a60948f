import CompilationFabric.Analysis.FrameBodies
import CompilationFabric.Interface.Transfer

/-!
# The frames that arrive

However a reliable transport splits what it carries, the frames that one thread sends are the
frames that `recvFrame` returns, in order; and where the stream is cut inside a frame, the frames
before the cut arrive and the next call is an error.

`recvFrame_wire` and `recvFrame_short` are the two cases of one call.  The runs are inductions
over the list of frames.
-/

set_option autoImplicit false

namespace CompilationFabric.Analysis

open CompilationFabric.Interface
open CompilationFabric.Interface.Socket
open CompilationFabric.Library
open CompilationFabric.Model
open CompilationFabric.Model.FramedChannel

/-- A frame on the wire: the length of its body, and its body. -/
def wire (f : ProtoFrame) : Bytes :=
  CanonicalWriter.u32 (UInt32.ofNat (encodeFrameBody f).length) ++ encodeFrameBody f

/-- INTERNAL: the fields in front of a payload take twenty-four bytes. -/
theorem length_encodeFrameBody (f : ProtoFrame) :
    (encodeFrameBody f).length = 24 + f.payload.length := by
  simp only [encodeFrameBody, List.length_append, CanonicalWriter.length_u32,
    CanonicalWriter.length_string]
  omega

variable {s : Socket} {f : ProtoFrame} {fs : List ProtoFrame} {rest : Bytes}

/-- The length field of a frame that can be sent is the length of its body. -/
theorem ofBytes_length (hf : Sendable f) :
    Positional.ofBytes (CanonicalWriter.u32 (UInt32.ofNat (encodeFrameBody f).length)) =
      (encodeFrameBody f).length := by
  have hle : (encodeFrameBody f).length ≤ 2 ^ 20 := hf
  have hnat : (UInt32.ofNat (encodeFrameBody f).length).toNat = (encodeFrameBody f).length := by
    rw [UInt32.toNat_ofNat']
    omega
  rw [CanonicalWriter.u32_eq, hnat, Positional.ofBytes_toBytes_of_lt]
  omega

/-! ## One frame -/

/-- A frame is sent on a reliable socket.
SOURCE: Protocol.cpp:326-365 -/
theorem sendFrame_spec (hs : Reliable s) (hf : Sendable f) :
    ∃ s', sendFrame s f = (.ok (), s') ∧ Later s (s.stream ++ wire f) s' := by
  obtain ⟨s₁, hlength, hlater⟩ :=
    sendAll_spec hs (CanonicalWriter.u32 (UInt32.ofNat (encodeFrameBody f).length))
  obtain ⟨s₂, hbody, hlater'⟩ := sendAll_spec (hlater.reliable hs) (encodeFrameBody f)
  rw [hlater.2, List.append_assoc] at hlater'
  refine ⟨s₂, ?_, hlater.trans hlater'⟩
  unfold sendFrame
  simp only [if_neg (not_lt.mpr hf), hlength, hbody]

/-- A frame in front of the receiver is returned, and the stream behind it stays. -/
theorem recvFrame_wire (hs : Reliable s) (hf : Sendable f) (hstream : s.stream = wire f ++ rest) :
    ∃ s', recvFrame s = (.ok f, s') ∧ Later s rest s' := by
  have hle : (encodeFrameBody f).length ≤ 2 ^ 20 := hf
  have hlen := length_encodeFrameBody f
  unfold wire at hstream
  rw [List.append_assoc] at hstream
  have hfour : 4 ≤ s.stream.length := by simp [hstream]
  obtain ⟨s₁, hlength, hlater⟩ := recvAll_spec hs hfour
  rw [hstream, List.take_left' (CanonicalWriter.length_u32 _)] at hlength
  rw [hstream, List.drop_left' (CanonicalWriter.length_u32 _)] at hlater
  have hthere : (encodeFrameBody f).length ≤ s₁.stream.length := by simp [hlater.2]
  obtain ⟨s₂, hbody, hlater'⟩ := recvAll_spec (hlater.reliable hs) hthere
  rw [hlater.2, List.take_left] at hbody
  rw [hlater.2, List.drop_left] at hlater'
  refine ⟨s₂, ?_, hlater.trans hlater'⟩
  have hdecode : decodeFrameBody (encodeFrameBody f) = .ok f := by
    apply decodeFrameBody_encodeFrameBody
    simp only [sizeMod]
    omega
  unfold recvFrame
  simp only [hlength, ofBytes_length hf, hbody, hdecode]
  rw [if_neg (by omega), if_neg (not_lt.mpr hf)]

/-- A stream that ends inside a frame is an error. -/
theorem recvFrame_short (hs : Reliable s) (hf : Sendable f) {missing : Bytes}
    (hmissing : missing ≠ []) (hstream : s.stream ++ missing = wire f) :
    ∃ e s', recvFrame s = (.error e, s') := by
  have hpos : 0 < missing.length := List.length_pos_iff.mpr hmissing
  have hlen := length_encodeFrameBody f
  have htotal := congrArg List.length hstream
  unfold wire at hstream htotal
  rw [List.length_append, List.length_append, CanonicalWriter.length_u32] at htotal
  unfold recvFrame
  by_cases hfour : s.stream.length < 4
  · obtain ⟨e, s', hshort⟩ := recvAll_short hs hfour
    rw [hshort]
    exact ⟨e, s', rfl⟩
  · obtain ⟨s₁, hlength, hlater⟩ := recvAll_spec hs (Nat.le_of_not_lt hfour)
    have htake : s.stream.take 4 =
        CanonicalWriter.u32 (UInt32.ofNat (encodeFrameBody f).length) := by
      have happend := congrArg (List.take 4) hstream
      rwa [List.take_append_of_le_length (by omega),
        List.take_left' (CanonicalWriter.length_u32 _)] at happend
    have hshort : s₁.stream.length < (encodeFrameBody f).length := by
      rw [hlater.2, List.length_drop]
      omega
    obtain ⟨e, s', hbody⟩ := recvAll_short (hlater.reliable hs) hshort
    rw [htake] at hlength
    simp only [hlength, ofBytes_length hf, hbody]
    rw [if_neg (by omega), if_neg (not_lt.mpr hf)]
    exact ⟨_, _, rfl⟩

/-! ## Many frames -/

/-- Frames are sent one after the other, by induction on them. -/
theorem sendFrames_spec (hs : Reliable s) (hfs : ∀ f ∈ fs, Sendable f) :
    ∃ s', sendFrames s fs = (.ok (), s') ∧ Later s (s.stream ++ fs.flatMap wire) s' := by
  induction fs generalizing s with
  | nil => exact ⟨s, rfl, rfl, by simp⟩
  | cons f fs ih =>
      obtain ⟨s₁, hsend, hlater⟩ := sendFrame_spec hs (hfs f (by simp))
      obtain ⟨s₂, hrest, hlater'⟩ := ih (hlater.reliable hs) fun g hg => hfs g (by simp [hg])
      rw [hlater.2, List.append_assoc] at hlater'
      refine ⟨s₂, ?_, hlater.trans hlater'⟩
      rw [sendFrames, hsend]
      exact hrest

/-- The frames in front of the receiver are returned in order, before anything else is. -/
theorem recvFrames_append (hs : Reliable s) (hfs : ∀ f ∈ fs, Sendable f)
    (hstream : s.stream = fs.flatMap wire ++ rest) (n : ℕ) :
    ∃ s', Later s rest s' ∧
      recvFrames (fs.length + n) s = fs.map Except.ok ++ recvFrames n s' := by
  induction fs generalizing s with
  | nil => exact ⟨s, ⟨rfl, by simpa using hstream⟩, by simp⟩
  | cons f fs ih =>
      rw [List.flatMap_cons, List.append_assoc] at hstream
      obtain ⟨s₁, hrecv, hlater⟩ := recvFrame_wire hs (hfs f (by simp)) hstream
      obtain ⟨s₂, hlater', hrest⟩ :=
        ih (hlater.reliable hs) (fun g hg => hfs g (by simp [hg])) hlater.2
      refine ⟨s₂, hlater.trans hlater', ?_⟩
      rw [List.length_cons, Nat.add_right_comm, recvFrames, hrecv, hrest, List.map_cons,
        List.cons_append]

/-- A cut of the stream lies inside one of the frames. -/
theorem exists_cut {stream missing : Bytes} (hmissing : missing ≠ [])
    (hcut : stream ++ missing = fs.flatMap wire) :
    ∃ before f after begun left, fs = before ++ f :: after ∧
      stream = before.flatMap wire ++ begun ∧ left ≠ [] ∧ begun ++ left = wire f := by
  induction fs generalizing stream with
  | nil =>
      have hnil := List.append_eq_nil_iff.mp hcut
      exact absurd hnil.2 hmissing
  | cons f fs ih =>
      rw [List.flatMap_cons] at hcut
      -- behind the first frame the cut is in one of the others
      have hbehind : ∀ more, stream = wire f ++ more → fs.flatMap wire = more ++ missing →
          ∃ before g after begun left, f :: fs = before ++ g :: after ∧
            stream = before.flatMap wire ++ begun ∧ left ≠ [] ∧ begun ++ left = wire g := by
        rintro more rfl hmore
        obtain ⟨before, g, after, begun, left, rfl, rfl, hleft, hg⟩ := ih hmore.symm
        exact ⟨f :: before, g, after, begun, left, rfl, by simp, hleft, hg⟩
      obtain ⟨left, hleft, hrest⟩ | ⟨more, hmore, hrest⟩ := List.append_eq_append_iff.mp hcut
      · by_cases hnil : left = []
        · rw [hnil, List.append_nil] at hleft
          exact hbehind [] (by rw [hleft, List.append_nil]) (by rw [hrest, hnil]; rfl)
        · exact ⟨[], f, fs, stream, left, rfl, rfl, hnil, hleft.symm⟩
      · exact hbehind more hmore hrest

/-- The frames before a cut are returned, and then an error. -/
theorem recvFrames_cut (hs : Reliable s) (hfs : ∀ f ∈ fs, Sendable f) (hf : Sendable f)
    {begun left : Bytes} (hleft : left ≠ []) (hbegun : begun ++ left = wire f)
    (hstream : s.stream = fs.flatMap wire ++ begun) :
    ∃ e, recvFrames (fs.length + 1) s = fs.map Except.ok ++ [.error e] := by
  obtain ⟨s₁, hlater, hrecv⟩ := recvFrames_append hs hfs hstream 1
  obtain ⟨e, s₂, herror⟩ :=
    recvFrame_short (hlater.reliable hs) hf hleft (by rw [hlater.2]; exact hbegun)
  refine ⟨e, ?_⟩
  rw [hrecv, recvFrames, herror]
  rfl

/-- The end of a stream is a cut before the first byte of a frame. -/
theorem recvFrames_end (hs : Reliable s) (hfs : ∀ f ∈ fs, Sendable f)
    (hstream : s.stream = fs.flatMap wire) :
    ∃ e, recvFrames (fs.length + 1) s = fs.map Except.ok ++ [.error e] := by
  have hnonempty : wire {} ≠ [] := List.ne_nil_of_length_pos (by simp [wire])
  have hends : s.stream = fs.flatMap wire ++ [] := by rw [hstream, List.append_nil]
  exact recvFrames_cut hs hfs (f := {}) (by decide) hnonempty rfl hends

/-- However the transport splits sends and receives, the frames that were sent are returned in
order and then an error; a stream that ends inside a frame gives the frames before it and then an
error.
SOURCE: Protocol.cpp:325-375 -/
theorem framing_survives {out : Socket} (hout : Reliable out) (hempty : out.stream = [])
    (hfs : ∀ f ∈ fs, Sendable f) :
    ∃ sent, sendFrames out fs = (.ok (), sent) ∧
      ∀ moves : ℕ → Option ℕ, (∀ i, moves i ≠ none) →
        (∃ e, recvFrames (fs.length + 1) { moves, stream := sent.stream } =
          fs.map Except.ok ++ [.error e]) ∧
        ∀ n < sent.stream.length, ∃ k < fs.length, ∃ e,
          recvFrames (k + 1) { moves, stream := sent.stream.take n } =
            (fs.take k).map Except.ok ++ [.error e] := by
  obtain ⟨sent, hsend, hlater⟩ := sendFrames_spec hout hfs
  have hstream : sent.stream = fs.flatMap wire := by
    rw [hlater.2, hempty, List.nil_append]
  refine ⟨sent, hsend, fun moves hmoves => ⟨?_, ?_⟩⟩
  · exact recvFrames_end hmoves hfs hstream
  · intro n hn
    have hmissing : sent.stream.drop n ≠ [] := by
      apply List.ne_nil_of_length_pos
      rw [List.length_drop]
      omega
    obtain ⟨before, f, after, begun, left, rfl, htake, hleft, hbegun⟩ :=
      exists_cut hmissing ((List.take_append_drop n sent.stream).trans hstream)
    refine ⟨before.length, by simp, ?_⟩
    rw [List.take_left]
    exact recvFrames_cut hmoves (fun g hg => hfs g (by simp [hg])) (hfs f (by simp)) hleft hbegun
      htake

/-- Two frames over a transport that moves one byte a call. -/
theorem framing_survives_two :
    ∃ sent, sendFrames { moves := fun _ => some 0 }
        [({} : ProtoFrame), { type := .Register, seq := 1 }] = (.ok (), sent) ∧
      ∀ moves : ℕ → Option ℕ, (∀ i, moves i ≠ none) →
        (∃ e, recvFrames 3 { moves, stream := sent.stream } =
          [({} : ProtoFrame), { type := .Register, seq := 1 }].map Except.ok ++ [.error e]) ∧
        ∀ n < sent.stream.length, ∃ k < 2, ∃ e,
          recvFrames (k + 1) { moves, stream := sent.stream.take n } =
            ([({} : ProtoFrame), { type := .Register, seq := 1 }].take k).map Except.ok ++
              [.error e] := by
  apply framing_survives
  · intro i
    exact Option.some_ne_none 0
  · rfl
  · intro f hf
    obtain rfl | rfl := List.mem_pair.mp hf
    · decide
    · decide

end CompilationFabric.Analysis
