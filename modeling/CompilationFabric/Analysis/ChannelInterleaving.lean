import CompilationFabric.Analysis.FrameDelivery
import CompilationFabric.Library.TransitionSystem
import CompilationFabric.Model.SharedChannel
import Mathlib.Data.List.Permutation

/-!
# Frames of several threads

Whether the bytes that several threads write to one worker are whole frames.  Nothing keeps two
threads apart: a second thread that writes while a first is inside its frame tears that frame.
The runs in which no thread writes inside another's frame are the ones that stay framed, and
`Interleaved` is what carries them: at most one frame is begun, and it is at the end of the
stream.
-/

set_option autoImplicit false

namespace CompilationFabric.Analysis

open CompilationFabric.Interface
open CompilationFabric.Library
open CompilationFabric.Library.TransitionSystem
open CompilationFabric.Model
open CompilationFabric.Model.FramedChannel
open CompilationFabric.Model.SharedChannel

variable {c c' : SharedChannel} {w : Writer} {x : Sending} {k : ℕ}

/-! ## The property and the condition -/

/-- What a thread has still to write of its frame. -/
def toWrite (x : Sending) : Bytes := x.lengthLeft ++ x.bodyLeft

/-- The stream is whole frames, the ones that were sent in some order, and behind them no more
than the beginning of one that a thread is still writing; and the worker receives these frames. -/
def Framed (c : SharedChannel) : Prop :=
  ∃ (order : List ProtoFrame) (begun : Bytes), order.Perm c.sent ∧ c.stream = order.flatMap wire ++ begun ∧
    (begun = [] ∨ ∃ w x, c.sending w = some x ∧ begun ++ toWrite x = wire x.frame) ∧
    ∀ moves : ℕ → Option ℕ, (∀ i, moves i ≠ none) → ∃ e,
      recvFrames (order.length + 1) { moves, stream := c.stream } =
        order.map Except.ok ++ [.error e]

/-- The thread has written some of its frame. -/
def Begun (x : Sending) : Prop := x.lengthLeft.length < 4

/-- A thread writes only when no other is inside a frame. -/
def Uninterrupted (c : SharedChannel) (e : WriteEvent) : Prop :=
  match e with
  | .send w _ => ∀ w' x, w' ≠ w → c.sending w' = some x → ¬Begun x
  | _ => True

/-! ## The invariant -/

/-- A call of `sendFrame` is somewhere inside its frame. -/
structure Inside (x : Sending) : Prop where
  sendable : Sendable x.frame
  length : x.lengthLeft.length ≤ 4
  body : x.bodyLeft ≠ []
  unbegun : ¬Begun x → toWrite x = wire x.frame

structure Interleaved (c : SharedChannel) : Prop where
  inside : ∀ w x, c.sending w = some x → Inside x
  sent : ∀ f ∈ c.sent, Sendable f
  stream : ∃ begun, c.stream = c.sent.flatMap wire ++ begun ∧
    ((begun = [] ∧ ∀ w x, c.sending w = some x → ¬Begun x) ∨
      ∃ w x, c.sending w = some x ∧ Begun x ∧ begun ++ toWrite x = wire x.frame ∧
        ∀ w' x', w' ≠ w → c.sending w' = some x' → ¬Begun x')

/-- An unused channel is in order. -/
theorem Interleaved.initial : Interleaved {} where
  inside := fun _ _ h => nomatch h
  sent := fun _ h => nomatch h
  stream := ⟨[], rfl, .inl ⟨rfl, fun _ _ h => nomatch h⟩⟩

/-- INTERNAL: a frame that has not begun is at its start. -/
theorem Inside.beginFrame {f : ProtoFrame} (hf : Sendable f) :
    Inside (beginFrame f) where
  sendable := hf
  length := (CanonicalWriter.length_u32 _).le
  body := List.ne_nil_of_length_pos (by
    change 0 < (encodeFrameBody f).length
    rw [length_encodeFrameBody]
    omega)
  unbegun := fun _ => rfl

/-- INTERNAL: a frame that was just taken on has not begun. -/
theorem not_begun_beginFrame (f : ProtoFrame) : ¬Begun (beginFrame f) := by
  unfold Begun SharedChannel.beginFrame
  rw [CanonicalWriter.length_u32]
  exact lt_irrefl 4

/-- What a call of `sendFrame` does before its first `::send`. -/
theorem call_cases {f : ProtoFrame} (h : c.call w f = some c') :
    c' = c ∨ c.sending w = none ∧ Sendable f ∧
      c' = { c with sending := Function.update c.sending w (some (beginFrame f)) } := by
  unfold SharedChannel.call at h
  split at h
  · cases h
  · next hnone =>
    split at h
    · exact .inl (Option.some_inj.mp h).symm
    · next hsize => exact .inr ⟨hnone, not_lt.mp hsize, (Option.some_inj.mp h).symm⟩

/-- The calls after one of them has changed. -/
theorem update_cases {s : Writer → Option Sending} {o : Option Sending} {v : Writer}
    (h : Function.update s w o v = some x) : v = w ∧ o = some x ∨ v ≠ w ∧ s v = some x := by
  by_cases hvw : v = w
  · subst hvw
    rw [Function.update_self] at h
    exact .inl ⟨rfl, h⟩
  · rw [Function.update_of_ne hvw] at h
    exact .inr ⟨hvw, h⟩

/-- INTERNAL: taking on a frame keeps the channel in order. -/
theorem Interleaved.call {f : ProtoFrame} (hc : Interleaved c) (h : c.call w f = some c') :
    Interleaved c' := by
  obtain rfl | ⟨hnone, hf, rfl⟩ := call_cases h
  · exact hc
  obtain ⟨begun, hstream, hcase⟩ := hc.stream
  refine ⟨fun v y hv => ?_, hc.sent, begun, hstream, ?_⟩
  · obtain ⟨-, hy⟩ | ⟨-, hv⟩ := update_cases hv
    · obtain rfl := Option.some_inj.mp hy
      exact .beginFrame hf
    · exact hc.inside v y hv
  · obtain ⟨hnil, hnobody⟩ | ⟨u, z, hu, hbegun, hwire, halone⟩ := hcase
    · refine .inl ⟨hnil, fun v y hv => ?_⟩
      obtain ⟨-, hy⟩ | ⟨-, hv⟩ := update_cases hv
      · obtain rfl := Option.some_inj.mp hy
        exact not_begun_beginFrame f
      · exact hnobody v y hv
    · have huw : u ≠ w := by
        rintro rfl
        rw [hnone] at hu
        cases hu
      refine .inr ⟨u, z, ?_, hbegun, hwire, fun v y hvu hv => ?_⟩
      · exact (Function.update_of_ne huw _ _).trans hu
      · obtain ⟨-, hy⟩ | ⟨-, hv⟩ := update_cases hv
        · obtain rfl := Option.some_inj.mp hy
          exact not_begun_beginFrame f
        · exact halone v y hvu hv

/-- A thread that is alone writes behind whole frames and the beginning of its own. -/
theorem Interleaved.own (hc : Interleaved c) (hx : c.sending w = some x)
    (halone : ∀ w' x', w' ≠ w → c.sending w' = some x' → ¬Begun x') :
    ∃ begun, c.stream = c.sent.flatMap wire ++ begun ∧ begun ++ toWrite x = wire x.frame := by
  obtain ⟨begun, hstream, ⟨rfl, hnobody⟩ | ⟨v, y, hv, hbegun, hwire, -⟩⟩ := hc.stream
  · exact ⟨[], hstream, (hc.inside w x hx).unbegun (hnobody w x hx)⟩
  · have hvw : v = w := by
      by_contra hne
      exact halone v y hne hv hbegun
    subst hvw
    rw [hx, Option.some_inj] at hv
    subst hv
    exact ⟨begun, hstream, hwire⟩

/-- A `::send` that does not end the frame. -/
theorem Interleaved.advance {x' : Sending} {chunk : Bytes} (hc : Interleaved c)
    (hx : c.sending w = some x)
    (halone : ∀ w' x', w' ≠ w → c.sending w' = some x' → ¬Begun x')
    (hframe : x'.frame = x.frame) (hleft : toWrite x = chunk ++ toWrite x') (hbegun : Begun x')
    (hbody : x'.bodyLeft ≠ []) :
    Interleaved { c with
      sending := Function.update c.sending w (some x'), stream := c.stream ++ chunk } := by
  obtain ⟨begun, hstream, hwire⟩ := hc.own hx halone
  refine ⟨fun v y hv => ?_, hc.sent, begun ++ chunk, ?_, .inr ⟨w, x', ?_, hbegun, ?_, ?_⟩⟩
  · obtain ⟨-, hy⟩ | ⟨-, hv⟩ := update_cases hv
    · obtain rfl := Option.some_inj.mp hy
      refine ⟨?_, hbegun.le, hbody, fun hno => absurd hbegun hno⟩
      rw [hframe]
      exact (hc.inside w x hx).sendable
    · exact hc.inside v y hv
  · exact (congrArg (· ++ chunk) hstream).trans (List.append_assoc ..)
  · exact Function.update_self ..
  · rw [List.append_assoc, ← hleft, hframe]
    exact hwire
  · intro v y hvw hv
    exact halone v y hvw ((Function.update_of_ne hvw _ _).symm.trans hv)

/-- The `::send` that ends a frame. -/
theorem Interleaved.finish (hc : Interleaved c) (hx : c.sending w = some x)
    (halone : ∀ w' x', w' ≠ w → c.sending w' = some x' → ¬Begun x')
    (hlength : x.lengthLeft = []) :
    Interleaved { sending := Function.update c.sending w none
                  stream := c.stream ++ x.bodyLeft
                  sent := c.sent ++ [x.frame] } := by
  obtain ⟨begun, hstream, hwire⟩ := hc.own hx halone
  have hother : ∀ {v : Writer} {y : Sending}, Function.update c.sending w none v = some y →
      v ≠ w ∧ c.sending v = some y := by
    intro v y hv
    obtain ⟨-, hy⟩ | hv := update_cases hv
    · cases hy
    · exact hv
  refine ⟨fun v y hv => hc.inside v y (hother hv).2, fun f hf => ?_, [], ?_, .inl ⟨rfl, ?_⟩⟩
  · obtain hf | hf := List.mem_append.mp hf
    · exact hc.sent f hf
    · rw [List.mem_singleton.mp hf]
      exact (hc.inside w x hx).sendable
  · have hrest : toWrite x = x.bodyLeft := by
      unfold toWrite
      rw [hlength, List.nil_append]
    rw [hrest] at hwire
    rw [hstream, List.append_assoc, hwire, List.flatMap_append, List.flatMap_singleton,
      List.append_nil]
  · intro v y hv
    exact halone v y (hother hv).1 (hother hv).2

/-- INTERNAL: an uninterrupted send keeps the channel in order. -/
theorem Interleaved.send (hc : Interleaved c)
    (halone : ∀ w' x', w' ≠ w → c.sending w' = some x' → ¬Begun x')
    (h : c.send w k = some c') : Interleaved c' := by
  unfold SharedChannel.send at h
  split at h
  · cases h
  next x hx =>
  have hin := hc.inside w x hx
  split at h
  · next hlength =>
    obtain rfl := Option.some_inj.mp h
    refine hc.advance hx halone rfl ?_ ?_ hin.body
    · unfold toWrite
      rw [← List.append_assoc, List.take_append_drop]
    · have hpos : 0 < x.lengthLeft.length := List.length_pos_iff.mpr hlength
      have hle := hin.length
      unfold Begun
      rw [List.length_drop]
      omega
  next hlength =>
  rw [not_not] at hlength
  split at h
  · obtain rfl := Option.some_inj.mp h
    exact hc.finish hx halone hlength
  · next hmore =>
    obtain rfl := Option.some_inj.mp h
    refine hc.advance hx halone rfl ?_ ?_ ?_
    · unfold toWrite
      simp only [hlength, List.nil_append, List.take_append_drop]
    · unfold Begun
      simp [hlength]
    · apply List.ne_nil_of_length_pos
      rw [List.length_drop]
      omega

/-- Every uninterrupted step keeps the channel in order. -/
theorem Interleaved.step {e : WriteEvent} (halone : Uninterrupted c e)
    (h : SharedChannel.step c e = some c') (hc : Interleaved c) : Interleaved c' := by
  cases e with
  | dispatch n env req key => exact hc.call h
  | heartbeat => exact hc.call h
  | send w k => exact hc.send halone h

/-- A channel in order is framed. -/
theorem Interleaved.framed (hc : Interleaved c) : Framed c := by
  obtain ⟨begun, hstream, hcase⟩ := hc.stream
  refine ⟨c.sent, begun, .refl _, hstream, ?_, fun moves hmoves => ?_⟩
  · obtain ⟨hnil, -⟩ | ⟨v, y, hv, -, hwire, -⟩ := hcase
    · exact .inl hnil
    · exact .inr ⟨v, y, hv, hwire⟩
  · obtain ⟨rfl, -⟩ | ⟨v, y, hv, -, hwire, -⟩ := hcase
    · rw [List.append_nil] at hstream
      exact recvFrames_end hmoves hc.sent hstream
    · have hin := hc.inside v y hv
      have hleft : toWrite y ≠ [] := List.append_ne_nil_of_right_ne_nil _ hin.body
      exact recvFrames_cut hmoves hc.sent hin.sendable hleft hwire hstream

/-! ## Runs -/

/-- While no thread writes inside another's frame, the worker reads the frames that were sent.
SOURCE: Protocol.cpp:326-365 -/
theorem channel_framed {events : List WriteEvent}
    (hmeets : Meets SharedChannel.step Uninterrupted {} events)
    (hexec : exec SharedChannel.step {} events = some c) : Framed c :=
  (exec_induction (fun _ _ _ => Interleaved.step) hmeets hexec Interleaved.initial).framed

/-- The worker's own handler is alone while no client dispatches. -/
theorem uninterrupted_echo (hclients : ∀ w, w ≠ .echo → c.sending w = none) :
    Uninterrupted c (.send .echo k) := by
  intro w x hw hx
  rw [hclients w hw] at hx
  cases hx

/-- A heartbeat whose body goes out in two pieces. -/
theorem channel_framed_heartbeat :
    ∃ c, exec SharedChannel.step {}
        [.heartbeat, .send .echo 3, .send .echo 9, .send .echo 23] = some c ∧ Framed c := by
  have hmeets : Meets SharedChannel.step Uninterrupted {}
      [.heartbeat, .send .echo 3, .send .echo 9, .send .echo 23] := by
    refine ⟨trivial, ?_⟩
    rintro _ ⟨⟩
    refine ⟨uninterrupted_echo fun w hw => Function.update_of_ne hw _ _, ?_⟩
    rintro _ ⟨⟩
    refine ⟨uninterrupted_echo fun w hw => ?_, ?_⟩
    · simp [Function.update_of_ne hw]
    rintro _ ⟨⟩
    refine ⟨uninterrupted_echo fun w hw => ?_, fun _ _ => trivial⟩
    simp [Function.update_of_ne hw]
  obtain ⟨c, hexec⟩ : ∃ c, exec SharedChannel.step {}
      [.heartbeat, .send .echo 3, .send .echo 9, .send .echo 23] = some c := ⟨_, rfl⟩
  exact ⟨c, hexec, channel_framed hmeets hexec⟩

/-! ## A torn frame -/

/-- INTERNAL: an idle writer takes on a frame. -/
theorem call_spec {f : ProtoFrame} (hw : c.sending w = none) (hf : Sendable f) :
    ∃ c', c.call w f = some c' ∧ c'.stream = c.stream ∧ c'.sent = c.sent ∧
      c'.sending = Function.update c.sending w (some (beginFrame f)) := by
  unfold SharedChannel.call
  rw [hw]
  exact ⟨_, if_neg (not_lt.mpr hf), rfl, rfl, rfl⟩

/-- The length goes out in one `::send`. -/
theorem send_length {f : ProtoFrame} (hw : c.sending w = some (beginFrame f)) :
    ∃ c', c.send w 3 = some c' ∧ c'.sent = c.sent ∧
      c'.stream = c.stream ++ CanonicalWriter.u32 (UInt32.ofNat (encodeFrameBody f).length) ∧
      c'.sending =
        Function.update c.sending w (some { beginFrame f with lengthLeft := [] }) := by
  have hfour : (beginFrame f).lengthLeft.length = 4 := CanonicalWriter.length_u32 _
  have hsome : (beginFrame f).lengthLeft ≠ [] := List.ne_nil_of_length_pos (by omega)
  unfold SharedChannel.send
  rw [hw]
  simp only [if_pos hsome, List.drop_of_length_le hfour.le, List.take_of_length_le hfour.le]
  exact ⟨_, rfl, rfl, rfl, rfl⟩

/-- The body goes out in one `::send`. -/
theorem send_body (hw : c.sending w = some x) (hlength : x.lengthLeft = [])
    (hle : x.bodyLeft.length ≤ k + 1) :
    ∃ c', c.send w k = some c' ∧ c'.sent = c.sent ++ [x.frame] ∧
      c'.stream = c.stream ++ x.bodyLeft ∧ c'.sending = Function.update c.sending w none := by
  unfold SharedChannel.send
  rw [hw]
  simp only [hlength, ne_eq, not_true_eq_false, if_false, if_pos hle]
  exact ⟨_, rfl, rfl, rfl, rfl⟩

section Torn

variable {env : ProtoEnvelope} {req : CompilationRequest} {key : CompilationKey}

/-- A dispatch that stops behind its length, the whole of a heartbeat, and the body of the
dispatch. -/
def tornRun (env : ProtoEnvelope) (req : CompilationRequest) (key : CompilationKey) :
    List WriteEvent :=
  [.dispatch 0 env req key, .send (.client 0) 3, .heartbeat, .send .echo 3, .send .echo 23,
    .send (.client 0) kMaxFrameSize]

/-- The run in which an echo tears a dispatch. -/
theorem exec_tornRun (hf : Sendable (dispatchFrame env req key)) :
    ∃ c, exec SharedChannel.step {} (tornRun env req key) = some c ∧
      (∀ w, c.sending w = none) ∧ c.sent = [{}, dispatchFrame env req key] ∧
      c.stream = CanonicalWriter.u32
          (UInt32.ofNat (encodeFrameBody (dispatchFrame env req key)).length) ++
        (wire {} ++ encodeFrameBody (dispatchFrame env req key)) := by
  have hne : Writer.client 0 ≠ .echo := fun h => nomatch h
  have hheartbeat : Sendable {} := by decide
  obtain ⟨c₁, h₁, hstream₁, hsent₁, hsending₁⟩ :=
    call_spec (c := {}) (w := .client 0) rfl hf
  obtain ⟨c₂, h₂, hsent₂, hstream₂, hsending₂⟩ :=
    send_length (c := c₁) (w := .client 0) (by rw [hsending₁, Function.update_self])
  rw [hsending₁, Function.update_idem] at hsending₂
  obtain ⟨c₃, h₃, hstream₃, hsent₃, hsending₃⟩ :=
    call_spec (c := c₂) (w := .echo) (by rw [hsending₂, Function.update_of_ne hne.symm]) hheartbeat
  obtain ⟨c₄, h₄, hsent₄, hstream₄, hsending₄⟩ :=
    send_length (c := c₃) (w := .echo) (by rw [hsending₃, Function.update_self])
  rw [hsending₃, Function.update_idem] at hsending₄
  obtain ⟨c₅, h₅, hsent₅, hstream₅, hsending₅⟩ := send_body (c := c₄) (w := .echo) (k := 23)
    (by rw [hsending₄, Function.update_self]) rfl (by decide)
  rw [hsending₄, Function.update_idem] at hsending₅
  obtain ⟨c₆, h₆, hsent₆, hstream₆, hsending₆⟩ :=
    send_body (c := c₅) (w := .client 0) (k := kMaxFrameSize)
      (by rw [hsending₅, Function.update_of_ne hne, hsending₂, Function.update_self]) rfl
      (Nat.le_succ_of_le (show (encodeFrameBody _).length ≤ kMaxFrameSize from hf))
  refine ⟨c₆, ?_, fun w => ?_, ?_, ?_⟩
  · exact exec_cons.mpr ⟨c₁, h₁, exec_cons.mpr ⟨c₂, h₂, exec_cons.mpr ⟨c₃, h₃,
      exec_cons.mpr ⟨c₄, h₄, exec_cons.mpr ⟨c₅, h₅, exec_singleton.mpr h₆⟩⟩⟩⟩⟩
  · rw [hsending₆]
    by_cases hw : w = .client 0
    · rw [hw, Function.update_self]
    · rw [Function.update_of_ne hw, hsending₅]
      by_cases hecho : w = .echo
      · rw [hecho, Function.update_self]
      · rw [Function.update_of_ne hecho, hsending₂, Function.update_of_ne hw]
  · rw [hsent₆, hsent₅, hsent₄, hsent₃, hsent₂, hsent₁]
    rfl
  · rw [hstream₆, hstream₅, hstream₄, hstream₃, hstream₂, hstream₁]
    simp only [wire, List.nil_append, List.append_assoc]
    rfl

end Torn

/-- INTERNAL: the dispatch fits into a frame. -/
theorem sendable_dispatch : Sendable (dispatchFrame {} {} {}) := by decide +kernel

/-- The length of a dispatch, a heartbeat and the body of the dispatch are no frames in any
order. -/
theorem not_channel_framed :
    ¬ ∀ events c, exec SharedChannel.step {} events = some c → Framed c := by
  intro h
  obtain ⟨c, hexec, hidle, hsent, hstream⟩ := exec_tornRun sendable_dispatch
  obtain ⟨order, begun, hperm, hframes, hbegun, -⟩ := h _ c hexec
  obtain rfl : begun = [] := by
    obtain hnil | ⟨w, x, hx, -⟩ := hbegun
    · exact hnil
    · rw [hidle w] at hx
      cases hx
  rw [hsent, List.perm_pair] at hperm
  have hlong : (encodeFrameBody {}).length < (encodeFrameBody (dispatchFrame {} {} {})).length := by
    have henv : (dispatchFrame {} {} {}).payload.length ≠ 0 := by
      simp [dispatchFrame, encodeDispatch, length_encode, kEnvelopeSize]
    simp only [length_encodeFrameBody]
    change 24 + 0 < _
    omega
  have hf := sendable_dispatch
  generalize dispatchFrame {} {} {} = f at hstream hperm hlong hf
  rw [hstream, List.append_nil] at hframes
  obtain rfl | rfl := hperm
  · -- the heartbeat first: its length is not the one that was written
    have hflat : [{}, f].flatMap wire =
        CanonicalWriter.u32 (UInt32.ofNat (encodeFrameBody {}).length) ++
          (encodeFrameBody {} ++ wire f) := by
      simp [wire]
    rw [hflat] at hframes
    have hfour := congrArg Positional.ofBytes
      (List.append_inj hframes (by rw [CanonicalWriter.length_u32, CanonicalWriter.length_u32])).1
    rw [ofBytes_length hf, ofBytes_length (by decide)] at hfour
    omega
  · -- the dispatch first: a body begins with the version, not with a length
    have hflat : [f, {}].flatMap wire =
        CanonicalWriter.u32 (UInt32.ofNat (encodeFrameBody f).length) ++
          (encodeFrameBody f ++ wire {}) := by
      simp [wire]
    rw [hflat] at hframes
    have hbehind := List.append_cancel_left hframes
    unfold wire encodeFrameBody at hbehind
    simp only [List.append_assoc] at hbehind
    have hversion := (List.append_inj hbehind
      (by rw [CanonicalWriter.length_u32, CanonicalWriter.length_u32])).1
    revert hversion
    decide

end CompilationFabric.Analysis
