import CompilationFabric.Interface.ViewReads
import CompilationFabric.Model.Framing

/-!
# Transfers over a reliable transport

`sendAll` and `recvAll` on a transport that splits what it carries but does not fail: however the
bytes are split, the one writes all of them and the other takes as many as it wants, or ends with
an error when the stream does not have them.  Each is an induction over what is left to move.
-/

set_option autoImplicit false

namespace CompilationFabric.Interface

open CompilationFabric.Library
open CompilationFabric.Model

namespace Socket

variable {s : Model.Socket} {data : Bytes} {len : ℕ}

/-- No call fails. -/
def Reliable (s : Model.Socket) : Prop := ∀ i, s.moves i ≠ none

/-- The socket some calls later, with another stream. -/
def Later (s : Model.Socket) (stream : Bytes) (s' : Model.Socket) : Prop :=
  s'.moves = s.moves ∧ s'.stream = stream

/-- INTERNAL: a reliable socket stays reliable. -/
theorem Later.reliable {stream : Bytes} {s' : Model.Socket} (h : Later s stream s')
    (hs : Reliable s) : Reliable s' := by
  intro i
  rw [h.1]
  exact hs i

/-- INTERNAL: one transfer after the other. -/
theorem Later.trans {stream stream' : Bytes} {s' s'' : Model.Socket} (h : Later s stream s')
    (h' : Later s' stream' s'') : Later s stream' s'' :=
  ⟨h'.1.trans h.1, h'.2⟩

/-! ## Sending -/

/-- A reliable socket takes some of the data, and never none. -/
theorem send_spec (hs : Reliable s) (hdata : data ≠ []) :
    ∃ sent s', s.send data = (some sent, s') ∧ 0 < sent ∧
      Later s (s.stream ++ data.take sent) s' := by
  obtain ⟨k, hk⟩ := Option.ne_none_iff_exists'.mp (hs s.calls)
  have hpos : 0 < data.length := List.length_pos_iff.mpr hdata
  unfold Model.Socket.send
  rw [hk]
  exact ⟨_, _, rfl, by omega, rfl, rfl⟩

/-- All the bytes are written, in order. -/
theorem sendAll_spec (hs : Reliable s) (data : Bytes) :
    ∃ s', s.sendAll data = (.ok (), s') ∧ Later s (s.stream ++ data) s' := by
  induction hn : data.length using Nat.strong_induction_on generalizing s data with
  | h n ih =>
      by_cases hdata : data = []
      · subst hdata
        refine ⟨s, ?_, rfl, by rw [List.append_nil]⟩
        rw [Model.Socket.sendAll, dif_pos rfl]
      · obtain ⟨sent, s₁, hsend, hsent, hlater⟩ := send_spec hs hdata
        have hlt : (data.drop sent).length < n := by
          have hpos : 0 < data.length := List.length_pos_iff.mpr hdata
          rw [List.length_drop]
          omega
        obtain ⟨s₂, hrest, hlater'⟩ := ih _ hlt (hlater.reliable hs) (data.drop sent) rfl
        rw [hlater.2, List.append_assoc, List.take_append_drop] at hlater'
        refine ⟨s₂, ?_, hlater.trans hlater'⟩
        rw [Model.Socket.sendAll, dif_neg hdata]
        split
        · next heq =>
          rw [hsend] at heq
          cases heq
        · next heq =>
          rw [hsend] at heq
          cases heq
          exact hrest

/-! ## Receiving -/

/-- A reliable socket gives some of the stream, and never none. -/
theorem recv_spec (hs : Reliable s) (hlen : len ≠ 0) :
    ∃ got s', s.recv len = (some (s.stream.take got), s') ∧ 0 < got ∧ got ≤ len ∧
      Later s (s.stream.drop got) s' := by
  obtain ⟨k, hk⟩ := Option.ne_none_iff_exists'.mp (hs s.calls)
  unfold Model.Socket.recv
  rw [hk]
  exact ⟨_, _, rfl, by omega, by omega, rfl, rfl⟩

/-- One round of the loop. -/
theorem recvAll_step {got : Bytes} {s₁ : Model.Socket} (hlen : len ≠ 0)
    (hrecv : s.recv len = (some got, s₁)) (hgot : got ≠ []) :
    s.recvAll len = match s₁.recvAll (len - got.length) with
      | (.ok rest, s) => (.ok (got ++ rest), s)
      | (.error e, s) => (.error e, s) := by
  rw [Model.Socket.recvAll, dif_neg hlen, hrecv]
  exact dif_neg hgot

/-- Bytes that are there are received, and the others stay. -/
theorem recvAll_spec (hs : Reliable s) (hlen : len ≤ s.stream.length) :
    ∃ s', s.recvAll len = (.ok (s.stream.take len), s') ∧ Later s (s.stream.drop len) s' := by
  induction len using Nat.strong_induction_on generalizing s with
  | h len ih =>
      by_cases hzero : len = 0
      · subst hzero
        refine ⟨s, ?_, rfl, rfl⟩
        rw [Model.Socket.recvAll, dif_pos rfl, List.take_zero]
      · obtain ⟨got, s₁, hrecv, hpos, hle, hlater⟩ := recv_spec hs hzero
        have htake : (s.stream.take got).length = got := by
          rw [List.length_take]
          omega
        have hgot : s.stream.take got ≠ [] := List.ne_nil_of_length_pos (by omega)
        have hleft : len - got ≤ s₁.stream.length := by
          rw [hlater.2, List.length_drop]
          omega
        obtain ⟨s₂, hrest, hlater'⟩ := ih (len - got) (by omega) (hlater.reliable hs) hleft
        rw [hlater.2] at hrest hlater'
        refine ⟨s₂, ?_, ?_⟩
        · rw [recvAll_step hzero hrecv hgot, htake, hrest]
          simp only [← List.take_add, Nat.add_sub_cancel' hle]
        · rw [List.drop_drop, Nat.add_sub_cancel' hle] at hlater'
          exact hlater.trans hlater'

/-- When the stream ends first, the error is all that is received. -/
theorem recvAll_short (hs : Reliable s) (hlen : s.stream.length < len) :
    ∃ e s', s.recvAll len = (.error e, s') := by
  induction len using Nat.strong_induction_on generalizing s with
  | h len ih =>
      have hzero : len ≠ 0 := by omega
      obtain ⟨got, s₁, hrecv, hpos, hle, hlater⟩ := recv_spec hs hzero
      by_cases hgot : s.stream.take got = []
      · rw [Model.Socket.recvAll, dif_neg hzero, hrecv]
        simp only [dif_pos hgot]
        exact ⟨_, _, rfl⟩
      · have htake : 0 < (s.stream.take got).length := List.length_pos_iff.mpr hgot
        have hleft : s₁.stream.length < len - (s.stream.take got).length := by
          rw [hlater.2, List.length_drop]
          rw [List.length_take] at htake ⊢
          omega
        obtain ⟨e, s₂, hrest⟩ := ih _ (by omega) (hlater.reliable hs) hleft
        rw [recvAll_step hzero hrecv hgot, hrest]
        exact ⟨e, s₂, rfl⟩

end Socket

end CompilationFabric.Interface
