import CompilationFabric.Model.ResultProtocol
import CompilationFabric.Model.ReaderCalls

/-!
# Frames on a socket

The decoder of a frame body, and the two transfer loops that carry frames over a TCP socket.
How many bytes a `send` or a `recv` moves is the transport's choice: `moves i` is what call `i`
is ready to move, beyond the first byte, and nothing when the call fails.  No call moves more
than it was asked to, and a `recv` gives nothing at the end of the stream.
-/

set_option autoImplicit false

namespace CompilationFabric.Model

open CompilationFabric.Library

/-! ## The frame body -/

/-- SOURCE: Protocol.cpp:30-32 -/
def isValidType (t : UInt32) : Bool :=
  MsgType.Register.toUInt32 ≤ t && t ≤ MsgType.Control.toUInt32

/-- `static_cast<MsgType>(type)` of a valid type. -/
def MsgType.ofUInt32 (t : UInt32) : MsgType := MsgType.ofNat (t.toNat - 1)

/-- SOURCE: Protocol.cpp:66-80 -/
def decodeFrameBody (body : Bytes) : Result ProtoFrame := do
  let r : CanonicalReader := ⟨body, 0⟩
  let (v, r) ← orTruncated r.u32 "truncated protocol version"
  if v ≠ kProtocolVersion then
    Err .ProtocolVersionMismatch (ascii "protocol version mismatch")
  else
    let (type, r) ← orTruncated r.u32 "truncated message type"
    if !isValidType type then
      Err .UnknownMessageType (ascii "unknown message type " ++ DecimalText.natText type.toNat)
    else
      let (flags, r) ← orTruncated r.u32 "truncated flags"
      let (seq, r) ← orTruncated r.u32 "truncated seq"
      let (pd, r) ← orTruncated r.bytesBlob "truncated payload"
      if r.hasRemaining then Err .TrailingGarbage (ascii "trailing garbage after frame")
      else return { type := MsgType.ofUInt32 type, flags, seq, payload := pd }

/-! ## The transport -/

/-- One end of a connection: what its calls will move, how many there were, and the bytes of the
stream, those written so far for the sender and those still to come for the receiver. -/
structure Socket where
  moves : ℕ → Option ℕ
  calls : ℕ := 0
  stream : Bytes := []

namespace Socket

/-- `::send`: the number of bytes taken, or nothing for a failure. -/
def send (s : Socket) (data : Bytes) : Option ℕ × Socket :=
  match s.moves s.calls with
  | none => (none, { s with calls := s.calls + 1 })
  | some k =>
      let sent := min (k + 1) data.length
      (some sent, { s with calls := s.calls + 1, stream := s.stream ++ data.take sent })

/-- `::recv`: the bytes that have come, none at the end of the stream, or nothing for a
failure. -/
def recv (s : Socket) (len : ℕ) : Option Bytes × Socket :=
  match s.moves s.calls with
  | none => (none, { s with calls := s.calls + 1 })
  | some k =>
      let got := min (k + 1) len
      (some (s.stream.take got), { s with calls := s.calls + 1, stream := s.stream.drop got })

/-- INTERNAL: a send that succeeds leaves less to send. -/
theorem length_drop_send {s s' : Socket} {data : Bytes} {sent : ℕ} (hdata : data ≠ [])
    (h : s.send data = (some sent, s')) : (data.drop sent).length < data.length := by
  have hpos : 0 < data.length := List.length_pos_iff.mpr hdata
  unfold send at h
  split at h
  · simp at h
  · simp only [Prod.mk.injEq, Option.some.injEq] at h
    rw [List.length_drop, ← h.1]
    omega

/-- `while (off < len)`, with the bytes that are left to send.
SOURCE: Protocol.cpp:326-338 -/
def sendAll (s : Socket) (data : Bytes) : Result Unit × Socket :=
  if _hdata : data = [] then (.ok (), s)
  else
    match _hsend : s.send data with
    | (none, s) => (Err .IOError (ascii "send failed"), s)
    | (some sent, s) => sendAll s (data.drop sent)
termination_by data.length
decreasing_by exact length_drop_send _hdata _hsend

/-- `while (off < len)`, with the number of bytes that are left to receive.
SOURCE: Protocol.cpp:339-353 -/
def recvAll (s : Socket) (len : ℕ) : Result Bytes × Socket :=
  if _hlen : len = 0 then (.ok [], s)
  else
    match s.recv len with
    | (none, s) => (Err .IOError (ascii "recv failed"), s)
    | (some got, s) =>
        if _hgot : got = [] then (Err .IOError (ascii "connection closed"), s)
        else
          match recvAll s (len - got.length) with
          | (.ok rest, s) => (.ok (got ++ rest), s)
          | (.error e, s) => (.error e, s)
termination_by len
decreasing_by
  have hpos : 0 < got.length := List.length_pos_iff.mpr _hgot
  omega

end Socket

/-! ## The channel -/

namespace FramedChannel

/-- SOURCE: Protocol.cpp:356-365 -/
def sendFrame (s : Socket) (f : ProtoFrame) : Result Unit × Socket :=
  let body := encodeFrameBody f
  if body.length > kMaxFrameSize then
    (Err .FrameTooLarge (ascii "frame exceeds max size"), s)
  else
    match s.sendAll (CanonicalWriter.u32 (UInt32.ofNat body.length)) with
    | (.error e, s) => (.error e, s)
    | (.ok _, s) => s.sendAll body

/-- SOURCE: Protocol.cpp:366-375 -/
def recvFrame (s : Socket) : Result ProtoFrame × Socket :=
  match s.recvAll 4 with
  | (.error e, s) => (.error e, s)
  | (.ok lenb, s) =>
      let len := Positional.ofBytes lenb
      if len = 0 then (Err .MalformedFrame (ascii "zero-length frame"), s)
      else if len > kMaxFrameSize then
        (Err .OverSizedFrame (ascii "frame exceeds maximum size"), s)
      else
        match s.recvAll len with
        | (.error e, s) =>
            (Err .TruncatedFrame (ascii "truncated frame body: " ++ e.message), s)
        | (.ok body, s) => (decodeFrameBody body, s)

/-- Frames sent one after the other by one thread, up to the first failure. -/
def sendFrames (s : Socket) : List ProtoFrame → Result Unit × Socket
  | [] => (.ok (), s)
  | f :: fs =>
      match sendFrame s f with
      | (.error e, s) => (.error e, s)
      | (.ok _, s) => sendFrames s fs

/-- The results of calling `recvFrame` again and again. -/
def recvFrames : ℕ → Socket → List (Result ProtoFrame)
  | 0, _ => []
  | n + 1, s => (recvFrame s).1 :: recvFrames n (recvFrame s).2

end FramedChannel

end CompilationFabric.Model
