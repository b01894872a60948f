import CompilationFabric.Model.Dispatch
import CompilationFabric.Model.Framing

/-!
# The threads that write to one worker

`workerChannels_` hands the channel of a worker to every client handler that dispatches to it,
while the worker's own handler answers heartbeats on it.  `sendFrame` takes no lock, so a step is
one `::send` of one thread: any number of the bytes that are left of the length or, when the
length is out, of the body.
-/

set_option autoImplicit false

namespace CompilationFabric.Model

/-- The handler of a client, by number, or the handler of the worker. -/
inductive Writer where
  | client (n : ℕ)
  | echo
  deriving DecidableEq, Repr

/-- A call of `sendFrame` that has not returned, with what it has still to send. -/
structure Sending where
  frame : ProtoFrame
  lengthLeft : Bytes
  bodyLeft : Bytes

/-- The channel and its writers.  `sent` are the frames whose `sendFrame` has returned without an
error, `stream` the bytes the worker will read. -/
structure SharedChannel where
  sending : Writer → Option Sending := fun _ => none
  stream : Bytes := []
  sent : List ProtoFrame := []

inductive WriteEvent where
  /-- `wch->sendFrame(disp)`; Distributed.cpp:286-288 -/
  | dispatch (n : ℕ) (env : ProtoEnvelope) (req : CompilationRequest) (key : CompilationKey)
  /-- `ch.sendFrame(hb)`; Distributed.cpp:193 -/
  | heartbeat
  /-- One `::send`, which takes up to `k` bytes after the first; Protocol.cpp:329 -/
  | send (w : Writer) (k : ℕ)

namespace SharedChannel

def dispatchFrame (env : ProtoEnvelope) (req : CompilationRequest) (key : CompilationKey) :
    ProtoFrame :=
  { type := .DispatchCompile, payload := encodeDispatch env req key }

/-- The state of a call when it has the frame encoded.
SOURCE: Protocol.cpp:356-361 -/
def beginFrame (f : ProtoFrame) : Sending where
  frame := f
  lengthLeft := CanonicalWriter.u32 (UInt32.ofNat (encodeFrameBody f).length)
  bodyLeft := encodeFrameBody f

/-- `sendFrame` up to its first `::send`; a frame that is too large is refused here.
SOURCE: Protocol.cpp:356-361 -/
def call (c : SharedChannel) (w : Writer) (f : ProtoFrame) : Option SharedChannel :=
  match c.sending w with
  | some _ => none
  | none =>
      if (encodeFrameBody f).length > kMaxFrameSize then some c
      else some { c with sending := Function.update c.sending w (some (beginFrame f)) }

/-- One `::send`, and the return when it was the last.
SOURCE: Protocol.cpp:362-364 -/
def send (c : SharedChannel) (w : Writer) (k : ℕ) : Option SharedChannel :=
  match c.sending w with
  | none => none
  | some x =>
      if x.lengthLeft ≠ [] then
        some { c with
          sending := Function.update c.sending w
            (some { x with lengthLeft := x.lengthLeft.drop (k + 1) })
          stream := c.stream ++ x.lengthLeft.take (k + 1) }
      else if x.bodyLeft.length ≤ k + 1 then
        some { sending := Function.update c.sending w none
               stream := c.stream ++ x.bodyLeft
               sent := c.sent ++ [x.frame] }
      else
        some { c with
          sending := Function.update c.sending w
            (some { x with bodyLeft := x.bodyLeft.drop (k + 1) })
          stream := c.stream ++ x.bodyLeft.take (k + 1) }

def step (c : SharedChannel) : WriteEvent → Option SharedChannel
  | .dispatch n env req key => c.call (.client n) (dispatchFrame env req key)
  | .heartbeat => c.call .echo {}
  | .send w k => c.send w k

end SharedChannel

end CompilationFabric.Model
