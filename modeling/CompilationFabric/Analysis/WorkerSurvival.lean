import CompilationFabric.Analysis.FrameDelivery
import CompilationFabric.Analysis.ShapeFidelity
import CompilationFabric.Analysis.SourceSafety
import CompilationFabric.Analysis.StrictPayloads
import CompilationFabric.Interface.JsonLanguage
import CompilationFabric.Model.WorkerLoop

/-!
# Which messages a worker survives

A dispatch that does not decode has no value, and one whose source the parser is not defined on is
not answered either.  Neither is one that the machine has no room for: a text that is nested deeper
than the stack, or a shape of more numbers than the memory.  Nothing else in the loop fails: a frame
bounds the request in it (`length_jstr_le`), the request the program of its source
(`size_of_parseSource`), and an artifact of that size is decoded without an exception
(`decode_encode_cases`).  So an iteration goes on if and only if the payload is `Compilable`
(`workerDispatch_cases`), and a run is a sequence of them.
-/

set_option autoImplicit false

namespace CompilationFabric.Analysis

open CompilationFabric.Interface
open CompilationFabric.Library
open CompilationFabric.Model
open CompilationFabric.Model.CpuBackend
open DistributedWorker (Run)

variable {V : Type} {F : Doubles V} {H : Bytes → Digest} {w : DistributedWorker}

/-! ## The property -/

/-- The frame is the end of the loop, or there is none. -/
def ends (t : WorkerTurn) : Bool :=
  match t.received with
  | .error _ => true
  | .ok f => f.type = .Shutdown

/-- What an iteration may make of a run: it goes on unless it has to end, and it answers a dispatch
with one CompileResult or skips it. -/
structure Survived (s : Run) (t : WorkerTurn) (s' : Run) : Prop where
  goes : s'.status = .running ∨ ends t = true ∧ ∃ code, s'.status = .returned code
  answers : ∀ f, t.received = .ok f → f.type = .DispatchCompile → s'.status = .running ∧
    (s'.sent = s.sent ∨ ∃ crf : ProtoFrame, crf.type = .CompileResult ∧ s'.sent = s.sent ++ [crf])

/-- Every iteration of a run survives. -/
def Survives (F : Doubles V) (H : Bytes → Digest) (w : DistributedWorker)
    (turns : List WorkerTurn) : Prop :=
  ∀ before t after, turns = before ++ t :: after → (w.run F H before).status = .running →
    Survived (w.run F H before) t (w.run F H (before ++ [t]))

/-- Behind an envelope, or from the first byte of a payload that is too short for one, stand the
JSON text of the request and a key, each behind its length. -/
def Carries (payload js : Bytes) (req : CompilationRequest) : Prop :=
  ∃ pre kb tl j,
    payload = pre ++ (CanonicalWriter.string js ++ (CanonicalWriter.string kb ++ tl)) ∧
    (payload.length < kEnvelopeSize ∧ pre = [] ∨ pre.length = kEnvelopeSize) ∧
    Json.parse js = some j ∧ CompilationRequest.fromJson j = some req ∧
    (CompilationKey.fromCanonicalBytes kb).isSome

/-- There is the memory for the executions of a program: for the one behind the digest, and for the
two of the check, which are made only if the artifact has no more operations than are decoded. -/
def Affordable (t : WorkerTurn) (r : CompilationRequest) (p : CpuProgram) : Prop :=
  let n := elementCount (specialize r p).shapeN
  (operationsKept r p.ops ≤ 4096 → t.allocates 0 n = true ∧ t.allocates 1 n = true) ∧
    t.allocates 2 n = true

/-- The payload carries a request whose text the stack can hold; in front of the first operation of
its source that is not known no line is white space with a vertical tab or a form feed; and there is
the memory for the program of the source. -/
def Compilable (t : WorkerTurn) (payload : Bytes) : Prop :=
  ∃ js req, Carries payload js req ∧ t.stackHolds (Json.nesting js) = true ∧
    (∀ line ∈ linesRead (Numerals.getlines newline req.source), ¬ VerticalBlank line) ∧
    ∀ p, parseSource req.source = some (.ok p) → Affordable t req p

/-- A dispatch that the turn gives is compilable. -/
def TurnCompilable (t : WorkerTurn) : Prop :=
  ∀ f, t.received = .ok f → f.type = .DispatchCompile → Compilable t f.payload

/-- The turns before the one that has to end the loop. -/
def turnsTaken (turns : List WorkerTurn) : List WorkerTurn := turns.takeWhile fun t => !ends t

/-! ## The size of a program -/

/-- INTERNAL: trimming makes no line longer. -/
theorem length_trim_le (line : Bytes) : (trim line).length ≤ line.length := by
  rw [trim_eq]
  exact (List.dropWhile_suffix _).length_le.trans (List.rdropWhile_prefix _ _).length_le

/-- INTERNAL: a header sets no longer name than its token. -/
theorem length_setHeader_le (p : CpuProgram) {token key val : Bytes}
    (h : splitPair token = some (key, val)) :
    (setHeader p key val).name.length ≤ max p.name.length token.length := by
  have hval : val.length ≤ token.length := by
    unfold splitPair at h
    split at h
    · cases h
      rw [List.length_drop]
      exact (Nat.sub_le _ _).trans (List.dropWhile_suffix _).length_le
    · cases h
  unfold setHeader
  split
  · exact hval.trans (le_max_right _ _)
  · split_ifs <;> exact le_max_left _ _

/-- INTERNAL: a header adds no operation. -/
theorem ops_setHeader (p : CpuProgram) (key val : Bytes) : (setHeader p key val).ops = p.ops := by
  unfold setHeader
  split_ifs <;> rfl

/-- A header line sets no more than its own length. -/
theorem size_of_header {p q : CpuProgram} {line : Bytes} (h : readLine p line = .header q) :
    q.ops = p.ops ∧ q.name.length ≤ max p.name.length line.length := by
  unfold readLine at h
  dsimp only at h
  split at h
  · cases h
  split at h
  · cases h
  next token operands hwords =>
  split at h
  · next key val hpair =>
    cases h
    obtain ⟨hpair, -⟩ := Option.filter_eq_some_iff.mp hpair
    have htoken : token.length ≤ line.length :=
      (Numerals.length_le_of_mem_words (hwords ▸ List.mem_cons_self)).trans (length_trim_le line)
    exact ⟨ops_setHeader p key val,
      (length_setHeader_le p hpair).trans (max_le_max le_rfl htoken)⟩
  · split at h <;> cases h

/-- Every line adds at most one operation, and the name is from one of them. -/
theorem size_of_readLines {n : ℕ} {p q : CpuProgram} {lines : List Bytes}
    (hlines : ∀ line ∈ lines, line.length ≤ n) (hname : p.name.length ≤ n)
    (h : readLines p lines = some (.ok q)) :
    q.name.length ≤ n ∧ q.ops.length ≤ p.ops.length + lines.length := by
  induction lines generalizing p with
  | nil =>
      obtain rfl := Except.ok.inj (Option.some.inj h)
      exact ⟨hname, le_rfl⟩
  | cons line lines ih =>
      have hrest : ∀ line ∈ lines, line.length ≤ n :=
        fun line' hmem => hlines line' (List.mem_cons_of_mem _ hmem)
      unfold readLines at h
      rw [List.length_cons]
      split at h
      · obtain ⟨hq, hops⟩ := ih hrest hname h
        exact ⟨hq, by omega⟩
      · next p' hread =>
        obtain ⟨hops', hname'⟩ := size_of_header hread
        obtain ⟨hq, hops⟩ := ih hrest
          (hname'.trans (max_le hname (hlines line List.mem_cons_self))) h
        rw [hops'] at hops
        exact ⟨hq, by omega⟩
      · next op hread =>
        obtain ⟨hq, hops⟩ := ih (p := { p with ops := p.ops ++ [op] }) hrest hname h
        rw [List.length_append, List.length_singleton] at hops
        exact ⟨hq, by omega⟩
      · cases h
      · cases h

/-- A program is not much larger than its source. -/
theorem size_of_parseSource {source : Bytes} {p : CpuProgram}
    (h : parseSource source = some (.ok p)) :
    p.name.length ≤ source.length + 9 ∧ p.ops.length ≤ source.length + 1 := by
  obtain ⟨lines, hlines, hfinish⟩ := Option.map_eq_some_iff.mp h
  cases lines with
  | error e => cases hfinish
  | ok q =>
      obtain ⟨hname, hops⟩ := size_of_readLines (n := source.length)
        (fun line hline => Numerals.length_le_of_mem_getlines hline) (Nat.zero_le _) hlines
      have hcount := Numerals.length_getlines_le newline source
      change q.ops.length ≤ 0 + _ at hops
      simp only [Except.bind, finishSource] at hfinish
      split at hfinish
      · cases hfinish
      · obtain rfl := Except.ok.inj hfinish
        refine ⟨?_, by dsimp only; omega⟩
        dsimp only
        split
        · have hkernel : (ascii "cf-kernel").length = 9 := by decide
          omega
        · omega

/-! ## Compilation -/

/-- An artifact that is not too large is decoded without an exception: to its program, or not at all
if that has too many operations. -/
theorem decode_encode_cases {p : CpuProgram} (hne : p.ops ≠ [])
    (hsize : (encode p).length ≤ maxObjectSize) :
    (p.ops.length ≤ 4096 ∧ decode (encode p) = .ok (.ok p.stored)) ∨
      (4096 < p.ops.length ∧ ∃ e, decode (encode p) = .ok (.error e)) := by
  rcases le_or_gt p.ops.length 4096 with hle | hgt
  · exact .inl ⟨hle, (decode_encode_iff hne hsize).mpr hle⟩
  · refine .inr ⟨hgt, ?_⟩
    rw [encode_eq] at hsize ⊢
    rw [decode_encodeStored_eq (lt_sizeMod hsize)]
    cases hbody : decodeBody (CanonicalReader.after (frontBytes p.stored) (bodyBytes p.stored.ops)) with
    | error e => exact ⟨e, rfl⟩
    | ok ops =>
        -- the program of other operations would have the same artifact, which is too long for it
        have hdecode : decode (encodeStored p.stored) = .ok (.ok { p.stored with ops }) := by
          rw [decode_encodeStored_eq (lt_sizeMod hsize), hbody]
          rfl
        obtain ⟨hencode, -, hle⟩ := decode_eq_ok hsize hdecode
        have hlength := congrArg List.length hencode
        have hops : p.stored.ops.length = p.ops.length := List.length_map _
        rw [length_encodeStored, length_encodeStored] at hlength
        dsimp only at hlength hle
        omega

/-- What a request of that size compiles to is not too large. -/
theorem length_encode_le {r : CompilationRequest} {p : CpuProgram}
    (hsource : r.source.length ≤ kMaxFrameSize)
    (hlaunch : r.launchSpecialization.length ≤ kMaxFrameSize)
    (hparse : parseSource r.source = some (.ok p)) :
    (encode (optimize r (specialize r p))).length ≤ maxObjectSize := by
  obtain ⟨hname, hops⟩ := size_of_parseSource hparse
  have hkept : operationsKept r p.ops ≤ p.ops.length := by
    unfold operationsKept
    split
    · exact List.countP_le_length
    · exact le_rfl
  have hlength : (optimize r (specialize r p)).ops.length ≤ p.ops.length := by
    rw [length_optimize]
    exact hkept
  rw [length_encodeProgram]
  change 41 + p.name.length + r.launchSpecialization.length + 13 * _ ≤ maxObjectSize
  simp only [kMaxFrameSize, maxObjectSize] at hsource hlaunch ⊢
  omega

/-- A request of the size of a frame, of a source that can be parsed, is compiled if there is the
memory for it, and leaves by the exception of the allocation otherwise. -/
theorem compileChecked_cases {r : CompilationRequest} (hsource : r.source.length ≤ kMaxFrameSize)
    (hlaunch : r.launchSpecialization.length ≤ kMaxFrameSize)
    (hparse : parseSource r.source ≠ none) (t : WorkerTurn) :
    ((∀ p, parseSource r.source = some (.ok p) → Affordable t r p) ∧
      ∃ bo, F.compileChecked t.allocates r t.durationMs t.stages = some (.ok bo)) ∨
    ((∃ p, parseSource r.source = some (.ok p) ∧ ¬ Affordable t r p) ∧
      F.compileChecked t.allocates r t.durationMs t.stages = some (.error .badAlloc)) := by
  obtain ⟨parsed, hparsed⟩ := Option.ne_none_iff_exists'.mp hparse
  unfold Doubles.compileChecked
  rw [hparsed, Option.map_some]
  cases parsed with
  | error e => exact .inl ⟨by simp, _, rfl⟩
  | ok p =>
      have hne : (optimize r (specialize r p)).ops ≠ [] :=
        ops_ne_nil_of_optimize (ops_ne_nil_of_parseSource (p := p) hparsed)
      have hkept : (optimize r (specialize r p)).ops.length = operationsKept r p.ops :=
        length_optimize r (specialize r p)
      have hcount : elementCount (optimize r (specialize r p)).stored.shapeN =
        elementCount (specialize r p).shapeN := rfl
      simp only [Option.some.injEq, Except.ok.injEq, forall_eq', exists_eq_left']
      unfold Affordable allocateCheck Doubles.checkCompiled
      rcases decode_encode_cases hne (length_encode_le hsource hlaunch hparsed) with
        ⟨hle, hdecode⟩ | ⟨hgt, e, hdecode⟩
      · rw [hkept] at hle
        rw [hdecode]
        simp only [allocateVectors, hcount, hle, true_implies, bind, Except.bind]
        cases t.allocates 0 (elementCount (specialize r p).shapeN) <;>
          cases t.allocates 1 (elementCount (specialize r p).shapeN) <;>
          cases t.allocates 2 (elementCount (specialize r p).shapeN) <;>
          simp [pure, Except.pure, throw, throwThe, MonadExceptOf.throw]
      · rw [hkept] at hgt
        rw [hdecode]
        simp only [allocateVectors, hcount, hgt.not_ge, false_implies, true_and, bind, Except.bind]
        cases t.allocates 2 (elementCount (specialize r p).shapeN) <;>
          simp [pure, Except.pure, throw, throwThe, MonadExceptOf.throw]

/-! ## Dispatches -/

/-- INTERNAL: the payload of a frame that can be sent is bounded. -/
theorem length_payload_le {f : ProtoFrame} (h : Sendable f) : f.payload.length ≤ kMaxFrameSize := by
  rw [Sendable, length_encodeFrameBody] at h
  omega

/-- INTERNAL: no more is received than was asked for. -/
theorem length_of_recvAll {s s' : Socket} {len : ℕ} {b : Bytes}
    (h : s.recvAll len = (.ok b, s')) : b.length ≤ len := by
  fun_induction Socket.recvAll s len generalizing b with
  | case1 s =>
      cases h
      exact Nat.zero_le _
  | case2 s len hlen s' hrecv => cases h
  | case3 s len hlen s' hrecv => cases h
  | case4 s len hlen got s' hrecv hgot rest s'' hrest ih =>
      cases h
      have hgot : got.length ≤ len := by
        unfold Socket.recv at hrecv
        split at hrecv
        · cases hrecv
        · cases hrecv
          exact (List.length_take_le _ _).trans (min_le_right _ _)
      have hle := ih hrest
      rw [List.length_append]
      omega
  | case5 s len hlen got s' hrecv hgot e s'' hrest ih => cases h

/-- The frames that `recvFrame` returns are no larger than those that are sent. -/
theorem sendable_of_recvFrame {s s' : Socket} {f : ProtoFrame}
    (h : FramedChannel.recvFrame s = (.ok f, s')) : Sendable f := by
  unfold FramedChannel.recvFrame at h
  split at h
  · cases h
  next lenb s₁ hlenb =>
  dsimp only at h
  split at h
  · cases h
  split at h
  · cases h
  next hfits =>
  split at h
  · cases h
  next body s₂ hbody =>
  obtain ⟨hdecode, -⟩ := Prod.mk.inj h
  have hlength := (length_of_recvAll hbody).trans (not_lt.mp hfits)
  rw [Sendable, encodeFrameBody_of_decode (hlength.trans (by decide)) hdecode]
  exact hlength

/-- An iteration that receives from a socket. -/
def turnFrom (s : Socket) (nanos : UInt64) (durationMs : Int64) (stages : List StageResult)
    (stackHolds : ℕ → Bool) (allocates : ℕ → UInt32 → Bool) : WorkerTurn where
  received := (FramedChannel.recvFrame s).1
  fits _ h := sendable_of_recvFrame (Prod.ext h rfl)
  nanos := nanos
  durationMs := durationMs
  stages := stages
  stackHolds := stackHolds
  allocates := allocates

/-- What is compiled of a request is no larger than the payload. -/
theorem size_of_carries {payload js : Bytes} {req : CompilationRequest}
    (h : Carries payload js req) :
    req.source.length ≤ payload.length ∧ req.launchSpecialization.length ≤ payload.length := by
  obtain ⟨pre, kb, tl, j, rfl, -, hj, hreq, -⟩ := h
  obtain rfl := Option.some.inj hreq
  have hsource := length_jstr_le hj "source"
  have hlaunch := length_jstr_le hj "launch_specialization"
  simp only [List.length_append, CanonicalWriter.length_string]
  constructor <;> omega

/-- The text of a request stands behind the envelope. -/
theorem requestText_eq {payload pre rest js tl : Bytes} (hsize : payload.length ≤ maxObjectSize)
    (hsplit : payload = pre ++ rest) (hrest : rest = CanonicalWriter.string js ++ tl)
    (hread : (readEnvelope ⟨payload, 0⟩ {}).2.2 = CanonicalReader.after pre rest) :
    DistributedWorker.requestText payload = some js := by
  have hfits : (pre ++ (CanonicalWriter.string js ++ tl)).length < sizeMod := by
    rw [← hrest, ← hsplit]
    exact lt_sizeMod hsize
  unfold DistributedWorker.requestText
  rw [hread, hrest, CanonicalReader.str_after pre tl hfits]

/-- A payload that decodes carries the request. -/
theorem carries_of_decodeDispatch {payload : Bytes} (hsize : payload.length ≤ kMaxFrameSize)
    {req : CompilationRequest} {key : CompilationKey}
    (h : decodeDispatch payload = .ok (.ok (req, key))) : ∃ js, Carries payload js req := by
  have hmax : payload.length ≤ maxObjectSize := hsize.trans (by decide)
  obtain ⟨pre, rest, hsplit, hread, hpre⟩ := readEnvelope_cases hmax
  obtain ⟨js, kb, tl, j, hj, hreq, hkey, hrest⟩ :=
    (decodeDispatch_eq_ok_iff (hsplit ▸ hmax) hread).mp h
  exact ⟨js, pre, kb, tl, j, hrest ▸ hsplit, hpre, hj, hreq, by simp [hkey]⟩

/-- A payload decodes to the request that it carries, from the text that it carries. -/
theorem decodeDispatch_of_carries {payload js : Bytes} (hsize : payload.length ≤ kMaxFrameSize)
    {req : CompilationRequest} (h : Carries payload js req) :
    DistributedWorker.requestText payload = some js ∧
      ∃ key, decodeDispatch payload = .ok (.ok (req, key)) := by
  have hmax : payload.length ≤ maxObjectSize := hsize.trans (by decide)
  obtain ⟨pre, rest, hsplit, hread, hpre⟩ := readEnvelope_cases hmax
  obtain ⟨pre', kb, tl, j, hsplit', hpre', hj, hreq, hkey⟩ := h
  obtain ⟨key, hkey⟩ := Option.isSome_iff_exists.mp hkey
  have hlength : pre.length = pre'.length := by
    rcases hpre with ⟨hshort, rfl⟩ | hlen
    · rcases hpre' with ⟨-, rfl⟩ | hlen'
      · rfl
      · rw [hsplit', List.length_append] at hshort
        omega
    · rcases hpre' with ⟨hshort', rfl⟩ | hlen'
      · rw [hsplit, List.length_append] at hshort'
        omega
      · rw [hlen, hlen']
  have hrest := (List.append_inj (hsplit.symm.trans hsplit') hlength).2
  exact ⟨requestText_eq hmax hsplit hrest hread, key,
    (decodeDispatch_eq_ok_iff (hsplit ▸ hmax) hread).mpr ⟨js, kb, tl, j, hj, hreq, hkey, hrest⟩⟩

/-- The stack holds the text of the payload, if there is one. -/
def Held (t : WorkerTurn) (payload : Bytes) : Prop :=
  ∀ js, DistributedWorker.requestText payload = some js → t.stackHolds (Json.nesting js) = true

/-- A payload is compilable if the stack holds its text, it decodes, the source in it can be parsed,
and there is the memory for its program. -/
theorem compilable_iff {t : WorkerTurn} {payload : Bytes}
    (hsize : payload.length ≤ kMaxFrameSize) :
    Compilable t payload ↔ Held t payload ∧
      ∃ req key, decodeDispatch payload = .ok (.ok (req, key)) ∧ parseSource req.source ≠ none ∧
        ∀ p, parseSource req.source = some (.ok p) → Affordable t req p := by
  constructor
  · rintro ⟨js, req, hcarries, hstack, hlines, hmemory⟩
    obtain ⟨hjs, key, hdecode⟩ := decodeDispatch_of_carries hsize hcarries
    refine ⟨fun js' hjs' => ?_, req, key, hdecode, parseSource_ne_none_iff.mpr hlines, hmemory⟩
    obtain rfl := Option.some.inj (hjs.symm.trans hjs')
    exact hstack
  · rintro ⟨hheld, req, key, hdecode, hparse, hmemory⟩
    obtain ⟨js, hcarries⟩ := carries_of_decodeDispatch hsize hdecode
    exact ⟨js, req, hcarries, hheld js (decodeDispatch_of_carries hsize hcarries).1,
      parseSource_ne_none_iff.mp hparse, hmemory⟩

/-- How an iteration must not end. -/
def failed : WorkerStatus → Bool
  | .running | .returned _ => false
  | .threw _ | .noValue _ | .undefined => true

/-- INTERNAL: the text of a dispatch is parsed if the stack holds it. -/
theorem held_iff {t : WorkerTurn} {payload : Bytes} :
    Held t payload ↔ ¬ (DistributedWorker.requestText payload).any
      (fun text => !t.stackHolds (Json.nesting text)) = true := by
  unfold Held
  cases DistributedWorker.requestText payload <;> simp

/-- A dispatch is answered if its payload is compilable; otherwise the loop is left by an exception,
or by what is not defined. -/
theorem workerDispatch_cases {payload : Bytes} (hsize : payload.length ≤ kMaxFrameSize)
    (t : WorkerTurn) :
    (Compilable t payload ∧
      ∃ crf, w.dispatch F H t payload = .ok crf ∧ crf.type = .CompileResult) ∨
    (¬ Compilable t payload ∧
      ∃ status, w.dispatch F H t payload = .error status ∧ failed status = true) := by
  rw [compilable_iff hsize]
  by_cases hheld : Held t payload
  · unfold DistributedWorker.dispatch
    rw [if_neg (held_iff.mp hheld)]
    cases hdecode : decodeDispatch payload with
    | error e => exact .inr ⟨by simp, _, rfl, rfl⟩
    | ok dr =>
        cases dr with
        | error e => exact .inr ⟨by simp, _, rfl, rfl⟩
        | ok d =>
            obtain ⟨req, key⟩ := d
            obtain ⟨js, hcarries⟩ := carries_of_decodeDispatch hsize hdecode
            obtain ⟨hsource, hlaunch⟩ := size_of_carries hcarries
            simp only [valueOf, Except.mapError, bind, Except.bind, pure, Except.pure]
            by_cases hparse : parseSource req.source = none
            · refine .inr ⟨?_, .undefined, ?_, rfl⟩
              · rintro ⟨-, req', key', heq, hparse', -⟩
                cases heq
                exact hparse' hparse
              · rw [Doubles.compileChecked, hparse, Option.map_none]
            rcases compileChecked_cases (F := F) (hsource.trans hsize) (hlaunch.trans hsize) hparse
                t with ⟨hmemory, bo, hcompile⟩ | ⟨⟨p, hp, hmemory⟩, hcompile⟩
            · rw [hcompile]
              exact .inl ⟨⟨hheld, req, key, rfl, hparse, hmemory⟩, _, rfl, rfl⟩
            · refine .inr ⟨?_, .threw .badAlloc, ?_, rfl⟩
              · rintro ⟨-, req', key', heq, -, hmemory'⟩
                cases heq
                exact hmemory (hmemory' p hp)
              · rw [hcompile]
  · refine .inr ⟨fun h => hheld h.1, .undefined, ?_, rfl⟩
    unfold DistributedWorker.dispatch
    rw [if_pos (not_not.mp fun h => hheld (held_iff.mpr h))]
    rfl

/-! ## Runs -/

/-- INTERNAL: what is checked of an iteration lets it end. -/
theorem turnCompilable_of_ends {t : WorkerTurn} (h : ends t = true) : TurnCompilable t := by
  intro f hf htype
  simp [ends, hf, htype] at h

/-- The end of an iteration: the loop goes on with a compilable dispatch answered, it ends as it has
to, or it fails on a dispatch that is not compilable. -/
theorem iterate_cases (t : WorkerTurn) :
    (TurnCompilable t ∧ ends t = false ∧ (w.iterate F H t).1 = .running ∧
      ∀ f, t.received = .ok f → f.type = .DispatchCompile →
        ∃ crf, crf.type = .CompileResult ∧ (w.iterate F H t).2 = [crf]) ∨
    (TurnCompilable t ∧ ends t = true ∧ (∃ code, (w.iterate F H t).1 = .returned code) ∧
      ∀ f, t.received = .ok f → f.type ≠ .DispatchCompile) ∨
    (¬ TurnCompilable t ∧ ends t = false ∧ failed (w.iterate F H t).1 = true) := by
  unfold TurnCompilable ends DistributedWorker.iterate
  cases hreceived : t.received with
  | error e => exact .inr (.inl ⟨nofun, rfl, ⟨1, rfl⟩, nofun⟩)
  | ok f =>
      have hfits := length_payload_le (t.fits f hreceived)
      simp only [Except.ok.injEq, forall_eq']
      cases htype : f.type with
      | Shutdown => exact .inr (.inl ⟨nofun, rfl, ⟨0, rfl⟩, nofun⟩)
      | DispatchCompile =>
          rcases workerDispatch_cases (F := F) (H := H) (w := w) hfits t with
            ⟨hcompilable, crf, hdispatch, hcrf⟩ | ⟨hcompilable, status, hdispatch, hfailed⟩
          · rw [hdispatch]
            exact .inl ⟨fun _ => hcompilable, rfl, rfl, fun _ => ⟨crf, hcrf, rfl⟩⟩
          · rw [hdispatch]
            exact .inr (.inr ⟨fun h => hcompilable (h rfl), rfl, hfailed⟩)
      | _ => exact .inl ⟨nofun, rfl, rfl, nofun⟩

/-- An iteration survives if and only if what it has to compile is compilable; it is the last one
only if it has to be. -/
theorem step_running_iff {s : Run} (hs : s.status = .running) (t : WorkerTurn) :
    (Survived s t (w.step F H s t) ↔ TurnCompilable t) ∧
      ((w.step F H s t).status = .running ↔ TurnCompilable t ∧ ends t = false) := by
  unfold DistributedWorker.step
  rw [hs]
  dsimp only
  rcases iterate_cases (F := F) (H := H) (w := w) t with
    ⟨hturn, hends, hrunning, hanswer⟩ | ⟨hturn, hends, ⟨code, hcode⟩, hother⟩ |
      ⟨hturn, hends, hfailed⟩
  · refine ⟨iff_of_true ⟨.inl hrunning, ?_⟩ hturn, iff_of_true hrunning ⟨hturn, hends⟩⟩
    intro f hf htype
    obtain ⟨crf, hcrf, hsent⟩ := hanswer f hf htype
    exact ⟨hrunning, .inr ⟨crf, hcrf, congrArg (s.sent ++ ·) hsent⟩⟩
  · refine ⟨iff_of_true ⟨.inr ⟨hends, code, hcode⟩, ?_⟩ hturn, iff_of_false ?_ ?_⟩
    · exact fun f hf htype => absurd htype (hother f hf)
    · simp [hcode]
    · simp [hends]
  · have hnot : (w.iterate F H t).1 ≠ .running := by
      intro h
      rw [h] at hfailed
      cases hfailed
    refine ⟨iff_of_false ?_ hturn, iff_of_false hnot fun h => hturn h.1⟩
    rintro ⟨hgoes | ⟨-, code, hcode⟩, -⟩
    · exact hnot hgoes
    · rw [show (w.iterate F H t).1 = .returned code from hcode] at hfailed
      cases hfailed

/-- A loop that has been left stays left. -/
theorem foldl_step_stopped {s : Run} (hs : s.status ≠ .running) (turns : List WorkerTurn) :
    turns.foldl (w.step F H) s = s := by
  induction turns with
  | nil => rfl
  | cons t turns ih =>
      have hstep : w.step F H s t = s := by
        unfold DistributedWorker.step
        split
        · exact absurd ‹_› hs
        · rfl
      rw [List.foldl_cons, hstep, ih]

/-- A run from a loop that goes on: the induction is over the turns. -/
theorem survives_from_iff {s : Run} (hs : s.status = .running) (turns : List WorkerTurn) :
    (∀ before t after, turns = before ++ t :: after →
      (before.foldl (w.step F H) s).status = .running →
        Survived (before.foldl (w.step F H) s) t ((before ++ [t]).foldl (w.step F H) s)) ↔
      ∀ t ∈ turnsTaken turns, TurnCompilable t := by
  induction turns generalizing s with
  | nil => simp [turnsTaken]
  | cons first turns ih =>
      obtain ⟨hsurvived, hrunning⟩ := step_running_iff (F := F) (H := H) (w := w) hs first
      have htaken : ∀ t, t ∈ turnsTaken (first :: turns) ↔
          ends first = false ∧ (t = first ∨ t ∈ turnsTaken turns) := by
        intro t
        unfold turnsTaken
        cases hends : ends first <;> simp [hends]
      constructor
      · intro h t ht
        have hfirst := hsurvived.mp (h [] first turns rfl hs)
        obtain ⟨hends, rfl | ht⟩ := (htaken t).mp ht
        · exact hfirst
        · refine (ih (hrunning.mpr ⟨hfirst, hends⟩)).mp (fun before u after heq => ?_) t ht
          exact h (first :: before) u after (congrArg (first :: ·) heq)
      · intro h before t after heq hgoes
        cases before with
        | nil =>
            cases heq
            refine hsurvived.mpr ?_
            cases hends : ends first with
            | true => exact turnCompilable_of_ends hends
            | false => exact h first ((htaken first).mpr ⟨hends, .inl rfl⟩)
        | cons b before =>
            cases heq
            by_cases hstep : (w.step F H s first).status = .running
            · have hrest := fun t ht => h t ((htaken t).mpr ⟨(hrunning.mp hstep).2, .inr ht⟩)
              exact (ih hstep).mpr hrest before t after rfl hgoes
            · -- the loop is left, and stays left
              rw [List.foldl_cons, foldl_step_stopped hstep] at hgoes
              exact absurd hgoes hstep

/-- A worker survives the messages of a run if and only if every dispatch in front of the first
Shutdown, or of the first error of the transport, carries a request whose source can be parsed and
which the machine has the stack and the memory for.
SOURCE: Distributed.cpp:67-106, Protocol.cpp:171-185 -/
theorem survives_iff (F : Doubles V) (H : Bytes → Digest) (w : DistributedWorker)
    (turns : List WorkerTurn) :
    Survives F H w turns ↔ ∀ t ∈ turnsTaken turns, TurnCompilable t :=
  survives_from_iff (s := {}) rfl turns

/-- A dispatch without a payload. -/
def emptyDispatch : WorkerTurn where
  received := .ok { type := .DispatchCompile }
  fits f hf := by
    cases hf
    decide
  nanos := 0
  durationMs := 0
  stages := []
  stackHolds := fun _ => true
  allocates := fun _ _ => true

/-- It is the last message that the worker receives. -/
theorem not_survives :
    ¬ ∀ (V : Type) (F : Doubles V) (H : Bytes → Digest) (w : DistributedWorker)
        (turns : List WorkerTurn), Survives F H w turns := by
  intro hall
  have hsurvived := hall ℚ exactDoubles (fun _ => .zero) ⟨1, {}⟩ [emptyDispatch] [] emptyDispatch []
    rfl rfl
  obtain ⟨hrunning, -⟩ := hsurvived.answers _ rfl rfl
  cases hrunning

end CompilationFabric.Analysis
