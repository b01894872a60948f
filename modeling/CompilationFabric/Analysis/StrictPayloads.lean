import CompilationFabric.Interface.RecordFile
import CompilationFabric.Interface.RequestJson
import CompilationFabric.Interface.ViewReads
import CompilationFabric.Model.Dispatch

/-!
# What the payload decoders accept

The payload decoders skip an envelope and read the fields behind it.  They do not ask whether the
envelope was there: when the payload is too short for one the cursor has not moved, and the
fields are read from the first byte.  Nor do they ask whether anything is left behind the fields.

`accepts_iff` is acceptance as it is, and `decodes_strictly_iff` names the two kinds of payload
that are accepted without being what the encoder writes.
-/

set_option autoImplicit false

namespace CompilationFabric.Analysis

open CompilationFabric.Interface
open CompilationFabric.Model

/-! ## Payloads -/

/-- The three payloads that carry a request or a result. -/
inductive PayloadKind where
  | submit | dispatch | result
  deriving DecidableEq

/-- The decoder of the kind returns a value. -/
def Accepts : PayloadKind → Bytes → Prop
  | .submit, p => ∃ req, decodeSubmit p = .ok (.ok req)
  | .dispatch, p => ∃ d, decodeDispatch p = .ok (.ok d)
  | .result, p => ∃ res, decodeResult p = .ok (.ok res)

/-- The fields that the encoder of the kind writes behind the envelope. -/
def Fields : PayloadKind → Bytes → Prop
  | .submit, b => ∃ js, (Json.parse js).isSome ∧ b = CanonicalWriter.string js
  | .dispatch, b => ∃ js kb, (Json.parse js).isSome ∧
      b = CanonicalWriter.string js ++ CanonicalWriter.string kb
  | .result, b => ∃ js ab, (Json.parse js).isSome ∧
      b = CanonicalWriter.string js ++ CanonicalWriter.string ab

/-- A complete envelope, the fields, and nothing else.
SOURCE: docs/protocol.md:3-8 -/
def Strict (k : PayloadKind) (p : Bytes) : Prop :=
  ∃ (e : ProtoEnvelope) (b : Bytes), Fields k b ∧ p = e.encode ++ b

/-- A text that is the JSON of a request. -/
def RequestText (js : Bytes) : Prop :=
  ∃ j req, Json.parse js = some j ∧ CompilationRequest.fromJson j = some req

/-- The fields hold what the decoder of the kind wants of them. -/
def Decodes : PayloadKind → Bytes → Prop
  | .submit, b => ∃ js, RequestText js ∧ b = CanonicalWriter.string js
  | .dispatch, b => ∃ js kb, RequestText js ∧ (CompilationKey.fromCanonicalBytes kb).isSome ∧
      b = CanonicalWriter.string js ++ CanonicalWriter.string kb
  | .result, b => Fields .result b

/-- INTERNAL: what decodes has its fields. -/
theorem Decodes.fields {k : PayloadKind} {b : Bytes} (h : Decodes k b) : Fields k b := by
  cases k with
  | submit =>
      obtain ⟨js, ⟨j, -, hj, -⟩, rfl⟩ := h
      exact ⟨js, by simp [hj], rfl⟩
  | dispatch =>
      obtain ⟨js, kb, ⟨j, -, hj, -⟩, -, rfl⟩ := h
      exact ⟨js, kb, by simp [hj], rfl⟩
  | result => exact h

/-- The fields end where they end, whatever follows. -/
theorem Fields.rest_unique {k : PayloadKind} {b b' tl tl' : Bytes} (h : Fields k b)
    (h' : Fields k b') (hsize : (b ++ tl).length < sizeMod) (heq : b ++ tl = b' ++ tl') :
    tl = tl' := by
  cases k with
  | submit =>
      obtain ⟨js, -, rfl⟩ := h
      obtain ⟨js', -, rfl⟩ := h'
      exact (string_append_inj hsize heq).2
  | dispatch =>
      obtain ⟨js, kb, -, rfl⟩ := h
      obtain ⟨js', kb', -, rfl⟩ := h'
      rw [List.append_assoc, List.append_assoc] at heq
      rw [List.append_assoc] at hsize
      have hrest := (string_append_inj hsize heq).2
      rw [List.length_append] at hsize
      exact (string_append_inj (by omega) hrest).2
  | result =>
      obtain ⟨js, ab, -, rfl⟩ := h
      obtain ⟨js', ab', -, rfl⟩ := h'
      rw [List.append_assoc, List.append_assoc] at heq
      rw [List.append_assoc] at hsize
      have hrest := (string_append_inj hsize heq).2
      rw [List.length_append] at hsize
      exact (string_append_inj (by omega) hrest).2

/-! ## The envelope in front -/

/-- INTERNAL: any sixteen bytes are those of an id. -/
theorem exists_u128 {bs : Bytes} (h : 16 ≤ bs.length) :
    ∃ v tl, bs = CanonicalWriter.u128 v ++ tl := by
  obtain ⟨hi, tl₁, rfl⟩ := exists_u64 (by omega : 8 ≤ bs.length)
  rw [List.length_append, CanonicalWriter.length_u64] at h
  obtain ⟨lo, tl₂, rfl⟩ := exists_u64 (by omega : 8 ≤ tl₁.length)
  exact ⟨⟨hi, lo⟩, tl₂, by simp [CanonicalWriter.u128]⟩

/-- Any bytes of the right number are an envelope. -/
theorem exists_encode {b : Bytes} (h : b.length = kEnvelopeSize) :
    ∃ e : ProtoEnvelope, e.encode = b := by
  unfold kEnvelopeSize at h
  obtain ⟨epoch, t₁, rfl⟩ := exists_u64 (by omega : 8 ≤ b.length)
  rw [List.length_append, CanonicalWriter.length_u64] at h
  obtain ⟨workerId, t₂, rfl⟩ := exists_u32 (by omega : 4 ≤ t₁.length)
  rw [List.length_append, CanonicalWriter.length_u32] at h
  obtain ⟨boot, t₃, rfl⟩ := exists_u128 (by omega : 16 ≤ t₂.length)
  rw [List.length_append, CanonicalWriter.length_u128] at h
  obtain ⟨cacheGen, t₄, rfl⟩ := exists_u64 (by omega : 8 ≤ t₃.length)
  rw [List.length_append, CanonicalWriter.length_u64] at h
  obtain ⟨toolchainGen, t₅, rfl⟩ := exists_u64 (by omega : 8 ≤ t₄.length)
  rw [List.length_append, CanonicalWriter.length_u64] at h
  obtain ⟨rid, t₆, rfl⟩ := exists_u128 (by omega : 16 ≤ t₅.length)
  rw [List.length_append, CanonicalWriter.length_u128] at h
  obtain ⟨aid, t₇, rfl⟩ := exists_u128 (by omega : 16 ≤ t₆.length)
  rw [List.length_append, CanonicalWriter.length_u128] at h
  obtain ⟨arid, t₈, rfl⟩ := exists_u128 (by omega : 16 ≤ t₇.length)
  rw [List.length_append, CanonicalWriter.length_u128] at h
  obtain ⟨artifactGen, t₉, rfl⟩ := exists_u64 (by omega : 8 ≤ t₈.length)
  rw [List.length_append, CanonicalWriter.length_u64] at h
  have hend : t₉ = [] := List.length_eq_zero_iff.mp (by omega)
  refine ⟨⟨epoch, workerId, ⟨boot⟩, cacheGen, toolchainGen, ⟨rid⟩, ⟨aid⟩, ⟨arid⟩, artifactGen⟩, ?_⟩
  simp [ProtoEnvelope.encode, hend]

/-- Where the fields are read from: behind the envelope, or at the first byte when the payload
is too short for one.
SOURCE: Protocol.cpp:23-29 -/
theorem readEnvelope_cases {p : Bytes} (hp : p.length ≤ maxObjectSize) :
    ∃ pre rest, p = pre ++ rest ∧ (readEnvelope ⟨p, 0⟩ {}).2.2 = CanonicalReader.after pre rest ∧
      (p.length < kEnvelopeSize ∧ pre = [] ∨ pre.length = kEnvelopeSize) := by
  have hmod : kEnvelopeSize % sizeMod = kEnvelopeSize := by decide
  by_cases hshort : p.length < kEnvelopeSize
  · refine ⟨[], p, rfl, ?_, Or.inl ⟨hshort, rfl⟩⟩
    have hover : CanonicalReader.overruns ⟨p, 0⟩ kEnvelopeSize := by
      unfold CanonicalReader.overruns
      rw [Nat.zero_add, hmod]
      exact hshort
    rw [readEnvelope, CanonicalReader.rawBlob, if_pos hover]
    rfl
  · have hlen : (p.take kEnvelopeSize).length = kEnvelopeSize := by
      rw [List.length_take]
      omega
    obtain ⟨e, he⟩ := exists_encode hlen
    have hsplit : p = e.encode ++ p.drop kEnvelopeSize := by
      rw [he, List.take_append_drop]
    refine ⟨e.encode, p.drop kEnvelopeSize, hsplit, ?_, Or.inr (length_encode e)⟩
    have hsize : (e.encode ++ p.drop kEnvelopeSize).length < sizeMod := by
      rw [← hsplit]
      exact lt_sizeMod hp
    rw [← reader_readEnvelope e hsize, ← hsplit]

/-! ## Acceptance -/

section Acceptance

variable {p pre rest : Bytes}

/-- A blob that is as long as its length says stands there with its length in front: a length
that wraps gives out fewer bytes. -/
theorem checkedBlob_eq_some {len : UInt64} {base rd : CanonicalReader} {out : Bytes}
    (hsize : (pre ++ rest).length ≤ maxObjectSize)
    (hlen : (CanonicalReader.after pre rest).u64 = some (len, base))
    (hraw : base.rawBlob len.toNat = some (out, rd)) (hout : out.length = len.toNat) :
    ∃ tl, rest = CanonicalWriter.string out ++ tl := by
  have hsize' := add_lt_sizeMod hsize
  obtain ⟨tl₁, rfl, rfl⟩ := u64_eq_some hsize' hlen
  obtain ⟨tl, rfl, -, -⟩ | ⟨rfl, hlong, -, -⟩ :=
    rawBlob_cases (by simpa using hsize) len.toNat_lt hraw
  · refine ⟨tl, ?_⟩
    rw [CanonicalWriter.string, hout, UInt64.ofNat_toNat, List.append_assoc]
  · exact absurd hout hlong.ne

/-- INTERNAL: a blob behind its length is read back. -/
theorem checkedBlob_after (pre s tl : Bytes)
    (hsize : (pre ++ (CanonicalWriter.string s ++ tl)).length < sizeMod) :
    ∃ base rd, (CanonicalReader.after pre (CanonicalWriter.string s ++ tl)).u64 =
        some (.ofNat s.length, base) ∧ (UInt64.ofNat s.length).toNat = s.length ∧
      base.rawBlob s.length = some (s, rd) := by
  unfold CanonicalWriter.string at hsize ⊢
  rw [List.append_assoc] at hsize ⊢
  have hnat : (UInt64.ofNat s.length).toNat = s.length := by
    rw [UInt64.toNat_ofNat']
    simp only [List.length_append, sizeMod] at hsize
    omega
  exact ⟨_, _, CanonicalReader.u64_after pre (s ++ tl) hsize, hnat,
    CanonicalReader.rawBlob_after _ s tl (by simpa using hsize) rfl⟩

/-- INTERNAL: what a Submit is read from.
SOURCE: Protocol.cpp:150-160 -/
theorem accepts_submit (hsize : (pre ++ rest).length ≤ maxObjectSize)
    (hread : (readEnvelope ⟨p, 0⟩ {}).2.2 = CanonicalReader.after pre rest) :
    Accepts .submit p ↔ ∃ b tl, Decodes .submit b ∧ rest = b ++ tl := by
  have hsize' := add_lt_sizeMod hsize
  constructor
  · rintro ⟨req, h⟩
    simp only [decodeSubmit, hread] at h
    obtain ⟨read, hstr, hfields⟩ := bind_eq_ok h
    split at hfields
    · cases hfields
    next js rd =>
    obtain ⟨tl, rfl, -⟩ := str_eq_some hsize' hstr
    split at hfields
    · cases hfields
    next j hj =>
    split at hfields
    · cases hfields
    next req hreq =>
    exact ⟨_, tl, ⟨js, ⟨j, req, hj, hreq⟩, rfl⟩, rfl⟩
  · rintro ⟨b, tl, ⟨js, ⟨j, req, hj, hreq⟩, rfl⟩, rfl⟩
    have hstr := CanonicalReader.str_after pre tl (s := js) (by omega)
    refine ⟨req, ?_⟩
    simp only [decodeSubmit, hread, hstr, hj, hreq, bind, Except.bind]
    rfl

/-- What a Dispatch is read from.
SOURCE: Protocol.cpp:171-185 -/
theorem decodeDispatch_eq_ok_iff (hsize : (pre ++ rest).length ≤ maxObjectSize)
    (hread : (readEnvelope ⟨p, 0⟩ {}).2.2 = CanonicalReader.after pre rest)
    {req : CompilationRequest} {key : CompilationKey} :
    decodeDispatch p = .ok (.ok (req, key)) ↔ ∃ js kb tl j, Json.parse js = some j ∧
      CompilationRequest.fromJson j = some req ∧ CompilationKey.fromCanonicalBytes kb = some key ∧
        rest = CanonicalWriter.string js ++ (CanonicalWriter.string kb ++ tl) := by
  have hsize' := add_lt_sizeMod hsize
  constructor
  · intro h
    simp only [decodeDispatch, hread] at h
    obtain ⟨read, hstr, hfields⟩ := bind_eq_ok h
    split at hfields
    · cases hfields
    next js rd =>
    obtain ⟨tl, rfl, rfl⟩ := str_eq_some hsize' hstr
    split at hfields
    · cases hfields
    next j hj =>
    split at hfields
    · cases hfields
    next req hreq =>
    split at hfields
    · cases hfields
    next len base hlen =>
    split at hfields
    · cases hfields
    next kb rd hraw =>
    split at hfields
    · cases hfields
    next hkb =>
    obtain ⟨tl', rfl⟩ := checkedBlob_eq_some (by simpa using hsize) hlen hraw (not_not.mp hkb)
    split at hfields
    · cases hfields
    next key hkey =>
    cases hfields
    exact ⟨js, kb, tl', j, hj, hreq, hkey, rfl⟩
  · rintro ⟨js, kb, tl, j, hj, hreq, hkey, rfl⟩
    have hstr := CanonicalReader.str_after pre (CanonicalWriter.string kb ++ tl) (s := js)
      (by omega)
    obtain ⟨base, rd, hlen, hnat, hraw⟩ := checkedBlob_after (pre ++ CanonicalWriter.string js) kb tl
      (by rw [List.append_assoc]; omega)
    simp only [decodeDispatch, hread, hstr, hj, hreq, hlen, hnat, hraw, hkey, bind, Except.bind,
      ne_eq, not_true_eq_false, if_false]
    rfl

/-- INTERNAL: a Dispatch is accepted with what it is read from. -/
theorem accepts_dispatch (hsize : (pre ++ rest).length ≤ maxObjectSize)
    (hread : (readEnvelope ⟨p, 0⟩ {}).2.2 = CanonicalReader.after pre rest) :
    Accepts .dispatch p ↔ ∃ b tl, Decodes .dispatch b ∧ rest = b ++ tl := by
  constructor
  · rintro ⟨⟨req, key⟩, h⟩
    obtain ⟨js, kb, tl, j, hj, hreq, hkey, rfl⟩ := (decodeDispatch_eq_ok_iff hsize hread).mp h
    exact ⟨_, tl, ⟨js, kb, ⟨j, req, hj, hreq⟩, by simp [hkey], rfl⟩, (List.append_assoc ..).symm⟩
  · rintro ⟨b, tl, ⟨js, kb, ⟨j, req, hj, hreq⟩, hkey, rfl⟩, rfl⟩
    obtain ⟨key, hkey⟩ := Option.isSome_iff_exists.mp hkey
    refine ⟨(req, key), (decodeDispatch_eq_ok_iff hsize hread).mpr ?_⟩
    exact ⟨js, kb, tl, j, hj, hreq, hkey, List.append_assoc ..⟩

/-- INTERNAL: what a Result is read from.
SOURCE: Protocol.cpp:216-240 -/
theorem accepts_result (hsize : (pre ++ rest).length ≤ maxObjectSize)
    (hread : (readEnvelope ⟨p, 0⟩ {}).2.2 = CanonicalReader.after pre rest) :
    Accepts .result p ↔ ∃ b tl, Decodes .result b ∧ rest = b ++ tl := by
  have hsize' := add_lt_sizeMod hsize
  constructor
  · rintro ⟨res, h⟩
    simp only [decodeResult, hread] at h
    obtain ⟨read, hstr, hfields⟩ := bind_eq_ok h
    split at hfields
    · cases hfields
    next js rd =>
    obtain ⟨tl, rfl, rfl⟩ := str_eq_some hsize' hstr
    split at hfields
    · cases hfields
    next j hj =>
    split at hfields
    · cases hfields
    next len base hlen =>
    split at hfields
    · cases hfields
    next ab rd hraw =>
    split at hfields
    · cases hfields
    next hab =>
    obtain ⟨tl', rfl⟩ := checkedBlob_eq_some (by simpa using hsize) hlen hraw (not_not.mp hab)
    refine ⟨_, tl', ⟨js, ab, by simp [hj], rfl⟩, ?_⟩
    rw [List.append_assoc]
  · rintro ⟨b, tl, ⟨js, ab, hj, rfl⟩, rfl⟩
    obtain ⟨j, hj⟩ := Option.isSome_iff_exists.mp hj
    rw [List.append_assoc] at hread hsize'
    have hstr := CanonicalReader.str_after pre (CanonicalWriter.string ab ++ tl) (s := js)
      (by omega)
    obtain ⟨base, rd, hlen, hnat, hraw⟩ := checkedBlob_after (pre ++ CanonicalWriter.string js) ab tl
      (by rw [List.append_assoc]; omega)
    simp only [Accepts, decodeResult, hread, hstr, hj, hlen, hnat, hraw, bind, Except.bind,
      ne_eq, not_true_eq_false, if_false]
    exact ⟨_, rfl⟩

/-- A payload is accepted exactly when the fields begin where the envelope's reading stopped;
what comes behind them does not matter. -/
theorem accepts_iff (k : PayloadKind) (hsize : (pre ++ rest).length ≤ maxObjectSize)
    (hread : (readEnvelope ⟨p, 0⟩ {}).2.2 = CanonicalReader.after pre rest) :
    Accepts k p ↔ ∃ b tl, Decodes k b ∧ rest = b ++ tl := by
  cases k with
  | submit => exact accepts_submit hsize hread
  | dispatch => exact accepts_dispatch hsize hread
  | result => exact accepts_result hsize hread

end Acceptance

/-! ## Strictness -/

/-- The payloads that are accepted though they are not what the encoder writes. -/
inductive Misread (k : PayloadKind) (p : Bytes) : Prop where
  /-- The fields stand at the first byte, of a payload that is too short for an envelope. -/
  | headless (b tl : Bytes) (hshort : p.length < kEnvelopeSize) (hb : Decodes k b)
      (heq : p = b ++ tl)
  /-- Something follows the fields. -/
  | overlong (env b tl : Bytes) (henv : env.length = kEnvelopeSize) (hb : Decodes k b)
      (htl : tl ≠ []) (heq : p = env ++ (b ++ tl))

variable {k : PayloadKind} {p : Bytes}

/-- What is misread is accepted. -/
theorem Misread.accepts (hp : p.length ≤ maxObjectSize) (h : Misread k p) : Accepts k p := by
  obtain ⟨pre, rest, hsplit, hread, hpre⟩ := readEnvelope_cases hp
  rw [accepts_iff k (hsplit ▸ hp) hread]
  cases h with
  | headless b tl hshort hb heq =>
      obtain ⟨-, rfl⟩ | hlen := hpre
      · rw [List.nil_append] at hsplit
        exact ⟨b, tl, hb, hsplit ▸ heq⟩
      · rw [hsplit, List.length_append] at hshort
        omega
  | overlong env b tl henv hb htl heq =>
      have hlong : kEnvelopeSize ≤ p.length := by
        rw [heq, List.length_append]
        omega
      obtain ⟨hshort, -⟩ | hlen := hpre
      · omega
      · have happend := List.append_inj (hsplit.symm.trans heq) (hlen.trans henv.symm)
        exact ⟨b, tl, hb, happend.2⟩

/-- What is misread is not strict. -/
theorem Misread.not_strict (hp : p.length ≤ maxObjectSize) (h : Misread k p) : ¬ Strict k p := by
  rintro ⟨e, b', hb', hstrict⟩
  have hencode := length_encode e
  cases h with
  | headless b tl hshort hb heq =>
      rw [hstrict, List.length_append] at hshort
      omega
  | overlong env b tl henv hb htl heq =>
      have happend := List.append_inj (heq.symm.trans hstrict) (henv.trans hencode.symm)
      have hfields : b ++ tl = b' ++ [] := by rw [happend.2, List.append_nil]
      apply htl
      apply hb.fields.rest_unique hb' _ hfields
      rw [heq, List.length_append] at hp
      simp only [maxObjectSize, sizeMod] at hp ⊢
      omega

/-- A payload that is accepted is an envelope with its fields, or one of the misread kinds. -/
theorem strict_or_misread (hp : p.length ≤ maxObjectSize) (h : Accepts k p) :
    Strict k p ∨ Misread k p := by
  obtain ⟨pre, rest, hsplit, hread, hpre⟩ := readEnvelope_cases hp
  obtain ⟨b, tl, hb, rfl⟩ := (accepts_iff k (hsplit ▸ hp) hread).mp h
  obtain ⟨hshort, rfl⟩ | hlen := hpre
  · exact Or.inr (.headless b tl hshort hb hsplit)
  · by_cases htl : tl = []
    · obtain ⟨e, he⟩ := exists_encode hlen
      refine Or.inl ⟨e, b, hb.fields, ?_⟩
      rw [hsplit, he, htl, List.append_nil]
    · exact Or.inr (.overlong pre b tl hlen hb htl hsplit)

/-- A payload decodes strictly exactly if it is not misread: not too short for an envelope with
the fields at its first byte, and without anything behind its fields.
SOURCE: Protocol.cpp:150-240 -/
theorem decodes_strictly_iff (hp : p.length ≤ maxObjectSize) :
    (Accepts k p → Strict k p) ↔ ¬ Misread k p := by
  constructor
  · intro hstrict hmisread
    exact hmisread.not_strict hp (hstrict (hmisread.accepts hp))
  · intro hmisread haccepts
    exact (strict_or_misread hp haccepts).resolve_right hmisread

/-- What a client writes is accepted, and it is strict. -/
theorem accepts_encodeSubmit (env : ProtoEnvelope) (r : CompilationRequest)
    (hsize : (encodeSubmit env r).length < sizeMod) :
    Accepts .submit (encodeSubmit env r) ∧ Strict .submit (encodeSubmit env r) := by
  have hparse : (Json.parse r.toJson.dump).isSome := by
    rw [parse_dump_request, Option.isSome_some]
  have haccepts : ∃ req, decodeSubmit (encodeSubmit env r) = .ok (.ok req) :=
    ⟨wireRequest r, decodeSubmit_encodeSubmit env r hsize⟩
  exact ⟨haccepts, env, CanonicalWriter.string r.toJson.dump, ⟨_, hparse, rfl⟩, rfl⟩

/-- A request with a source, in its second epoch. -/
def writtenSubmit : Bytes := encodeSubmit { epoch := 2 } { source := ascii "add" }

/-- It is accepted, strictly, and so it is not misread. -/
theorem decodes_strictly_iff_written :
    Accepts .submit writtenSubmit ∧ Strict .submit writtenSubmit ∧
      ¬ Misread .submit writtenSubmit := by
  have hp : writtenSubmit.length ≤ maxObjectSize := by decide +kernel
  obtain ⟨haccepts, hstrict⟩ := accepts_encodeSubmit { epoch := 2 } { source := ascii "add" }
    (lt_sizeMod hp)
  exact ⟨haccepts, hstrict, (decodes_strictly_iff hp).mp fun _ => hstrict⟩

/-- An empty JSON object with its length in front, and no envelope. -/
def headlessSubmit : Bytes := CanonicalWriter.string (ascii "\x7b\x7d")

/-- It is accepted as a request. -/
theorem not_decodes_strictly :
    Accepts .submit headlessSubmit ∧ ¬ Strict .submit headlessSubmit := by
  have hp : headlessSubmit.length ≤ maxObjectSize := by decide +kernel
  have hmisread : Misread .submit headlessSubmit := by
    have htext : RequestText (ascii "\x7b\x7d") := ⟨.object [], _, by rfl, rfl⟩
    exact .headless headlessSubmit [] (by decide +kernel) ⟨_, htext, rfl⟩ (by simp)
  exact ⟨hmisread.accepts hp, hmisread.not_strict hp⟩

end CompilationFabric.Analysis
