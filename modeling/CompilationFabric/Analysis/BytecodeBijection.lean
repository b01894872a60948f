import CompilationFabric.Interface.RecordFile
import CompilationFabric.Model.CpuBytecode
import CompilationFabric.Model.ReaderCalls

/-!
# The bytecode format

`encode` and `decode` of the CPU backend are inverse to each other, on programs of one to 4096
operations and on the artifacts that are accepted.  Every part of the decoder is described twice,
by what it makes of the bytes that its encoder wrote (`_after`) and by what it must have been
given to succeed (`_eq_ok`); `bytecode_bijective` puts the parts together.

A name length that wraps the cursor ends the decoding with an exception, so it is not accepted.
-/

set_option autoImplicit false

namespace CompilationFabric.Analysis

open CompilationFabric.Interface
open CompilationFabric.Model
open CompilationFabric.Model.CpuBackend

variable {pre bs : Bytes} {rd : CanonicalReader}

/-- INTERNAL: a field is there when no error is raised. -/
theorem orCorrupt_eq_ok {α : Type} {field : Option α} {message : String} {a : α} :
    orCorrupt field message = .ok a ↔ field = some a := by
  cases field <;> simp [orCorrupt, Err]

/-! ## The header -/

/-- The magic number and the version. -/
def headerBytes : Bytes := CanonicalWriter.u32 kCpuMagic ++ CanonicalWriter.u32 kCpuVersion

/-- INTERNAL: the header is read back. -/
theorem decodeHeader_after {tl : Bytes} (hsize : (headerBytes ++ tl).length < sizeMod) :
    decodeHeader ⟨headerBytes ++ tl, 0⟩ = .ok (CanonicalReader.after headerBytes tl) := by
  unfold headerBytes at hsize ⊢
  rw [List.append_assoc] at hsize ⊢
  have hmagic := CanonicalReader.u32_after [] _ hsize
  have hversion := CanonicalReader.u32_after (CanonicalWriter.u32 kCpuMagic) _ hsize
  rw [List.nil_append, CanonicalReader.after_nil] at hmagic
  unfold decodeHeader
  simp only [hmagic, hversion, ne_eq, not_true_eq_false, if_false]

/-- INTERNAL: a header that is accepted stood there. -/
theorem decodeHeader_eq_ok (hsize : bs.length + 8 < sizeMod)
    (h : decodeHeader ⟨bs, 0⟩ = .ok rd) :
    ∃ tl, bs = headerBytes ++ tl ∧ rd = CanonicalReader.after headerBytes tl := by
  unfold decodeHeader at h
  split at h
  · cases h
  next magic rd₁ hmagic =>
  rw [← CanonicalReader.after_nil] at hmagic
  obtain ⟨tl₁, rfl, rfl⟩ := u32_eq_some (by rw [List.nil_append]; omega) hmagic
  split at h
  · cases h
  next hmagic' =>
  split at h
  · cases h
  next version rd₂ hversion =>
  obtain ⟨tl₂, rfl, rfl⟩ := u32_eq_some (by simp at hsize ⊢; omega) hversion
  split at h
  · cases h
  next hversion' =>
  cases h
  refine ⟨tl₂, ?_, ?_⟩
  · rw [headerBytes, not_not.mp hmagic', not_not.mp hversion', List.append_assoc]
  · rw [headerBytes, not_not.mp hmagic', not_not.mp hversion', List.nil_append]

/-! ## The shape -/

/-- The fields of fixed width between the two strings. -/
def shapeBytes (shapeN : UInt64) (datatype : UInt8) (alignment : UInt32) : Bytes :=
  CanonicalWriter.u64 shapeN ++ CanonicalWriter.u8 datatype ++ CanonicalWriter.u32 alignment

/-- INTERNAL: the shape is read back. -/
theorem decodeShape_after (pre : Bytes) {tl : Bytes} {shapeN : UInt64} {datatype : UInt8}
    {alignment : UInt32}
    (hsize : (pre ++ (shapeBytes shapeN datatype alignment ++ tl)).length < sizeMod) :
    decodeShape (CanonicalReader.after pre (shapeBytes shapeN datatype alignment ++ tl)) =
      .ok ((shapeN, datatype, alignment),
        CanonicalReader.after (pre ++ shapeBytes shapeN datatype alignment) tl) := by
  unfold shapeBytes at hsize ⊢
  simp only [List.append_assoc] at hsize ⊢
  have hshape := CanonicalReader.u64_after pre _ hsize
  have hdatatype := CanonicalReader.u8_after (pre ++ CanonicalWriter.u64 shapeN) _ (v := datatype)
    (by rw [List.append_assoc]; exact hsize)
  have halign := CanonicalReader.u32_after (pre ++ CanonicalWriter.u64 shapeN ++
    CanonicalWriter.u8 datatype) tl (v := alignment) (by simp only [List.append_assoc]; exact hsize)
  unfold decodeShape
  simp only [hshape, hdatatype, halign, orCorrupt, bind, Except.bind, pure, Except.pure]
  simp only [List.append_assoc]

/-- INTERNAL: a shape that is accepted stood there. -/
theorem decodeShape_eq_ok {shapeN : UInt64} {datatype : UInt8} {alignment : UInt32}
    (hsize : (pre ++ bs).length + 8 < sizeMod)
    (h : decodeShape (CanonicalReader.after pre bs) = .ok ((shapeN, datatype, alignment), rd)) :
    ∃ tl, bs = shapeBytes shapeN datatype alignment ++ tl ∧
      rd = CanonicalReader.after (pre ++ shapeBytes shapeN datatype alignment) tl := by
  unfold decodeShape at h
  obtain ⟨⟨shape, rd₁⟩, hshape, h⟩ := bind_eq_ok h
  obtain ⟨tl₁, rfl, rfl⟩ := u64_eq_some hsize (orCorrupt_eq_ok.mp hshape)
  obtain ⟨⟨dt, rd₂⟩, hdt, h⟩ := bind_eq_ok h
  obtain ⟨tl₂, rfl, rfl⟩ := u8_eq_some (by simp at hsize ⊢; omega) (orCorrupt_eq_ok.mp hdt)
  obtain ⟨⟨align, rd₃⟩, halign, h⟩ := bind_eq_ok h
  obtain ⟨tl₃, rfl, rfl⟩ := u32_eq_some (by simp at hsize ⊢; omega) (orCorrupt_eq_ok.mp halign)
  cases h
  exact ⟨tl₃, by simp [shapeBytes], by simp [shapeBytes]⟩

/-! ## The operations -/

/-- INTERNAL: an operation is read back. -/
theorem decodeOp_after {tl : Bytes} (op : StoredOp)
    (hsize : (pre ++ (encodeStoredOp op ++ tl)).length < sizeMod) :
    decodeOp (CanonicalReader.after pre (encodeStoredOp op ++ tl)) =
      .ok (op, CanonicalReader.after (pre ++ encodeStoredOp op) tl) := by
  unfold encodeStoredOp at hsize ⊢
  simp only [List.append_assoc] at hsize ⊢
  have hkind := CanonicalReader.u8_after pre _ hsize
  have hscalar := CanonicalReader.u64_after (pre ++ CanonicalWriter.u8 op.kind) _ (v := op.scalar)
    (by rw [List.append_assoc]; exact hsize)
  have hn := CanonicalReader.u32_after (pre ++ CanonicalWriter.u8 op.kind ++
    CanonicalWriter.u64 op.scalar) tl (v := op.n) (by simp only [List.append_assoc]; exact hsize)
  unfold decodeOp
  simp only [hkind, hscalar, hn, orCorrupt, bind, Except.bind, pure, Except.pure]
  simp only [List.append_assoc]

/-- INTERNAL: an operation that is accepted stood there. -/
theorem decodeOp_eq_ok {op : StoredOp} (hsize : (pre ++ bs).length + 8 < sizeMod)
    (h : decodeOp (CanonicalReader.after pre bs) = .ok (op, rd)) :
    ∃ tl, bs = encodeStoredOp op ++ tl ∧
      rd = CanonicalReader.after (pre ++ encodeStoredOp op) tl := by
  unfold decodeOp at h
  obtain ⟨⟨kind, rd₁⟩, hkind, h⟩ := bind_eq_ok h
  obtain ⟨tl₁, rfl, rfl⟩ := u8_eq_some (by omega) (orCorrupt_eq_ok.mp hkind)
  obtain ⟨⟨scalar, rd₂⟩, hscalar, h⟩ := bind_eq_ok h
  obtain ⟨tl₂, rfl, rfl⟩ := u64_eq_some (by simp at hsize ⊢; omega) (orCorrupt_eq_ok.mp hscalar)
  obtain ⟨⟨n, rd₃⟩, hn, h⟩ := bind_eq_ok h
  obtain ⟨tl₃, rfl, rfl⟩ := u32_eq_some (by simp at hsize ⊢; omega) (orCorrupt_eq_ok.mp hn)
  cases h
  exact ⟨tl₃, by simp [encodeStoredOp], by simp [encodeStoredOp]⟩

/-- INTERNAL: the loop reads back the operations that were written. -/
theorem decodeOps_after {tl : Bytes} (pre : Bytes) (ops : List StoredOp)
    (hsize : (pre ++ (ops.flatMap encodeStoredOp ++ tl)).length < sizeMod) :
    decodeOps ops.length (CanonicalReader.after pre (ops.flatMap encodeStoredOp ++ tl)) =
      .ok (ops, CanonicalReader.after (pre ++ ops.flatMap encodeStoredOp) tl) := by
  induction ops generalizing pre with
  | nil => simp [decodeOps]
  | cons op ops ih =>
      rw [List.flatMap_cons, List.append_assoc] at hsize
      have hop := decodeOp_after op hsize
      have hops := ih (pre ++ encodeStoredOp op) (by rw [List.append_assoc]; exact hsize)
      rw [List.length_cons, decodeOps, List.flatMap_cons, List.append_assoc, hop]
      simp only [hops, bind, Except.bind, pure, Except.pure, List.append_assoc]

/-- INTERNAL: the loop takes as many operations as it counts, by induction on the count. -/
theorem decodeOps_eq_ok {n : ℕ} {ops : List StoredOp} (hsize : (pre ++ bs).length + 8 < sizeMod)
    (h : decodeOps n (CanonicalReader.after pre bs) = .ok (ops, rd)) :
    ∃ tl, ops.length = n ∧ bs = ops.flatMap encodeStoredOp ++ tl ∧
      rd = CanonicalReader.after (pre ++ ops.flatMap encodeStoredOp) tl := by
  induction n generalizing pre bs ops rd with
  | zero =>
      cases h
      exact ⟨bs, by simp⟩
  | succ n ih =>
      obtain ⟨⟨op, rd₁⟩, hop, h⟩ := bind_eq_ok h
      obtain ⟨tl₁, rfl, rfl⟩ := decodeOp_eq_ok hsize hop
      obtain ⟨⟨rest, rd₂⟩, hrest, h⟩ := bind_eq_ok h
      rw [← List.append_assoc] at hsize
      obtain ⟨tl, hn, rfl, rfl⟩ := ih hsize hrest
      cases h
      exact ⟨tl, by simp [hn], by simp, by simp⟩

/-- The count and the operations, which end the artifact. -/
def bodyBytes (ops : List StoredOp) : Bytes :=
  CanonicalWriter.u32 (UInt32.ofNat ops.length) ++ ops.flatMap encodeStoredOp

/-- INTERNAL: the operations are read back. -/
theorem decodeBody_after (pre : Bytes) {ops : List StoredOp} (hne : ops ≠ [])
    (hle : ops.length ≤ 4096) (hsize : (pre ++ bodyBytes ops).length < sizeMod) :
    decodeBody (CanonicalReader.after pre (bodyBytes ops)) = .ok ops := by
  unfold bodyBytes at hsize ⊢
  have hnat : (UInt32.ofNat ops.length).toNat = ops.length := by
    rw [UInt32.toNat_ofNat']
    omega
  have hrange : ¬ UInt32.ofNat ops.length > 4096 := by
    have h4096 : (4096 : UInt32).toNat = 4096 := rfl
    rw [gt_iff_lt, UInt32.lt_iff_toNat_lt, hnat, h4096]
    omega
  have hcount := CanonicalReader.u32_after pre _ hsize
  have hops := decodeOps_after (pre ++ CanonicalWriter.u32 (.ofNat ops.length)) ops
    (by rw [List.append_nil, List.append_assoc]; exact hsize)
  rw [List.append_nil] at hops
  unfold decodeBody
  simp only [hcount, orCorrupt, bind, Except.bind, pure, Except.pure, if_neg hrange, hnat, hops,
    CanonicalReader.hasRemaining_after, List.isEmpty_nil, Bool.not_true, Bool.false_eq_true,
    if_false, hne]

/-- INTERNAL: operations that are accepted stood there, and nothing behind them. -/
theorem decodeBody_eq_ok {ops : List StoredOp} (hsize : (pre ++ bs).length + 8 < sizeMod)
    (h : decodeBody (CanonicalReader.after pre bs) = .ok ops) :
    bs = bodyBytes ops ∧ ops ≠ [] ∧ ops.length ≤ 4096 := by
  unfold decodeBody at h
  obtain ⟨⟨nops, rd₁⟩, hcount, h⟩ := bind_eq_ok h
  obtain ⟨tl₁, rfl, rfl⟩ := u32_eq_some (by omega) (orCorrupt_eq_ok.mp hcount)
  dsimp only at h
  split at h
  · cases h
  next hrange =>
  obtain ⟨⟨ops', rd₂⟩, hops, h⟩ := bind_eq_ok h
  obtain ⟨tl, hn, rfl, rfl⟩ := decodeOps_eq_ok (by rw [List.append_assoc]; exact hsize) hops
  dsimp only at h
  split at h
  · cases h
  next hend =>
  split at h
  · cases h
  next hne =>
  cases h
  rw [CanonicalReader.hasRemaining_after] at hend
  have htl : tl = [] := by simpa using hend
  have h4096 : (4096 : UInt32).toNat = 4096 := rfl
  rw [gt_iff_lt, UInt32.lt_iff_toNat_lt, h4096, not_lt] at hrange
  refine ⟨?_, hne, hn ▸ hrange⟩
  rw [bodyBytes, hn, UInt32.ofNat_toNat, htl, List.append_nil]

/-! ## Programs -/

/-- An artifact, part by part. -/
theorem encodeStored_eq (p : StoredProgram) :
    encodeStored p = headerBytes ++ (CanonicalWriter.string p.name ++
      (shapeBytes p.shapeN p.datatype p.alignment ++
        (CanonicalWriter.string p.launchConfig ++ bodyBytes p.ops))) := by
  simp only [encodeStored, headerBytes, shapeBytes, bodyBytes, List.append_assoc]

/-- The bytes in front of the operations. -/
def frontBytes (p : StoredProgram) : Bytes :=
  headerBytes ++ CanonicalWriter.string p.name ++ shapeBytes p.shapeN p.datatype p.alignment ++
    CanonicalWriter.string p.launchConfig

/-- Whatever its operations are, everything in front of them is read back. -/
theorem decode_encodeStored_eq {p : StoredProgram} (hsize : (encodeStored p).length < sizeMod) :
    decode (encodeStored p) =
      .ok ((decodeBody (CanonicalReader.after (frontBytes p) (bodyBytes p.ops))).map
        fun ops => { p with ops }) := by
  rw [encodeStored_eq] at hsize ⊢
  -- the reader in front of each part
  have hheader := decodeHeader_after hsize
  have hname := CanonicalReader.str_after headerBytes _ hsize
  have hshape := decodeShape_after (headerBytes ++ CanonicalWriter.string p.name)
    (by rw [List.append_assoc]; exact hsize)
  have hlaunch := CanonicalReader.str_after (headerBytes ++ CanonicalWriter.string p.name ++
    shapeBytes p.shapeN p.datatype p.alignment) _ (s := p.launchConfig)
    (by simp only [List.append_assoc]; exact hsize)
  unfold decode frontBytes
  simp only [hheader, hname, hshape, hlaunch, bind, Except.bind, pure, Except.pure]

/-- A program with one to 4096 operations is read back. -/
theorem decode_encodeStored {p : StoredProgram} (hne : p.ops ≠ []) (hle : p.ops.length ≤ 4096)
    (hsize : (encodeStored p).length < sizeMod) : decode (encodeStored p) = .ok (.ok p) := by
  have hbody := decodeBody_after (frontBytes p) hne hle
    (by rw [encodeStored_eq] at hsize; simpa only [frontBytes, List.append_assoc] using hsize)
  rw [decode_encodeStored_eq hsize, hbody]
  rfl

/-- Bytes that are accepted are those of the program that they are read as. -/
theorem decode_eq_ok {b : Bytes} {p : StoredProgram} (hb : b.length ≤ maxObjectSize)
    (h : decode b = .ok (.ok p)) : encodeStored p = b ∧ p.ops ≠ [] ∧ p.ops.length ≤ 4096 := by
  have hsize := add_lt_sizeMod hb
  unfold decode at h
  split at h
  · cases h
  next rd₁ hheader =>
  obtain ⟨tl₁, rfl, rfl⟩ := decodeHeader_eq_ok hsize hheader
  obtain ⟨read, hname, h⟩ := bind_eq_ok h
  split at h
  · cases h
  next name rd₂ =>
  obtain ⟨tl₂, rfl, rfl⟩ := str_eq_some hsize hname
  split at h
  · cases h
  next shapeN datatype alignment rd₃ hshape =>
  rw [← List.append_assoc] at hsize
  obtain ⟨tl₃, rfl, rfl⟩ := decodeShape_eq_ok hsize hshape
  obtain ⟨read', hlaunch, h⟩ := bind_eq_ok h
  split at h
  · cases h
  next launchConfig rd₄ =>
  rw [← List.append_assoc] at hsize
  obtain ⟨tl₄, rfl, rfl⟩ := str_eq_some hsize hlaunch
  rw [← List.append_assoc] at hsize
  obtain ⟨ops, hbody, rfl⟩ := map_eq_ok (Except.ok.inj h)
  obtain ⟨rfl, hops⟩ := decodeBody_eq_ok hsize hbody
  exact ⟨encodeStored_eq _, hops⟩

/-- Every program of one to 4096 operations is decoded from its artifact, and every artifact that
is accepted is the artifact of the program it decodes to, so no two decode to the same.
SOURCE: CpuBackend.cpp:128-173, Canonical.cpp:26-89 -/
theorem bytecode_bijective :
    (∀ p : StoredProgram, 1 ≤ p.ops.length → p.ops.length ≤ 4096 →
      (encodeStored p).length ≤ maxObjectSize → decode (encodeStored p) = .ok (.ok p)) ∧
    (∀ (b : Bytes) (p : StoredProgram), b.length ≤ maxObjectSize → decode b = .ok (.ok p) →
      encodeStored p = b) ∧
    (∀ (b b' : Bytes) (p : StoredProgram), b.length ≤ maxObjectSize →
      b'.length ≤ maxObjectSize → decode b = .ok (.ok p) → decode b' = .ok (.ok p) → b = b') := by
  refine ⟨?_, ?_, ?_⟩
  · intro p hone hle hsize
    have hne : p.ops ≠ [] := List.ne_nil_of_length_pos hone
    apply decode_encodeStored hne hle
    exact lt_sizeMod hsize
  · intro b p hb
    exact fun h => (decode_eq_ok hb h).1
  · intro b b' p hb hb' h h'
    rw [← (decode_eq_ok hb h).1, (decode_eq_ok hb' h').1]

/-- A program of one operation whose kind has no name. -/
def unnamedProgram : StoredProgram := { ops := [{ kind := 200 }] }

/-- A program without a name, and its bytes. -/
theorem bytecode_bijective_unnamed :
    decode (encodeStored unnamedProgram) = .ok (.ok unnamedProgram) ∧
      ∃ b, decode b = .ok (.ok unnamedProgram) ∧ encodeStored unnamedProgram = b ∧
        ∀ b', b'.length ≤ maxObjectSize → decode b' = .ok (.ok unnamedProgram) → b = b' :=
  have hsize : (encodeStored unnamedProgram).length ≤ maxObjectSize := by decide
  have hdecode := bytecode_bijective.1 unnamedProgram (by decide) (by decide) hsize
  ⟨hdecode, _, hdecode, bytecode_bijective.2.1 _ _ hsize hdecode,
    fun _ hb' => bytecode_bijective.2.2 _ _ _ hsize hb' hdecode⟩

end CompilationFabric.Analysis
