import CompilationFabric.Interface.HashRefinement

/-!
# The hash is the standard's

However a message is cut into calls of `update`, `final` returns the digest that the
standard assigns to its bits, as long as the bit count fits the length field.  The
padding of the standard counts bits; `zeroBytes` is the same count in bytes, and the
loop of `final` stops after exactly that many.
-/

set_option autoImplicit false

namespace CompilationFabric.Model.Sha256

open Library
open Library.SecureHash (Registers Word compress wordOf zeroBits)
open Library.BlockStream (absorb block)

/-! ## Padding -/

/-- The zero bytes behind `0x80` for a message of `n` bytes. -/
def zeroBytes (n : ℕ) : ℕ := (zeroBits (8 * n) - 7) / 8

/-- The zero bits of the standard are seven and whole bytes. -/
theorem zeroBits_eq (n : ℕ) : zeroBits (8 * n) = 7 + 8 * zeroBytes n := by
  have hspec := SecureHash.zeroBits_spec (8 * n)
  rw [zeroBytes]
  omega

/-- The zero bytes leave eight bytes for the length. -/
theorem zeroBytes_spec (n : ℕ) : (n + 1 + zeroBytes n) % 64 = 56 := by
  have hspec := SecureHash.zeroBits_spec (8 * n)
  rw [zeroBits_eq] at hspec
  omega

/-- No smaller number of zero bytes does. -/
theorem zeroBytes_min {n j : ℕ} (h : j < zeroBytes n) : (n + 1 + j) % 64 ≠ 56 := by
  have hbits : 7 + 8 * j < zeroBits (8 * n) := by
    rw [zeroBits_eq]
    omega
  have hmin := SecureHash.zeroBits_min hbits
  omega

/-- The zero bytes are fewer than those of a block. -/
theorem zeroBytes_lt (n : ℕ) : zeroBytes n < 64 := by
  have hlt := SecureHash.zeroBits_lt (8 * n)
  rw [zeroBits_eq] at hlt
  omega

/-- The message with what `final` appends to it. -/
def paddedMessage (m : Bytes) : Bytes :=
  m ++ [0x80] ++ List.replicate (zeroBytes m.length) 0 ++ Positional.toBytes 8 (8 * m.length)

/-- INTERNAL: the padded message fills its blocks. -/
theorem length_paddedMessage (m : Bytes) :
    (paddedMessage m).length = 64 * ((m.length + 1 + zeroBytes m.length + 8) / 64) := by
  have hspec := zeroBytes_spec m.length
  simp only [paddedMessage, List.length_append, List.length_singleton, List.length_replicate,
    Positional.length_toBytes]
  omega

/-- Padding the bytes is padding the bits. -/
theorem ofBytes_paddedMessage (m : Bytes) :
    BitStrings.ofBytes (paddedMessage m) = SecureHash.pad (BitStrings.ofBytes m) := by
  have hmarker : BitStrings.ofBytes [0x80] = true :: List.replicate 7 false := by decide
  rw [paddedMessage, BitStrings.ofBytes_append, BitStrings.ofBytes_append,
    BitStrings.ofBytes_append, BitStrings.ofBytes_replicate, BitStrings.ofBytes_toBytes, hmarker,
    SecureHash.pad, BitStrings.length_ofBytes, zeroBits_eq, List.replicate_add]
  simp only [List.append_assoc, List.cons_append]

/-- `lenb` holds the length field. -/
theorem lengthBytes_eq {n : ℕ} (h : n < 2 ^ 61) :
    lengthBytes (UInt64.ofNat n * 8) = Positional.toBytes 8 (8 * n) := by
  have hstore : lengthBytes (UInt64.ofNat n * 8) = CanonicalWriter.u64 (UInt64.ofNat n * 8) := rfl
  have hvalue : (UInt64.ofNat n * 8).toNat = 8 * n := by
    have height : (8 : UInt64).toNat = 8 := rfl
    rw [UInt64.toNat_mul, UInt64.toNat_ofNat_of_lt' (lt_of_lt_of_le h (by norm_num)), height,
      Nat.mod_eq_of_lt (by omega), Nat.mul_comm]
  rw [hstore, CanonicalWriter.u64_eq, hvalue]

/-! ## Blocks -/

/-- The words that `transform` loads are the words of the padded bits. -/
theorem toBitVec_loadWord {p : Bytes} {i t : ℕ} (ht : t < 16) (hi : 64 * (i + 1) ≤ p.length) :
    (loadWord (block 64 p i) t).toBitVec = wordOf (BitStrings.ofBytes p) i t := by
  have hlength : t * 4 + 4 ≤ (block 64 p i).length := by
    rw [block, List.length_take, List.length_drop]
    omega
  have hcut : ((block 64 p i).drop (t * 4)).take 4 = (p.drop (64 * i + 4 * t)).take 4 := by
    rw [block, List.drop_take, List.take_take, List.drop_drop, Nat.min_eq_left (by omega),
      Nat.mul_comm t]
  have hbits : 512 * i + 32 * t = 8 * (64 * i + 4 * t) := by omega
  rw [loadWord_eq hlength, hcut, wordOf, hbits, ← BitStrings.ofBytes_drop,
    ← BitStrings.ofBytes_take (p.drop (64 * i + 4 * t)) 4, BitStrings.toNat_ofBytes]
  rfl

/-- The blocks are compressed as the standard compresses them, by induction on their number. -/
theorem map_blocks {p : Bytes} {N : ℕ} (h : 64 * N ≤ p.length) (state : Registers UInt32) :
    ((List.range N).foldl (fun s i => transform s (block 64 p i)) state).map UInt32.toBitVec =
      (List.range N).foldl (fun H i => compress H (wordOf (BitStrings.ofBytes p) i))
        (state.map UInt32.toBitVec) := by
  induction N with
  | zero => rfl
  | succ N ih =>
      rw [List.range_succ, List.foldl_append, List.foldl_append, List.foldl_cons, List.foldl_nil,
        List.foldl_cons, List.foldl_nil, map_transform, ih (by omega)]
      exact SecureHash.compress_congr (fun t ht => toBitVec_loadWord ht h) _

/-- The bytes that are given out have the bits of the registers. -/
theorem ofBytes_output (state : Registers UInt32) :
    BitStrings.ofBytes (output state).bytes =
      (state.map UInt32.toBitVec).toList.flatMap fun w => BitStrings.ofNat 32 w.toNat := by
  have hword : ∀ x : UInt32,
      BitStrings.ofBytes (storeWord x) = BitStrings.ofNat 32 x.toBitVec.toNat := by
    intro x
    have hstore : storeWord x = CanonicalWriter.u32 x := rfl
    rw [hstore, CanonicalWriter.u32_eq, BitStrings.ofBytes_toBytes]
    rfl
  rw [Registers.toList_map, List.flatMap_map]
  simp only [← hword]
  rw [output, BitStrings.ofBytes, List.flatMap_assoc]
  rfl

/-! ## The digest -/

/-- An object that has been given `m` completes it to the digest of `m`. -/
theorem Absorbed.final {s : Sha256} {m : Bytes} (h : s.Absorbed m) (hm : m.length < 2 ^ 61)
    {fuel : ℕ} (hfuel : 64 ≤ fuel) :
    ∃ d, Sha256.final fuel s = some d ∧
      BitStrings.ofBytes d.bytes = SecureHash.digest (BitStrings.ofBytes m) := by
  have hzeros := zeroBytes_lt m.length
  have hlength : (m ++ [0x80]).length = m.length + 1 := by simp
  obtain ⟨t, ht, hpadded⟩ : ∃ t, Sha256.padLoop fuel (s.update [0x80]) = some t ∧
      t.Absorbed (m ++ [0x80] ++ List.replicate (zeroBytes m.length) 0) := by
    apply (h.update [0x80]).padLoop
    · rw [hlength, zeroBytes_spec]
    · intro j hj
      rw [hlength]
      exact zeroBytes_min hj
    · omega
  have hdone := hpadded.update (lengthBytes s.bitLen)
  rw [h.bits, lengthBytes_eq hm] at hdone
  have hstream := hdone.stream
  have hblocks := length_paddedMessage m
  rw [show m ++ [0x80] ++ List.replicate (zeroBytes m.length) 0 ++
    Positional.toBytes 8 (8 * m.length) = paddedMessage m by rfl,
    BlockStream.absorb_blocks transform (by omega) _ _ hblocks] at hstream
  have hstate := congrArg Prod.fst hstream
  refine ⟨output (t.update (lengthBytes s.bitLen)).state, ?_, ?_⟩
  · rw [Sha256.final, ht]
    rfl
  · have hcount : (SecureHash.pad (BitStrings.ofBytes m)).length / 512 =
        (m.length + 1 + zeroBytes m.length + 8) / 64 := by
      rw [← ofBytes_paddedMessage, BitStrings.length_ofBytes, hblocks]
      omega
    rw [ofBytes_output, h.bits, lengthBytes_eq hm]
    simp only at hstate
    rw [hstate, map_blocks (le_of_eq hblocks.symm), ofBytes_paddedMessage, toBitVec_init,
      SecureHash.digest, hcount]

/-- However a message is cut into calls of `update`, `final` returns the standard's digest
of its bits, which is what `hash` returns for the whole message.  Sixty-four tests of the
padding loop are enough.  SOURCE: Core.cpp:258-288 -/
theorem final_updates {chunks : List Bytes} (hlength : chunks.flatten.length < 2 ^ 61) {fuel : ℕ}
    (hfuel : 64 ≤ fuel) :
    ∃ d, final fuel (chunks.foldl update init) = some d ∧ hash fuel chunks.flatten = some d ∧
      BitStrings.ofBytes d.bytes = SecureHash.digest (BitStrings.ofBytes chunks.flatten) := by
  obtain ⟨d, hd, hdigest⟩ := (absorbed_init.updates chunks).final hlength hfuel
  obtain ⟨e, he, hdigest'⟩ := (absorbed_init.update chunks.flatten).final hlength hfuel
  have heq : e = d := by
    apply Digest.ext_bytes
    apply BitStrings.ofBytes_injective
    rw [hdigest, hdigest']
  refine ⟨d, hd, ?_, hdigest⟩
  rw [hash, he, heq]

/-- The message of three letters, in three updates of which one is empty. -/
theorem final_updates_abc :
    ∃ d, final 64 ([[0x61], [], [0x62, 0x63]].foldl update init) = some d ∧
      hash 64 [0x61, 0x62, 0x63] = some d ∧
      BitStrings.ofBytes d.bytes = SecureHash.digest (BitStrings.ofBytes [0x61, 0x62, 0x63]) :=
  final_updates (by decide) le_rfl

end CompilationFabric.Model.Sha256
