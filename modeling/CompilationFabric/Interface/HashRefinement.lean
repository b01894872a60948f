import CompilationFabric.Model.Sha256
import CompilationFabric.Model.Canonical
import CompilationFabric.Library.BlockStream

/-!
# The hash object against the standard

Two refinements.  On one block, `transform` is the standard's compression of the
block's words: the tables are its constants, the shifts its rotations, the array `w`
its schedule.  On the stream, the members `state_` and `buffer_` are what absorbing the
bytes given so far leaves, however they were cut into calls of `update`.
-/

set_option autoImplicit false

namespace CompilationFabric.Model.Sha256

open Library
open Library.SecureHash (Registers Word roundConstant rootFraction schedule compress)
open Library.BlockStream (absorb)

/-! ## Constants -/

def firstPrimes : List ℕ := [
  2, 3, 5, 7, 11, 13, 17, 19, 23, 29, 31, 37, 41, 43, 47, 53, 59, 61, 67, 71, 73, 79, 83, 89, 97,
  101, 103, 107, 109, 113, 127, 131, 137, 139, 149, 151, 157, 163, 167, 173, 179, 181, 191, 193,
  197, 199, 211, 223, 227, 229, 233, 239, 241, 251, 257, 263, 269, 271, 277, 281, 283, 293, 307,
  311]

/-- INTERNAL: below 312 the least proper factor is at most 17, if there is one. -/
theorem prime_iff_of_lt {n : ℕ} (hn : n < 312) :
    n.Prime ↔ 2 ≤ n ∧ ∀ m < 18, 2 ≤ m → m < n → ¬ m ∣ n := by
  constructor
  · intro h
    obtain ⟨htwo, hall⟩ := Nat.prime_def_lt'.mp h
    exact ⟨htwo, fun m _ hm hlt => hall m hm hlt⟩
  · rintro ⟨htwo, hall⟩
    refine Nat.prime_def_le_sqrt.mpr ⟨htwo, fun m hm hsqrt => ?_⟩
    have hroot : n.sqrt < 18 := Nat.sqrt_lt.mpr (by omega)
    exact hall m (by omega) hm (hsqrt.trans_lt (Nat.sqrt_lt_self htwo))

/-- INTERNAL: the primes below 312 by enumeration. -/
theorem filter_prime : (List.range 312).filter Nat.Prime = firstPrimes := by
  calc (List.range 312).filter Nat.Prime
      = (List.range 312).filter fun n => 2 ≤ n ∧ ∀ m < 18, 2 ≤ m → m < n → ¬ m ∣ n :=
        List.filter_congr fun n hn =>
          decide_eq_decide.mpr (prime_iff_of_lt (List.mem_range.mp hn))
    _ = firstPrimes := by decide +kernel

/-- The list of primes has the first sixty-four of them. -/
theorem nth_prime {t : ℕ} (ht : t < 64) : Nat.nth Nat.Prime t = firstPrimes.getD t 0 := by
  have hlength : t < firstPrimes.length := ht
  rw [SecureHash.nth_prime_eq filter_prime hlength, List.getD_eq_getElem]

/-- The table `K` holds the standard's constants. -/
theorem toBitVec_K {t : ℕ} (ht : t < 64) : (K.getD t 0).toBitVec = roundConstant t := by
  have hcube : ∀ t < 64, ∃ i < 7,
      (i * 2 ^ 32 + (K.getD t 0).toBitVec.toNat) ^ 3 ≤ firstPrimes.getD t 0 * 2 ^ (32 * 3) ∧
      firstPrimes.getD t 0 * 2 ^ (32 * 3) <
        (i * 2 ^ 32 + (K.getD t 0).toBitVec.toNat + 1) ^ 3 := by
    decide +kernel
  obtain ⟨i, -, hle, hlt⟩ := hcube t ht
  rw [roundConstant, nth_prime ht]
  exact (SecureHash.rootFraction_eq hle hlt).symm

/-- The constructor stores the standard's initial hash value. -/
theorem toBitVec_init : init.state.map UInt32.toBitVec = SecureHash.initial := by
  have hsquare : ∀ t < 8, ∃ i < 5,
      (i * 2 ^ 32 + (init.state.toList.getD t 0).toBitVec.toNat) ^ 2 ≤
        firstPrimes.getD t 0 * 2 ^ (32 * 2) ∧
      firstPrimes.getD t 0 * 2 ^ (32 * 2) <
        (i * 2 ^ 32 + (init.state.toList.getD t 0).toBitVec.toNat + 1) ^ 2 := by
    decide +kernel
  have hword : ∀ t < 8, rootFraction 2 (Nat.nth Nat.Prime t) =
      (init.state.toList.getD t 0).toBitVec := by
    intro t ht
    obtain ⟨i, -, hle, hlt⟩ := hsquare t ht
    rw [nth_prime (by omega)]
    exact SecureHash.rootFraction_eq hle hlt
  simp only [SecureHash.initial, hword 0 (by omega), hword 1 (by omega), hword 2 (by omega),
    hword 3 (by omega), hword 4 (by omega), hword 5 (by omega), hword 6 (by omega),
    hword 7 (by omega)]
  rfl

/-! ## Words -/

/-- A rotation by shifts is a rotation.
SOURCE: Core.cpp:227 -/
theorem toBitVec_rotr (x : UInt32) {n : UInt32} (hpos : 0 < n.toNat) (hlt : n.toNat < 32) :
    (rotr x n).toBitVec = x.toBitVec.rotateRight n.toNat := by
  have hle : n ≤ 32 := by
    rw [UInt32.le_iff_toNat_le, show (32 : UInt32).toNat = 32 by rfl]
    omega
  have hsub : (32#32 - n.toBitVec).toNat = 32 - n.toNat := UInt32.toNat_sub_of_le 32 n hle
  have hn : n.toBitVec.toNat = n.toNat := rfl
  have h32 : (32 : BitVec 32).toNat = 32 := rfl
  rw [rotr, UInt32.toBitVec_or, UInt32.toBitVec_shiftRight, UInt32.toBitVec_shiftLeft,
    BitVec.rotateRight_def, Nat.mod_eq_of_lt hlt]
  simp only [BitVec.ushiftRight_eq', BitVec.shiftLeft_eq', UInt32.toBitVec_sub,
    BitVec.toNat_umod, UInt32.toBitVec_ofNat, hsub, hn, h32]
  rw [Nat.mod_eq_of_lt hlt, Nat.mod_eq_of_lt (by omega)]

/-- `bsig0` is the standard's function of the same name. -/
theorem toBitVec_bsig0 (x : UInt32) : (bsig0 x).toBitVec = SecureHash.bigSigma0 x.toBitVec := by
  rw [bsig0, UInt32.toBitVec_xor, UInt32.toBitVec_xor, toBitVec_rotr x (by decide) (by decide),
    toBitVec_rotr x (by decide) (by decide), toBitVec_rotr x (by decide) (by decide)]
  rfl

/-- `bsig1` is the standard's function of the same name. -/
theorem toBitVec_bsig1 (x : UInt32) : (bsig1 x).toBitVec = SecureHash.bigSigma1 x.toBitVec := by
  rw [bsig1, UInt32.toBitVec_xor, UInt32.toBitVec_xor, toBitVec_rotr x (by decide) (by decide),
    toBitVec_rotr x (by decide) (by decide), toBitVec_rotr x (by decide) (by decide)]
  rfl

/-- `ssig0` is the standard's function of the same name. -/
theorem toBitVec_ssig0 (x : UInt32) : (ssig0 x).toBitVec = SecureHash.smallSigma0 x.toBitVec := by
  rw [ssig0, UInt32.toBitVec_xor, UInt32.toBitVec_xor, toBitVec_rotr x (by decide) (by decide),
    toBitVec_rotr x (by decide) (by decide)]
  rfl

/-- `ssig1` is the standard's function of the same name. -/
theorem toBitVec_ssig1 (x : UInt32) : (ssig1 x).toBitVec = SecureHash.smallSigma1 x.toBitVec := by
  rw [ssig1, UInt32.toBitVec_xor, UInt32.toBitVec_xor, toBitVec_rotr x (by decide) (by decide),
    toBitVec_rotr x (by decide) (by decide)]
  rfl

/-- Four bytes, shifted into place, are the number they denote. -/
theorem loadWord_eq {block : Bytes} {i : ℕ} (h : i * 4 + 4 ≤ block.length) :
    loadWord block i = UInt32.ofNat (Positional.ofBytes ((block.drop (i * 4)).take 4)) := by
  have hbytes : (block.drop (i * 4)).take 4 =
      [block.getD (i * 4) 0, block.getD (i * 4 + 1) 0, block.getD (i * 4 + 2) 0,
        block.getD (i * 4 + 3) 0] := by
    rw [List.drop_eq_getElem_cons (by omega), List.drop_eq_getElem_cons (by omega),
      List.drop_eq_getElem_cons (by omega), List.drop_eq_getElem_cons (by omega)]
    simp only [List.take_succ_cons, List.take_zero]
    rw [List.getD_eq_getElem _ _ (by omega), List.getD_eq_getElem _ _ (by omega),
      List.getD_eq_getElem _ _ (by omega), List.getD_eq_getElem _ _ (by omega)]
  have hlt : Positional.ofBytes ((block.drop (i * 4)).take 4) < 2 ^ 32 := by
    have hofBytes := Positional.ofBytes_lt ((block.drop (i * 4)).take 4)
    rw [hbytes] at hofBytes ⊢
    calc _ < 256 ^ 4 := hofBytes
      _ = 2 ^ 32 := by norm_num
  -- the word is the one that would be written as these four bytes
  have hstored : CanonicalWriter.u32
      (UInt32.ofNat (Positional.ofBytes ((block.drop (i * 4)).take 4))) =
        (block.drop (i * 4)).take 4 := by
    have hround := Positional.toBytes_ofBytes ((block.drop (i * 4)).take 4)
    rw [List.length_take_of_le (by rw [List.length_drop]; omega)] at hround
    rw [CanonicalWriter.u32_eq, UInt32.toNat_ofNat_of_lt' hlt, hround]
  have hjoin := CanonicalReader.joinBytes
    (UInt32.ofNat (Positional.ofBytes ((block.drop (i * 4)).take 4)))
  generalize UInt32.ofNat (Positional.ofBytes ((block.drop (i * 4)).take 4)) = v at hstored hjoin ⊢
  rw [hbytes] at hstored
  simp only [CanonicalWriter.u32, List.cons.injEq, and_true] at hstored
  obtain ⟨h0, h1, h2, h3⟩ := hstored
  rw [loadWord, ← h0, ← h1, ← h2, ← h3, hjoin]

/-! ## One block -/

/-- INTERNAL: the expansion after some of its rounds, by induction on them. -/
theorem expand_loop (block : Bytes) (n : ℕ) :
    ((List.range' 16 n).foldl extend ((List.range 16).map (loadWord block))).length = 16 + n ∧
    ∀ t < 16 + n,
      (((List.range' 16 n).foldl extend ((List.range 16).map (loadWord block))).getD t 0).toBitVec =
        schedule (fun t => (loadWord block t).toBitVec) t := by
  induction n with
  | zero =>
      refine ⟨by simp, ?_⟩
      intro t ht
      rw [SecureHash.schedule_of_lt (by omega), List.range'_zero, List.foldl_nil,
        List.getD_eq_getElem _ _ (by simpa using ht), List.getElem_map, List.getElem_range]
  | succ n ih =>
      obtain ⟨hlength, hwords⟩ := ih
      rw [List.range'_concat, List.foldl_append, List.foldl_cons, List.foldl_nil, Nat.one_mul,
        extend]
      generalize (List.range' 16 n).foldl extend ((List.range 16).map (loadWord block)) = w
        at hlength hwords ⊢
      refine ⟨by rw [List.length_append, hlength, List.length_singleton]; omega, ?_⟩
      intro t ht
      by_cases hlt : t < 16 + n
      · rw [List.getD_append _ _ _ _ (by omega), hwords t hlt]
      · obtain rfl : t = 16 + n := by omega
        rw [List.getD_append_right _ _ _ _ (by omega), hlength, Nat.sub_self, List.getD_cons_zero,
          SecureHash.schedule_add, UInt32.toBitVec_add, UInt32.toBitVec_add, UInt32.toBitVec_add,
          toBitVec_ssig1, toBitVec_ssig0, hwords _ (by omega), hwords (16 + n - 7) (by omega),
          hwords (16 + n - 15) (by omega), hwords (16 + n - 16) (by omega)]

/-- The array `w` is the standard's schedule. -/
theorem toBitVec_expand (block : Bytes) {t : ℕ} (ht : t < 64) :
    ((expand block).getD t 0).toBitVec = schedule (fun t => (loadWord block t).toBitVec) t :=
  (expand_loop block 48).2 t ht

/-- One round is a round of the standard. -/
theorem map_round (w : List UInt32) (r : Registers UInt32) {t : ℕ} (ht : t < 64) :
    (round w r t).map UInt32.toBitVec =
      SecureHash.round (r.map UInt32.toBitVec) (roundConstant t) (w.getD t 0).toBitVec := by
  simp only [round, SecureHash.round, Registers.map, SecureHash.Ch, SecureHash.Maj,
    ← toBitVec_K ht, ← toBitVec_bsig0, ← toBitVec_bsig1, UInt32.toBitVec_add, UInt32.toBitVec_xor,
    UInt32.toBitVec_and, UInt32.toBitVec_not]

/-- INTERNAL: so are the first rounds, by induction on them. -/
theorem map_rounds (block : Bytes) (r : Registers UInt32) {n : ℕ} (hn : n ≤ 64) :
    ((List.range n).foldl (round (expand block)) r).map UInt32.toBitVec =
      (List.range n).foldl (fun r t => SecureHash.round r (roundConstant t)
        (schedule (fun t => (loadWord block t).toBitVec) t)) (r.map UInt32.toBitVec) := by
  induction n with
  | zero => rfl
  | succ n ih =>
      rw [List.range_succ, List.foldl_append, List.foldl_append, List.foldl_cons, List.foldl_nil,
        List.foldl_cons, List.foldl_nil, map_round _ _ (by omega), ih (by omega),
        toBitVec_expand block (by omega)]

/-- `transform` is the compression of the words of its block. -/
theorem map_transform (state : Registers UInt32) (block : Bytes) :
    (transform state block).map UInt32.toBitVec =
      compress (state.map UInt32.toBitVec) fun t => (loadWord block t).toBitVec := by
  have hrounds := map_rounds block state le_rfl
  rw [compress, ← hrounds]
  rfl

/-! ## The stream -/

/-- The bytes in `buffer_` that do not yet fill a block. -/
def pending (s : Sha256) : Bytes := s.buffer.take s.bufferLen

/-- INTERNAL: what is pending is what the buffer holds. -/
theorem length_pending (s : Sha256) : s.pending.length = s.bufferLen := by
  have hsize := s.buffer_size
  have hlt := s.bufferLen_lt
  exact List.length_take_of_le (by omega)

/-- The bytes that a round of the loop copies stand behind the pending ones. -/
theorem take_memcpy (s : Sha256) (p : Bytes) :
    (memcpy s.buffer s.bufferLen (p.take (s.room p))).take (s.bufferLen + s.room p) =
      s.pending ++ p.take (s.room p) := by
  have hpending := s.length_pending
  have hroom : (p.take (s.room p)).length = s.room p :=
    List.length_take_of_le (Nat.min_le_right _ _)
  rw [memcpy]
  apply List.take_left'
  rw [List.length_append, hroom]
  exact congrArg (· + s.room p) hpending

/-- A round of the loop moves bytes from the input to the stream. -/
theorem absorb_absorbSome (s : Sha256) (p : Bytes) :
    absorb transform 64 (s.absorbSome p).state
        ((s.absorbSome p).pending ++ p.drop (s.room p)) =
      absorb transform 64 s.state (s.pending ++ p) := by
  have htake := s.take_memcpy p
  have hcopied := s.length_copied p
  have hsplit : s.pending ++ p = (s.pending ++ p.take (s.room p)) ++ p.drop (s.room p) := by
    rw [List.append_assoc, List.take_append_drop]
  rw [hsplit, ← htake]
  by_cases hfull : s.bufferLen + s.room p = 64
  · have hblock : (memcpy s.buffer s.bufferLen (p.take (s.room p))).take
        (s.bufferLen + s.room p) = memcpy s.buffer s.bufferLen (p.take (s.room p)) := by
      rw [hfull]
      exact List.take_of_length_le (by omega)
    rw [hblock, BlockStream.absorb_block_append transform (by omega) hcopied, absorbSome,
      dif_pos hfull]
    rfl
  · rw [absorbSome, dif_neg hfull]
    rfl

/-- The loop of `update` leaves what absorbing its input behind the pending bytes leaves. -/
theorem updateLoop_eq (s : Sha256) (p : Bytes) :
    ((s.updateLoop p).state, (s.updateLoop p).pending) =
      absorb transform 64 s.state (s.pending ++ p) := by
  induction s, p using updateLoop.induct with
  | case1 s p hpos ih =>
      rw [updateLoop, if_pos hpos, ih, absorb_absorbSome]
  | case2 s p hempty =>
      have hp : p = [] := List.eq_nil_of_length_eq_zero (by omega)
      have hlt := s.bufferLen_lt
      have hpending := s.length_pending
      rw [updateLoop, if_neg hempty, hp, List.append_nil,
        BlockStream.absorb_of_lt transform (by omega)]

/-- INTERNAL: the loop leaves the count of bits alone. -/
theorem updateLoop_bitLen (s : Sha256) (p : Bytes) : (s.updateLoop p).bitLen = s.bitLen := by
  induction s, p using updateLoop.induct with
  | case1 s p hpos ih =>
      rw [updateLoop, if_pos hpos, ih, absorbSome]
      split <;> rfl
  | case2 s p hempty => rw [updateLoop, if_neg hempty]

/-- `s` is an object that has been given the bytes `m`. -/
structure Absorbed (s : Sha256) (m : Bytes) : Prop where
  stream : (s.state, s.pending) = absorb transform 64 init.state m
  bits : s.bitLen = UInt64.ofNat m.length * 8

/-- A fresh hash has absorbed nothing. -/
theorem absorbed_init : init.Absorbed [] where
  stream := by
    rw [BlockStream.absorb_of_lt transform (by simp)]
    rfl
  bits := rfl

section Absorbed

variable {s : Sha256} {m : Bytes}

/-- A call of `update` appends its data to the bytes given. -/
theorem Absorbed.update (h : s.Absorbed m) (data : Bytes) :
    (s.update data).Absorbed (m ++ data) where
  stream := by
    have hstate := congrArg Prod.fst h.stream
    have hpending := congrArg Prod.snd h.stream
    rw [Sha256.update, updateLoop_eq,
      BlockStream.absorb_append transform (by omega) init.state, ← hstate, ← hpending]
    rfl
  bits := by
    rw [Sha256.update, updateLoop_bitLen, h.bits, List.length_append, UInt64.ofNat_add,
      UInt64.add_mul]

/-- Any sequence of calls of `update` appends its chunks. -/
theorem Absorbed.updates (h : s.Absorbed m) (chunks : List Bytes) :
    (chunks.foldl Sha256.update s).Absorbed (m ++ chunks.flatten) := by
  induction chunks generalizing s m with
  | nil => simpa using h
  | cons data chunks ih =>
      have hrest := ih (h.update data)
      rwa [List.append_assoc] at hrest

/-- The buffer holds what does not fill a block. -/
theorem Absorbed.bufferLen (h : s.Absorbed m) : s.bufferLen = m.length % 64 := by
  have hpending := congrArg (fun r => r.2.length) h.stream
  rwa [BlockStream.length_absorb transform (by omega), length_pending] at hpending

/-- Zero bytes are added until the buffer holds fifty-six. -/
theorem Absorbed.padLoop {k fuel : ℕ} (h : s.Absorbed m) (hk : (m.length + k) % 64 = 56)
    (hmin : ∀ j < k, (m.length + j) % 64 ≠ 56) (hfuel : k < fuel) :
    ∃ t, Sha256.padLoop fuel s = some t ∧ t.Absorbed (m ++ List.replicate k 0) := by
  induction k generalizing s m fuel with
  | zero =>
      obtain ⟨fuel, rfl⟩ := Nat.exists_eq_add_of_lt hfuel
      have hstop : ¬ s.bufferLen ≠ 56 := by
        rw [h.bufferLen]
        omega
      refine ⟨s, ?_, by simpa using h⟩
      rw [Nat.zero_add, Sha256.padLoop, if_neg hstop]
  | succ k ih =>
      obtain ⟨fuel, rfl⟩ : ∃ f, fuel = f + 1 := ⟨fuel - 1, by omega⟩
      have hgo : s.bufferLen ≠ 56 := by
        rw [h.bufferLen]
        exact hmin 0 (by omega)
      have hlength : (m ++ [0x00]).length = m.length + 1 := by simp
      obtain ⟨t, ht, habsorbed⟩ := ih (h.update [0x00])
        (by rw [hlength, Nat.add_assoc, Nat.add_comm 1]; exact hk)
        (fun j hj => by
          rw [hlength, Nat.add_assoc, Nat.add_comm 1]
          exact hmin (j + 1) (by omega))
        (show k < fuel by omega)
      refine ⟨t, ?_, ?_⟩
      · rw [Sha256.padLoop, if_pos hgo, ht]
      · rwa [List.append_assoc, List.singleton_append, ← List.replicate_succ] at habsorbed

end Absorbed

end CompilationFabric.Model.Sha256
