import CompilationFabric.Model.Core
import CompilationFabric.Library.SecureHash

/-!
# The streaming hash

`Sha256` of `Core.cpp`.  The object is its members with what the member functions keep:
sixty-four bytes of buffer, and a count of buffered bytes that stays below sixty-four.

The loop of `final` that pads with zero bytes has no bound in the source.  Here it has
the number of its tests as fuel and no digest where the fuel does not suffice.
-/

set_option autoImplicit false

namespace CompilationFabric.Model

open Library.SecureHash (Registers)

namespace Sha256

/-! ## The compression function -/

/-- SOURCE: Core.cpp:218-226 -/
def K : List UInt32 := [
  0x428a2f98, 0x71374491, 0xb5c0fbcf, 0xe9b5dba5, 0x3956c25b, 0x59f111f1, 0x923f82a4, 0xab1c5ed5,
  0xd807aa98, 0x12835b01, 0x243185be, 0x550c7dc3, 0x72be5d74, 0x80deb1fe, 0x9bdc06a7, 0xc19bf174,
  0xe49b69c1, 0xefbe4786, 0x0fc19dc6, 0x240ca1cc, 0x2de92c6f, 0x4a7484aa, 0x5cb0a9dc, 0x76f988da,
  0x983e5152, 0xa831c66d, 0xb00327c8, 0xbf597fc7, 0xc6e00bf3, 0xd5a79147, 0x06ca6351, 0x14292967,
  0x27b70a85, 0x2e1b2138, 0x4d2c6dfc, 0x53380d13, 0x650a7354, 0x766a0abb, 0x81c2c92e, 0x92722c85,
  0xa2bfe8a1, 0xa81a664b, 0xc24b8b70, 0xc76c51a3, 0xd192e819, 0xd6990624, 0xf40e3585, 0x106aa070,
  0x19a4c116, 0x1e376c08, 0x2748774c, 0x34b0bcb5, 0x391c0cb3, 0x4ed8aa4a, 0x5b9cca4f, 0x682e6ff3,
  0x748f82ee, 0x78a5636f, 0x84c87814, 0x8cc70208, 0x90befffa, 0xa4506ceb, 0xbef9a3f7, 0xc67178f2]

def rotr (x n : UInt32) : UInt32 := (x >>> n) ||| (x <<< (32 - n))

def bsig0 (x : UInt32) : UInt32 := rotr x 2 ^^^ rotr x 13 ^^^ rotr x 22

def bsig1 (x : UInt32) : UInt32 := rotr x 6 ^^^ rotr x 11 ^^^ rotr x 25

def ssig0 (x : UInt32) : UInt32 := rotr x 7 ^^^ rotr x 18 ^^^ (x >>> 3)

def ssig1 (x : UInt32) : UInt32 := rotr x 17 ^^^ rotr x 19 ^^^ (x >>> 10)

/-- The word at `block[i * 4]`. -/
def loadWord (block : Bytes) (i : ℕ) : UInt32 :=
  ((block.getD (i * 4) 0).toUInt32 <<< 24) ||| ((block.getD (i * 4 + 1) 0).toUInt32 <<< 16) |||
    ((block.getD (i * 4 + 2) 0).toUInt32 <<< 8) ||| (block.getD (i * 4 + 3) 0).toUInt32

/-- The body of the second loop over `w`, which has been filled below `w[i]`. -/
def extend (w : List UInt32) (i : ℕ) : List UInt32 :=
  w ++ [ssig1 (w.getD (i - 2) 0) + w.getD (i - 7) 0 + ssig0 (w.getD (i - 15) 0) +
    w.getD (i - 16) 0]

/-- The array `w` after both loops that fill it. -/
def expand (block : Bytes) : List UInt32 :=
  (List.range' 16 48).foldl extend ((List.range 16).map (loadWord block))

/-- The body of the loop over the rounds. -/
def round (w : List UInt32) (r : Registers UInt32) (i : ℕ) : Registers UInt32 :=
  let t1 := r.h + bsig1 r.e + ((r.e &&& r.f) ^^^ (~~~r.e &&& r.g)) + K.getD i 0 + w.getD i 0
  let t2 := bsig0 r.a + ((r.a &&& r.b) ^^^ (r.a &&& r.c) ^^^ (r.b &&& r.c))
  ⟨t1 + t2, r.a, r.b, r.c, r.d + t1, r.e, r.f, r.g⟩

/-- `transform`, on the words `state_`.  SOURCE: Core.cpp:240-256 -/
def transform (state : Registers UInt32) (block : Bytes) : Registers UInt32 :=
  state.zipWith (· + ·) ((List.range 64).foldl (round (expand block)) state)

end Sha256

/-! ## The object -/

/-- SOURCE: Core.hpp:233-247 -/
structure Sha256 where
  state : Registers UInt32
  bitLen : UInt64
  buffer : Bytes
  bufferLen : ℕ
  buffer_size : buffer.length = 64
  bufferLen_lt : bufferLen < 64

namespace Sha256

/-- SOURCE: Core.cpp:234-238 -/
def init : Sha256 where
  state := ⟨0x6a09e667, 0xbb67ae85, 0x3c6ef372, 0xa54ff53a, 0x510e527f, 0x9b05688c, 0x1f83d9ab,
    0x5be0cd19⟩
  bitLen := 0
  buffer := List.replicate 64 0
  bufferLen := 0
  buffer_size := rfl
  bufferLen_lt := by omega

/-- `memcpy(dst + at, src, len)` for the `len` bytes of `src`. -/
def memcpy (dst : Bytes) (offset : ℕ) (src : Bytes) : Bytes :=
  dst.take offset ++ src ++ dst.drop (offset + src.length)

/-- INTERNAL: a copy into a buffer does not change its length. -/
theorem length_memcpy {dst src : Bytes} {offset : ℕ} (h : offset + src.length ≤ dst.length) :
    (memcpy dst offset src).length = dst.length := by
  simp only [memcpy, List.length_append, List.length_take, List.length_drop]
  omega

/-- How many bytes of `p` the next round of the loop in `update` takes. -/
def room (s : Sha256) (p : Bytes) : ℕ := min (64 - s.bufferLen) p.length

/-- INTERNAL: the buffer stays sixty-four bytes long. -/
theorem length_copied (s : Sha256) (p : Bytes) :
    (memcpy s.buffer s.bufferLen (p.take (s.room p))).length = 64 := by
  have hsize := s.buffer_size
  have hroom : s.room p ≤ 64 - s.bufferLen := Nat.min_le_left _ _
  have hlt := s.bufferLen_lt
  rw [length_memcpy, hsize]
  rw [List.length_take]
  omega

/-- The body of the loop in `update`.  SOURCE: Core.cpp:262-265 -/
def absorbSome (s : Sha256) (p : Bytes) : Sha256 :=
  let take := s.room p
  let buffer := memcpy s.buffer s.bufferLen (p.take take)
  if h : s.bufferLen + take = 64 then
    { s with
      state := transform s.state buffer
      buffer
      bufferLen := 0
      buffer_size := s.length_copied p
      bufferLen_lt := by omega }
  else
    { s with
      buffer
      bufferLen := s.bufferLen + take
      buffer_size := s.length_copied p
      bufferLen_lt := by
        have hroom : s.room p ≤ 64 - s.bufferLen := Nat.min_le_left _ _
        have hlt := s.bufferLen_lt
        omega }

/-- The loop in `update`.  SOURCE: Core.cpp:261-266 -/
def updateLoop (s : Sha256) (p : Bytes) : Sha256 :=
  if p.length > 0 then updateLoop (s.absorbSome p) (p.drop (s.room p)) else s
termination_by p.length
decreasing_by
  have hlt := s.bufferLen_lt
  rw [List.length_drop, room]
  omega

/-- SOURCE: Core.cpp:258-267 -/
def update (s : Sha256) (data : Bytes) : Sha256 :=
  { s with bitLen := s.bitLen + UInt64.ofNat data.length * 8 }.updateLoop data

/-- `while (bufferLen_ != 56) update(&zero, 1)`, for at most `fuel` tests. -/
def padLoop : ℕ → Sha256 → Option Sha256
  | 0, _ => none
  | fuel + 1, s => if s.bufferLen ≠ 56 then padLoop fuel (s.update [0x00]) else some s

/-- `lenb`. -/
def lengthBytes (bits : UInt64) : Bytes :=
  (List.range 8).map fun i => ((bits >>> UInt64.ofNat ((7 - i) * 8)) &&& 0xFF).toUInt8

/-- The four bytes that a word of the state puts into the digest. -/
def storeWord (x : UInt32) : Bytes :=
  [((x >>> 24) &&& 0xFF).toUInt8, ((x >>> 16) &&& 0xFF).toUInt8, ((x >>> 8) &&& 0xFF).toUInt8,
    (x &&& 0xFF).toUInt8]

/-- The bytes `out`. -/
def output (state : Registers UInt32) : Digest := ⟨state.toList.flatMap storeWord, rfl⟩

/-- SOURCE: Core.cpp:269-286 -/
def final (fuel : ℕ) (s : Sha256) : Option Digest := do
  let padded ← padLoop fuel (s.update [0x80])
  return output (padded.update (lengthBytes s.bitLen)).state

/-- SOURCE: Core.cpp:288 -/
def hash (fuel : ℕ) (data : Bytes) : Option Digest := (init.update data).final fuel

end Sha256

end CompilationFabric.Model
