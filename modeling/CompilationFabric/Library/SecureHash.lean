import CompilationFabric.Library.BitStrings
import Mathlib.Analysis.SpecialFunctions.Pow.NthRootLemmas
import Mathlib.Data.Nat.Nth
import Mathlib.Data.Nat.Prime.Infinite

/-!
# The Secure Hash Standard, SHA-256

FIPS 180-4 as it is written: a message is a string of bits, a word is thirty-two bits,
the constants are the first bits of the fractional parts of roots of the first primes.
Nothing here is meant to be run; a program's tables, its byte order and its buffering
are compared with it.

`digest M` is defined for a message of any length.  The standard admits fewer than
`2 ^ 64` bits, which is what the length field of the padding can hold.
-/

set_option autoImplicit false

namespace CompilationFabric.Library.SecureHash

/-- FIPS 180-4, 2.1: a word of SHA-256. -/
abbrev Word := BitVec 32

/-! ## Functions and constants -/

/-- FIPS 180-4, 4.1.2. -/
def Ch (x y z : Word) : Word := (x &&& y) ^^^ (~~~x &&& z)

def Maj (x y z : Word) : Word := (x &&& y) ^^^ (x &&& z) ^^^ (y &&& z)

def bigSigma0 (x : Word) : Word := x.rotateRight 2 ^^^ x.rotateRight 13 ^^^ x.rotateRight 22

def bigSigma1 (x : Word) : Word := x.rotateRight 6 ^^^ x.rotateRight 11 ^^^ x.rotateRight 25

def smallSigma0 (x : Word) : Word := x.rotateRight 7 ^^^ x.rotateRight 18 ^^^ x >>> 3

def smallSigma1 (x : Word) : Word := x.rotateRight 17 ^^^ x.rotateRight 19 ^^^ x >>> 10

/-- The first thirty-two bits of the fractional part of the `k`-th root of `p`: the root
scaled by `2 ^ 32` and truncated, without its integer part. -/
def rootFraction (k p : ℕ) : Word := BitVec.ofNat 32 (Nat.nthRoot k (p * 2 ^ (32 * k)))

/-- FIPS 180-4, 4.2.2: from the cube roots of the first sixty-four primes. -/
noncomputable def roundConstant (t : ℕ) : Word := rootFraction 3 (Nat.nth Nat.Prime t)

/-- The eight words of a hash value, and the eight working variables of a compression. -/
@[ext] structure Registers (α : Type) where
  a : α
  b : α
  c : α
  d : α
  e : α
  f : α
  g : α
  h : α
  deriving DecidableEq, Repr

section Registers

variable {α β γ : Type}

def Registers.map (f : α → β) (r : Registers α) : Registers β :=
  ⟨f r.a, f r.b, f r.c, f r.d, f r.e, f r.f, f r.g, f r.h⟩

def Registers.zipWith (f : α → β → γ) (r : Registers α) (s : Registers β) : Registers γ :=
  ⟨f r.a s.a, f r.b s.b, f r.c s.c, f r.d s.d, f r.e s.e, f r.f s.f, f r.g s.g, f r.h s.h⟩

def Registers.toList (r : Registers α) : List α := [r.a, r.b, r.c, r.d, r.e, r.f, r.g, r.h]

/-- INTERNAL: mapping the registers maps their list. -/
@[simp] theorem Registers.toList_map (f : α → β) (r : Registers α) :
    (r.map f).toList = r.toList.map f := rfl

end Registers

/-- FIPS 180-4, 5.3.3: from the square roots of the first eight primes. -/
noncomputable def initial : Registers Word :=
  let H i := rootFraction 2 (Nat.nth Nat.Prime i)
  ⟨H 0, H 1, H 2, H 3, H 4, H 5, H 6, H 7⟩

/-! ## Padding and parsing -/

/-- INTERNAL: some number of zeros completes the block. -/
theorem zeroBits_exists (ℓ : ℕ) : ∃ k, (ℓ + 1 + k) % 512 = 448 :=
  ⟨(960 - (ℓ + 1) % 512) % 512, by omega⟩

/-- FIPS 180-4, 5.1.1: the smallest non-negative solution of `ℓ + 1 + k ≡ 448 mod 512`. -/
def zeroBits (ℓ : ℕ) : ℕ := Nat.find (zeroBits_exists ℓ)

/-- FIPS 180-4, 5.1.1: a one, zeros, and the length in sixty-four bits. -/
def pad (M : List Bool) : List Bool :=
  M ++ true :: List.replicate (zeroBits M.length) false ++ BitStrings.ofNat 64 M.length

/-- FIPS 180-4, 5.2.1: the `t`-th word of the `i`-th block of a padded message. -/
def wordOf (P : List Bool) (i t : ℕ) : Word :=
  BitVec.ofNat 32 (BitStrings.toNat ((P.drop (512 * i + 32 * t)).take 32))

/-! ## Hash computation -/

/-- FIPS 180-4, 6.2.2, step 1. -/
def schedule (M : ℕ → Word) (t : ℕ) : Word :=
  if t < 16 then M t
  else smallSigma1 (schedule M (t - 2)) + schedule M (t - 7) + smallSigma0 (schedule M (t - 15)) +
    schedule M (t - 16)

/-- FIPS 180-4, 6.2.2, step 3, for the constant and the schedule word of a round. -/
def round (r : Registers Word) (K W : Word) : Registers Word :=
  let T1 := r.h + bigSigma1 r.e + Ch r.e r.f r.g + K + W
  let T2 := bigSigma0 r.a + Maj r.a r.b r.c
  ⟨T1 + T2, r.a, r.b, r.c, r.d + T1, r.e, r.f, r.g⟩

/-- FIPS 180-4, 6.2.2: one block with the words `M`. -/
noncomputable def compress (H : Registers Word) (M : ℕ → Word) : Registers Word :=
  H.zipWith (· + ·)
    ((List.range 64).foldl (fun r t => round r (roundConstant t) (schedule M t)) H)

/-- FIPS 180-4, 6.2.2: the message digest, `256` bits. -/
noncomputable def digest (M : List Bool) : List Bool :=
  let P := pad M
  let H := (List.range (P.length / 512)).foldl (fun H i => compress H (wordOf P i)) initial
  H.toList.flatMap fun w => BitStrings.ofNat 32 w.toNat

/-! ## The padding -/

/-- The zeros leave room for the length of the message. -/
theorem zeroBits_spec (ℓ : ℕ) : (ℓ + 1 + zeroBits ℓ) % 512 = 448 :=
  Nat.find_spec (zeroBits_exists ℓ)

/-- No smaller number of zeros does. -/
theorem zeroBits_min {ℓ k : ℕ} (h : k < zeroBits ℓ) : (ℓ + 1 + k) % 512 ≠ 448 :=
  Nat.find_min (zeroBits_exists ℓ) h

/-- The zeros are fewer than the bits of a block. -/
theorem zeroBits_lt (ℓ : ℕ) : zeroBits ℓ < 512 := by
  have hspec := zeroBits_spec ℓ
  by_contra hle
  have hsmaller : zeroBits ℓ - 512 < zeroBits ℓ := by omega
  have hmin := zeroBits_min hsmaller
  omega

/-! ## The message schedule -/

/-- The schedule begins with the words of the block. -/
theorem schedule_of_lt {M : ℕ → Word} {t : ℕ} (h : t < 16) : schedule M t = M t := by
  rw [schedule, if_pos h]

/-- The recurrence of the schedule, counted from its sixteenth word. -/
theorem schedule_add (M : ℕ → Word) (t : ℕ) :
    schedule M (16 + t) = smallSigma1 (schedule M (16 + t - 2)) + schedule M (16 + t - 7) +
      smallSigma0 (schedule M (16 + t - 15)) + schedule M (16 + t - 16) := by
  rw [schedule, if_neg (by omega)]

/-- Only the sixteen words of the block enter its schedule. -/
theorem schedule_congr {M N : ℕ → Word} (h : ∀ t < 16, M t = N t) : schedule M = schedule N := by
  funext t
  induction t using Nat.strong_induction_on with
  | _ t ih =>
      by_cases hlt : t < 16
      · rw [schedule_of_lt hlt, schedule_of_lt hlt, h t hlt]
      · obtain ⟨u, rfl⟩ := Nat.exists_eq_add_of_le (Nat.le_of_not_lt hlt)
        rw [schedule_add, schedule_add, ih _ (by omega), ih (16 + u - 7) (by omega),
          ih (16 + u - 15) (by omega), ih (16 + u - 16) (by omega)]

/-- Compression looks at the sixteen words of the block only. -/
theorem compress_congr {M N : ℕ → Word} (h : ∀ t < 16, M t = N t) (H : Registers Word) :
    compress H M = compress H N := by
  rw [compress, compress, schedule_congr h]

/-! ## Tables of constants -/

/-- A list that the primes below a bound make up, in order, lists the first primes. -/
theorem nth_prime_eq {n : ℕ} {ps : List ℕ} (h : (List.range n).filter Nat.Prime = ps)
    {t : ℕ} (ht : t < ps.length) : Nat.nth Nat.Prime t = ps[t] := by
  subst h
  induction n with
  | zero => simp at ht
  | succ n ih =>
      by_cases hprime : Nat.Prime n
      · have hfilter : (List.range (n + 1)).filter Nat.Prime =
            (List.range n).filter Nat.Prime ++ [n] := by
          rw [List.range_succ, List.filter_append, List.filter_singleton]
          simp [hprime]
        simp only [hfilter, List.length_append, List.length_singleton] at ht ⊢
        by_cases hlt : t < ((List.range n).filter Nat.Prime).length
        · rw [List.getElem_append_left hlt, ih hlt]
        · have hcount : Nat.count Nat.Prime n = t := by
            rw [Nat.count, List.countP_eq_length_filter]
            omega
          have hnth : Nat.nth Nat.Prime t = n := by rw [← hcount, Nat.nth_count hprime]
          rw [List.getElem_append_right (by omega), List.getElem_singleton, hnth]
      · have hfilter : (List.range (n + 1)).filter Nat.Prime =
            (List.range n).filter Nat.Prime := by
          rw [List.range_succ, List.filter_append, List.filter_singleton]
          simp [hprime]
        simp only [hfilter] at ht ⊢
        exact ih ht

/-- A word that, under some integer part, is a scaled root is recognised by its powers. -/
theorem rootFraction_eq {k p i : ℕ} {w : Word} (h : (i * 2 ^ 32 + w.toNat) ^ k ≤ p * 2 ^ (32 * k))
    (h' : p * 2 ^ (32 * k) < (i * 2 ^ 32 + w.toNat + 1) ^ k) : rootFraction k p = w := by
  rw [rootFraction, Nat.nthRoot_eq_of_le_of_lt h h']
  apply BitVec.eq_of_toNat_eq
  have hlt := w.isLt
  rw [BitVec.toNat_ofNat]
  omega

end CompilationFabric.Library.SecureHash
