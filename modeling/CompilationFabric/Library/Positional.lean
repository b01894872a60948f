import Mathlib.Tactic.Ring
import Mathlib.Tactic.Positivity
import Mathlib.Algebra.Order.Ring.Nat

/-!
# Fixed-width positional numerals

Every number this development puts on a wire or into a text is written as a fixed
count of digits, most significant first: bytes in base 256, hexadecimal text in base
16, decimal text in base 10.  The arithmetic is the same in each, so it is done once
here for an arbitrary base.

`digits b k n` is the `k`-digit numeral of `n` in base `b`, which is reduced modulo
`b ^ k` the way a machine store reduces it.  `value b ds` reads a digit string of any
length back.  `value_digits` and `digits_value` say that the two are inverse to each
other.  The last section specialises to bytes.
-/

set_option autoImplicit false

namespace CompilationFabric.Library.Positional

/-- The `k`-digit numeral of `n` in base `b`, most significant digit first. -/
def digits (b : ℕ) : ℕ → ℕ → List ℕ
  | 0, _ => []
  | k + 1, n => n / b ^ k % b :: digits b k n

/-- The number a digit string denotes in base `b`, most significant digit first. -/
def value (b : ℕ) (ds : List ℕ) : ℕ :=
  ds.foldl (fun acc d => acc * b + d) 0

/-- The digits are as many as were asked for. -/
@[simp] theorem length_digits (b k n : ℕ) : (digits b k n).length = k := by
  induction k with
  | zero => rfl
  | succ k ih => simp [digits, ih]

/-- INTERNAL: no digits have the value zero. -/
@[simp] theorem value_nil (b : ℕ) : value b [] = 0 := rfl

/-- Reading with an accumulator shifts the accumulator past the digits read. -/
theorem foldl_eq (b : ℕ) (ds : List ℕ) (acc : ℕ) :
    ds.foldl (fun acc d => acc * b + d) acc = acc * b ^ ds.length + value b ds := by
  induction ds generalizing acc with
  | nil => simp
  | cons d ds ih =>
      have h := ih (0 * b + d)
      simp only [value, List.foldl_cons, List.length_cons] at h ⊢
      rw [ih, h]
      simp only [value]
      ring

/-- The first digit counts by its place. -/
theorem value_cons (b d : ℕ) (ds : List ℕ) :
    value b (d :: ds) = d * b ^ ds.length + value b ds := by
  have h := foldl_eq b ds (0 * b + d)
  simpa [value] using h

/-- Digits in front count by their place. -/
theorem value_append (b : ℕ) (ds es : List ℕ) :
    value b (ds ++ es) = value b ds * b ^ es.length + value b es := by
  rw [value, List.foldl_append, foldl_eq]
  rfl

/-- A string of `k` digits below the base denotes a number below `b ^ k`. -/
theorem value_lt {b : ℕ} {ds : List ℕ} (h : ∀ d ∈ ds, d < b) :
    value b ds < b ^ ds.length := by
  induction ds with
  | nil => simp
  | cons d ds ih =>
      have hd : d < b := h d (by simp)
      have hds : value b ds < b ^ ds.length := ih fun x hx => h x (by simp [hx])
      rw [value_cons, List.length_cons, pow_succ]
      calc d * b ^ ds.length + value b ds
          < d * b ^ ds.length + b ^ ds.length := by omega
        _ = (d + 1) * b ^ ds.length := by ring
        _ ≤ b * b ^ ds.length := Nat.mul_le_mul_right _ hd
        _ = b ^ ds.length * b := Nat.mul_comm _ _

/-- Every digit is below the base. -/
theorem mem_digits_lt {b : ℕ} (hb : 0 < b) {k n d : ℕ} (h : d ∈ digits b k n) : d < b := by
  induction k with
  | zero => simp [digits] at h
  | succ k ih =>
      rcases List.mem_cons.mp h with rfl | h
      · exact Nat.mod_lt _ hb
      · exact ih h

/-- Reading a numeral back gives the number modulo the width written. -/
theorem value_digits (b k n : ℕ) : value b (digits b k n) = n % b ^ k := by
  induction k with
  | zero => simp [digits, Nat.mod_one]
  | succ k ih =>
      have hsplit : n % (b ^ k * b) = n % b ^ k + b ^ k * (n / b ^ k % b) := Nat.mod_mul
      rw [digits, value_cons, length_digits, ih, pow_succ, hsplit]
      ring

/-- A number that fits is the value of its digits. -/
theorem value_digits_of_lt {b k n : ℕ} (h : n < b ^ k) : value b (digits b k n) = n := by
  rw [value_digits, Nat.mod_eq_of_lt h]

/-- The numeral only depends on the number modulo the width. -/
theorem digits_add_mul {b : ℕ} (hb : 0 < b) (k a n : ℕ) :
    digits b k (a * b ^ k + n) = digits b k n := by
  induction k generalizing a with
  | zero => rfl
  | succ k ih =>
      have hp : 0 < b ^ k := by positivity
      have hhead : (a * b ^ (k + 1) + n) / b ^ k = a * b + n / b ^ k := by
        rw [show a * b ^ (k + 1) + n = n + b ^ k * (a * b) by ring,
          Nat.add_mul_div_left _ _ hp]
        omega
      have htail : digits b k (a * b ^ (k + 1) + n) = digits b k n := by
        rw [show a * b ^ (k + 1) = a * b * b ^ k by ring]
        exact ih (a * b)
      rw [digits, digits, hhead, htail, Nat.mul_add_mod']

/-- Writing the number a digit string denotes gives the digit string. -/
theorem digits_value {b : ℕ} (hb : 0 < b) {ds : List ℕ} (h : ∀ d ∈ ds, d < b) :
    digits b ds.length (value b ds) = ds := by
  induction ds with
  | nil => rfl
  | cons d ds ih =>
      have hd : d < b := h d (by simp)
      have hds : ∀ x ∈ ds, x < b := fun x hx => h x (by simp [hx])
      have hp : 0 < b ^ ds.length := by positivity
      have hdiv : (d * b ^ ds.length + value b ds) / b ^ ds.length = d := by
        rw [Nat.add_comm, Nat.add_mul_div_right _ _ hp, Nat.div_eq_of_lt (value_lt hds)]
        omega
      rw [List.length_cons, digits, value_cons, digits_add_mul hb, ih hds, hdiv,
        Nat.mod_eq_of_lt hd]

/-! ## Bytes -/

/-- The `k`-byte big-endian store of `n`. -/
def toBytes (k n : ℕ) : List UInt8 :=
  (digits 256 k n).map UInt8.ofNat

/-- The number a big-endian byte string denotes. -/
def ofBytes (bs : List UInt8) : ℕ :=
  value 256 (bs.map UInt8.toNat)

/-- The bytes are as many as were asked for. -/
@[simp] theorem length_toBytes (k n : ℕ) : (toBytes k n).length = k := by
  simp [toBytes]

/-- The bytes of a number are its digits to the base 256. -/
theorem map_toNat_toBytes (k n : ℕ) : (toBytes k n).map UInt8.toNat = digits 256 k n := by
  rw [toBytes, List.map_map]
  conv_rhs => rw [← List.map_id (digits 256 k n)]
  apply List.map_congr_left
  intro d hd
  have hlt : d < 256 := mem_digits_lt (by omega) hd
  simp only [Function.comp_apply, UInt8.toNat_ofNat', id_eq]
  omega

/-- A number comes back from its bytes up to what does not fit. -/
theorem ofBytes_toBytes (k n : ℕ) : ofBytes (toBytes k n) = n % 256 ^ k := by
  rw [ofBytes, map_toNat_toBytes, value_digits]

/-- A number that fits comes back from its bytes. -/
theorem ofBytes_toBytes_of_lt {k n : ℕ} (h : n < 256 ^ k) : ofBytes (toBytes k n) = n := by
  rw [ofBytes_toBytes, Nat.mod_eq_of_lt h]

/-- The value of bytes is bounded by their number. -/
theorem ofBytes_lt (bs : List UInt8) : ofBytes bs < 256 ^ bs.length := by
  have h : ∀ d ∈ bs.map UInt8.toNat, d < 256 := by
    intro d hd
    obtain ⟨b, -, rfl⟩ := List.mem_map.mp hd
    exact b.toNat_lt
  simpa [ofBytes] using value_lt h

/-- Storing the number a byte string denotes gives the byte string. -/
theorem toBytes_ofBytes (bs : List UInt8) : toBytes bs.length (ofBytes bs) = bs := by
  have h : ∀ d ∈ bs.map UInt8.toNat, d < 256 := by
    intro d hd
    obtain ⟨b, -, rfl⟩ := List.mem_map.mp hd
    exact b.toNat_lt
  have hdigits := digits_value (by omega) h
  rw [List.length_map] at hdigits
  rw [toBytes, ofBytes, hdigits, List.map_map]
  simp [Function.comp_def]

/-- Numbers that fit have different bytes. -/
theorem toBytes_inj {k m n : ℕ} (hm : m < 256 ^ k) (hn : n < 256 ^ k) :
    toBytes k m = toBytes k n ↔ m = n := by
  constructor
  · intro h
    have hv := congrArg ofBytes h
    rwa [ofBytes_toBytes_of_lt hm, ofBytes_toBytes_of_lt hn] at hv
  · rintro rfl
    rfl

end CompilationFabric.Library.Positional
