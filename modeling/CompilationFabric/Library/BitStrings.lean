import CompilationFabric.Library.Positional

/-!
# Bit strings

A standard that is written for bits, and a program that is written for bytes, meet in
the numerals of base two: a byte is the eight-bit string of its number, a message of
bytes is the concatenation of its bytes' strings, and a big-endian field of `k` bytes
is the `8 * k`-bit string of its number.  The lemmas say that the concatenation may be
cut wherever the bytes may be cut, and that both readings denote the same number.
-/

set_option autoImplicit false

namespace CompilationFabric.Library.BitStrings

open Positional

/-- The `k`-bit string of `n`, most significant bit first. -/
def ofNat (k n : ℕ) : List Bool := (digits 2 k n).map (· == 1)

/-- The number a bit string denotes, most significant bit first. -/
def toNat (bs : List Bool) : ℕ := value 2 (bs.map Bool.toNat)

/-- The bits of a byte string. -/
def ofBytes (bs : List UInt8) : List Bool := bs.flatMap fun b => ofNat 8 b.toNat

/-- The bits of a number are as many as were asked for. -/
@[simp] theorem length_ofNat (k n : ℕ) : (ofNat k n).length = k := by
  simp [ofNat]

/-! ## Numerals in a base and in its powers -/

/-- A numeral splits into the digits above a position and the digits below it. -/
theorem digits_add (b j k n : ℕ) :
    digits b (j + k) n = digits b j (n / b ^ k) ++ digits b k n := by
  induction j with
  | zero => simp [digits]
  | succ j ih =>
      rw [Nat.add_right_comm, digits, digits, ih, Nat.div_div_eq_div_mul, ← pow_add,
        Nat.add_comm k j]
      rfl

/-- A digit of the base `b ^ j` is `j` digits of the base `b`. -/
theorem digits_mul {b : ℕ} (hb : 0 < b) (j k n : ℕ) :
    digits b (j * k) n = (digits (b ^ j) k n).flatMap (digits b j) := by
  induction k with
  | zero => simp [digits]
  | succ k ih =>
      have hdigit : digits b j (n / b ^ (j * k) % b ^ j) = digits b j (n / b ^ (j * k)) := by
        have hsplit := Nat.div_add_mod' (n / b ^ (j * k)) (b ^ j)
        conv_rhs => rw [← hsplit, digits_add_mul hb]
      rw [Nat.mul_succ, Nat.add_comm, digits_add, ih, digits, List.flatMap_cons, ← pow_mul, hdigit]

/-- Reading in the base `b ^ j` is reading the `j` digits of each digit. -/
theorem value_flatMap_digits {b j : ℕ} {ds : List ℕ} (h : ∀ d ∈ ds, d < b ^ j) :
    value b (ds.flatMap (digits b j)) = value (b ^ j) ds := by
  induction ds with
  | nil => rfl
  | cons d ds ih =>
      have hlength : (ds.flatMap (digits b j)).length = j * ds.length := by
        simp [List.length_flatMap, Nat.mul_comm]
      have hd : d < b ^ j := h d List.mem_cons_self
      rw [List.flatMap_cons, value_append, value_digits_of_lt hd, value_cons, hlength, pow_mul,
        ih fun x hx => h x (List.mem_cons_of_mem _ hx)]

/-- The bits of a number are its binary digits. -/
theorem map_toNat_ofNat (k n : ℕ) : (ofNat k n).map Bool.toNat = digits 2 k n := by
  rw [ofNat, List.map_map]
  conv_rhs => rw [← List.map_id (digits 2 k n)]
  apply List.map_congr_left
  intro d hd
  have hlt : d < 2 := mem_digits_lt (by omega) hd
  obtain rfl | rfl : d = 0 ∨ d = 1 := by omega
  · rfl
  · rfl

/-! ## Byte strings -/

section Bytes

variable (bs cs : List UInt8)

/-- No bytes have no bits. -/
@[simp] theorem ofBytes_nil : ofBytes [] = [] := rfl

/-- The bits of the first byte stand in front. -/
theorem ofBytes_cons (b : UInt8) : ofBytes (b :: bs) = ofNat 8 b.toNat ++ ofBytes bs := rfl

/-- The bits of two byte strings stand one behind the other. -/
theorem ofBytes_append : ofBytes (bs ++ cs) = ofBytes bs ++ ofBytes cs := by
  simp [ofBytes]

/-- Every byte has eight bits. -/
@[simp] theorem length_ofBytes : (ofBytes bs).length = 8 * bs.length := by
  simp [ofBytes, List.length_flatMap, Nat.mul_comm]

/-- Leaving out bytes leaves out eight bits for each of them. -/
theorem ofBytes_drop (k : ℕ) : ofBytes (bs.drop k) = (ofBytes bs).drop (8 * k) := by
  induction k generalizing bs with
  | zero => rfl
  | succ k ih =>
      cases bs with
      | nil => simp
      | cons b bs =>
          rw [ofBytes_cons, List.drop_succ_cons, ih, Nat.mul_succ, Nat.add_comm,
            ← List.drop_drop, List.drop_left' (length_ofNat 8 _)]

/-- Taking bytes takes eight bits for each of them. -/
theorem ofBytes_take (k : ℕ) : ofBytes (bs.take k) = (ofBytes bs).take (8 * k) := by
  induction k generalizing bs with
  | zero => simp
  | succ k ih =>
      cases bs with
      | nil => simp
      | cons b bs =>
          have hlength : 8 * (k + 1) = (ofNat 8 b.toNat).length + 8 * k := by
            rw [length_ofNat]
            omega
          rw [List.take_succ_cons, ofBytes_cons, ofBytes_cons, ih, hlength,
            List.take_length_add_append]

/-- The bits of a byte string are the binary digits of its bytes. -/
theorem map_toNat_ofBytes :
    (ofBytes bs).map Bool.toNat = (bs.map UInt8.toNat).flatMap (digits 2 8) := by
  rw [ofBytes, List.map_flatMap, List.flatMap_map]
  simp only [map_toNat_ofNat]

/-- The bits of a byte string denote what the bytes denote. -/
theorem toNat_ofBytes : toNat (ofBytes bs) = Positional.ofBytes bs := by
  rw [toNat, map_toNat_ofBytes, Positional.ofBytes]
  apply value_flatMap_digits
  intro d hd
  obtain ⟨b, -, rfl⟩ := List.mem_map.mp hd
  exact b.toNat_lt

/-- A field of `k` bytes is the `8 * k`-bit string of its number. -/
theorem ofBytes_toBytes (k n : ℕ) : ofBytes (toBytes k n) = ofNat (8 * k) n := by
  have hdigits : digits 2 (8 * k) n = (digits (2 ^ 8) k n).flatMap (digits 2 8) :=
    digits_mul (by omega) 8 k n
  have hbytes := map_toNat_toBytes k n
  rw [ofNat, hdigits, show (2 : ℕ) ^ 8 = 256 by norm_num, ← hbytes, List.flatMap_map,
    List.map_flatMap]
  rfl

/-- Zero bytes have zero bits. -/
theorem ofBytes_replicate (k : ℕ) :
    ofBytes (List.replicate k 0) = List.replicate (8 * k) false := by
  induction k with
  | zero => rfl
  | succ k ih =>
      have hzero : ofNat 8 (0 : UInt8).toNat = List.replicate 8 false := by decide
      rw [List.replicate_succ, ofBytes_cons, ih, hzero, ← List.replicate_add]
      congr 1
      omega

end Bytes

/-- Byte strings with the same bits are the same. -/
theorem ofBytes_injective : Function.Injective ofBytes := by
  intro bs cs h
  have hlength := congrArg List.length h
  rw [length_ofBytes, length_ofBytes] at hlength
  have hvalue := congrArg toNat h
  rw [toNat_ofBytes, toNat_ofBytes] at hvalue
  rw [← toBytes_ofBytes bs, ← toBytes_ofBytes cs, hvalue]
  congr 1
  omega

end CompilationFabric.Library.BitStrings
