import CompilationFabric.Interface.JsonText
import Mathlib.Data.List.Nodup

/-!
# Objects built member by member

`toJson` builds an object with one `set` for each field, the text goes over a wire or a
file, and `fromJson` looks each field up.  Here the three steps are composed for any list
of fields with different keys: what is looked up is the field's value with its numbers
reread (`get_reread_ofFields`), and such an object is printable when its fields are.

The last section says what a number field becomes.  Every integer the program writes is
converted to a double first, so an unsigned field survives when a double holds it exactly
and it fits an `int64_t`, or when it has no more than six significant digits.
-/

set_option autoImplicit false

namespace CompilationFabric.Interface

open CompilationFabric.Library
open CompilationFabric.Library.Binary64
open CompilationFabric.Library.DecimalText
open CompilationFabric.Model
open CompilationFabric.Model.Json

/-! ## Insertion and lookup -/

/-- INTERNAL: a lookup asks the first member first. -/
theorem lookup_cons_ite (k k₀ : Bytes) (v₀ : Json) (o : List (Bytes × Json)) :
    ((k₀, v₀) :: o).lookup k = if k = k₀ then some v₀ else o.lookup k := by
  rw [List.lookup_cons]
  by_cases h : k = k₀
  · simp [h]
  · rw [beq_eq_false_iff_ne.mpr h, if_neg h]

/-- A member that is set is found, and the others as before. -/
theorem lookup_insertOrAssign (k k' : Bytes) (v : Json) (o : List (Bytes × Json)) :
    (insertOrAssign k v o).lookup k' = if k' = k then some v else o.lookup k' := by
  induction o with
  | nil => exact lookup_cons_ite k' k v []
  | cons p o ih =>
      obtain ⟨k₀, v₀⟩ := p
      rw [insertOrAssign]
      split
      · exact lookup_cons_ite k' k v _
      · next heq =>
        obtain rfl : k = k₀ := Std.LawfulEqOrd.compare_eq_iff_eq.mp heq
        rw [lookup_cons_ite, lookup_cons_ite]
        split <;> rfl
      · next hgt =>
        have hne : k₀ ≠ k := by
          rintro rfl
          rw [Std.ReflOrd.compare_self] at hgt
          exact absurd hgt (by decide)
        rw [lookup_cons_ite, lookup_cons_ite, ih]
        by_cases h : k' = k
        · rw [if_neg fun h' => hne (h'.symm.trans h), if_pos h, if_pos h]
        · rw [if_neg h, if_neg h]

/-- INTERNAL: setting a member brings no other key. -/
theorem keys_insertOrAssign {k : Bytes} {v : Json} {o : List (Bytes × Json)} {p : Bytes × Json}
    (h : p ∈ insertOrAssign k v o) : p.1 = k ∨ p.1 ∈ o.map Prod.fst := by
  induction o with
  | nil =>
      rw [insertOrAssign, List.mem_singleton] at h
      exact Or.inl (congrArg Prod.fst h)
  | cons q o ih =>
      obtain ⟨k₀, v₀⟩ := q
      rw [insertOrAssign] at h
      split at h
      · rcases List.mem_cons.mp h with rfl | h
        · exact Or.inl rfl
        · exact Or.inr (List.mem_map_of_mem h)
      · rcases List.mem_cons.mp h with rfl | h
        · exact Or.inr (by simp)
        · exact Or.inr (List.mem_map_of_mem (List.mem_cons_of_mem _ h))
      · rcases List.mem_cons.mp h with rfl | h
        · exact Or.inr (by simp)
        · rcases ih h with h | h
          · exact Or.inl h
          · exact Or.inr (by simp [h])

/-- Insertion keeps members in key order. -/
theorem printableMembers_insertOrAssign {k : Bytes} {v : Json} {o : List (Bytes × Json)}
    (hv : Printable v) (ho : PrintableMembers o) : PrintableMembers (insertOrAssign k v o) := by
  induction o with
  | nil => exact ⟨by simp, hv, trivial⟩
  | cons p o ih =>
      obtain ⟨k₀, v₀⟩ := p
      obtain ⟨hlt, hv₀, ho'⟩ := ho
      rw [insertOrAssign]
      split
      · next hk =>
        refine ⟨?_, hv, hlt, hv₀, ho'⟩
        intro p hp
        rcases List.mem_cons.mp hp with rfl | hp
        · exact hk
        · exact Std.TransCmp.lt_trans hk (hlt p hp)
      · next heq =>
        obtain rfl : k = k₀ := Std.LawfulEqOrd.compare_eq_iff_eq.mp heq
        exact ⟨hlt, hv, ho'⟩
      · next hgt =>
        refine ⟨?_, hv₀, ih ho'⟩
        intro p hp
        rcases keys_insertOrAssign hp with h | h
        · rw [h]
          exact Std.OrientedCmp.lt_of_gt hgt
        · obtain ⟨q, hq, hqp⟩ := List.mem_map.mp h
          rw [← hqp]
          exact hlt q hq

/-! ## Objects from fields -/

/-- The members of an object built from fields. -/
def membersOf (fields : List (String × Json)) : List (Bytes × Json) :=
  insertAll [] (fields.map fun f => (ascii f.1, f.2))

/-- INTERNAL: setting members in turn, from any members. -/
theorem foldl_set (fields : List (String × Json)) (o : List (Bytes × Json)) :
    fields.foldl (fun (j : Json) f => j.set f.1 f.2) (.object o) =
      .object (insertAll o (fields.map fun f => (ascii f.1, f.2))) := by
  induction fields generalizing o with
  | nil => rfl
  | cons f fields ih => rw [List.foldl_cons, Json.set, ih, List.map_cons, insertAll, insertAll,
      List.foldl_cons]

/-- A record is the object of its members. -/
theorem ofFields_eq (fields : List (String × Json)) :
    ofFields fields = .object (membersOf fields) := foldl_set fields []

/-- Members that can be printed are set into members that can be printed. -/
theorem printableMembers_insertAll {acc o : List (Bytes × Json)} (ho : ∀ p ∈ o, Printable p.2)
    (hacc : PrintableMembers acc) : PrintableMembers (insertAll acc o) := by
  induction o generalizing acc with
  | nil => exact hacc
  | cons p o ih =>
      rw [insertAll, List.foldl_cons]
      exact ih (fun q hq => ho q (by simp [hq]))
        (printableMembers_insertOrAssign (ho p (by simp)) hacc)

/-- A record can be printed when its values can. -/
theorem printable_ofFields {fields : List (String × Json)}
    (h : ∀ f ∈ fields, Printable f.2) : Printable (ofFields fields) := by
  rw [ofFields_eq]
  have hnil : PrintableMembers [] := trivial
  refine printableMembers_insertAll ?_ hnil
  intro p hp
  obtain ⟨f, hf, rfl⟩ := List.mem_map.mp hp
  exact h f hf

/-- A key that is not among the members is found as before. -/
theorem lookup_insertAll (acc : List (Bytes × Json)) {o : List (Bytes × Json)} {k : Bytes}
    (hk : k ∉ o.map Prod.fst) : (insertAll acc o).lookup k = acc.lookup k := by
  induction o generalizing acc with
  | nil => rfl
  | cons p o ih =>
      have hne : ¬ k = p.1 := fun h => hk (by simp [h])
      rw [insertAll, List.foldl_cons]
      have hrest := ih (insertOrAssign p.1 p.2 acc) fun h => hk (by simp [h])
      rw [insertAll] at hrest
      rw [hrest, lookup_insertOrAssign, if_neg hne]

/-- What is found in an object was there, or is one of the values that were put in. -/
theorem exists_mem_of_lookup {acc o : List (Bytes × Json)} {k : Bytes} {v : Json}
    (h : (insertAll acc o).lookup k = some v) : acc.lookup k = some v ∨ ∃ p ∈ o, p.2 = v := by
  induction o generalizing acc with
  | nil => exact .inl h
  | cons p o ih =>
      rw [insertAll, List.foldl_cons] at h
      rcases ih h with hacc | ⟨q, hq, hv⟩
      · rw [lookup_insertOrAssign] at hacc
        split at hacc
        · exact .inr ⟨p, List.mem_cons_self, Option.some.inj hacc⟩
        · exact .inl hacc
      · exact .inr ⟨q, List.mem_cons_of_mem p hq, hv⟩

/-- A member is found when no key comes twice. -/
theorem lookup_insertAll_of_mem (acc : List (Bytes × Json)) {o : List (Bytes × Json)} {k : Bytes}
    {v : Json}
    (hnodup : (o.map Prod.fst).Nodup) (hmem : (k, v) ∈ o) :
    (insertAll acc o).lookup k = some v := by
  induction o generalizing acc with
  | nil => simp at hmem
  | cons p o ih =>
      rw [List.map_cons, List.nodup_cons] at hnodup
      rcases List.mem_cons.mp hmem with rfl | hmem
      · have hrest := lookup_insertAll (insertOrAssign k v acc) hnodup.1
        rw [insertAll] at hrest
        rw [insertAll, List.foldl_cons, hrest, lookup_insertOrAssign, if_pos rfl]
      · have hrest := ih (insertOrAssign p.1 p.2 acc) hnodup.2 hmem
        rw [insertAll] at hrest
        rw [insertAll, List.foldl_cons, hrest]

/-- A member of the reread object is the reread member. -/
theorem lookup_rereadMembers (o : List (Bytes × Json)) (k : Bytes) :
    (rereadMembers o).lookup k = (o.lookup k).map reread := by
  induction o with
  | nil => rfl
  | cons p o ih =>
      obtain ⟨k₀, v⟩ := p
      rw [rereadMembers, List.lookup_cons, List.lookup_cons, ih]
      split <;> rfl

/-- A field of a printed and parsed object is the field with its numbers reread. -/
theorem get_reread_ofFields {fields : List (String × Json)} {key : String} {v : Json}
    (hnodup : (fields.map fun f => ascii f.1).Nodup) (hmem : (key, v) ∈ fields) :
    (reread (ofFields fields)).get key = some (reread v) := by
  have hnodup' : ((fields.map fun f => (ascii f.1, f.2)).map Prod.fst).Nodup := by
    rw [List.map_map]
    exact hnodup
  have hmem' : (ascii key, v) ∈ fields.map fun f => (ascii f.1, f.2) :=
    List.mem_map.mpr ⟨(key, v), hmem, rfl⟩
  rw [ofFields_eq, reread, Json.get, lookup_rereadMembers, membersOf,
    lookup_insertAll_of_mem [] hnodup' hmem']
  rfl

/-- INTERNAL: what a lookup finds is there. -/
theorem lookup_mem {fields : List (String × Json)} {key : String} {v : Json}
    (h : fields.lookup key = some v) : (key, v) ∈ fields := by
  induction fields with
  | nil => simp at h
  | cons f fields ih =>
      obtain ⟨k, w⟩ := f
      rw [List.lookup_cons] at h
      split at h
      · next heq =>
        obtain rfl : key = k := by simpa using heq
        obtain rfl : w = v := by simpa using h
        exact List.mem_cons_self
      · exact List.mem_cons_of_mem _ (ih h)

/-- The form in which `simp` evaluates a decoder on a list of fields. -/
theorem get_reread_lookup {fields : List (String × Json)}
    (hnodup : (fields.map fun f => ascii f.1).Nodup) {key : String}
    (hsome : (fields.lookup key).isSome) :
    (reread (ofFields fields)).get key = (fields.lookup key).map reread := by
  obtain ⟨v, hv⟩ := Option.isSome_iff_exists.mp hsome
  rw [get_reread_ofFields hnodup (lookup_mem hv), hv]
  rfl

/-! ## Arrays and numbers as fields -/

/-- INTERNAL: rereading goes into the elements. -/
theorem rereadElements_map {α : Type} (f : α → Json) (v : List α) :
    rereadElements (v.map f) = v.map fun e => reread (f e) := by
  rw [rereadElements_eq, List.map_map]
  rfl

/-- A string can be printed. -/
@[simp] theorem printable_str (s : Bytes) : Printable (.str s) := trivial

/-- A boolean can be printed. -/
@[simp] theorem printable_boolean (b : Bool) : Printable (.boolean b) := trivial

/-- An integer of at most sixty-four bits can be printed. -/
theorem printable_ofInt {n : ℤ} (hlo : -2 ^ 64 ≤ n) (hhi : n ≤ 2 ^ 64) :
    Printable (.number (ofInt n)) := by
  obtain ⟨x, hx, -⟩ := ofInt_finite hlo hhi
  exact ⟨x, hx⟩

/-- A `uint64_t` can be printed. -/
@[simp] theorem printable_ofU64 (n : UInt64) : Printable (ofU64 n) := by
  have hn := n.toNat_lt
  exact printable_ofInt (by omega) (by omega)

/-- An `int64_t` can be printed. -/
@[simp] theorem printable_ofI64 (n : Int64) : Printable (ofI64 n) := by
  have hlo := n.le_toInt
  have hhi := n.toInt_lt
  exact printable_ofInt (by omega) (by omega)

/-- A `uint32_t` can be printed. -/
@[simp] theorem printable_ofU32 (n : UInt32) : Printable (ofU32 n) := by
  have hn := n.toNat_lt
  exact printable_ofInt (by omega) (by omega)

/-- An `int32_t` can be printed. -/
@[simp] theorem printable_ofI32 (n : Int32) : Printable (ofI32 n) := by
  have hlo := n.le_toInt
  have hhi := n.toInt_lt
  exact printable_ofInt (by omega) (by omega)

/-- A list can be printed when its elements can. -/
theorem printable_array_map {α : Type} {f : α → Json} (h : ∀ a, Printable (f a)) (v : List α) :
    Printable (.array (v.map f)) := by
  rw [Printable, printableElements_iff]
  intro e he
  obtain ⟨a, -, rfl⟩ := List.mem_map.mp he
  exact h a

/-! ## Number fields -/

/-- A double is written as an integer when it is one that an `int64_t` holds. -/
theorem dumpNumber_of_val {x : Finite} {n : ℤ} (hx : x.val = n) (hlo : -2 ^ 63 ≤ n)
    (hhi : n < 2 ^ 63) : dumpNumber (.finite x) = intText n := by
  have hint : (toInt64 (.finite x)).toInt = n := by
    rw [toInt64_of_val hx hlo hhi]
    exact Int64.toInt_ofInt_of_le hlo hhi
  have heq : ofInt n = .finite x := by
    rw [ofInt, ← hx]
    exact ofRat_val x
  rw [dumpNumber, hint, heq, if_pos (by simp [Double.eq])]

/-- An integer in the range of `long long` is reread as itself. -/
theorem rereadNumber_of_val {x : Finite} {n : ℤ} (hx : x.val = n) (hlo : -2 ^ 63 ≤ n)
    (hhi : n < 2 ^ 63) : rereadNumber (.finite x) = .finite x := by
  rw [rereadNumber, dumpNumber_of_val hx hlo hhi, strtod_intText, Option.getD_some, ofInt, ← hx]
  exact ofRat_val x

/-- A double beyond every `int64_t` is written with six significant digits. -/
theorem dumpNumber_of_large {x : Finite} (hx : 2 ^ 63 ≤ x.val) :
    dumpNumber (.finite x) = gText x.val := by
  have hint : (toInt64 (.finite x)).toInt = -2 ^ 63 := by
    rw [toInt64_of_large hx]
    rfl
  have hne : ¬ Double.eq (.finite x) (ofInt (-2 ^ 63)) = true := by
    obtain ⟨y, hy, hval⟩ := ofInt_finite (n := -2 ^ 63) (by norm_num) (by norm_num)
    have hexact : roundRat ((-2 ^ 63 : ℤ) : ℚ) = ((-2 ^ 63 : ℤ) : ℚ) := by
      have h := roundRat_mul_two_pow (m := -1) (k := 63) (by norm_num)
      rwa [show (-1 * 2 ^ 63 : ℤ) = -2 ^ 63 by norm_num] at h
    rw [hy]
    intro heq
    have hxy : x = y := by simpa [Double.eq] using heq
    rw [hxy, hval, hexact] at hx
    norm_num at hx
  rw [dumpNumber, hint, if_neg hne]
  rfl

/-- The significant digits of a number from `10 ^ 18` on: the printed text denotes them
times a power of ten. -/
theorem rereadNumber_of_large {x : Finite} (hx : 2 ^ 63 ≤ x.val) :
    rereadNumber (.finite x) =
      ofRat ((sixDigits x.val).1 * 10 ^ ((sixDigits x.val).2 - 5)) := by
  have hpos : 0 < x.val := lt_of_lt_of_le (by norm_num) hx
  have hlog : 18 ≤ Int.log 10 x.val := by
    have hle : ((10 : ℕ) : ℚ) ^ (18 : ℤ) ≤ x.val := le_trans (by norm_num) hx
    exact (Int.zpow_le_iff_le_log (by norm_num) hpos).mp hle
  have hsci : ¬ (-4 ≤ (sixDigits x.val).2 ∧ (sixDigits x.val).2 < 6) := by
    rw [sixDigits]
    split
    · simp only
      omega
    · simp only
      omega
  have h := strtod_gTextPos x.val false hsci
  simp only [Bool.false_eq_true, if_false] at h
  rw [rereadNumber, dumpNumber_of_large hx, gText, if_neg hpos.ne', if_neg hpos.le.not_gt, h]
  rfl

/-! ## Integers over the wire -/

/-- A list is unchanged when its elements are. -/
theorem map_eq_self_iff {α : Type} {f : α → α} {l : List α} :
    l.map f = l ↔ ∀ a ∈ l, f a = a := by
  rw [List.map_eq_iff]
  constructor
  · intro h a ha
    obtain ⟨i, hi⟩ := List.mem_iff_getElem?.mp ha
    have := h i
    rw [hi] at this
    simpa using this.symm
  · intro h i
    cases hi : l[i]? with
    | none => rfl
    | some a => rw [Option.map_some, h a (List.mem_of_getElem? hi)]

/-- What `JNUM` reads back of an unsigned integer. -/
def wireU64 (n : UInt64) : UInt64 := toUInt64 (rereadNumber (ofInt n.toNat))

/-- What a cast to `int64_t` reads back of a signed integer. -/
def wireI64 (n : Int64) : Int64 := toInt64 (rereadNumber (ofInt n.toInt))

/-- The unsigned integers that come back unchanged. -/
def SurvivesU64 (n : UInt64) : Prop :=
  (n.toNat < 2 ^ 63 ∧ Exact n.toNat) ∨ (2 ^ 63 ≤ n.toNat ∧ SixDigits n.toNat)

/-- INTERNAL: a number in range wraps to itself only. -/
theorem ofNat_wire {n : UInt64} {v : ℤ} (hlo : 0 ≤ v) (hhi : v < 2 ^ 64) :
    UInt64.ofInt v = n ↔ v = n.toNat := by
  have hn := n.toNat_lt
  rw [← UInt64.toNat_inj, UInt64.ofInt, UInt64.toNat_ofNat', Int.emod_eq_of_lt hlo hhi,
    Nat.mod_eq_of_lt (by omega)]
  omega

/-- An integer below `2 ^ 53` is held exactly. -/
theorem exact_of_lt {n : ℤ} (h : |n| < 2 ^ 53) : Exact n := by
  have := roundRat_mul_two_pow (m := n) (k := 0) h
  rwa [pow_zero, mul_one] at this

/-- The value that comes back of a nonnegative integer, before the cast. -/
theorem rereadNumber_nonneg {n : ℤ} (hlo : 0 ≤ n) (hhi : n < 2 ^ 64) :
    ∃ (y : Finite) (v : ℤ), rereadNumber (ofInt n) = .finite y ∧ y.val = v ∧ 0 ≤ v ∧
      v < 2 ^ 64 ∧ (v = 0 ↔ n = 0) ∧
      (v = n ↔ (n < 2 ^ 63 ∧ Exact n) ∨ (2 ^ 63 ≤ n ∧ SixDigits n)) := by
  obtain ⟨x, hx, hval⟩ := ofInt_finite (n := n) (by omega) (by omega)
  obtain ⟨r, hr⟩ := roundRat_intCast n
  rw [hr] at hval
  have hbounds : 0 ≤ r ∧ r ≤ 2 ^ 64 ∧ (r = 0 ↔ n = 0) ∧ (2 ^ 63 ≤ n → 2 ^ 63 ≤ r) := by
    have hupper : (r : ℚ) ≤ 2 ^ (64 : ℤ) := by
      rw [← hr]
      refine (roundRat_le (by norm_num) ?_ ?_).1
      · exact le_trans (by norm_num) (Int.cast_nonneg hlo)
      · exact_mod_cast hhi.le
    have hstep : ∀ e : ℕ, 2 ^ e ≤ n → 2 ^ e ≤ r := by
      intro e he
      have h := le_roundRat (q := n) (e := e) (by omega) (by exact_mod_cast he)
      rw [hr] at h
      exact_mod_cast h
    have hone := hstep 0
    have hzero : n = 0 → r = 0 := by
      rintro rfl
      have h : Exact 0 := exact_of_lt (by norm_num)
      rw [Exact, hr] at h
      exact_mod_cast h
    refine ⟨?_, by exact_mod_cast hupper, ?_, hstep 63⟩ <;> omega
  obtain ⟨hr0, hr64, hrzero, hrlarge⟩ := hbounds
  rw [hx]
  rcases lt_or_ge r (2 ^ 63) with hlt | hge
  · refine ⟨x, r, rereadNumber_of_val hval (by omega) hlt, hval, hr0, by omega, hrzero, ?_⟩
    constructor
    · rintro rfl
      exact Or.inl ⟨hlt, hr⟩
    · rintro (⟨-, h⟩ | ⟨h, -⟩)
      · rw [Exact, hr] at h
        exact_mod_cast h
      · exact absurd (hrlarge h) (not_le.mpr hlt)
  · have hxlarge : 2 ^ 63 ≤ x.val := by
      rw [hval]
      exact_mod_cast hge
    have hxhi : x.val ≤ 2 ^ 64 := by
      rw [hval]
      exact_mod_cast hr64
    obtain ⟨y, v, hy, hyv, hv0, hv64, hexact, hsix, hid⟩ := ofRat_sixDigits hxlarge hxhi
    refine ⟨y, v, ?_, hyv, hv0.le, hv64, ?_, ?_⟩
    · rw [rereadNumber_of_large hxlarge, hy]
    · have hn0 : n ≠ 0 := fun h => by
        have := hrzero.mpr h
        omega
      exact ⟨fun h => absurd h hv0.ne', fun h => absurd h hn0⟩
    · constructor
      · rintro rfl
        have hrv : r = v := by
          rw [Exact, hr] at hexact
          exact_mod_cast hexact
        exact Or.inr ⟨by omega, hsix⟩
      · rintro (⟨hlt, h⟩ | ⟨-, h⟩)
        · rw [Exact, hr] at h
          have hrn : r = n := by exact_mod_cast h
          omega
        · have hn := h.exact hhi
          rw [Exact, hr] at hn
          exact hid n (by rw [hval, hn]) h

/-- INTERNAL: what crosses the wire for a `uint64_t`, as an integer. -/
theorem wireU64_spec (n : UInt64) :
    ∃ v : ℤ, wireU64 n = UInt64.ofInt v ∧ 0 ≤ v ∧ v < 2 ^ 64 ∧ (v = 0 ↔ (n.toNat : ℤ) = 0) ∧
      (v = n.toNat ↔ SurvivesU64 n) := by
  have hlt := n.toNat_lt
  obtain ⟨y, v, hy, hyv, hv0, hv64, hzero, hid⟩ :=
    rereadNumber_nonneg (n := n.toNat) (by omega) (by omega)
  refine ⟨v, ?_, hv0, hv64, hzero, ?_⟩
  · rw [wireU64, hy, toUInt64_of_val hyv (by omega) hv64]
  · rw [hid, SurvivesU64]
    norm_cast

/-- A `uint64_t` crosses the wire unchanged exactly when it survives. -/
theorem wireU64_eq_iff (n : UInt64) : wireU64 n = n ↔ SurvivesU64 n := by
  obtain ⟨v, hv, hv0, hv64, -, hid⟩ := wireU64_spec n
  rw [hv, ofNat_wire hv0 hv64, hid]

/-- Only zero crosses the wire as zero. -/
theorem wireU64_eq_zero (n : UInt64) : wireU64 n = 0 ↔ n = 0 := by
  obtain ⟨v, hv, hv0, hv64, hzero, -⟩ := wireU64_spec n
  rw [hv, ofNat_wire hv0 hv64, ← UInt64.toNat_inj]
  exact_mod_cast hzero

/-- An `int64_t` crosses the wire unchanged exactly when a double has it. -/
theorem wireI64_eq_iff (n : Int64) : wireI64 n = n ↔ Exact n.toInt := by
  have hlo := n.le_toInt
  have hhi := n.toInt_lt
  obtain ⟨x, hx, hval⟩ := ofInt_finite (n := n.toInt) (by omega) (by omega)
  obtain ⟨r, hr⟩ := roundRat_intCast n.toInt
  have hexact : Exact n.toInt ↔ r = n.toInt := by
    rw [Exact, hr]
    norm_cast
  have hcast : ∀ v : ℤ, -2 ^ 63 ≤ v → v < 2 ^ 63 → (Int64.ofInt v = n ↔ v = n.toInt) := by
    intro v hv hv'
    rw [← Int64.toInt_inj, Int64.toInt_ofInt_of_le hv hv']
  obtain ⟨hupper, hlower⟩ := roundRat_le (q := n.toInt) (e := 63) (by norm_num)
    (by exact_mod_cast hlo) (by exact_mod_cast hhi.le)
  rw [hr] at hval hupper hlower
  have hupper : r ≤ 2 ^ 63 := by exact_mod_cast hupper
  have hlower : -2 ^ 63 ≤ r := by exact_mod_cast hlower
  rw [wireI64, hx, hexact]
  rcases lt_or_ge r (2 ^ 63) with hlt | hge
  · rw [rereadNumber_of_val hval hlower hlt, toInt64_of_val hval hlower hlt,
      hcast r hlower hlt]
  · have hxlarge : 2 ^ 63 ≤ x.val := by
      rw [hval]
      exact_mod_cast hge
    have hxhi : x.val ≤ 2 ^ 64 := by
      rw [hval]
      exact_mod_cast hupper.trans (by norm_num)
    obtain ⟨y, v, hy, hyv, hv0, -, hvexact, -, -⟩ := ofRat_sixDigits hxlarge hxhi
    rw [rereadNumber_of_large hxlarge, hy]
    refine iff_of_false ?_ (by omega)
    rcases lt_or_ge v (2 ^ 63) with hvlt | hvge
    · rw [toInt64_of_val hyv (by omega) hvlt, hcast v (by omega) hvlt]
      rintro rfl
      have := hexact.mp hvexact
      omega
    · have hylarge : 2 ^ 63 ≤ y.val := by
        rw [hyv]
        exact_mod_cast hvge
      rw [toInt64_of_large hylarge]
      intro hn
      have hmin : n.toInt = -2 ^ 63 := by
        rw [← hn]
        rfl
      have hexactMin : Exact (-2 ^ 63) := by
        have h := roundRat_mul_two_pow (m := -1) (k := 63) (by norm_num)
        rwa [show (-1 * 2 ^ 63 : ℤ) = -2 ^ 63 by norm_num] at h
      rw [← hmin, hexact] at hexactMin
      omega

/-- A signed integer that a double holds reaches the cast to `uint64_t` unchanged. -/
theorem toUInt64_rereadNumber {n : ℤ} (hlo : -2 ^ 63 ≤ n) (hhi : n < 2 ^ 63) (h : Exact n) :
    toUInt64 (rereadNumber (ofInt n)) = UInt64.ofInt n := by
  obtain ⟨x, hx, hval⟩ := ofInt_finite (n := n) (by omega) (by omega)
  rw [h] at hval
  rw [hx, rereadNumber_of_val hval hlo hhi, toUInt64_of_val hval hlo (by omega)]

/-- What `static_cast<int64_t>(JNUM(…))` reads back of a signed integer. -/
def wireDuration (n : Int64) : Int64 := (toUInt64 (rereadNumber (ofInt n.toInt))).toInt64

/-- A duration that a double has crosses the wire unchanged. -/
theorem wireDuration_of_exact {n : Int64} (h : Exact n.toInt) : wireDuration n = n := by
  rw [wireDuration, toUInt64_rereadNumber n.le_toInt n.toInt_lt h, ← toUInt64_ofInt,
    Int64.ofInt_toInt]
  rfl

/-- What `static_cast<uint32_t>(JNUM(…))` reads back of a 32-bit count. -/
def wireU32 (n : UInt32) : UInt32 := (toUInt64 (rereadNumber (ofInt n.toNat))).toUInt32

/-- A `uint32_t` crosses the wire unchanged. -/
@[simp] theorem wireU32_eq (n : UInt32) : wireU32 n = n := by
  have hn := n.toNat_lt
  have hexact : Exact (n.toNat : ℤ) := exact_of_lt (by rw [abs_of_nonneg] <;> omega)
  rw [wireU32, toUInt64_rereadNumber (by omega) (by omega) hexact, UInt64.ofInt,
    ← UInt32.toNat_inj, UInt64.toNat_toUInt32, UInt64.toNat_ofNat']
  omega

/-- What `static_cast<int>(JNUM64(…))` reads back of an `int`. -/
def wireInt (n : Int32) : Int32 :=
  (toUInt64 (rereadNumber (ofInt n.toInt))).toUInt32.toInt32

/-- An `int` crosses the wire unchanged. -/
@[simp] theorem wireInt_eq (n : Int32) : wireInt n = n := by
  have hlo := n.le_toInt
  have hhi := n.toInt_lt
  have hexact : Exact n.toInt := exact_of_lt (by rw [abs_lt]; omega)
  rw [wireInt, toUInt64_rereadNumber (by omega) (by omega) hexact]
  have hword : (UInt64.ofInt n.toInt).toUInt32 = n.toUInt32 := by
    have hn : n.toInt = if 2 * n.toUInt32.toNat < 2 ^ 32 then (n.toUInt32.toNat : ℤ)
        else n.toUInt32.toNat - (2 ^ 32 : ℕ) := BitVec.toInt_eq_toNat_cond n.toBitVec
    have hlt := n.toUInt32.toNat_lt
    rw [← UInt32.toNat_inj, UInt64.toNat_toUInt32, UInt64.ofInt, UInt64.toNat_ofNat']
    split at hn <;> omega
  rw [hword]
  rfl

end CompilationFabric.Interface
