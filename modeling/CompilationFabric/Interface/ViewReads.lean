import CompilationFabric.Interface.CanonicalRecord
import CompilationFabric.Model.ReaderCalls

/-!
# Views read back

What `bytesBlob` and `rawBlob` give out, for a reader that has consumed some bytes and has others
in front of it.  `rawBlob_cases` inverts a view that was given out: either its bytes stand there,
or its length has wrapped, and then it is everything up to the end while the cursor is back
among the bytes already consumed.
-/

set_option autoImplicit false

namespace CompilationFabric.Interface

open CompilationFabric.Model

variable {pre bs out : Bytes} {rd : CanonicalReader} {n : ℕ}

/-- A view that is given out is the bytes declared, or the cursor has gone back. -/
theorem rawBlob_cases (hsize : (pre ++ bs).length ≤ maxObjectSize) (hn : n < sizeMod)
    (h : (CanonicalReader.after pre bs).rawBlob n = some (out, rd)) :
    (∃ tl, bs = out ++ tl ∧ out.length = n ∧ rd = CanonicalReader.after (pre ++ out) tl) ∨
      (out = bs ∧ bs.length < n ∧ rd.data = pre ++ bs ∧ rd.pos < pre.length) := by
  have hpre : pre.length + bs.length ≤ maxObjectSize := by
    rw [← List.length_append]
    exact hsize
  simp only [maxObjectSize] at hpre
  unfold CanonicalReader.rawBlob at h
  split at h
  · cases h
  · next hover =>
    have hview := Option.some_inj.mp h
    rcases Nat.lt_or_ge (pre.length + n) sizeMod with hwrap | hwrap
    · left
      have hle : n ≤ bs.length := by
        simp only [CanonicalReader.overruns, CanonicalReader.after, List.length_append,
          Nat.mod_eq_of_lt hwrap] at hover
        omega
      have hlen : (bs.take n).length = n := List.length_take_of_le hle
      have hsize' : (pre ++ (bs.take n ++ bs.drop n)).length < sizeMod := by
        rw [List.take_append_drop, List.length_append]
        simp only [sizeMod]
        omega
      have hread := CanonicalReader.view_after hsize' hlen
      rw [List.take_append_drop, hview, Prod.mk.injEq] at hread
      obtain ⟨rfl, rfl⟩ := hread
      exact ⟨bs.drop n, (List.take_append_drop n bs).symm, hlen, rfl⟩
    · right
      have hmod : (pre.length + n) % sizeMod = pre.length + n - sizeMod := by
        rw [Nat.mod_eq_sub_mod hwrap, Nat.mod_eq_of_lt (by simp only [sizeMod] at hn ⊢; omega)]
      have hlong : bs.length < n := by
        simp only [sizeMod] at hwrap
        omega
      obtain ⟨hout, hrd⟩ := Prod.mk.inj hview
      refine ⟨?_, hlong, ?_, ?_⟩
      · rw [← hout]
        change ((pre ++ bs).drop pre.length).take n = bs
        rw [List.drop_left, List.take_of_length_le hlong.le]
      · rw [← hrd]
        rfl
      · rw [← hrd]
        change (pre.length + n) % sizeMod < pre.length
        omega

end CompilationFabric.Interface
