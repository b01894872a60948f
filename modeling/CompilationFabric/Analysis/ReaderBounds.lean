import CompilationFabric.Model.ReaderCalls

/-!
# What a reader may be given

The contract in front of `CanonicalReader`: a read past the end fails, and a length that
exceeds the available bytes is rejected.  The check `pos_ + n > data_.size()` keeps it as long
as the sum does not wrap.  When it does, the check passes: a view is then shorter than the
length declared and the cursor goes back, and `str` asks for a buffer of the declared length.

The fixed-width reads never wrap, since an object is far smaller than the address space, so a
run of calls is bounded exactly when no length it meets wraps (`reads_bounded_iff`).
-/

set_option autoImplicit false

namespace CompilationFabric.Analysis

open CompilationFabric.Library.TransitionSystem
open CompilationFabric.Model

/-! ## The contract -/

/-- The calls that give back a string or a view. -/
def ReadsBytes : ReaderCall → Prop
  | .str | .bytesBlob | .rawBlob _ => True
  | _ => False

/-- The contract of one call. -/
structure BoundedCall (r : CanonicalReader) (c : ReaderCall) : Prop where
  /-- No buffer is asked for that the bytes cannot fill. -/
  returns : ∃ result, r.call c = .ok result
  /-- The cursor does not go back, and not past the end. -/
  forward : ∀ result, r.call c = .ok result →
    result.reader.data = r.data ∧ r.pos ≤ result.reader.pos ∧ result.reader.pos ≤ r.data.length
  /-- An accepted length is there, and all of it is given out and passed over. -/
  accepted : ∀ result, ReadsBytes c → r.call c = .ok result → result.ok = true →
    ∃ base len, r.declared c = some (base, len) ∧ len ≤ r.data.length - base ∧
      result.out.length = len ∧ result.reader.pos = base + len

/-- The length that a call declares does not wrap the cursor. -/
def Unwrapped (r : CanonicalReader) (c : ReaderCall) : Prop :=
  ∀ base len, r.declared c = some (base, len) → base + len < sizeMod

/-- The cursor stands in its data, or at their end. -/
structure InBounds (r : CanonicalReader) : Prop where
  object : r.data.length ≤ maxObjectSize
  cursor : r.pos ≤ r.data.length

/-! ## Reads that do not wrap -/

variable {r r' : CanonicalReader} {n : ℕ}

/-- INTERNAL: a read that does not wrap overruns when it goes past the end. -/
theorem overruns_iff (h : r.pos + n < sizeMod) : r.overruns n ↔ r.data.length < r.pos + n := by
  unfold CanonicalReader.overruns
  rw [Nat.mod_eq_of_lt h]

/-- The reader has moved over `n` bytes that are there. -/
def Moves (r : CanonicalReader) (n : ℕ) (r' : CanonicalReader) : Prop :=
  r' = { r with pos := r.pos + n } ∧ r.pos + n ≤ r.data.length

/-- INTERNAL: a skip that does not overrun moves over bytes that are there. -/
theorem moves_skip (h : r.pos + n < sizeMod) (hover : ¬ r.overruns n) : Moves r n (r.skip n) := by
  rw [overruns_iff h, not_lt] at hover
  refine ⟨?_, hover⟩
  unfold CanonicalReader.skip
  rw [Nat.mod_eq_of_lt h]

/-- A read of fixed width does not wrap. -/
theorem InBounds.noWrap (hr : InBounds r) (hn : n ≤ 16) : r.pos + n < sizeMod := by
  have hobject := hr.object
  have hcursor := hr.cursor
  simp only [maxObjectSize, sizeMod] at hobject ⊢
  omega

/-- INTERNAL: a reader that moves stays in bounds. -/
theorem Moves.inBounds (hmoves : Moves r n r') (hr : InBounds r) : InBounds r' := by
  obtain ⟨rfl, hle⟩ := hmoves
  exact ⟨hr.object, hle⟩

/-- A read of fixed width that succeeds has moved over its bytes. -/
theorem moves_of_read {α : Type} {v v' : α} (hpos : r.pos + n < sizeMod)
    (h : (if r.overruns n then none else some (v, r.skip n)) = some (v', r')) : Moves r n r' := by
  split at h
  · cases h
  · next hover =>
    cases h
    exact moves_skip hpos hover

/-- INTERNAL: a `u32` that is read moves over four bytes. -/
theorem moves_u32 {v : UInt32} (hpos : r.pos + 4 < sizeMod) (h : r.u32 = some (v, r')) :
    Moves r 4 r' :=
  moves_of_read hpos h

/-- INTERNAL: a `u64` that is read moves over eight bytes. -/
theorem moves_u64 {v : UInt64} (hpos : r.pos + 8 < sizeMod) (h : r.u64 = some (v, r')) :
    Moves r 8 r' :=
  moves_of_read hpos h

/-- INTERNAL: an id that is read moves over sixteen bytes. -/
theorem moves_u128 {v : Id128} (hpos : r.pos + 16 < sizeMod) (h : r.u128 = some (v, r')) :
    Moves r 16 r' := by
  unfold CanonicalReader.u128 at h
  simp only [Option.bind_eq_bind, Option.bind_eq_some_iff] at h
  obtain ⟨⟨hi, r₁⟩, hhi, ⟨lo, r₂⟩, hlo, h⟩ := h
  cases h
  obtain ⟨rfl, -⟩ := moves_u64 (by omega) hhi
  obtain ⟨hsecond, hle⟩ := moves_u64 (by simp only; omega) hlo
  refine ⟨hsecond, ?_⟩
  simp only at hle
  omega

/-- INTERNAL: a length is passed over, or it is not there. -/
theorem pastLength_eq (hr : InBounds r) : r.pastLength = r ∨ Moves r 8 r.pastLength := by
  unfold CanonicalReader.pastLength
  split
  · next r₁ hlen => exact Or.inr (moves_u64 (hr.noWrap (by omega)) hlen)
  · exact Or.inl rfl

/-! ## Calls -/

/-- A reader that has not moved, or has moved over bytes that are there. -/
def Onward (r r' : CanonicalReader) : Prop :=
  r'.data = r.data ∧ r.pos ≤ r'.pos ∧ r'.pos ≤ r.data.length

/-- INTERNAL: a reader that stays goes onward. -/
theorem onward_refl (hr : InBounds r) : Onward r r := ⟨rfl, le_refl _, hr.cursor⟩

/-- INTERNAL: a reader that moves goes onward. -/
theorem Moves.onward (h : Moves r n r') : Onward r r' := by
  obtain ⟨rfl, hle⟩ := h
  exact ⟨rfl, Nat.le_add_right _ _, hle⟩

/-- INTERNAL: onward and onward again. -/
theorem Onward.trans {r'' : CanonicalReader} (h : Onward r r') (h' : Onward r' r'') :
    Onward r r'' := by
  obtain ⟨hdata, hle, hend⟩ := h
  obtain ⟨hdata', hle', hend'⟩ := h'
  exact ⟨hdata'.trans hdata, hle.trans hle', hdata ▸ hend'⟩

/-- INTERNAL: passing over a length goes onward. -/
theorem onward_pastLength (hr : InBounds r) : Onward r r.pastLength := by
  obtain heq | hmoves := pastLength_eq hr
  · rw [heq]
    exact onward_refl hr
  · exact hmoves.onward

/-- INTERNAL: reading a number goes onward. -/
theorem onward_readNumber {α : Type} {base : CanonicalReader}
    {read : Option (α × CanonicalReader)} (hbase : Onward r base)
    (hread : ∀ v r', read = some (v, r') → Onward r r') :
    Onward r (readNumber base read).reader := by
  unfold readNumber
  split
  · next v r' => exact hread v r' rfl
  · exact hbase

/-- A call that reads a number keeps the contract. -/
theorem boundedCall_of_number {c : ReaderCall} {result : ReadResult} (hc : ¬ ReadsBytes c)
    (hcall : r.call c = .ok result) (honward : Onward r result.reader) : BoundedCall r c where
  returns := ⟨result, hcall⟩
  forward result' h := by
    rw [hcall, Except.ok.injEq] at h
    exact h ▸ honward
  accepted _ hbytes := absurd hbytes hc

/-- A view whose length does not wrap is the bytes declared. -/
theorem rawBlob_eq_some {out : Bytes} (hwrap : r.pos + n < sizeMod)
    (h : r.rawBlob n = some (out, r')) : Moves r n r' ∧ out.length = n := by
  unfold CanonicalReader.rawBlob at h
  split at h
  · cases h
  · next hover =>
    cases h
    have hmoves := moves_skip hwrap hover
    refine ⟨hmoves, ?_⟩
    rw [List.length_take, List.length_drop]
    have hle := hmoves.2
    omega

/-- A view whose length wraps is given out all the same. -/
theorem rawBlob_of_wrap (hr : InBounds r) (hn : n < sizeMod) (hwrap : sizeMod ≤ r.pos + n) :
    ∃ out r', r.rawBlob n = some (out, r') := by
  have hpos : r.pos + 0 < sizeMod := hr.noWrap (by omega)
  have hmod : (r.pos + n) % sizeMod = r.pos + n - sizeMod := by
    rw [Nat.mod_eq_sub_mod hwrap, Nat.mod_eq_of_lt (by omega)]
  have hcursor := hr.cursor
  have hpasses : ¬ r.overruns n := by
    unfold CanonicalReader.overruns
    omega
  exact ⟨_, _, if_neg hpasses⟩

/-- A call that gives out a view keeps the contract if the length does not wrap. -/
theorem boundedCall_of_view {c : ReaderCall} {base : CanonicalReader}
    (honward : Onward r base) (hcall : r.call c = .ok (readBytes base (base.rawBlob n)))
    (hdeclared : r.declared c = some (base.pos, n)) (hwrap : base.pos + n < sizeMod) :
    BoundedCall r c := by
  refine ⟨⟨_, hcall⟩, ?_, ?_⟩
  · intro result h
    rw [hcall, Except.ok.injEq] at h
    subst h
    unfold readBytes
    split
    · next out r' hread =>
      exact honward.trans (rawBlob_eq_some hwrap hread).1.onward
    · exact honward
  · intro result _ h hok
    rw [hcall, Except.ok.injEq] at h
    subst h
    unfold readBytes at hok ⊢
    split at hok
    · next out r' hread =>
      obtain ⟨⟨hmoved, hle⟩, hout⟩ := rawBlob_eq_some hwrap hread
      have hdata := honward.1
      refine ⟨base.pos, n, hdeclared, ?_, hout, ?_⟩
      · rw [← hdata]
        omega
      · rw [hmoved]
    · cases hok

/-- It breaks the contract if the length wraps. -/
theorem not_boundedCall_of_view {c : ReaderCall} {base : CanonicalReader} (hc : ReadsBytes c)
    (hbase : InBounds base) (honward : Onward r base) (hn : n < sizeMod)
    (hcall : r.call c = .ok (readBytes base (base.rawBlob n)))
    (hdeclared : r.declared c = some (base.pos, n)) (hwrap : sizeMod ≤ base.pos + n) :
    ¬ BoundedCall r c := by
  intro hbounded
  obtain ⟨out, r', hread⟩ := rawBlob_of_wrap hbase hn hwrap
  rw [hread] at hcall
  obtain ⟨b, len, hd, hlen, -, -⟩ := hbounded.accepted _ hc hcall rfl
  rw [hdeclared, Option.some_inj, Prod.mk.injEq] at hd
  obtain ⟨rfl, rfl⟩ := hd
  -- more bytes than there are addresses are not available
  have hobject := hbase.object
  have hcursor := hbase.cursor
  rw [honward.1] at hobject hcursor
  simp only [maxObjectSize, sizeMod] at hobject hwrap
  omega

/-- A call that gives out a view keeps the contract exactly if the length does not wrap. -/
theorem boundedCall_iff_of_view {c : ReaderCall} {base : CanonicalReader} (hc : ReadsBytes c)
    (hbase : InBounds base) (honward : Onward r base) (hn : n < sizeMod)
    (hcall : r.call c = .ok (readBytes base (base.rawBlob n)))
    (hdeclared : r.declared c = some (base.pos, n)) : BoundedCall r c ↔ Unwrapped r c := by
  constructor
  · intro hbounded b len hd
    rw [hdeclared, Option.some_inj, Prod.mk.injEq] at hd
    obtain ⟨rfl, rfl⟩ := hd
    by_contra hwrap
    exact not_boundedCall_of_view hc hbase honward hn hcall hdeclared (not_lt.mp hwrap) hbounded
  · intro hunwrapped
    exact boundedCall_of_view honward hcall hdeclared (hunwrapped _ _ hdeclared)

/-- What a length-prefixed read comes to once its length has been read. -/
theorem call_bytesBlob {len : UInt64} {base : CanonicalReader} (h : r.u64 = some (len, base)) :
    r.call .bytesBlob = .ok (readBytes base (base.rawBlob len.toNat)) := by
  have hbase : r.pastLength = base := by
    unfold CanonicalReader.pastLength
    rw [h]
  simp only [CanonicalReader.call, CanonicalReader.bytesBlob, hbase, h, Option.bind_eq_bind,
    Option.bind_some]

/-- INTERNAL: a string whose length does not wrap is read as a view is. -/
theorem call_str {len : UInt64} {base : CanonicalReader} (h : r.u64 = some (len, base))
    (hwrap : base.pos + len.toNat < sizeMod) :
    r.call .str = .ok (readBytes base (base.rawBlob len.toNat)) := by
  have hbase : r.pastLength = base := by
    unfold CanonicalReader.pastLength
    rw [h]
  have hfits : ¬ sizeMod ≤ base.pos + len.toNat := not_le.mpr hwrap
  have hstr : r.str = .ok (base.rawBlob len.toNat) := by
    unfold CanonicalReader.str CanonicalReader.rawBlob
    simp only [h]
    by_cases hover : base.overruns len.toNat
    · rw [if_pos hover, if_pos hover]
    · rw [if_neg hover, if_neg hover, if_neg hfits]
  simp only [CanonicalReader.call, hstr, hbase, Except.map]

/-- A string whose length wraps asks for a buffer that cannot be had.
SOURCE: Canonical.cpp:80-84 -/
theorem call_str_of_wrap {len : UInt64} {base : CanonicalReader} (hr : InBounds base)
    (h : r.u64 = some (len, base)) (hwrap : sizeMod ≤ base.pos + len.toNat) :
    r.call .str = .error .lengthError := by
  obtain ⟨out, r', hread⟩ := rawBlob_of_wrap hr len.toNat_lt hwrap
  have hpasses : ¬ base.overruns len.toNat := by
    intro hover
    rw [CanonicalReader.rawBlob, if_pos hover] at hread
    cases hread
  have hstr : r.str = .error .lengthError := by
    unfold CanonicalReader.str
    simp only [h]
    rw [if_neg hpasses, if_pos hwrap]
  simp only [CanonicalReader.call, hstr, Except.map]

/-- A length that cannot be read refuses the call. -/
theorem boundedCall_of_noLength {c : ReaderCall} (hr : InBounds r)
    (hcall : r.call c = .ok (readBytes r none)) : BoundedCall r c where
  returns := ⟨_, hcall⟩
  forward result h := by
    rw [hcall, Except.ok.injEq] at h
    exact h ▸ onward_refl hr
  accepted result _ h hok := by
    rw [hcall, Except.ok.injEq] at h
    rw [← h] at hok
    cases hok

/-- INTERNAL: advancing goes onward. -/
theorem onward_advance (hr : InBounds r) : Onward r (r.advance n) := by
  unfold CanonicalReader.advance
  split
  · next hle =>
    have hcursor := hr.cursor
    have hobject := hr.object
    simp only [CanonicalReader.remaining] at hle
    simp only [maxObjectSize] at hobject
    have hmod : (r.pos + n) % sizeMod = r.pos + n :=
      Nat.mod_eq_of_lt (by simp only [sizeMod]; omega)
    refine ⟨rfl, ?_, ?_⟩
    · change r.pos ≤ (r.pos + n) % sizeMod
      omega
    · change (r.pos + n) % sizeMod ≤ r.data.length
      omega
  · exact onward_refl hr

/-- A call keeps the contract exactly when the length it declares does not wrap. -/
theorem boundedCall_iff (hr : InBounds r) (c : ReaderCall) : BoundedCall r c ↔ Unwrapped r c := by
  have hnumber : ∀ {α : Type} {read : Option (α × CanonicalReader)} {k : ℕ},
      (∀ v r', read = some (v, r') → Moves r k r') → Onward r (readNumber r read).reader :=
    fun hread => onward_readNumber (onward_refl hr) fun v r' h => (hread v r' h).onward
  have hplain : ∀ {c : ReaderCall}, r.declared c = none → (BoundedCall r c) →
      (BoundedCall r c ↔ Unwrapped r c) := by
    intro c hdeclared hbounded
    refine ⟨fun _ base len h => ?_, fun _ => hbounded⟩
    rw [hdeclared] at h
    cases h
  cases c with
  | u8 =>
      apply hplain rfl
      exact boundedCall_of_number id rfl (hnumber fun v r' => moves_of_read (hr.noWrap (by omega)))
  | u16 =>
      apply hplain rfl
      exact boundedCall_of_number id rfl (hnumber fun v r' => moves_of_read (hr.noWrap (by omega)))
  | u32 =>
      apply hplain rfl
      exact boundedCall_of_number id rfl (hnumber fun v r' => moves_of_read (hr.noWrap (by omega)))
  | u64 =>
      apply hplain rfl
      exact boundedCall_of_number id rfl (hnumber fun v r' => moves_u64 (hr.noWrap (by omega)))
  | u128 =>
      apply hplain rfl
      refine boundedCall_of_number id rfl ?_
      exact onward_readNumber (onward_pastLength hr) fun v r' h => (moves_u128 (hr.noWrap (by omega)) h).onward
  | f32 =>
      apply hplain rfl
      exact boundedCall_of_number id rfl (hnumber fun v r' => moves_of_read (hr.noWrap (by omega)))
  | f64 =>
      apply hplain rfl
      exact boundedCall_of_number id rfl (hnumber fun v r' => moves_u64 (hr.noWrap (by omega)))
  | advance n =>
      apply hplain rfl
      exact boundedCall_of_number id rfl (onward_advance hr)
  | rawBlob n =>
      exact boundedCall_iff_of_view (c := .rawBlob n) trivial hr (onward_refl hr) n.toNat_lt rfl rfl
  | bytesBlob =>
      cases hlen : r.u64 with
      | none =>
          apply hplain (by simp [CanonicalReader.declared, hlen])
          apply boundedCall_of_noLength hr
          simp [CanonicalReader.call, CanonicalReader.pastLength, CanonicalReader.bytesBlob, hlen]
      | some read =>
          obtain ⟨len, base⟩ := read
          have hmoves := moves_u64 (hr.noWrap (by omega)) hlen
          exact boundedCall_iff_of_view (c := .bytesBlob) trivial (hmoves.inBounds hr)
            hmoves.onward len.toNat_lt (call_bytesBlob hlen)
            (by simp [CanonicalReader.declared, hlen])
  | str =>
      cases hlen : r.u64 with
      | none =>
          apply hplain (by simp [CanonicalReader.declared, hlen])
          apply boundedCall_of_noLength hr
          simp [CanonicalReader.call, CanonicalReader.pastLength, CanonicalReader.str, hlen,
            Except.map]
      | some read =>
          obtain ⟨len, base⟩ := read
          have hmoves := moves_u64 (hr.noWrap (by omega)) hlen
          have hbase := hmoves.inBounds hr
          have hdeclared : r.declared .str = some (base.pos, len.toNat) := by
            simp [CanonicalReader.declared, hlen]
          constructor
          · intro hbounded b l hd
            rw [hdeclared, Option.some_inj, Prod.mk.injEq] at hd
            obtain ⟨rfl, rfl⟩ := hd
            by_contra hwrap
            obtain ⟨result, hresult⟩ := hbounded.returns
            rw [call_str_of_wrap hbase hlen (not_lt.mp hwrap)] at hresult
            cases hresult
          · intro hunwrapped
            have hwrap := hunwrapped _ _ hdeclared
            exact boundedCall_of_view hmoves.onward (call_str hlen hwrap) hdeclared hwrap

/-! ## Runs -/

/-- INTERNAL: a skip that does not overrun stays in bounds. -/
theorem inBounds_skip (hr : InBounds r) (hover : ¬ r.overruns n) : InBounds (r.skip n) :=
  ⟨hr.object, not_lt.mp hover⟩

/-- INTERNAL: a view that is given leaves the reader in bounds. -/
theorem inBounds_rawBlob {out : Bytes} (hr : InBounds r) (h : r.rawBlob n = some (out, r')) :
    InBounds r' := by
  unfold CanonicalReader.rawBlob at h
  split at h
  · cases h
  · next hover =>
    cases h
    exact inBounds_skip hr hover

/-- INTERNAL: reading a number stays in bounds. -/
theorem inBounds_readNumber {α : Type} {base : CanonicalReader}
    {read : Option (α × CanonicalReader)} (hbase : InBounds base)
    (hread : ∀ v r', read = some (v, r') → InBounds r') :
    InBounds (readNumber base read).reader := by
  unfold readNumber
  split
  · next v r' => exact hread v r' rfl
  · exact hbase

/-- INTERNAL: reading bytes stays in bounds. -/
theorem inBounds_readBytes {base : CanonicalReader} {read : Option (Bytes × CanonicalReader)}
    (hbase : InBounds base) (hread : ∀ out r', read = some (out, r') → InBounds r') :
    InBounds (readBytes base read).reader := by
  unfold readBytes
  split
  · next out r' => exact hread out r' rfl
  · exact hbase

/-- INTERNAL: passing over a length stays in bounds. -/
theorem inBounds_pastLength (hr : InBounds r) : InBounds r.pastLength := by
  obtain heq | hmoves := pastLength_eq hr
  · rw [heq]
    exact hr
  · exact hmoves.inBounds hr

/-- The cursor stays in the data, also where it goes back. -/
theorem InBounds.call {c : ReaderCall} {result : ReadResult} (hr : InBounds r)
    (h : r.call c = .ok result) : InBounds result.reader := by
  have hfixed : ∀ {α : Type} {read : Option (α × CanonicalReader)} {k : ℕ},
      (∀ v r', read = some (v, r') → Moves r k r') → InBounds (readNumber r read).reader :=
    fun hread => inBounds_readNumber hr fun v r' h => (hread v r' h).inBounds hr
  cases c with
  | u8 => cases h; exact hfixed fun v r' => moves_of_read (hr.noWrap (by omega))
  | u16 => cases h; exact hfixed fun v r' => moves_of_read (hr.noWrap (by omega))
  | u32 => cases h; exact hfixed fun v r' => moves_of_read (hr.noWrap (by omega))
  | u64 => cases h; exact hfixed fun v r' => moves_u64 (hr.noWrap (by omega))
  | f32 => cases h; exact hfixed fun v r' => moves_of_read (hr.noWrap (by omega))
  | f64 => cases h; exact hfixed fun v r' => moves_u64 (hr.noWrap (by omega))
  | u128 =>
      cases h
      exact inBounds_readNumber (inBounds_pastLength hr) fun v r' h => (moves_u128 (hr.noWrap (by omega)) h).inBounds hr
  | rawBlob n => cases h; exact inBounds_readBytes hr fun out r' => inBounds_rawBlob hr
  | advance n =>
      cases h
      obtain ⟨hdata, -, hend⟩ := onward_advance (n := n.toNat) hr
      exact ⟨hdata ▸ hr.object, hdata ▸ hend⟩
  | bytesBlob =>
      cases h
      apply inBounds_readBytes (inBounds_pastLength hr)
      intro out r' hread
      obtain ⟨⟨len, base⟩, hlen, hraw⟩ := Option.bind_eq_some_iff.mp hread
      exact inBounds_rawBlob ((moves_u64 (hr.noWrap (by omega)) hlen).inBounds hr) hraw
  | str =>
      simp only [CanonicalReader.call] at h
      cases hread : r.str with
      | error e =>
          rw [hread] at h
          cases h
      | ok read =>
          rw [hread] at h
          cases h
          apply inBounds_readBytes (inBounds_pastLength hr)
          rintro out r' rfl
          unfold CanonicalReader.str at hread
          split at hread
          · cases hread
          · next len base hlen =>
            split at hread
            · cases hread
            · next hover =>
              split at hread
              · cases hread
              · cases hread
                exact inBounds_skip ((moves_u64 (hr.noWrap (by omega)) hlen).inBounds hr) hover

/-- Every call stays in bounds. -/
theorem InBounds.step {c : ReaderCall} (hr : InBounds r) (h : r.step c = some r') :
    InBounds r' := by
  unfold CanonicalReader.step at h
  split at h
  · next result hcall =>
    cases h
    exact hr.call hcall
  · cases h

/-- INTERNAL: the statement from any reader in its data, by induction on the calls. -/
theorem meets_bounded_iff (hr : InBounds r) (cs : List ReaderCall) :
    Meets CanonicalReader.step BoundedCall r cs ↔ Meets CanonicalReader.step Unwrapped r cs := by
  induction cs generalizing r with
  | nil => exact Iff.rfl
  | cons c cs ih =>
      constructor
      · rintro ⟨hcall, hrest⟩
        refine ⟨(boundedCall_iff hr c).mp hcall, fun r' hstep => ?_⟩
        exact (ih (hr.step hstep)).mp (hrest r' hstep)
      · rintro ⟨hcall, hrest⟩
        refine ⟨(boundedCall_iff hr c).mpr hcall, fun r' hstep => ?_⟩
        exact (ih (hr.step hstep)).mpr (hrest r' hstep)

/-- On any bytes, every call of a run keeps the contract exactly when no length that is
declared on the way wraps the cursor.
SOURCE: Canonical.cpp:40-89, Canonical.hpp:40-71 -/
theorem reads_bounded_iff {data : Bytes} (hdata : data.length ≤ maxObjectSize)
    (cs : List ReaderCall) :
    Meets CanonicalReader.step BoundedCall ⟨data, 0⟩ cs ↔
      Meets CanonicalReader.step Unwrapped ⟨data, 0⟩ cs :=
  meets_bounded_iff ⟨hdata, Nat.zero_le _⟩ cs

/-- A string of one byte, and an empty one. -/
def twoStrings : Bytes := [0, 0, 0, 0, 0, 0, 0, 1, 97, 0, 0, 0, 0, 0, 0, 0, 0]

/-- Both are read within the bytes. -/
theorem reads_bounded_iff_twice :
    Meets CanonicalReader.step BoundedCall ⟨twoStrings, 0⟩ [.str, .bytesBlob] := by
  refine (reads_bounded_iff (by decide) _).mpr ⟨?_, fun r hr => ⟨?_, fun _ _ => trivial⟩⟩
  · intro base len hdeclared
    obtain ⟨rfl, rfl⟩ : 8 = base ∧ 1 = len := Prod.mk.inj (Option.some.inj hdeclared)
    decide
  · obtain rfl : (⟨twoStrings, 9⟩ : CanonicalReader) = r := Option.some.inj hr
    intro base len hdeclared
    obtain ⟨rfl, rfl⟩ : 17 = base ∧ 0 = len := Prod.mk.inj (Option.some.inj hdeclared)
    decide

/-- The eight bytes of the largest length: the view that they declare is given out, empty, and
the cursor stands inside them again. -/
theorem not_reads_bounded :
    ¬ Meets CanonicalReader.step BoundedCall ⟨List.replicate 8 255, 0⟩ [.bytesBlob] := by
  rintro ⟨hbounded, -⟩
  have hcall : CanonicalReader.call ⟨List.replicate 8 255, 0⟩ .bytesBlob =
      .ok { ok := true, out := [], reader := ⟨List.replicate 8 255, 7⟩ } := by rfl
  have hlen : CanonicalReader.declared ⟨List.replicate 8 255, 0⟩ .bytesBlob =
      some (8, 2 ^ 64 - 1) := by rfl
  obtain ⟨base, len, hdeclared, -, hout, -⟩ := hbounded.accepted _ trivial hcall rfl
  rw [hlen, Option.some_inj, Prod.mk.injEq] at hdeclared
  rw [← hdeclared.2] at hout
  cases hout

end CompilationFabric.Analysis
