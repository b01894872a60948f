import CompilationFabric.Model.KeySetters

/-!
# Canonical identity, equality and order of keys

A key that setters have built holds its fields in tag order, so its field list, its canonical
bytes and the last value written to each field determine one another, and its bytes decode
to the key itself (`setAll_canonical`).

A key that was decoded keeps the order its record lists the fields in, which `parseKeyFields`
does not check.  `operator==` and the canonical bytes do not see that order and `operator<`
does, so for keys of any origin the three agree exactly as long as the keys do not hold the
same fields in different orders (`relations_agree_iff`).
-/

set_option autoImplicit false

namespace CompilationFabric.Analysis

open CompilationFabric.Model
open CompilationFabric.Interface

variable {a b : CompilationKey}

/-! ## Canonical bytes -/

/-- A record that fits into memory is decoded to the sorted fields, so it determines them. -/
theorem perm_of_makeCanonicalFields_eq
    (hsize : (makeCanonicalFields a.fields).length < sizeMod)
    (h : makeCanonicalFields a.fields = makeCanonicalFields b.fields) :
    a.fields.Perm b.fields := by
  have ha := parseKeyFields_makeCanonicalFields a.validTags a.uniqueTags hsize
  have hb := parseKeyFields_makeCanonicalFields b.validTags b.uniqueTags (h ▸ hsize)
  rw [h, hb, Except.ok.injEq] at ha
  exact (sortFields_perm _).symm.trans (ha ▸ sortFields_perm _)

/-! ## Keys built by setters -/

/-- The last value written to each field determines a key, and so do its canonical bytes,
which decode to the key itself.
SOURCE: Key.cpp:118-129, 219-225, Canonical.cpp:159-204 -/
theorem setAll_canonical (s t : List SetterCall) :
    (CompilationKey.setAll s).fields.Pairwise (fun x y => x.tag < y.tag) ∧
    ((∀ f, lastWritten s f = lastWritten t f) →
      (CompilationKey.setAll s).fields = (CompilationKey.setAll t).fields ∧
      makeCanonicalFields (CompilationKey.setAll s).fields =
        makeCanonicalFields (CompilationKey.setAll t).fields) ∧
    ((makeCanonicalFields (CompilationKey.setAll s).fields).length < sizeMod →
      (makeCanonicalFields (CompilationKey.setAll s).fields =
          makeCanonicalFields (CompilationKey.setAll t).fields →
        (CompilationKey.setAll s == CompilationKey.setAll t) = true ∧
        (CompilationKey.setAll s).fields = (CompilationKey.setAll t).fields) ∧
      ∃ k, CompilationKey.fromCanonicalBytes
          (makeCanonicalFields (CompilationKey.setAll s).fields) = some k ∧
        k.fields = (CompilationKey.setAll s).fields) := by
  have hs := CompilationKey.sorted_setAll s
  have ht := CompilationKey.sorted_setAll t
  refine ⟨hs, fun hlast => ?_, fun hsize => ⟨fun hbytes => ?_, ?_⟩⟩
  · have hkey : CompilationKey.setAll s = CompilationKey.setAll t :=
      CompilationKey.ext_of_findField hs ht fun f => by
        rw [findField_setAll, findField_setAll, hlast f]
    rw [hkey]
    exact ⟨rfl, rfl⟩
  · have hperm := perm_of_makeCanonicalFields_eq hsize hbytes
    exact ⟨CompilationKey.beq_iff.mpr hperm,
      congrArg _ (CompilationKey.eq_of_perm_of_sorted hs ht hperm)⟩
  · exact ⟨_, CompilationKey.fromCanonicalBytes_makeCanonicalFields hs hsize, rfl⟩

/-- Two setters in either order, one of them twice. -/
theorem setAll_canonical_swap :
    let s : List SetterCall := [⟨.Rank, (1 : UInt64)⟩, ⟨.Tenant, []⟩, ⟨.Rank, (2 : UInt64)⟩]
    let t : List SetterCall := [⟨.Tenant, []⟩, ⟨.Rank, (2 : UInt64)⟩]
    (CompilationKey.setAll s).fields = (CompilationKey.setAll t).fields ∧
      ∃ k, CompilationKey.fromCanonicalBytes
          (makeCanonicalFields (CompilationKey.setAll s).fields) = some k ∧
        k.fields = (CompilationKey.setAll s).fields := by
  intro s t
  obtain ⟨-, hlast, hdecode⟩ := setAll_canonical s t
  exact ⟨(hlast (by intro f; cases f <;> rfl)).1, (hdecode (by decide +kernel)).2⟩

/-! ## Keys of any origin -/

/-- The three relations agree on two keys. -/
structure Agree (a b : CompilationKey) : Prop where
  order : (a == b) = true ↔ compare a b ≠ .lt ∧ compare b a ≠ .lt
  bytes : (a == b) = true ↔ makeCanonicalFields a.fields = makeCanonicalFields b.fields

/-- The keys list the same tags in the same order, or some field tells them apart. -/
def SameOrder (a b : CompilationKey) : Prop :=
  a.fields.map KeyFieldEntry.tag = b.fields.map KeyFieldEntry.tag ∨
    ∃ t, a.findTag t ≠ b.findTag t

/-- INTERNAL: keys that neither precede the other are compared equal. -/
theorem compare_eq_iff_not_lt : compare a b ≠ .lt ∧ compare b a ≠ .lt ↔ a = b := by
  rw [← Std.LawfulEqOrd.compare_eq_iff_eq (a := a) (b := b)]
  have hswap : compare b a = (compare a b).swap := Std.OrientedOrd.eq_swap
  rw [hswap]
  cases compare a b <;> simp

/-- Fields are found by their tags, in whatever order they are listed. -/
theorem perm_iff_findTag : a.fields.Perm b.fields ↔ ∀ t, a.findTag t = b.findTag t := by
  constructor
  · intro h t
    apply Option.ext
    intro v
    rw [CompilationKey.findTag_eq_some, CompilationKey.findTag_eq_some, h.mem_iff]
  · intro h
    rw [List.perm_ext_iff_of_nodup a.uniqueTags.of_map b.uniqueTags.of_map]
    intro e
    have he := h e.tag
    constructor
    · intro hmem
      exact CompilationKey.findTag_eq_some.mp (he ▸ CompilationKey.findTag_eq_some.mpr hmem)
    · intro hmem
      exact CompilationKey.findTag_eq_some.mp (he ▸ CompilationKey.findTag_eq_some.mpr hmem)

/-- The same fields with the same order of tags are the same list. -/
theorem eq_of_perm_of_tags (h : a.fields.Perm b.fields)
    (htags : a.fields.map KeyFieldEntry.tag = b.fields.map KeyFieldEntry.tag) : a = b := by
  apply CompilationKey.ext_fields
  have hvalue : ∀ k : CompilationKey, k.fields =
      (k.fields.map KeyFieldEntry.tag).map fun t => ⟨t, (k.findTag t).getD []⟩ := by
    intro k
    rw [List.map_map]
    symm
    refine (List.map_congr_left ?_).trans (List.map_id _)
    intro e he
    simp [CompilationKey.findTag_eq_some.mpr he]
  rw [hvalue a, hvalue b, htags]
  simp only [perm_iff_findTag.mp h]

/-- Keys in one order are equal for both relations. -/
theorem eq_iff_beq_of_sameOrder (h : SameOrder a b) : (a == b) = true ↔ a = b := by
  rw [CompilationKey.beq_iff]
  constructor
  · intro hperm
    rcases h with htags | ⟨t, ht⟩
    · exact eq_of_perm_of_tags hperm htags
    · exact absurd (perm_iff_findTag.mp hperm t) ht
  · rintro rfl
    exact List.Perm.refl _

/-- Equality, order and canonical bytes agree on two keys exactly when these do not hold the
same fields in different orders, and a map all of whose keys are so finds what is equal.
SOURCE: Key.cpp:118-129, 178-192, 219-225, Canonical.cpp:176-204 -/
theorem relations_agree_iff (a : CompilationKey)
    (hsize : (makeCanonicalFields a.fields).length < sizeMod) :
    (∀ b, Agree a b ↔ SameOrder a b) ∧
    ∀ {β : Type} (m : Std.ExtTreeMap CompilationKey β compare), (∀ k ∈ m, SameOrder a k) →
      (a ∈ m ↔ ∃ k ∈ m, (a == k) = true) := by
  refine ⟨fun b => ⟨fun h => ?_, fun h => ⟨?_, ?_⟩⟩, fun m hm => ⟨fun ha => ?_, ?_⟩⟩
  · by_cases hperm : a.fields.Perm b.fields
    · have heq := compare_eq_iff_not_lt.mp (h.order.mp (CompilationKey.beq_iff.mpr hperm))
      exact .inl (by rw [heq])
    · rw [perm_iff_findTag, not_forall] at hperm
      exact .inr hperm
  · rw [compare_eq_iff_not_lt]
    exact eq_iff_beq_of_sameOrder h
  · rw [CompilationKey.beq_iff]
    exact ⟨makeCanonicalFields_eq_of_perm b.uniqueTags, perm_of_makeCanonicalFields_eq hsize⟩
  · exact ⟨a, ha, CompilationKey.beq_iff.mpr (List.Perm.refl _)⟩
  · rintro ⟨k, hk, hbeq⟩
    exact (eq_iff_beq_of_sameOrder (hm k hk)).mp hbeq ▸ hk

/-- Keys in tag order, such as all that setters build, are in the same order. -/
theorem sameOrder_of_sorted (ha : a.Sorted) (hb : b.Sorted) : SameOrder a b := by
  by_cases hperm : a.fields.Perm b.fields
  · exact .inl (by rw [CompilationKey.eq_of_perm_of_sorted ha hb hperm])
  · rw [perm_iff_findTag, not_forall] at hperm
    exact .inr hperm

/-- A record that lists `frontend_version` before `frontend`. -/
def unorderedRecord : Bytes :=
  CanonicalWriter.u32 2 ++ entryBytes ⟨keyFieldTag .FrontendVersion, encString []⟩ ++
    entryBytes ⟨keyFieldTag .Frontend, encString []⟩

/-- The key decoded from that record is equal to the one setters build, and less or greater. -/
theorem not_agree_unordered :
    ∃ a b, CompilationKey.fromCanonicalBytes unorderedRecord = some a ∧
      b = CompilationKey.setAll [⟨.Frontend, []⟩, ⟨.FrontendVersion, []⟩] ∧ ¬ Agree a b := by
  have hdecode : (CompilationKey.fromCanonicalBytes unorderedRecord).map
      (fun a => (a == CompilationKey.setAll [⟨.Frontend, []⟩, ⟨.FrontendVersion, []⟩],
        compare (CompilationKey.setAll [⟨.Frontend, []⟩, ⟨.FrontendVersion, []⟩]) a)) =
      some (true, .lt) := by decide +kernel
  obtain ⟨a, ha, heq⟩ := Option.map_eq_some_iff.mp hdecode
  rw [Prod.mk.injEq] at heq
  exact ⟨a, _, ha, rfl, fun h => (h.order.mp heq.1).2 heq.2⟩

/-- Two keys built by setters agree. -/
theorem relations_agree_setters :
    Agree (CompilationKey.setAll [⟨.Rank, (1 : UInt64)⟩, ⟨.Tenant, []⟩])
      (CompilationKey.setAll [⟨.Tenant, []⟩, ⟨.Rank, (1 : UInt64)⟩]) :=
  ((relations_agree_iff _ (by decide +kernel)).1 _).mpr
    (sameOrder_of_sorted (CompilationKey.sorted_setAll _) (CompilationKey.sorted_setAll _))

end CompilationFabric.Analysis
