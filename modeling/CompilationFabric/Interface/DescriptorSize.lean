import CompilationFabric.Interface.DescriptorJson

/-!
# How long a descriptor's text is

A bound on the text of an object by its fields, in any order, and from it one on the text of an
artifact's descriptor by the texts of the values in it.
-/

set_option autoImplicit false

namespace CompilationFabric.Interface

open CompilationFabric.Model
open CompilationFabric.Model.Json

/-! ## Objects -/

/-- An escaped string is at most six times as long, and its quotes. -/
theorem length_escapeTo_le (s : Bytes) : (escapeTo s).length ≤ 2 + 6 * s.length := by
  have hbyte : ∀ b, (escapeByte b).length ≤ 6 := by
    intro b
    unfold escapeByte
    split
    · simp
    split
    · simp
    split
    · simp [byteToHex]
    · simp
  have hsum : (s.flatMap escapeByte).length ≤ 6 * s.length := by
    induction s with
    | nil => simp
    | cons b s ih =>
        rw [List.flatMap_cons, List.length_append, List.length_cons]
        have hb := hbyte b
        omega
  unfold escapeTo
  simp only [List.length_append, List.length_cons, List.length_nil]
  omega

/-- The room that the members of an object take. -/
def membersSize (o : List (Bytes × Json)) : ℕ :=
  (o.map fun p => 4 + 6 * p.1.length + (dump p.2).length).sum

/-- INTERNAL: the size of one more member. -/
theorem membersSize_cons (p : Bytes × Json) (o : List (Bytes × Json)) :
    membersSize (p :: o) = 4 + 6 * p.1.length + (dump p.2).length + membersSize o := by
  rw [membersSize, List.map_cons, List.sum_cons]
  rfl

/-- Setting a member adds its own size at most. -/
theorem membersSize_insertOrAssign (k : Bytes) (v : Json) (o : List (Bytes × Json)) :
    membersSize (insertOrAssign k v o) ≤ 4 + 6 * k.length + (dump v).length + membersSize o := by
  induction o with
  | nil => exact (membersSize_cons (k, v) []).le
  | cons p o ih =>
      obtain ⟨k₀, v₀⟩ := p
      rw [insertOrAssign]
      split
      · exact (membersSize_cons (k, v) _).le
      · next heq =>
        obtain rfl : k = k₀ := Std.LawfulEqOrd.compare_eq_iff_eq.mp heq
        rw [membersSize_cons, membersSize_cons]
        dsimp only
        omega
      · rw [membersSize_cons, membersSize_cons]
        omega

/-- Setting members one by one adds their sizes at most. -/
theorem membersSize_insertAll (acc o : List (Bytes × Json)) :
    membersSize (insertAll acc o) ≤ membersSize acc + membersSize o := by
  induction o generalizing acc with
  | nil => exact Nat.le_add_right _ _
  | cons p o ih =>
      rw [insertAll, List.foldl_cons, membersSize_cons]
      have hrest := ih (insertOrAssign p.1 p.2 acc)
      have hfirst := membersSize_insertOrAssign p.1 p.2 acc
      unfold insertAll at hrest
      omega

/-- The text of the members is bounded by their size. -/
theorem length_dumpMembers_le (o : List (Bytes × Json)) :
    (dumpMembers o).length ≤ 1 + membersSize o := by
  induction o with
  | nil => simp [dumpMembers]
  | cons p o ih =>
      obtain ⟨k, v⟩ := p
      have hkey := length_escapeTo_le k
      rw [dumpMembers, membersSize_cons]
      simp only [List.length_append, List.length_cons]
      omega

/-- The text of an object is bounded by the size of its members. -/
theorem length_dump_object_le (o : List (Bytes × Json)) :
    (dump (.object o)).length ≤ 2 + membersSize o := by
  cases o with
  | nil => simp [dump]
  | cons p o =>
      obtain ⟨k, v⟩ := p
      have hkey := length_escapeTo_le k
      have hrest := length_dumpMembers_le o
      rw [dump, membersSize_cons]
      simp only [List.length_append, List.length_cons]
      omega

/-! ## Objects from fields -/

/-- The room for the names, with the punctuation. -/
def namesSize (fields : List (String × Json)) : ℕ :=
  (fields.map fun f => 4 + 6 * (ascii f.1).length).sum

/-- The room for the values. -/
def valuesSize (fields : List (String × Json)) : ℕ :=
  (fields.map fun f => (dump f.2).length).sum

/-- INTERNAL: sizes add up. -/
theorem valuesSize_append (fields others : List (String × Json)) :
    valuesSize (fields ++ others) = valuesSize fields + valuesSize others := by
  unfold valuesSize
  rw [List.map_append, List.sum_append]

/-- The text of a record is bounded by that of its values, once its names are. -/
theorem length_dump_ofFields_le {fields : List (String × Json)} {n : ℕ}
    (hnames : 2 + namesSize fields ≤ n) :
    (dump (ofFields fields)).length ≤ n + valuesSize fields := by
  have hsum : membersSize (fields.map fun f => (ascii f.1, f.2)) =
      namesSize fields + valuesSize fields := by
    clear hnames
    unfold membersSize namesSize valuesSize
    induction fields with
    | nil => rfl
    | cons f fields ih =>
        simp only [List.map_cons, List.sum_cons] at ih ⊢
        omega
  have hobject := length_dump_object_le (membersOf fields)
  have hall := membersSize_insertAll [] (fields.map fun f => (ascii f.1, f.2))
  rw [← ofFields_eq] at hobject
  rw [hsum] at hall
  have hnil : membersSize [] = 0 := rfl
  unfold membersOf at hobject
  omega

/-! ## Artifacts -/

/-- The fields of an artifact that are objects. -/
def nestedFields (a : ArtifactDescriptor) : List (String × Json) :=
  [("target", a.target.toJson), ("compiler", a.compiler.toJson), ("backend", a.backend.toJson),
    ("specialization", a.specialization.toJson), ("validation", a.validation.toJson),
    ("deployment", a.deployment.toJson), ("provenance", a.provenance.toJson)]

/-- The values of an artifact, one by one. -/
def artifactSize (a : ArtifactDescriptor) : ℕ :=
  valuesSize (a.members.take 7) + valuesSize (a.members.drop 14) +
    (valuesSize a.target.members + (valuesSize a.compiler.members +
      (valuesSize a.backend.members + (valuesSize a.specialization.members +
        (valuesSize a.validation.members + (valuesSize a.deployment.members +
          valuesSize a.provenance.members))))))

/-- The names are the same in every artifact. -/
theorem namesSize_nested (a : ArtifactDescriptor) :
    2 + namesSize a.target.members ≤ 3000 ∧ 2 + namesSize a.compiler.members ≤ 3000 ∧
      2 + namesSize a.backend.members ≤ 3000 ∧ 2 + namesSize a.specialization.members ≤ 3000 ∧
      2 + namesSize a.validation.members ≤ 3000 ∧ 2 + namesSize a.deployment.members ≤ 3000 ∧
      2 + namesSize a.provenance.members ≤ 3000 := by
  simp only [namesSize, TargetDescriptor.members, CompilerDescriptor.members,
    BackendDescriptor.members, SpecializationDescriptor.members, ValidationDescriptor.members,
    DeploymentDescriptor.members, ProvenanceDescriptor.members, List.map]
  decide +kernel

/-- The values of an artifact descriptor are bounded by its strings and lists. -/
theorem valuesSize_artifact_le (a : ArtifactDescriptor) :
    valuesSize a.members ≤ 21000 + artifactSize a := by
  obtain ⟨htarget, hcompiler, hbackend, hspecialization, hvalidation, hdeployment, hprovenance⟩ :=
    namesSize_nested a
  have hsplit : a.members = a.members.take 7 ++ (nestedFields a ++ a.members.drop 14) := rfl
  have hnested : valuesSize (nestedFields a) ≤ 3000 + valuesSize a.target.members +
      (3000 + valuesSize a.compiler.members + (3000 + valuesSize a.backend.members +
        (3000 + valuesSize a.specialization.members + (3000 + valuesSize a.validation.members +
          (3000 + valuesSize a.deployment.members +
            (3000 + valuesSize a.provenance.members)))))) := by
    unfold valuesSize nestedFields
    simp only [List.map_cons, List.map_nil, List.sum_cons, List.sum_nil, Nat.add_zero]
    exact Nat.add_le_add (length_dump_ofFields_le htarget) <|
      Nat.add_le_add (length_dump_ofFields_le hcompiler) <|
      Nat.add_le_add (length_dump_ofFields_le hbackend) <|
      Nat.add_le_add (length_dump_ofFields_le hspecialization) <|
      Nat.add_le_add (length_dump_ofFields_le hvalidation) <|
      Nat.add_le_add (length_dump_ofFields_le hdeployment) (length_dump_ofFields_le hprovenance)
  unfold artifactSize
  rw [hsplit, valuesSize_append, valuesSize_append, ← hsplit]
  omega

end CompilationFabric.Interface
