import BatteryBench.Json.Record
import Mathlib.Data.List.Perm.Basic

/-!
# Members by name

A record looks its fields up by name, so nothing depends on where a member stands
(`Json.field?_of_perm`) or on members of other names (`Json.field?_append`, `Json.field?_filter`). A
field that is given twice has no value (`Json.field?_of_two`), and one that is given once has the
value that is read from it (`Json.read_of_mem`).
-/

namespace BatteryBench

namespace Json

/-! ### Names -/

/-- The names of an object are texts exactly if its members are named ones. -/
theorem namedMembers?_eq_some_iff {ms : List (Option Text × Json)} {members : List (Text × Json)} :
    namedMembers? ms = some members ↔ ms = members.map fun m ↦ (some m.1, m.2) := by
  induction ms generalizing members with
  | nil =>
    rw [namedMembers?, Option.some.injEq, eq_comm, eq_comm (a := []), List.map_eq_nil_iff]
  | cons m ms ih =>
    obtain ⟨_ | name, v⟩ := m
    · rw [namedMembers?]
      refine ⟨nofun, fun h ↦ ?_⟩
      cases members with
      | nil => cases h
      | cons m members => cases h
    · rw [namedMembers?, Option.map_eq_some_iff]
      constructor
      · rintro ⟨rest, hrest, rfl⟩
        rw [ih.mp hrest, List.map_cons]
      · intro h
        cases members with
        | nil => cases h
        | cons m members =>
          obtain ⟨hm, hms⟩ := List.cons.inj h
          refine ⟨members, ih.mpr hms, ?_⟩
          obtain ⟨hname, hv⟩ := Prod.mk.inj hm
          rw [Option.some.inj hname, hv]

/-- Members that are moved about are still named ones. -/
theorem exists_named_of_perm {members : List (Text × Json)} {ms : List (Option Text × Json)}
    (h : ms.Perm (members.map fun m ↦ (some m.1, m.2))) :
    ∃ moved : List (Text × Json), ms = (moved.map fun m ↦ (some m.1, m.2)) ∧
      moved.Perm members := by
  have hcomp := List.eq_map_comp_perm fun m : Text × Json ↦ (some m.1, m.2)
  exact (congrFun (congrFun hcomp ms) members).mpr h

/-- How often a name is given. -/
theorem count_map_named (name : Text) (members : List (Text × Json)) :
    ((members.map fun m ↦ (some m.1, m.2)).map Prod.fst).count (some name) =
      (members.map Prod.fst).count name := by
  rw [List.count, List.count, List.countP_map, List.countP_map, List.countP_map]
  rfl

/-! ### Fields -/

variable {α : Type} {fields fields' : List (Text × Json)} {name : Text} {absent : Option α}
  {read : Json → Option α}

/-- **The order of the members does not matter.** -/
theorem field?_of_perm (h : fields.Perm fields') (name : Text) (absent : Option α)
    (read : Json → Option α) :
    field? fields name absent read = field? fields' name absent read := by
  have hperm := h.filter fun f ↦ f.1 == name
  rw [field?, field?]
  generalize fields.filter (fun f ↦ f.1 == name) = given at hperm ⊢
  generalize fields'.filter (fun f ↦ f.1 == name) = given' at hperm ⊢
  match given, given', hperm with
  | [], given', hperm => rw [hperm.symm.eq_nil]
  | [f], given', hperm => rw [List.perm_singleton.mp hperm.symm]
  | _ :: _ :: _, [], hperm => cases hperm.eq_nil
  | _ :: _ :: _, [_], hperm => cases List.perm_singleton.mp hperm
  | _ :: _ :: _, _ :: _ :: _, _ => rfl

/-- **Nor do members of other names.** -/
theorem field?_append {extras : List (Text × Json)} (h : ∀ m ∈ extras, m.1 ≠ name) :
    field? (fields ++ extras) name absent read = field? fields name absent read := by
  have hnone : extras.filter (fun f ↦ f.1 == name) = [] :=
    List.filter_eq_nil_iff.mpr fun m hm ↦ by simpa using h m hm
  rw [field?, field?, List.filter_append, hnone, List.append_nil]

/-- Leaving out members of other names changes nothing. -/
theorem field?_filter {p : Text × Json → Bool} (h : ∀ m ∈ fields, m.1 = name → p m) :
    field? (fields.filter p) name absent read = field? fields name absent read := by
  have hsame : (fields.filter p).filter (fun f ↦ f.1 == name) =
      fields.filter fun f ↦ f.1 == name := by
    rw [List.filter_filter]
    refine List.filter_congr fun m hm ↦ ?_
    by_cases hname : m.1 = name
    · simp [hname, h m hm hname]
    · simp [hname]
  rw [field?, field?, hsame]

/-- A field that nothing is given for. -/
theorem field?_of_forall_ne (h : ∀ m ∈ fields, m.1 ≠ name) :
    field? fields name absent read = absent := by
  have hnone : fields.filter (fun f ↦ f.1 == name) = [] :=
    List.filter_eq_nil_iff.mpr fun m hm ↦ by simpa using h m hm
  rw [field?, hnone]

/-- The value of a field is the one it has if it is absent, or it is read. -/
theorem eq_or_read_of_field? {a : α} (h : field? fields name absent read = some a) :
    absent = some a ∨ ∃ v, read v = some a := by
  rw [field?] at h
  split at h
  · exact .inl h
  · exact .inr ⟨_, h⟩
  · cases h

/-- **A field that is given twice** has no value. -/
theorem field?_of_two (h : 2 ≤ (fields.map Prod.fst).count name) :
    field? fields name absent read = none := by
  have hlength : (fields.map Prod.fst).count name = (fields.filter fun f ↦ f.1 == name).length := by
    rw [List.count, List.countP_map, List.countP_eq_length_filter]
    rfl
  rw [hlength] at h
  rw [field?]
  split
  · next hnone => simp [hnone] at h
  · next f hone => simp [hone] at h
  · rfl

/-- A field that is given has the value that is read from it. -/
theorem read_of_mem {v : Json} {a : α} (h : field? fields name absent read = some a)
    (hmem : (name, v) ∈ fields) : read v = some a := by
  have hgiven : (name, v) ∈ fields.filter fun f ↦ f.1 == name :=
    List.mem_filter.mpr ⟨hmem, by simp⟩
  rw [field?] at h
  split at h
  · next hnone => rw [hnone] at hgiven; cases hgiven
  · next f hone =>
    rw [hone, List.mem_singleton] at hgiven
    rw [← hgiven] at h
    exact h
  · cases h

end Json

end BatteryBench
