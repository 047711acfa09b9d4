import BatteryBench.Json.Records
import BatteryBench.Proofs.Json.Members
import BatteryBench.Proofs.Json.RoundTrip
import BatteryBench.Proofs.Json.Scalars
import Mathlib.Data.List.Perm.Subperm

/-!
# The forms of records

A record without defaults has a form: the names of its fields in order, and what the value of each
may be. Whoever reads it field by field, by the names of the form, cannot see where a member stands
or what other members there are, and fails if a field is not given exactly once by a value of its
kind (`Json.ReadsForm`). That law is kept by reading one field more, so a record has it from its
fields.

What is kept in JSON by such a reader survives there (`Survives`), which is shown once for all
records (`Json.ReadsForm.survives`). All of it is said of every text of an object or a list, so
blanks and the way in which strings are escaped do not matter either.
-/

namespace BatteryBench

/-! ### Fields -/

/-- What the value of a field may be. -/
inductive FieldKind where
  /-- A text. -/
  | text
  /-- An integer of a width. -/
  | integer (w : Width)
  /-- The text of an internet address. -/
  | address

/-- That a value is one that a field may have. -/
inductive FieldKind.Accepts : FieldKind → Json → Prop where
  | text (t : Text) : Accepts .text (.ofText t)
  | integer {w : Width} {n : Int} (h : n ∈ w.range) : Accepts (.integer w) (.ofInt n)
  | address {t : Text} {a : Address} (h : readAddress? t = some a) : Accepts .address (.ofText t)

/-- The names of the fields of a record, and what their values may be. -/
abbrev RecordForm : Type := List (Text × FieldKind)

/-- The names of the fields. -/
def RecordForm.names (form : RecordForm) : List Text := form.map Prod.fst

/-! ### What survives -/

/-- How values survive in JSON if they are records of a form. -/
structure Survives (α : Type) [Stored α] (form : RecordForm) : Prop where
  /-- A value is written as an object of its fields in order. From every text of that object it is
  read, and from every text of the list of its field values; and there are such texts. -/
  written : ∀ a : α, ∃ vs : List Json, vs.length = form.length ∧
    Stored.toJson a = .ofMembers (form.names.zip vs) ∧
    Json.ofText? (Json.text (Stored.toJson a)) = some (Stored.toJson a) ∧
    Json.ofText? (Json.text (.array vs)) = some (.array vs) ∧
    ∀ t, Json.ofText? t = some (Stored.toJson a) ∨ Json.ofText? t = some (.array vs) →
      Stored.ofText? α t = some a
  /-- The fields of an object may stand in any order, with members of other names between them: what
  is read is what is read from the list of the field values. -/
  moved : ∀ (vs : List Json) (extras : List (Text × Json)) (ms : List (Option Text × Json))
    (t t' : Text), vs.length = form.length → (∀ m ∈ extras, m.1 ∉ form.names) →
    ms.Perm ((form.names.zip vs ++ extras).map fun m ↦ (some m.1, m.2)) →
    Json.ofText? t = some (.object ms) → Json.ofText? t' = some (.array vs) →
    Stored.ofText? α t = Stored.ofText? α t'
  /-- An object in which a field is missing or given more than once is refused. -/
  once : ∀ (ms : List (Option Text × Json)) (t : Text), ∀ name ∈ form.names,
    (ms.map Prod.fst).count (some name) ≠ 1 → Json.ofText? t = some (.object ms) →
    Stored.ofText? α t = none
  /-- So is a list that has more or fewer values than there are fields. -/
  each : ∀ (vs : List Json) (t : Text), vs.length ≠ form.length →
    Json.ofText? t = some (.array vs) → Stored.ofText? α t = none
  /-- So is a field with a value that it may not have, in an object or in a list. -/
  refused : ∀ (f : Text × FieldKind) (v : Json), ¬f.2.Accepts v →
    (∀ (ms : List (Option Text × Json)) (t : Text), f ∈ form → (some f.1, v) ∈ ms →
      Json.ofText? t = some (.object ms) → Stored.ofText? α t = none) ∧
    ∀ (vs : List Json) (t : Text), (f, v) ∈ form.zip vs →
      Json.ofText? t = some (.array vs) → Stored.ofText? α t = none

/-! ### Reading field by field -/

namespace Json

/-- An integer that is read is written like any other of the width. -/
theorem eq_ofInt_of_toInteger? {w : Width} {v : Json} {n : Int} (h : toInteger? w v = some n) :
    v = .ofInt n := by
  cases v with
  | number m =>
    have hm := (Option.filter_eq_some_iff.mp h).1
    rcases m with ⟨_ | _, _ | k⟩ | _ <;> cases hm <;> rfl
  | _ => cases h

theorem accepts_of_toText? {v : Json} {t : Text} (h : toText? v = some t) :
    FieldKind.text.Accepts v := by
  cases v with
  | string s =>
    obtain rfl : s = some t := h
    exact .text t
  | _ => cases h

theorem accepts_of_toInteger? {w : Width} {v : Json} {n : Int} (h : toInteger? w v = some n) :
    (FieldKind.integer w).Accepts v := by
  rw [eq_ofInt_of_toInteger? h]
  exact .integer (Width.contains_iff_mem_range.mp (contains_of_toInteger? h))

theorem accepts_of_readAddress? {v : Json} {a : Address} (h : v.toText?.bind readAddress? = some a) :
    FieldKind.address.Accepts v := by
  obtain ⟨t, ht, hread⟩ := Option.bind_eq_some_iff.mp h
  cases v with
  | string s =>
    obtain rfl : s = some t := ht
    exact .address hread
  | _ => cases ht

variable {α β : Type} {name : Text} {kind : FieldKind} {form : RecordForm}
  {members members' : List (Text × Json)}

/-- A field is looked up before its value is read. -/
theorem field?_eq_bind (read : Json → Option α) :
    field? members name none read = (field? members name none some).bind read := by
  rw [field?, field?]
  generalize members.filter (fun f ↦ f.1 == name) = given
  rcases given with - | ⟨f, - | ⟨g, more⟩⟩ <;> rfl

/-- That a record is read field by field in a form. -/
structure ReadsForm (form : RecordForm) (read : List (Text × Json) → Option α) : Prop where
  /-- Only the members of the fields matter. -/
  congr : ∀ members members',
    (∀ name ∈ form.names, field? members' name none some = field? members name none some) →
    read members' = read members
  /-- Each field has to be given once, by a value that it may have. -/
  accepts : ∀ members a, read members = some a → ∀ f ∈ form, ∃ v,
    field? members f.1 none some = some v ∧ f.2.Accepts v

namespace ReadsForm

/-- Without fields, the value is fixed. -/
theorem nil (a : α) : ReadsForm [] fun _ ↦ some a where
  congr _ _ _ := rfl
  accepts _ _ _ _ hf := nomatch hf

/-- **One field more** is read in front of the others. -/
theorem cons {read : Json → Option β} (hread : ∀ v b, read v = some b → kind.Accepts v)
    {next : β → List (Text × Json) → Option α} (hnext : ∀ b, ReadsForm form (next b)) :
    ReadsForm ((name, kind) :: form) fun members ↦
      (field? members name none read).bind fun b ↦ next b members where
  congr members members' h := by
    obtain ⟨hname, hform⟩ := List.forall_mem_cons.mp h
    have hsame (b : β) : next b members' = next b members := (hnext b).congr _ _ hform
    simp only [field?_eq_bind read, hname, hsame]
  accepts members a h := by
    obtain ⟨b, hb, ha⟩ := Option.bind_eq_some_iff.mp h
    rw [field?_eq_bind] at hb
    obtain ⟨v, hv, hvread⟩ := Option.bind_eq_some_iff.mp hb
    exact List.forall_mem_cons.mpr ⟨⟨v, hv, hread v b hvread⟩, (hnext b).accepts members a ha⟩

theorem text {next : Text → List (Text × Json) → Option α} (hnext : ∀ t, ReadsForm form (next t)) :
    ReadsForm ((name, .text) :: form) fun members ↦
      (textField? members name).bind fun t ↦ next t members :=
  cons (fun _ _ ↦ accepts_of_toText?) hnext

theorem integer {w : Width} {next : Int → List (Text × Json) → Option α}
    (hnext : ∀ n, ReadsForm form (next n)) :
    ReadsForm ((name, .integer w) :: form) fun members ↦
      (integerField? members name w).bind fun n ↦ next n members :=
  cons (fun _ _ ↦ accepts_of_toInteger?) hnext

theorem address {next : Address → List (Text × Json) → Option α}
    (hnext : ∀ a, ReadsForm form (next a)) :
    ReadsForm ((name, .address) :: form) fun members ↦
      (textField? members name).bind fun t ↦ (readAddress? t).bind fun a ↦ next a members := by
  have hsame (members : List (Text × Json)) :
      ((textField? members name).bind fun t ↦ (readAddress? t).bind fun a ↦ next a members) =
        (field? members name none fun v ↦ v.toText?.bind readAddress?).bind fun a ↦
          next a members := by
    rw [textField?, field?_eq_bind toText?, field?_eq_bind fun v ↦ v.toText?.bind readAddress?,
      Option.bind_assoc, Option.bind_assoc]
    simp only [Option.bind_assoc]
  simp only [hsame]
  exact cons (fun _ _ ↦ accepts_of_readAddress?) hnext

end ReadsForm

end Json

/-! ### Objects and lists -/

open Json

/-- That values are written and read as records of a form, and what reads them from the members. -/
structure StoredAs (α : Type) [Stored α] (form : RecordForm)
    (read : List (Text × Json) → Option α) : Prop where
  /-- No two fields have one name. -/
  nodup : form.names.Nodup
  /-- They are read field by field, from an object or a list. -/
  readsForm : ReadsForm form read
  ofJson?_eq : ∀ v, Stored.ofJson? v = (fieldsOf? form.names v).bind read
  /-- What is written are values of the fields. -/
  toJson_eq : ∀ a, ∃ vs : List Json, vs.length = form.length ∧
    Stored.toJson a = .ofMembers (form.names.zip vs) ∧ read (form.names.zip vs) = some a ∧
    ∀ v ∈ vs, v.isWritable

namespace StoredAs

variable {α : Type} [Stored α] {form : RecordForm} {read : List (Text × Json) → Option α}
  {ms : List (Option Text × Json)} {members : List (Text × Json)} {vs : List Json} {t : Text}

theorem ofText?_object (h : StoredAs α form read) (ht : Json.ofText? t = some (.object ms)) :
    Stored.ofText? α t = (namedMembers? ms).bind read := by
  rw [Stored.ofText?, ht, Option.bind_some, h.ofJson?_eq, fieldsOf?]

theorem ofText?_ofMembers (h : StoredAs α form read)
    (ht : Json.ofText? t = some (.object (members.map fun m ↦ (some m.1, m.2)))) :
    Stored.ofText? α t = read members := by
  rw [h.ofText?_object ht, namedMembers?_eq_some_iff.mpr rfl, Option.bind_some]

theorem ofText?_array (h : StoredAs α form read) (ht : Json.ofText? t = some (.array vs)) :
    Stored.ofText? α t =
      if vs.length ≤ form.length then read (form.names.zip vs) else none := by
  rw [Stored.ofText?, ht, Option.bind_some, h.ofJson?_eq, fieldsOf?, RecordForm.names,
    List.length_map]
  split <;> rfl

/-- What is read from an object is read from its members. -/
theorem exists_members (h : StoredAs α form read) (ht : Json.ofText? t = some (.object ms)) {a : α}
    (ha : Stored.ofText? α t = some a) :
    ∃ members, ms = (members.map fun m ↦ (some m.1, m.2)) ∧ read members = some a := by
  rw [h.ofText?_object ht] at ha
  obtain ⟨members, hms, hread⟩ := Option.bind_eq_some_iff.mp ha
  exact ⟨members, namedMembers?_eq_some_iff.mp hms, hread⟩

/-- What is read from a list is read from its values. -/
theorem read_zip (h : StoredAs α form read) (ht : Json.ofText? t = some (.array vs)) {a : α}
    (ha : Stored.ofText? α t = some a) :
    vs.length ≤ form.length ∧ read (form.names.zip vs) = some a := by
  rw [h.ofText?_array ht] at ha
  split_ifs at ha with hle
  exact ⟨hle, ha⟩

/-- **Every field is given exactly once.** -/
theorem count_eq_one (h : StoredAs α form read) {a : α} (hread : read members = some a) {name : Text}
    (hname : name ∈ form.names) : (members.map Prod.fst).count name = 1 := by
  obtain ⟨f, hf, rfl⟩ := List.mem_map.mp hname
  obtain ⟨v, hv, -⟩ := h.readsForm.accepts members a hread f hf
  have hpos : (members.map Prod.fst).count f.1 ≠ 0 := by
    intro hzero
    rw [field?_of_forall_ne] at hv
    · cases hv
    · exact fun m hm heq ↦ List.count_eq_zero.mp hzero (heq ▸ List.mem_map_of_mem hm)
  have hlt : (members.map Prod.fst).count f.1 < 2 := by
    by_contra htwo
    rw [field?_of_two (Nat.le_of_not_lt htwo)] at hv
    cases hv
  omega

theorem once (h : StoredAs α form read) {name : Text} (hname : name ∈ form.names)
    (hcount : (ms.map Prod.fst).count (some name) ≠ 1)
    (ht : Json.ofText? t = some (.object ms)) : Stored.ofText? α t = none := by
  rw [Option.eq_none_iff_forall_ne_some]
  intro a ha
  obtain ⟨members, rfl, hread⟩ := h.exists_members ht ha
  rw [count_map_named] at hcount
  exact hcount (h.count_eq_one hread hname)

/-- A list that is too short leaves a field without a value. -/
theorem each (h : StoredAs α form read) (hlength : vs.length ≠ form.length)
    (ht : Json.ofText? t = some (.array vs)) : Stored.ofText? α t = none := by
  rw [Option.eq_none_iff_forall_ne_some]
  intro a ha
  obtain ⟨hle, hread⟩ := h.read_zip ht ha
  have hsub : form.names ⊆ (form.names.zip vs).map Prod.fst := by
    intro name hname
    have hcount := h.count_eq_one hread hname
    exact List.count_pos_iff.mp (by omega)
  have hshort := (List.subperm_of_subset h.nodup hsub).length_le
  rw [List.length_map, List.length_zip, RecordForm.names, List.length_map] at hshort
  omega

/-- **The order of the members does not matter**, nor do members of other names. -/
theorem moved (h : StoredAs α form read) {extras : List (Text × Json)} {t' : Text}
    (hlength : vs.length = form.length) (hextras : ∀ m ∈ extras, m.1 ∉ form.names)
    (hperm : ms.Perm ((form.names.zip vs ++ extras).map fun m ↦ (some m.1, m.2)))
    (ht : Json.ofText? t = some (.object ms)) (ht' : Json.ofText? t' = some (.array vs)) :
    Stored.ofText? α t = Stored.ofText? α t' := by
  obtain ⟨members, rfl, hmembers⟩ := exists_named_of_perm hperm
  rw [h.ofText?_ofMembers ht, h.ofText?_array ht', if_pos (Nat.le_of_eq hlength)]
  refine h.readsForm.congr _ _ fun name hname ↦ ?_
  rw [field?_of_perm hmembers, field?_append fun m hm heq ↦ hextras m hm (heq ▸ hname)]

/-- A value that a field may not have is not read. -/
theorem accepts_of_mem (h : StoredAs α form read) {a : α} (hread : read members = some a)
    {f : Text × FieldKind} (hf : f ∈ form) {v : Json} (hv : (f.1, v) ∈ members) : f.2.Accepts v := by
  obtain ⟨w, hw, haccepts⟩ := h.readsForm.accepts members a hread f hf
  obtain rfl : v = w := Option.some.inj (read_of_mem hw hv)
  exact haccepts

theorem refused (h : StoredAs α form read) {f : Text × FieldKind} {v : Json}
    (hv : ¬f.2.Accepts v) :
    (∀ (ms : List (Option Text × Json)) (t : Text), f ∈ form → (some f.1, v) ∈ ms →
      Json.ofText? t = some (.object ms) → Stored.ofText? α t = none) ∧
    ∀ (vs : List Json) (t : Text), (f, v) ∈ form.zip vs →
      Json.ofText? t = some (.array vs) → Stored.ofText? α t = none := by
  simp only [Option.eq_none_iff_forall_ne_some]
  constructor
  · intro ms t hf hmem ht a ha
    obtain ⟨members, rfl, hread⟩ := h.exists_members ht ha
    obtain ⟨m, hm, heq⟩ := List.mem_map.mp hmem
    obtain ⟨hname, rfl⟩ := Prod.mk.inj heq
    exact hv (h.accepts_of_mem hread hf (Option.some.inj hname ▸ hm))
  · intro vs t hmem ht a ha
    have hnamed : (f.1, v) ∈ form.names.zip vs := by
      rw [RecordForm.names, List.zip_map_left]
      exact List.mem_map.mpr ⟨_, hmem, rfl⟩
    exact hv (h.accepts_of_mem (h.read_zip ht ha).2 (List.of_mem_zip hmem).1 hnamed)

theorem written (h : StoredAs α form read) (a : α) : ∃ vs : List Json, vs.length = form.length ∧
    Stored.toJson a = .ofMembers (form.names.zip vs) ∧
    Json.ofText? (Json.text (Stored.toJson a)) = some (Stored.toJson a) ∧
    Json.ofText? (Json.text (.array vs)) = some (.array vs) ∧
    ∀ t, Json.ofText? t = some (Stored.toJson a) ∨ Json.ofText? t = some (.array vs) →
      Stored.ofText? α t = some a := by
  obtain ⟨vs, hlength, hjson, hread, hwritable⟩ := h.toJson_eq a
  have hobject : (Stored.toJson a).isWritable := by
    rw [hjson]
    refine membersAreWritable_iff.mpr (List.forall_mem_map.mpr fun m hm ↦ ⟨rfl, ?_⟩)
    exact hwritable m.2 (List.of_mem_zip hm).2
  have harray : (Json.array vs).isWritable := elementsAreWritable_iff.mpr hwritable
  refine ⟨vs, hlength, hjson, Json.ofText?_text hobject, Json.ofText?_text harray, fun t ht ↦ ?_⟩
  rcases ht with ht | ht
  · rw [hjson] at ht
    rw [h.ofText?_ofMembers ht, hread]
  · rw [h.ofText?_array ht, if_pos (Nat.le_of_eq hlength), hread]

/-- **Records that are read field by field survive.** -/
theorem survives (h : StoredAs α form read) : Survives α form where
  written := h.written
  moved _ _ _ _ _ hlength hextras hperm ht ht' := h.moved hlength hextras hperm ht ht'
  once _ _ _ hname hcount ht := h.once hname hcount ht
  each _ _ hlength ht := h.each hlength ht
  refused _ _ hv := h.refused hv

end StoredAs

end BatteryBench
