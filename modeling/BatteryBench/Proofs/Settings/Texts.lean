import BatteryBench.Json.Records
import BatteryBench.Proofs.Json.RoundTrip
import BatteryBench.Proofs.Settings.Members

/-!
# Settings that are kept

Settings that are written are read back as they were (`Settings.ofText?_text_toJson`). More than
that, an application may keep them among its own: whoever writes the object may move its members
about and put others between them, and leave out what has a default (`Settings.Endures`). What
nobody may do is to give a member that is known twice, or as `null` where that has no meaning
(`Settings.Misgiven`).

All of this is said of every text of the object, so blanks and the way in which strings are escaped
do not matter either.
-/

namespace BatteryBench

namespace Settings

variable {ms : List (Option Text × Json)} {members : List (Text × Json)} {c : Settings} {t : Text}

/-! ### Texts of objects -/

/-- That settings are read from an object, whatever text writes it. -/
structure ReadFrom (ms : List (Option Text × Json)) (c : Settings) : Prop where
  /-- There is a text that writes it. -/
  written : Json.ofText? (Json.text (.object ms)) = some (.object ms)
  /-- From every such text the settings are read. -/
  read : ∀ t, Json.ofText? t = some (.object ms) → Stored.ofText? Settings t = some c

theorem ofText?_of_object (h : Json.ofText? t = some (.object ms)) :
    Stored.ofText? Settings t = ofJson? (.object ms) := by
  rw [Stored.ofText?, h]
  rfl

/-- What settings are read from can be written. -/
theorem Gives.isWritable (h : Gives members c) :
    (Json.object (members.map fun m ↦ (some m.1, m.2))).isWritable := by
  refine Json.membersAreWritable_iff.mpr (List.forall_mem_map.mpr fun m hm ↦ ⟨rfl, ?_⟩)
  by_cases htag : m.1 = tag
  · have hmem : (tag, m.2) ∈ members := htag ▸ hm
    have htext : m.2.toText? = some c.transport.name := Json.read_of_mem h.named hmem
    cases hv : m.2 with
    | string s =>
      rw [hv] at htext
      exact Option.isSome_of_eq_some htext
    | null | bool _ | number _ | array _ | object _ =>
      rw [hv] at htext
      cases htext
  · exact Json.isWritable_of_isPlain (h.plain m hm htag)

theorem Gives.readFrom (h : Gives members c) :
    ReadFrom (members.map fun m ↦ (some m.1, m.2)) c where
  written := Json.ofText?_text h.isWritable
  read t ht := by
    rw [ofText?_of_object ht]
    exact ofJson?_object_eq_some_iff.mpr ⟨members, rfl, h⟩

/-! ### Writing and reading -/

/-- The values of the members are scalars. -/
theorem isScalar_of_mem_members {m : Text × Json} (h : m ∈ c.members) : m.2.isScalar := by
  cases c with
  | udp target interface =>
    cases interface with
    | none =>
      obtain rfl := List.mem_singleton.mp h
      rfl
    | some interface => rcases List.mem_pair.mp h with rfl | rfl <;> rfl
  | tcp target connectTimeout =>
    rcases List.mem_pair.mp h with rfl | rfl
    · rfl
    · exact Json.isScalar_ofInt_natCast connectTimeout.toNat_lt
  | serial port deviceId =>
    rcases List.mem_pair.mp h with rfl | rfl
    · rfl
    · exact Json.isScalar_ofInt_natCast (Nat.lt_trans deviceId.toNat_lt (by decide))
  | multicast interface =>
    obtain rfl := List.mem_singleton.mp h
    rfl

/-- The members that settings are written with are settings. -/
theorem gives_members (c : Settings) : Gives ((tag, .ofText c.transport.name) :: c.members) c := by
  have hplain : ∀ m ∈ (tag, .ofText c.transport.name) :: c.members, m.1 ≠ tag →
      m.2.isPlain maxDepth := by
    intro m hm htag
    rcases List.mem_cons.mp hm with rfl | hm
    · exact absurd rfl htag
    · exact Json.isPlain_of_isScalar (isScalar_of_mem_members hm) _
  cases c with
  | udp target interface => cases interface with
    | none => exact ⟨hplain, rfl, rfl, rfl⟩
    | some interface => exact ⟨hplain, rfl, rfl, rfl⟩
  | tcp target connectTimeout =>
    have hcontains : Width.uint64.contains connectTimeout.toNat :=
      Width.unsigned_contains_iff.mpr ⟨by omega, by exact_mod_cast connectTimeout.toNat_lt⟩
    exact ⟨hplain, rfl, rfl, Json.toInteger?_ofInt hcontains⟩
  | serial port deviceId =>
    have hcontains : Width.uint32.contains deviceId.toNat :=
      Width.unsigned_contains_iff.mpr ⟨by omega, by exact_mod_cast deviceId.toNat_lt⟩
    exact ⟨hplain, rfl, rfl, Json.toInteger?_ofInt hcontains⟩
  | multicast interface => exact ⟨hplain, rfl, rfl⟩

/-- **Settings that are written are read back.** -/
theorem ofText?_text_toJson (c : Settings) :
    Stored.ofText? Settings (Json.text (Stored.toJson c)) = some c :=
  (gives_members c).readFrom.read _ (gives_members c).readFrom.written

/-! ### Objects that were changed -/

/-- What may be done to the members of an object that settings are read from. -/
structure Endures (ms : List (Option Text × Json)) (c : Settings) : Prop where
  /-- They may stand in any order, with others between them that the transport does not know. -/
  moved : ∀ (extras : List (Text × Json)) (ms' : List (Option Text × Json)),
    (∀ m ∈ extras, IsUnknown c.transport m) →
    ms'.Perm (ms ++ extras.map fun m ↦ (some m.1, m.2)) → ReadFrom ms' c
  /-- The one that may be left out can be left out. -/
  without : ∀ name, optionalName? c.transport = some name →
    ReadFrom (ms.filter fun m ↦ m.1 != some name) c.withDefault
  /-- If it is left out, the settings have the default. -/
  absent : ∀ name, optionalName? c.transport = some name → some name ∉ ms.map Prod.fst →
    c = c.withDefault
  /-- The interface of UDP may be `null` instead. -/
  null : c.transport = .udp →
    ReadFrom ((ms.filter fun m ↦ m.1 != some noInterface.1) ++
      [(some noInterface.1, noInterface.2)]) c.withDefault

/-- That a member that is known is given wrongly. -/
inductive Misgiven (ms : List (Option Text × Json)) : Prop where
  /-- The transport is named twice. -/
  | tagTwice (h : 2 ≤ (ms.map Prod.fst).count (some tag))
  /-- The transport is `null`. -/
  | tagNull (h : (some tag, .null) ∈ ms)
  /-- A member that the transport knows is given twice. -/
  | twice (kind : Transport) (name : Text) (hkind : (some tag, .ofText kind.name) ∈ ms)
    (hname : name ∈ fieldNames kind) (h : 2 ≤ (ms.map Prod.fst).count (some name))
  /-- A member that the transport knows is `null`, and not the interface of UDP. -/
  | null (kind : Transport) (name : Text) (hkind : (some tag, .ofText kind.name) ∈ ms)
    (hname : name ∈ fieldNames kind) (h : (some name, .null) ∈ ms)
    (hother : kind ≠ .udp ∨ name ≠ "interface_ip")

/-- Leaving out members by their names. -/
theorem filter_map_named (name : Text) (members : List (Text × Json)) :
    (members.map fun m ↦ (some m.1, m.2)).filter (fun m ↦ m.1 != some name) =
      (members.filter fun m ↦ m.1 != name).map fun m ↦ (some m.1, m.2) := by
  rw [List.filter_map]
  congr 1

theorem Gives.endures (h : Gives members c) :
    Endures (members.map fun m ↦ (some m.1, m.2)) c where
  moved extras ms' hextras hperm := by
    rw [← List.map_append] at hperm
    obtain ⟨moved, rfl, hmoved⟩ := Json.exists_named_of_perm hperm
    exact (h.of_perm hextras hmoved).readFrom
  without name hname := by
    rw [filter_map_named]
    exact (h.without hname).readFrom
  absent name hname habsent := by
    have hall : members.filter (fun m ↦ m.1 != name) = members := by
      refine List.filter_eq_self.mpr fun m hm ↦ bne_iff_ne.mpr ?_
      rintro rfl
      exact habsent (List.mem_map.mpr ⟨_, List.mem_map_of_mem hm, rfl⟩)
    have hread := (h.without hname).readFrom
    rw [hall] at hread
    have hboth := (hread.read _ hread.written).symm.trans (h.readFrom.read _ hread.written)
    exact (Option.some.inj hboth).symm
  null hudp := by
    rw [filter_map_named]
    have hnull := (h.with_noInterface hudp).readFrom
    rw [List.map_append] at hnull
    exact hnull

/-- Members that are given wrongly are no settings. -/
theorem Gives.not_misgiven (h : Gives members c) :
    ¬ Misgiven (members.map fun m ↦ (some m.1, m.2)) := by
  have hmem : ∀ {name : Text} {v : Json},
      (some name, v) ∈ members.map (fun m ↦ (some m.1, m.2)) → (name, v) ∈ members := by
    intro name v hnamed
    obtain ⟨m, hm, heq⟩ := List.mem_map.mp hnamed
    cases heq
    exact hm
  intro hms
  cases hms with
  | tagTwice htwo =>
    rw [Json.count_map_named] at htwo
    exact absurd (h.count_lt_two (.inl rfl)) (Nat.not_lt_of_le htwo)
  | tagNull hnull => exact absurd (h.of_null_mem (.inl rfl) (hmem hnull)).2 (by decide)
  | twice kind name hkind hname htwo =>
    obtain rfl := h.transport_eq (hmem hkind)
    rw [Json.count_map_named] at htwo
    exact absurd (h.count_lt_two (.inr hname)) (Nat.not_lt_of_le htwo)
  | null kind name hkind hname hnull hother =>
    obtain rfl := h.transport_eq (hmem hkind)
    obtain ⟨hudp, hinterface⟩ := h.of_null_mem (.inr hname) (hmem hnull)
    rcases hother with hother | hother
    · exact hother hudp
    · exact hother hinterface

/-- **Settings survive being kept.** What is written is read back. An object that settings are read
from may be changed in all the ways of `Settings.Endures`, and one in which a member that is known
is given wrongly is read as no settings. -/
theorem kept_in_json (c : Settings) :
    Stored.ofText? Settings (Json.text (Stored.toJson c)) = some c ∧
      ∀ (t : Text) (ms : List (Option Text × Json)), Json.ofText? t = some (.object ms) →
        (Stored.ofText? Settings t = some c → Endures ms c) ∧
          (Misgiven ms → Stored.ofText? Settings t = none) := by
  refine ⟨ofText?_text_toJson c, fun t ms ht ↦ ⟨fun hc ↦ ?_, fun hms ↦ ?_⟩⟩
  · rw [ofText?_of_object ht] at hc
    obtain ⟨members, rfl, hgives⟩ := ofJson?_object_eq_some_iff.mp hc
    exact hgives.endures
  · rw [ofText?_of_object ht]
    refine Option.eq_none_iff_forall_ne_some.mpr fun other hother ↦ ?_
    obtain ⟨members, rfl, hgives⟩ := ofJson?_object_eq_some_iff.mp hother
    exact hgives.not_misgiven hms

/-- An application keeps a note among the settings of a unit on a serial bus, and turns the members
around. If it gives the port twice, nothing is read. -/
theorem kept_in_json_serial :
    Stored.ofText? Settings
        "\x7b\"note\":null,\"device_id\":7,\"port\":\"COM3\",\"transport\":\"serial\"\x7d" =
      some (serial "COM3" 7) ∧
    Stored.ofText? Settings
        "\x7b\"transport\":\"serial\",\"port\":\"COM3\",\"port\":\"COM4\"\x7d" = none := by
  have hwritten : ∀ ms, Json.membersAreWritable ms →
      Json.ofText? (Json.text (.object ms)) = some (.object ms) := fun _ h ↦ Json.ofText?_text h
  constructor
  · have hplain := hwritten [(some tag, .ofText "serial"), (some "port", .ofText "COM3"),
      (some "device_id", .ofInt 7)] rfl
    have hread : Stored.ofText? Settings _ = some (serial "COM3" 7) :=
      (ofText?_of_object hplain).trans (by decide +kernel)
    have hkept := ((kept_in_json (serial "COM3" 7)).2 _ _ hplain).1 hread
    have hturned := hkept.moved [("note", .null)] _ (by decide) (List.reverse_perm _)
    exact hturned.read _ hturned.written
  · have htwice := hwritten [(some tag, .ofText "serial"), (some "port", .ofText "COM3"),
      (some "port", .ofText "COM4")] rfl
    exact ((kept_in_json (serial "COM3" 7)).2 _ _ htwice).2
      (.twice .serial "port" List.mem_cons_self (by decide) (by decide))

end Settings

end BatteryBench
