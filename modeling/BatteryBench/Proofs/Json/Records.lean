import BatteryBench.Proofs.Address.Basic
import BatteryBench.Proofs.Json.Forms

/-!
# Reports in JSON

What a unit reports and what a scan finds are records without defaults: texts, an integer of 16 or 8
bits, or an address. Each of them is read field by field, so all of them survive in JSON
(`records_survive_json`), whatever the texts hold and whichever version the address has.
-/

namespace BatteryBench

open Json

/-! ### Values of fields -/

theorem isWritable_ofText (t : Text) : (ofText t).isWritable := rfl

theorem isWritable_ofInt (n : Int) : (ofInt n).isWritable := rfl

/-- The integers that a field may have are those of its width. -/
theorem accepts_integer_iff {w : Width} {n : Int} :
    (FieldKind.integer w).Accepts (.ofInt n) ↔ n ∈ w.range := by
  constructor
  · intro h
    generalize hv : ofInt n = v at h
    cases h with
    | @integer w m hm =>
      have hread := JsonNumber.toInt?_ofInt n
      rw [Json.number.inj hv, JsonNumber.toInt?_ofInt] at hread
      exact Option.some.inj hread ▸ hm
  · exact .integer

/-! ### The records -/

/-- The identity of a unit is three texts. -/
theorem survives_identity :
    Survives Identity [("part_number", .text), ("serial", .text), ("version", .text)] :=
  StoredAs.survives {
    nodup := by decide
    ofJson?_eq := fun _ ↦ rfl
    readsForm := .text fun _ ↦ .text fun _ ↦ .text fun _ ↦ .nil _
    toJson_eq := fun d ↦ ⟨[.ofText d.partNumber, .ofText d.serial, .ofText d.version], rfl, rfl, rfl,
      by simp [isWritable_ofText]⟩ }

theorem survives_ethernetSettings :
    Survives EthernetSettings [("ip", .text), ("netmask", .text)] :=
  StoredAs.survives {
    nodup := by decide
    ofJson?_eq := fun _ ↦ rfl
    readsForm := .text fun _ ↦ .text fun _ ↦ .nil _
    toJson_eq := fun s ↦ ⟨[.ofText s.ip, .ofText s.netmask], rfl, rfl, rfl,
      by simp [isWritable_ofText]⟩ }

theorem survives_loadedModel :
    Survives LoadedModel [("name", .text), ("version", .text)] :=
  StoredAs.survives {
    nodup := by decide
    ofJson?_eq := fun _ ↦ rfl
    readsForm := .text fun _ ↦ .text fun _ ↦ .nil _
    toJson_eq := fun m ↦ ⟨[.ofText m.name, .ofText m.version], rfl, rfl, rfl,
      by simp [isWritable_ofText]⟩ }

/-- The code of an error has 16 bits and a sign. -/
theorem survives_errorEntry :
    Survives ErrorEntry [("code", .integer .int16), ("message", .text)] := by
  have hread (e : ErrorEntry) : toInteger? .int16 (.ofInt e.code.toInt) = some e.code.toInt :=
    toInteger?_ofInt (Width.contains_iff_mem_range.mpr (toInt_mem_range e.code).2)
  exact StoredAs.survives {
    nodup := by decide
    ofJson?_eq := fun _ ↦ rfl
    readsForm := .integer fun _ ↦ .text fun _ ↦ .nil _
    toJson_eq := fun e ↦ ⟨[.ofInt e.code.toInt, .ofText e.message], rfl, rfl, by
        show (toInteger? .int16 (.ofInt e.code.toInt)).bind _ = _
        rw [hread]
        exact congrArg some (congrArg (ErrorEntry.mk · e.message) (Int16.ofInt_toInt e.code)),
      by simp [isWritable_ofText, isWritable_ofInt]⟩ }

/-- The number of a unit on a bus has 8 bits. -/
theorem survives_unitOnBus :
    Survives UnitOnBus [("id", .integer .uint8), ("serial", .text)] := by
  have hread (d : UnitOnBus) : toInteger? .uint8 (.ofInt d.id.toNat) = some (d.id.toNat : Int) :=
    toInteger?_ofInt (Width.unsigned_contains_iff.mpr
      ⟨Int.natCast_nonneg _, by exact_mod_cast d.id.toNat_lt⟩)
  exact StoredAs.survives {
    nodup := by decide
    ofJson?_eq := fun _ ↦ rfl
    readsForm := .integer fun _ ↦ .text fun _ ↦ .nil _
    toJson_eq := fun d ↦ ⟨[.ofInt d.id.toNat, .ofText d.serial], rfl, rfl, by
        show (toInteger? .uint8 (.ofInt d.id.toNat)).bind _ = _
        rw [hread]
        exact congrArg some (congrArg (UnitOnBus.mk · d.serial) UInt8.ofNat_toNat),
      by simp [isWritable_ofText, isWritable_ofInt]⟩ }

/-- The address of a unit on a network is written as its text. -/
theorem survives_unitOnNetwork :
    Survives UnitOnNetwork [("ip", .address), ("serial", .text)] :=
  StoredAs.survives {
    nodup := by decide
    ofJson?_eq := fun _ ↦ rfl
    readsForm := .address fun _ ↦ .text fun _ ↦ .nil _
    toJson_eq := fun d ↦ ⟨[.ofText d.ip.text, .ofText d.serial], rfl, rfl, by
        show (readAddress? d.ip.text).bind _ = _
        rw [readAddress?_text]
        rfl,
      by simp [isWritable_ofText]⟩ }

/-- **Reports survive in JSON.** Each of the six records is read back from the object that it is
written as. An object is read as the list of its field values, whatever the order of its members and
whatever other members it has. A field that is missing or given twice, a list that is too short or
too long, and a value that a field may not have make the reading fail, and an integer is one that a
field may have exactly if it is in the range. -/
theorem records_survive_json :
    Survives Identity [("part_number", .text), ("serial", .text), ("version", .text)] ∧
    Survives EthernetSettings [("ip", .text), ("netmask", .text)] ∧
    Survives ErrorEntry [("code", .integer .int16), ("message", .text)] ∧
    Survives LoadedModel [("name", .text), ("version", .text)] ∧
    Survives UnitOnBus [("id", .integer .uint8), ("serial", .text)] ∧
    Survives UnitOnNetwork [("ip", .address), ("serial", .text)] ∧
    ∀ (w : Width) (n : Int), (FieldKind.integer w).Accepts (.ofInt n) ↔ n ∈ w.range :=
  ⟨survives_identity, survives_ethernetSettings, survives_errorEntry, survives_loadedModel,
    survives_unitOnBus, survives_unitOnNetwork, fun _ _ ↦ accepts_integer_iff⟩

/-- An error whose members are turned around, with a note among them, is read as the list of code
and message is. The code 32768 does not fit. -/
theorem records_survive_json_turned :
    let vs : List Json := [.ofInt (-410), .ofText "say \"it's\""]
    let members : List (Option Text × Json) := [(some "message", .ofText "say \"it's\""),
      (some "note", .null), (some "code", .ofInt (-410))]
    Stored.ofText? ErrorEntry (Json.text (.array vs)) = some ⟨-410, "say \"it's\""⟩ ∧
    Stored.ofText? ErrorEntry (Json.text (.object members)) = some ⟨-410, "say \"it's\""⟩ ∧
    Stored.ofText? ErrorEntry (Json.text (.array [.ofInt 32768, .ofText []])) = none := by
  intro vs members
  obtain ⟨-, -, hentry, -, -, -, haccepts⟩ := records_survive_json
  have hlist : Json.ofText? (Json.text (.array vs)) = some (.array vs) := Json.ofText?_text rfl
  have hobject : Json.ofText? (Json.text (.object members)) = some (.object members) :=
    Json.ofText?_text rfl
  have hread : Stored.ofText? ErrorEntry (Json.text (.array vs)) =
      some ⟨-410, "say \"it's\""⟩ := by
    rw [Stored.ofText?, hlist]
    rfl
  have hturned : members.Perm
      ((["code".toList, "message"].zip vs ++ [("note".toList, Json.null)]).map fun m ↦
        (some m.1, m.2)) :=
    List.perm_append_singleton (some "code".toList, _) (members.take 2)
  refine ⟨hread, ?_, ?_⟩
  · exact (hentry.moved vs _ members _ _ rfl (by decide) hturned hobject hlist).trans hread
  · have hlarge : (32768 : Int) ∉ Width.int16.range := fun h ↦
      absurd (Width.contains_iff_mem_range.mpr h) (by decide)
    have hrefused := (hentry.refused ("code", .integer .int16) (.ofInt 32768)
      fun h ↦ hlarge ((haccepts _ _).mp h)).2
    exact hrefused _ _ List.mem_cons_self (Json.ofText?_text rfl)

end BatteryBench
