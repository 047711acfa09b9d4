import BatteryBench.Cell
import BatteryBench.Discovery.Found
import BatteryBench.Json.Reader
import BatteryBench.Json.Record
import BatteryBench.Report

/-!
# Reports and states as JSON

The JSON forms of what a unit reports, of the units a scan finds, of the cell states and of the
failures. An address is read from the text of an address of either version and written as its
canonical text.
-/

namespace BatteryBench

open Json in
instance : Stored Identity where
  toJson d := .ofMembers
    [("part_number", .ofText d.partNumber), ("serial", .ofText d.serial),
      ("version", .ofText d.version)]
  ofJson? v := do
    let fields ← fieldsOf? ["part_number", "serial", "version"] v
    return ⟨← textField? fields "part_number", ← textField? fields "serial",
      ← textField? fields "version"⟩

open Json in
instance : Stored EthernetSettings where
  toJson s := .ofMembers [("ip", .ofText s.ip), ("netmask", .ofText s.netmask)]
  ofJson? v := do
    let fields ← fieldsOf? ["ip", "netmask"] v
    return ⟨← textField? fields "ip", ← textField? fields "netmask"⟩

open Json in
instance : Stored ErrorEntry where
  toJson e := .ofMembers [("code", .ofInt e.code.toInt), ("message", .ofText e.message)]
  ofJson? v := do
    let fields ← fieldsOf? ["code", "message"] v
    return ⟨Int16.ofInt (← integerField? fields "code" .int16), ← textField? fields "message"⟩

open Json in
instance : Stored LoadedModel where
  toJson m := .ofMembers [("name", .ofText m.name), ("version", .ofText m.version)]
  ofJson? v := do
    let fields ← fieldsOf? ["name", "version"] v
    return ⟨← textField? fields "name", ← textField? fields "version"⟩

open Json in
instance : Stored UnitOnBus where
  toJson d := .ofMembers [("id", .ofInt d.id.toNat), ("serial", .ofText d.serial)]
  ofJson? v := do
    let fields ← fieldsOf? ["id", "serial"] v
    return ⟨UInt8.ofNat (← integerField? fields "id" .uint8).toNat, ← textField? fields "serial"⟩

open Json in
instance : Stored UnitOnNetwork where
  toJson d := .ofMembers [("ip", .ofText d.ip.text), ("serial", .ofText d.serial)]
  ofJson? v := do
    let fields ← fieldsOf? ["ip", "serial"] v
    return ⟨← readAddress? (← textField? fields "ip"), ← textField? fields "serial"⟩

instance {α : Type} [Keyword α] : Stored α where
  toJson v := .ofText (Keyword.name v)
  ofJson? v := v.enumName?.bind (keywordOfName? α)

instance : Stored Failure where
  toJson f := .ofText f.name
  ofJson? v := v.enumName?.bind Failure.ofName?

/-- Reads the text of a value. -/
def Stored.ofText? (α : Type) [Stored α] (t : Text) : Option α :=
  (Json.ofText? t).bind Stored.ofJson?

end BatteryBench
