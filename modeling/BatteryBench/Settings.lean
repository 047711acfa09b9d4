import BatteryBench.Json.Record
import BatteryBench.Link.Transport

/-!
# Connection settings

How a unit is reached, as plain data that an application can keep among its own settings.

In JSON the settings are an object whose member `transport` names the transport; the other members
depend on it, and that member may stand anywhere among them. They may also be a list: the name of
the transport and then the field values in order. The interface of UDP, the time limit of TCP and
the number on a serial bus may be missing. Only a missing interface may also be written as `null`,
and it is left out when the settings are written.

The members have to be kept until the transport is known. So a member that the transport does not
know is ignored only if its value can be kept as it is (`Json.isPlain`).
-/

namespace BatteryBench

/-- How a unit is reached. -/
inductive Settings where
  /-- By UDP, from a certain interface if one is given. -/
  | udp (target : Text) (interface : Option Text)
  /-- By TCP, with a time limit for connecting in milliseconds. -/
  | tcp (target : Text) (connectTimeout : UInt64)
  /-- Over a bus on a serial port, by the unit's number there. -/
  | serial (port : Text) (deviceId : UInt32)
  /-- All units at once, from a certain interface. -/
  | multicast (interface : Text)
  deriving DecidableEq, Repr

namespace Settings

/-- The transport that the settings are for. -/
def transport : Settings → Transport
  | udp _ _ => .udp
  | tcp _ _ => .tcp
  | serial _ _ => .serial
  | multicast _ => .multicast

/-! ### Writing -/

/-- The name of the member that names the transport. -/
def tag : Text := "transport"

/-- The members other than the one that names the transport. -/
def members : Settings → List (Text × Json)
  | udp target none => [("target_ip", .ofText target)]
  | udp target (some interface) =>
    [("target_ip", .ofText target), ("interface_ip", .ofText interface)]
  | tcp target connectTimeout =>
    [("target_ip", .ofText target), ("connect_timeout_ms", .ofInt connectTimeout.toNat)]
  | serial port deviceId => [("port", .ofText port), ("device_id", .ofInt deviceId.toNat)]
  | multicast interface => [("interface_ip", .ofText interface)]

/-- The settings as JSON. -/
def toJson (s : Settings) : Json := .ofMembers ((tag, .ofText s.transport.name) :: s.members)

/-! ### Reading -/

/-- The names of the fields of a transport, in order. -/
def fieldNames : Transport → List Text
  | .udp => ["target_ip", "interface_ip"]
  | .tcp => ["target_ip", "connect_timeout_ms"]
  | .serial => ["port", "device_id"]
  | .multicast => ["interface_ip"]

/-- A text, or `null` for none. -/
def optionalText? : Json → Option (Option Text)
  | .null => some none
  | v => v.toText?.map some

/-- The settings for a transport, from the values of its fields. -/
def ofFields? (fields : List (Text × Json)) : Transport → Option Settings
  | .udp =>
    match Json.textField? fields "target_ip",
      Json.field? fields "interface_ip" (some none) optionalText? with
    | some target, some interface => some (udp target interface)
    | _, _ => none
  | .tcp =>
    match Json.textField? fields "target_ip",
      Json.field? fields "connect_timeout_ms" (some (defaultConnectTimeout.toNat : Int))
        (Json.toInteger? .uint64) with
    | some target, some ms => some (tcp target (UInt64.ofNat ms.toNat))
    | _, _ => none
  | .serial =>
    match Json.textField? fields "port",
      Json.field? fields "device_id" (some 0) (Json.toInteger? .uint32) with
    | some port, some id => some (serial port (UInt32.ofNat id.toNat))
    | _, _ => none
  | .multicast => (Json.textField? fields "interface_ip").map multicast

/-- How many lists and objects may stand around each other inside a member. -/
def maxDepth : Nat := 126

/-- The settings that an object's members are. -/
def ofObject? (members : List (Text × Json)) : Option Settings :=
  let rest := members.filter fun m ↦ m.1 != tag
  if rest.all fun m ↦ m.2.isPlain maxDepth then
    match Json.textField? members tag with
    | some name => (Transport.ofName? name).bind (ofFields? rest)
    | none => none
  else none

/-- The settings that a JSON value is. -/
def ofJson? : Json → Option Settings
  | .object members => (Json.namedMembers? members).bind ofObject?
  | .array (name :: vs) =>
    match name.toText?.bind Transport.ofName? with
    | some t => (Json.fieldsOf? (fieldNames t) (.array vs)).bind fun fields ↦ ofFields? fields t
    | none => none
  | _ => none

instance : Stored Settings where
  toJson := toJson
  ofJson? := ofJson?

end Settings

end BatteryBench
