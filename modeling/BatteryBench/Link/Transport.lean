import BatteryBench.Text.Basic

/-!
# Transports

The ways in which a unit can be reached, and the constants they share.
-/

namespace BatteryBench

/-- A way in which a unit can be reached. -/
inductive Transport where
  /-- Datagrams to one unit. -/
  | udp
  /-- A connection to one unit. -/
  | tcp
  /-- A bus on a serial port. -/
  | serial
  /-- Datagrams to the group of all units. -/
  | multicast
  deriving DecidableEq, Repr

/-- The port that units listen on. -/
def unitPort : Nat := 5025

/-- How long a connection attempt may take unless it is set otherwise, in milliseconds. -/
def defaultConnectTimeout : UInt64 := 500

namespace Transport

/-- The name of a transport in stored settings. -/
def name : Transport → Text
  | udp => "udp"
  | tcp => "tcp"
  | serial => "serial"
  | multicast => "udp_multicast"

/-- The transport with a name. -/
def ofName? (t : Text) : Option Transport :=
  [udp, tcp, serial, multicast].find? fun transport ↦ transport.name == t

theorem ofName?_name (t : Transport) : ofName? t.name = some t := by cases t <;> decide

end Transport

end BatteryBench
