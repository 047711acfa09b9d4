import BatteryBench.Address.Basic

/-!
# Units that a scan found

A scan gives the serial number of every unit that answered, together with what is needed to reach
the unit again: its number on a bus, or its address on a network.
-/

namespace BatteryBench

/-- A unit found on a bus. -/
structure UnitOnBus where
  /-- The number it answers to. -/
  id : UInt8
  /-- Its serial number. -/
  serial : Text
  deriving DecidableEq

/-- A unit found on a network. -/
structure UnitOnNetwork where
  /-- The address its answer came from. -/
  ip : Address
  /-- Its serial number. -/
  serial : Text
  deriving DecidableEq

end BatteryBench
