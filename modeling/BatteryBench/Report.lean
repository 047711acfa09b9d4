import BatteryBench.Failure

/-!
# What a unit reports about itself

The records a unit answers with: its identity, its network settings, an entry of its error queue and
the model loaded on it. The two records of a scan, which pair a serial number with the place it was
found at, are in `BatteryBench.Discovery`.
-/

namespace BatteryBench

/-- The identity of a unit; the manufacturer's name that a unit puts first is not kept. -/
structure Identity where
  /-- The type of the unit. -/
  partNumber : Text
  /-- Its serial number. -/
  serial : Text
  /-- The version of its firmware. -/
  version : Text
  deriving DecidableEq, Repr

/-- The network settings a unit keeps, as it writes them. -/
structure EthernetSettings where
  /-- The address. -/
  ip : Text
  /-- The network mask. -/
  netmask : Text
  deriving DecidableEq, Repr

/-- An entry of a unit's error queue. -/
structure ErrorEntry where
  /-- The number of the error. -/
  code : Int16
  /-- Its wording. -/
  message : Text
  deriving DecidableEq, Repr

/-- Whether an entry says that the queue is empty. -/
def ErrorEntry.isNoError (e : ErrorEntry) : Bool := e.code == 0

/-- The model loaded on a unit. -/
structure LoadedModel where
  /-- Its name. -/
  name : Text
  /-- Its version. -/
  version : Text
  deriving DecidableEq, Repr

/-! ### Alarm bits -/

namespace Alarm

/-- The alarms a host may clear. -/
def recoverable : UInt32 := 0x0000ff
/-- The alarms that switch some cells off. -/
def critical : UInt32 := 0x00ff00
/-- The alarms that switch every cell off. -/
def fatal : UInt32 := 0xff0000
/-- The interlock that a host raises. -/
def softInterlock : UInt32 := 0x000001
/-- The fan of cells 1 and 2 failed. -/
def fan0 : UInt32 := 0x000100
/-- The fan of cells 3 and 4 failed. -/
def fan1 : UInt32 := 0x000200
/-- The fan of cells 5 and 6 failed. -/
def fan2 : UInt32 := 0x000400
/-- The fan of cells 7 and 8 failed. -/
def fan3 : UInt32 := 0x000800
/-- The fan of the chassis failed. -/
def fan4 : UInt32 := 0x010000
/-- The hardware failed. -/
def hardware : UInt32 := 0x020000

end Alarm

end BatteryBench
