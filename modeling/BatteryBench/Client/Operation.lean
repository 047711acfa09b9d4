import BatteryBench.Address.IPv4
import BatteryBench.Client.Request

/-!
# Operations of a client

Everything a client can be asked to do, with its arguments, as one type. `Operation.Result` is what
an operation gives when it succeeds and `Operation.request` is what it comes down to, so a law about
all operations is a law about all values of `Operation`.

Besides the channels of a unit there is the unit itself: its identity, its network settings, its
error queue, its alarms, the precision that all cells share, and the model it runs.
-/

namespace BatteryBench

/-- Something a client can be asked to do. -/
inductive Operation where
  /-- Sets one channel. -/
  | set (s : Setting) (index : Nat) (v : s.Value)
  /-- Sets every channel to one value. -/
  | setAll (s : Setting) (v : s.Value)
  /-- Sets the channels of a mask to one value. -/
  | setMasked (s : Setting) (mask : UInt32) (v : s.Value)
  /-- Sets the channels from the first on, each to its value. -/
  | setEach (s : Setting) (vs : List s.Value)
  /-- Sets every digital output by the bits of a mask. -/
  | setDigitalLevels (levels : UInt32)
  /-- Asks for one channel. -/
  | get (q : Quantity) (index : Nat)
  /-- Asks for every channel. -/
  | getAll (q : Quantity)
  /-- Asks for every channel and packs the flags into a mask. -/
  | getMask (f : FlagQuantity)
  /-- Asks for as many channels as the buffer has slots. -/
  | getInto (q : Quantity) (buffer : List q.Value)
  /-- Sets the precision of all measurements. -/
  | setPrecision (p : Precision)
  /-- Asks for the precision of all measurements. -/
  | getPrecision
  /-- Asks for the identity. -/
  | getIdentity
  /-- Asks for the number the unit answers to on a bus. -/
  | getBusNumber
  /-- Asks for the network settings. -/
  | getEthernet
  /-- Stores new network settings, which hold from the next start on. -/
  | setEthernet (settings : EthernetSettings)
  /-- Asks for the date of the last calibration. -/
  | getCalibrationDate
  /-- Asks for the length of the error queue. -/
  | getErrorCount
  /-- Takes the oldest entry from the error queue. -/
  | takeError
  /-- Empties the error queue. -/
  | clearErrors
  /-- Asks for the active alarms. -/
  | getAlarms
  /-- Clears the alarms a host may clear. -/
  | clearAlarms
  /-- Raises the interlock, which switches every cell off. -/
  | raiseInterlock
  /-- Starts the unit anew. -/
  | restart
  /-- Asks for the state of the model. -/
  | getModelStatus
  /-- Loads the model. -/
  | loadModel
  /-- Starts the model. -/
  | startModel
  /-- Stops the model. -/
  | stopModel
  /-- Unloads the model. -/
  | unloadModel
  /-- Asks for the name and the version of the model. -/
  | getModel
  /-- Asks for the identity of the model. -/
  | getModelId

namespace Operation

/-- What an operation gives when it succeeds. -/
abbrev Result : Operation → Type
  | get q _ => q.Value
  | getAll q => List q.Value
  | getMask _ => UInt32
  | getInto q _ => List q.Value
  | getPrecision => Precision
  | getIdentity => Identity
  | getBusNumber => UInt8
  | getEthernet => EthernetSettings
  | getCalibrationDate => Text
  | getErrorCount => Int32
  | takeError => ErrorEntry
  | getAlarms => UInt32
  | getModelStatus => UInt8
  | getModel => LoadedModel
  | getModelId => Text
  | _ => Unit

/-- A command without arguments. -/
def plain (command : Text) : Request Unit := .command (command ++ lineEnd) ()

/-- A query without arguments. -/
def ask {α : Type} (query : Text) (parse : Text → Outcome α) : Request α :=
  .query (query ++ lineEnd) parse

/-- The command that stores network settings. Both addresses have to be valid, and what is sent is
their canonical text. -/
def storeEthernet (settings : EthernetSettings) : Request Unit :=
  match IPv4.parse settings.ip, IPv4.parse settings.netmask with
  | .ok ip, .ok netmask =>
    plain ("SYST:NET:ADDR " ++ quote ip.text ++ "," ++ quote netmask.text)
  | .error e, _ => .refused e
  | .ok _, .error e => .refused e

/-- What an operation comes down to. -/
def request : (op : Operation) → Request op.Result
  | set s index v => s.set index v
  | setAll s v => s.setAll v
  | setMasked s mask v => s.setMasked mask v
  | setEach s vs => s.setEach vs
  | setDigitalLevels levels => BatteryBench.setDigitalLevels levels
  | get q index => q.get index
  | getAll q => q.getAll
  | getMask f => f.getMask
  | getInto q buffer => q.getInto buffer
  | setPrecision p => plain ("CONF:MEAS:MODE " ++ p.command)
  | getPrecision => ask "CONF:MEAS:MODE?" (parseKeyword Precision)
  | getIdentity => ask "*IDN?" Reply.identity
  | getBusNumber => ask "CONF:COMM:SER:ID?" Reply.uint8
  | getEthernet => ask "SYST:NET:ADDR?" Reply.ethernet
  | setEthernet settings => storeEthernet settings
  | getCalibrationDate => ask "CAL:DATE?" Reply.text
  | getErrorCount => ask "SYST:ERR:COUN?" Reply.int32
  | takeError => ask "SYST:ERR?" Reply.errorEntry
  | clearErrors => plain "*CLS"
  | getAlarms => ask "ALAR?" Reply.uint32
  | clearAlarms => plain "ALAR:CLE"
  | raiseInterlock => plain "ALAR:RAIS 1"
  | restart => plain "*RST"
  | getModelStatus => ask "MOD:STAT?" Reply.uint8
  | loadModel => plain "MOD:LOAD"
  | startModel => plain "MOD:START"
  | stopModel => plain "MOD:STOP"
  | unloadModel => plain "MOD:UNLOAD"
  | getModel => ask "MOD:INFO?" Reply.model
  | getModelId => ask "MOD:ID?" Reply.text

end Operation

end BatteryBench
