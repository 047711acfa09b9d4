import BatteryBench.Driver.Basic
import BatteryBench.Link.Stream

/-!
# Serial links

A bus on a serial port that many units share. Every transmission starts with `@`, the number of the
addressed unit and a space, so that only that unit takes it. Numbers from 256 on address every unit
at once; they are stored as 256 (`broadcastId`), and while that number is selected replies cannot be
attributed and the link is send-only.

The bus exists whether or not the port is open: what the units send before it is opened waits there.
What the reader of an open port has taken from it goes when the port is closed, be it the beginning
of a line or whole lines that nobody has read yet; the next reader finds what is left.
-/

namespace BatteryBench

/-- The speed of the bus in bits per second. -/
def baudRate : Nat := 115200

/-- The number that addresses every unit. -/
def broadcastId : UInt32 := 256

/-- What is put in front of a transmission to a unit. -/
def addressMark (id : UInt32) : Text := '@' :: (decimal id.toNat ++ " ")

/-- A link over a serial port, with the units' end of it. -/
structure SerialLink where
  /-- Whether the port is open. -/
  isOpen : Bool := false
  /-- What reaches the host. -/
  flow : InFlow := {}
  /-- What has reached the bus and was not taken there. -/
  received : Bytes := []
  /-- The number of the addressed unit. -/
  id : UInt32 := 0
  /-- How many bytes the port takes while no unit reads them. -/
  room : Nat := 0
  deriving DecidableEq

namespace SerialLink

/-- Opens a port and sets it up. -/
def connect (net : Network) (port : Text) (l : SerialLink) : Outcome Unit × SerialLink :=
  if l.isOpen then (.error .alreadyConnected, l)
  else if !net.serialPort port then (.error .openingSerialPortFailed, l)
  else if !net.configures port then (.error .failedToConfigurePort, l)
  else (.ok (), { l with isOpen := true, flow := l.flow.anew, room := net.serialRoom })

/-- Closes the port, if it is open; its reader goes with it. -/
def close (l : SerialLink) : SerialLink := { l with isOpen := false, flow := l.flow.anew }

/-- The payload with the address of the selected unit in front. -/
def frame (p : Payload) (l : SerialLink) : Payload := (Utf8.encode (addressMark l.id), 1) :: p

/-- Sends a payload to the addressed unit. -/
def write (p : Payload) (l : SerialLink) : Outcome Unit × SerialLink :=
  if !l.isOpen then (.error .notConnected, l)
  else if l.flow.state = .broken then (.error .sendFailed, l)
  else if l.room < (l.frame p).size then (.error .sendTimedOut, l)
  else (.ok (), { l with received := l.received ++ (l.frame p).bytes })

/-- Reads the next line. -/
def readLine (l : SerialLink) : Outcome Text × SerialLink :=
  if !l.isOpen then (.error .notConnected, l)
  else
    let (line, flow) := l.flow.readLine
    (line, { l with flow := flow })

/-- Addresses another unit, or all of them. -/
def selectDevice (id : UInt32) (l : SerialLink) : SerialLink :=
  { l with id := if broadcastId < id then broadcastId else id }

/-- Whether every unit is addressed at once. -/
def sendOnly (l : SerialLink) : Bool := decide (broadcastId ≤ l.id)

instance : Driver SerialLink where
  sendOnly := sendOnly
  deviceId := id
  selectDevice := selectDevice
  send t _ l := l.write (.ofBytes (Utf8.encode t))
  readLine _ l := l.readLine

/-! ### The units' end -/

/-- A unit sends bytes, which wait for the port to be opened; the result says whether the bus took
them. -/
def unitSend (bytes : Bytes) (l : SerialLink) : Bool × SerialLink :=
  if l.flow.state = .broken then (false, l) else (true, { l with flow := l.flow.push bytes })

/-- The next line that reached the bus is taken. -/
def unitReceive (l : SerialLink) : Option Bytes × SerialLink :=
  match takeLine? l.received with
  | some (line, rest) => (some line, { l with received := rest })
  | none => (none, l)

/-- The first lines that reached the bus, at most a given number of them. -/
def framesReceived : (count : Nat) → SerialLink → List Text
  | 0, _ => []
  | count + 1, l =>
    match l.unitReceive with
    | (some line, l) => Utf8.decode line :: framesReceived count l
    | (none, _) => []

/-- The bus breaks. -/
def unitReset (l : SerialLink) : SerialLink :=
  { l with flow := { l.flow with state := .broken } }

end SerialLink

end BatteryBench
