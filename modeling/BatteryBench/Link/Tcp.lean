import BatteryBench.Driver.Basic
import BatteryBench.Link.Stream

/-!
# TCP links

A connection to one unit. It is made by address; the address is looked at first, then whether the
link is open already, and only then the network, which has a limited time to answer. Every
connection starts with nothing read and nothing sent: closing drops what has not been read
(`close`), and connecting clears what the unit has not taken.

The unit's end is part of the model: what it sends, that it finishes or resets the connection, and
the lines it takes.
-/

namespace BatteryBench

/-- A link over TCP, with the unit's end of it. -/
structure TcpLink where
  /-- What reaches the host, while there is a connection. -/
  connection : Option InFlow := none
  /-- What has reached the unit and was not taken there. -/
  received : Bytes := []
  /-- How many bytes the connection takes while the unit reads none of them. -/
  room : Nat := 0
  deriving DecidableEq

namespace TcpLink

/-- Whether there is a connection. -/
def isOpen (l : TcpLink) : Bool := l.connection.isSome

/-- Connects to an address, and gives up after some milliseconds. -/
def connect (net : Network) (address : Text) (limit : UInt64) (l : TcpLink) :
    Outcome Unit × TcpLink :=
  match IPv4.parse address with
  | .error e => (.error e, l)
  | .ok ip =>
    if l.isOpen then (.error .alreadyConnected, l)
    else
      match net.routeWithin limit ip with
      | .unit => (.ok (), { connection := some {}, received := [], room := net.connectionRoom })
      | .silent => (.error .connectionTimedOut, l)
      | .refusing | .unreachable => (.error .connectionFailed, l)

/-- Closes the connection, if there is one. -/
def close (l : TcpLink) : TcpLink := { l with connection := none }

/-- Sends a payload. -/
def write (p : Payload) (l : TcpLink) : Outcome Unit × TcpLink :=
  match l.connection with
  | none => (.error .notConnected, l)
  | some flow =>
    if flow.state = .broken then (.error .sendFailed, l)
    else if l.room < p.size then (.error .sendTimedOut, l)
    else (.ok (), { l with received := l.received ++ p.bytes })

/-- Reads the next line. -/
def readLine (l : TcpLink) : Outcome Text × TcpLink :=
  match l.connection with
  | none => (.error .notConnected, l)
  | some flow =>
    let (line, flow) := flow.readLine
    (line, { l with connection := some flow })

instance : Driver TcpLink where
  sendOnly _ := false
  deviceId _ := 0
  selectDevice _ l := l
  send t _ l := l.write (.ofBytes (Utf8.encode t))
  readLine _ l := l.readLine

/-! ### The unit's end -/

/-- The unit sends bytes; the result says whether they were delivered. -/
def unitSend (bytes : Bytes) (l : TcpLink) : Bool × TcpLink :=
  match l.connection with
  | some flow =>
    if flow.state = .live then (true, { l with connection := some (flow.push bytes) })
    else (false, l)
  | none => (false, l)

/-- The unit takes the next line that reached it. -/
def unitReceive (l : TcpLink) : Option Bytes × TcpLink :=
  match takeLine? l.received with
  | some (line, rest) => (some line, { l with received := rest })
  | none => (none, l)

/-- The stream in another state; a broken one stays broken. -/
def turn (state : StreamState) (flow : InFlow) : InFlow :=
  if flow.state = .broken then flow else { flow with state := state }

/-- The unit finishes sending. -/
def unitFinish (l : TcpLink) : TcpLink :=
  { l with connection := l.connection.map (turn .finished) }

/-- The unit breaks the connection. -/
def unitReset (l : TcpLink) : TcpLink := { l with connection := l.connection.map (turn .broken) }

end TcpLink

end BatteryBench
