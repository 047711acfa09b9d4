import BatteryBench.Link.Datagram
import BatteryBench.Link.Serial
import BatteryBench.Link.Tcp
import BatteryBench.Link.Transport

/-!
# Links of any transport

A link is one of the four, and is used without knowing which. `LinkStep` is everything that can
happen to a link from either end, and `Link.step` what follows from it; whatever a link does over
time is a run of steps.

Opening keeps the order of checks of each transport: a serial port that is open is not even looked
for, while the others look at the texts of the addresses first.
-/

namespace BatteryBench

/-- A link of any transport. -/
inductive Link where
  /-- Over TCP. -/
  | tcp (l : TcpLink)
  /-- Over UDP. -/
  | udp (l : UdpLink)
  /-- To the group of all units. -/
  | multicast (l : MulticastLink)
  /-- Over a serial port. -/
  | serial (l : SerialLink)
  deriving DecidableEq

namespace Link

/-- A closed link of a transport. -/
def closed : Transport → Link
  | .tcp => tcp {}
  | .udp => udp {}
  | .multicast => multicast {}
  | .serial => serial {}

/-- The transport of a link. -/
def transport : Link → Transport
  | tcp _ => .tcp
  | udp _ => .udp
  | multicast _ => .multicast
  | serial _ => .serial

/-- Whether a link is open. -/
def isOpen : Link → Bool
  | tcp l => l.isOpen
  | udp l => l.isOpen
  | multicast l => l.isOpen
  | serial l => l.isOpen

/-- The interface that a link over datagrams is bound to. -/
def localAddress : Link → Outcome IPv4
  | udp l => l.localAddress
  | multicast l => l.localAddress
  | tcp _ | serial _ => .error .notConnected

/-! ### The host's end -/

/-- Opens a link at an address or a port. Only UDP takes an interface besides, and only TCP gives up
after a time. -/
def connect (net : Network) (interface : Option Text) (address : Text) (l : Link)
    (limit : UInt64 := defaultConnectTimeout) : Outcome Unit × Link :=
  match l with
  | tcp l => (l.connect net address limit).map id tcp
  | udp l => (l.connect net interface address).map id udp
  | multicast l => (l.connect net address).map id multicast
  | serial l => (l.connect net address).map id serial

/-- Closes a link. -/
def close : Link → Link
  | tcp l => tcp l.close
  | udp l => udp l.close
  | multicast l => multicast l.close
  | serial l => serial l.close

/-- Sends a payload. -/
def write (p : Payload) : Link → Outcome Unit × Link
  | tcp l => (l.write p).map id tcp
  | udp l => (l.write p).map id udp
  | multicast l => (l.write p).map id multicast
  | serial l => (l.write p).map id serial

/-- Reads the next line or datagram. -/
def readLine : Link → Outcome Text × Link
  | tcp l => l.readLine.map id tcp
  | udp l => l.readLine.map id udp
  | multicast l => l.readLine.map id multicast
  | serial l => l.readLine.map id serial

/-- Reads the next datagram and where it came from; only a multicast link can tell. -/
def readFrom : Link → Outcome AttributedLine × Link
  | multicast l => l.readFrom.map id multicast
  | l => (.error .receiveNotAllowed, l)

/-- The number of the addressed unit. -/
def deviceId : Link → UInt32
  | serial l => l.id
  | tcp _ | udp _ | multicast _ => 0

/-- Whether replies cannot be attributed to one unit. -/
def sendOnly : Link → Bool
  | serial l => l.sendOnly
  | multicast _ => true
  | tcp _ | udp _ => false

/-- Addresses another unit on a bus. -/
def selectDevice (id : UInt32) : Link → Link
  | serial l => serial (l.selectDevice id)
  | l => l

instance : Driver Link where
  sendOnly := sendOnly
  deviceId := deviceId
  selectDevice := selectDevice
  send t _ l := l.write (.ofBytes (Utf8.encode t))
  readLine _ l := l.readLine

/-! ### The unit's end -/

/-- The unit sends bytes from its address; the result says whether they were delivered. -/
def unitSend (source : IPv4) (bytes : Bytes) : Link → Bool × Link
  | tcp l => (l.unitSend bytes).map id tcp
  | udp l => (l.unitSend ⟨source, bytes⟩).map id udp
  | multicast l => (l.unitSend ⟨source, bytes⟩).map id multicast
  | serial l => (l.unitSend bytes).map id serial

/-- The unit takes the next line or datagram that reached it. -/
def unitReceive : Link → Option Bytes × Link
  | tcp l => l.unitReceive.map id tcp
  | udp l => l.unitReceive.map id udp
  | multicast l => l.unitReceive.map id multicast
  | serial l => l.unitReceive.map id serial

/-- The unit sends no more. A bus breaks by that; datagrams know no end. -/
def unitFinish : Link → Link
  | tcp l => tcp l.unitFinish
  | serial l => serial l.unitReset
  | l => l

/-- The unit breaks the link; datagrams know no such thing. -/
def unitReset : Link → Link
  | tcp l => tcp l.unitReset
  | serial l => serial l.unitReset
  | l => l

/-- The link when its host's end is given up and made anew: closed, with no unit addressed, and with
the unit's end as it was. -/
def renew (l : Link) : Link := (l.selectDevice 0).close

end Link

/-! ### Steps -/

/-- Something that happens to a link, from either end. -/
inductive LinkStep where
  /-- The host opens the link, within a time limit in milliseconds. -/
  | connect (interface : Option Text) (address : Text) (limit : UInt64 := defaultConnectTimeout)
  /-- The host closes the link. -/
  | close
  /-- The host asks whether the link is open. -/
  | isOpen
  /-- The host asks for the interface of the link. -/
  | localAddress
  /-- The host sends. -/
  | write (p : Payload)
  /-- The host reads. -/
  | read
  /-- The host reads and asks for the source. -/
  | readFrom
  /-- The host addresses another unit. -/
  | selectDevice (id : UInt32)
  /-- The host asks which unit is addressed. -/
  | device
  /-- The unit sends. -/
  | unitSend (source : IPv4) (p : Payload)
  /-- The unit takes what reached it. -/
  | unitReceive
  /-- The unit sends no more. -/
  | unitFinish
  /-- The unit breaks the link. -/
  | unitReset

/-- What a step shows. -/
inductive LinkAnswer where
  /-- Nothing. -/
  | nothing
  /-- Whether the host succeeded. -/
  | outcome (r : Outcome Unit)
  /-- A truth value. -/
  | flag (b : Bool)
  /-- An address. -/
  | address (r : Outcome IPv4)
  /-- A line. -/
  | line (r : Outcome Text)
  /-- A line with its source. -/
  | addressed (r : Outcome AttributedLine)
  /-- The addressed unit, and whether the link is send-only. -/
  | device (id : UInt32) (sendOnly : Bool)
  /-- What the unit took, if anything had reached it. -/
  | received (text : Option Text)
  deriving DecidableEq

/-- What a step shows, and the link after it. -/
def Link.step (net : Network) (l : Link) : LinkStep → LinkAnswer × Link
  | .connect interface address limit =>
    (l.connect net interface address limit).map .outcome id
  | .close => (.nothing, l.close)
  | .isOpen => (.flag l.isOpen, l)
  | .localAddress => (.address l.localAddress, l)
  | .write p => (l.write p).map .outcome id
  | .read => l.readLine.map .line id
  | .readFrom => l.readFrom.map .addressed id
  | .selectDevice id => (.nothing, l.selectDevice id)
  | .device => (.device l.deviceId l.sendOnly, l)
  | .unitSend source p => (l.unitSend source p.bytes).map .flag id
  | .unitReceive => (.received (l.unitReceive.1.map Utf8.decode), l.unitReceive.2)
  | .unitFinish => (.nothing, l.unitFinish)
  | .unitReset => (.nothing, l.unitReset)

/-- What a run of steps shows, and the link after it. -/
def Link.steps (net : Network) : Link → List LinkStep → List LinkAnswer × Link
  | l, [] => ([], l)
  | l, s :: rest =>
    let (answer, l) := l.step net s
    let (answers, l) := Link.steps net l rest
    (answer :: answers, l)

end BatteryBench
