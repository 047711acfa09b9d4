import BatteryBench.Driver.Basic
import BatteryBench.Link.Network

/-!
# UDP and multicast links

Over these links every transmission is one datagram and every read takes one datagram whole, line
ends included; nothing is split or joined. What does not fit into one datagram is not sent, and a
read gives the first 8192 bytes of what arrived.

A link over UDP sends to one unit. A multicast link sends to the group that all units listen to, so
it is always send-only; a read there can say where the datagram came from. The two share everything
once the texts of the addresses are read. UDP looks at the interface, which is optional, before the
unit's address. What has to be done to their sockets differs (`Casting.calls`): one for the group
has to join it, through an interface that carries multicast.
-/

namespace BatteryBench

/-- The number of bytes that fit into one datagram. -/
def maxDatagram : Nat := 65507

/-- The number of bytes of a datagram that a read gives. -/
def maxRead : Nat := 8192

/-- A datagram that has arrived. -/
structure Datagram where
  /-- Where it came from. -/
  source : IPv4
  /-- What it holds. -/
  bytes : Bytes
  deriving DecidableEq

/-- The text of a datagram. -/
def Datagram.text (d : Datagram) : Text := Utf8.decode (d.bytes.take maxRead)

/-- Whether a link sends to one unit or to all of them. -/
inductive Casting where
  /-- To one unit. -/
  | unicast
  /-- To the group of all units. -/
  | multicast
  deriving DecidableEq, Repr

/-- A socket that is bound and knows where to send. -/
structure Socket where
  /-- The interface it is bound to. -/
  interface : IPv4
  /-- Where its datagrams lead. -/
  route : Route
  /-- The datagrams that have arrived and were not read. -/
  inbox : List Datagram := []
  deriving DecidableEq

/-- A link that carries datagrams, with the units' end of it. -/
structure DatagramLink (casting : Casting) where
  /-- The socket, while the link is open. -/
  socket : Option Socket := none
  /-- The datagrams that have reached a unit and were not taken there. -/
  received : List Bytes := []
  deriving DecidableEq

/-- A link over UDP. -/
abbrev UdpLink := DatagramLink .unicast

/-- A link to the group of all units. -/
abbrev MulticastLink := DatagramLink .multicast

/-! ### Opening -/

/-- What is done to make a socket ready, in order. Only one for the group needs more than its own
place to send from. -/
def Casting.calls : Casting → List SocketCall
  | .unicast => [.bind, .unblock, .register]
  | .multicast => [.create, .enlarge, .bind, .route, .join, .unblock, .register]

/-- Opens a socket on an interface for datagrams to an address. -/
def DatagramLink.openTo {casting : Casting} (net : Network) (host target : IPv4)
    (l : DatagramLink casting) : Outcome Unit × DatagramLink casting :=
  if l.socket.isSome then (.error .alreadyConnected, l)
  else
    match net.prepare host casting.calls with
    | .error e => (.error e, l)
    | .ok () => (.ok (), { l with socket := some { interface := host, route := net.route target } })

/-- Opens a socket on an interface, any interface if none is given, for datagrams to an address. -/
def UdpLink.connect (net : Network) (interface : Option Text) (address : Text) (l : UdpLink) :
    Outcome Unit × UdpLink :=
  match (interface.map IPv4.parse).getD (.ok .unspecified) with
  | .error e => (.error e, l)
  | .ok host =>
    match IPv4.parse address with
    | .error e => (.error e, l)
    | .ok target => l.openTo net host target

/-- Joins the group on an interface. -/
def MulticastLink.connect (net : Network) (interface : Text) (l : MulticastLink) :
    Outcome Unit × MulticastLink :=
  match IPv4.parse interface with
  | .error e => (.error e, l)
  | .ok host => l.openTo net host multicastGroup

namespace DatagramLink

variable {casting : Casting}

/-- Whether the link is open. -/
def isOpen (l : DatagramLink casting) : Bool := l.socket.isSome

/-- The interface the link is bound to. -/
def localAddress (l : DatagramLink casting) : Outcome IPv4 :=
  match l.socket with
  | some s => .ok s.interface
  | none => .error .notConnected

/-! ### Using -/

/-- Closes the link, if it is open; what has arrived and was not read is lost. -/
def close (l : DatagramLink casting) : DatagramLink casting := { l with socket := none }

/-- Sends a payload as one datagram. -/
def write (p : Payload) (l : DatagramLink casting) : Outcome Unit × DatagramLink casting :=
  match l.socket with
  | none => (.error .notConnected, l)
  | some s =>
    if maxDatagram < p.size then (.error .sendFailed, l)
    else
      match s.route with
      | .unreachable => (.error .sendFailed, l)
      | .unit => (.ok (), { l with received := l.received ++ [p.bytes] })
      | .refusing | .silent => (.ok (), l)

/-- Takes the oldest datagram that was not read. -/
def take (l : DatagramLink casting) : Outcome Datagram × DatagramLink casting :=
  match l.socket with
  | none => (.error .notConnected, l)
  | some s =>
    match s.inbox with
    | d :: rest => (.ok d, { l with socket := some { s with inbox := rest } })
    | [] => (.error .readTimedOut, l)

/-- Reads the oldest datagram that was not read. -/
def readLine (l : DatagramLink casting) : Outcome Text × DatagramLink casting :=
  ((l.take.1).map Datagram.text, l.take.2)

/-- Reads the oldest datagram that was not read, and where it came from. -/
def readFrom (l : DatagramLink casting) : Outcome AttributedLine × DatagramLink casting :=
  ((l.take.1).map fun d ↦ ⟨d.text, .v4 d.source⟩, l.take.2)

/-- The number of datagrams that have arrived and were not read. -/
def backlog (l : DatagramLink casting) : Nat := (l.socket.map fun s ↦ s.inbox.length).getD 0

theorem backlog_take_lt {l : DatagramLink casting} {d : Datagram} (h : l.take.1 = .ok d) :
    l.take.2.backlog < l.backlog := by
  unfold take at h ⊢
  split at h
  · cases h
  · next s hs =>
    split at h
    · next hi => simp [backlog, hs, hi]
    · cases h

instance : Driver (DatagramLink casting) where
  sendOnly _ := decide (casting = .multicast)
  deviceId _ := 0
  selectDevice _ l := l
  send t _ l := l.write (.ofBytes (Utf8.encode t))
  readLine _ l := l.readLine

instance : AttributingDriver MulticastLink where
  backlog := backlog
  readFrom _ l := l.readFrom
  backlog_lt {_ l l' line} h := by
    rw [readFrom, Prod.mk.injEq] at h
    obtain ⟨hline, rfl⟩ := h
    cases htake : l.take.1 with
    | error e => simp [htake, Except.map] at hline
    | ok d => exact backlog_take_lt htake

/-! ### The units' end -/

/-- A unit sends a datagram back; the result says whether it was delivered. -/
def unitSend (d : Datagram) (l : DatagramLink casting) : Bool × DatagramLink casting :=
  match l.socket with
  | some s =>
    if s.route = .unit then
      (true, { l with socket := some { s with inbox := s.inbox ++ [d] } })
    else (false, l)
  | none => (false, l)

/-- The next datagram that reached a unit is taken. -/
def unitReceive (l : DatagramLink casting) : Option Bytes × DatagramLink casting :=
  match l.received with
  | bytes :: rest => (some bytes, { l with received := rest })
  | [] => (none, l)

end DatagramLink

end BatteryBench
