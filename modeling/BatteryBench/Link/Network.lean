import BatteryBench.Address.IPv4
import BatteryBench.Encoding.Utf8

/-!
# What a host can reach

A link is opened on a host, and whether that succeeds depends on the host and its surroundings. A
`Network` is all that a link asks of them: whether the host can run links at all, what it allows to
be done to sockets, where an address leads and how long it takes to answer, which serial ports there
are and which of them can be set up, and how many bytes a stream takes while nobody reads them.

A socket is made ready call by call, and the first call that the host refuses decides why it cannot
be (`Network.prepare_eq_error_iff`).

Two surroundings are given as values. On a `bench` the unit is attached and answers; an `isolated`
host can make sockets but nothing leaves it.

A transmission may be far larger than any buffer, so it is held as a `Payload`, pieces and how often
each is repeated. Its size is known without writing it out.
-/

namespace BatteryBench

/-! ### Payloads -/

/-- Bytes to send, as pieces that are each repeated some number of times. -/
abbrev Payload := List (Bytes × Nat)

namespace Payload

/-- The payload of given bytes. -/
def ofBytes (bytes : Bytes) : Payload := [(bytes, 1)]

/-- The number of bytes. -/
def size : Payload → Nat
  | [] => 0
  | piece :: p => piece.1.length * piece.2 + size p

/-- The bytes, written out. -/
def bytes (p : Payload) : Bytes := p.flatMap fun piece ↦ (List.replicate piece.2 piece.1).flatten

theorem bytes_ofBytes (bytes : Bytes) : (ofBytes bytes).bytes = bytes := by
  simp [ofBytes, Payload.bytes]

theorem length_bytes (p : Payload) : p.bytes.length = p.size := by
  induction p with
  | nil => rfl
  | cons piece p ih =>
    have : (List.replicate piece.2 piece.1).flatten.length = piece.1.length * piece.2 := by
      rw [List.length_flatten, List.map_replicate, List.sum_replicate_nat, Nat.mul_comm]
    simp only [Payload.bytes] at ih
    simp [Payload.bytes, size, ih, this]

end Payload

/-! ### Surroundings -/

/-- Where an address leads. -/
inductive Route where
  /-- To the unit. -/
  | unit
  /-- To a host that turns connections away. -/
  | refusing
  /-- To a host that never answers. -/
  | silent
  /-- Nowhere: nothing leaves for it. -/
  | unreachable
  deriving DecidableEq, Repr

/-- Something that is done to make a socket ready. -/
inductive SocketCall where
  /-- It is created. -/
  | create
  /-- Room is made for what arrives. -/
  | enlarge
  /-- It is bound to an interface. -/
  | bind
  /-- What is sent to a group leaves through the interface. -/
  | route
  /-- It joins the group of all units on the interface. -/
  | join
  /-- Its calls return at once. -/
  | unblock
  /-- It is handed to what drives reads and writes. -/
  | register
  deriving DecidableEq, Repr

/-- Why a socket cannot be made ready, if the host refuses a call. -/
def SocketCall.failure : SocketCall → Failure
  | bind => .failedToBindSocket
  | join => .failedToJoinGroup
  | create | enlarge | route | unblock | register => .socketError

/-- What links find on a host. -/
structure Network where
  /-- Whether the host can run links: each brings along what drives its reads and writes. -/
  drives : Bool
  /-- Whether a call succeeds on a socket for an interface. -/
  allows : SocketCall → IPv4 → Bool
  /-- Where an address leads. -/
  route : IPv4 → Route
  /-- How long it takes until a connection attempt to an address is answered, in milliseconds. -/
  delay : IPv4 → Nat
  /-- Whether there is a serial port of a name, with units behind it. -/
  serialPort : Text → Bool
  /-- Whether a serial port takes the settings of its lines. -/
  configures : Text → Bool
  /-- How many bytes a connection takes while the unit reads none of them. -/
  connectionRoom : Nat
  /-- How many bytes a serial port takes while no unit reads them. -/
  serialRoom : Nat

/-- The group that every unit listens to. -/
def multicastGroup : IPv4 := ⟨239, 188, 26, 181⟩

namespace Network

/-- Makes a socket for an interface ready by some calls, as far as the host allows them. -/
def prepare (net : Network) (host : IPv4) : List SocketCall → Outcome Unit
  | [] => .ok ()
  | call :: calls => if net.allows call host then net.prepare host calls else .error call.failure

/-- Whether an interface carries multicast. -/
def multicasts (net : Network) (host : IPv4) : Bool := net.allows .route host

/-- Where an address leads for a connection attempt that is given up after some milliseconds: to a
host that never answers, if it does not answer in time. -/
def routeWithin (net : Network) (limit : UInt64) (ip : IPv4) : Route :=
  if net.route ip = .unreachable ∨ net.delay ip < limit.toNat then net.route ip else .silent

/-- A host with one unit at an address and behind a port; every other address belongs to a host that
turns connections away. While the unit reads nothing, a connection takes less than 32 MiB and the
port less than 1 MiB. -/
def bench (unit : IPv4) (port : Text) : Network where
  drives := true
  allows _ _ := true
  route ip := if ip = unit ∨ ip = multicastGroup then .unit else .refusing
  delay _ := 0
  serialPort name := name == port
  configures _ := true
  connectionRoom := 33554431
  serialRoom := 1048575

/-- A host that nothing leaves, apart from a serial port with units behind it. Sockets can be bound,
but no address can be reached and no interface carries multicast. -/
def isolated (port : Text) : Network where
  drives := true
  allows call _ := call != .route
  route _ := .unreachable
  delay _ := 0
  serialPort name := name == port
  configures _ := true
  connectionRoom := 33554431
  serialRoom := 1048575

/-- The first call that the host refuses says why a socket cannot be made ready. -/
theorem prepare_eq_error_iff {net : Network} {host : IPv4} {calls : List SocketCall} {e : Failure} :
    net.prepare host calls = .error e ↔
      ∃ call, calls.find? (fun c ↦ !net.allows c host) = some call ∧ e = call.failure := by
  induction calls with
  | nil => simp [prepare]
  | cons call calls ih =>
    rw [prepare, List.find?_cons]
    cases net.allows call host <;> simp [ih, eq_comm]

end Network

end BatteryBench
