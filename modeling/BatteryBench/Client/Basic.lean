import BatteryBench.Client.Operation
import BatteryBench.Driver.Basic

/-!
# The client

A client is the driver it talks through, if any, and how long it waits for a reply. It keeps nothing
else between operations.

The order of the checks is fixed (`Client.run`). Arguments come first and need no driver; then there
has to be a driver; then a query is refused on a send-only driver; only then is something sent, and
a reply is read only after a successful transmission. A reply that cannot be understood is the
failure of that operation and of no other.
-/

namespace BatteryBench

/-- How long a transmission may take, in milliseconds. -/
def writeTimeout : Nat := 250

/-- How long a reply is waited for unless it is set otherwise, in milliseconds. -/
def defaultReadTimeout : Nat := 150

/-- A client of one unit. -/
structure Client (σ : Type) where
  /-- The driver in use, if any. -/
  driver : Option σ
  /-- How long a reply is waited for, in milliseconds. -/
  readTimeout : Nat := defaultReadTimeout

namespace Client

variable {σ : Type} [Driver σ]

/-- The transmission of a buffer. -/
def transmit (buffer : Text) (c : Client σ) : Outcome Unit × Client σ :=
  match c.driver with
  | none => (.error .invalidDriverHandle, c)
  | some d =>
    let (sent, d) := Driver.send buffer writeTimeout d
    (sent, { c with driver := some d })

/-- The reading of a reply. -/
def receive (c : Client σ) : Outcome Text × Client σ :=
  match c.driver with
  | none => (.error .invalidDriverHandle, c)
  | some d =>
    let (line, d) := Driver.readLine c.readTimeout d
    (line, { c with driver := some d })

/-- The transmission of a query and the reading of its reply. -/
def exchange (buffer : Text) (c : Client σ) : Outcome Text × Client σ :=
  if c.driver.any Driver.sendOnly then (.error .receiveNotAllowed, c)
  else
    match c.transmit buffer with
    | (.error e, c) => (.error e, c)
    | (.ok (), c) => c.receive

/-- What a request gives, and the client after it. -/
def run {α : Type} (r : Request α) (c : Client σ) : Outcome α × Client σ :=
  match r with
  | .refused reason => (.error reason, c)
  | .done answer => (.ok answer, c)
  | .command buffer answer =>
    match c.transmit buffer with
    | (.error e, c) => (.error e, c)
    | (.ok (), c) => (.ok answer, c)
  | .query buffer parse =>
    match c.exchange buffer with
    | (.error e, c) => (.error e, c)
    | (.ok line, c) => (parse line, c)

/-- What an operation gives, and the client after it. -/
def perform (op : Operation) (c : Client σ) : Outcome op.Result × Client σ := c.run op.request

end Client

/-- What a buffer holds after it was to be filled: what was read, or what it held before. -/
def Quantity.bufferAfter (q : Quantity) (buffer : List q.Value) : Outcome (List q.Value) →
    List q.Value
  | .ok filled => filled
  | .error _ => buffer

end BatteryBench
