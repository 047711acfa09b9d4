import BatteryBench.Client.Basic
import BatteryBench.Driver.Scripted
import BatteryBench.Link.Basic
import BatteryBench.Settings

/-!
# Sessions of a client

A session is the life of one client: it is attached to drivers and detached from them, it opens
links, its settings change, and it is asked to do things. Around it stand any number of scripted
drivers, known by name, and one link with the unit behind it.

A client holds at most one of them at a time. Opening gives up the driver in use before anything
else, so after a failure the client has none; the link then closes, while the unit at its other end
goes on (`Link.renew`).
-/

namespace BatteryBench

/-! ### Drivers of either sort -/

/-- A scripted driver or a link. -/
inductive AnyDriver where
  /-- A scripted driver. -/
  | scripted (s : ScriptedUnit)
  /-- A link. -/
  | link (l : Link)

namespace AnyDriver

instance : Driver AnyDriver where
  sendOnly
    | scripted s => Driver.sendOnly s
    | link l => Driver.sendOnly l
  deviceId
    | scripted s => Driver.deviceId s
    | link l => Driver.deviceId l
  selectDevice id
    | scripted s => scripted (Driver.selectDevice id s)
    | link l => link (Driver.selectDevice id l)
  send t ms
    | scripted s => (Driver.send t ms s).map id scripted
    | link l => (Driver.send t ms l).map id link
  readLine ms
    | scripted s => (Driver.readLine ms s).map id scripted
    | link l => (Driver.readLine ms l).map id link

end AnyDriver

/-! ### Opening by settings -/

/-- Opens a link as the settings say: whether that succeeded, and the link after it. A link of the
same transport keeps the unit at its other end; the number on a bus is selected once the port is
open. Where the host cannot run links, nothing is looked at. -/
def Settings.establish (net : Network) (s : Settings) (l : Link) : Outcome Unit × Link :=
  let fresh := if l.transport = s.transport then l.renew else Link.closed s.transport
  if !net.drives then (.error .socketError, fresh)
  else
    match s with
    | .udp target interface => fresh.connect net interface target
    | .tcp target limit => fresh.connect net none target limit
    | .multicast interface => fresh.connect net none interface
    | .serial port id =>
      let (opened, l) := fresh.connect net none port
      (opened, if opened.isOk then l.selectDevice id else l)

/-! ### Sessions -/

/-- What a client is attached to. -/
inductive Attachment where
  /-- The scripted driver with a name. -/
  | scripted (name : Text)
  /-- The link. -/
  | link
  deriving DecidableEq

/-- A client and its surroundings. -/
structure Session where
  /-- The scripted drivers, by name. -/
  scripted : Text → ScriptedUnit
  /-- The link and the unit behind it. -/
  link : Link
  /-- What the client is attached to, if anything. -/
  attached : Option Attachment
  /-- How long the client waits for a reply, in milliseconds. -/
  readTimeout : Nat := defaultReadTimeout

namespace Session

/-- The client as it is. -/
def client (s : Session) : Client AnyDriver where
  driver := s.attached.map fun
    | .scripted name => .scripted (s.scripted name)
    | .link => .link s.link
  readTimeout := s.readTimeout

/-- The session with another state of the scripted driver with a name. -/
def putScripted (name : Text) (unit : ScriptedUnit) (s : Session) : Session :=
  { s with scripted := fun n ↦ if n = name then unit else s.scripted n }

/-- The session after its client came to another state. -/
def putClient (c : Client AnyDriver) (s : Session) : Session :=
  match s.attached, c.driver with
  | some (.scripted name), some (.scripted unit) => s.putScripted name unit
  | some .link, some (.link l) => { s with link := l }
  | _, _ => s

/-- The session after the client gave up its driver: a link closes by that. -/
def release (s : Session) : Session :=
  match s.attached with
  | some .link => { s with attached := none, link := s.link.renew }
  | _ => { s with attached := none }

end Session

/-! ### Steps -/

/-- Something that happens in a session. -/
inductive SessionStep where
  /-- Replies are queued on a scripted driver, and the client is asked to do something. -/
  | perform (driver : Text) (replies : List (Outcome Text)) (op : Operation)
  /-- Transmissions through a scripted driver start to fail, or to succeed again. -/
  | failWrites (driver : Text) (failure : Option Failure)
  /-- The client is attached to a scripted driver, or to nothing. -/
  | setDriver (driver : Option Text)
  /-- The client waits for replies for another time. -/
  | setReadTimeout (ms : Nat)
  /-- The client is asked how long it waits for replies. -/
  | readTimeout
  /-- The client is asked what it is attached to. -/
  | driver
  /-- The driver in use addresses another unit. -/
  | selectDevice (id : UInt32)
  /-- The client opens a link. -/
  | connect (settings : Settings)
  /-- Something happens to the link. -/
  | link (step : LinkStep)

/-- What a step of a session shows. -/
inductive SessionAnswer where
  /-- Nothing. -/
  | nothing
  /-- What an operation gave. -/
  | result (op : Operation) (r : Outcome op.Result)
  /-- A time in milliseconds. -/
  | time (ms : Nat)
  /-- The unit that is addressed and whether the driver is send-only, if there is a driver. -/
  | driver (d : Option (UInt32 × Bool))
  /-- Whether a link was opened. -/
  | opened (r : Outcome Unit)
  /-- What a step of the link shows. -/
  | link (a : LinkAnswer)

/-- Everything that a step of a session shows. -/
structure SessionShown where
  /-- Its answer. -/
  answer : SessionAnswer
  /-- The name of the scripted driver that was in use before it, if one was. -/
  driver : Text
  /-- The operations that reached this driver. -/
  calls : List DriverCall

namespace Session

/-- What a step shows, and the session after it. -/
def step (net : Network) (s : Session) : SessionStep → SessionAnswer × Session
  | .perform driver replies op =>
    let s := s.putScripted driver ((s.scripted driver).enqueue replies)
    let (r, c) := s.client.perform op
    (.result op r, s.putClient c)
  | .failWrites driver failure =>
    (.nothing, s.putScripted driver { s.scripted driver with writeFailure := failure })
  | .setDriver driver => (.nothing, { s.release with attached := driver.map .scripted })
  | .setReadTimeout ms => (.nothing, { s with readTimeout := ms })
  | .readTimeout => (.time s.readTimeout, s)
  | .driver =>
    (.driver (s.client.driver.map fun d ↦ (Driver.deviceId d, Driver.sendOnly d)), s)
  | .selectDevice id =>
    (.nothing, s.putClient { s.client with driver := s.client.driver.map (Driver.selectDevice id) })
  | .connect settings =>
    let s := s.release
    match settings.establish net s.link with
    | (.ok (), l) => (.opened (.ok ()), { s with link := l, attached := some .link })
    | (.error e, l) => (.opened (.error e), { s with link := l })
  | .link step =>
    let (answer, l) := s.link.step net step
    (.link answer, { s with link := l })

/-- The name of the scripted driver in use, if one is. -/
def driverName (s : Session) : Text :=
  match s.attached with
  | some (.scripted name) => name
  | _ => []

/-- Everything that a step shows, and the session after it. -/
def observe (net : Network) (s : Session) (t : SessionStep) : SessionShown × Session :=
  let (answer, after) := s.step net t
  let name := s.driverName
  (⟨answer, name, (after.scripted name).calls.drop (s.scripted name).calls.length⟩, after)

/-- What a run of steps shows, and the session after it. -/
def steps (net : Network) : Session → List SessionStep → List SessionShown × Session
  | s, [] => ([], s)
  | s, t :: rest =>
    let (shown, s) := s.observe net t
    let (others, s) := steps net s rest
    (shown :: others, s)

end Session

end BatteryBench
