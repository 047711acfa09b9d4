import BatteryBench.Discovery.Found
import BatteryBench.Driver.Basic
import BatteryBench.Link.Datagram
import BatteryBench.Link.Serial
import BatteryBench.Reply

/-!
# Scans

Two ways to find out which units there are. On a bus every number of a range is asked in turn
(`scanBus`), and a number that stays silent is skipped. On a network one query goes to all units
at once, and their answers are collected until none comes any more (`scanSegment`).

In both, silence is the only failure that is not one. Any other failure, and any answer that is no
identity, ends the scan at once and is its result: what was found until then is not reported.

The scans work over any driver. `discoverOnBus` and `discoverOnNetwork` run them over a link that
is opened for the scan.
-/

namespace BatteryBench

/-- The query that every unit answers with its identity. -/
def identify : Text := "*IDN?" ++ lineEnd

/-- How long the transmission of a scan may take, in milliseconds. -/
def scanWriteTimeout : Nat := 100

/-- How long a scan waits for the next answer on a network, in milliseconds. -/
def multicastReplyTimeout : Nat := 100

/-- How long a scan waits for each answer on a bus, in milliseconds. -/
def serialReplyTimeout : Nat := 50

/-! ### On a bus -/

section Bus

variable {σ : Type} [Driver σ]

/-- Asks the unit with a number for its identity. -/
def probe (id : UInt8) (s : σ) : Outcome (Option UnitOnBus) × σ :=
  match Driver.send identify scanWriteTimeout (Driver.selectDevice id.toUInt32 s) with
  | (.error e, s) => (.error e, s)
  | (.ok (), s) =>
    match Driver.readLine serialReplyTimeout s with
    | (.error e, s) => (if e.isTimeout then .ok none else .error e, s)
    | (.ok line, s) => ((Reply.identity line).map fun info ↦ some ⟨id, info.serial⟩, s)

/-- Asks the units with the given numbers in order, until one attempt fails. -/
def probeEach : List UInt8 → σ → Outcome (List UnitOnBus) × σ
  | [], s => (.ok [], s)
  | id :: ids, s =>
    match probe id s with
    | (.error e, s) => (.error e, s)
    | (.ok found, s) =>
      let (rest, s) := probeEach ids s
      (rest.map (found.toList ++ ·), s)

/-- The numbers from one to another, both included. -/
def idsFrom (first last : UInt8) : List UInt8 :=
  (List.range' first.toNat (last.toNat + 1 - first.toNat)).map UInt8.ofNat

/-- Asks the units with all numbers of a range. -/
def scanBus (first last : UInt8) (s : σ) : Outcome (List UnitOnBus) × σ :=
  if last < first then (.error .invalidArgument, s) else probeEach (idsFrom first last) s

end Bus

/-- Opens a port and asks the units on its bus with all numbers of a range. The range is looked at
before anything else. -/
def discoverOnBus (net : Network) (port : Text) (first last : UInt8) (l : SerialLink) :
    Outcome (List UnitOnBus) × SerialLink :=
  if last < first then (.error .invalidArgument, l)
  else if !net.drives then (.error .socketError, l)
  else
    match l.connect net port with
    | (.error e, l) => (.error e, l)
    | (.ok (), l) =>
      let (found, l) := scanBus first last l
      (found, l.close)

/-! ### On a network -/

section Segment

variable {σ : Type} [AttributingDriver σ]

/-- Collects answers until none comes any more. -/
def collect (s : σ) : Outcome (List UnitOnNetwork) × σ :=
  match h : AttributingDriver.readFrom multicastReplyTimeout s with
  | (.error e, s) => (if e.isTimeout then .ok [] else .error e, s)
  | (.ok reply, s') =>
    match Reply.identity reply.line with
    | .error e => (.error e, s')
    | .ok info =>
      have : AttributingDriver.backlog s' < AttributingDriver.backlog s :=
        AttributingDriver.backlog_lt h
      let (rest, s) := collect s'
      (rest.map (⟨reply.source, info.serial⟩ :: ·), s)
termination_by AttributingDriver.backlog s

/-- Asks all units at once. -/
def scanSegment (s : σ) : Outcome (List UnitOnNetwork) × σ :=
  match Driver.send identify scanWriteTimeout s with
  | (.error e, s) => (.error e, s)
  | (.ok (), s) => collect s

end Segment

/-- Joins the group of all units on an interface and asks them all. -/
def discoverOnNetwork (net : Network) (interface : Text) (l : MulticastLink) :
    Outcome (List UnitOnNetwork) × MulticastLink :=
  if !net.drives then (.error .socketError, l)
  else
    match l.connect net interface with
    | (.error e, l) => (.error e, l)
    | (.ok (), l) =>
      let (found, l) := scanSegment l
      (found, l.close)

/-! ### Into a buffer -/

/-- Copies as many items as fit into a buffer, from the first on. The result is their number, or the
failure that some were left out; the buffer is filled in both cases. -/
def copyPrefix {α : Type} (items buffer : List α) : Outcome Nat × List α :=
  let filled := items.take buffer.length ++ buffer.drop items.length
  (if buffer.length < items.length then .error .bufferTooSmall else .ok items.length, filled)

end BatteryBench
