import BatteryBench.Driver.Basic

/-!
# Scripted drivers

Drivers whose replies are written down beforehand. They record every operation that reaches them,
so they show exactly what a client or a scan does, in which order and with which time limits.

There is one for each setting: a single unit that answers from a queue (`ScriptedUnit`), a bus of
units that are asked one by one (`ScriptedBus`), and a segment where many units answer one query
(`ScriptedSegment`).
-/

namespace BatteryBench

/-- An operation that reached a scripted driver. -/
inductive DriverCall where
  /-- A unit was selected. -/
  | select (id : UInt32)
  /-- A text was sent, or would have been if that did not fail. -/
  | send (text : Text) (ms : Nat)
  /-- A line was asked for. -/
  | readLine (ms : Nat)
  /-- A line and its source were asked for. -/
  | readFrom (ms : Nat)
  deriving DecidableEq

/-! ### One unit -/

/-- A driver with a queue of replies. A read takes the first one and times out when there is none;
while a write failure is set, every transmission fails with it. -/
structure ScriptedUnit where
  /-- Whether the driver takes no queries. -/
  isSendOnly : Bool := false
  /-- What later reads give, in order. -/
  replies : List (Outcome Text) := []
  /-- The failure of every transmission, if any. -/
  writeFailure : Option Failure := none
  /-- The operations so far. -/
  calls : List DriverCall := []

namespace ScriptedUnit

/-- Records a transmission and lets it succeed or fail. -/
def send (text : Text) (ms : Nat) (s : ScriptedUnit) : Outcome Unit × ScriptedUnit :=
  let after := { s with calls := s.calls ++ [.send text ms] }
  match s.writeFailure with
  | some e => (.error e, after)
  | none => (.ok (), after)

/-- Records a read and takes the next reply. -/
def readLine (ms : Nat) (s : ScriptedUnit) : Outcome Text × ScriptedUnit :=
  let calls := s.calls ++ [.readLine ms]
  match s.replies with
  | reply :: rest => (reply, { s with calls := calls, replies := rest })
  | [] => (.error .readTimedOut, { s with calls := calls })

instance : Driver ScriptedUnit where
  sendOnly := isSendOnly
  deviceId _ := 0
  selectDevice _ s := s
  send := send
  readLine := readLine

/-- The driver with more replies at the end of its queue. -/
def enqueue (replies : List (Outcome Text)) (s : ScriptedUnit) : ScriptedUnit :=
  { s with replies := s.replies ++ replies }

end ScriptedUnit

/-! ### A bus -/

/-- Units on a bus, by the number they answer to. A transmission reaches the selected unit and makes
its reply pending; a unit answers its first query only. -/
structure ScriptedBus where
  /-- What the unit with a number answers, if there is one. -/
  unit : UInt32 → Option (Outcome Text)
  /-- The failure of transmissions to a number, if any. -/
  writeFailure : UInt32 → Option Failure := fun _ ↦ none
  /-- The selected number. -/
  selected : UInt32 := 0
  /-- What the next read gives, if anything. -/
  pending : Option (Outcome Text) := none
  /-- The operations so far. -/
  calls : List DriverCall := []

namespace ScriptedBus

/-- Records a transmission and lets the selected unit answer. -/
def send (text : Text) (ms : Nat) (s : ScriptedBus) : Outcome Unit × ScriptedBus :=
  let after := { s with calls := s.calls ++ [.send text ms] }
  match s.writeFailure s.selected with
  | some e => (.error e, after)
  | none =>
    (.ok (), { after with
      pending := s.unit s.selected
      unit := fun id ↦ if id = s.selected then none else s.unit id })

/-- Records a read and takes the pending reply. -/
def readLine (ms : Nat) (s : ScriptedBus) : Outcome Text × ScriptedBus :=
  let after := { s with calls := s.calls ++ [.readLine ms], pending := none }
  match s.pending with
  | some reply => (reply, after)
  | none => (.error .readTimedOut, after)

instance : Driver ScriptedBus where
  sendOnly _ := false
  deviceId := selected
  selectDevice id s := { s with selected := id, calls := s.calls ++ [.select id] }
  send := send
  readLine := readLine

end ScriptedBus

/-! ### A segment -/

/-- Units on a network segment that all answer one query. -/
structure ScriptedSegment where
  /-- What later reads give, in order. -/
  replies : List (Outcome AttributedLine)
  /-- The failure of every transmission, if any. -/
  writeFailure : Option Failure := none
  /-- The operations so far. -/
  calls : List DriverCall := []

namespace ScriptedSegment

/-- Records a transmission and lets it succeed or fail. -/
def send (text : Text) (ms : Nat) (s : ScriptedSegment) : Outcome Unit × ScriptedSegment :=
  let after := { s with calls := s.calls ++ [.send text ms] }
  match s.writeFailure with
  | some e => (.error e, after)
  | none => (.ok (), after)

/-- The next reply, taken from the queue. -/
def next (call : DriverCall) (s : ScriptedSegment) : Outcome AttributedLine × ScriptedSegment :=
  let calls := s.calls ++ [call]
  match s.replies with
  | reply :: rest => (reply, { s with calls := calls, replies := rest })
  | [] => (.error .readTimedOut, { s with calls := calls })

theorem length_replies_lt {call : DriverCall} {s s' : ScriptedSegment} {line : AttributedLine}
    (h : s.next call = (.ok line, s')) : s'.replies.length < s.replies.length := by
  rw [next] at h
  split at h
  · next hr =>
    cases h
    simp [hr]
  · cases h

instance : AttributingDriver ScriptedSegment where
  sendOnly _ := true
  deviceId _ := 0
  selectDevice _ s := s
  send := send
  readLine ms s := ((s.next (.readLine ms)).1.map (·.line), (s.next (.readLine ms)).2)
  backlog s := s.replies.length
  readFrom ms s := s.next (.readFrom ms)
  backlog_lt := length_replies_lt

end ScriptedSegment

end BatteryBench
