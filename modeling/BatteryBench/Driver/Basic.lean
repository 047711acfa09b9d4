import BatteryBench.Address.Basic
import BatteryBench.Failure

/-!
# Drivers

A driver carries texts to a unit and lines back. The client and the scans use one only through this
interface, so what they do is the same over every transport and over a scripted driver.

A driver is a state: each operation gives its outcome and the state after it. Times are in
milliseconds. A driver is send-only while replies could not be attributed to one unit; it is the
client's business to ask nothing then.

Where replies from many units arrive together, an `AttributingDriver` also says where each came
from. Its `backlog` bounds how many lines can still be read: every line that is read uses up a part
of it (`backlog_lt`), so collecting replies until none is left always ends.
-/

namespace BatteryBench

/-- A state that texts can be sent through and lines read from. -/
class Driver (σ : Type) where
  /-- Whether replies cannot be attributed to one unit. -/
  sendOnly : σ → Bool
  /-- The unit that is addressed on a shared bus; zero where units are reached otherwise. -/
  deviceId : σ → UInt32
  /-- Addresses another unit on a shared bus; nothing happens where units are reached otherwise. -/
  selectDevice : UInt32 → σ → σ
  /-- Sends a text as one transmission. -/
  send : Text → Nat → σ → Outcome Unit × σ
  /-- Reads the next line, without its line end. -/
  readLine : Nat → σ → Outcome Text × σ

/-- A line together with where it came from. -/
structure AttributedLine where
  /-- The line. -/
  line : Text
  /-- The address of the unit that sent it. -/
  source : Address
  deriving DecidableEq

/-- A driver that says where each line came from. -/
class AttributingDriver (σ : Type) extends Driver σ where
  /-- A bound on the lines that can still be read. -/
  backlog : σ → Nat
  /-- Reads the next line and its source. -/
  readFrom : Nat → σ → Outcome AttributedLine × σ
  /-- A line that is read uses up a part of the backlog. -/
  backlog_lt : ∀ {ms : Nat} {s s' : σ} {line : AttributedLine},
    readFrom ms s = (.ok line, s') → backlog s' < backlog s

end BatteryBench
