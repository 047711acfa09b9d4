import BatteryBench.Failure

/-!
# Cell states and their keywords

The states a cell can be put into or report: the fault on its output, the range of its current
sense, its operating mode, and the measurement precision that all cells share.

A unit takes short keywords in commands and answers with long ones, so each type has two spellings
(`Keyword.command`, `Keyword.reply`); only the operating mode uses one spelling for both. A reply is
read by comparing it with the reply spellings of `Keyword.all`, letter case included. No two values
share a reply spelling, which is what `parseKeyword_reply` rests on.

`code` numbers the values of each type from zero where only numbers pass, and `name` is the spelling
in stored data.
-/

namespace BatteryBench

/-! ### The states -/

/-- A fault put on a cell's output. -/
inductive CellFault where
  /-- No fault. -/
  | none
  /-- The output is disconnected. -/
  | openCircuit
  /-- The output is shorted. -/
  | shortCircuit
  /-- The output is reversed. -/
  | polarity
  deriving DecidableEq, Repr

/-- The range of a cell's current sense. -/
inductive SenseRange where
  /-- The unit chooses the range. -/
  | auto
  /-- Up to one ampere. -/
  | low
  /-- Up to five amperes. -/
  | high
  deriving DecidableEq, Repr

/-- The operating mode a cell reports. -/
inductive CellMode where
  /-- The cell holds its voltage. -/
  | constantVoltage
  /-- The cell is at a current limit. -/
  | currentLimited
  deriving DecidableEq, Repr

/-- The measurement precision, shared by all cells. -/
inductive Precision where
  /-- The usual filter. -/
  | normal
  /-- A longer filter for more digits. -/
  | high
  /-- A filter against mains noise. -/
  | noiseRejection
  deriving DecidableEq, Repr

/-! ### Keywords -/

/-- A type whose values a unit spells as keywords. -/
class Keyword (α : Type) where
  /-- All values, in the order of their numbers. -/
  all : List α
  /-- The spelling in a command. -/
  command : α → Text
  /-- The spelling in a reply. -/
  reply : α → Text
  /-- The spelling in stored data. -/
  name : α → Text
  /-- The failure for a number that stands for no value. -/
  unknownCode : Failure

/-- The value a reply spells, padding aside. -/
def parseKeyword (α : Type) [Keyword α] (t : Text) : Outcome α :=
  match (Keyword.all (α := α)).find? fun v ↦ Keyword.reply v == trim t with
  | some v => .ok v
  | none => .error .invalidResponse

/-- The value with a number. -/
def keywordOfCode (α : Type) [Keyword α] (raw : Int) : Outcome α :=
  match raw with
  | .ofNat n =>
    match (Keyword.all (α := α))[n]? with
    | some v => .ok v
    | none => .error (Keyword.unknownCode α)
  | .negSucc _ => .error (Keyword.unknownCode α)

/-- The value stored under a name. -/
def keywordOfName? (α : Type) [Keyword α] (t : Text) : Option α :=
  (Keyword.all (α := α)).find? fun v ↦ Keyword.name v == t

namespace CellFault

/-- The spelling in a command. -/
def command : CellFault → Text
  | none => "NONE"
  | openCircuit => "OPEN"
  | shortCircuit => "SHORT"
  | polarity => "POL"

/-- The spelling in a reply. -/
def reply : CellFault → Text
  | none => "NONE"
  | openCircuit => "OPENCIRCUIT"
  | shortCircuit => "SHORTCIRCUIT"
  | polarity => "POLARITY"

/-- The spelling in stored data. -/
def name : CellFault → Text
  | none => "None"
  | openCircuit => "OpenCircuit"
  | shortCircuit => "ShortCircuit"
  | polarity => "Polarity"

instance : Keyword CellFault where
  all := [none, openCircuit, shortCircuit, polarity]
  command := command
  reply := reply
  name := name
  unknownCode := .invalidFaultType

end CellFault

namespace SenseRange

/-- The spelling in a command. -/
def command : SenseRange → Text
  | auto => "AUTO"
  | low => "LO"
  | high => "HI"

/-- The spelling in a reply. -/
def reply : SenseRange → Text
  | auto => "AUTO"
  | low => "LOW"
  | high => "HIGH"

/-- The spelling in stored data. -/
def name : SenseRange → Text
  | auto => "Auto"
  | low => "Low"
  | high => "High"

instance : Keyword SenseRange where
  all := [auto, low, high]
  command := command
  reply := reply
  name := name
  unknownCode := .invalidSenseRange

end SenseRange

namespace CellMode

/-- The spelling in commands and replies. -/
def reply : CellMode → Text
  | constantVoltage => "CV"
  | currentLimited => "ILIM"

/-- The spelling in stored data. -/
def name : CellMode → Text
  | constantVoltage => "ConstantVoltage"
  | currentLimited => "CurrentLimited"

instance : Keyword CellMode where
  all := [constantVoltage, currentLimited]
  command := reply
  reply := reply
  name := name
  unknownCode := .invalidArgument

end CellMode

namespace Precision

/-- The spelling in a command. -/
def command : Precision → Text
  | normal => "NORM"
  | high => "PREC"
  | noiseRejection => "FILT"

/-- The spelling in a reply. -/
def reply : Precision → Text
  | normal => "NORMAL"
  | high => "PRECISION"
  | noiseRejection => "FILTER"

/-- The spelling in stored data. -/
def name : Precision → Text
  | normal => "Normal"
  | high => "HighPrecision"
  | noiseRejection => "NoiseRejection"

instance : Keyword Precision where
  all := [normal, high, noiseRejection]
  command := command
  reply := reply
  name := name
  unknownCode := .invalidPrecisionMode

end Precision

/-! ### Each value is read back from its reply spelling -/

theorem CellFault.parseKeyword_reply (f : CellFault) : parseKeyword CellFault f.reply = .ok f := by
  cases f <;> rfl

theorem SenseRange.parseKeyword_reply (r : SenseRange) :
    parseKeyword SenseRange r.reply = .ok r := by
  cases r <;> rfl

theorem CellMode.parseKeyword_reply (m : CellMode) : parseKeyword CellMode m.reply = .ok m := by
  cases m <;> rfl

theorem Precision.parseKeyword_reply (p : Precision) : parseKeyword Precision p.reply = .ok p := by
  cases p <;> rfl

end BatteryBench
