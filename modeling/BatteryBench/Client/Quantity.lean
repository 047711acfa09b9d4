import BatteryBench.Number.Shortest
import BatteryBench.Reply

/-!
# Quantities of a unit

A unit has groups of equal channels: cells, auxiliary inputs and outputs, and the inputs and outputs
of the model it runs. A *quantity* is what every channel of a group has one value of. It fixes the
header under which the unit knows it, the number of channels, and the kind of its values.

A *setting* is a quantity that can be set; it fixes how a value is written in a command. Setpoints
are clamped to their range and have a fixed count of places, states go by their command keywords,
and the free-form model inputs are written as the shortest numeral that reads back.

In a chain of commands a header without a leading colon is resolved relative to the command before
it. The model inputs are therefore chained under headers that start at the root.
-/

namespace BatteryBench

/-! ### Headers -/

/-- A command header, split where the number of a channel goes. -/
structure Header where
  /-- What stands before the number. -/
  stem : Text
  /-- What stands after it. -/
  ending : Text
  deriving DecidableEq

namespace Header

/-- The header of one channel, counted from one. -/
def channel (h : Header) (n : Nat) : Text := h.stem ++ decimal n ++ h.ending

/-- The header of the whole group. -/
def group (h : Header) : Text := h.stem ++ h.ending

/-- The same header, resolved from the root wherever it stands. -/
def rooted (h : Header) : Header := { h with stem := ':' :: h.stem }

end Header

/-! ### Kinds of values -/

/-- A kind of value that a channel has. -/
inductive ValueKind where
  /-- A binary32 number. -/
  | number
  /-- A flag. -/
  | flag
  /-- A cell fault. -/
  | fault
  /-- A sense range. -/
  | senseRange
  /-- An operating mode. -/
  | mode
  deriving DecidableEq, Repr

/-- The values of a kind. -/
abbrev ValueKind.Carrier : ValueKind → Type
  | number => Binary32
  | flag => Bool
  | fault => CellFault
  | senseRange => SenseRange
  | mode => CellMode

/-- The value of a kind that a reply field holds. -/
def ValueKind.parse : (k : ValueKind) → Text → Outcome k.Carrier
  | number => Reply.number
  | flag => Reply.flag
  | fault => parseKeyword CellFault
  | senseRange => parseKeyword SenseRange
  | mode => parseKeyword CellMode

/-! ### Quantities -/

/-- What every channel of a group has one value of. -/
inductive Quantity where
  /-- Whether a cell's output is on. -/
  | enabled
  /-- The voltage a cell is set to. -/
  | voltage
  /-- The greatest current a cell delivers. -/
  | sourcing
  /-- The greatest current a cell takes. -/
  | sinking
  /-- The fault on a cell's output. -/
  | fault
  /-- The range of a cell's current sense. -/
  | senseRange
  /-- The voltage of a cell. -/
  | measuredVoltage
  /-- The current of a cell. -/
  | measuredCurrent
  /-- The voltage of a cell, averaged by the unit. -/
  | averageVoltage
  /-- The current of a cell, averaged by the unit. -/
  | averageCurrent
  /-- The operating mode of a cell. -/
  | operatingMode
  /-- The level of an auxiliary analog output. -/
  | analogOutput
  /-- The level of an auxiliary digital output. -/
  | digitalOutput
  /-- The level at an auxiliary analog input. -/
  | analogInput
  /-- The level at an auxiliary digital input. -/
  | digitalInput
  /-- A global input of the model. -/
  | globalInput
  /-- A local input of the model. -/
  | localInput
  /-- An output of the model. -/
  | modelOutput
  deriving DecidableEq, Repr

namespace Quantity

/-- The header under which a unit knows the quantity. -/
def header : Quantity → Header
  | enabled => ⟨"OUTP", ""⟩
  | voltage => ⟨"SOUR", ":VOLT"⟩
  | sourcing => ⟨"SOUR", ":CURR:SRC"⟩
  | sinking => ⟨"SOUR", ":CURR:SNK"⟩
  | fault => ⟨"OUTP", ":FAUL"⟩
  | senseRange => ⟨"SENS", ":RANG"⟩
  | measuredVoltage => ⟨"MEAS", ":VOLT"⟩
  | measuredCurrent => ⟨"MEAS", ":CURR"⟩
  | averageVoltage => ⟨"MEAS", ":VOLT:AVER"⟩
  | averageCurrent => ⟨"MEAS", ":CURR:AVER"⟩
  | operatingMode => ⟨"OUTP", ":MODE"⟩
  | analogOutput => ⟨"SOUR:AUX:OUT", ""⟩
  | digitalOutput => ⟨"SOUR:DAUX:OUT", ""⟩
  | analogInput => ⟨"MEAS:AUX:IN", ""⟩
  | digitalInput => ⟨"MEAS:DAUX:IN", ""⟩
  | globalInput => ⟨"MOD:GLOB", ""⟩
  | localInput => ⟨"MOD:LOC", ""⟩
  | modelOutput => ⟨"MOD:OUT", ""⟩

/-- The number of channels. -/
def count : Quantity → Nat
  | digitalOutput | digitalInput => 4
  | modelOutput => 36
  | _ => 8

/-- The kind of the values. -/
def kind : Quantity → ValueKind
  | enabled | digitalOutput | digitalInput => .flag
  | fault => .fault
  | senseRange => .senseRange
  | operatingMode => .mode
  | _ => .number

/-- The values of a channel. -/
abbrev Value (q : Quantity) : Type := q.kind.Carrier

/-- The value of a channel that a reply field holds. -/
def parse (q : Quantity) : Text → Outcome q.Value := q.kind.parse

end Quantity

/-! ### Settings -/

/-- A quantity that can be set. -/
inductive Setting where
  /-- Whether a cell's output is on. -/
  | enabled
  /-- The voltage of a cell. -/
  | voltage
  /-- The greatest current a cell delivers. -/
  | sourcing
  /-- The greatest current a cell takes. -/
  | sinking
  /-- The fault on a cell's output. -/
  | fault
  /-- The range of a cell's current sense. -/
  | senseRange
  /-- The level of an auxiliary analog output. -/
  | analogOutput
  /-- The level of an auxiliary digital output. -/
  | digitalOutput
  /-- A global input of the model. -/
  | globalInput
  /-- A local input of the model. -/
  | localInput
  deriving DecidableEq, Repr

/-- The numbers from one bound to another. -/
structure Range where
  /-- The least number. -/
  low : Binary32
  /-- The greatest number. -/
  high : Binary32
  deriving DecidableEq

/-- The voltages a cell can be set to. -/
def voltageRange : Range := ⟨.ofInt 0, .ofInt 5⟩
/-- The limits for the current a cell delivers. -/
def sourcingRange : Range := ⟨.ofInt 0, .ofInt 5⟩
/-- The limits for the current a cell takes. -/
def sinkingRange : Range := ⟨.ofInt (-5), .ofInt 5⟩
/-- The levels of an analog output. -/
def analogOutputRange : Range := ⟨.ofInt (-10), .ofInt 10⟩

/-- A setpoint as it is sent: clamped to its range, with a fixed count of places. -/
def setpointText (places : Nat) (range : Range) (v : Binary32) : Text :=
  (v.clamp range.low range.high).fixedText places

/-- A flag as it is sent. -/
def flagText (flag : Bool) : Text := if flag then ['1'] else ['0']

namespace Setting

/-- The quantity that is set. -/
def quantity : Setting → Quantity
  | enabled => .enabled
  | voltage => .voltage
  | sourcing => .sourcing
  | sinking => .sinking
  | fault => .fault
  | senseRange => .senseRange
  | analogOutput => .analogOutput
  | digitalOutput => .digitalOutput
  | globalInput => .globalInput
  | localInput => .localInput

/-- The values a channel can be set to. -/
abbrev Value (s : Setting) : Type := s.quantity.Value

/-- A value as it is sent. -/
def argument : (s : Setting) → s.Value → Text
  | enabled => flagText
  | voltage => setpointText 4 voltageRange
  | sourcing => setpointText 4 sourcingRange
  | sinking => setpointText 4 sinkingRange
  | fault => CellFault.command
  | senseRange => SenseRange.command
  | analogOutput => setpointText 3 analogOutputRange
  | digitalOutput => flagText
  | globalInput => Binary32.shortestText
  | localInput => Binary32.shortestText

/-- The header that is used in chains of commands. -/
def chainHeader : Setting → Header
  | globalInput => Quantity.globalInput.header.rooted
  | localInput => Quantity.localInput.header.rooted
  | s => s.quantity.header

end Setting

end BatteryBench
