import BatteryBench.Channel.Selection
import BatteryBench.Client.Quantity

/-!
# Requests

Whatever a client is asked to do comes down to a *request*: it is refused for its arguments, it has
nothing to do, it is one transmission without a reply, or it is one transmission and the reading of
one reply line. A request is worked out before a driver is looked at, so a refused or empty request
never reaches one.

The settings and quantities give rise to requests in a few shapes: one channel, all channels with
one value, the channels of a mask with one value, and one value per channel from the first one on.
All of them write the same header and the same argument; the last shape chains the commands of the
single channels with semicolons.
-/

namespace BatteryBench

/-- What is to be done with a driver to get a result. -/
inductive Request (α : Type) where
  /-- Nothing, because an argument was refused. -/
  | refused (reason : Failure)
  /-- Nothing, because nothing is left to do. -/
  | done (answer : α)
  /-- One transmission; the result is known beforehand. -/
  | command (buffer : Text) (answer : α)
  /-- One transmission and the reading of one reply. -/
  | query (buffer : Text) (parse : Text → Outcome α)

/-- The request with another result. -/
def Request.map {α β : Type} (f : α → β) : Request α → Request β
  | refused reason => .refused reason
  | done answer => .done (f answer)
  | command buffer answer => .command buffer (f answer)
  | query buffer parse => .query buffer fun t ↦ (parse t).map f

/-- The number of a channel on the wire, if there is such a channel. -/
def channelNumber (index count : Nat) : Outcome Nat :=
  if index < count then .ok (index + 1) else .error .channelIndexOutOfRange

/-! ### Setting -/

namespace Setting

/-- The command for one channel, counted from one, without its line end. -/
def assignment (h : Header) (n : Nat) (arg : Text) : Text := h.channel n ++ " " ++ arg

/-- Sets one channel. -/
def set (s : Setting) (index : Nat) (v : s.Value) : Request Unit :=
  match channelNumber index s.quantity.count with
  | .ok n => .command (assignment s.quantity.header n (s.argument v) ++ lineEnd) ()
  | .error e => .refused e

/-- The command for a selection of channels, without its line end. -/
def groupAssignment (s : Setting) (v : s.Value) (selection : Text) : Text :=
  s.quantity.header.group ++ " " ++ s.argument v ++ "," ++ selection

/-- Sets every channel to one value. -/
def setAll (s : Setting) (v : s.Value) : Request Unit :=
  .command (s.groupAssignment v (fullRange s.quantity.count) ++ lineEnd) ()

/-- Sets the channels of a mask to one value; without any such channel there is nothing to do. -/
def setMasked (s : Setting) (mask : UInt32) (v : s.Value) : Request Unit :=
  match maskText? mask s.quantity.count with
  | some selection => .command (s.groupAssignment v selection ++ lineEnd) ()
  | none => .done ()

/-- The commands that set the channels from a number on to the given values. -/
def assignmentsFrom (s : Setting) : Nat → List s.Value → List Text
  | _, [] => []
  | n, v :: vs => assignment s.chainHeader n (s.argument v) :: assignmentsFrom s (n + 1) vs

/-- Sets the channels from the first on, each to its value, in one transmission. -/
def setEach (s : Setting) (vs : List s.Value) : Request Unit :=
  if s.quantity.count < vs.length then .refused .invalidArgument
  else if vs.isEmpty then .done ()
  else .command ([';'].intercalate (s.assignmentsFrom 1 vs) ++ lineEnd) ()

end Setting

/-- The flags that the lowest bits of a mask are, one for each digital output. -/
def levelFlags (levels : UInt32) : List Bool :=
  (List.range Quantity.digitalOutput.count).map fun channel ↦ levels.toNat.testBit channel

/-- Sets every digital output at once: high where the bit of the mask is set, and low elsewhere. -/
def setDigitalLevels (levels : UInt32) : Request Unit :=
  Setting.digitalOutput.setEach (levelFlags levels)

/-! ### Asking -/

namespace Quantity

/-- Asks for one channel. -/
def get (q : Quantity) (index : Nat) : Request q.Value :=
  match channelNumber index q.count with
  | .ok n => .query (q.header.channel n ++ "?" ++ lineEnd) q.parse
  | .error e => .refused e

/-- The query for the first channels of a group, without its line end. -/
def groupQuery (q : Quantity) (n : Nat) : Text := q.header.group ++ "? " ++ fullRange n

/-- Asks for every channel. -/
def getAll (q : Quantity) : Request (List q.Value) :=
  .query (q.groupQuery q.count ++ lineEnd) (Reply.list q.count q.parse)

/-- Asks for as many channels as a buffer has slots, and gives what the buffer holds then. -/
def getInto (q : Quantity) (buffer : List q.Value) : Request (List q.Value) :=
  if q.count < buffer.length then .refused .invalidArgument
  else if buffer.isEmpty then .done buffer
  else
    .query (q.groupQuery buffer.length ++ lineEnd) fun t ↦
      match Reply.fill q.parse t buffer with
      | (.ok _, filled) => .ok filled
      | (.error e, _) => .error e

end Quantity

/-- The quantities that are flags. -/
inductive FlagQuantity where
  /-- Whether a cell's output is on. -/
  | enabled
  /-- The level of an auxiliary digital output. -/
  | digitalOutput
  /-- The level at an auxiliary digital input. -/
  | digitalInput
  deriving DecidableEq, Repr

/-- Asks for every channel of a quantity of flags, and packs them into a mask. -/
def FlagQuantity.getMask : FlagQuantity → Request UInt32
  | enabled => Quantity.enabled.getAll.map maskOfFlags
  | digitalOutput => Quantity.digitalOutput.getAll.map maskOfFlags
  | digitalInput => Quantity.digitalInput.getAll.map maskOfFlags

end BatteryBench
