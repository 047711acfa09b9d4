import BatteryBench.Text.Basic

/-!
# Failures

Everything that can go wrong while a unit is driven, as one type for the client, the links and the
scans. A failure is a cause; its wording and its number are functions of it, so that nothing else in
the library compares texts or numbers.

The numbers are negative and fixed for good, because programs that only see a number depend on them.
Zero stands for success and belongs to no failure (`code_ne_zero`), and a number names at most one
failure (`ofCode?_eq_some_iff`).
-/

namespace BatteryBench

/-- A reason why an operation on a unit did not succeed. -/
inductive Failure where
  /-- A channel index at or above the number of channels. -/
  | channelIndexOutOfRange
  /-- A text that is no dotted-quad address. -/
  | invalidIPAddress
  /-- A connection attempt nobody answered. -/
  | connectionTimedOut
  /-- A connection attempt that was turned away or could not leave the host. -/
  | connectionFailed
  /-- A transmission the transport refused. -/
  | sendFailed
  /-- A transmission nobody took in time. -/
  | sendTimedOut
  /-- A stream that ended before a line was complete. -/
  | readFailed
  /-- No complete reply in time. -/
  | readTimedOut
  /-- An operation on a link that is not open. -/
  | notConnected
  /-- A name that could not be resolved. -/
  | addressResolutionFailed
  /-- A reply that does not have the expected form. -/
  | invalidResponse
  /-- A number that stands for no cell fault. -/
  | invalidFaultType
  /-- A number that stands for no sense range. -/
  | invalidSenseRange
  /-- An argument outside what the operation takes. -/
  | invalidArgument
  /-- A client without a driver. -/
  | invalidDriverHandle
  /-- A query through a driver that cannot attribute replies. -/
  | receiveNotAllowed
  /-- Opening a link that is open. -/
  | alreadyConnected
  /-- A socket that could not be prepared. -/
  | socketError
  /-- A socket that could not be bound to the interface. -/
  | failedToBindSocket
  /-- A serial port that could not be opened. -/
  | openingSerialPortFailed
  /-- A serial port that refused its line settings. -/
  | failedToConfigurePort
  /-- A multicast group that could not be joined. -/
  | failedToJoinGroup
  /-- More results than the caller's buffer holds. -/
  | bufferTooSmall
  /-- A number that stands for no precision mode. -/
  | invalidPrecisionMode
  /-- Reported only by callers that allocate across a number-only boundary. -/
  | allocationFailed
  /-- Reported only by callers across a number-only boundary. -/
  | unexpectedException
  deriving DecidableEq, Repr

/-- What a fallible operation gives. -/
abbrev Outcome (α : Type) := Except Failure α

/-- Outcomes can be compared where their values can. -/
instance {α : Type} [DecidableEq α] : DecidableEq (Outcome α)
  | .ok v, .ok w => decidable_of_iff (v = w) ⟨congrArg _, Except.ok.inj⟩
  | .error e, .error f => decidable_of_iff (e = f) ⟨congrArg _, Except.error.inj⟩
  | .ok _, .error _ => .isFalse nofun
  | .error _, .ok _ => .isFalse nofun

namespace Failure

/-- The number that stands for the failure where only numbers pass. -/
def code : Failure → Int
  | channelIndexOutOfRange => -1
  | invalidIPAddress => -2
  | connectionTimedOut => -3
  | connectionFailed => -4
  | sendFailed => -5
  | sendTimedOut => -6
  | readFailed => -7
  | readTimedOut => -8
  | notConnected => -9
  | addressResolutionFailed => -10
  | invalidResponse => -11
  | invalidFaultType => -12
  | invalidSenseRange => -13
  | invalidArgument => -14
  | invalidDriverHandle => -15
  | receiveNotAllowed => -16
  | alreadyConnected => -17
  | socketError => -18
  | failedToBindSocket => -19
  | openingSerialPortFailed => -20
  | failedToConfigurePort => -21
  | failedToJoinGroup => -22
  | bufferTooSmall => -23
  | invalidPrecisionMode => -24
  | allocationFailed => -25
  | unexpectedException => -26

/-- Every failure, in the order of falling numbers. -/
def all : List Failure :=
  [channelIndexOutOfRange, invalidIPAddress, connectionTimedOut, connectionFailed, sendFailed,
    sendTimedOut, readFailed, readTimedOut, notConnected, addressResolutionFailed, invalidResponse,
    invalidFaultType, invalidSenseRange, invalidArgument, invalidDriverHandle, receiveNotAllowed,
    alreadyConnected, socketError, failedToBindSocket, openingSerialPortFailed,
    failedToConfigurePort, failedToJoinGroup, bufferTooSmall, invalidPrecisionMode,
    allocationFailed, unexpectedException]

/-- The number that reports success. -/
def success : Int := 0

/-- The name under which a failure is written into stored data. -/
def name : Failure → Text
  | channelIndexOutOfRange => "ChannelIndexOutOfRange"
  | invalidIPAddress => "InvalidIPAddress"
  | connectionTimedOut => "ConnectionTimedOut"
  | connectionFailed => "ConnectionFailed"
  | sendFailed => "SendFailed"
  | sendTimedOut => "SendTimedOut"
  | readFailed => "ReadFailed"
  | readTimedOut => "ReadTimedOut"
  | notConnected => "NotConnected"
  | addressResolutionFailed => "AddressResolutionFailed"
  | invalidResponse => "InvalidResponse"
  | invalidFaultType => "InvalidFaultType"
  | invalidSenseRange => "InvalidSenseRange"
  | invalidArgument => "InvalidArgument"
  | invalidDriverHandle => "InvalidDriverHandle"
  | receiveNotAllowed => "ReceiveNotAllowed"
  | alreadyConnected => "AlreadyConnected"
  | socketError => "SocketError"
  | failedToBindSocket => "FailedToBindSocket"
  | openingSerialPortFailed => "OpeningSerialPortFailed"
  | failedToConfigurePort => "FailedToConfigurePort"
  | failedToJoinGroup => "FailedToJoinGroup"
  | bufferTooSmall => "BufferTooSmall"
  | invalidPrecisionMode => "InvalidPrecisionMode"
  | allocationFailed => "AllocationFailed"
  | unexpectedException => "UnexpectedException"

/-- The wording of a failure for people. -/
def message : Failure → Text
  | channelIndexOutOfRange => "Channel index out of range"
  | invalidIPAddress => "Invalid IP address"
  | connectionTimedOut => "Connection timed out"
  | connectionFailed => "Connection failed"
  | sendFailed => "Send failed"
  | sendTimedOut => "Send timed out"
  | readFailed => "Read failed"
  | readTimedOut => "Read timed out"
  | notConnected => "Not connected"
  | addressResolutionFailed => "Address resolution failed"
  | invalidResponse => "Invalid response received from the unit"
  | invalidFaultType => "Invalid fault type"
  | invalidSenseRange => "Invalid sense range"
  | invalidArgument => "Invalid argument"
  | invalidDriverHandle => "Invalid driver handle"
  | receiveNotAllowed => "Receiving not supported by driver"
  | alreadyConnected => "Already connected"
  | socketError => "Unexpected socket error"
  | failedToBindSocket => "Failed to bind socket"
  | openingSerialPortFailed => "Failed to open serial port"
  | failedToConfigurePort => "Failed to configure port"
  | failedToJoinGroup => "Failed to join multicast group"
  | bufferTooSmall => "Insufficient buffer size"
  | invalidPrecisionMode => "Invalid cell precision mode"
  | allocationFailed => "Memory allocation failed"
  | unexpectedException => "Unexpected internal error"

/-- Whether the failure says that the operation did not finish in time. -/
def isTimeout : Failure → Bool
  | connectionTimedOut | sendTimedOut | readTimedOut => true
  | _ => false

/-- The failure a number stands for. -/
def ofCode? (raw : Int) : Option Failure := all.find? fun f ↦ f.code == raw

/-- The failure stored under a name. -/
def ofName? (text : Text) : Option Failure := all.find? fun f ↦ f.name == text

/-- The wording for any number, success and unknown ones included. -/
def messageOfCode (raw : Int) : Text :=
  if raw = success then "Success"
  else match ofCode? raw with
    | some f => f.message
    | none => "Unknown error"

theorem mem_all (f : Failure) : f ∈ all := by cases f <;> decide

theorem code_ne_zero (f : Failure) : f.code ≠ success := by cases f <;> decide

theorem ofCode?_code (f : Failure) : ofCode? f.code = some f := by cases f <;> rfl

theorem code_injective {f g : Failure} (h : f.code = g.code) : f = g :=
  Option.some.inj (by rw [← ofCode?_code f, h, ofCode?_code g])

theorem ofName?_name (f : Failure) : ofName? f.name = some f := by cases f <;> decide

/-- A number is read as a failure exactly when it is that failure's number. -/
theorem ofCode?_eq_some_iff {raw : Int} {f : Failure} : ofCode? raw = some f ↔ f.code = raw := by
  refine ⟨fun h ↦ ?_, fun h ↦ h ▸ ofCode?_code f⟩
  simpa using List.find?_some h

end Failure

end BatteryBench
