import BatteryBench.Client.Basic
import BatteryBench.Driver.Scripted
import BatteryBench.Proofs.Channel.Selection

/-!
# What an operation lets reach a driver

Three questions about an operation can be answered from its arguments alone: whether they are
refused (`Operation.argumentFailure?`), whether nothing is left to do (`Operation.isIdle`), and
whether an answer of the unit is asked for (`Operation.isQuery`). The three decide which of the four
sorts of request an operation comes down to (`Operation.request_of_argumentFailure?`,
`Operation.request_of_isIdle`, `Operation.request_of_isQuery`, `Operation.request_of_not_isQuery`),
and `Operation.request_cases` is the same the other way round.

`Operation.Conduct` lists the rules for what then happens to a scripted driver, one for each clause,
in the order of the checks; a client keeps them for every operation in every state of its driver
(`Client.conduct_perform`).
-/

namespace BatteryBench

namespace Operation

/-! ### Arguments -/

/-- The failure of an operation whose arguments are refused: a channel that does not exist, more
values or slots than channels, or a text that is no address. -/
def argumentFailure? : Operation → Option Failure
  | set s index _ => if index < s.quantity.count then none else some .channelIndexOutOfRange
  | get q index => if index < q.count then none else some .channelIndexOutOfRange
  | setEach s vs => if vs.length ≤ s.quantity.count then none else some .invalidArgument
  | getInto q buffer => if buffer.length ≤ q.count then none else some .invalidArgument
  | setEthernet settings =>
    if (IPv4.parse settings.ip).isOk && (IPv4.parse settings.netmask).isOk then none
    else some .invalidIPAddress
  | _ => none

/-- Whether an operation names no channel at all: no values, no slots, or no bit of a channel. -/
def isIdle : Operation → Bool
  | setEach _ vs => vs.isEmpty
  | getInto _ buffer => buffer.isEmpty
  | setMasked s mask _ =>
    (List.range s.quantity.count).all fun channel ↦ !mask.toNat.testBit channel
  | _ => false

/-- Whether an operation asks for an answer of the unit. -/
def isQuery : Operation → Bool
  | get _ _ | getAll _ | getMask _ | getInto _ _ | getPrecision | getIdentity | getBusNumber
  | getEthernet | getCalibrationDate | getErrorCount | takeError | getAlarms | getModelStatus
  | getModel | getModelId => true
  | _ => false

/-- Whether an operation needs a driver: its arguments pass and they name something to do. -/
def NeedsDriver (op : Operation) : Prop := op.argumentFailure? = none ∧ op.isIdle = false

/-! ### What the arguments decide -/

/-- Refused arguments come to nothing. -/
theorem request_of_argumentFailure? {op : Operation} {e : Failure}
    (h : op.argumentFailure? = some e) : op.request = .refused e := by
  cases op with
  | set s index v =>
    by_cases hlt : index < s.quantity.count <;> simp [argumentFailure?, hlt] at h
    subst h
    simp [request, Setting.set, channelNumber, hlt]
  | get q index =>
    by_cases hlt : index < q.count <;> simp [argumentFailure?, hlt] at h
    subst h
    simp [request, Quantity.get, channelNumber, hlt]
  | setEach s vs =>
    by_cases hle : vs.length ≤ s.quantity.count <;> simp [argumentFailure?, hle] at h
    subst h
    simp [request, Setting.setEach, Nat.lt_of_not_le hle]
  | getInto q buffer =>
    by_cases hle : buffer.length ≤ q.count <;> simp [argumentFailure?, hle] at h
    subst h
    simp [request, Quantity.getInto, Nat.lt_of_not_le hle]
  | setEthernet settings =>
    simp only [request, storeEthernet]
    cases hip : IPv4.parse settings.ip with
    | error f =>
      obtain rfl := IPv4.parse_eq_error hip
      simp_all [argumentFailure?, Except.isOk, Except.toBool]
    | ok ip =>
      cases hmask : IPv4.parse settings.netmask with
      | error f =>
        obtain rfl := IPv4.parse_eq_error hmask
        simp_all [argumentFailure?, Except.isOk, Except.toBool]
      | ok netmask => simp_all [argumentFailure?, Except.isOk, Except.toBool]
  | _ => cases h

/-- An operation that names no channel is done. -/
theorem request_of_isIdle {op : Operation} (h : op.argumentFailure? = none) (hidle : op.isIdle) :
    ∃ v, op.request = .done v := by
  cases op with
  | setEach s vs =>
    obtain rfl : vs = [] := List.isEmpty_iff.mp hidle
    exact ⟨(), by simp [request, Setting.setEach]⟩
  | getInto q buffer =>
    obtain rfl : buffer = [] := List.isEmpty_iff.mp hidle
    exact ⟨[], by simp [request, Quantity.getInto]⟩
  | setMasked s mask v =>
    have hnone : maskText? mask s.quantity.count = none := by
      rw [maskText?_eq_none_iff]
      simpa [isIdle] using hidle
    exact ⟨(), by simp [request, Setting.setMasked, hnone]⟩
  | _ => cases hidle

/-- An operation that needs no driver is refused or done. -/
theorem request_of_not_needsDriver {op : Operation} (h : ¬op.NeedsDriver) :
    (∃ e, op.request = .refused e) ∨ ∃ v, op.request = .done v := by
  cases hargs : op.argumentFailure? with
  | some e => exact .inl ⟨e, request_of_argumentFailure? hargs⟩
  | none =>
    have hidle : op.isIdle := Bool.of_not_eq_false fun hno ↦ h ⟨hargs, hno⟩
    exact .inr (request_of_isIdle hargs hidle)

/-- An operation that needs a driver and asks for an answer is a query. -/
theorem request_of_isQuery {op : Operation} (h : op.NeedsDriver) (hquery : op.isQuery) :
    ∃ buffer parse, op.request = .query buffer parse := by
  obtain ⟨hargs, hidle⟩ := h
  cases op with
  | get q index =>
    have hlt : index < q.count := by simpa [argumentFailure?] using hargs
    exact ⟨_, _, by simp only [request, Quantity.get, channelNumber, if_pos hlt]; rfl⟩
  | getInto q buffer =>
    have hle : buffer.length ≤ q.count := by simpa [argumentFailure?] using hargs
    have hne : buffer.isEmpty = false := hidle
    exact ⟨_, _, by
      simp only [request, Quantity.getInto, if_neg (Nat.not_lt_of_le hle), hne]
      rfl⟩
  | getMask f => cases f <;> exact ⟨_, _, rfl⟩
  | getAll _ | getPrecision | getIdentity | getBusNumber | getEthernet | getCalibrationDate
  | getErrorCount | takeError | getAlarms | getModelStatus | getModel | getModelId =>
    exact ⟨_, _, rfl⟩
  | _ => cases hquery

/-- An operation that needs a driver and asks for no answer is a command. -/
theorem request_of_not_isQuery {op : Operation} (h : op.NeedsDriver) (hquery : op.isQuery = false) :
    ∃ buffer v, op.request = .command buffer v := by
  obtain ⟨hargs, hidle⟩ := h
  cases op with
  | set s index v =>
    have hlt : index < s.quantity.count := by simpa [argumentFailure?] using hargs
    exact ⟨_, (), by simp only [request, Setting.set, channelNumber, if_pos hlt]; rfl⟩
  | setEach s vs =>
    have hle : vs.length ≤ s.quantity.count := by simpa [argumentFailure?] using hargs
    have hne : vs.isEmpty = false := hidle
    exact ⟨_, (), by
      simp only [request, Setting.setEach, if_neg (Nat.not_lt_of_le hle), hne]
      rfl⟩
  | setMasked s mask v =>
    cases hsel : maskText? mask s.quantity.count with
    | none =>
      rw [maskText?_eq_none_iff] at hsel
      simp [isIdle] at hidle
      obtain ⟨k, hk, hbit⟩ := hidle
      rw [hsel k hk] at hbit
      cases hbit
    | some selection => exact ⟨_, (), by simp only [request, Setting.setMasked, hsel]; rfl⟩
  | setEthernet settings =>
    cases hip : IPv4.parse settings.ip with
    | error f => simp [argumentFailure?, hip, Except.isOk, Except.toBool] at hargs
    | ok ip =>
      cases hmask : IPv4.parse settings.netmask with
      | error f => simp [argumentFailure?, hip, hmask, Except.isOk, Except.toBool] at hargs
      | ok netmask =>
        exact ⟨_, (), by simp only [request, storeEthernet, hip, hmask]; rfl⟩
  | setAll _ _ | setDigitalLevels _ | setPrecision _ | clearErrors | clearAlarms | raiseInterlock
  | restart | loadModel | startModel | stopModel | unloadModel => exact ⟨_, (), rfl⟩
  | _ => cases hquery

/-- **The four sorts of operations**, by what their arguments come down to. -/
theorem request_cases (op : Operation) :
    (∃ e, op.argumentFailure? = some e ∧ op.request = .refused e) ∨
    (∃ v, op.request = .done v) ∨
    (op.isQuery ∧ ∃ buffer parse, op.request = .query buffer parse) ∨
    (op.isQuery = false ∧ ∃ buffer v, op.request = .command buffer v) := by
  cases hargs : op.argumentFailure? with
  | some e => exact .inl ⟨e, rfl, request_of_argumentFailure? hargs⟩
  | none =>
    by_cases hidle : op.isIdle
    · exact .inr (.inl (request_of_isIdle hargs hidle))
    · have hneeds : op.NeedsDriver := ⟨hargs, Bool.of_not_eq_true hidle⟩
      cases hquery : op.isQuery with
      | true => exact .inr (.inr (.inl ⟨rfl, request_of_isQuery hneeds hquery⟩))
      | false => exact .inr (.inr (.inr ⟨rfl, request_of_not_isQuery hneeds hquery⟩))

/-! ### The rules -/

/-- **The rules of an operation**, for a scripted driver that is attached or none, what the
operation gave, and the calls that reached the driver by it. They are in the order of the checks:
each holds where none of those before it applies. -/
structure Conduct (op : Operation) (readTimeout : Nat) (before after : Option ScriptedUnit)
    (result : Outcome op.Result) (calls : List DriverCall) : Prop where
  /-- Refused arguments reach no driver. -/
  refused : ∀ e, op.argumentFailure? = some e → result = .error e ∧ calls = [] ∧ after = before
  /-- Neither does an operation that names no channel, and it succeeds. -/
  idle : op.argumentFailure? = none → op.isIdle →
    (∃ v, result = .ok v) ∧ calls = [] ∧ after = before
  /-- Then there has to be a driver. -/
  driverless : op.NeedsDriver → before = none →
    result = .error .invalidDriverHandle ∧ calls = [] ∧ after = before
  /-- A query is refused on a send-only driver before anything is sent. -/
  sendOnly : op.NeedsDriver → ∀ u, before = some u → op.isQuery → u.isSendOnly →
    result = .error .receiveNotAllowed ∧ calls = [] ∧ after = before
  /-- A transmission that fails is the end of it. -/
  unsent : op.NeedsDriver → ∀ u, before = some u → (op.isQuery → u.isSendOnly = false) →
    ∀ e, u.writeFailure = some e → result = .error e ∧
      ∃ buffer, calls = [.send buffer 250] ∧ after = some { u with calls := u.calls ++ calls }
  /-- A command that is sent has succeeded. -/
  commanded : op.NeedsDriver → ∀ u, before = some u → op.isQuery = false → u.writeFailure = none →
    ∃ buffer v, op.request = .command buffer v ∧ result = .ok v ∧ calls = [.send buffer 250] ∧
      after = some { u with calls := u.calls ++ calls }
  /-- A query that is sent is followed by one read, and gives the failure of the read or what its
  own reader makes of the line. -/
  asked : op.NeedsDriver → ∀ u, before = some u → op.isQuery → u.isSendOnly = false →
    u.writeFailure = none →
    ∃ buffer parse, op.request = .query buffer parse ∧
      result = (u.replies.headD (.error .readTimedOut)).bind parse ∧
      calls = [.send buffer 250, .readLine readTimeout] ∧
      after = some { u with calls := u.calls ++ calls, replies := u.replies.tail }

end Operation

/-! ### Keeping the rules -/

namespace Client

/-- The client after a run of operations. -/
def performAll {σ : Type} [Driver σ] (ops : List Operation) (c : Client σ) : Client σ :=
  ops.foldl (fun c op ↦ (c.perform op).2) c

/-- What reached the driver of a client after a state of it. -/
def newCalls (before after : Option ScriptedUnit) : List DriverCall :=
  match before, after with
  | some u, some v => v.calls.drop u.calls.length
  | _, _ => []

/-- A transmission through a scripted driver is recorded, whether or not it succeeds. -/
theorem transmit_scripted (buffer : Text) (u : ScriptedUnit) (ms : Nat) :
    (⟨some u, ms⟩ : Client ScriptedUnit).transmit buffer =
      ((match u.writeFailure with
        | some e => .error e
        | none => .ok ()),
        ⟨some { u with calls := u.calls ++ [.send buffer 250] }, ms⟩) := by
  simp only [transmit, Driver.send, ScriptedUnit.send, writeTimeout]
  cases u.writeFailure <;> rfl

/-- A read through a scripted driver takes the first reply, if there is one. -/
theorem receive_scripted (u : ScriptedUnit) (ms : Nat) :
    (⟨some u, ms⟩ : Client ScriptedUnit).receive =
      (u.replies.headD (.error .readTimedOut),
        ⟨some { u with calls := u.calls ++ [.readLine ms], replies := u.replies.tail }, ms⟩) := by
  obtain ⟨isSendOnly, replies, writeFailure, calls⟩ := u
  cases replies <;> rfl

/-- **A client keeps the rules**, in every state of its driver. -/
theorem conduct_perform (op : Operation) (c : Client ScriptedUnit) :
    op.Conduct c.readTimeout c.driver (c.perform op).2.driver (c.perform op).1
      (newCalls c.driver (c.perform op).2.driver) := by
  obtain ⟨driver, readTimeout⟩ := c
  rw [perform]
  -- One goal for each rule, in their order; what the rule supposes fixes the sort of request.
  constructor
  · intro e he
    simp only [run, Operation.request_of_argumentFailure? he]
    refine ⟨trivial, ?_, trivial⟩
    cases driver <;> simp [newCalls]
  · intro hargs hidle
    obtain ⟨v, hv⟩ := Operation.request_of_isIdle hargs hidle
    simp only [run, hv]
    refine ⟨⟨v, rfl⟩, ?_, trivial⟩
    cases driver <;> simp [newCalls]
  · rintro hneeds rfl
    cases hquery : op.isQuery with
    | true =>
      obtain ⟨buffer, parse, hreq⟩ := Operation.request_of_isQuery hneeds hquery
      simp [run, hreq, exchange, transmit, newCalls]
    | false =>
      obtain ⟨buffer, v, hreq⟩ := Operation.request_of_not_isQuery hneeds hquery
      simp [run, hreq, transmit, newCalls]
  · rintro hneeds u rfl hquery hsend
    obtain ⟨buffer, parse, hreq⟩ := Operation.request_of_isQuery hneeds hquery
    have hrefused : Driver.sendOnly u = true := hsend
    simp [run, hreq, exchange, hrefused, newCalls]
  · rintro hneeds u rfl hsend e he
    cases hquery : op.isQuery with
    | true =>
      obtain ⟨buffer, parse, hreq⟩ := Operation.request_of_isQuery hneeds hquery
      have hallowed : Driver.sendOnly u = false := hsend hquery
      simp [run, hreq, exchange, hallowed, transmit_scripted, he, newCalls]
    | false =>
      obtain ⟨buffer, v, hreq⟩ := Operation.request_of_not_isQuery hneeds hquery
      simp [run, hreq, transmit_scripted, he, newCalls]
  · rintro hneeds u rfl hquery hwrite
    obtain ⟨buffer, v, hreq⟩ := Operation.request_of_not_isQuery hneeds hquery
    refine ⟨buffer, v, hreq, ?_⟩
    simp [run, hreq, transmit_scripted, hwrite, newCalls]
  · rintro hneeds u rfl hquery hsend hwrite
    obtain ⟨buffer, parse, hreq⟩ := Operation.request_of_isQuery hneeds hquery
    have hallowed : Driver.sendOnly u = false := hsend
    refine ⟨buffer, parse, hreq, ?_⟩
    simp only [run, hreq, exchange, hallowed, transmit_scripted, hwrite, receive_scripted,
      Option.any_some]
    cases u.replies.headD (.error .readTimedOut) <;> simp [newCalls, Except.bind]

/-- What is sent is the buffer of the operation's request. -/
theorem request_of_send {op : Operation} {c : Client ScriptedUnit} {buffer : Text} {ms : Nat}
    (h : .send buffer ms ∈ newCalls c.driver (c.perform op).2.driver) :
    (∃ v, op.request = .command buffer v) ∨ ∃ parse, op.request = .query buffer parse := by
  obtain ⟨driver, readTimeout⟩ := c
  cases driver with
  | none => simp [newCalls] at h
  | some u =>
    rw [perform] at h
    cases hreq : op.request with
    | refused e => simp [run, hreq, newCalls] at h
    | done v => simp [run, hreq, newCalls] at h
    | command sent v =>
      simp only [run, hreq, transmit_scripted] at h
      cases hwrite : u.writeFailure <;> simp [hwrite, newCalls] at h <;>
        exact .inl ⟨v, by rw [h.1]⟩
    | query sent parse =>
      simp only [run, hreq, exchange, transmit_scripted, Option.any_some] at h
      cases hsend : Driver.sendOnly u with
      | true => simp [hsend, newCalls] at h
      | false =>
        cases hwrite : u.writeFailure with
        | some e =>
          simp [hsend, hwrite, newCalls] at h
          exact .inr ⟨parse, by rw [h.1]⟩
        | none =>
          simp only [hsend, hwrite, Bool.false_eq_true, if_false] at h
          rw [receive_scripted] at h
          generalize u.replies.headD (.error .readTimedOut) = reply at h
          cases reply <;> simp [newCalls] at h <;> exact .inr ⟨parse, by rw [h.1]⟩

end Client

end BatteryBench
