import BatteryBench.Proofs.Link.Reading

/-!
# Reading from a send-only link

A link is send-only while replies could not be attributed to one unit: a multicast link always, and
a bus while every unit on it is addressed. It is the client that asks nothing then. The link itself
does not look at it: a read gives the next line that waits, if one does, and fails for the link's
own reasons otherwise (`readLine_of_steps`). So a line that came in while one unit was addressed can
still be read after all of them are.

What waits is said of the bytes that have arrived, as in `BatteryBench.Proofs.Link.Lines`. That a
read finds it rests on one fact about every link that can come about: what an earlier read took
without returning it holds no line end (`Link.HeldPartial.steps`).
-/

namespace BatteryBench

/-- The first of some lines, or a failure if there is none. -/
def firstOr (idle : Failure) (lines : List Text) : Outcome Text :=
  match lines.head? with
  | some line => .ok line
  | none => .error idle

theorem firstOr_eq_ok_iff {idle : Failure} {lines : List Text} {line : Text} :
    firstOr idle lines = .ok line ↔ lines.head? = some line := by
  rw [firstOr]
  cases lines.head? <;> simp

/-! ### What is held -/

namespace InFlow

/-- A reader that holds the beginning of a line delivers what is pending. -/
theorem delivers_pending {f : InFlow} (h : (0x0a : UInt8) ∉ f.held) : f.Delivers f.pending [] :=
  ⟨fun _ ↦ rfl, h⟩

theorem held_readLine {f : InFlow} (h : (0x0a : UInt8) ∉ f.held) :
    (0x0a : UInt8) ∉ f.readLine.2.held :=
  (delivers_pending h).readLine_snd.held

/-- A read gives the first pending line. -/
theorem readLine_fst_of_held {f : InFlow} (h : (0x0a : UInt8) ∉ f.held) :
    f.readLine.1 = firstOr f.state.lateness (completeLines f.pending) := by
  have hfirst := (delivers_pending h).readLine_fst
  rw [lineAt, List.length_nil, ← List.head?_eq_getElem?] at hfirst
  cases hhead : (completeLines f.pending).head? <;> rw [hfirst, firstOr, hhead]

end InFlow

/-- A connection that is made starts with nothing held. -/
theorem TcpLink.connection_connect (net : Network) (address : Text) (limit : UInt64)
    (l : TcpLink) :
    (l.connect net address limit).2.connection = l.connection ∨
      (l.connect net address limit).2.connection = some {} := by
  rw [connect]
  split
  · exact .inl rfl
  · split
    · exact .inl rfl
    · split
      · exact .inr rfl
      · exact .inl rfl
      · exact .inl rfl
      · exact .inl rfl

theorem TcpLink.connection_write (p : Payload) (l : TcpLink) :
    (l.write p).2.connection = l.connection := by
  rw [write]
  split
  · rfl
  · split
    · rfl
    · split <;> rfl

theorem TcpLink.connection_readLine (l : TcpLink) :
    l.readLine.2.connection = l.connection.map fun f ↦ f.readLine.2 := by
  rw [readLine]
  split
  · next hc => rw [hc]; rfl
  · next f hc => rw [hc]; rfl

theorem TcpLink.connection_unitSend (bytes : Bytes) (l : TcpLink) :
    (l.unitSend bytes).2.connection = l.connection ∨
      (l.unitSend bytes).2.connection = l.connection.map fun f ↦ f.push bytes := by
  rw [unitSend]
  split
  · next f hc =>
    split
    · exact .inr (by rw [hc]; rfl)
    · exact .inl rfl
  · exact .inl rfl

theorem TcpLink.connection_unitReceive (l : TcpLink) :
    l.unitReceive.2.connection = l.connection := by
  rw [unitReceive]
  split <;> rfl

theorem TcpLink.held_turn (state : StreamState) (f : InFlow) : (turn state f).held = f.held := by
  rw [turn]
  split <;> rfl

/-- A port that is opened has a reader that holds nothing. -/
theorem SerialLink.flow_connect (net : Network) (port : Text) (l : SerialLink) :
    (l.connect net port).2.flow = l.flow ∨ (l.connect net port).2.flow = l.flow.anew := by
  rw [connect]
  split
  · exact .inl rfl
  · split
    · exact .inl rfl
    · split
      · exact .inl rfl
      · exact .inr rfl

theorem SerialLink.flow_write (p : Payload) (l : SerialLink) : (l.write p).2.flow = l.flow := by
  rw [write]
  split
  · rfl
  · split
    · rfl
    · split <;> rfl

theorem SerialLink.flow_readLine (l : SerialLink) :
    l.readLine.2.flow = l.flow ∨ l.readLine.2.flow = l.flow.readLine.2 := by
  rw [readLine]
  split
  · exact .inl rfl
  · exact .inr rfl

theorem SerialLink.held_unitSend (bytes : Bytes) (l : SerialLink) :
    (l.unitSend bytes).2.flow.held = l.flow.held := by
  rw [unitSend]
  split <;> rfl

theorem SerialLink.flow_unitReceive (l : SerialLink) : l.unitReceive.2.flow = l.flow := by
  rw [unitReceive]
  split <;> rfl

/-- Numbers past the one for all units are stored as that one. -/
theorem SerialLink.toNat_id_selectDevice (id : UInt32) (l : SerialLink) :
    (l.selectDevice id).id.toNat = min id.toNat 256 := by
  rw [selectDevice]
  split
  · next h =>
    have hlt : 256 < id.toNat := UInt32.lt_iff_toNat_lt.mp h
    exact (Nat.min_eq_right (Nat.le_of_lt hlt)).symm
  · next h =>
    have hle : id.toNat ≤ 256 := Nat.le_of_not_lt fun hlt ↦ h (UInt32.lt_iff_toNat_lt.mpr hlt)
    exact (Nat.min_eq_left hle).symm

namespace Link

variable (net : Network)

/-- **That what is held is the beginning of a line**, where lines come out of a stream. -/
def HeldPartial : Link → Prop
  | tcp l => ∀ f, l.connection = some f → (0x0a : UInt8) ∉ f.held
  | serial l => (0x0a : UInt8) ∉ l.flow.held
  | udp _ | multicast _ => True

theorem heldPartial_closed (kind : Transport) : (closed kind).HeldPartial := by
  cases kind with
  | tcp => exact nofun
  | serial => exact List.not_mem_nil
  | udp => trivial
  | multicast => trivial

/-- A step of a connection keeps what is held, goes on with it, or starts anew. -/
theorem HeldPartial.step_tcp {l : TcpLink} (h : (tcp l).HeldPartial) (t : LinkStep) :
    ((tcp l).step net t).2.HeldPartial := by
  cases t with
  | connect interface address limit =>
    intro f hf
    rcases l.connection_connect net address limit with hc | hc
    · exact h f (hc.symm.trans hf)
    · obtain rfl : {} = f := Option.some.inj (hc.symm.trans hf)
      exact List.not_mem_nil
  | close => exact nofun
  | write p => exact fun f hf ↦ h f ((l.connection_write p).symm.trans hf)
  | read =>
    intro f hf
    obtain ⟨g, hg, rfl⟩ := Option.map_eq_some_iff.mp (l.connection_readLine.symm.trans hf)
    exact InFlow.held_readLine (h g hg)
  | unitSend source p =>
    intro f hf
    rcases l.connection_unitSend p.bytes with hc | hc
    · exact h f (hc.symm.trans hf)
    · obtain ⟨g, hg, rfl⟩ := Option.map_eq_some_iff.mp (hc.symm.trans hf)
      exact h g hg
  | unitReceive => exact fun f hf ↦ h f (l.connection_unitReceive.symm.trans hf)
  | unitFinish =>
    intro f hf
    obtain ⟨g, hg, rfl⟩ := Option.map_eq_some_iff.mp hf
    rw [TcpLink.held_turn]
    exact h g hg
  | unitReset =>
    intro f hf
    obtain ⟨g, hg, rfl⟩ := Option.map_eq_some_iff.mp hf
    rw [TcpLink.held_turn]
    exact h g hg
  | isOpen | localAddress | readFrom | selectDevice _ | device => exact h

/-- So does a step of a bus. -/
theorem HeldPartial.step_serial {l : SerialLink} (h : (serial l).HeldPartial) (t : LinkStep) :
    ((serial l).step net t).2.HeldPartial := by
  have hflow : ∀ {l' : SerialLink}, l'.flow = l.flow → (serial l').HeldPartial := by
    intro l' hl'
    rw [HeldPartial, hl']
    exact h
  cases t with
  | connect interface address limit =>
    rcases l.flow_connect net address with hc | hc
    · exact hflow hc
    · show (0x0a : UInt8) ∉ (l.connect net address).2.flow.held
      rw [hc]
      exact List.not_mem_nil
  | write p => exact hflow (l.flow_write p)
  | read =>
    rcases l.flow_readLine with hc | hc
    · exact hflow hc
    · show (0x0a : UInt8) ∉ l.readLine.2.flow.held
      rw [hc]
      exact InFlow.held_readLine h
  | unitSend source p =>
    show (0x0a : UInt8) ∉ (l.unitSend p.bytes).2.flow.held
    rw [l.held_unitSend]
    exact h
  | unitReceive => exact hflow l.flow_unitReceive
  | close => exact List.not_mem_nil
  | isOpen | localAddress | readFrom | selectDevice _ | device | unitFinish | unitReset =>
    exact h

/-- **No step makes what is held a whole line.** -/
theorem HeldPartial.step {l : Link} (h : l.HeldPartial) (t : LinkStep) :
    (l.step net t).2.HeldPartial := by
  cases l with
  | tcp l => exact h.step_tcp net t
  | serial l => exact h.step_serial net t
  | udp l => cases t <;> trivial
  | multicast l => cases t <;> trivial

theorem HeldPartial.steps {l : Link} (h : l.HeldPartial) (ts : List LinkStep) :
    (l.steps net ts).2.HeldPartial := by
  induction ts generalizing l with
  | nil => exact h
  | cons t ts ih => exact ih (h.step net t)

/-! ### What a read gives -/

/-- The lines or datagrams that wait on an open link: they have arrived, no read has returned them,
and they did not go with an earlier reader. -/
def waitingLines : Link → List Text
  | tcp l => (l.connection.map fun f ↦ completeLines f.pending).getD []
  | serial l => if l.isOpen then completeLines l.flow.pending else []
  | udp l => (l.socket.map fun s ↦ s.inbox.map Datagram.text).getD []
  | multicast l => (l.socket.map fun s ↦ s.inbox.map Datagram.text).getD []

/-- Why a read gives nothing, where nothing waits. -/
def idleness : Link → Failure
  | tcp l => (l.connection.map fun f ↦ f.state.lateness).getD .notConnected
  | serial l => if l.isOpen then l.flow.state.lateness else .notConnected
  | udp l => if l.socket.isSome then .readTimedOut else .notConnected
  | multicast l => if l.socket.isSome then .readTimedOut else .notConnected

/-- A read is never refused. -/
theorem idleness_ne_receiveNotAllowed (l : Link) : l.idleness ≠ .receiveNotAllowed := by
  cases l with
  | tcp l =>
    rw [idleness]
    cases l.connection with
    | none => decide
    | some f => exact f.state.lateness_ne_receiveNotAllowed
  | serial l =>
    rw [idleness]
    split
    · exact l.flow.state.lateness_ne_receiveNotAllowed
    · decide
  | udp l =>
    rw [idleness]
    split <;> decide
  | multicast l =>
    rw [idleness]
    split <;> decide

theorem readLine_datagram {casting : Casting} (l : DatagramLink casting) :
    l.readLine.1 = firstOr (if l.socket.isSome then .readTimedOut else .notConnected)
      ((l.socket.map fun s ↦ s.inbox.map Datagram.text).getD []) := by
  rw [DatagramLink.readLine, DatagramLink.take]
  cases l.socket with
  | none => rfl
  | some s => cases hinbox : s.inbox <;> simp [hinbox, firstOr, Except.map]

/-- **A read gives the next line that waits**, if one does, whichever unit is addressed. -/
theorem HeldPartial.readLine_fst {l : Link} (h : l.HeldPartial) :
    l.readLine.1 = firstOr l.idleness l.waitingLines := by
  cases l with
  | tcp l =>
    show l.readLine.1 = _
    rw [TcpLink.readLine, idleness, waitingLines]
    cases hc : l.connection with
    | none => rfl
    | some f => exact InFlow.readLine_fst_of_held (h f hc)
  | serial l =>
    show l.readLine.1 = _
    rw [SerialLink.readLine, idleness, waitingLines]
    cases l.isOpen with
    | false => rfl
    | true => exact InFlow.readLine_fst_of_held h
  | udp l => exact readLine_datagram l
  | multicast l => exact readLine_datagram l

/-! ### Which links are send-only -/

/-- The number that is selected after a step, for the number selected before it. -/
def selectedAfter (id : UInt32) : LinkStep → UInt32
  | .selectDevice other => if broadcastId < other then broadcastId else other
  | _ => id

/-- Only a selection changes which unit is addressed, and only on a bus. -/
theorem deviceId_step (l : Link) (t : LinkStep) :
    (l.step net t).2.deviceId =
      if l.transport = .serial then selectedAfter l.deviceId t else 0 := by
  cases l with
  | serial l =>
    show ((serial l).step net t).2.deviceId = selectedAfter l.id t
    cases t with
    | connect interface address limit =>
      show (l.connect net address).2.id = l.id
      rw [SerialLink.connect]
      split_ifs <;> rfl
    | write p =>
      show (l.write p).2.id = l.id
      rw [SerialLink.write]
      split_ifs <;> rfl
    | read =>
      show l.readLine.2.id = l.id
      rw [SerialLink.readLine]
      split_ifs <;> rfl
    | unitSend source p =>
      show (l.unitSend p.bytes).2.id = l.id
      rw [SerialLink.unitSend]
      split_ifs <;> rfl
    | unitReceive =>
      show l.unitReceive.2.id = l.id
      rw [SerialLink.unitReceive]
      split <;> rfl
    | _ => rfl
  | tcp l => cases t <;> rfl
  | udp l => cases t <;> rfl
  | multicast l => cases t <;> rfl

theorem selectedAfter_le {id : UInt32} (h : id ≤ broadcastId) (t : LinkStep) :
    selectedAfter id t ≤ broadcastId := by
  cases t with
  | selectDevice other =>
    rw [selectedAfter]
    split
    · exact UInt32.le_refl _
    · next hle => exact UInt32.not_lt.mp hle
  | _ => exact h

theorem deviceId_steps_le {l : Link} (h : l.deviceId ≤ broadcastId) (ts : List LinkStep) :
    (l.steps net ts).2.deviceId ≤ broadcastId := by
  induction ts generalizing l with
  | nil => exact h
  | cons t ts ih =>
    have hstep : (l.step net t).2.deviceId ≤ broadcastId := by
      rw [deviceId_step]
      split
      · exact selectedAfter_le h t
      · decide
    exact ih hstep

/-- A link is send-only to the group of all units, and on a bus while all units are addressed. -/
theorem sendOnly_iff {l : Link} (h : l.deviceId ≤ broadcastId) :
    l.sendOnly = true ↔
      l.transport = .multicast ∨ l.transport = .serial ∧ l.deviceId = broadcastId := by
  cases l with
  | serial l =>
    have hle : l.id ≤ broadcastId := h
    simp only [sendOnly, SerialLink.sendOnly, transport, deviceId, decide_eq_true_eq, reduceCtorEq,
      false_or, true_and]
    exact ⟨fun hge ↦ UInt32.le_antisymm hle hge, fun heq ↦ heq ▸ UInt32.le_refl _⟩
  | tcp l => simp [sendOnly, transport]
  | udp l => simp [sendOnly, transport]
  | multicast l => simp [sendOnly, transport]

/-- Addressing another unit changes nothing that a read looks at. -/
theorem readLine_selectDevice (id : UInt32) (l : Link) :
    (l.selectDevice id).readLine.1 = l.readLine.1 := by
  cases l with
  | serial l =>
    obtain ⟨isOpen, flow, received, selected, room⟩ := l
    cases isOpen <;> rfl
  | tcp l => rfl
  | udp l => rfl
  | multicast l => rfl

end Link

/-- **What a read gives does not depend on whether the link is send-only.** After any steps of
either end, over every transport, a link is send-only exactly if it leads to the group of all units
or all units of a bus are addressed; a read gives the next line that waits if and only if one does,
is never refused, and gives the same whichever unit is addressed. -/
theorem readLine_of_steps (net : Network) (kind : Transport) (run : List LinkStep) :
    let l := ((Link.closed kind).steps net run).2
    (l.sendOnly = true ↔ kind = .multicast ∨ kind = .serial ∧ l.deviceId = 256) ∧
    (∀ line, l.readLine.1 = .ok line ↔ l.waitingLines.head? = some line) ∧
    l.readLine.1 ≠ .error .receiveNotAllowed ∧
    ∀ id, (l.selectDevice id).readLine.1 = l.readLine.1 := by
  intro l
  have hheld : l.HeldPartial := (Link.heldPartial_closed kind).steps net run
  have hkind : l.transport = kind := by
    rw [Link.transport_steps]
    cases kind <;> rfl
  have hid : l.deviceId ≤ broadcastId := by
    refine Link.deviceId_steps_le net ?_ run
    cases kind <;> decide
  refine ⟨?_, fun line ↦ ?_, ?_, fun id ↦ Link.readLine_selectDevice id l⟩
  · rw [Link.sendOnly_iff hid, hkind]
    rfl
  · rw [hheld.readLine_fst, firstOr_eq_ok_iff]
  · rw [hheld.readLine_fst, firstOr]
    split
    · exact nofun
    · exact fun heq ↦ l.idleness_ne_receiveNotAllowed (Except.error.inj heq)

/-- A line that came in while one unit was addressed is read after all of them are; so is a datagram
from the group. -/
theorem line_read_from_sendOnly :
    let net := Network.bench ⟨127, 0, 0, 2⟩ ['P']
    let bus := ((Link.closed .serial).steps net [.connect none ['P'],
      .unitSend ⟨127, 0, 0, 2⟩ (.ofBytes [0x78, 0x0a]), .selectDevice 256]).2
    let group := ((Link.closed .multicast).steps net [.connect none "127.0.0.1",
      .unitSend ⟨127, 0, 0, 2⟩ (.ofBytes [0x78])]).2
    bus.sendOnly = true ∧ bus.readLine.1 = .ok ['x'] ∧
      group.sendOnly = true ∧ group.readLine.1 = .ok ['x'] := by
  decide

end BatteryBench
