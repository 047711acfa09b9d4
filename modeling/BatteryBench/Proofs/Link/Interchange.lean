import BatteryBench.Link.Basic
import BatteryBench.Proofs.Client.Queries
import BatteryBench.Proofs.Encoding.Utf8
import BatteryBench.Proofs.Link.Lines

/-!
# One conversation over any transport

A unit is asked over UDP, over TCP or over a bus, and the answers are the same. The transports do
not even pass on the same line: a stream removes the line end and a datagram keeps it. But a line
end is padding to whoever reads the reply, and being ASCII it can be cut off before the bytes are
decoded or after, whatever stands before it (`exists_padding_of_line`).

A link is *ready* for a question when it is open, nothing waits on it and the question fits
(`Link.Ready`). Three things are said of one ready link: a question reaches the unit
(`Link.Ready.write`), its reply is read (`Link.Ready.readLine_deliver`), and the link is then ready
for the next question. From them follows what one query gives (`Client.perform_of_ready`), and from
that a whole conversation (`Client.converse_of_ready`), in words that name no transport. Only what
reached the unit is framed by each transport in its own way (`Link.hear`).
-/

namespace BatteryBench

/-! ### Replies -/

/-- Whether bytes are one reply: no more than a read gives, and the last byte is a line feed and no
other one is. -/
def IsReply (bytes : Bytes) : Prop :=
  bytes.length ≤ maxRead ∧ ∃ line, bytes = line ++ [0x0a] ∧ (0x0a : UInt8) ∉ line

/-- **The line end that a stream removes is padding** behind the line. -/
theorem exists_padding_of_line (line : Bytes) :
    ∃ b, IsAllPadding b ∧
      Utf8.decode (line ++ [0x0a]) = Utf8.decode (dropReturn line) ++ b := by
  rw [Utf8.decode_concat (by decide), dropReturn]
  split
  · next hreturn =>
    refine ⟨['\r', '\n'], by decide, ?_⟩
    rw [← List.dropLast_append_getLast? 0x0d hreturn, Utf8.decode_concat (by decide),
      List.dropLast_concat, List.append_assoc]
    rfl
  · exact ⟨['\n'], by decide, rfl⟩

/-- An answer does not depend on whether the line end was removed. -/
theorem Operation.answer_dropReturn (op : Operation) (line : Bytes) :
    op.answer (Utf8.decode (dropReturn line)) = op.answer (Utf8.decode (line ++ [0x0a])) := by
  obtain ⟨b, hb, hline⟩ := exists_padding_of_line line
  rw [hline]
  exact (op.answer_padded isAllPadding_nil hb _).symm

/-- A stream on which one reply arrived gives its line, and nothing is left. -/
theorem InFlow.readLine_push {line : Bytes} (h : (0x0a : UInt8) ∉ line) :
    (({} : InFlow).push (line ++ [0x0a])).readLine = (.ok (Utf8.decode (dropReturn line)), {}) := by
  have hsplit : splitLine? (({} : InFlow).push (line ++ [0x0a])).pending = some (line, []) :=
    splitLine?_eq_some_iff.mpr ⟨rfl, h⟩
  obtain ⟨ahead, unread, hrest, hread⟩ := InFlow.readLine_of_splitLine? List.not_mem_nil hsplit
  obtain ⟨rfl, rfl⟩ := List.append_eq_nil_iff.mp hrest
  exact hread

/-! ### Conversations -/

/-- A conversation, as the operations with the replies to them, when the replies came in pieces. -/
def joined (exchanges : List (Operation × List Bytes)) : List (Operation × Bytes) :=
  exchanges.map fun e ↦ (e.1, e.2.flatten)

theorem joined_whole (exchanges : List (Operation × Bytes)) :
    joined (exchanges.map fun e ↦ (e.1, [e.2])) = exchanges := by
  induction exchanges with
  | nil => rfl
  | cons e exchanges ih =>
    rw [List.map_cons, joined, List.map_cons, List.flatten_singleton]
    exact congrArg (e :: ·) ih

/-- What the operations of a conversation give. -/
def answersOf (exchanges : List (Operation × Bytes)) :
    List ((op : Operation) × Outcome op.Result) :=
  exchanges.map fun e ↦ ⟨e.1, e.1.answer (Utf8.decode e.2)⟩

/-- What the operations of a conversation ask, in order. -/
def questionsOf (exchanges : List (Operation × Bytes)) : List Bytes :=
  exchanges.filterMap fun e ↦ e.1.question?.map Utf8.encode

theorem questionsOf_cons (e : Operation × Bytes) (exchanges : List (Operation × Bytes)) :
    questionsOf (e :: exchanges) =
      (e.1.question?.map Utf8.encode).toList ++ questionsOf exchanges := by
  rw [questionsOf, List.filterMap_cons]
  cases e.1.question?.map Utf8.encode <;> rfl

/-! ### Links that are ready for a question -/

/-- How many bytes a question takes at most, with its address on a bus. -/
def questionRoom : Nat := 160

namespace Link

/-- The bytes that the unit sends arrive, piece by piece. -/
def deliver (unit : IPv4) (pieces : List Bytes) (l : Link) : Link :=
  pieces.foldl (fun l bytes ↦ (l.unitSend unit bytes).2) l

/-- The link after a transmission has reached the unit: one datagram more, or so many bytes more,
and on a bus the address in front. -/
def hear (bytes : Bytes) : Link → Link
  | tcp l => tcp { l with received := l.received ++ bytes }
  | udp l => udp { l with received := l.received ++ [bytes] }
  | serial l =>
    serial { l with received := l.received ++ (Utf8.encode (addressMark l.id) ++ bytes) }
  | multicast l => multicast { l with received := l.received ++ [bytes] }

/-- The link after some transmissions have reached the unit. -/
def hearAll (transmissions : List Bytes) (l : Link) : Link :=
  transmissions.foldl (fun l bytes ↦ l.hear bytes) l

theorem hearAll_append (first second : List Bytes) (l : Link) :
    l.hearAll (first ++ second) = (l.hearAll first).hearAll second :=
  List.foldl_append

/-- **That a link is ready for a question**: it is open and leads to one unit, nothing waits on it,
and the question fits. -/
def Ready : Link → Prop
  | tcp l => l.connection = some {} ∧ questionRoom ≤ l.room
  | udp l => ∃ interface, l.socket = some { interface := interface, route := .unit }
  | serial l => l.isOpen = true ∧ l.flow = {} ∧ l.id < broadcastId ∧ questionRoom ≤ l.room
  | multicast _ => False

/-- Whether a link carries a reply in these pieces: a datagram is one piece. -/
def Carries (pieces : List Bytes) : Link → Prop
  | tcp _ | serial _ => True
  | udp _ | multicast _ => pieces.length = 1

variable {l : Link}

theorem Ready.hear (h : l.Ready) (bytes : Bytes) : (l.hear bytes).Ready := by cases l <;> exact h

theorem Ready.hearAll (h : l.Ready) (transmissions : List Bytes) :
    (l.hearAll transmissions).Ready := by
  induction transmissions generalizing l with
  | nil => exact h
  | cons bytes transmissions ih => exact ih (h.hear bytes)

theorem carries_hear {pieces : List Bytes} (h : l.Carries pieces) (bytes : Bytes) :
    (l.hear bytes).Carries pieces := by
  cases l <;> exact h

theorem carries_hearAll {pieces : List Bytes} (h : l.Carries pieces) (transmissions : List Bytes) :
    (l.hearAll transmissions).Carries pieces := by
  induction transmissions generalizing l with
  | nil => exact h
  | cons bytes transmissions ih => exact ih (carries_hear h bytes)

/-- Over TCP the unit hears one stream of bytes. -/
theorem hearAll_tcp (transmissions : List Bytes) (l : TcpLink) :
    (tcp l).hearAll transmissions =
      tcp { l with received := l.received ++ transmissions.flatten } := by
  induction transmissions generalizing l with
  | nil => simp [Link.hearAll]
  | cons bytes transmissions ih =>
    rw [List.flatten_cons, ← List.append_assoc]
    exact ih { l with received := l.received ++ bytes }

/-- Over UDP it hears datagrams. -/
theorem hearAll_udp (transmissions : List Bytes) (l : UdpLink) :
    (udp l).hearAll transmissions = udp { l with received := l.received ++ transmissions } := by
  induction transmissions generalizing l with
  | nil => simp [Link.hearAll]
  | cons bytes transmissions ih =>
    rw [← List.singleton_append, ← List.append_assoc]
    exact ih { l with received := l.received ++ [bytes] }

/-- On a bus it hears a stream of bytes in which every transmission is addressed. -/
theorem hearAll_serial (transmissions : List Bytes) (l : SerialLink) :
    (serial l).hearAll transmissions = serial { l with
      received := l.received ++
        transmissions.flatMap fun bytes ↦ Utf8.encode (addressMark l.id) ++ bytes } := by
  induction transmissions generalizing l with
  | nil => simp [Link.hearAll]
  | cons bytes transmissions ih =>
    rw [List.flatMap_cons, ← List.append_assoc]
    exact ih { l with received := l.received ++ (Utf8.encode (addressMark l.id) ++ bytes) }

/-- A ready link is no send-only one. -/
theorem Ready.sendOnly (h : l.Ready) : l.sendOnly = false := by
  cases l with
  | tcp l => rfl
  | udp l => rfl
  | serial l => exact decide_eq_false (UInt32.not_le.mpr h.2.2.1)
  | multicast l => exact h.elim

theorem length_addressMark_le {id : UInt32} (h : id < broadcastId) :
    (addressMark id).length ≤ 5 := by
  have hid : id.toNat < 10 ^ 3 := Nat.lt_trans (UInt32.lt_iff_toNat_lt.mp h) (by decide)
  have hdigits : (decimal id.toNat).length ≤ 3 := (length_decimal_le_iff (by decide)).mpr hid
  simp only [addressMark, List.length_cons, List.length_append, List.length_nil,
    show " ".toList = [' '] from rfl]
  omega

/-- **A question reaches the unit.** -/
theorem Ready.write (h : l.Ready) {question : Text} (hlength : question.length ≤ 32) :
    l.write (.ofBytes (Utf8.encode question)) = (.ok (), l.hear (Utf8.encode question)) := by
  have hbytes := Utf8.length_encode_le question
  cases l with
  | tcp l =>
    obtain ⟨connection, received, room⟩ := l
    obtain ⟨hconnection, hroom⟩ := h
    obtain rfl : connection = some {} := hconnection
    have hfits : ¬room < (Payload.ofBytes (Utf8.encode question)).size := by
      simp only [Payload.ofBytes, Payload.size, questionRoom] at hroom ⊢
      omega
    simp [Link.write, TcpLink.write, hfits, Link.hear, Payload.bytes_ofBytes]
  | udp l =>
    obtain ⟨interface, hsocket⟩ := h
    have hfits : ¬maxDatagram < (Payload.ofBytes (Utf8.encode question)).size := by
      simp only [Payload.ofBytes, Payload.size, maxDatagram]
      omega
    simp [Link.write, DatagramLink.write, hsocket, hfits, Link.hear, Payload.bytes_ofBytes]
  | serial l =>
    obtain ⟨isOpen, flow, received, id, room⟩ := l
    obtain ⟨hopen, hflow, hid, hroom⟩ := h
    obtain rfl : isOpen = true := hopen
    obtain rfl : flow = {} := hflow
    have hmark := Utf8.length_encode_le (addressMark id)
    have hdigits : (addressMark id).length ≤ 5 := length_addressMark_le hid
    have hfits : ¬room < Payload.size [(Utf8.encode (addressMark id), 1),
        (Utf8.encode question, 1)] := by
      simp only [Payload.size, questionRoom] at hroom ⊢
      omega
    simp [Link.write, SerialLink.write, Link.hear, SerialLink.frame, Payload.ofBytes, hfits,
      Payload.bytes]
  | multicast l => exact h.elim

theorem deliver_tcp {flow : InFlow} (hlive : flow.state = .live) (received : Bytes) (room : Nat)
    (unit : IPv4) (pieces : List Bytes) :
    (tcp ⟨some flow, received, room⟩).deliver unit pieces =
      tcp ⟨some (flow.push pieces.flatten), received, room⟩ := by
  induction pieces generalizing flow with
  | nil => simp [deliver, InFlow.push]
  | cons bytes pieces ih =>
    have hsend : ((tcp ⟨some flow, received, room⟩).unitSend unit bytes).2 =
        tcp ⟨some (flow.push bytes), received, room⟩ := by
      simp [unitSend, TcpLink.unitSend, hlive]
    have hrest : (tcp ⟨some (flow.push bytes), received, room⟩).deliver unit pieces =
        tcp ⟨some ((flow.push bytes).push pieces.flatten), received, room⟩ := ih hlive
    rw [← hsend] at hrest
    rw [List.flatten_cons, InFlow.push_append]
    exact hrest

theorem deliver_serial {l : SerialLink} (hlive : l.flow.state = .live) (unit : IPv4)
    (pieces : List Bytes) :
    (serial l).deliver unit pieces = serial { l with flow := l.flow.push pieces.flatten } := by
  induction pieces generalizing l with
  | nil => simp [deliver, InFlow.push]
  | cons bytes pieces ih =>
    have hsend : ((serial l).unitSend unit bytes).2 =
        serial { l with flow := l.flow.push bytes } := by
      simp [unitSend, SerialLink.unitSend, hlive]
    have hrest := ih (l := { l with flow := l.flow.push bytes }) hlive
    rw [← hsend] at hrest
    rw [List.flatten_cons, InFlow.push_append]
    exact hrest

/-- **The reply is read**, however it was cut on the way, and the link is as it was before. What is
read may or may not have a line end, and every answer is the same. -/
theorem Ready.readLine_deliver (h : l.Ready) (unit : IPv4) {pieces : List Bytes}
    (hreply : IsReply pieces.flatten) (hcarries : l.Carries pieces) :
    ∃ line, (l.deliver unit pieces).readLine = (.ok line, l) ∧
      ∀ op : Operation, op.answer line = op.answer (Utf8.decode pieces.flatten) := by
  obtain ⟨hlength, line, hline, hfeed⟩ := hreply
  cases l with
  | tcp l =>
    obtain ⟨connection, received, room⟩ := l
    obtain rfl : connection = some {} := h.1
    refine ⟨Utf8.decode (dropReturn line), ?_, fun op ↦ by rw [hline, op.answer_dropReturn]⟩
    rw [deliver_tcp rfl, hline]
    simp [Link.readLine, TcpLink.readLine, InFlow.readLine_push hfeed]
  | serial l =>
    obtain ⟨isOpen, flow, received, id, room⟩ := l
    obtain rfl : isOpen = true := h.1
    obtain rfl : flow = {} := h.2.1
    refine ⟨Utf8.decode (dropReturn line), ?_, fun op ↦ by rw [hline, op.answer_dropReturn]⟩
    rw [deliver_serial rfl, hline]
    simp [Link.readLine, SerialLink.readLine, InFlow.readLine_push hfeed]
  | udp l =>
    obtain ⟨socket, received⟩ := l
    obtain ⟨interface, hsocket⟩ := h
    obtain rfl : socket = some { interface := interface, route := .unit } := hsocket
    obtain ⟨reply, rfl⟩ := List.length_eq_one_iff.mp hcarries
    rw [List.flatten_singleton] at hlength ⊢
    refine ⟨Utf8.decode (reply.take maxRead), rfl, fun _ ↦ ?_⟩
    rw [List.take_of_length_le hlength]
  | multicast l => exact h.elim

end Link

/-! ### A unit that answers -/

/-- A link with a unit at its other end that answers the next transmission. -/
structure AnsweringLink where
  /-- The link. -/
  link : Link
  /-- The address of the unit. -/
  unit : IPv4
  /-- What the unit sends back for the next transmission, in pieces. -/
  answer : List Bytes := []

namespace AnsweringLink

/-- A transmission that succeeds is answered. -/
def send (text : Text) (ms : Nat) (a : AnsweringLink) : Outcome Unit × AnsweringLink :=
  match Driver.send text ms a.link with
  | (.ok (), l) => (.ok (), { a with link := l.deliver a.unit a.answer, answer := [] })
  | (.error e, l) => (.error e, { a with link := l })

/-- A line is read from the link. -/
def readLine (ms : Nat) (a : AnsweringLink) : Outcome Text × AnsweringLink :=
  ((Driver.readLine ms a.link).1, { a with link := (Driver.readLine ms a.link).2 })

instance : Driver AnsweringLink where
  sendOnly a := a.link.sendOnly
  deviceId a := a.link.deviceId
  selectDevice id a := { a with link := a.link.selectDevice id }
  send := send
  readLine := readLine

end AnsweringLink

namespace Client

/-- The client while the unit has something to answer. -/
def awaiting (pieces : List Bytes) (c : Client AnsweringLink) : Client AnsweringLink :=
  { c with driver := c.driver.map fun a ↦ { a with answer := pieces } }

/-- What a conversation gives, and the client after it: each operation with what the unit answers if
it is asked by that operation. -/
def converse : List (Operation × List Bytes) → Client AnsweringLink →
    List ((op : Operation) × Outcome op.Result) × Client AnsweringLink
  | [], c => ([], c)
  | (op, pieces) :: rest, c =>
    let (result, c) := (c.awaiting pieces).perform op
    let (results, c) := converse rest (c.awaiting [])
    (⟨op, result⟩ :: results, c)

variable {l : Link} {unit : IPv4} {ms : Nat}

/-- **A question over a ready link** is exchanged for a line of its reply. -/
theorem exchange_of_ready (h : l.Ready) {question : Text} (hlength : question.length ≤ 32)
    {pieces : List Bytes} (hreply : IsReply pieces.flatten) (hcarries : l.Carries pieces) :
    ∃ line, (⟨some ⟨l, unit, pieces⟩, ms⟩ : Client AnsweringLink).exchange question =
        (.ok line, ⟨some ⟨l.hear (Utf8.encode question), unit, []⟩, ms⟩) ∧
      ∀ op : Operation, op.answer line = op.answer (Utf8.decode pieces.flatten) := by
  obtain ⟨line, hread, hanswer⟩ := (h.hear (Utf8.encode question)).readLine_deliver unit hreply
    (Link.carries_hear hcarries _)
  refine ⟨line, ?_, hanswer⟩
  have hsendOnly : Driver.sendOnly (⟨l, unit, pieces⟩ : AnsweringLink) = false := h.sendOnly
  have htransmit : (⟨some ⟨l, unit, pieces⟩, ms⟩ : Client AnsweringLink).transmit question =
      (.ok (), ⟨some ⟨(l.hear (Utf8.encode question)).deliver unit pieces, unit, []⟩, ms⟩) := by
    simp only [transmit, Driver.send, AnsweringLink.send, h.write hlength]
  rw [exchange, Option.any_some, hsendOnly, htransmit]
  show ((Link.readLine _).1, Client.mk (some (AnsweringLink.mk (Link.readLine _).2 unit [])) ms) = _
  rw [hread]

/-- **One query over a ready link** gives the answer to its reply, and the unit has heard its
question, if it has one. -/
theorem perform_of_ready (h : l.Ready) {op : Operation} (hquery : op.isQuery)
    {pieces : List Bytes} (hreply : IsReply pieces.flatten) (hcarries : l.Carries pieces) :
    ∃ left, (⟨some ⟨l, unit, pieces⟩, ms⟩ : Client AnsweringLink).perform op =
      (op.answer (Utf8.decode pieces.flatten),
        ⟨some ⟨l.hearAll (op.question?.map Utf8.encode).toList, unit, left⟩, ms⟩) := by
  cases hquestion : op.question? with
  | none =>
    refine ⟨pieces, ?_⟩
    rw [perform_of_question?_eq_none hquery hquestion (Utf8.decode pieces.flatten)]
    rfl
  | some question =>
    obtain ⟨line, hexchange, hanswer⟩ := exchange_of_ready h
      (Operation.length_question?_le hquestion) hreply hcarries
    refine ⟨[], ?_⟩
    rw [perform_of_question? hquestion, hexchange, ← hanswer op]
    rfl

/-- **A conversation over a ready link** gives the answers to the replies, and the unit has heard
the questions. -/
theorem converse_of_ready (h : l.Ready) {exchanges : List (Operation × List Bytes)}
    (hexchanges : ∀ e ∈ joined exchanges, e.1.isQuery ∧ IsReply e.2)
    (hcarries : ∀ e ∈ exchanges, l.Carries e.2) :
    (⟨some ⟨l, unit, []⟩, ms⟩ : Client AnsweringLink).converse exchanges =
      (answersOf (joined exchanges),
        ⟨some ⟨l.hearAll (questionsOf (joined exchanges)), unit, []⟩, ms⟩) := by
  induction exchanges generalizing l with
  | nil => rfl
  | cons e exchanges ih =>
    obtain ⟨op, pieces⟩ := e
    obtain ⟨⟨hquery, hreply⟩, hrest⟩ := List.forall_mem_cons.mp hexchanges
    obtain ⟨hfirst, hlater⟩ := List.forall_mem_cons.mp hcarries
    obtain ⟨left, hperform⟩ :
        ∃ left, (⟨some ⟨l, unit, pieces⟩, ms⟩ : Client AnsweringLink).perform op = _ :=
      perform_of_ready h hquery hreply hfirst
    let heard := l.hearAll (op.question?.map Utf8.encode).toList
    have hafter := ih (l := heard) (h.hearAll _) hrest fun e he ↦
      Link.carries_hearAll (hlater e he) _
    have hcons : (⟨some ⟨l, unit, []⟩, ms⟩ : Client AnsweringLink).converse
        ((op, pieces) :: exchanges) =
          let first := (⟨some ⟨l, unit, pieces⟩, ms⟩ : Client AnsweringLink).perform op
          let later := (first.2.awaiting []).converse exchanges
          (⟨op, first.1⟩ :: later.1, later.2) := rfl
    have hawaiting : (⟨some ⟨heard, unit, left⟩, ms⟩ : Client AnsweringLink).awaiting [] =
        ⟨some ⟨heard, unit, []⟩, ms⟩ := rfl
    have hjoined : joined ((op, pieces) :: exchanges) = (op, pieces.flatten) :: joined exchanges :=
      rfl
    rw [hcons, hperform]
    dsimp only
    rw [hawaiting, hafter, hjoined, questionsOf_cons, Link.hearAll_append]
    rfl

end Client

/-- **A conversation is the same over any transport.** A client asks over UDP, over TCP and on a
bus, each link ready for a question, and every query is answered by one reply, over UDP as one
datagram and otherwise in any pieces. Then all three give the same results, and the unit hears the
same questions: each as one datagram, in one stream, and in one stream with the address in front of
each. -/
theorem converse_over_transports {u : UdpLink} {t : TcpLink} {s : SerialLink}
    (hu : (Link.udp u).Ready) (ht : (Link.tcp t).Ready) (hs : (Link.serial s).Ready)
    (unit : IPv4) (ms : Nat) {exchanges : List (Operation × Bytes)}
    (hexchanges : ∀ e ∈ exchanges, e.1.isQuery ∧ IsReply e.2)
    {overTcp onBus : List (Operation × List Bytes)}
    (htcp : joined overTcp = exchanges) (hbus : joined onBus = exchanges) :
    let client (l : Link) : Client AnsweringLink := ⟨some ⟨l, unit, []⟩, ms⟩
    let results := answersOf exchanges
    let questions := questionsOf exchanges
    (client (.udp u)).converse (exchanges.map fun e ↦ (e.1, [e.2])) =
      (results, client (.udp { u with received := u.received ++ questions })) ∧
    (client (.tcp t)).converse overTcp =
      (results, client (.tcp { t with received := t.received ++ questions.flatten })) ∧
    (client (.serial s)).converse onBus =
      (results, client (.serial { s with
        received := s.received ++
          questions.flatMap fun bytes ↦ Utf8.encode (addressMark s.id) ++ bytes })) := by
  intro client results questions
  refine ⟨?_, ?_, ?_⟩
  · have hwhole := joined_whole exchanges
    rw [Client.converse_of_ready hu (by rwa [hwhole]), hwhole, Link.hearAll_udp]
    intro e he
    obtain ⟨e', -, rfl⟩ := List.mem_map.mp he
    rfl
  · rw [Client.converse_of_ready ht (by rwa [htcp]) fun _ _ ↦ trivial, htcp, Link.hearAll_tcp]
  · rw [Client.converse_of_ready hs (by rwa [hbus]) fun _ _ ↦ trivial, hbus, Link.hearAll_serial]

/-- A byte that is no UTF-8 and a carriage return inside a quoted string, and a line end that is cut
in two. -/
theorem converse_over_transports_malformed :
    let net := Network.bench ⟨127, 0, 0, 2⟩ ['P']
    let unit : IPv4 := ⟨127, 0, 0, 2⟩
    let u : UdpLink := { socket := some { interface := .unspecified, route := .unit } }
    let t : TcpLink := { connection := some {}, room := net.connectionRoom }
    let s : SerialLink := { isOpen := true, id := 7, room := net.serialRoom }
    let client (l : Link) : Client AnsweringLink := ⟨some ⟨l, unit, []⟩, 150⟩
    let exchanges : List (Operation × Bytes) :=
      [(.getCalibrationDate, [0x22, 0xff, 0x0d, 0x22, 0x0d, 0x0a]), (.getErrorCount, [0x37, 0x0a])]
    let pieces : List (Operation × List Bytes) :=
      [(.getCalibrationDate, [[0x22, 0xff], [0x0d, 0x22, 0x0d], [0x0a]]),
        (.getErrorCount, [[0x37], [], [0x0a]])]
    let results : List ((op : Operation) × Outcome op.Result) :=
      [⟨.getCalibrationDate, .ok ['\uFFFD', '\r']⟩, ⟨.getErrorCount, .ok (7 : Int32)⟩]
    (Link.closed .udp).connect net none "127.0.0.2" = (.ok (), .udp u) ∧
    (Link.closed .tcp).connect net none "127.0.0.2" = (.ok (), .tcp t) ∧
    ((Link.closed .serial).selectDevice 7).connect net none ['P'] = (.ok (), .serial s) ∧
    ((client (.udp u)).converse (exchanges.map fun e ↦ (e.1, [e.2]))).1 = results ∧
    ((client (.tcp t)).converse pieces).1 = results ∧
    ((client (.serial s)).converse pieces).1 = results ∧
    ((client (.serial s)).converse pieces).2 = client (.serial { s with
      received := Utf8.encode "@7 CAL:DATE?\r\n@7 SYST:ERR:COUN?\r\n" }) := by
  intro net unit u t s client exchanges pieces results
  have hu : (Link.udp u).Ready := ⟨.unspecified, rfl⟩
  have ht : (Link.tcp t).Ready := ⟨rfl, by decide⟩
  have hs : (Link.serial s).Ready := ⟨rfl, rfl, by decide, by decide⟩
  have hexchanges : ∀ e ∈ exchanges, e.1.isQuery ∧ IsReply e.2 := by
    refine List.forall_mem_cons.mpr ⟨⟨rfl, by decide, ?_⟩, List.forall_mem_singleton.mpr
      ⟨rfl, by decide, [0x37], rfl, by decide⟩⟩
    exact ⟨[0x22, 0xff, 0x0d, 0x22, 0x0d], rfl, by decide⟩
  have hpieces : joined pieces = exchanges := rfl
  obtain ⟨hudp, htcp, hbus⟩ :=
    converse_over_transports hu ht hs unit 150 hexchanges hpieces hpieces
  have hheard : ((questionsOf exchanges).flatMap fun bytes ↦
      Utf8.encode (addressMark s.id) ++ bytes) =
      Utf8.encode "@7 CAL:DATE?\r\n@7 SYST:ERR:COUN?\r\n" := by decide
  refine ⟨by decide, by decide, by decide, ?_, ?_, ?_, ?_⟩
  · rw [hudp]
    rfl
  · rw [htcp]
    rfl
  · rw [hbus]
    rfl
  · rw [hbus, hheard]
    rfl

end BatteryBench
