import BatteryBench.Proofs.Encoding.Utf8
import BatteryBench.Proofs.Link.Opening
import Mathlib.Data.List.TakeDrop

/-!
# Datagrams in order

Between two ends that lose nothing, a link over datagrams is two queues: what the unit sends waits
to be read, and what is written waits to be taken by the unit. Each is put in at one end and taken
out whole at the other (`Passes`), so what has been taken shows the first of what was put in and the
rest still waits.

`Link.Conveys` says both of a link. One step keeps it (`Link.Conveys.step`) unless it closes the
link, and so does a run (`Link.Conveys.steps`). A run is any steps of either end: which reads ask
for the source, and what fails in between, makes no difference to what waits.
-/

namespace BatteryBench

/-! ### Queues -/

/-- That items were put into a queue, that those taken from it were seen under a view, and that the
others wait in it. -/
def Passes {α β : Type} (view : α → β) (put : List α) (seen : List β) (queue : List α) : Prop :=
  ∃ out, put = out ++ queue ∧ seen = out.map view

namespace Passes

variable {α β : Type} {view : α → β} {put queue : List α} {seen : List β}

/-- A queue that nothing was taken from. -/
theorem start (queue : List α) : Passes view queue [] queue := ⟨[], rfl, rfl⟩

theorem push (h : Passes view put seen queue) (a : α) :
    Passes view (put ++ [a]) seen (queue ++ [a]) := by
  obtain ⟨out, rfl, rfl⟩ := h
  exact ⟨out, List.append_assoc _ _ _, rfl⟩

theorem pop {a : α} (h : Passes view put seen (a :: queue)) :
    Passes view put (seen ++ [view a]) queue := by
  obtain ⟨out, rfl, rfl⟩ := h
  exact ⟨out ++ [a], by simp, by simp⟩

/-- What was seen are the first items, in order. -/
theorem isPrefix (h : Passes view put seen queue) : seen <+: put.map view := by
  obtain ⟨out, rfl, rfl⟩ := h
  exact ⟨queue.map view, List.map_append.symm⟩

/-- What waits are the others, in order. -/
theorem queue_eq (h : Passes view put seen queue) : queue = put.drop seen.length := by
  obtain ⟨out, rfl, rfl⟩ := h
  rw [List.length_map, List.drop_left]

end Passes

/-! ### What a run puts in and what it shows -/

/-- The datagram that the unit sends by a step, if it does. -/
def LinkStep.datagram? : LinkStep → Option Datagram
  | .unitSend source p => some ⟨source, p.bytes⟩
  | _ => none

/-- The text that a step gave the host, with its source or without. -/
def LinkAnswer.text? : LinkAnswer → Option Text
  | .line r => r.toOption
  | .addressed r => r.toOption.map AttributedLine.line
  | _ => none

/-- The text that a step gave the unit. -/
def LinkAnswer.taken? : LinkAnswer → Option Text
  | .received text => text
  | _ => none

/-- The bytes that a step wrote, if that succeeded. -/
def LinkStep.written? : LinkStep → LinkAnswer → Option Bytes
  | .write p, .outcome (.ok _) => some p.bytes
  | _, _ => none

theorem LinkAnswer.text?_line (r : Outcome Datagram) :
    (line (r.map Datagram.text)).text? = r.toOption.map Datagram.text := by
  cases r <;> rfl

theorem LinkAnswer.text?_addressed (r : Outcome Datagram) :
    (addressed (r.map fun d ↦ ⟨d.text, .v4 d.source⟩)).text? = r.toOption.map Datagram.text := by
  cases r <;> rfl

theorem filterMap_cons_eq_append {α β : Type} (f : α → Option β) (a : α) (as : List α) :
    (a :: as).filterMap f = (f a).toList ++ as.filterMap f := by
  cases h : f a <;> simp [h]

/-- The datagrams that the unit sends in a run. -/
def datagramsSent (ts : List LinkStep) : List Datagram := ts.filterMap LinkStep.datagram?

/-- The texts that the host read in a run with these answers. -/
def textsRead (answers : List LinkAnswer) : List Text := answers.filterMap LinkAnswer.text?

/-- The texts that the unit took in a run with these answers. -/
def textsTaken (answers : List LinkAnswer) : List Text := answers.filterMap LinkAnswer.taken?

/-- What was written with success in a run with these answers. -/
def payloadsWritten (ts : List LinkStep) (answers : List LinkAnswer) : List Bytes :=
  (ts.zip answers).filterMap fun step ↦ step.1.written? step.2

/-- The oldest of the datagrams that wait; without one there is nothing to read yet. -/
def oldest : List Datagram → Outcome Datagram
  | d :: _ => .ok d
  | [] => .error .readTimedOut

/-! ### Both queues of a link -/

namespace DatagramLink

variable {casting : Casting} {l : DatagramLink casting} {sent : List Datagram} {texts : List Text}
  {written : List Bytes} {taken : List Text}

/-- **The invariant of a link over datagrams**: it is open and leads to the unit, and all that was
sent and written has been read and taken in order, or waits. -/
def Conveys (sent : List Datagram) (texts : List Text) (written : List Bytes) (taken : List Text)
    (l : DatagramLink casting) : Prop :=
  (∃ s, l.socket = some s ∧ s.route = .unit ∧ Passes Datagram.text sent texts s.inbox) ∧
    Passes Utf8.decode written taken l.received

theorem Conveys.isOpen (h : l.Conveys sent texts written taken) : l.isOpen := by
  obtain ⟨⟨s, hs, -⟩, -⟩ := h
  rw [DatagramLink.isOpen, hs]
  rfl

/-- Reading takes the oldest datagram whole; without one it changes nothing. -/
theorem Conveys.take (h : l.Conveys sent texts written taken) :
    l.take.1 = oldest (sent.drop texts.length) ∧
      (sent.drop texts.length = [] → l.take.2 = l) ∧
      l.take.2.Conveys sent (texts ++ (l.take.1.toOption.map Datagram.text).toList) written
        taken := by
  obtain ⟨⟨s, hs, hroute, hin⟩, hout⟩ := h
  rw [← hin.queue_eq]
  cases hinbox : s.inbox with
  | nil =>
    have htake : l.take = (.error .readTimedOut, l) := by simp only [DatagramLink.take, hs, hinbox]
    rw [htake]
    refine ⟨rfl, fun _ ↦ rfl, ⟨s, hs, hroute, ?_⟩, hout⟩
    simpa [Except.toOption] using hin
  | cons d rest =>
    have htake : l.take = (.ok d, { l with socket := some { s with inbox := rest } }) := by
      simp only [DatagramLink.take, hs, hinbox]
    rw [hinbox] at hin
    rw [htake]
    exact ⟨rfl, fun hnil ↦ absurd hnil (List.cons_ne_nil d rest),
      ⟨{ s with inbox := rest }, rfl, hroute, hin.pop⟩, hout⟩

/-- A payload that fits into one datagram reaches the unit, and no other does. -/
theorem Conveys.write (h : l.Conveys sent texts written taken) (p : Payload) :
    l.write p = if p.size ≤ maxDatagram
      then (.ok (), { l with received := l.received ++ [p.bytes] })
      else (.error .sendFailed, l) := by
  obtain ⟨⟨s, hs, hroute, -⟩, -⟩ := h
  simp only [DatagramLink.write, hs, hroute]
  split_ifs with hlarge hfits hfits
  · omega
  · rfl
  · rfl
  · omega

theorem Conveys.unitSend (h : l.Conveys sent texts written taken) (d : Datagram) :
    (l.unitSend d).2.Conveys (sent ++ [d]) texts written taken := by
  obtain ⟨⟨s, hs, hroute, hin⟩, hout⟩ := h
  rw [DatagramLink.unitSend, hs]
  dsimp only
  rw [if_pos hroute]
  exact ⟨⟨{ s with inbox := s.inbox ++ [d] }, rfl, hroute, hin.push d⟩, hout⟩

/-- The unit takes what reached it first. -/
theorem Conveys.unitReceive (h : l.Conveys sent texts written taken) :
    l.unitReceive.2.Conveys sent texts written
      (taken ++ (l.unitReceive.1.map Utf8.decode).toList) := by
  obtain ⟨hin, hout⟩ := h
  rw [DatagramLink.unitReceive]
  cases hreceived : l.received with
  | nil =>
    refine ⟨hin, ?_⟩
    simpa using hout
  | cons bytes rest =>
    rw [hreceived] at hout
    exact ⟨hin, hout.pop⟩

end DatagramLink

namespace Link

variable (net : Network) {l : Link} {sent : List Datagram} {texts : List Text}
  {written : List Bytes} {taken : List Text}

/-- The invariant of a link over datagrams, to one unit or to all. -/
def Conveys (sent : List Datagram) (texts : List Text) (written : List Bytes) (taken : List Text) :
    Link → Prop
  | udp l => l.Conveys sent texts written taken
  | multicast l => l.Conveys sent texts written taken
  | tcp _ | serial _ => False

theorem Conveys.isOpen (h : l.Conveys sent texts written taken) : l.isOpen := by
  cases l with
  | udp l | multicast l => exact DatagramLink.Conveys.isOpen h
  | tcp l | serial l => cases h

/-- The next read gives the oldest datagram that waits; if none does it changes nothing. -/
theorem Conveys.read (h : l.Conveys sent texts written taken) :
    (l.step net .read).1 = .line ((oldest (sent.drop texts.length)).map Datagram.text) ∧
      (sent.drop texts.length = [] → (l.step net .read).2 = l) := by
  cases l with
  | udp l | multicast l =>
    obtain ⟨holdest, hnone, -⟩ := DatagramLink.Conveys.take h
    exact ⟨by rw [← holdest]; rfl, fun hempty ↦ congrArg _ (hnone hempty)⟩
  | tcp l | serial l => cases h

/-- Asking for the source gives the same datagram, and leaves the same link. -/
theorem Conveys.readFrom (h : l.Conveys sent texts written taken)
    (hcast : l.transport = .multicast) :
    l.step net .readFrom =
      (.addressed ((oldest (sent.drop texts.length)).map fun d ↦ ⟨d.text, .v4 d.source⟩),
        (l.step net .read).2) := by
  cases l with
  | multicast l =>
    obtain ⟨holdest, -⟩ := DatagramLink.Conveys.take h
    rw [← holdest]
    rfl
  | udp l => cases hcast
  | tcp l | serial l => cases h

/-- **One step keeps both queues in order**, unless it closes the link. -/
theorem Conveys.step (h : l.Conveys sent texts written taken) {t : LinkStep} (ht : t ≠ .close) :
    (l.step net t).2.Conveys (sent ++ t.datagram?.toList)
      (texts ++ (l.step net t).1.text?.toList)
      (written ++ (t.written? (l.step net t).1).toList)
      (taken ++ (l.step net t).1.taken?.toList) := by
  have hidle : l.Conveys (sent ++ []) (texts ++ []) (written ++ []) (taken ++ []) := by
    simpa only [List.append_nil] using h
  cases t with
  | connect interface address =>
    rw [Link.step, connect_of_isOpen h.isOpen]
    exact hidle
  | close => exact absurd rfl ht
  | isOpen | localAddress | device => exact hidle
  | selectDevice _ | unitFinish | unitReset =>
    cases l with
    | udp l | multicast l => exact hidle
    | tcp l | serial l => cases h
  | read =>
    cases l with
    | udp l | multicast l =>
      show DatagramLink.Conveys (sent ++ [])
        (texts ++ (LinkAnswer.line (l.take.1.map Datagram.text)).text?.toList) (written ++ [])
        (taken ++ []) l.take.2
      rw [LinkAnswer.text?_line]
      simpa only [List.append_nil] using (DatagramLink.Conveys.take h).2.2
    | tcp l | serial l => cases h
  | readFrom =>
    cases l with
    | udp l => exact hidle
    | multicast l =>
      show DatagramLink.Conveys (sent ++ [])
        (texts ++ (LinkAnswer.addressed
          (l.take.1.map fun d ↦ ⟨d.text, .v4 d.source⟩)).text?.toList) (written ++ [])
        (taken ++ []) l.take.2
      rw [LinkAnswer.text?_addressed]
      simpa only [List.append_nil] using (DatagramLink.Conveys.take h).2.2
    | tcp l | serial l => cases h
  | write p =>
    cases l with
    | udp l | multicast l =>
      show DatagramLink.Conveys (sent ++ []) (texts ++ [])
        (written ++ ((LinkStep.write p).written? (.outcome (l.write p).1)).toList) (taken ++ [])
        (l.write p).2
      rw [DatagramLink.Conveys.write h p]
      split_ifs
      · rw [List.append_nil, List.append_nil, List.append_nil]
        exact ⟨h.1, h.2.push p.bytes⟩
      · exact hidle
    | tcp l | serial l => cases h
  | unitSend source p =>
    cases l with
    | udp l | multicast l =>
      show DatagramLink.Conveys (sent ++ [⟨source, p.bytes⟩]) (texts ++ []) (written ++ [])
        (taken ++ []) (l.unitSend ⟨source, p.bytes⟩).2
      simpa only [List.append_nil] using DatagramLink.Conveys.unitSend h ⟨source, p.bytes⟩
    | tcp l | serial l => cases h
  | unitReceive =>
    cases l with
    | udp l | multicast l =>
      show DatagramLink.Conveys (sent ++ []) (texts ++ []) (written ++ [])
        (taken ++ (l.unitReceive.1.map Utf8.decode).toList) l.unitReceive.2
      simpa only [List.append_nil] using DatagramLink.Conveys.unitReceive h
    | tcp l | serial l => cases h

/-- **A run keeps both queues in order**, unless it closes the link. -/
theorem Conveys.steps (h : l.Conveys sent texts written taken) {ts : List LinkStep}
    (hts : .close ∉ ts) :
    (l.steps net ts).2.Conveys (sent ++ datagramsSent ts)
      (texts ++ textsRead (l.steps net ts).1)
      (written ++ payloadsWritten ts (l.steps net ts).1)
      (taken ++ textsTaken (l.steps net ts).1) := by
  -- A step changes the link and all that was put in and taken, so the run is taken from any.
  induction ts generalizing l sent texts written taken with
  | nil =>
    simpa only [Link.steps, datagramsSent, textsRead, payloadsWritten, textsTaken,
      List.zip_nil_left, List.filterMap_nil, List.append_nil] using h
  | cons t ts ih =>
    rw [List.mem_cons, not_or] at hts
    have hrun := ih (h.step net (Ne.symm hts.1)) hts.2
    have hanswers : (l.steps net (t :: ts)).1 =
        (l.step net t).1 :: ((l.step net t).2.steps net ts).1 := rfl
    rw [hanswers, datagramsSent, textsRead, payloadsWritten, textsTaken, List.zip_cons_cons,
      filterMap_cons_eq_append, filterMap_cons_eq_append, filterMap_cons_eq_append,
      filterMap_cons_eq_append, ← List.append_assoc, ← List.append_assoc, ← List.append_assoc,
      ← List.append_assoc]
    exact hrun

/-! ### Opening -/

/-- Where the datagrams of an open link lead. -/
def route? : Link → Option Route
  | udp l => l.socket.map Socket.route
  | multicast l => l.socket.map Socket.route
  | tcp _ | serial _ => none

/-- A link that has just been opened has nothing to read; what reached the unit before still waits
there. -/
theorem conveys_of_connect {l₀ : Link} {interface : Option Text} {address : Text} {limit : UInt64}
    (hcast : l₀.transport = .udp ∨ l₀.transport = .multicast)
    (hopen : l₀.connect net interface address limit = (.ok (), l))
    (hroute : l.route? = some .unit) :
    l.Conveys [] [] l.reached [] ∧ l.transport = l₀.transport := by
  cases l₀ with
  | udp l₀ =>
    simp only [connect, UdpLink.connect] at hopen
    split at hopen
    · cases hopen
    · split at hopen
      · cases hopen
      · next host _ _ target _ =>
        cases l₀.opening net host target with
        | isOpen _ heq | refused _ _ _ _ heq =>
          rw [heq] at hopen
          cases hopen
        | opened _ _ heq =>
          rw [heq] at hopen
          cases hopen
          exact ⟨⟨⟨_, rfl, Option.some.inj hroute, .start _⟩, .start _⟩, rfl⟩
  | multicast l₀ =>
    simp only [connect, MulticastLink.connect] at hopen
    split at hopen
    · cases hopen
    · next host _ =>
      cases l₀.opening net host multicastGroup with
      | isOpen _ heq | refused _ _ _ _ heq =>
        rw [heq] at hopen
        cases hopen
      | opened _ _ heq =>
        rw [heq] at hopen
        cases hopen
        exact ⟨⟨⟨_, rfl, Option.some.inj hroute, .start _⟩, .start _⟩, rfl⟩
  | tcp l₀ => simp [transport] at hcast
  | serial l₀ => simp [transport] at hcast

/-- What waits for the unit. -/
theorem Conveys.reached (h : l.Conveys sent texts written taken) :
    Passes Utf8.decode written taken l.reached := by
  cases l with
  | udp l | multicast l => exact h.2
  | tcp l | serial l => cases h

theorem Conveys.isPrefix (h : l.Conveys sent texts written taken) :
    texts <+: sent.map Datagram.text := by
  cases l with
  | udp l | multicast l =>
    obtain ⟨⟨s, -, -, hin⟩, -⟩ := h
    exact hin.isPrefix
  | tcp l | serial l => cases h

theorem Conveys.write (h : l.Conveys sent texts written taken) (p : Payload) :
    (l.step net (.write p)).1 =
      .outcome (if p.size ≤ maxDatagram then .ok () else .error .sendFailed) := by
  cases l with
  | udp l | multicast l =>
    show LinkAnswer.outcome (l.write p).1 = _
    rw [DatagramLink.Conveys.write h p]
    split_ifs <;> rfl
  | tcp l | serial l => cases h

end Link

/-! ### What fits into a read -/

/-- Bytes that are a text and few enough to be read whole are read as that text. -/
theorem decode_take_encode {n : Nat} {t : Text} (h : (Utf8.encode t).length ≤ n) :
    Utf8.decode ((Utf8.encode t).take n) = t := by
  rw [List.take_of_length_le h, Utf8.decode_encode]

/-- Where the last byte that is read begins a character, a replacement stands for the character, and
nothing behind it matters. -/
theorem decode_take_encode_append {t : Text} {b : UInt8} (rest : Bytes)
    (hb : Utf8.decode [b] = [Utf8.replacement]) :
    Utf8.decode ((Utf8.encode t ++ b :: rest).take ((Utf8.encode t).length + 1)) =
      t ++ [Utf8.replacement] := by
  rw [List.take_length_add_append, List.take_succ_cons, List.take_zero,
    Utf8.decode_encode_append, hb]

/-- **Datagrams keep their boundaries and their order**, over UDP and over multicast, for every run
of steps that does not close a link on which nothing is lost. What was read are the texts of the
first datagrams that the unit sent, one for each: of a datagram its first 8192 bytes are read, with
replacements for what is no character, and what is behind them is gone. The next read takes the
oldest of the others; it times out exactly if there is none, and then leaves the link as it was.
Over multicast a read that asks for the source takes the same datagram out of the same queue. A
datagram that holds a text of at most 8192 bytes is read as it is. In the other direction a payload
is written unless it is too large for a datagram, and what has reached the unit, taken by it or not,
are the payloads written, each as one datagram and in order. -/
theorem datagrams_of_connect {net : Network} {l₀ l : Link} {interface : Option Text}
    {address : Text} {limit : UInt64} (hcast : l₀.transport = .udp ∨ l₀.transport = .multicast)
    (hopen : l₀.connect net interface address limit = (.ok (), l))
    (hroute : l.route? = some .unit) (run : List LinkStep) (hrun : .close ∉ run) :
    let answers := (l.steps net run).1
    let after := (l.steps net run).2
    let text (d : Datagram) : Text := Utf8.decode (d.bytes.take 8192)
    let pending := (datagramsSent run).drop (textsRead answers).length
    let delivered := l.reached ++ payloadsWritten run answers
    textsRead answers <+: (datagramsSent run).map text ∧
    (after.step net .read).1 = .line ((oldest pending).map text) ∧
    (pending = [] → (after.step net .read).2 = after) ∧
    (l₀.transport = .multicast →
      after.step net .readFrom =
        (.addressed ((oldest pending).map fun d ↦ ⟨text d, .v4 d.source⟩),
          (after.step net .read).2)) ∧
    (∀ source t, (Utf8.encode t).length ≤ 8192 → text ⟨source, Utf8.encode t⟩ = t) ∧
    (∀ p, (after.step net (.write p)).1 =
      .outcome (if p.size ≤ maxDatagram then .ok () else .error .sendFailed)) ∧
    textsTaken answers <+: delivered.map Utf8.decode ∧
    after.reached = delivered.drop (textsTaken answers).length := by
  intro answers after text pending delivered
  obtain ⟨hnew, hkind⟩ := Link.conveys_of_connect net hcast hopen hroute
  have hafter : after.Conveys (datagramsSent run) (textsRead answers) delivered
      (textsTaken answers) := hnew.steps net hrun
  have hsame : after.transport = l₀.transport := (Link.transport_steps net l run).trans hkind
  exact ⟨hafter.isPrefix, (hafter.read net).1, (hafter.read net).2,
    fun hmulticast ↦ hafter.readFrom net (hsame.trans hmulticast),
    fun source t ↦ decode_take_encode, hafter.write net, hafter.reached.isPrefix,
    hafter.reached.queue_eq⟩

/-- A group that two datagrams came from, the first too long and cut inside a character, the second
empty: a read takes the first, a read for the source the second, and then none is left. The unit has
taken what was written between them. -/
theorem datagrams_of_connect_cut :
    let unit : IPv4 := ⟨127, 0, 0, 2⟩
    let net := Network.bench unit []
    let l : Link := .multicast { socket := some { interface := ⟨127, 0, 0, 1⟩, route := .unit } }
    let long : Payload := [([0x61], 8191), ([0xc3, 0xa9], 1), ([0x62, 0x0a], 4)]
    let run : List LinkStep := [.unitSend unit long, .unitSend unit (.ofBytes []), .read,
      .write (.ofBytes [0x3f]), .unitReceive]
    let after := (l.steps net run).2
    (Link.closed .multicast).connect net none "127.0.0.1" = (.ok (), l) ∧
      l.route? = some .unit ∧ LinkStep.close ∉ run ∧
      textsRead (l.steps net run).1 = [List.replicate 8191 'a' ++ ['\uFFFD']] ∧
      after.step net .readFrom =
        (.addressed (.ok ⟨[], .v4 unit⟩), (after.step net .read).2) ∧
      ((l.steps net (run ++ [.readFrom])).2.step net .read).1 = .line (.error .readTimedOut) ∧
      after.reached = [] := by
  intro unit net l long run after
  have hopen : (Link.closed .multicast).connect net none "127.0.0.1" = (.ok (), l) := by decide
  have hclose : LinkStep.close ∉ run := by simp [run]
  obtain ⟨-, -, -, hfrom, -, -, -, hreached⟩ :=
    datagrams_of_connect (.inr rfl) hopen rfl run hclose
  obtain ⟨-, hnone, -⟩ :=
    datagrams_of_connect (.inr rfl) hopen rfl (run ++ [.readFrom]) (by simp [run])
  refine ⟨hopen, rfl, hclose, ?_, hfrom rfl, hnone, hreached⟩
  have hread : textsRead (l.steps net run).1 = [Utf8.decode (long.bytes.take 8192)] := rfl
  have hlength : (Utf8.encode (List.replicate 8191 'a')).length = 8191 := by
    rw [Utf8.encode_replicate_of_ascii (by decide), List.length_replicate]
  have hbytes : long.bytes = Utf8.encode (List.replicate 8191 'a') ++
      0xc3 :: 0xa9 :: Payload.bytes [([0x62, 0x0a], 4)] := by
    rw [Utf8.encode_replicate_of_ascii (by decide), ← List.flatten_replicate_singleton]
    rfl
  have hcut := decode_take_encode_append (t := List.replicate 8191 'a')
    (0xa9 :: Payload.bytes [([0x62, 0x0a], 4)]) (b := 0xc3) (by decide)
  rw [hlength, ← hbytes] at hcut
  rw [hread]
  exact congrArg (fun t ↦ [t]) hcut

end BatteryBench
