import BatteryBench.Link.Serial
import BatteryBench.Proofs.Client.Printable
import BatteryBench.Proofs.Client.Shapes
import BatteryBench.Proofs.Encoding.Utf8
import BatteryBench.Proofs.Link.Opening

/-!
# The frames on a bus

All units of a bus hear one stream of bytes, and have to find in it which bytes are for whom. What a
client sends over a serial port can be taken apart again: the stream is cut at its line ends
(`splitLineEnds`), and each piece is a frame that is read in one way (`isFrame_iff`). That needs no
escaping, for every transmission is one printable line (`Operation.sendsLine_request`) and the
number in front of it ends at the first blank.

`BusStep` is what happens on a bus: units are selected, a client is asked to do something, and units
answer. A run of steps whose operations all succeed puts exactly the frames on the bus that the
operations send, each with the number that was selected then (`Client.busRun_of_succeeds`).
-/

namespace BatteryBench

/-! ### Cutting a stream -/

/-- The pieces of some bytes between the line ends in them. There is one piece more than there are
line ends. -/
def splitLineEnds : Bytes → List Bytes
  | [] => [[]]
  | 0x0d :: 0x0a :: rest => [] :: splitLineEnds rest
  | b :: rest =>
    match splitLineEnds rest with
    | [] => [[b]]
    | piece :: pieces => (b :: piece) :: pieces

/-- Up to the first line end there is one piece. -/
theorem splitLineEnds_append {piece : Bytes} (h : (0x0d : UInt8) ∉ piece) (rest : Bytes) :
    splitLineEnds (piece ++ 0x0d :: 0x0a :: rest) = piece :: splitLineEnds rest := by
  induction piece with
  | nil => rfl
  | cons b piece ih =>
    rw [List.mem_cons, not_or] at h
    rw [List.cons_append, splitLineEnds, ih h.2]
    rintro _ rfl
    exact absurd rfl h.1

/-- Pieces without a carriage return are found again. -/
theorem splitLineEnds_flatMap {pieces : List Bytes} (h : ∀ piece ∈ pieces, (0x0d : UInt8) ∉ piece) :
    splitLineEnds (pieces.flatMap (· ++ [0x0d, 0x0a])) = pieces ++ [[]] := by
  induction pieces with
  | nil => rfl
  | cons piece pieces ih =>
    obtain ⟨hpiece, hpieces⟩ := List.forall_mem_cons.mp h
    rw [List.flatMap_cons, List.append_assoc, List.cons_append, List.cons_append, List.nil_append,
      splitLineEnds_append hpiece, ih hpieces, List.cons_append]

-- Only both bytes together are a line end.
example : splitLineEnds [0x61, 0x0d, 0x0a, 0x0d, 0x62, 0x0a] = [[0x61], [0x0d, 0x62, 0x0a]] := by
  decide

/-! ### Reading a frame -/

/-- That a text is a frame: a mark, the number of a unit in decimal, a blank, and a command. -/
def IsFrame (frame : Text) (n : Nat) (command : Text) : Prop :=
  ∃ digits, number? digits = some n ∧ frame = '@' :: (digits ++ ' ' :: command)

/-- What follows the mark up to the first blank is the number. -/
theorem takeWhile_of_isFrame {frame command : Text} {n : Nat} (h : IsFrame frame n command) :
    number? ((frame.drop 1).takeWhile (· ≠ ' ')) = some n ∧
      ((frame.drop 1).dropWhile (· ≠ ' ')).drop 1 = command := by
  obtain ⟨digits, hn, rfl⟩ := h
  -- A number has no blank in it, so the first blank of the frame is the one behind the number.
  have hdigits : ' ' ∉ digits := by
    rw [number?] at hn
    split at hn
    · next hboth => exact fun hmem ↦ absurd (hboth.2 ' ' hmem) (by decide)
    · cases hn
  rw [List.drop_succ_cons, List.drop_zero, takeWhile_append_cons hdigits,
    dropWhile_append_cons hdigits]
  exact ⟨hn, rfl⟩

/-- **A frame is read in one way.** -/
theorem isFrame_iff {frame command : Text} {n : Nat} (h : IsFrame frame n command) (m : Nat)
    (other : Text) : IsFrame frame m other ↔ (m, other) = (n, command) := by
  constructor
  · intro hother
    obtain ⟨hn, hcommand⟩ := takeWhile_of_isFrame h
    obtain ⟨hm, hother⟩ := takeWhile_of_isFrame hother
    rw [Prod.mk.injEq, ← hcommand, ← hother]
    exact ⟨Option.some.inj (hm.symm.trans hn), rfl⟩
  · rintro ⟨⟩
    exact h

theorem isFrame_addressMark (id : UInt32) (command : Text) :
    IsFrame (addressMark id ++ command) id.toNat command :=
  ⟨decimal id.toNat, number?_decimal _, by simp [addressMark]⟩

theorem isPrintable_addressMark (id : UInt32) : IsPrintable (addressMark id) :=
  isPrintable_cons (by decide) ((isDigits_decimal _).isWord.isPrintable.append (by decide))

/-! ### Printable bytes -/

theorem IsPrintable.toNat_lt {t : Text} (h : IsPrintable t) : ∀ c ∈ t, c.toNat < 0x80 :=
  fun c hc ↦ Nat.lt_of_le_of_lt (isPrintableChar_iff.mp (h c hc)).2 (by decide)

theorem IsPrintable.return_not_mem {t : Text} (h : IsPrintable t) :
    (0x0d : UInt8) ∉ Utf8.encode t := by
  intro hmem
  obtain ⟨c, hc, hbyte⟩ := Utf8.mem_encode_of_ascii h.toNat_lt hmem
  have hlow := (isPrintableChar_iff.mp (h c hc)).1
  rw [← hbyte] at hlow
  exact absurd hlow (by decide)

/-! ### A bus -/

/-- Something that happens on a bus. -/
inductive BusStep where
  /-- Another unit is addressed. -/
  | select (id : UInt32)
  /-- The client is asked to do something. -/
  | perform (op : Operation)
  /-- A unit sends bytes. -/
  | answer (bytes : Bytes)

namespace BusStep

/-- The text that a step sends, if it sends one. -/
def transmission? : BusStep → Option Text
  | perform op => op.transmission?
  | select _ | answer _ => none

/-- The number that is in force after a step, for the number before it. Numbers from 256 on are all
the same. -/
def numberAfter (n : Nat) : BusStep → Nat
  | select id => min id.toNat 256
  | perform _ | answer _ => n

/-- What is sent is one line. -/
theorem isLine_of_transmission? {t : BusStep} {buffer : Text}
    (h : t.transmission? = some buffer) : IsLine buffer := by
  cases t with
  | perform op =>
    have hline := op.sendsLine_request
    rw [transmission?, Operation.transmission?] at h
    cases hreq : op.request with
    | command sent v | query sent parse =>
      rw [hreq] at h hline
      exact Option.some.inj h ▸ hline
    | refused e | done v =>
      rw [hreq] at h
      cases h
  | select id | answer bytes => cases h

end BusStep

/-- Which numbers and commands a run sends, for the number that is in force before it. -/
def commandsSent : Nat → List BusStep → List (Nat × Text)
  | _, [] => []
  | n, t :: rest =>
    (t.transmission?.map fun buffer ↦ (n, Wire.body buffer)).toList ++
      commandsSent (t.numberAfter n) rest

namespace SerialLink

variable (l : SerialLink)

/-- A transmission that succeeds puts its frame on the bus, and changes nothing else. -/
theorem write_snd_of_ok {p : Payload} (h : (l.write p).1 = .ok ()) :
    (l.write p).2 = { l with received := l.received ++ (l.frame p).bytes } := by
  rw [write] at h ⊢
  split_ifs at h ⊢
  rfl

theorem bytes_frame (t : Text) :
    (l.frame (.ofBytes (Utf8.encode t))).bytes = Utf8.encode (addressMark l.id ++ t) := by
  simp [frame, Payload.ofBytes, Payload.bytes, Utf8.encode_append]

end SerialLink

namespace Client

/-- A client on a bus after something happened on the bus. -/
def busStep (c : Client SerialLink) : BusStep → Client SerialLink
  | .select id => { c with driver := c.driver.map (SerialLink.selectDevice id) }
  | .perform op => (c.perform op).2
  | .answer bytes => { c with driver := c.driver.map fun l ↦ (l.unitSend bytes).2 }

/-- A client on a bus after a run of steps. -/
def busRun (c : Client SerialLink) (ts : List BusStep) : Client SerialLink := ts.foldl busStep c

/-- That a step succeeds, if the client is asked to do something. -/
def StepSucceeds (c : Client SerialLink) : BusStep → Prop
  | .perform op => ∃ v, (c.perform op).1 = .ok v
  | .select _ | .answer _ => True

/-- That every operation of a run succeeds. -/
def RunSucceeds : Client SerialLink → List BusStep → Prop
  | _, [] => True
  | c, t :: rest => c.StepSucceeds t ∧ RunSucceeds (c.busStep t) rest

/-- What a transmission puts on a bus, if there is one. -/
def frameBytes (id : UInt32) (transmission? : Option Text) : Bytes :=
  (transmission?.map fun buffer ↦ Utf8.encode (addressMark id ++ buffer)).getD []

/-- A transmission that succeeds leaves its frame. -/
theorem transmit_of_ok {l : SerialLink} {ms : Nat} {buffer : Text}
    (h : ((⟨some l, ms⟩ : Client SerialLink).transmit buffer).1 = .ok ()) :
    (⟨some l, ms⟩ : Client SerialLink).transmit buffer = (.ok (), ⟨some { l with
      received := l.received ++ Utf8.encode (addressMark l.id ++ buffer) }, ms⟩) := by
  have hsent : (l.write (.ofBytes (Utf8.encode buffer))).1 = .ok () := h
  have hafter := l.write_snd_of_ok hsent
  rw [l.bytes_frame] at hafter
  rw [← hafter]
  exact Prod.ext h rfl

theorem receive_snd (l : SerialLink) (ms : Nat) :
    ∃ flow, (⟨some l, ms⟩ : Client SerialLink).receive.2 = ⟨some { l with flow := flow }, ms⟩ := by
  obtain ⟨flow, hread⟩ := l.readLine_snd
  exact ⟨flow, congrArg (fun d ↦ (⟨some d, ms⟩ : Client SerialLink)) hread⟩

/-- **An operation that succeeds leaves its frame**, if it sends one, and reads at most. -/
theorem perform_of_ok {l : SerialLink} {ms : Nat} {op : Operation} {v : op.Result}
    (h : ((⟨some l, ms⟩ : Client SerialLink).perform op).1 = .ok v) :
    ∃ flow, ((⟨some l, ms⟩ : Client SerialLink).perform op).2 = ⟨some { l with
      flow := flow
      received := l.received ++ frameBytes l.id op.transmission? }, ms⟩ := by
  rw [perform] at h ⊢
  rw [frameBytes, Operation.transmission?]
  cases hreq : op.request with
  | refused e =>
    rw [hreq] at h
    cases h
  | done v => exact ⟨l.flow, by simp [run]⟩
  | command buffer answer =>
    rw [hreq, run] at h
    rcases htransmit : (⟨some l, ms⟩ : Client SerialLink).transmit buffer with ⟨e | u, c⟩
    · rw [htransmit] at h
      cases h
    · rw [run, transmit_of_ok (congrArg Prod.fst htransmit)]
      exact ⟨l.flow, rfl⟩
  | query buffer parse =>
    rw [hreq, run, exchange] at h
    rw [run, exchange]
    split_ifs at h ⊢
    rcases htransmit : (⟨some l, ms⟩ : Client SerialLink).transmit buffer with ⟨e | u, c⟩
    · rw [htransmit] at h
      cases h
    · cases htransmit.symm.trans (transmit_of_ok (congrArg Prod.fst htransmit))
      obtain ⟨flow, hread⟩ := receive_snd { l with
        received := l.received ++ Utf8.encode (addressMark l.id ++ buffer) } ms
      refine ⟨flow, Eq.trans ?_ hread⟩
      dsimp only
      split <;> next hline => rw [hline]

/-- **One step** puts on the bus what it sends. -/
theorem busStep_of_succeeds {l : SerialLink} {ms : Nat} {t : BusStep}
    (h : (⟨some l, ms⟩ : Client SerialLink).StepSucceeds t) :
    ∃ l', (⟨some l, ms⟩ : Client SerialLink).busStep t = ⟨some l', ms⟩ ∧
      l'.id.toNat = t.numberAfter l.id.toNat ∧
      l'.received = l.received ++ frameBytes l.id t.transmission? := by
  cases t with
  | select id =>
    exact ⟨l.selectDevice id, rfl, l.toNat_id_selectDevice id, (List.append_nil _).symm⟩
  | answer bytes =>
    obtain ⟨flow, hsend⟩ := l.unitSend_snd bytes
    exact ⟨{ l with flow := flow },
      congrArg (fun d ↦ (⟨some d, ms⟩ : Client SerialLink)) hsend, rfl, (List.append_nil _).symm⟩
  | perform op =>
    obtain ⟨v, hv⟩ := h
    obtain ⟨flow, hafter⟩ := perform_of_ok hv
    exact ⟨_, hafter, rfl, rfl⟩

/-- **A run puts one frame on the bus for each transmission**, and nothing else. -/
theorem busRun_of_succeeds {l : SerialLink} {ms : Nat} {run : List BusStep}
    (h : (⟨some l, ms⟩ : Client SerialLink).RunSucceeds run) :
    ∃ l' frames, (⟨some l, ms⟩ : Client SerialLink).busRun run = ⟨some l', ms⟩ ∧
      l'.received = l.received ++ (frames.map Utf8.encode).flatMap (· ++ [0x0d, 0x0a]) ∧
      (∀ frame ∈ frames, IsPrintable frame) ∧
      List.Forall₂ (fun frame sent ↦ IsFrame frame sent.1 sent.2) frames
        (commandsSent l.id.toNat run) := by
  induction run generalizing l with
  | nil => exact ⟨l, [], rfl, (List.append_nil _).symm, nofun, .nil⟩
  | cons t run ih =>
    obtain ⟨hstep, hrest⟩ := h
    obtain ⟨mid, hmid, hnumber, hreceived⟩ := busStep_of_succeeds hstep
    rw [hmid] at hrest
    obtain ⟨l', frames, hrun, hmore, hprintable, hframes⟩ := ih hrest
    have hwhole : (⟨some l, ms⟩ : Client SerialLink).busRun (t :: run) = ⟨some l', ms⟩ := by
      rw [busRun, List.foldl_cons, hmid]
      exact hrun
    rw [hreceived] at hmore
    rw [hnumber] at hframes
    rw [commandsSent]
    cases htransmission : t.transmission? with
    | none =>
      rw [htransmission, frameBytes, Option.map_none, Option.getD_none, List.append_nil] at hmore
      exact ⟨l', frames, hwhole, hmore, hprintable, hframes⟩
    | some buffer =>
      -- A transmission brings its own line end, and what stands before it is the frame.
      obtain ⟨body, rfl, hbody⟩ := BusStep.isLine_of_transmission? htransmission
      have hframe := (isPrintable_addressMark l.id).append hbody
      refine ⟨l', (addressMark l.id ++ body) :: frames, hwhole, ?_,
        List.forall_mem_cons.mpr ⟨hframe, hprintable⟩, .cons ?_ hframes⟩
      · rw [hmore, htransmission, frameBytes, Option.map_some, Option.getD_some,
          ← List.append_assoc, Utf8.encode_append _ lineEnd, List.map_cons, List.flatMap_cons,
          List.append_assoc]
        rfl
      · dsimp only
        rw [Wire.body_append_lineEnd]
        exact isFrame_addressMark l.id body

end Client

/-- **Every transmission is one line, and what a bus hears can be taken apart.** Whatever a client
is asked to do, and whatever state its driver is in, a text that it sends is printable ASCII and one
line end. On a bus where units are selected, and answer, between operations that succeed, the bytes
that reach the units are cut at their line ends into one frame for each transmission. Each frame is
read in one way, and gives the number that was in force then and the text that was sent, in order.
-/
theorem frames_on_bus :
    (∀ (op : Operation) (c : Client ScriptedUnit) (buffer : Text) (ms : Nat),
      .send buffer ms ∈ Client.newCalls c.driver (c.perform op).2.driver → IsLine buffer) ∧
    ∀ (l : SerialLink) (ms : Nat) (run : List BusStep),
      (⟨some l, ms⟩ : Client SerialLink).RunSucceeds run →
      ∃ l' stream frames, (⟨some l, ms⟩ : Client SerialLink).busRun run = ⟨some l', ms⟩ ∧
        l'.received = l.received ++ stream ∧ splitLineEnds stream = frames ++ [[]] ∧
        List.Forall₂ (fun frame sent ↦ ∀ n command, IsFrame frame n command ↔ (n, command) = sent)
          (frames.map Utf8.decode) (commandsSent l.id.toNat run) := by
  refine ⟨fun op c buffer ms ↦ Client.isLine_of_send, fun l ms run hrun ↦ ?_⟩
  obtain ⟨l', frames, hafter, hreceived, hprintable, hframes⟩ := Client.busRun_of_succeeds hrun
  refine ⟨l', _, frames.map Utf8.encode, hafter, hreceived, splitLineEnds_flatMap ?_, ?_⟩
  · exact List.forall_mem_map.mpr fun frame hframe ↦ (hprintable frame hframe).return_not_mem
  · have hread : (frames.map Utf8.encode).map Utf8.decode = frames := by
      rw [List.map_map]
      exact (List.map_congr_left fun frame _ ↦ Utf8.decode_encode frame).trans
        (List.map_id frames)
    rw [hread]
    exact hframes.imp fun frame sent hframe ↦ isFrame_iff hframe

/-- A command and a query for one unit, and a command for all of them under a number that is too
large. -/
theorem frames_on_bus_broadcast :
    let l : SerialLink := { isOpen := true, room := 100 }
    let run : List BusStep := [.select 7, .perform .clearErrors, .answer [0x31, 0x0a],
      .perform .getAlarms, .select 300, .perform .restart]
    IsLine ("*CLS" ++ lineEnd) ∧ (⟨some l, 150⟩ : Client SerialLink).RunSucceeds run ∧
      ∃ l' stream frames, (⟨some l, 150⟩ : Client SerialLink).busRun run = ⟨some l', 150⟩ ∧
        l'.received = l.received ++ stream ∧ splitLineEnds stream = frames ++ [[]] ∧
        List.Forall₂ (fun frame sent ↦ ∀ n command, IsFrame frame n command ↔ (n, command) = sent)
          (frames.map Utf8.decode) [(7, "*CLS"), (7, "ALAR?"), (256, "*RST")] := by
  intro l run
  have hrun : (⟨some l, 150⟩ : Client SerialLink).RunSucceeds run :=
    ⟨trivial, ⟨(), by decide⟩, trivial, ⟨1, by decide⟩, trivial, ⟨(), by decide⟩, trivial⟩
  exact ⟨frames_on_bus.1 .clearErrors ⟨some {}, 150⟩ _ 250 (by decide), hrun,
    frames_on_bus.2 l 150 run hrun⟩

end BatteryBench
