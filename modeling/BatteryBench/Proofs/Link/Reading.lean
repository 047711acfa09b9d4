import BatteryBench.Link.Basic
import BatteryBench.Proofs.Link.Lines
import Mathlib.Data.List.TakeDrop

/-!
# Reading from a link over a stream

Over TCP and over a serial port lines come out of a stream of bytes, and this module says which ones
for every order of what the unit sends and what the host does. The steps of a run are `LinkStep`s;
of them the *traffic* is what the unit sends, what the host reads and what it writes.

A run is compared with its bytes alone. `sentBytes` puts together all that was sent in a run and
`arrivals` lists what had been sent before each read, so neither knows of the pieces; `lineAt` gives
the line at a place of a history. The state of the link is tied to them by `Link.Delivers`, the
invariant of the reader at the host's end of the link, which one step keeps (`Link.Delivers.step`)
and therefore a run (`Link.Delivers.steps`).
-/

namespace BatteryBench

/-! ### What a run sends and what it shows -/

/-- Whether a step is what the unit sends, what the host reads, or what the host writes. -/
def LinkStep.isTraffic : LinkStep → Bool
  | .write _ | .read | .unitSend _ _ => true
  | _ => false

/-- The bytes a step lets arrive at the host while the stream is in a state: only a live stream
takes what the unit sends. -/
def LinkStep.heard (state : StreamState) : LinkStep → Bytes
  | .unitSend _ p => if state = .live then p.bytes else []
  | _ => []

/-- The bytes that the unit sends in a run, in one piece. -/
def sentBytes (ts : List LinkStep) : Bytes := ts.flatMap (LinkStep.heard .live)

/-- The bytes that have arrived at each read of a run, for the bytes that had arrived before it. -/
def arrivals (state : StreamState) : Bytes → List LinkStep → List Bytes
  | _, [] => []
  | history, .read :: rest => history :: arrivals state history rest
  | history, t :: rest => arrivals state (history ++ t.heard state) rest

/-- What the reads among the steps with these answers gave, in order. -/
def readOutcomes (answers : List LinkAnswer) : List (Outcome Text) :=
  answers.filterMap fun
    | .line r => some r
    | _ => none

/-- The lines that were returned, in order. -/
def linesRead (answers : List LinkAnswer) : List Text :=
  (readOutcomes answers).filterMap Except.toOption

theorem linesRead_line (r : Outcome Text) : linesRead [.line r] = r.toOption.toList := by
  cases r <;> rfl

theorem linesRead_cons (a : LinkAnswer) (answers : List LinkAnswer) :
    linesRead (a :: answers) = linesRead [a] ++ linesRead answers := by
  rw [linesRead, linesRead, linesRead, ← List.filterMap_append, readOutcomes, readOutcomes,
    readOutcomes, ← List.filterMap_append, List.singleton_append]

/-- The outcomes of reads before which given bytes had arrived, when a number of lines was returned
before them: each read gives the next line if the bytes complete it. -/
def inOrder (late : Failure) : Nat → List Bytes → List (Outcome Text)
  | _, [] => []
  | place, history :: rest =>
    let r := lineAt late history place
    r :: inOrder late (place + r.toOption.toList.length) rest

/-! ### The host's end -/

namespace Link

/-- What reaches the host over an open link, if lines come out of a stream. -/
def flow? : Link → Option InFlow
  | tcp l => l.connection
  | serial l => if l.isOpen then some l.flow else none
  | udp _ | multicast _ => none

variable (net : Network) {l : Link} {f : InFlow}

theorem step_read (h : l.flow? = some f) :
    (l.step net .read).1 = .line f.readLine.1 ∧ (l.step net .read).2.flow? = some f.readLine.2 := by
  cases l with
  | tcp l =>
    have hc : l.connection = some f := h
    simp [step, readLine, TcpLink.readLine, hc, flow?]
  | serial l =>
    obtain ⟨hopen, rfl⟩ : l.isOpen = true ∧ l.flow = f := by simpa [flow?] using h
    simp [step, readLine, SerialLink.readLine, hopen, flow?]
  | udp l => cases h
  | multicast l => cases h

/-- A write leaves what reaches the host alone, whether or not it succeeds. -/
theorem step_write (h : l.flow? = some f) (p : Payload) :
    (l.step net (.write p)).2.flow? = some f := by
  cases l with
  | tcp l =>
    have hc : l.connection = some f := h
    simp only [step, write, TcpLink.write, hc]
    split_ifs <;> simp [flow?, hc]
  | serial l =>
    obtain ⟨hopen, rfl⟩ : l.isOpen = true ∧ l.flow = f := by simpa [flow?] using h
    simp only [step, write, SerialLink.write, hopen]
    split_ifs <;> simp_all [flow?]
  | udp l => cases h
  | multicast l => cases h

/-- What the unit sends arrives in one piece or not at all. Only a connection can be finished. -/
theorem step_unitSend (h : l.flow? = some f) (hf : f.state = .finished → l.transport = .tcp)
    (source : IPv4) (p : Payload) :
    (l.step net (.unitSend source p)).2.flow? =
      some (f.push (LinkStep.heard f.state (.unitSend source p))) := by
  cases l with
  | tcp l =>
    have hc : l.connection = some f := h
    simp only [step, unitSend, TcpLink.unitSend, hc, LinkStep.heard]
    split
    · rfl
    · simp [flow?, hc, InFlow.push]
  | serial l =>
    obtain ⟨hopen, rfl⟩ : l.isOpen = true ∧ l.flow = f := by simpa [flow?] using h
    simp only [step, unitSend, SerialLink.unitSend, LinkStep.heard]
    cases hs : l.flow.state with
    | live => simp [flow?, hopen]
    | finished => cases hf hs
    | broken => simp [flow?, hopen, InFlow.push]
  | udp l => cases h
  | multicast l => cases h

/-- A unit at the other end of a connection can finish, and nothing else changes by that. -/
theorem step_unitFinish (h : l.flow? = some f) (hlive : f.state = .live)
    (htcp : l.transport = .tcp) :
    (l.step net .unitFinish).2.flow? = some { f with state := .finished } := by
  cases l with
  | tcp l =>
    have hc : l.connection = some f := h
    simp [step, unitFinish, TcpLink.unitFinish, TcpLink.turn, hc, hlive, flow?]
  | serial l => cases htcp
  | udp l => cases h
  | multicast l => cases h

theorem transport_step (l : Link) (t : LinkStep) : (l.step net t).2.transport = l.transport := by
  cases l <;> cases t <;> rfl

theorem transport_steps (l : Link) (ts : List LinkStep) :
    (l.steps net ts).2.transport = l.transport := by
  induction ts generalizing l with
  | nil => rfl
  | cons t ts ih => exact (ih _).trans (transport_step net l t)

/-! ### The invariant along a run -/

/-- **The invariant of the host's end of a link**: the stream is in a state, and its reader has
returned the given lines of the bytes that have arrived. -/
def Delivers (state : StreamState) (history : Bytes) (returned : List Text) (l : Link) : Prop :=
  ∃ f, l.flow? = some f ∧ f.state = state ∧ f.Delivers history returned

variable {state : StreamState} {history : Bytes} {returned : List Text}

/-- The lines returned are the first lines of the bytes that have arrived. -/
theorem Delivers.isPrefix (h : l.Delivers state history returned) :
    returned <+: completeLines history := by
  obtain ⟨f, -, -, hf⟩ := h
  exact ⟨_, hf.completeLines_eq.symm⟩

/-- The next read gives the line at the place that the lines returned have come to. -/
theorem Delivers.answer_read (h : l.Delivers state history returned) :
    (l.step net .read).1 = .line (lineAt state.lateness history returned.length) := by
  obtain ⟨f, hflow, rfl, hf⟩ := h
  rw [(step_read net hflow).1, hf.readLine_fst]

/-- **One step of traffic keeps the invariant.** -/
theorem Delivers.step (h : l.Delivers state history returned)
    (hstate : state = .finished → l.transport = .tcp) {t : LinkStep} (ht : t.isTraffic) :
    (l.step net t).2.Delivers state (history ++ t.heard state)
      (returned ++ linesRead [(l.step net t).1]) := by
  obtain ⟨f, hflow, rfl, hf⟩ := h
  cases t with
  | read =>
    obtain ⟨hanswer, hafter⟩ := step_read net hflow
    refine ⟨f.readLine.2, hafter, f.readLine_eq_ok_or_error.2, ?_⟩
    rw [hanswer, linesRead_line]
    simpa [LinkStep.heard] using hf.readLine_snd
  | write p =>
    refine ⟨f, step_write net hflow p, rfl, ?_⟩
    simpa [LinkStep.heard, linesRead, readOutcomes, Link.step] using hf
  | unitSend source p =>
    have hpush := hf.push (LinkStep.heard f.state (.unitSend source p))
    refine ⟨_, step_unitSend net hflow hstate source p, rfl, ?_⟩
    simpa [linesRead, readOutcomes, Link.step] using hpush
  | _ => cases ht

/-- A run of traffic keeps the invariant, and its reads give the lines in order. -/
theorem Delivers.steps (h : l.Delivers state history returned)
    (hstate : state = .finished → l.transport = .tcp) {ts : List LinkStep}
    (hts : ∀ t ∈ ts, t.isTraffic) :
    (l.steps net ts).2.Delivers state (history ++ ts.flatMap (LinkStep.heard state))
        (returned ++ linesRead (l.steps net ts).1) ∧
      readOutcomes (l.steps net ts).1 =
        inOrder state.lateness returned.length (arrivals state history ts) := by
  -- A step changes the link, the history and the lines returned, so the run is taken from any.
  induction ts generalizing l history returned with
  | nil => exact ⟨by simpa [Link.steps, linesRead, readOutcomes] using h, rfl⟩
  | cons t ts ih =>
    have ht := hts t List.mem_cons_self
    obtain ⟨hafter, houtcomes⟩ := ih (h.step net hstate ht)
      (fun hs ↦ (transport_step net l t).trans (hstate hs))
      fun t' ht' ↦ hts t' (List.mem_cons_of_mem _ ht')
    have hrun : (l.steps net (t :: ts)).1 =
        (l.step net t).1 :: ((l.step net t).2.steps net ts).1 := rfl
    constructor
    · rw [hrun, linesRead_cons, List.flatMap_cons, ← List.append_assoc, ← List.append_assoc]
      exact hafter
    · rw [hrun]
      cases t with
      | read =>
        rw [h.answer_read net, linesRead_line, List.length_append,
          show LinkStep.heard state .read = [] from rfl, List.append_nil] at houtcomes
        rw [h.answer_read net]
        exact congrArg (_ :: ·) houtcomes
      | write p =>
        simpa [readOutcomes, Link.step, arrivals, LinkStep.heard, linesRead] using houtcomes
      | unitSend source p =>
        simpa [readOutcomes, Link.step, arrivals, LinkStep.heard, linesRead] using houtcomes
      | _ => cases ht

/-! ### Opening and finishing -/

/-- What a port still holds of what units have sent before it is opened; over a connection nothing
can wait. -/
def waiting : Link → Bytes
  | serial l => l.flow.unread
  | tcp _ | udp _ | multicast _ => []

/-- Whether a stream that a link opens is live: a new connection is, and a bus unless it broke. -/
def Unbroken : Link → Prop
  | serial l => l.flow.state = .live
  | tcp _ | udp _ | multicast _ => True

/-- A link that has just been opened has returned nothing of what waits on it. -/
theorem delivers_of_connect {l₀ : Link} {interface : Option Text} {address : Text} {limit : UInt64}
    (hstream : l₀.transport = .tcp ∨ l₀.transport = .serial) (hbus : l₀.Unbroken)
    (hopen : l₀.connect net interface address limit = (.ok (), l)) :
    l.Delivers .live l₀.waiting [] ∧ l.transport = l₀.transport := by
  cases l₀ with
  | tcp l₀ =>
    simp only [connect, TcpLink.connect] at hopen
    split at hopen
    · cases hopen
    · split_ifs at hopen
      · cases hopen
      · split at hopen
        · cases hopen
          exact ⟨⟨{}, rfl, rfl, InFlow.delivers_anew {}⟩, rfl⟩
        · cases hopen
        · cases hopen
        · cases hopen
  | serial l₀ =>
    simp only [connect, SerialLink.connect] at hopen
    split_ifs at hopen
    · cases hopen
    · cases hopen
    · cases hopen
    · cases hopen
      exact ⟨⟨l₀.flow.anew, rfl, hbus, l₀.flow.delivers_anew⟩, rfl⟩
  | udp l₀ => simp [transport] at hstream
  | multicast l₀ => simp [transport] at hstream

/-- A unit that finishes changes no line, only what comes after the last one. -/
theorem Delivers.unitFinish (h : l.Delivers .live history returned) (htcp : l.transport = .tcp) :
    (l.step net .unitFinish).2.Delivers .finished history returned := by
  obtain ⟨f, hflow, hlive, hf⟩ := h
  exact ⟨_, step_unitFinish net hflow hlive htcp, rfl, hf.lines, hf.held⟩

end Link

/-! ### Runs of reads -/

end BatteryBench
