import BatteryBench.Proofs.Link.Opening
import Mathlib.Data.List.Infix

/-!
# The life of a link

A link is open exactly if an opening succeeded and no closing came after it, whatever else either
end does (`Link.isOpen_steps`). A run is therefore cut at its last opening that succeeded
(`Link.Opened`), and what can be said about an open link is said from there on.

Over TCP nothing of an earlier connection is left after an opening. Every line that a read returns
is the next line of what the unit has sent since (`lifecycle_of_steps`), whatever was read, written,
finished or broken meanwhile.
-/

namespace BatteryBench

namespace Link

variable {net : Network} {l : Link}

/-! ### The last opening -/

/-- That a run opened a link, which was then as given, and went on without closing it. -/
def Opened (net : Network) (l₀ : Link) (run : List LinkStep) (opened : Link)
    (after : List LinkStep) : Prop :=
  ∃ before interface address limit, run = before ++ .connect interface address limit :: after ∧
    (l₀.steps net before).2.connect net interface address limit = (.ok (), opened) ∧
    .close ∉ after

theorem steps_append (net : Network) (l : Link) (ts us : List LinkStep) :
    l.steps net (ts ++ us) =
      ((l.steps net ts).1 ++ ((l.steps net ts).2.steps net us).1,
        ((l.steps net ts).2.steps net us).2) := by
  induction ts generalizing l with
  | nil => rfl
  | cons t ts ih =>
    simp only [List.cons_append, steps, ih]

theorem steps_concat_snd (net : Network) (l : Link) (ts : List LinkStep) (t : LinkStep) :
    (l.steps net (ts ++ [t])).2 = ((l.steps net ts).2.step net t).2 := by
  rw [steps_append]
  rfl

/-- The last opening of a run is its last step, or one before it that was not undone. -/
theorem opened_concat {l₀ : Link} {ts : List LinkStep} {t : LinkStep} :
    (∃ opened after, l₀.Opened net (ts ++ [t]) opened after) ↔
      (∃ interface address limit, t = .connect interface address limit ∧
        ((l₀.steps net ts).2.connect net interface address limit).1 = .ok ()) ∨
      t ≠ .close ∧ ∃ opened after, l₀.Opened net ts opened after := by
  constructor
  · rintro ⟨opened, after, before, interface, address, limit, hrun, hconnect, hclose⟩
    -- The last step is the opening itself if nothing came after it, and one after it otherwise.
    rcases List.eq_nil_or_concat after with rfl | ⟨after, u, rfl⟩
    · obtain ⟨rfl, ht⟩ := List.append_inj' hrun rfl
      exact .inl ⟨interface, address, limit, List.head_eq_of_cons_eq ht,
        congrArg Prod.fst hconnect⟩
    · rw [List.concat_eq_append] at hrun hclose
      have hrun : ts ++ [t] = (before ++ .connect interface address limit :: after) ++ [u] := by
        rw [hrun, List.append_assoc, List.cons_append]
      obtain ⟨rfl, ht⟩ := List.append_inj' hrun rfl
      obtain rfl : t = u := List.head_eq_of_cons_eq ht
      rw [List.mem_append, List.mem_singleton, not_or] at hclose
      exact .inr ⟨Ne.symm hclose.2, opened, after, before, interface, address, limit, rfl,
        hconnect, hclose.1⟩
  · rintro (⟨interface, address, limit, rfl, hok⟩ | ⟨ht, opened, after, hopened⟩)
    · exact ⟨_, [], ts, interface, address, limit, rfl, Prod.ext hok rfl, List.not_mem_nil⟩
    · obtain ⟨before, interface, address, limit, rfl, hconnect, hclose⟩ := hopened
      refine ⟨opened, after ++ [t], before, interface, address, limit, ?_, hconnect, ?_⟩
      · rw [List.append_assoc, List.cons_append]
      · rw [List.mem_append, List.mem_singleton, not_or]
        exact ⟨hclose, ht.symm⟩

/-- **A link is open exactly if an opening of it succeeded since it was last closed.** -/
theorem isOpen_steps {l₀ : Link} (h : l₀.isOpen = false) (run : List LinkStep) :
    (l₀.steps net run).2.isOpen ↔ ∃ opened after, l₀.Opened net run opened after := by
  induction run using List.reverseRecOn with
  | nil =>
    constructor
    · exact fun hopen ↦ nomatch h.symm.trans hopen
    · rintro ⟨opened, after, before, interface, address, limit, hrun, -⟩
      simp at hrun
  | append_singleton ts t ih => rw [steps_concat_snd, isOpen_step, opened_concat, ih]

end Link

/-! ### A connection since it was made -/

/-- Once a stream is not live, nothing arrives. -/
theorem LinkStep.heard_of_ne_live {state : StreamState} (h : state ≠ .live) (t : LinkStep) :
    t.heard state = [] := by
  cases t with
  | unitSend source p => exact if_neg h
  | _ => rfl

namespace Link

variable {net : Network} {l : Link} {state : StreamState} {history : Bytes} {returned : List Text}

/-- What leaves the stream to the host alone keeps the invariant. -/
theorem Delivers.congr {l' : Link} (h : l.Delivers state history returned)
    (hflow : l'.flow? = l.flow?) : l'.Delivers state (history ++ []) (returned ++ []) := by
  rw [List.append_nil, List.append_nil, Delivers, hflow]
  exact h

/-- So does what turns its state; a stream that is not live never is again. -/
theorem Delivers.turn {l : TcpLink} (h : (tcp l).Delivers state history returned)
    (next : StreamState) (hnext : next ≠ .live) :
    ∃ later, later ≠ .live ∧
      (tcp { l with connection := l.connection.map (TcpLink.turn next) }).Delivers later
        (history ++ []) (returned ++ []) := by
  obtain ⟨f, hflow, -, hf⟩ := h
  have hconnection : l.connection = some f := hflow
  have hlate : (TcpLink.turn next f).state ≠ .live := by
    rw [TcpLink.turn]
    split
    · next hbroken => exact fun hlive ↦ absurd (hbroken.symm.trans hlive) (by decide)
    · exact hnext
  have hturn : (TcpLink.turn next f).Delivers history returned := by
    rw [TcpLink.turn]
    split
    · exact hf
    · exact ⟨hf.lines, hf.held⟩
  rw [List.append_nil, List.append_nil]
  exact ⟨_, hlate, _, congrArg (Option.map (TcpLink.turn next)) hconnection, rfl, hturn⟩

/-- **One step keeps the invariant of a connection**, unless it closes it. -/
theorem Delivers.step_tcp {l : TcpLink} (h : (tcp l).Delivers state history returned)
    {t : LinkStep} (ht : t ≠ .close) :
    ∃ later, (state ≠ .live → later ≠ .live) ∧
      ((tcp l).step net t).2.Delivers later (history ++ t.heard state)
        (returned ++ linesRead [((tcp l).step net t).1]) := by
  cases t with
  | read | write p | unitSend source p => exact ⟨state, id, h.step net (fun _ ↦ rfl) rfl⟩
  | connect interface address limit =>
    have hopen : (tcp l).isOpen := by
      obtain ⟨f, hf, -⟩ := h
      exact congrArg Option.isSome hf
    rw [Link.step, connect_of_isOpen hopen]
    exact ⟨state, id, h.congr rfl⟩
  | close => exact absurd rfl ht
  | unitReceive => exact ⟨state, id, h.congr l.connection_unitReceive⟩
  | unitFinish =>
    obtain ⟨later, hlate, hl⟩ := h.turn .finished (by decide)
    exact ⟨later, fun _ ↦ hlate, hl⟩
  | unitReset =>
    obtain ⟨later, hlate, hl⟩ := h.turn .broken (by decide)
    exact ⟨later, fun _ ↦ hlate, hl⟩
  | isOpen | localAddress | readFrom | selectDevice _ | device => exact ⟨state, id, h.congr rfl⟩

/-- **A run that does not close a connection** returns lines of what the unit sends in it. -/
theorem Delivers.steps_tcp (h : l.Delivers state history returned) (htcp : l.transport = .tcp)
    {ts : List LinkStep} (hts : .close ∉ ts) :
    ∃ later heard, heard <+: sentBytes ts ∧ (state ≠ .live → heard = []) ∧
      (l.steps net ts).2.Delivers later (history ++ heard)
        (returned ++ linesRead (l.steps net ts).1) := by
  -- A step changes the link, the history and the lines returned, so the run is taken from any.
  induction ts generalizing l state history returned with
  | nil =>
    refine ⟨state, [], List.prefix_rfl, fun _ ↦ rfl, ?_⟩
    simpa [Link.steps, linesRead, readOutcomes] using h
  | cons t ts ih =>
    rw [List.mem_cons, not_or] at hts
    have hstep : ∃ mid, (state ≠ .live → mid ≠ .live) ∧
        (l.step net t).2.Delivers mid (history ++ t.heard state)
          (returned ++ linesRead [(l.step net t).1]) := by
      cases l with
      | tcp l => exact h.step_tcp (Ne.symm hts.1)
      | udp l | multicast l | serial l => cases htcp
    obtain ⟨mid, hmid, hl⟩ := hstep
    obtain ⟨later, heard, hheard, hsilent, hlater⟩ :=
      ih hl ((transport_step net l t).trans htcp) hts.2
    have hsilence : state ≠ .live → t.heard state ++ heard = [] := fun hstate ↦ by
      rw [LinkStep.heard_of_ne_live hstate, hsilent (hmid hstate), List.append_nil]
    refine ⟨later, t.heard state ++ heard, ?_, hsilence, ?_⟩
    · by_cases hstate : state = .live
      · rw [hstate]
        exact (List.prefix_append_right_inj _).mpr hheard
      · rw [hsilence hstate]
        exact List.nil_prefix
    · have hrun : (l.steps net (t :: ts)).1 =
          (l.step net t).1 :: ((l.step net t).2.steps net ts).1 := rfl
      rw [hrun, linesRead_cons, ← List.append_assoc, ← List.append_assoc]
      exact hlater

theorem exists_tcp (h : l.transport = .tcp) : ∃ l', l = tcp l' := by
  cases l with
  | tcp l => exact ⟨l, rfl⟩
  | udp l | multicast l | serial l => cases h

/-- **What is read since a connection was made** are the first lines of what the unit has sent since
then, the line that the next read gives included. -/
theorem readLine_of_opened {run after : List LinkStep} {opened : Link} {line : Text}
    (h : (closed .tcp).Opened net run opened after)
    (hline : ((closed .tcp).steps net run).2.readLine.1 = .ok line) :
    linesRead (opened.steps net after).1 ++ [line] <+: completeLines (sentBytes after) := by
  obtain ⟨before, interface, address, limit, rfl, hconnect, hclose⟩ := h
  obtain ⟨l₀, hl₀⟩ : ∃ l₀, ((closed .tcp).steps net before).2 = tcp l₀ :=
    exists_tcp (transport_steps net _ before)
  have hlast : ((closed .tcp).steps net (before ++ .connect interface address limit :: after)).2 =
      (opened.steps net after).2 := by
    rw [steps_append, steps, step, hconnect]
    rfl
  rw [hl₀] at hconnect
  obtain ⟨hnew, hkind⟩ := delivers_of_connect net (.inl (by rfl)) (by trivial) hconnect
  obtain ⟨later, heard, hheard, -, hl⟩ := hnew.steps_tcp hkind hclose
  -- The next read is one step more, so its line stands behind the lines that were returned.
  have hread : ((opened.steps net after).2.step net .read).1 = .line (.ok line) := by
    rw [← hlast]
    exact congrArg LinkAnswer.line hline
  have hlines := (hl.step net (fun _ ↦ (transport_steps net opened after).trans hkind)
    (t := .read) rfl).isPrefix
  have hhistory : (tcp l₀).waiting ++ heard ++ LinkStep.heard later .read = heard :=
    List.append_nil heard
  rw [hread, hhistory, List.nil_append, linesRead_line] at hlines
  exact hlines.trans (completeLines_mono hheard)

end Link

/-- **The life of a link**, over every transport and after any steps of either end. It is open
exactly if an opening succeeded since it was last closed. While it is open, it cannot be opened:
that fails for an address that is none, and else because it is open already, and leaves the link
with all that waits in it as it was. While it is closed, an opening that fails does so for one of
the reasons of its transport and leaves it as it was, reads and writes fail and change nothing, and
nothing reaches the unit. Over TCP the lines read since the last opening, and the one that the next
read gives, are the first lines of what the unit has sent since then, so nothing that came in before
shows in them. -/
theorem lifecycle_of_steps (net : Network) (kind : Transport) (run : List LinkStep) :
    let l := ((Link.closed kind).steps net run).2
    (l.isOpen = true ↔ ∃ opened after, (Link.closed kind).Opened net run opened after) ∧
    (l.isOpen = true → ∀ interface address limit,
      l.step net (.connect interface address limit) =
        (.outcome (.error (reopenFailure kind interface address)), l)) ∧
    (l.isOpen = false →
      (∀ interface address limit e, (l.connect net interface address limit).1 = .error e →
        l.step net (.connect interface address limit) = (.outcome (.error e), l) ∧
          e ∈ openingFailures kind) ∧
      l.step net .read = (.line (.error .notConnected), l) ∧
      (∀ p, l.step net (.write p) = (.outcome (.error .notConnected), l)) ∧
      (kind = .multicast → l.step net .readFrom = (.addressed (.error .notConnected), l)) ∧
      ∀ t, (l.step net t).2.reached <:+ l.reached) ∧
    (kind = .tcp → ∀ line, l.readLine.1 = .ok line →
      ∃ opened after, (Link.closed kind).Opened net run opened after ∧
        linesRead (opened.steps net after).1 ++ [line] <+: completeLines (sentBytes after)) := by
  intro l
  have hclosed : (Link.closed kind).isOpen = false := by cases kind <;> rfl
  have hkind : l.transport = kind := by
    rw [Link.transport_steps]
    cases kind <;> rfl
  refine ⟨Link.isOpen_steps hclosed run, fun hopen interface address limit ↦ ?_, fun hl ↦
    ⟨fun interface address limit e he ↦ ⟨?_, ?_⟩, ?_, fun p ↦ ?_, fun hcast ↦ ?_,
      Link.reached_step_of_closed hl⟩, ?_⟩
  · rw [Link.step, Link.connect_of_isOpen hopen, hkind]
    rfl
  · rw [Link.step, Link.connect_of_error he]
    rfl
  · exact hkind ▸ Link.mem_openingFailures net hl he
  · rw [Link.step, Link.readLine_of_closed hl]
    rfl
  · rw [Link.step, Link.write_of_closed hl]
    rfl
  · rw [Link.step, Link.readFrom_of_closed hl (hkind.trans hcast)]
    rfl
  · rintro rfl line hline
    have hopen : l.isOpen = true := by
      by_contra hnot
      rw [Link.readLine_of_closed (Bool.of_not_eq_true hnot)] at hline
      cases hline
    obtain ⟨opened, after, hopened⟩ := (Link.isOpen_steps hclosed run).mp hopen
    exact ⟨opened, after, hopened, Link.readLine_of_opened hopened hline⟩

/-- The beginning of a line that came in over one connection does not show in the first line of the
next. A host that does not let a socket join the group, or cannot set up a port, leaves the link
closed. -/
theorem lifecycle_of_steps_reconnected :
    let unit : IPv4 := ⟨127, 0, 0, 2⟩
    let net := Network.bench unit []
    let run : List LinkStep := [.connect none "127.0.0.2", .unitSend unit (.ofBytes [0x61]), .read,
      .close, .connect none "127.0.0.2", .unitSend unit (.ofBytes [0x62, 0x0a])]
    let l := ((Link.closed .tcp).steps net run).2
    let narrow : Network := { net.refusing .join with configures := fun _ ↦ false }
    l.readLine.1 = .ok ['b'] ∧
      (∃ opened after, (Link.closed .tcp).Opened net run opened after ∧
        linesRead (opened.steps net after).1 ++ [['b']] <+: completeLines (sentBytes after)) ∧
      l.step net (.connect none "127.0.0") = (.outcome (.error .invalidIPAddress), l) ∧
      (Link.closed .tcp).step net (.connect none "127.0.0.3") =
        (.outcome (.error .connectionFailed), .closed .tcp) ∧
      (Link.closed .multicast).step narrow (.connect none "127.0.0.1") =
        (.outcome (.error .failedToJoinGroup), .closed .multicast) ∧
      (Link.closed .serial).step narrow (.connect none []) =
        (.outcome (.error .failedToConfigurePort), .closed .serial) ∧
      (Link.closed .multicast).step net .readFrom =
        (.addressed (.error .notConnected), .closed .multicast) := by
  intro unit net run l narrow
  have hline : l.readLine.1 = .ok ['b'] := by decide
  obtain ⟨-, hreopen, -, hlines⟩ := lifecycle_of_steps net .tcp run
  have hidle := (lifecycle_of_steps net .tcp []).2.2.1 rfl
  have hgroup := (lifecycle_of_steps net .multicast []).2.2.1 rfl
  have hjoin := (lifecycle_of_steps narrow .multicast []).2.2.1 rfl
  have hport := (lifecycle_of_steps narrow .serial []).2.2.1 rfl
  refine ⟨hline, hlines rfl _ hline, hreopen (by decide) none "127.0.0" _,
    (hidle.1 none "127.0.0.3" _ _ (by decide)).1, (hjoin.1 none "127.0.0.1" _ _ (by decide)).1,
    (hport.1 none [] _ _ (by decide)).1, hgroup.2.2.2.1 rfl⟩

end BatteryBench
