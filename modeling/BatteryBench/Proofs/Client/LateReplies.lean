import BatteryBench.Proofs.Client.Queries

/-!
# Replies that come late

A line carries no sign of the question it replies to, and a client that times out leaves the reply
on its way. So the next question is answered with it, and every later one with the reply before its
own: a query gives what it makes of **the reply to the question that was sent as many questions
earlier as queries have timed out** (`Client.perform_of_timeouts`). As long as none has, that is its
own reply.

The unit here replies to every text with one line, and what lies between it and the client keeps the
lines in order but takes any time over each (`LateUnit`). How late they are is written down as how
many become readable by each read, which is all that a client can tell of it.
-/

namespace BatteryBench

/-! ### The unit -/

/-- A unit that replies to every text with one line, and the lines that are on their way from it. -/
structure LateUnit where
  /-- The reply to a text, after the texts before it. -/
  reply : List Text → Text → Text
  /-- How many lines become readable by each later read; none where the list ends. -/
  arrivals : List Nat
  /-- The texts so far. -/
  heard : List Text := []
  /-- The lines that are on their way. -/
  coming : List Text := []
  /-- The lines that are readable. -/
  inbox : List Text := []

namespace LateUnit

/-- The unit hears a text and sends its reply on the way. -/
def send (text : Text) (u : LateUnit) : LateUnit :=
  { u with heard := u.heard ++ [text], coming := u.coming ++ [u.reply u.heard text] }

/-- The next lines become readable. -/
def arrive (u : LateUnit) : LateUnit :=
  let due := u.arrivals.headD 0
  { u with
    arrivals := u.arrivals.tail
    coming := u.coming.drop due
    inbox := u.inbox ++ u.coming.take due }

/-- The first readable line is taken. -/
def take (u : LateUnit) : Outcome Text × LateUnit :=
  match u.inbox with
  | line :: rest => (.ok line, { u with inbox := rest })
  | [] => (.error .readTimedOut, u)

instance : Driver LateUnit where
  sendOnly _ := false
  deviceId _ := 0
  selectDevice _ u := u
  send text _ u := (.ok (), u.send text)
  readLine _ u := u.arrive.take

/-! ### Replies and reads -/

/-- The replies to texts, in order, after the texts before them. -/
def replies (reply : List Text → Text → Text) : (before : List Text) → List Text → List Text
  | _, [] => []
  | before, text :: texts => reply before text :: replies reply (before ++ [text]) texts

theorem length_replies (reply : List Text → Text → Text) (before texts : List Text) :
    (replies reply before texts).length = texts.length := by
  induction texts generalizing before with
  | nil => rfl
  | cons text texts ih => rw [replies, List.length_cons, ih, List.length_cons]

/-- One more text has one more reply. -/
theorem replies_concat (reply : List Text → Text → Text) (before texts : List Text) (text : Text) :
    replies reply before (texts ++ [text]) =
      replies reply before texts ++ [reply (before ++ texts) text] := by
  induction texts generalizing before with
  | nil => rw [List.nil_append, List.append_nil]; rfl
  | cons first texts ih =>
    rw [List.cons_append, replies, ih, replies, List.cons_append, List.append_assoc,
      List.singleton_append]

/-- How many replies have become readable by the read that follows the last of some texts. -/
def readable (arrivals : List Nat) : (texts : Nat) → Nat
  | 0 => 0
  | n + 1 => min (readable arrivals n + arrivals.getD n 0) (n + 1)

theorem readable_le (arrivals : List Nat) (n : Nat) : readable arrivals n ≤ n := by
  cases n with
  | zero => exact Nat.le_refl 0
  | succ n => exact Nat.min_le_right _ _

/-- The reply at a place if it is readable by the read that follows the last of some texts. -/
def replyAt (reply : List Text → Text → Text) (arrivals : List Nat) (texts : List Text)
    (place : Nat) : Outcome Text :=
  match ((replies reply [] texts).take (readable arrivals texts.length))[place]? with
  | some line => .ok line
  | none => .error .readTimedOut

/-- At the place of the last text there is its own reply, or none yet. -/
theorem replyAt_length (reply : List Text → Text → Text) (arrivals : List Nat) (texts : List Text)
    (text : Text) :
    replyAt reply arrivals (texts ++ [text]) texts.length = .error .readTimedOut ∨
      replyAt reply arrivals (texts ++ [text]) texts.length = .ok (reply texts text) := by
  rw [replyAt]
  split
  · next line hline =>
    have hplace : (replies reply [] texts).length ≤ texts.length :=
      Nat.le_of_eq (length_replies reply [] texts)
    have hown : (replies reply [] (texts ++ [text]))[texts.length]? = some line := by
      rw [List.getElem?_take] at hline
      split at hline
      · exact hline
      · cases hline
    rw [replies_concat, List.getElem?_append_right hplace, length_replies, Nat.sub_self,
      List.nil_append] at hown
    exact .inr (by rw [← Option.some.inj hown])
  · exact .inl rfl

/-! ### What the unit owes -/

/-- **What is on its way from a unit**, for the texts it heard and the number of replies that were
taken: the replies from that number on, as far as they are readable in the inbox. -/
structure Owes (reply : List Text → Text → Text) (arrivals : List Nat) (heard : List Text)
    (taken : Nat) (u : LateUnit) : Prop where
  /-- The unit is the same. -/
  unit : u.reply = reply
  /-- It has heard the texts. -/
  texts : u.heard = heard
  /-- There was one read for each. -/
  reads : u.arrivals = arrivals.drop heard.length
  /-- The replies that were not taken are on their way or readable. -/
  lines : u.inbox ++ u.coming = (replies reply [] heard).drop taken
  /-- Those that have arrived were taken or are readable. -/
  inbox : taken + u.inbox.length = readable arrivals heard.length

variable {reply : List Text → Text → Text} {arrivals : List Nat} {heard : List Text} {taken : Nat}
  {u : LateUnit}

theorem owes_nil (reply : List Text → Text → Text) (arrivals : List Nat) :
    Owes reply arrivals [] 0 { reply := reply, arrivals := arrivals } :=
  ⟨rfl, rfl, rfl, rfl, rfl⟩

theorem Owes.taken_le (h : u.Owes reply arrivals heard taken) : taken ≤ heard.length :=
  Nat.le_trans (Nat.le.intro h.inbox) (readable_le arrivals heard.length)

/-- Every reply was taken, or is readable or on its way. -/
theorem Owes.length_lines (h : u.Owes reply arrivals heard taken) :
    taken + (u.inbox.length + u.coming.length) = heard.length := by
  have hlength := congrArg List.length h.lines
  have hle := h.taken_le
  rw [List.length_append, List.length_drop, length_replies] at hlength
  omega

/-- One more text puts its reply behind those that were not taken. -/
theorem Owes.lines_send (h : u.Owes reply arrivals heard taken) (text : Text) :
    u.inbox ++ (u.send text).coming = (replies reply [] (heard ++ [text])).drop taken := by
  have hle : taken ≤ (replies reply [] heard).length := by
    rw [length_replies]
    exact h.taken_le
  have hsent : (u.send text).coming = u.coming ++ [reply heard text] := by
    rw [← h.unit, ← h.texts]
    rfl
  rw [hsent, ← List.append_assoc, h.lines, replies_concat, List.drop_append_of_le_length hle,
    List.nil_append]

/-- After one more text, the replies that are readable at the next read are in the inbox. -/
theorem Owes.arrive (h : u.Owes reply arrivals heard taken) (text : Text) :
    (u.send text).arrive.Owes reply arrivals (heard ++ [text]) taken := by
  have harrivals : (u.send text).arrivals = arrivals.drop heard.length := h.reads
  have hdue : (u.send text).arrivals.headD 0 = arrivals.getD heard.length 0 := by
    rw [harrivals]
    simp [List.headD_eq_head?_getD, List.getD_eq_getElem?_getD]
  refine ⟨h.unit, ?_, ?_, ?_, ?_⟩
  · show u.heard ++ [text] = _
    rw [h.texts]
  · show (u.send text).arrivals.tail = _
    rw [harrivals, List.tail_drop, List.length_append, List.length_singleton]
  · show (u.inbox ++ (u.send text).coming.take _) ++ (u.send text).coming.drop _ = _
    rw [List.append_assoc, List.take_append_drop, h.lines_send]
  · -- At most the replies on their way can arrive, and there is one more of them than before.
    show taken + (u.inbox ++ (u.send text).coming.take _).length = _
    have hsent : (u.send text).coming.length = u.coming.length + 1 := List.length_append
    have hlines := h.length_lines
    rw [hdue, List.length_append, List.length_take, hsent, List.length_append,
      List.length_singleton, readable, ← h.inbox]
    omega

/-- **A read takes the next reply** if it is readable. -/
theorem Owes.take (h : u.Owes reply arrivals heard taken) :
    u.take.1 = replyAt reply arrivals heard taken ∧
      u.take.2.Owes reply arrivals heard (taken + u.take.1.toOption.toList.length) := by
  have hinbox : u.inbox = ((replies reply [] heard).take (readable arrivals heard.length)).drop
      taken := by
    rw [← h.inbox, List.drop_take, ← h.lines, Nat.add_sub_cancel_left, List.take_left]
  have hnext : ((replies reply [] heard).take (readable arrivals heard.length))[taken]? =
      u.inbox.head? := by
    rw [hinbox, List.head?_drop]
  rw [LateUnit.take, replyAt, hnext]
  cases hu : u.inbox with
  | nil => exact ⟨rfl, h⟩
  | cons line rest =>
    refine ⟨rfl, h.unit, h.texts, h.reads, ?_, ?_⟩
    · have hlines := congrArg List.tail h.lines
      rw [hu, List.tail_drop] at hlines
      exact hlines
    · have hlength := h.inbox
      rw [hu, List.length_cons] at hlength
      show taken + 1 + rest.length = _
      omega

end LateUnit

/-! ### A client of the unit -/

/-- Whether an operation failed because no line came in time. -/
def timedOut {α : Type} : Outcome α → Bool
  | .error .readTimedOut => true
  | _ => false

namespace Client

/-- How many operations of a run fail because no line comes in time. -/
def timeouts {σ : Type} [Driver σ] : List Operation → Client σ → Nat
  | [], _ => 0
  | op :: ops, c => (if timedOut (c.perform op).1 then 1 else 0) + timeouts ops (c.perform op).2

open LateUnit

variable {reply : List Text → Text → Text} {arrivals : List Nat} {heard : List Text} {taken : Nat}
  {u : LateUnit}

/-- **One question** is answered with the first reply that was not taken, or times out. -/
theorem perform_of_owes (h : u.Owes reply arrivals heard taken) (ms : Nat) {op : Operation}
    {buffer : Text} (hquestion : op.question? = some buffer) :
    ∃ u' : LateUnit,
      (⟨some u, ms⟩ : Client LateUnit).perform op =
        ((replyAt reply arrivals (heard ++ [buffer]) taken).bind op.answer, ⟨some u', ms⟩) ∧
      u'.Owes reply arrivals (heard ++ [buffer])
        (taken + (replyAt reply arrivals (heard ++ [buffer]) taken).toOption.toList.length) := by
  obtain ⟨hline, howes⟩ := (h.arrive buffer).take
  refine ⟨(u.send buffer).arrive.take.2, ?_, hline ▸ howes⟩
  rw [perform_of_question? hquestion, ← hline]
  rfl

theorem timedOut_answer (op : Operation) (line : Text) : timedOut (op.answer line) = false := by
  have hne := op.answer_ne_readTimedOut line
  cases hanswer : op.answer line with
  | ok v => rfl
  | error e =>
    rw [hanswer] at hne
    unfold timedOut
    split
    · next heq => exact absurd heq hne
    · rfl

/-- A question times out exactly if no line is read. -/
theorem timedOut_bind_answer (op : Operation) (reply : List Text → Text → Text)
    (arrivals : List Nat) (texts : List Text) (place : Nat) :
    (if timedOut ((replyAt reply arrivals texts place).bind op.answer) then 1 else 0) +
      (replyAt reply arrivals texts place).toOption.toList.length = 1 := by
  rw [replyAt]
  split
  · next line hline =>
    show (if timedOut (op.answer line) then 1 else 0) + 1 = 1
    rw [timedOut_answer]
    rfl
  · rfl

/-- **A run of queries** leaves the replies on their way that its questions have and its reads did
not take, one for each that timed out. -/
theorem owes_performAll (h : u.Owes reply arrivals heard taken) (ms : Nat) {ops : List Operation}
    (hops : ∀ op ∈ ops, op.isQuery) :
    ∃ (u' : LateUnit) (taken' : Nat),
      (⟨some u, ms⟩ : Client LateUnit).performAll ops = ⟨some u', ms⟩ ∧
      u'.Owes reply arrivals (heard ++ ops.filterMap Operation.question?) taken' ∧
      (⟨some u, ms⟩ : Client LateUnit).timeouts ops + taken' =
        taken + (ops.filterMap Operation.question?).length := by
  induction ops generalizing u heard taken with
  | nil => exact ⟨u, taken, rfl, by simpa using h, Nat.zero_add taken⟩
  | cons op ops ih =>
    obtain ⟨hquery, hops⟩ := List.forall_mem_cons.mp hops
    rw [performAll, List.foldl_cons, timeouts]
    cases hquestion : op.question? with
    | none =>
      rw [perform_of_question?_eq_none hquery hquestion [], List.filterMap_cons_none hquestion]
      obtain ⟨u', taken', hu', howes, hcount⟩ := ih h hops
      exact ⟨u', taken', hu', howes, by rw [timedOut_answer]; simpa using hcount⟩
    | some buffer =>
      obtain ⟨u₁, hperform, howes₁⟩ := perform_of_owes h ms hquestion
      obtain ⟨u', taken', hu', howes, hcount⟩ := ih howes₁ hops
      have hone := timedOut_bind_answer op reply arrivals (heard ++ [buffer]) taken
      rw [hperform, List.filterMap_cons_some hquestion]
      refine ⟨u', taken', hu', by simpa using howes, ?_⟩
      rw [List.length_cons]
      dsimp only at hcount ⊢
      omega

/-- **A query answers with the reply to the question that was sent as many questions earlier as
queries have timed out**, or times out itself if that reply is not readable yet. So it answers with
its own reply, as long as no query before it has timed out. -/
theorem perform_of_timeouts (reply : List Text → Text → Text) (arrivals : List Nat) (ms : Nat)
    {ops : List Operation} (hops : ∀ op ∈ ops, op.isQuery) {op : Operation} {buffer : Text}
    (hquestion : op.question? = some buffer) :
    let c : Client LateUnit := ⟨some { reply := reply, arrivals := arrivals }, ms⟩
    let asked := ops.filterMap Operation.question?
    let result := ((c.performAll ops).perform op).1
    result = (replyAt reply arrivals (asked ++ [buffer]) (asked.length - c.timeouts ops)).bind
      op.answer ∧
    (c.timeouts ops = 0 →
      result = .error .readTimedOut ∨ result = op.answer (reply asked buffer)) := by
  intro c asked result
  obtain ⟨u, taken, hrun, howes, hcount⟩ := owes_performAll (owes_nil reply arrivals) ms hops
  obtain ⟨u', hperform, -⟩ := perform_of_owes howes ms hquestion
  have htaken : asked.length - c.timeouts ops = taken := by
    rw [Nat.zero_add] at hcount
    exact Nat.sub_eq_of_eq_add' hcount.symm
  have hresult : result = (replyAt reply arrivals (asked ++ [buffer]) taken).bind op.answer := by
    show ((c.performAll ops).perform op).1 = _
    rw [hrun, hperform]
    rfl
  refine ⟨by rw [htaken, hresult], fun hnone ↦ ?_⟩
  rw [hnone, Nat.sub_zero] at htaken
  rw [hresult, ← htaken]
  rcases replyAt_length reply arrivals asked buffer with hown | hown <;> rw [hown]
  · exact .inl rfl
  · exact .inr rfl

end Client

/-- The replies of a unit that replies with the number of texts before. -/
def numberedReply (before : List Text) (_ : Text) : Text := decimal before.length

/-- After one query that timed out, the third one is answered with the second reply. -/
theorem Client.perform_of_timeouts_numbered :
    let c : Client LateUnit := ⟨some { reply := numberedReply, arrivals := [0, 1, 1] }, 150⟩
    let run := [Operation.getAlarms, .getErrorCount]
    (∀ op ∈ run, op.isQuery) ∧
      Operation.getErrorCount.question? = some ("SYST:ERR:COUN?" ++ lineEnd) ∧
      c.timeouts run = 1 ∧
      ((c.performAll run).perform .getErrorCount).1 = .ok 1 := by
  intro c run
  have hrun : ∀ op ∈ run, op.isQuery := by decide
  have hquestion : Operation.getErrorCount.question? = some ("SYST:ERR:COUN?" ++ lineEnd) := by rfl
  have hlate : c.timeouts run = 1 := by decide
  refine ⟨hrun, hquestion, hlate, ?_⟩
  rw [(perform_of_timeouts numberedReply [0, 1, 1] 150 hrun hquestion).1]
  decide

/-- A count of the error queue that is the reply to the query for alarms before it. -/
theorem late_reply_answers_next_query :
    let c : Client LateUnit := ⟨some { reply := numberedReply, arrivals := [0, 1] }, 150⟩
    let own := numberedReply ["ALAR?" ++ lineEnd] ("SYST:ERR:COUN?" ++ lineEnd)
    (c.perform .getAlarms).1 = .error .readTimedOut ∧
      ((c.perform .getAlarms).2.perform .getErrorCount).1 = .ok 0 ∧
      Operation.getErrorCount.answer own = .ok 1 := by
  decide

end BatteryBench
