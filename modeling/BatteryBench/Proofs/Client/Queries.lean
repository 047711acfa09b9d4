import BatteryBench.Proofs.Client.Conduct
import BatteryBench.Proofs.Number.Digits
import BatteryBench.Proofs.Reply

/-!
# Questions and answers

An operation that asks for an answer comes down to one text that is sent (`Operation.question?`) and
one reading of the line that comes back (`Operation.answer`). The arguments alone decide both, so
over any driver a client's query is the exchange of the one for the other
(`Client.perform_of_question?`), and a query without a question reaches no driver
(`Client.perform_of_question?_eq_none`).

Three laws hold for every operation: a question is short (`Operation.length_question?_le`), padding
around a line does not change the answer (`Operation.answer_padded`), and no answer looks like a
read that came too early (`Operation.answer_ne_readTimedOut`).
-/

namespace BatteryBench

/-! ### The questions about channels -/

namespace Quantity

theorem length_header_le (q : Quantity) :
    q.header.stem.length + q.header.ending.length ≤ 14 := by
  cases q <;> decide

theorem count_le (q : Quantity) : q.count ≤ 36 := by cases q <;> decide

/-- The number of a channel has at most two digits. -/
theorem length_decimal_le {q : Quantity} {n : Nat} (h : n ≤ q.count) : (decimal n).length ≤ 2 :=
  (length_decimal_le_iff (by decide)).mpr (by have := q.count_le; omega)

theorem length_channelQuery_le {q : Quantity} {n : Nat} (h : n ≤ q.count) :
    (q.header.channel n ++ "?" ++ lineEnd).length ≤ 32 := by
  have hheader := q.length_header_le
  have hnumber := q.length_decimal_le h
  simp only [Header.channel, lineEnd, List.length_append, List.length_cons, List.length_nil,
    show "?".toList = ['?'] from rfl]
  omega

theorem length_groupQuery_le {q : Quantity} {n : Nat} (h : n ≤ q.count) :
    (q.groupQuery n ++ lineEnd).length ≤ 32 := by
  have hheader := q.length_header_le
  have hnumber := q.length_decimal_le h
  simp only [groupQuery, Header.group, fullRange, lineEnd, List.length_append, List.length_cons,
    List.length_nil, show "? ".toList = ['?', ' '] from rfl,
    show "(@1:".toList = ['(', '@', '1', ':'] from rfl, show ")".toList = [')'] from rfl]
  omega

/-- Only a buffer with slots for existing channels is asked for. -/
theorem eq_of_getInto {q : Quantity} {slots : List q.Value} {buffer : Text}
    {parse : Text → Outcome (List q.Value)} (h : q.getInto slots = .query buffer parse) :
    slots.length ≤ q.count ∧ buffer = q.groupQuery slots.length ++ lineEnd ∧
      parse = Reply.list slots.length q.parse := by
  by_cases hle : slots.length ≤ q.count
  · by_cases hne : slots = []
    · simp [getInto, hne] at h
    · rw [getInto_eq_query hne hle, Request.query.injEq] at h
      exact ⟨hle, h.1.symm, h.2.symm⟩
  · simp [getInto, Nat.lt_of_not_le hle] at h

end Quantity

namespace Operation

/-! ### Questions and answers of an operation -/

/-- The text that an operation asks a unit with, if it comes to that. -/
def question? (op : Operation) : Option Text :=
  match op.request with
  | .query buffer _ => some buffer
  | _ => none

/-- What an operation gives if a line is the reply to its question. Where there is no question, that
is fixed beforehand. -/
def answer (op : Operation) (line : Text) : Outcome op.Result :=
  match op.request with
  | .refused reason => .error reason
  | .done v => .ok v
  | .command _ v => .ok v
  | .query _ parse => parse line

/-- A question is what the request sends, and the answer is how it reads the reply. -/
theorem request_of_question? {op : Operation} {buffer : Text} (h : op.question? = some buffer) :
    op.request = .query buffer op.answer := by
  cases hreq : op.request with
  | query sent parse =>
    obtain rfl : sent = buffer := by simpa [question?, hreq] using h
    have hparse : op.answer = parse := funext fun line ↦ by simp [answer, hreq]
    rw [hparse]
  | _ => simp [question?, hreq] at h

/-- Only a query has a question. -/
theorem isQuery_of_question? {op : Operation} {buffer : Text} (h : op.question? = some buffer) :
    op.isQuery := by
  have hreq := request_of_question? h
  rcases op.request_cases with ⟨e, -, hnone⟩ | ⟨v, hnone⟩ | ⟨hquery, -⟩ | ⟨-, sent, v, hnone⟩
  · exact nomatch hreq.symm.trans hnone
  · exact nomatch hreq.symm.trans hnone
  · exact hquery
  · exact nomatch hreq.symm.trans hnone

/-- A query without a question needs no driver. -/
theorem not_needsDriver_of_question? {op : Operation} (hquery : op.isQuery)
    (h : op.question? = none) : ¬op.NeedsDriver := by
  intro hneeds
  obtain ⟨buffer, parse, hreq⟩ := request_of_isQuery hneeds hquery
  simp [question?, hreq] at h

/-- **Every question is short, and every answer keeps the law of readers.** -/
theorem asks_of_question? {op : Operation} {buffer : Text} (h : op.question? = some buffer) :
    buffer.length ≤ 32 ∧ Reply.Reads op.answer := by
  have hquery := isQuery_of_question? h
  have hreq := request_of_question? h
  generalize op.answer = parse at hreq
  cases op with
  | get q index =>
    rw [request, Quantity.get, channelNumber] at hreq
    by_cases hlt : index < q.count
    · rw [if_pos hlt] at hreq
      cases hreq
      exact ⟨Quantity.length_channelQuery_le hlt, .value q.kind⟩
    · rw [if_neg hlt] at hreq
      cases hreq
  | getAll q =>
    cases hreq
    exact ⟨Quantity.length_groupQuery_le (Nat.le_refl _), (Reply.Reads.value q.kind).list q.count⟩
  | getMask f =>
    have hlist (q : Quantity) := (Reply.Reads.value q.kind).list q.count
    cases f with
    | enabled =>
      cases hreq
      exact ⟨by decide, (hlist .enabled).map maskOfFlags⟩
    | digitalOutput =>
      cases hreq
      exact ⟨by decide, (hlist .digitalOutput).map maskOfFlags⟩
    | digitalInput =>
      cases hreq
      exact ⟨by decide, (hlist .digitalInput).map maskOfFlags⟩
  | getInto q slots =>
    obtain ⟨hle, rfl, rfl⟩ := Quantity.eq_of_getInto hreq
    exact ⟨Quantity.length_groupQuery_le hle, (Reply.Reads.value q.kind).list slots.length⟩
  | getPrecision => cases hreq; exact ⟨by decide, .keyword Precision⟩
  | getIdentity => cases hreq; exact ⟨by decide, .identity⟩
  | getBusNumber => cases hreq; exact ⟨by decide, (Reply.Reads.integer _).map _⟩
  | getEthernet => cases hreq; exact ⟨by decide, .ethernet⟩
  | getCalibrationDate => cases hreq; exact ⟨by decide, .text⟩
  | getErrorCount => cases hreq; exact ⟨by decide, (Reply.Reads.integer _).map _⟩
  | takeError => cases hreq; exact ⟨by decide, .errorEntry⟩
  | getAlarms => cases hreq; exact ⟨by decide, (Reply.Reads.integer _).map _⟩
  | getModelStatus => cases hreq; exact ⟨by decide, (Reply.Reads.integer _).map _⟩
  | getModel => cases hreq; exact ⟨by decide, .model⟩
  | getModelId => cases hreq; exact ⟨by decide, .text⟩
  | _ => cases hquery

theorem length_question?_le {op : Operation} {buffer : Text} (h : op.question? = some buffer) :
    buffer.length ≤ 32 :=
  (asks_of_question? h).1

/-- Without a question the line does not matter. -/
theorem answer_congr {op : Operation} (h : op.question? = none) (line line' : Text) :
    op.answer line = op.answer line' := by
  cases hreq : op.request with
  | query buffer parse => simp [question?, hreq] at h
  | _ => simp only [answer, hreq]

/-- **Padding around a line does not change the answer.** -/
theorem answer_padded {a b : Text} (ha : IsAllPadding a) (hb : IsAllPadding b) (op : Operation)
    (line : Text) : op.answer (a ++ line ++ b) = op.answer line := by
  cases hquestion : op.question? with
  | none => exact answer_congr hquestion _ _
  | some buffer => exact (asks_of_question? hquestion).2.padded ha hb line

/-- Only arguments are refused. -/
theorem argumentFailure?_of_refused {op : Operation} {e : Failure} (h : op.request = .refused e) :
    op.argumentFailure? = some e := by
  rcases op.request_cases with ⟨e', hargs, hreq⟩ | ⟨v, hreq⟩ | ⟨-, buffer, parse, hreq⟩ |
    ⟨-, buffer, v, hreq⟩
  · rw [hargs, Request.refused.inj (h.symm.trans hreq)]
  · exact nomatch h.symm.trans hreq
  · exact nomatch h.symm.trans hreq
  · exact nomatch h.symm.trans hreq

theorem argumentFailure?_ne_readTimedOut (op : Operation) :
    op.argumentFailure? ≠ some .readTimedOut := by
  cases op with
  | set _ _ _ | get _ _ | setEach _ _ | getInto _ _ | setEthernet _ =>
    rw [argumentFailure?]
    split <;> decide
  | _ => rintro ⟨⟩

/-- **No answer looks like a read that came too early.** -/
theorem answer_ne_readTimedOut (op : Operation) (line : Text) :
    op.answer line ≠ .error .readTimedOut := by
  intro h
  cases hreq : op.request with
  | done v => simp [answer, hreq] at h
  | command buffer v => simp [answer, hreq] at h
  | refused e =>
    obtain rfl : e = .readTimedOut := by simpa [answer, hreq] using h
    exact op.argumentFailure?_ne_readTimedOut (argumentFailure?_of_refused hreq)
  | query buffer parse =>
    have hquestion : op.question? = some buffer := by simp [question?, hreq]
    exact absurd ((asks_of_question? hquestion).2.failure h) (by decide)

end Operation

/-! ### Queries over any driver -/

namespace Client

variable {σ : Type} [Driver σ]

/-- A question is exchanged for a line, and the line is read. -/
theorem perform_of_question? {op : Operation} {buffer : Text} (h : op.question? = some buffer)
    (c : Client σ) :
    c.perform op = ((c.exchange buffer).1.bind op.answer, (c.exchange buffer).2) := by
  rw [perform, Operation.request_of_question? h, run]
  rcases c.exchange buffer with ⟨_ | _, _⟩ <;> rfl

/-- A query without a question reaches no driver, and no line matters to it. -/
theorem perform_of_question?_eq_none {op : Operation} (hquery : op.isQuery)
    (h : op.question? = none) (line : Text) (c : Client σ) :
    c.perform op = (op.answer line, c) := by
  rcases Operation.request_of_not_needsDriver (Operation.not_needsDriver_of_question? hquery h) with
    ⟨e, hreq⟩ | ⟨v, hreq⟩ <;> simp only [perform, run, Operation.answer, hreq]

end Client

end BatteryBench
