import BatteryBench.Client.Basic
import BatteryBench.Proofs.Client.Writes

/-!
# A reference unit

The simplest unit that does what its commands say: it keeps one text for each numbered place of each
group, stores what it is told to store, and reports it as it is stored. For the places that hold a
keyword it knows the keywords itself, and stores the one it answers with.

The unit reads lines by `Wire.instructions`, so it shares no table with a client: neither headers,
nor channel numbers, nor keywords. It is a driver, as a client sees one: what is sent to it is
carried out at once, and its answers are read in order.
-/

namespace BatteryBench

/-! ### The unit -/

/-- A unit that keeps one text for each place. -/
structure ReferenceUnit where
  /-- The text at a numbered place of a group. -/
  text : Text → Nat → Text
  /-- The answers that were not read yet. -/
  outbox : List Text := []

namespace ReferenceUnit

/-- The keywords of a group, each with the keyword that is answered; none where any text is taken.
-/
def keywords (group : Text) : List (Text × Text) :=
  if group = "OUTP:FAUL" then
    [("NONE", "NONE"), ("OPEN", "OPENCIRCUIT"), ("SHORT", "SHORTCIRCUIT"), ("POL", "POLARITY")]
  else if group = "SENS:RANG" then [("AUTO", "AUTO"), ("LO", "LOW"), ("HI", "HIGH")]
  else if group = "CONF:MEAS:MODE" then
    [("NORM", "NORMAL"), ("PREC", "PRECISION"), ("FILT", "FILTER")]
  else []

/-- The text that is stored for an argument; a keyword that is not known is not taken. -/
def accepted? (group argument : Text) : Option Text :=
  if keywords group = [] then some argument else (keywords group).lookup argument

/-- Puts a text into a place. -/
def put (u : ReferenceUnit) (a : Wire.Assignment) : ReferenceUnit :=
  match accepted? a.group a.argument with
  | some t =>
    { u with text := fun group n ↦ if group = a.group ∧ n = a.number then t else u.text group n }
  | none => u

/-- Carries out an instruction. -/
def carryOut (u : ReferenceUnit) (i : Wire.Instruction) : ReferenceUnit :=
  match i with
  | .store _ _ _ => i.assignments.foldl put u
  | .report group channels =>
    { u with outbox := u.outbox ++ [[','].intercalate (channels.map (u.text group))] }

/-- Carries out a line. -/
def receive (u : ReferenceUnit) (buffer : Text) : ReferenceUnit :=
  (Wire.instructions buffer).foldl carryOut u

instance : Driver ReferenceUnit where
  sendOnly _ := false
  deviceId _ := 0
  selectDevice _ u := u
  send buffer _ u := (.ok (), u.receive buffer)
  readLine _ u :=
    match u.outbox with
    | [] => (.error .readTimedOut, u)
    | line :: rest => (.ok line, { u with outbox := rest })

/-! ### What a line does -/

theorem foldl_carryOut {is : List Wire.Instruction} (h : ∀ i ∈ is, i.isStore) (u : ReferenceUnit) :
    is.foldl carryOut u = (is.flatMap Wire.Instruction.assignments).foldl put u := by
  induction is generalizing u with
  | nil => rfl
  | cons i is ih =>
    obtain ⟨hi, his⟩ := List.forall_mem_cons.mp h
    rw [List.foldl_cons, List.flatMap_cons, List.foldl_append, ih his]
    cases i with
    | store group channels argument => rfl
    | report group channels => cases hi

/-- A line that only stores puts its assignments into their places. -/
theorem receive_of_isStore {buffer : Text} (h : ∀ i ∈ Wire.instructions buffer, i.isStore)
    (u : ReferenceUnit) : u.receive buffer = (Wire.assignments buffer).foldl put u :=
  foldl_carryOut h u

end ReferenceUnit

/-! ### A client of the unit -/

namespace Client

variable {u : ReferenceUnit} {ms : Nat}

/-- A command is carried out. -/
theorem perform_command {op : Operation} {buffer : Text} {v : op.Result}
    (hreq : op.request = .command buffer v) :
    (⟨some u, ms⟩ : Client ReferenceUnit).perform op = (.ok v, ⟨some (u.receive buffer), ms⟩) := by
  simp [perform, run, hreq, transmit, Driver.send]

/-- A query is answered with the stored texts, and leaves the unit as it was. -/
theorem perform_query (op : Operation) (hidle : u.outbox = []) {buffer : Text}
    {parse : Text → Outcome op.Result} (hreq : op.request = .query buffer parse) {group : Text}
    {ns : List Nat} (h : Wire.instructions buffer = [.report group ns]) :
    (⟨some u, ms⟩ : Client ReferenceUnit).perform op =
      (parse ([','].intercalate (ns.map (u.text group))), ⟨some u, ms⟩) := by
  obtain ⟨text, outbox⟩ := u
  obtain rfl : outbox = [] := hidle
  have hreceive : (⟨text, []⟩ : ReferenceUnit).receive buffer =
      ⟨text, [[','].intercalate (ns.map (text group))]⟩ := by
    rw [ReferenceUnit.receive, h]
    rfl
  simp only [perform, run, hreq, exchange, transmit, receive, Driver.send, Driver.readLine,
    Driver.sendOnly, hreceive, Option.any_some]
  rfl

/-- Where no driver is needed, the client stays as it is. -/
theorem perform_of_not_needsDriver {op : Operation} {σ : Type} [Driver σ] {c : Client σ}
    (h : ¬op.NeedsDriver) : (c.perform op).2 = c := by
  rcases Operation.request_of_not_needsDriver h with ⟨e, hreq⟩ | ⟨v, hreq⟩ <;>
    simp only [perform, run, hreq]

end Client

/-! ### Queries for channels -/

namespace Quantity

theorem semicolon_not_mem_groupQuery (q : Quantity) (n : Nat) : ';' ∉ q.groupQuery n := by
  rw [groupQuery, List.mem_append, List.mem_append]
  rintro ((hmem | hmem) | hmem)
  · exact q.isWord_header.group.not_mem (by decide) hmem
  · exact absurd hmem (by decide)
  · exact (isSelection_fullRange n).not_mem (by decide) hmem

/-- The query for one channel has one report of one text. -/
theorem instructions_channel (q : Quantity) (n : Nat) :
    Wire.instructions (q.header.channel n ++ "?" ++ lineEnd) = [.report q.header.group [n]] := by
  have hsemicolon : ';' ∉ q.header.channel n ++ ['?'] :=
    (q.isWord_header.channel n).not_mem_question (by decide) (by decide)
  rw [Wire.instructions, show "?".toList = ['?'] from rfl, Wire.commands_singleton hsemicolon,
    List.filterMap_cons_some (Wire.instruction?_channel q.isPlain_header n), List.filterMap_nil]

/-- The query for the first channels of a group has one report of their texts. -/
theorem instructions_groupQuery (q : Quantity) (n : Nat) :
    Wire.instructions (q.groupQuery n ++ lineEnd) =
      [.report q.header.group ((List.range n).map (· + 1))] := by
  rw [Wire.instructions, Wire.commands_singleton (q.semicolon_not_mem_groupQuery n),
    List.filterMap_cons_some (Wire.instruction?_groupQuery q n), List.filterMap_nil]

end Quantity

end BatteryBench
