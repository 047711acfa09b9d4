import BatteryBench.Proofs.Client.Queries
import BatteryBench.Proofs.Number.Grammar
import BatteryBench.Proofs.Number.Value

/-!
# The numbers that a client gives

Every number in the result of an operation was read in a field of the reply (`Operation.numbers`,
`Operation.numberFields`), and nothing but the text of that field decides about it. It is finite
exactly if the field is a numeral below the overflow (`Reply.isFinite_number_iff`).

A reader asks for no more than that the field is a numeral or a word for a value. So a number that a
client gives need not be finite: a unit may answer with the word for infinity or for what is no
number, and a numeral may be too great for the format. `numbers_read` says exactly when.
-/

namespace BatteryBench

/-! ### Numbers in replies -/

/-- Whether a text is the numeral of a finite number. -/
def IsFiniteNumeral (t : Text) : Prop :=
  ∃ n, Numeral.read? t = some n ∧ |n.value| < Numeral.overflow

namespace Reply

variable {t : Text} {x : Binary32}

theorem number_eq_ok_iff : number t = .ok x ↔ binary32? (trim t) = some x :=
  orInvalid_eq_ok_iff

/-- **A text is read as a number exactly if it is a numeral or a word for a value**, padding around
it aside. -/
theorem number_eq_ok_iff_read? :
    number t = .ok x ↔
      (∃ n, Numeral.read? (trim t) = some n ∧ n.toBinary32 = x) ∨ IsValueWord (trim t) x := by
  rw [number_eq_ok_iff, binary32?_eq_some_iff]

theorem exists_number_iff :
    (∃ x, number t = .ok x) ↔ IsNumeral (trim t) ∨ ∃ x, IsValueWord (trim t) x := by
  rw [← Numeral.read?_isSome_iff, Option.isSome_iff_exists]
  constructor
  · rintro ⟨x, hx⟩
    rcases number_eq_ok_iff_read?.mp hx with ⟨n, hn, -⟩ | hword
    · exact .inl ⟨n, hn⟩
    · exact .inr ⟨x, hword⟩
  · rintro (⟨n, hn⟩ | ⟨x, hword⟩)
    · exact ⟨_, number_eq_ok_iff_read?.mpr (.inl ⟨n, hn, rfl⟩)⟩
    · exact ⟨x, number_eq_ok_iff_read?.mpr (.inr hword)⟩

/-- **The number is finite exactly if the text is the numeral of a finite number.** -/
theorem isFinite_number_iff (h : number t = .ok x) : x.isFinite ↔ IsFiniteNumeral (trim t) := by
  constructor
  · intro hfinite
    rcases number_eq_ok_iff_read?.mp h with ⟨n, hn, rfl⟩ | hword
    · exact ⟨n, hn, n.isFinite_toBinary32.mp hfinite⟩
    · rw [hword.isFinite_eq_false] at hfinite
      cases hfinite
  · rintro ⟨n, hn, hlt⟩
    have hx := (number_eq_ok_iff.mp h).symm.trans (binary32?_of_read? hn)
    rw [Option.some.inj hx]
    exact n.isFinite_toBinary32.mpr hlt

theorem forall_isFinite_iff {fields : List Text} {xs : List Binary32}
    (h : fields.map number = xs.map .ok) :
    (∀ x ∈ xs, x.isFinite) ↔ ∀ field ∈ fields, IsFiniteNumeral (trim field) := by
  induction fields generalizing xs with
  | nil =>
    obtain rfl : xs = [] := by simpa using h.symm
    simp
  | cons field fields ih =>
    obtain ⟨x, xs, rfl, hx, hxs⟩ := List.map_eq_cons_iff.mp h.symm
    rw [List.forall_mem_cons, List.forall_mem_cons, isFinite_number_iff hx.symm, ih hxs.symm]

end Reply

/-! ### Numbers in results -/

/-- The numbers among the values of a kind: the value itself if it is one. -/
def ValueKind.numbers : (k : ValueKind) → k.Carrier → List Binary32
  | number, v => [v]
  | _, _ => []

/-- The fields that are read as numbers: those of the kind whose values are. -/
def ValueKind.numberFields : ValueKind → List Text → List Text
  | number, fields => fields
  | _, _ => []

namespace Operation

/-- The numbers in the result of an operation. -/
def numbers : (op : Operation) → op.Result → List Binary32
  | get q _, v => q.kind.numbers v
  | getAll q, vs | getInto q _, vs => vs.flatMap q.kind.numbers
  | _, _ => []

/-- The texts in a reply that an operation reads numbers in: the reply itself, or the fields of the
list that it is. -/
def numberFields : Operation → Text → List Text
  | get q _, line => q.kind.numberFields [line]
  | getAll q, line | getInto q _, line => q.kind.numberFields (splitAt ',' (trim line))
  | _, _ => []

end Operation

/-- Values are numbers in the order of the fields they were read in. -/
theorem ValueKind.map_number {k : ValueKind} {fields : List Text} {vs : List k.Carrier}
    (h : fields.map k.parse = vs.map .ok) :
    (k.numberFields fields).map Reply.number = (vs.flatMap k.numbers).map .ok := by
  have hnone : vs.flatMap (fun _ ↦ ([] : List Binary32)) = [] := by simp
  cases k with
  | number =>
    have hsame : vs.flatMap (ValueKind.numbers .number) = vs := List.flatMap_singleton' vs
    rw [hsame]
    exact h
  | _ => exact congrArg (List.map _) hnone.symm

theorem Quantity.map_number_of_list {q : Quantity} {n : Nat} {line : Text} {vs : List q.Value}
    (h : Reply.list n q.parse line = .ok vs) :
    (q.kind.numberFields (splitAt ',' (trim line))).map Reply.number =
      (vs.flatMap q.kind.numbers).map .ok := by
  obtain ⟨pieces, hpieces, -, hmap⟩ := Reply.list_eq_ok_iff.mp h
  rw [splitAt_eq_iff.mpr hpieces]
  exact ValueKind.map_number hmap

namespace Operation

/-- **The numbers in a result are those that the fields of the reply are read as**, each in its
place. -/
theorem map_number_of_answer {op : Operation} {buffer line : Text}
    (hquestion : op.question? = some buffer) {r : op.Result} (h : op.answer line = .ok r) :
    (op.numberFields line).map Reply.number = (op.numbers r).map .ok := by
  have hreq := request_of_question? hquestion
  generalize op.answer = parse at h hreq
  cases op with
  | get q index =>
    rw [request, Quantity.get] at hreq
    split at hreq
    · cases hreq
      have hmap : [line].map q.kind.parse = [r].map .ok := congrArg (fun v ↦ [v]) h
      simpa [numbers, numberFields] using ValueKind.map_number hmap
    · cases hreq
  | getAll q =>
    cases hreq
    exact Quantity.map_number_of_list h
  | getInto q slots =>
    obtain ⟨-, -, rfl⟩ := Quantity.eq_of_getInto hreq
    exact Quantity.map_number_of_list h
  | _ => rfl

/-- Without a question no number is given. -/
theorem numbers_of_question?_eq_none {op : Operation} (hquestion : op.question? = none)
    {line : Text} {r : op.Result} (h : op.answer line = .ok r) : op.numbers r = [] := by
  cases op with
  | get q index =>
    rw [question?, request, Quantity.get] at hquestion
    rw [answer, request, Quantity.get] at h
    cases hnumber : channelNumber index q.count with
    | ok n => simp [hnumber] at hquestion
    | error e => simp [hnumber] at h
  | getAll q => cases hquestion
  | getInto q slots =>
    by_cases hne : slots = []
    · obtain rfl : [] = r := by simpa [answer, request, Quantity.getInto, hne] using h
      rfl
    · by_cases hle : slots.length ≤ q.count
      · simp [question?, request, Quantity.getInto_eq_query hne hle] at hquestion
      · simp [answer, request, Quantity.getInto, Nat.lt_of_not_le hle] at h
  | _ => rfl

end Operation

/-! ### Numbers that a client gives -/

namespace Client

variable {σ : Type} [Driver σ] {c : Client σ} {op : Operation} {r : op.Result}

/-- A number was read in the reply to a question. -/
theorem exists_line_of_numbers (hr : op.numbers r ≠ []) (h : (c.perform op).1 = .ok r) :
    ∃ buffer line, op.question? = some buffer ∧ (c.exchange buffer).1 = .ok line ∧
      op.answer line = .ok r := by
  have hquery : op.isQuery := by
    cases op with
    | get | getAll | getInto => rfl
    | _ => exact absurd rfl hr
  cases hquestion : op.question? with
  | none =>
    rw [perform_of_question?_eq_none hquery hquestion []] at h
    exact absurd (Operation.numbers_of_question?_eq_none hquestion h) hr
  | some buffer =>
    rw [perform_of_question? hquestion] at h
    cases hline : (c.exchange buffer).1 with
    | error e => simp [hline, Except.bind] at h
    | ok line => exact ⟨buffer, line, rfl, hline, by simpa [hline, Except.bind] using h⟩

/-- **What is read as a number, and which of the numbers that a client gives are finite.** A text is
read as a number exactly if it is a numeral or a word for a value, and the number is finite exactly
if the text is a numeral below the overflow. All numbers that an operation gives are finite exactly
if all fields of the reply that it reads numbers in are such numerals; there is no other check. -/
theorem numbers_read (c : Client σ) :
    (∀ t, (∃ x, Reply.number t = .ok x) ↔
      IsNumeral (trim t) ∨ ∃ x, IsValueWord (trim t) x) ∧
    (∀ t x, Reply.number t = .ok x → (x.isFinite ↔ IsFiniteNumeral (trim t))) ∧
    (∀ op r, (c.perform op).1 = .ok r → op.numbers r ≠ [] →
      ∃ buffer line, op.question? = some buffer ∧ (c.exchange buffer).1 = .ok line ∧
        (op.numberFields line).map Reply.number = (op.numbers r).map .ok ∧
        ((∀ x ∈ op.numbers r, x.isFinite) ↔
          ∀ field ∈ op.numberFields line, IsFiniteNumeral (trim field))) := by
  refine ⟨fun t ↦ Reply.exists_number_iff, fun t x ↦ Reply.isFinite_number_iff,
    fun op r h hr ↦ ?_⟩
  obtain ⟨buffer, line, hquestion, hline, hanswer⟩ := exists_line_of_numbers hr h
  have hmap := Operation.map_number_of_answer hquestion hanswer
  exact ⟨buffer, line, hquestion, hline, hmap, Reply.forall_isFinite_iff hmap⟩

/-- Eight voltages, of which three are no finite numbers. -/
def overflowingReply : Text := "1.5,-2e-3,1e39,nan,-inf,0,3.,.5\r\n"

/-- All eight are given, so not all of them come from numerals of finite numbers. -/
theorem numbers_read_overflow :
    let c : Client ScriptedUnit := ⟨some { replies := [.ok overflowingReply] }, 150⟩
    let op := Operation.getAll .measuredVoltage
    let xs : List Binary32 := [.ofBits 0x3fc00000, .ofBits 0xbb03126f, .infinity false, .nan,
      .infinity true, .ofInt 0, .ofInt 3, .ofBits 0x3f000000]
    (c.perform op).1 = .ok xs ∧
      ∃ buffer line, op.question? = some buffer ∧ (c.exchange buffer).1 = .ok line ∧
        (op.numberFields line).map Reply.number = xs.map .ok ∧
        ¬∀ field ∈ op.numberFields line, IsFiniteNumeral (trim field) := by
  intro c op xs
  have hlist : Reply.list 8 Reply.number overflowingReply = .ok xs := by decide +kernel
  have hread : (c.perform op).1 = .ok xs := hlist
  have hnumbers : op.numbers xs = xs := rfl
  have hnot : ¬∀ x ∈ xs, x.isFinite := by decide
  obtain ⟨buffer, line, hquestion, hline, hmap, hiff⟩ :=
    (numbers_read c).2.2 op xs hread (List.cons_ne_nil _ _)
  rw [hnumbers] at hmap hiff
  exact ⟨hread, buffer, line, hquestion, hline, hmap, mt hiff.mpr hnot⟩

/-- The word for what is no number is no numeral and stands for no finite value, and yet it is read
as a number, also by a client that asks for a voltage. So is a numeral beyond the greatest number.
-/
theorem nan_read :
    Reply.number "nan" = .ok .nan ∧ ¬IsNumeral (trim "nan") ∧ Binary32.nan.isFinite = false ∧
      Reply.number "1e39" = .ok (.infinity false) ∧
      ((Client.mk (some ({ replies := [.ok "nan"] } : ScriptedUnit)) 150).perform
        (.get .measuredVoltage 0)).1 = .ok Binary32.nan := by
  refine ⟨by decide +kernel, ?_, rfl, by decide +kernel, rfl⟩
  rw [← Numeral.read?_isSome_iff]
  decide

end Client

end BatteryBench
