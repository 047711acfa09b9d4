import BatteryBench.Proofs.Client.Queries

/-!
# Reading into a buffer

A client can be asked for as many channels of a quantity as a buffer has slots. What the buffer
holds afterwards is part of what the operation does, also when it fails, so it is followed through
every path here (`Client.readInto`): the slots are handed on from one step to the next, and only the
reader of the reply writes to them.

Then reading is all or nothing. A failure of whatever sort, the last field of the reply included,
leaves every slot as it was (`Client.readInto_of_error`); a success means that the reply was a list
with a field for each slot, and each slot holds what its field says
(`Client.readInto_eq_ok_iff`). With a slot for every channel it is the same exchange as asking for
the whole group, with the same failures and the same values (`Client.perform_getInto_of_length`).
-/

namespace BatteryBench

namespace Client

variable {σ : Type} [Driver σ] {q : Quantity} {slots : List q.Value} {c : Client σ}

/-- Reads the first channels of a quantity into the slots of a buffer: whether that succeeded, the
slots after it, and the client after it. -/
def readInto (q : Quantity) (slots : List q.Value) (c : Client σ) :
    Outcome Unit × List q.Value × Client σ :=
  if q.count < slots.length then (.error .invalidArgument, slots, c)
  else if slots.isEmpty then (.ok (), slots, c)
  else
    match c.exchange (q.groupQuery slots.length ++ lineEnd) with
    | (.error e, c) => (.error e, slots, c)
    | (.ok line, c) => ((Reply.fill q.parse line slots).1, (Reply.fill q.parse line slots).2, c)

/-- A buffer with slots for existing channels is filled from one reply. -/
theorem readInto_of_length_le (hne : slots ≠ []) (hle : slots.length ≤ q.count) (c : Client σ) :
    c.readInto q slots =
      match c.exchange (q.groupQuery slots.length ++ lineEnd) with
      | (.error e, c) => (.error e, slots, c)
      | (.ok line, c) =>
        ((Reply.fill q.parse line slots).1, (Reply.fill q.parse line slots).2, c) := by
  rw [readInto, if_neg (Nat.not_lt_of_le hle), if_neg (by simpa using hne)]

/-- The operation gives the slots if it succeeds, and its failure otherwise. -/
theorem perform_getInto (q : Quantity) (slots : List q.Value) (c : Client σ) :
    c.perform (.getInto q slots) =
      ((c.readInto q slots).1.map fun _ ↦ (c.readInto q slots).2.1, (c.readInto q slots).2.2) := by
  show c.run (q.getInto slots) = _
  by_cases hne : slots = []
  · subst hne
    simp [readInto, Quantity.getInto, run, Except.map]
  · by_cases hle : slots.length ≤ q.count
    · rw [Quantity.getInto_eq_query hne hle, readInto_of_length_le hne hle, run]
      rcases c.exchange (q.groupQuery slots.length ++ lineEnd) with ⟨e | line, c'⟩
      · rfl
      · cases hlist : Reply.list slots.length q.parse line with
        | ok vs => simp only [Reply.fill_of_list hlist, hlist, Except.map]
        | error e => simp only [Reply.fill, hlist, Except.map]
    · have hlong := Nat.lt_of_not_le hle
      simp [readInto, Quantity.getInto, hlong, run, Except.map]

/-! ### All or nothing -/

/-- **A failure leaves every slot as it was.** -/
theorem readInto_of_error {e : Failure} (h : (c.readInto q slots).1 = .error e) :
    (c.readInto q slots).2.1 = slots := by
  by_cases hne : slots = []
  · simp [readInto, hne] at h
  · by_cases hle : slots.length ≤ q.count
    · rw [readInto_of_length_le hne hle] at h ⊢
      rcases hexchange : c.exchange (q.groupQuery slots.length ++ lineEnd) with ⟨e' | line, c'⟩
      · rfl
      · rw [hexchange] at h
        exact Reply.fill_snd_of_error h
    · rw [readInto, if_pos (Nat.lt_of_not_le hle)]

/-- What is shown of the slots after the operation is what they hold. -/
theorem bufferAfter_getInto (q : Quantity) (slots : List q.Value) (c : Client σ) :
    q.bufferAfter slots (c.perform (.getInto q slots)).1 = (c.readInto q slots).2.1 := by
  rw [perform_getInto]
  cases hread : (c.readInto q slots).1 with
  | ok _ => rfl
  | error e => exact (readInto_of_error hread).symm

/-- **A success means a reply with a field for each slot**, and each slot then holds what its field
says. -/
theorem readInto_eq_ok_iff (hne : slots ≠ []) {vs : List q.Value} :
    (c.readInto q slots).1 = .ok () ∧ (c.readInto q slots).2.1 = vs ↔
      slots.length ≤ q.count ∧ ∃ line pieces,
        (c.exchange (q.groupQuery slots.length ++ lineEnd)).1 = .ok line ∧
        Reply.IsList pieces line ∧ pieces.length = slots.length ∧
        pieces.map q.parse = vs.map .ok := by
  by_cases hle : slots.length ≤ q.count
  · rw [readInto_of_length_le hne hle]
    rcases c.exchange (q.groupQuery slots.length ++ lineEnd) with ⟨e | line, c'⟩
    · simp
    · have hfill : (Reply.fill q.parse line slots).1 = .ok () ∧
          (Reply.fill q.parse line slots).2 = vs ↔
            Reply.fill q.parse line slots = (.ok (), vs) := by
        rw [Prod.ext_iff]
      simp only [hfill, Reply.fill_eq_ok_iff, Reply.list_eq_ok_iff, Except.ok.injEq]
      simp [hle]
  · simp [readInto, Nat.lt_of_not_le hle, hle]

/-! ### The whole group -/

/-- **With a slot for every channel, filling the buffer is asking for the whole group.** -/
theorem perform_getInto_of_length (hlength : slots.length = q.count) (c : Client σ) :
    c.perform (.getInto q slots) = c.perform (.getAll q) := by
  have hne : slots ≠ [] := by
    rintro rfl
    cases q <;> cases hlength
  show c.run (q.getInto slots) = c.run q.getAll
  rw [Quantity.getInto_eq_query hne (Nat.le_of_eq hlength), hlength]
  rfl

/-- **Reading into a buffer is all or nothing and agrees with asking for the whole group**, for
every quantity, over every driver in every state of it, whatever the buffer holds. -/
theorem getInto_all_or_nothing (q : Quantity) (slots : List q.Value) (c : Client σ) :
    let read := c.readInto q slots
    (c.perform (.getInto q slots) = (read.1.map fun _ ↦ read.2.1, read.2.2) ∧
      q.bufferAfter slots (c.perform (.getInto q slots)).1 = read.2.1) ∧
    (∀ e, read.1 = .error e → read.2.1 = slots) ∧
    (slots ≠ [] → ∀ vs, read.1 = .ok () ∧ read.2.1 = vs ↔
      slots.length ≤ q.count ∧ ∃ line pieces,
        (c.exchange (q.groupQuery slots.length ++ lineEnd)).1 = .ok line ∧
        Reply.IsList pieces line ∧ pieces.length = slots.length ∧
        pieces.map q.parse = vs.map .ok) ∧
    (slots.length = q.count →
      c.perform (.getInto q slots) = c.perform (.getAll q) ∧
      ∀ (u : ScriptedUnit) (ms : Nat),
        let c' : Client ScriptedUnit := ⟨some u, ms⟩
        newCalls (some u) (c'.perform (.getInto q slots)).2.driver =
          newCalls (some u) (c'.perform (.getAll q)).2.driver) :=
  ⟨⟨perform_getInto q slots c, bufferAfter_getInto q slots c⟩, fun _ ↦ readInto_of_error,
    fun hne _ ↦ readInto_eq_ok_iff hne,
    fun hlength ↦ ⟨perform_getInto_of_length hlength c, fun u ms ↦ by
      dsimp only
      rw [perform_getInto_of_length hlength]⟩⟩

/-- The last of four fields cannot be read, so no slot is written; with two slots the same client
fills both. -/
theorem getInto_all_or_nothing_last_field :
    let c : Client ScriptedUnit := ⟨some { replies := [.ok "0,0,1,x"] }, 150⟩
    let slots := [true, true, true, true]
    let c' : Client ScriptedUnit := ⟨some { replies := [.ok " 0, 1\r\n"] }, 150⟩
    (c.readInto .digitalInput slots).1 = .error .invalidResponse ∧
      (c.readInto .digitalInput slots).2.1 = slots ∧
      c.perform (.getInto .digitalInput slots) = c.perform (.getAll .digitalInput) ∧
      (c'.readInto .digitalInput [true, false]).2.1 = [false, true] := by
  intro c slots c'
  have hfailed : (c.readInto .digitalInput slots).1 = .error .invalidResponse := by decide
  obtain ⟨-, hkept, -, hall⟩ := getInto_all_or_nothing .digitalInput slots c
  obtain ⟨-, -, hfilled, -⟩ := getInto_all_or_nothing .digitalInput [true, false] c'
  have hpieces : (c'.readInto .digitalInput [true, false]).1 = .ok () ∧
      (c'.readInto .digitalInput [true, false]).2.1 = [false, true] :=
    (hfilled (List.cons_ne_nil _ _) _).mpr ⟨by decide, " 0, 1\r\n", [['0'], [' ', '1']], rfl,
      by unfold Reply.IsList; decide, rfl, rfl⟩
  exact ⟨hfailed, hkept _ hfailed, (hall rfl).1, hpieces.2⟩

end Client

end BatteryBench
