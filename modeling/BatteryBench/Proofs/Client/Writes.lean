import BatteryBench.Proofs.Client.Conduct
import BatteryBench.Proofs.Wire.Instructions

/-!
# What setting comes to, and what a unit is told

`Operation.written` lists the values that an operation puts into the channels of a unit, whatever
its shape: one channel, all of them, those of a mask, or one value for each. A line tells a unit to
put texts into numbered places (`Wire.assignments`). `Operation.tells_of_command` says that these
are the same: one place for each written value, in the same order, and the text is the argument of
the value.
-/

namespace BatteryBench

/-! ### Writes -/

/-- A value that is put into a place of a unit. -/
inductive Write where
  /-- The value of a channel. -/
  | channel (s : Setting) (index : Nat) (v : s.Value)
  /-- The precision of all measurements. -/
  | precision (p : Precision)

namespace Operation

/-- The values that an operation puts into places of a unit, in order. -/
def written : Operation → List Write
  | set s index v => if index < s.quantity.count then [.channel s index v] else []
  | setAll s v => (List.range s.quantity.count).map fun index ↦ .channel s index v
  | setMasked s mask v =>
    ((List.range s.quantity.count).filter fun index ↦ mask.toNat.testBit index).map
      fun index ↦ .channel s index v
  | setEach s vs =>
    if vs.length ≤ s.quantity.count then vs.zipIdx.map fun p ↦ .channel s p.2 p.1 else []
  | setDigitalLevels levels =>
    (List.range 4).map fun index ↦ .channel .digitalOutput index (levels.toNat.testBit index)
  | setPrecision p => [.precision p]
  | _ => []

/-- Whether an operation sets channels or the precision. -/
def isSetter : Operation → Bool
  | set _ _ _ | setAll _ _ | setMasked _ _ _ | setEach _ _ | setDigitalLevels _ | setPrecision _ =>
    true
  | _ => false

theorem isQuery_of_isSetter {op : Operation} (h : op.isSetter) : op.isQuery = false := by
  cases op with
  | set _ _ _ | setAll _ _ | setMasked _ _ _ | setEach _ _ | setDigitalLevels _ | setPrecision _ =>
    rfl
  | _ => cases h

end Operation

/-! ### Assignments -/

namespace Wire

/-- A text that is to be put into a numbered place of a group. -/
structure Assignment where
  /-- The group. -/
  group : Text
  /-- The number of the channel, or zero for the unit. -/
  number : Nat
  /-- The text. -/
  argument : Text
  deriving DecidableEq

/-- Whether an instruction is to store something. -/
def Instruction.isStore : Instruction → Bool
  | store _ _ _ => true
  | report _ _ => false

/-- The assignments of an instruction, one for each channel. -/
def Instruction.assignments : Instruction → List Assignment
  | store group channels argument => channels.map fun n ↦ ⟨group, n, argument⟩
  | report _ _ => []

/-- The assignments of a line. -/
def assignments (buffer : Text) : List Assignment :=
  (instructions buffer).flatMap Instruction.assignments

end Wire

/-- The place a value is put into, and the text that is put there. -/
def Write.assignment : Write → Wire.Assignment
  | channel s index v => ⟨s.quantity.header.group, index + 1, s.argument v⟩
  | precision p => ⟨"CONF:MEAS:MODE", 0, p.command⟩

/-! ### The assignments of a line are those of the writes -/

namespace Setting

theorem instructions_setEach (s : Setting) (n : Nat) (vs : List s.Value) :
    (s.assignmentsFrom (n + 1) vs).filterMap Wire.instruction? =
      (vs.zipIdx n).map fun p ↦ .store s.quantity.header.group [p.2 + 1] (s.argument p.1) := by
  induction vs generalizing n with
  | nil => rfl
  | cons v vs ih =>
    rw [assignmentsFrom, List.zipIdx_cons, List.map_cons,
      List.filterMap_cons_some (Wire.instruction?_assignment_chainHeader s (n + 1) v), ih (n + 1)]

end Setting

namespace Operation

/-- That a line tells a unit to store what an operation writes, and nothing else. -/
def Tells (op : Operation) (buffer : Text) : Prop :=
  (∀ i ∈ Wire.instructions buffer, i.isStore) ∧
    Wire.assignments buffer = op.written.map Write.assignment

/-- A line with one instruction tells what the assignments of it are. -/
theorem tells_of_instructions {op : Operation} {buffer group argument : Text} {ns : List Nat}
    (h : Wire.instructions buffer = [.store group ns argument])
    (hwritten : op.written.map Write.assignment = ns.map fun n ↦ ⟨group, n, argument⟩) :
    op.Tells buffer := by
  refine ⟨?_, ?_⟩
  · rw [h]
    exact List.forall_mem_singleton.mpr rfl
  · rw [Wire.assignments, h, hwritten, List.flatMap_singleton]
    rfl

theorem tells_of_commands {op : Operation} {buffer command group argument : Text} {ns : List Nat}
    (hcommands : Wire.commands buffer = [command])
    (h : Wire.instruction? command = some (.store group ns argument))
    (hwritten : op.written.map Write.assignment = ns.map fun n ↦ ⟨group, n, argument⟩) :
    op.Tells buffer := by
  refine tells_of_instructions ?_ hwritten
  rw [Wire.instructions, hcommands, List.filterMap_cons_some h, List.filterMap_nil]

theorem tells_setEach {s : Setting} {vs : List s.Value} {buffer : Text}
    (h : s.setEach vs = .command buffer ()) : (setEach s vs).Tells buffer := by
  obtain ⟨hle, hcommands⟩ := Setting.commands_setEach h
  have hinstructions : Wire.instructions buffer =
      vs.zipIdx.map fun p ↦ .store s.quantity.header.group [p.2 + 1] (s.argument p.1) := by
    rw [Wire.instructions, hcommands]
    exact s.instructions_setEach 0 vs
  refine ⟨?_, ?_⟩
  · rw [hinstructions]
    intro i hi
    obtain ⟨p, -, rfl⟩ := List.mem_map.mp hi
    rfl
  · rw [Wire.assignments, hinstructions, written, if_pos hle, List.map_map, List.flatMap_map]
    rw [List.map_eq_flatMap]
    rfl

/-- **A setter tells a unit to store what it writes**, whatever its shape. -/
theorem tells_of_command {op : Operation} (hset : op.isSetter) {buffer : Text} {answer : op.Result}
    (hreq : op.request = .command buffer answer) : op.Tells buffer := by
  cases op with
  | set s index v =>
    obtain ⟨hlt, hcommands⟩ := Setting.commands_set hreq
    refine tells_of_commands hcommands (Wire.instruction?_assignment s.quantity.isPlain_header
      (index + 1) (s.isWord_argument v)) ?_
    rw [written, if_pos hlt]
    rfl
  | setAll s v =>
    refine tells_of_commands (Setting.commands_setAll hreq)
      (Wire.instruction?_groupAssignment s v (readSelection?_fullRange _)) ?_
    rw [written, List.map_map, List.map_map]
    rfl
  | setMasked s mask v =>
    obtain ⟨selection, hsel, hcommands⟩ := Setting.commands_setMasked hreq
    refine tells_of_commands hcommands
      (Wire.instruction?_groupAssignment s v (readSelection?_maskText? hsel)) ?_
    rw [written, List.map_map, List.map_map]
    rfl
  | setEach s vs => exact tells_setEach hreq
  | setDigitalLevels levels =>
    -- The levels are the flags of a list, so this is a list that is set.
    have hwritten : (setDigitalLevels levels).written =
        (setEach .digitalOutput (levelFlags levels)).written := rfl
    have htells : (setEach .digitalOutput (levelFlags levels)).Tells buffer := tells_setEach hreq
    exact ⟨htells.1, hwritten ▸ htells.2⟩
  | setPrecision p =>
    injection hreq with hbuffer
    have hline : Wire.instructions buffer = [.store "CONF:MEAS:MODE" [0] p.command] := by
      rw [← hbuffer]
      cases p <;> decide
    exact tells_of_instructions hline rfl
  | _ => cases hset

/-- Where nothing is sent, nothing is written. -/
theorem written_of_not_needsDriver {op : Operation} (h : ¬op.NeedsDriver) : op.written = [] := by
  cases hargs : op.argumentFailure? with
  | some e =>
    cases op with
    | set s index v =>
      have hle : ¬index < s.quantity.count := fun hlt ↦ by simp [argumentFailure?, hlt] at hargs
      exact if_neg hle
    | setEach s vs =>
      have hlt : ¬vs.length ≤ s.quantity.count := fun hle ↦ by
        simp [argumentFailure?, hle] at hargs
      exact if_neg hlt
    | setAll _ _ | setMasked _ _ _ | setDigitalLevels _ | setPrecision _ => cases hargs
    | _ => rfl
  | none =>
    have hidle : op.isIdle := by
      refine Bool.of_not_eq_false fun hno ↦ h ⟨hargs, hno⟩
    cases op with
    | setEach s vs =>
      obtain rfl : vs = [] := List.isEmpty_iff.mp hidle
      simp [written]
    | setMasked s mask v =>
      have hbits : ∀ k < s.quantity.count, mask.toNat.testBit k = false := by
        simpa [isIdle] using hidle
      have hnone : (List.range s.quantity.count).filter (fun k ↦ mask.toNat.testBit k) = [] := by
        refine List.filter_eq_nil_iff.mpr fun k hk ↦ ?_
        rw [hbits k (List.mem_range.mp hk)]
        decide
      rw [written, hnone, List.map_nil]
    | set _ _ _ | setAll _ _ | setDigitalLevels _ | setPrecision _ => cases hidle
    | _ => rfl

end Operation

end BatteryBench
