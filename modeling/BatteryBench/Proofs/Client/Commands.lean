import BatteryBench.Client.Operation
import BatteryBench.Proofs.Channel.Selection
import BatteryBench.Proofs.Number.Fixed
import BatteryBench.Proofs.Wire.Commands

/-!
# The commands of a setting

Every header and every argument is a word, whatever the value (`isWord_argument`). So a line that a
setting transmits is read by a unit as the commands it was built from: one for a channel or a
selection, and one for each value of a list (`commands_set`, `commands_setAll`,
`commands_setMasked`, `commands_setEach`).

`Operation.Sets` says which operations set a quantity to which values, in any of the shapes.
-/

namespace BatteryBench

/-! ### Numbers are words -/

theorem isWord_fixedDigits (places n : Nat) : IsWord (fixedDigits places n) := by
  cases places with
  | zero => exact (isDigits_decimal n).isWord
  | succ places =>
    obtain ⟨fraction, htext, hdigits, -⟩ := exists_fixedDigits places n
    rw [htext]
    exact (isDigits_decimal _).isWord.append (isWord_cons (by decide) hdigits.isWord)

namespace Binary32

theorem isWord_signText (v : Binary32) : IsWord v.signText := by
  rw [signText]
  split <;> decide

theorem isWord_nonFiniteText (v : Binary32) : IsWord v.nonFiniteText := by
  rw [nonFiniteText]
  split
  · decide
  · exact v.isWord_signText.append (by decide)

theorem isWord_fixedText (places : Nat) (v : Binary32) : IsWord (v.fixedText places) := by
  rw [fixedText]
  split
  · exact v.isWord_signText.append (isWord_fixedDigits _ _)
  · exact v.isWord_nonFiniteText

theorem isWord_positional (coefficient : Nat) (k : Int) : IsWord (positional coefficient k) := by
  cases k with
  | ofNat e =>
    unfold positional
    dsimp only
    split
    · decide
    · exact ((isDigits_decimal _).append (isDigits_replicate_zero e)).isWord
  | negSucc e => exact isWord_fixedDigits _ _

theorem isWord_shortestText (v : Binary32) : IsWord v.shortestText := by
  rw [shortestText]
  split
  · exact v.isWord_signText.append (isWord_positional _ _)
  · exact v.isWord_nonFiniteText

end Binary32

/-! ### Headers and arguments are words -/

/-- Whether both parts of a header are words. -/
def Header.IsWord (h : Header) : Prop := BatteryBench.IsWord h.stem ∧ BatteryBench.IsWord h.ending

theorem Header.IsWord.channel {h : Header} (hh : h.IsWord) (n : Nat) :
    BatteryBench.IsWord (h.channel n) :=
  (hh.1.append (isDigits_decimal n).isWord).append hh.2

theorem Header.IsWord.group {h : Header} (hh : h.IsWord) : BatteryBench.IsWord h.group :=
  hh.1.append hh.2

theorem Quantity.isWord_header (q : Quantity) : q.header.IsWord := by
  cases q <;> exact ⟨by decide, by decide⟩

namespace Setting

theorem isWord_chainHeader (s : Setting) : s.chainHeader.IsWord := by
  cases s <;> exact ⟨by decide, by decide⟩

/-- **Whatever the value, the argument is a word.** -/
theorem isWord_argument (s : Setting) (v : s.Value) : IsWord (s.argument v) := by
  cases s with
  | enabled | digitalOutput => cases v <;> decide
  | voltage | sourcing | sinking | analogOutput => exact Binary32.isWord_fixedText _ _
  | fault => cases v <;> decide
  | senseRange => cases v <;> decide
  | globalInput | localInput => exact Binary32.isWord_shortestText v

/-! ### The commands of a line -/

theorem assignment_eq (h : Header) (n : Nat) (arg : Text) :
    assignment h n arg = h.channel n ++ ' ' :: arg := by
  simp [assignment]

theorem groupAssignment_eq (s : Setting) (v : s.Value) (selection : Text) :
    s.groupAssignment v selection =
      s.quantity.header.group ++ ' ' :: (s.argument v ++ ',' :: selection) := by
  simp [groupAssignment]

theorem semicolon_not_mem_assignment {h : Header} (hh : h.IsWord) (n : Nat) {arg : Text}
    (ha : IsWord arg) : ';' ∉ assignment h n arg := by
  rw [assignment_eq, List.mem_append, List.mem_cons]
  rintro (hc | hc | hc)
  · exact (hh.channel n).not_mem (by decide) hc
  · cases hc
  · exact ha.not_mem (by decide) hc

theorem semicolon_not_mem_groupAssignment (s : Setting) (v : s.Value) {selection : Text}
    (hsel : IsSelection selection) : ';' ∉ s.groupAssignment v selection := by
  rw [groupAssignment_eq, List.mem_append, List.mem_cons, List.mem_append, List.mem_cons]
  rintro (hc | hc | hc | hc | hc)
  · exact (s.quantity.isWord_header.group).not_mem (by decide) hc
  · cases hc
  · exact (s.isWord_argument v).not_mem (by decide) hc
  · cases hc
  · exact hsel.not_mem (by decide) hc

/-- One channel is set by one command. -/
theorem commands_set {s : Setting} {index : Nat} {v : s.Value} {buffer : Text}
    (h : s.set index v = .command buffer ()) :
    index < s.quantity.count ∧
      Wire.commands buffer = [assignment s.quantity.header (index + 1) (s.argument v)] := by
  unfold set channelNumber at h
  by_cases hlt : index < s.quantity.count
  · rw [if_pos hlt] at h
    injection h with hbuffer
    rw [← hbuffer]
    exact ⟨hlt, Wire.commands_singleton
      (semicolon_not_mem_assignment s.quantity.isWord_header _ (s.isWord_argument v))⟩
  · rw [if_neg hlt] at h
    cases h

/-- All channels are set by one command. -/
theorem commands_setAll {s : Setting} {v : s.Value} {buffer : Text}
    (h : s.setAll v = .command buffer ()) :
    Wire.commands buffer = [s.groupAssignment v (fullRange s.quantity.count)] := by
  injection h with hbuffer
  rw [← hbuffer]
  exact Wire.commands_singleton
    (s.semicolon_not_mem_groupAssignment v (isSelection_fullRange _))

/-- The channels of a mask are set by one command. -/
theorem commands_setMasked {s : Setting} {mask : UInt32} {v : s.Value} {buffer : Text}
    (h : s.setMasked mask v = .command buffer ()) :
    ∃ selection, maskText? mask s.quantity.count = some selection ∧
      Wire.commands buffer = [s.groupAssignment v selection] := by
  rw [setMasked] at h
  split at h
  · next selection hsel =>
    injection h with hbuffer
    rw [← hbuffer]
    exact ⟨selection, hsel, Wire.commands_singleton
      (s.semicolon_not_mem_groupAssignment v (isSelection_selectionText? hsel))⟩
  · cases h

theorem semicolon_not_mem_assignmentsFrom (s : Setting) (n : Nat) (vs : List s.Value) :
    ∀ t ∈ s.assignmentsFrom n vs, ';' ∉ t := by
  induction vs generalizing n with
  | nil => exact fun _ ht ↦ absurd ht List.not_mem_nil
  | cons v vs ih =>
    rw [assignmentsFrom, List.forall_mem_cons]
    exact ⟨semicolon_not_mem_assignment s.isWord_chainHeader n (s.isWord_argument v), ih (n + 1)⟩

/-- A list of values is set by one command for each of them. -/
theorem commands_setEach {s : Setting} {vs : List s.Value} {buffer : Text}
    (h : s.setEach vs = .command buffer ()) :
    vs.length ≤ s.quantity.count ∧ Wire.commands buffer = s.assignmentsFrom 1 vs := by
  rw [setEach] at h
  split at h
  · cases h
  · next hle =>
    split at h
    · cases h
    · next hne =>
      injection h with hbuffer
      rw [← hbuffer]
      refine ⟨Nat.le_of_not_lt hle, Wire.commands_intercalate ?_
        (s.semicolon_not_mem_assignmentsFrom 1 vs)⟩
      cases vs with
      | nil => exact absurd rfl hne
      | cons v vs => simp [assignmentsFrom]

theorem argument_assignment {h : Header} (hh : h.IsWord) (n : Nat) {arg : Text} (ha : IsWord arg) :
    Wire.argument (assignment h n arg) = arg := by
  rw [assignment_eq, Wire.argument_command (hh.channel n) ha]

theorem argument_groupAssignment (s : Setting) (v : s.Value) (selection : Text) :
    Wire.argument (s.groupAssignment v selection) = s.argument v := by
  rw [groupAssignment_eq,
    Wire.argument_command_selection s.quantity.isWord_header.group (s.isWord_argument v)]

theorem argument_assignmentsFrom (s : Setting) (n : Nat) (vs : List s.Value) :
    (s.assignmentsFrom n vs).map Wire.argument = vs.map s.argument := by
  induction vs generalizing n with
  | nil => rfl
  | cons v vs ih =>
    rw [assignmentsFrom, List.map_cons, List.map_cons, ih (n + 1),
      argument_assignment s.isWord_chainHeader n (s.isWord_argument v)]

end Setting

/-! ### Operations that set -/

/-- Which operations set a quantity, and to which values. -/
inductive Operation.Sets (s : Setting) : Operation → List s.Value → Prop where
  /-- One channel. -/
  | one (index : Nat) (v : s.Value) : Sets s (.set s index v) [v]
  /-- Every channel. -/
  | all (v : s.Value) : Sets s (.setAll s v) [v]
  /-- The channels of a mask. -/
  | masked (mask : UInt32) (v : s.Value) : Sets s (.setMasked s mask v) [v]
  /-- The channels from the first on, each to its value. -/
  | each (vs : List s.Value) : Sets s (.setEach s vs) vs

/-- **The arguments of a line are those of the values**, in their order. -/
theorem Operation.Sets.arguments {s : Setting} {op : Operation} {vs : List s.Value}
    (h : op.Sets s vs) {buffer : Text} {answer : op.Result}
    (hreq : op.request = .command buffer answer) :
    Wire.arguments buffer = vs.map s.argument := by
  rw [Wire.arguments]
  cases h with
  | one index v =>
    rw [(Setting.commands_set hreq).2, List.map_singleton,
      Setting.argument_assignment s.quantity.isWord_header _ (s.isWord_argument v)]
    rfl
  | all v =>
    rw [Setting.commands_setAll hreq, List.map_singleton, Setting.argument_groupAssignment]
    rfl
  | masked mask v =>
    obtain ⟨selection, -, hcommands⟩ := Setting.commands_setMasked hreq
    rw [hcommands, List.map_singleton, Setting.argument_groupAssignment]
    rfl
  | each vs => rw [(Setting.commands_setEach hreq).2, Setting.argument_assignmentsFrom]

end BatteryBench
