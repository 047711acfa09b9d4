import BatteryBench.Proofs.Client.Writes

/-!
# The shapes of a setter

A quantity is set in four shapes, and each is put together in its own way: one channel, every
channel, the channels of a mask, and one value for each channel from the first on. `Wire.meaning?`
reads a line strictly, as a list of assignments of which none may be skipped, and knows nothing of
shapes.

`Setting.ShapesAgree` says what the line of each shape means, and how the lines of different shapes
are related as texts. What a setter sends is `Operation.transmission?`, whatever the driver and its
state (`Client.newCalls_of_isSetter`).
-/

namespace BatteryBench

/-! ### Lines as assignments -/

namespace Wire

/-- The assignments of a command, if it is one that stores. -/
def assigned? (command : Text) : Option (List Assignment) :=
  match instruction? command with
  | some (.store group channels argument) =>
    some (Instruction.store group channels argument).assignments
  | _ => none

/-- The assignments of some commands in their order, if all of them store. -/
def meaningOf? : List Text → Option (List Assignment)
  | [] => some []
  | command :: rest =>
    match assigned? command, meaningOf? rest with
    | some first, some others => some (first ++ others)
    | _, _ => none

/-- What a line means, if it ends as lines do and all of its commands store. -/
def meaning? (buffer : Text) : Option (List Assignment) :=
  if lineEnd <:+ buffer then meaningOf? (commands buffer) else none

example : meaning? ("OUTP 1,(@1,3);:MOD:LOC2 7" ++ lineEnd) =
    some [⟨"OUTP", 1, ['1']⟩, ⟨"OUTP", 3, ['1']⟩, ⟨"MOD:LOC", 2, ['7']⟩] := by decide
example : meaning? ("OUTP1 1;OUTP2?" ++ lineEnd) = none := by decide

theorem assigned?_of_instruction? {command group argument : Text} {ns : List Nat}
    (h : instruction? command = some (.store group ns argument)) :
    assigned? command = some (ns.map fun n ↦ ⟨group, n, argument⟩) := by
  rw [assigned?, h]
  rfl

theorem meaning?_append_lineEnd (t : Text) :
    meaning? (t ++ lineEnd) = meaningOf? (commands (t ++ lineEnd)) :=
  if_pos (List.suffix_append t lineEnd)

/-- A line of one command means what the command does. -/
theorem meaning?_of_instruction? {command group argument : Text} {ns : List Nat}
    (hsemicolon : ';' ∉ command) (h : instruction? command = some (.store group ns argument)) :
    meaning? (command ++ lineEnd) = some (ns.map fun n ↦ ⟨group, n, argument⟩) := by
  rw [meaning?_append_lineEnd, commands_singleton hsemicolon, meaningOf?,
    assigned?_of_instruction? h, meaningOf?]
  dsimp only
  rw [List.append_nil]

end Wire

/-! ### What is sent -/

namespace Operation

/-- The text that an operation sends, if it sends one. -/
def transmission? (op : Operation) : Option Text :=
  match op.request with
  | .command buffer _ | .query buffer _ => some buffer
  | .refused _ | .done _ => none

theorem transmission?_of_command {op : Operation} {buffer : Text} {v : op.Result}
    (h : op.request = .command buffer v) : op.transmission? = some buffer := by
  rw [transmission?, h]

theorem transmission?_of_done {op : Operation} {v : op.Result} (h : op.request = .done v) :
    op.transmission? = none := by
  rw [transmission?, h]

/-- That an operation sends a line with a meaning. -/
def Means (op : Operation) (assignments : List Wire.Assignment) : Prop :=
  ∃ buffer, op.transmission? = some buffer ∧ Wire.meaning? buffer = some assignments

end Operation

/-- A command makes one transmission, whether or not it succeeds. -/
theorem Client.newCalls_of_command {op : Operation} {buffer : Text} {v : op.Result}
    (h : op.request = .command buffer v) (u : ScriptedUnit) (ms : Nat) :
    newCalls (some u) ((⟨some u, ms⟩ : Client ScriptedUnit).perform op).2.driver =
      [.send buffer 250] := by
  simp only [perform, h, run, transmit_scripted]
  cases u.writeFailure <;> simp [newCalls]

/-- **A setter sends its text through every scripted driver**, in every state of it, and nothing
else reaches the driver. -/
theorem Client.newCalls_of_isSetter {op : Operation} (hset : op.isSetter) (u : ScriptedUnit)
    (ms : Nat) :
    newCalls (some u) ((⟨some u, ms⟩ : Client ScriptedUnit).perform op).2.driver =
      op.transmission?.toList.map fun buffer ↦ .send buffer 250 := by
  by_cases hneeds : op.NeedsDriver
  · obtain ⟨buffer, v, hreq⟩ :=
      Operation.request_of_not_isQuery hneeds (Operation.isQuery_of_isSetter hset)
    rw [newCalls_of_command hreq, Operation.transmission?_of_command hreq]
    rfl
  · rcases Operation.request_of_not_needsDriver hneeds with ⟨e, hreq⟩ | ⟨v, hreq⟩ <;>
      simp [perform, run, hreq, newCalls, Operation.transmission?]

/-! ### Masks -/

/-- Only the bits of the channels count. -/
theorem maskText?_congr {mask mask' : UInt32} {count : Nat}
    (h : ∀ k < count, mask.toNat.testBit k = mask'.toNat.testBit k) :
    maskText? mask count = maskText? mask' count :=
  selectionText?_eq_iff.mpr fun k hk ↦ by rw [mem_maskChannels, mem_maskChannels, h k hk]

/-- A mask of all channels has the text of the full range. -/
theorem maskText?_of_forall {mask : UInt32} {count : Nat} (hpos : 0 < count)
    (h : ∀ k < count, mask.toNat.testBit k) : maskText? mask count = some (fullRange count) := by
  rw [← selectionText?_range hpos]
  exact selectionText?_eq_iff.mpr fun k hk ↦
    iff_of_true (mem_maskChannels.mpr ⟨hk, h k hk⟩) (List.mem_range.mpr hk)

/-! ### The lines of a setting -/

namespace Setting

variable (s : Setting)

theorem count_pos : 0 < s.quantity.count := by
  cases s <;> decide

/-- That a channel, counted from zero, is to have a value. -/
def assigning (index : Nat) (v : s.Value) : Wire.Assignment :=
  ⟨s.quantity.header.group, index + 1, s.argument v⟩

theorem transmission?_set {index : Nat} (h : index < s.quantity.count) (v : s.Value) :
    (Operation.set s index v).transmission? =
      some (assignment s.quantity.header (index + 1) (s.argument v) ++ lineEnd) := by
  refine Operation.transmission?_of_command (v := ()) ?_
  show s.set index v = _
  rw [set, channelNumber, if_pos h]

theorem transmission?_setAll (v : s.Value) :
    (Operation.setAll s v).transmission? =
      some (s.groupAssignment v (fullRange s.quantity.count) ++ lineEnd) := rfl

theorem transmission?_setMasked (mask : UInt32) (v : s.Value) :
    (Operation.setMasked s mask v).transmission? =
      (maskText? mask s.quantity.count).map fun selection ↦
        s.groupAssignment v selection ++ lineEnd := by
  cases hsel : maskText? mask s.quantity.count with
  | none =>
    refine Operation.transmission?_of_done (v := ()) ?_
    show s.setMasked mask v = _
    rw [setMasked, hsel]
  | some selection =>
    refine Operation.transmission?_of_command (v := ()) ?_
    show s.setMasked mask v = _
    rw [setMasked, hsel]

theorem transmission?_setEach {vs : List s.Value} (hne : vs ≠ [])
    (hle : vs.length ≤ s.quantity.count) :
    (Operation.setEach s vs).transmission? =
      some ([';'].intercalate (s.assignmentsFrom 1 vs) ++ lineEnd) := by
  refine Operation.transmission?_of_command (v := ()) ?_
  show s.setEach vs = _
  rw [setEach, if_neg (Nat.not_lt_of_le hle), if_neg (by simpa using hne)]

theorem commands_assignmentsFrom {vs : List s.Value} (hne : vs ≠ []) :
    Wire.commands ([';'].intercalate (s.assignmentsFrom 1 vs) ++ lineEnd) =
      s.assignmentsFrom 1 vs := by
  refine Wire.commands_intercalate ?_ (s.semicolon_not_mem_assignmentsFrom 1 vs)
  obtain ⟨v, vs, rfl⟩ := List.exists_cons_of_ne_nil hne
  exact List.cons_ne_nil _ _

/-- What a line for a selection means. -/
theorem meaning?_groupAssignment (v : s.Value) {selection : Text} {ns : List Nat}
    (hchars : IsSelection selection) (hsel : readSelection? selection = some (ns.map (· + 1))) :
    Wire.meaning? (s.groupAssignment v selection ++ lineEnd) =
      some (ns.map fun index ↦ s.assigning index v) := by
  rw [Wire.meaning?_of_instruction? (s.semicolon_not_mem_groupAssignment v hchars)
    (Wire.instruction?_groupAssignment s v hsel), List.map_map]
  rfl

/-- What the commands of a chain mean, from any channel on. -/
theorem meaningOf?_assignmentsFrom (n : Nat) (vs : List s.Value) :
    Wire.meaningOf? (s.assignmentsFrom (n + 1) vs) =
      some ((vs.zipIdx n).map fun p ↦ s.assigning p.2 p.1) := by
  induction vs generalizing n with
  | nil => rfl
  | cons v vs ih =>
    rw [assignmentsFrom, Wire.meaningOf?, ih (n + 1),
      Wire.assigned?_of_instruction? (Wire.instruction?_assignment_chainHeader s (n + 1) v)]
    rfl

/-! ### Chains and single commands -/

/-- Whether the commands of a chain start at the root. -/
def isChainedFromRoot : Setting → Bool
  | globalInput | localInput => true
  | _ => false

/-- A command of a chain is the command of the single channel, with a colon in front if the chain
starts at the root each time. -/
theorem assignment_chainHeader (n : Nat) (arg : Text) :
    assignment s.chainHeader n arg =
      (if s.isChainedFromRoot then [':'] else []) ++ assignment s.quantity.header n arg := by
  cases s <;> rfl

theorem unrooted_assignment (n : Nat) (arg : Text) :
    Wire.unrooted (assignment s.quantity.header n arg) = assignment s.quantity.header n arg := by
  rw [assignment, Header.channel, List.append_assoc, List.append_assoc, List.append_assoc]
  exact Wire.unrooted_append s.quantity.isPlain_header _

theorem unrooted_assignment_chainHeader (n : Nat) (arg : Text) :
    Wire.unrooted (assignment s.chainHeader n arg) = assignment s.quantity.header n arg := by
  rw [assignment_chainHeader]
  split
  · rfl
  · exact s.unrooted_assignment n arg

theorem head?_assignment_chainHeader (n : Nat) (arg : Text) :
    (assignment s.chainHeader n arg).head? = some ':' ↔ s.isChainedFromRoot := by
  rw [assignment_chainHeader]
  split
  · next h => simp [h]
  · next h =>
    obtain ⟨c, hhead, hc⟩ := s.quantity.isPlain_header.head
    have hfirst : (assignment s.quantity.header n arg).head? = some c := by
      rw [assignment, Header.channel, List.append_assoc, List.append_assoc, List.append_assoc,
        List.head?_append, hhead]
      rfl
    simp [hfirst, hc, h]

theorem head?_of_mem_assignmentsFrom {n : Nat} {vs : List s.Value} {piece : Text}
    (h : piece ∈ s.assignmentsFrom n vs) : piece.head? = some ':' ↔ s.isChainedFromRoot := by
  induction vs generalizing n with
  | nil => cases h
  | cons v vs ih =>
    rcases List.mem_cons.mp h with rfl | hrest
    · exact s.head?_assignment_chainHeader n _
    · exact ih hrest

/-- The commands of a chain are those of the single channels. -/
theorem map_unrooted_assignmentsFrom (n : Nat) (vs : List s.Value)
    (hle : n + vs.length ≤ s.quantity.count) :
    (s.assignmentsFrom (n + 1) vs).map (fun piece ↦ some (Wire.unrooted piece ++ lineEnd)) =
      (vs.zipIdx n).map fun p ↦ (Operation.set s p.2 p.1).transmission? := by
  induction vs generalizing n with
  | nil => rfl
  | cons v vs ih =>
    rw [List.length_cons] at hle
    rw [assignmentsFrom, List.map_cons, List.zipIdx_cons, List.map_cons, ih (n + 1) (by omega),
      unrooted_assignment_chainHeader, s.transmission?_set (by omega) v]

/-! ### Agreement -/

/-- **How the shapes of a setting agree**, in what their lines mean and as texts. -/
structure ShapesAgree : Prop where
  /-- The line for one channel assigns the argument to it. -/
  one : ∀ (v : s.Value), ∀ index < s.quantity.count,
    (Operation.set s index v).Means [s.assigning index v]
  /-- The line for all channels assigns the argument to each of them. -/
  all : ∀ v : s.Value, (Operation.setAll s v).Means
    ((List.range s.quantity.count).map fun index ↦ s.assigning index v)
  /-- The line for a mask assigns it to the channels whose bits are set, and to no other. -/
  masked : ∀ (mask : UInt32) (v : s.Value), (∃ k < s.quantity.count, mask.toNat.testBit k) →
    (Operation.setMasked s mask v).Means
      (((List.range s.quantity.count).filter fun index ↦ mask.toNat.testBit index).map
        fun index ↦ s.assigning index v)
  /-- A mask without such a bit gives no line. -/
  unmasked : ∀ (mask : UInt32) (v : s.Value),
    (∀ k < s.quantity.count, mask.toNat.testBit k = false) →
    (Operation.setMasked s mask v).transmission? = none
  /-- The line for a list of values assigns to the channels from the first on the argument of each
  value, in order. Its commands are the lines of the single channels, with a colon in front for some
  settings. -/
  each : ∀ vs : List s.Value, vs ≠ [] → vs.length ≤ s.quantity.count →
    ∃ buffer, (Operation.setEach s vs).transmission? = some buffer ∧
      Wire.meaning? buffer = some (vs.zipIdx.map fun p ↦ s.assigning p.2 p.1) ∧
      (Wire.commands buffer).map (fun piece ↦ some (Wire.unrooted piece ++ lineEnd)) =
        vs.zipIdx.map (fun p ↦ (Operation.set s p.2 p.1).transmission?) ∧
      ∀ piece ∈ Wire.commands buffer, piece.head? = some ':' ↔ s.isChainedFromRoot
  /-- Masks that differ in no bit of a channel give the same line, or none. -/
  same_mask : ∀ (mask mask' : UInt32) (v : s.Value),
    (∀ k < s.quantity.count, mask.toNat.testBit k = mask'.toNat.testBit k) →
    (Operation.setMasked s mask v).transmission? = (Operation.setMasked s mask' v).transmission?
  /-- A mask of all channels gives the line for all channels. -/
  full_mask : ∀ (mask : UInt32) (v : s.Value), (∀ k < s.quantity.count, mask.toNat.testBit k) →
    (Operation.setMasked s mask v).transmission? = (Operation.setAll s v).transmission?

theorem means_set (v : s.Value) {index : Nat} (h : index < s.quantity.count) :
    (Operation.set s index v).Means [s.assigning index v] := by
  refine ⟨_, s.transmission?_set h v, ?_⟩
  rw [Wire.meaning?_of_instruction?
    (semicolon_not_mem_assignment s.quantity.isWord_header _ (s.isWord_argument v))
    (Wire.instruction?_assignment s.quantity.isPlain_header _ (s.isWord_argument v))]
  rfl

theorem means_setMasked {mask : UInt32} (v : s.Value)
    (h : ∃ k < s.quantity.count, mask.toNat.testBit k) :
    (Operation.setMasked s mask v).Means
      (((List.range s.quantity.count).filter fun index ↦ mask.toNat.testBit index).map
        fun index ↦ s.assigning index v) := by
  cases hsel : maskText? mask s.quantity.count with
  | none =>
    obtain ⟨k, hk, hbit⟩ := h
    rw [maskText?_eq_none_iff.mp hsel k hk] at hbit
    cases hbit
  | some selection =>
    refine ⟨s.groupAssignment v selection ++ lineEnd, ?_, ?_⟩
    · rw [s.transmission?_setMasked mask v, hsel, Option.map_some]
    · exact s.meaning?_groupAssignment v (isSelection_selectionText? hsel)
        (readSelection?_maskText? hsel)

theorem shapesAgree : s.ShapesAgree where
  one v _ h := s.means_set v h
  all v := ⟨_, s.transmission?_setAll v,
    s.meaning?_groupAssignment v (isSelection_fullRange _) (readSelection?_fullRange _)⟩
  masked _ v h := s.means_setMasked v h
  unmasked mask v h := by
    rw [transmission?_setMasked, maskText?_eq_none_iff.mpr h, Option.map_none]
  each vs hne hle := by
    have hcommands := s.commands_assignmentsFrom hne
    refine ⟨_, s.transmission?_setEach hne hle, ?_, ?_, ?_⟩
    · rw [Wire.meaning?_append_lineEnd, hcommands]
      exact s.meaningOf?_assignmentsFrom 0 vs
    · rw [hcommands]
      exact s.map_unrooted_assignmentsFrom 0 vs (by omega)
    · rw [hcommands]
      exact fun piece hpiece ↦ s.head?_of_mem_assignmentsFrom hpiece
  same_mask mask mask' v h := by
    rw [transmission?_setMasked, transmission?_setMasked, maskText?_congr h]
  full_mask mask v h := by
    rw [transmission?_setMasked, maskText?_of_forall s.count_pos h, transmission?_setAll,
      Option.map_some]

end Setting

/-- **The shapes of every setting agree on the wire**: whatever the value, the channel, the mask or
the list, each line means what it is to set, with one argument per value in all shapes. Setting the
digital outputs by levels is setting them by the list of the lowest bits. All of it is said of what
reaches a driver: one transmission of the line, if there is one, and nothing else. -/
theorem setter_shapes_agree :
    (∀ s : Setting, s.ShapesAgree) ∧
    (∀ levels : UInt32, (Operation.setDigitalLevels levels).transmission? =
      (Operation.setEach .digitalOutput
        ((List.range 4).map fun k ↦ levels.toNat.testBit k)).transmission?) ∧
    ∀ op : Operation, op.isSetter → ∀ (u : ScriptedUnit) (ms : Nat),
      Client.newCalls (some u) ((⟨some u, ms⟩ : Client ScriptedUnit).perform op).2.driver =
        op.transmission?.toList.map fun buffer ↦ .send buffer 250 :=
  ⟨Setting.shapesAgree, fun _ ↦ rfl, fun _ hset u ms ↦ Client.newCalls_of_isSetter hset u ms⟩

/-- A mask with bits past the last output, which is sent like the mask without them. -/
theorem setter_shapes_agree_wide_mask :
    (Operation.setMasked .digitalOutput 0x1fa true).Means
        [⟨"SOUR:DAUX:OUT", 2, ['1']⟩, ⟨"SOUR:DAUX:OUT", 4, ['1']⟩] ∧
      (Operation.setMasked .digitalOutput 0x1fa true).transmission? =
        (Operation.setMasked .digitalOutput 0x0a true).transmission? ∧
      Client.newCalls (some {}) ((⟨some {}, 150⟩ : Client ScriptedUnit).perform
          (.setMasked .digitalOutput 0x1fa true)).2.driver =
        [.send "SOUR:DAUX:OUT 1,(@2,4)\r\n" 250] := by
  obtain ⟨hshapes, -, hsent⟩ := setter_shapes_agree
  refine ⟨?_, ?_, ?_⟩
  · exact (hshapes .digitalOutput).masked 0x1fa true ⟨1, by decide, by decide⟩
  · exact (hshapes .digitalOutput).same_mask 0x1fa 0x0a true (by decide)
  · rw [hsent (.setMasked .digitalOutput 0x1fa true) rfl]
    decide

end BatteryBench
