import BatteryBench.Proofs.Client.Shapes
import BatteryBench.Proofs.Wire.Paths

/-!
# Chains of commands and the tree of headers

Setting each channel to its own value is one line with a command for each of them, and a unit
resolves the header of every command after the first one from where the command before it ended. So
a chain means what its commands mean one by one only if every header leads to its place from there.

Where the commands of a chain end up is `Setting.executed_setEach`: the command for a channel is
executed below everything that the commands before it have descended (`Setting.descended`). Headers
with a colon in front descend nothing, and neither does a header of one node. Every other setting
has gone astray by its second command, so its chains agree with the single commands for one value
and for no longer list (`Setting.executed_setEach_eq_iff`).
-/

namespace BatteryBench

/-! ### What is executed -/

/-- What a unit executes of what its driver was given. -/
def Wire.executedOf (calls : List DriverCall) : List Wire.Executed :=
  calls.flatMap fun
    | .send buffer _ => Wire.executed buffer
    | _ => []

/-- What a unit executes of the line that an operation sends. -/
def Operation.executed (op : Operation) : List Wire.Executed :=
  op.transmission?.toList.flatMap Wire.executed

namespace Client

/-- A setter leaves its transmission in a scripted driver, and nothing else. -/
theorem perform_isSetter {op : Operation} (hset : op.isSetter) (u : ScriptedUnit) (ms : Nat) :
    ((⟨some u, ms⟩ : Client ScriptedUnit).perform op).2 =
      ⟨some { u with calls := u.calls ++ op.transmission?.toList.map (.send · 250) }, ms⟩ := by
  by_cases hneeds : op.NeedsDriver
  · obtain ⟨buffer, v, hreq⟩ :=
      Operation.request_of_not_isQuery hneeds (Operation.isQuery_of_isSetter hset)
    rw [Operation.transmission?_of_command hreq]
    simp only [perform, hreq, run, transmit_scripted]
    cases u.writeFailure <;> rfl
  · rcases Operation.request_of_not_needsDriver hneeds with ⟨e, hreq⟩ | ⟨v, hreq⟩ <;>
      simp [perform, run, hreq, Operation.transmission?]

/-- So does a run of setters, in order. -/
theorem performAll_isSetter {ops : List Operation} (hset : ∀ op ∈ ops, op.isSetter)
    (u : ScriptedUnit) (ms : Nat) :
    (⟨some u, ms⟩ : Client ScriptedUnit).performAll ops =
      ⟨some { u with
        calls := u.calls ++ ops.flatMap fun op ↦ op.transmission?.toList.map (.send · 250) },
        ms⟩ := by
  induction ops generalizing u with
  | nil => simp [performAll]
  | cons op ops ih =>
    obtain ⟨hop, hops⟩ := List.forall_mem_cons.mp hset
    rw [performAll, List.foldl_cons, perform_isSetter hop, ← performAll, ih hops,
      List.flatMap_cons, List.append_assoc]

/-- What a unit executes of a run of operations on a scripted driver. -/
def executed (ops : List Operation) (u : ScriptedUnit) (ms : Nat) : List Wire.Executed :=
  Wire.executedOf
    (newCalls (some u) ((⟨some u, ms⟩ : Client ScriptedUnit).performAll ops).driver)

/-- Of a run of setters a unit executes the line of each, whatever the driver. -/
theorem executed_of_isSetter {ops : List Operation} (hset : ∀ op ∈ ops, op.isSetter)
    (u : ScriptedUnit) (ms : Nat) :
    executed ops u ms = ops.flatMap Operation.executed := by
  rw [executed, performAll_isSetter hset, newCalls, List.drop_left, Wire.executedOf,
    List.flatMap_assoc]
  refine List.flatMap_congr fun op _ ↦ ?_
  rw [Operation.executed]
  cases op.transmission? <;> rfl

end Client

/-! ### The places of a setting -/

namespace Setting

variable (s : Setting)

/-- The place where the command for a channel, counted from zero, is executed on a line of its
own. -/
def place (index : Nat) : Wire.Path := splitAt ':' (s.quantity.header.channel (index + 1))

/-- The nodes that the commands of a chain for the first channels leave behind. -/
def descended (n : Nat) : Wire.Path :=
  if s.isChainedFromRoot then [] else (List.range n).flatMap fun index ↦ (s.place index).dropLast

theorem place_ne_nil (index : Nat) : s.place index ≠ [] := splitAt_ne_nil _ _

theorem descended_succ (h : s.isChainedFromRoot = false) (n : Nat) :
    s.descended (n + 1) = s.descended n ++ (s.place n).dropLast := by
  simp [descended, h, List.range_succ]

/-- A command of a chain is executed below what the commands before it have descended. -/
theorem resolve_chainHeader (n : Nat) {parent : Wire.Path}
    (hparent : s.isChainedFromRoot = false → parent = s.descended n) :
    Wire.resolve parent (s.chainHeader.channel (n + 1)) = s.descended n ++ s.place n := by
  cases hrooted : s.isChainedFromRoot with
  | true =>
    have hheader : s.chainHeader = s.quantity.header.rooted := by
      cases s <;> first | rfl | cases hrooted
    rw [hheader, Wire.resolve_rooted_channel, descended, if_pos hrooted, List.nil_append, place]
  | false =>
    have hheader : s.chainHeader = s.quantity.header := by
      cases s <;> first | rfl | cases hrooted
    rw [hheader, Wire.resolve_channel s.quantity.isPlain_header, hparent hrooted, place]

/-- The commands of a chain, from any channel on. The parent they start from matters to chains
without a colon only, and there it is what the commands before have descended. -/
theorem executedFrom_assignmentsFrom (n : Nat) (vs : List s.Value) {parent : Wire.Path}
    (hparent : s.isChainedFromRoot = false → parent = s.descended n) :
    Wire.executedFrom parent (s.assignmentsFrom (n + 1) vs) =
      (vs.zipIdx n).map fun p ↦ ⟨s.descended p.2 ++ s.place p.2, s.argument p.1⟩ := by
  induction vs generalizing n parent with
  | nil => rfl
  | cons v vs ih =>
    have hnext : s.isChainedFromRoot = false →
        (s.descended n ++ s.place n).dropLast = s.descended (n + 1) := by
      intro h
      rw [List.dropLast_append_of_ne_nil (s.place_ne_nil n), s.descended_succ h]
    rw [assignmentsFrom, Wire.executedFrom_assignment s.isWord_chainHeader,
      s.resolve_chainHeader n hparent, ih (n + 1) hnext, List.zipIdx_cons, List.map_cons]

/-- **Where the commands of a chain are executed.** -/
theorem executed_setEach {vs : List s.Value} (hle : vs.length ≤ s.quantity.count) :
    (Operation.setEach s vs).executed =
      vs.zipIdx.map fun p ↦ ⟨s.descended p.2 ++ s.place p.2, s.argument p.1⟩ := by
  by_cases hne : vs = []
  · subst hne
    rfl
  · rw [Operation.executed, s.transmission?_setEach hne hle, Option.toList_some,
      List.flatMap_singleton, Wire.executed, s.commands_assignmentsFrom hne]
    refine s.executedFrom_assignmentsFrom 0 vs fun h ↦ ?_
    rw [descended, h]
    rfl

/-- The command for one channel is executed at its place. -/
theorem executed_set {index : Nat} (h : index < s.quantity.count) (v : s.Value) :
    (Operation.set s index v).executed = [⟨s.place index, s.argument v⟩] := by
  have hsemicolon := semicolon_not_mem_assignment s.quantity.isWord_header (index + 1)
    (s.isWord_argument v)
  rw [Operation.executed, s.transmission?_set h, Option.toList_some, List.flatMap_singleton,
    Wire.executed, Wire.commands_singleton hsemicolon,
    Wire.executedFrom_assignment s.quantity.isWord_header,
    Wire.resolve_channel s.quantity.isPlain_header, List.nil_append, Wire.executedFrom, place]

/-! ### Chains and single commands -/

/-- The settings of the single channels that a chain stands for. -/
def singles (vs : List s.Value) : List Operation := vs.zipIdx.map fun p ↦ .set s p.2 p.1

theorem isSetter_of_mem_singles {vs : List s.Value} : ∀ op ∈ s.singles vs, op.isSetter := by
  intro op hop
  obtain ⟨p, -, rfl⟩ := List.mem_map.mp hop
  rfl

/-- The single commands are executed at their places. -/
theorem executed_singles {vs : List s.Value} (hle : vs.length ≤ s.quantity.count) :
    (s.singles vs).flatMap Operation.executed =
      vs.zipIdx.map fun p ↦ ⟨s.place p.2, s.argument p.1⟩ := by
  rw [singles, List.flatMap_map, List.map_eq_flatMap]
  refine List.flatMap_congr fun p hp ↦ s.executed_set ?_ p.1
  have hlt := List.snd_lt_of_mem_zipIdx hp
  omega

/-- Only the headers of the cells' outputs are single nodes. -/
theorem dropLast_place_eq_nil_iff (index : Nat) :
    (s.place index).dropLast = [] ↔ s = .enabled := by
  rw [place, dropLast_splitAt_eq_nil_iff, Header.channel, List.mem_append, List.mem_append]
  have hdigits : ':' ∉ decimal (index + 1) :=
    not_mem_of_forall (isDigits_decimal (index + 1)) (by decide)
  simp only [hdigits, or_false]
  cases s <;> simp <;> decide

/-- A chain has descended nothing before its first command, nor if its headers start at the root or
are single nodes. -/
theorem descended_eq_nil_iff {n : Nat} :
    s.descended n = [] ↔ s.isChainedFromRoot ∨ s = .enabled ∨ n = 0 := by
  cases hrooted : s.isChainedFromRoot with
  | true => simp [descended, hrooted]
  | false =>
    rw [descended, hrooted, if_neg Bool.false_ne_true, List.flatMap_eq_nil_iff]
    simp only [List.mem_range, dropLast_place_eq_nil_iff, Bool.false_eq_true, false_or]
    constructor
    · intro h
      rcases Nat.eq_zero_or_pos n with hn | hn
      · exact .inr hn
      · exact .inl (h 0 hn)
    · rintro (h | rfl)
      · exact fun _ _ ↦ h
      · exact fun _ h ↦ absurd h (Nat.not_lt_zero _)

/-- **A chain agrees with the single commands** if its headers start at the root or are single
nodes, and otherwise for one value at most. -/
theorem executed_setEach_eq_iff {vs : List s.Value} (hle : vs.length ≤ s.quantity.count) :
    (Operation.setEach s vs).executed = (s.singles vs).flatMap Operation.executed ↔
      s.isChainedFromRoot ∨ s = .enabled ∨ vs.length ≤ 1 := by
  rw [s.executed_setEach hle, s.executed_singles hle, List.map_inj_left]
  simp only [Wire.Executed.mk.injEq, List.append_left_eq_self, and_true, descended_eq_nil_iff]
  constructor
  · intro h
    by_contra hnot
    obtain ⟨hrooted, hnode, hlong⟩ : ¬ s.isChainedFromRoot ∧ ¬ s = .enabled ∧ 1 < vs.length := by
      simpa only [not_or, not_le] using hnot
    have hsecond : (vs[1], 1) ∈ vs.zipIdx := List.mk_mem_zipIdx_iff_getElem?.mpr (by simp)
    rcases h _ hsecond with hroot | hroot | hroot
    · exact hrooted hroot
    · exact hnode hroot
    · cases hroot
  · rintro (h | h | h) p hp
    · exact .inl h
    · exact .inr (.inl h)
    · have hlt := List.snd_lt_of_mem_zipIdx hp
      exact .inr (.inr (by omega))

/-- What a unit executes of a chain and of the single commands. -/
theorem executed_of_length_le {vs : List s.Value} (hle : vs.length ≤ s.quantity.count)
    (u : ScriptedUnit) (ms : Nat) :
    Client.executed [.setEach s vs] u ms =
        vs.zipIdx.map (fun p ↦ ⟨s.descended p.2 ++ s.place p.2, s.argument p.1⟩) ∧
      Client.executed (s.singles vs) u ms =
        vs.zipIdx.map (fun p ↦ ⟨s.place p.2, s.argument p.1⟩) ∧
      (Client.executed [.setEach s vs] u ms = Client.executed (s.singles vs) u ms ↔
        s.isChainedFromRoot ∨ s = .enabled ∨ vs.length ≤ 1) := by
  rw [Client.executed_of_isSetter (fun _ h ↦ List.mem_singleton.mp h ▸ rfl),
    Client.executed_of_isSetter s.isSetter_of_mem_singles, List.flatMap_singleton]
  exact ⟨s.executed_setEach hle, s.executed_singles hle, s.executed_setEach_eq_iff hle⟩

/-- The levels of the digital outputs are a chain that goes astray. -/
theorem executed_setDigitalLevels_ne (levels : UInt32) (u : ScriptedUnit) (ms : Nat) :
    Client.executed [.setDigitalLevels levels] u ms ≠
      Client.executed (Setting.digitalOutput.singles (levelFlags levels)) u ms := by
  have hlength : (levelFlags levels).length = 4 := by simp [levelFlags, Quantity.count]
  obtain ⟨-, -, hiff⟩ := digitalOutput.executed_of_length_le (Nat.le_of_eq hlength) u ms
  intro heq
  rcases hiff.mp heq with hrooted | hnode | hshort
  · cases hrooted
  · cases hnode
  · replace hshort : (levelFlags levels).length ≤ 1 := hshort
    omega

end Setting

/-- **What a unit executes of chains.** Through every scripted driver, the command for a channel is
executed below all that the commands before it in the chain have descended, and at its own place on
a line of its own. So a chain is as good as its commands one by one if its headers start at the root
or are single nodes; otherwise a list of two values goes astray, and so does every mask of digital
levels. -/
theorem executed_chains (s : Setting) {vs : List s.Value} (hle : vs.length ≤ s.quantity.count)
    (levels : UInt32) (u : ScriptedUnit) (ms : Nat) :
    (Client.executed [.setEach s vs] u ms =
        vs.zipIdx.map (fun p ↦ ⟨s.descended p.2 ++ s.place p.2, s.argument p.1⟩) ∧
      Client.executed (s.singles vs) u ms =
        vs.zipIdx.map (fun p ↦ ⟨s.place p.2, s.argument p.1⟩) ∧
      (Client.executed [.setEach s vs] u ms = Client.executed (s.singles vs) u ms ↔
        s.isChainedFromRoot ∨ s = .enabled ∨ vs.length ≤ 1)) ∧
    Client.executed [.setDigitalLevels levels] u ms ≠
      Client.executed (Setting.digitalOutput.singles (levelFlags levels)) u ms :=
  ⟨s.executed_of_length_le hle u ms, Setting.executed_setDigitalLevels_ne levels u ms⟩

/-- Three global inputs of a model, whose headers start at the root. -/
theorem executed_chains_globalInput :
    let vs : List Binary32 := [.ofInt 1, .ofInt 2, .ofInt 3]
    vs.length ≤ Setting.globalInput.quantity.count ∧
      Client.executed [.setEach .globalInput vs] {} 150 =
        Client.executed (Setting.globalInput.singles vs) {} 150 ∧
      Client.executed (Setting.globalInput.singles vs) {} 150 =
        [⟨["MOD", "GLOB1"], "1"⟩, ⟨["MOD", "GLOB2"], "2"⟩, ⟨["MOD", "GLOB3"], "3"⟩] := by
  intro vs
  have hle : vs.length ≤ Setting.globalInput.quantity.count := by decide
  obtain ⟨⟨-, hsingles, hiff⟩, -⟩ := executed_chains .globalInput hle 0 {} 150
  refine ⟨hle, hiff.mpr (.inl rfl), ?_⟩
  rw [hsingles]
  decide +kernel

/-- Two voltages: the second command of the chain is looked for below the first cell, where one by
one it is looked for at the root. -/
theorem chain_astray :
    let vs : List Binary32 := [.ofInt 1, .ofInt 2]
    Client.executed [.setEach .voltage vs] {} 150 =
        [⟨["SOUR1", "VOLT"], "1.0000"⟩, ⟨["SOUR1", "SOUR2", "VOLT"], "2.0000"⟩] ∧
      Client.executed (Setting.voltage.singles vs) {} 150 =
        [⟨["SOUR1", "VOLT"], "1.0000"⟩, ⟨["SOUR2", "VOLT"], "2.0000"⟩] := by
  decide +kernel

end BatteryBench
