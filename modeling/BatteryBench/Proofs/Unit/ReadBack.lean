import BatteryBench.Proofs.Client.Setpoint
import BatteryBench.Proofs.Reply
import BatteryBench.Proofs.Unit.Reference

/-!
# What was set is what is read back

A unit *holds* values if each of its places has a text that is read as the value
(`ReferenceUnit.Holds`). One write keeps that up: the text that is put into its place is read as the
value that was written, and no other place changes, as no two settings share a group
(`ReferenceUnit.holds_put`). So does every operation that sets or asks, in any shape
(`Client.holds_perform`), and so does every run of them.

What is read back is the value that was written last (`Values.after`): flags, keywords and model
inputs bit for bit, and setpoints as the number nearest to the numeral that was sent
(`Setting.stored`).
-/

namespace BatteryBench

/-! ### Stored values -/

/-- The number nearest to a setpoint as it is sent: clamped to the limits, and rounded to the
places. -/
def Limits.nearest (l : Limits) (v : Binary32) : Binary32 :=
  let w := v.clamp (.ofInt l.low) (.ofInt l.high)
  Numeral.toBinary32 ⟨w.negative, w.toPlaces l.places, -l.places⟩

namespace Setting

/-- The value that a channel has after it was set to a value. -/
def stored : (s : Setting) → s.Value → s.Value
  | voltage, v => Limits.nearest ⟨0, 5, 4⟩ v
  | sourcing, v => Limits.nearest ⟨0, 5, 4⟩ v
  | sinking, v => Limits.nearest ⟨-5, 5, 4⟩ v
  | analogOutput, v => Limits.nearest ⟨-10, 10, 3⟩ v
  | enabled, v => v
  | fault, v => v
  | senseRange, v => v
  | digitalOutput, v => v
  | globalInput, v => v
  | localInput, v => v

/-- The group of a setting. -/
def group (s : Setting) : Text := s.quantity.header.group

/-- No two settings share a group. -/
theorem group_injective {s s' : Setting} (h : s.group = s'.group) : s = s' := by
  cases s <;> cases s' <;> first | rfl | exact absurd h (by decide)

/-- No setting shares the group of the precision. -/
theorem group_ne_precision (s : Setting) : s.group ≠ "CONF:MEAS:MODE" := by
  cases s <;> decide

end Setting

/-! ### What a unit takes is read as what was written -/

/-- Words have no padding. -/
theorem IsWord.trim_eq {t : Text} (ht : IsWord t) : trim t = t :=
  trim_of_forall_of_all ht (by decide)

theorem Reply.number_of_binary32? {t : Text} (ht : IsWord t) {v : Binary32}
    (h : binary32? t = some v) : Reply.number t = .ok v := by
  rw [number, ht.trim_eq, h]
  rfl

/-- A setpoint is read as the number nearest to it. -/
theorem number_setpointText {range : Range} {l : Limits} (h : range.HasLimits l)
    (hlow : range.low = .ofInt l.low) (hhigh : range.high = .ofInt l.high) {v : Binary32}
    (hv : v.isNaN = false) : Reply.number (setpointText l.places range v) = .ok (l.nearest v) := by
  refine Reply.number_of_binary32? (Binary32.isWord_fixedText _ _) ?_
  rw [Limits.nearest, ← hlow, ← hhigh]
  exact Binary32.binary32?_fixedText
    (Binary32.isFinite_clamp hv h.low_finite h.high_finite h.ordered) h.places_pos

namespace Setting

/-- **The text that is stored for an argument is read as the stored value.** -/
theorem exists_accepted (s : Setting) {v : s.Value} (hv : s.isNaN v = false) :
    ∃ t, ReferenceUnit.accepted? s.group (s.argument v) = some t ∧
      s.quantity.parse t = .ok (s.stored v) := by
  cases s with
  | enabled => cases v <;> exact ⟨_, rfl, rfl⟩
  | digitalOutput => cases v <;> exact ⟨_, rfl, rfl⟩
  | fault => cases v <;> exact ⟨_, rfl, rfl⟩
  | senseRange => cases v <;> exact ⟨_, rfl, rfl⟩
  | voltage => exact ⟨_, rfl, number_setpointText voltageRange_hasLimits rfl rfl hv⟩
  | sourcing => exact ⟨_, rfl, number_setpointText sourcingRange_hasLimits rfl rfl hv⟩
  | sinking => exact ⟨_, rfl, number_setpointText sinkingRange_hasLimits rfl rfl hv⟩
  | analogOutput => exact ⟨_, rfl, number_setpointText analogOutputRange_hasLimits rfl rfl hv⟩
  | globalInput =>
    exact ⟨_, rfl, Reply.number_of_binary32? (Binary32.isWord_shortestText v)
      (Binary32.binary32?_shortestText hv)⟩
  | localInput =>
    exact ⟨_, rfl, Reply.number_of_binary32? (Binary32.isWord_shortestText v)
      (Binary32.binary32?_shortestText hv)⟩

end Setting

theorem Precision.exists_accepted (p : Precision) :
    ∃ t, ReferenceUnit.accepted? "CONF:MEAS:MODE" p.command = some t ∧
      parseKeyword Precision t = .ok p := by
  cases p <;> exact ⟨_, rfl, rfl⟩

/-! ### Values -/

/-- A value for each channel that can be set, and the precision. -/
structure Values where
  /-- The value of a channel. -/
  channel : (s : Setting) → Nat → s.Value
  /-- The precision of all measurements. -/
  precision : Precision

namespace Values

/-- The values after a write. -/
def write (values : Values) : Write → Values
  | .channel s index v =>
    { values with
      channel := fun s' index' ↦
        if h : s = s' ∧ index = index' then h.1 ▸ s.stored v else values.channel s' index' }
  | .precision p => { values with precision := p }

/-- The values after the writes of a run: for each place, the one that was written last. -/
def after (values : Values) (ops : List Operation) : Values :=
  (ops.flatMap Operation.written).foldl write values

theorem channel_write_self (values : Values) (s : Setting) (index : Nat) (v : s.Value) :
    (values.write (.channel s index v)).channel s index = s.stored v :=
  dif_pos ⟨rfl, rfl⟩

theorem channel_write_of_ne (values : Values) {s s' : Setting} {index index' : Nat} (v : s.Value)
    (h : ¬(s = s' ∧ index = index')) :
    (values.write (.channel s index v)).channel s' index' = values.channel s' index' :=
  dif_neg h

end Values

/-- Whether what is written is a number, if it is to be one. -/
def Write.isNumber : Write → Bool
  | channel s _ v => !s.isNaN v
  | precision _ => true

/-! ### Holding values -/

namespace ReferenceUnit

/-- **That a unit holds values**: the texts in its places are read as them, and nothing is left to
be read. -/
structure Holds (u : ReferenceUnit) (values : Values) : Prop where
  /-- The text of each channel is read as its value. -/
  channel : ∀ s : Setting, ∀ index < s.quantity.count,
    s.quantity.parse (u.text s.group (index + 1)) = .ok (values.channel s index)
  /-- The text of the precision is read as it. -/
  precision : parseKeyword Precision (u.text "CONF:MEAS:MODE" 0) = .ok values.precision
  /-- Every answer was read. -/
  idle : u.outbox = []

theorem text_put_self {u : ReferenceUnit} {a : Wire.Assignment} {t : Text}
    (h : accepted? a.group a.argument = some t) : (u.put a).text a.group a.number = t := by
  rw [put, h]
  exact if_pos ⟨rfl, rfl⟩

theorem text_put_of_ne {u : ReferenceUnit} {a : Wire.Assignment} {group : Text} {n : Nat}
    (h : ¬(group = a.group ∧ n = a.number)) : (u.put a).text group n = u.text group n := by
  rw [put]
  split
  · exact if_neg h
  · rfl

theorem outbox_put (u : ReferenceUnit) (a : Wire.Assignment) : (u.put a).outbox = u.outbox := by
  rw [put]
  split <;> rfl

/-- **A write changes its place and no other.** -/
theorem holds_put {u : ReferenceUnit} {values : Values} (h : u.Holds values) {w : Write}
    (hw : w.isNumber) : (u.put w.assignment).Holds (values.write w) := by
  cases w with
  | channel s index v =>
    have hv : s.isNaN v = false := by simpa [Write.isNumber] using hw
    obtain ⟨t, ht, hread⟩ := s.exists_accepted hv
    have hself : (u.put (Write.channel s index v).assignment).text s.group (index + 1) = t :=
      text_put_self (a := (Write.channel s index v).assignment) ht
    refine ⟨fun s' index' hindex ↦ ?_, ?_, (outbox_put u _).trans h.idle⟩
    · -- Another place differs in the group or in the number, as no two settings share a group.
      by_cases hplace : s = s' ∧ index = index'
      · obtain ⟨rfl, rfl⟩ := hplace
        rw [hself, hread, Values.channel_write_self]
      · have hother : ¬(s'.group = s.group ∧ index' + 1 = index + 1) := by
          rintro ⟨hgroup, hnumber⟩
          exact hplace ⟨(Setting.group_injective hgroup).symm, by omega⟩
        rw [text_put_of_ne hother, Values.channel_write_of_ne values v hplace]
        exact h.channel s' index' hindex
    · have hother : ¬(("CONF:MEAS:MODE" : Text) = s.group ∧ 0 = index + 1) :=
        fun heq ↦ s.group_ne_precision heq.1.symm
      rw [text_put_of_ne hother]
      exact h.precision
  | precision p =>
    obtain ⟨t, ht, hread⟩ := p.exists_accepted
    have hself : (u.put (Write.precision p).assignment).text "CONF:MEAS:MODE" 0 = t :=
      text_put_self (a := (Write.precision p).assignment) ht
    refine ⟨fun s index hindex ↦ ?_, ?_, (outbox_put u _).trans h.idle⟩
    · have hother : ¬(s.group = ("CONF:MEAS:MODE" : Text) ∧ index + 1 = 0) :=
        fun heq ↦ s.group_ne_precision heq.1
      rw [text_put_of_ne hother]
      exact h.channel s index hindex
    · rw [hself]
      exact hread

theorem holds_foldl_put {u : ReferenceUnit} {values : Values} (h : u.Holds values) {ws : List Write}
    (hws : ∀ w ∈ ws, w.isNumber) :
    ((ws.map Write.assignment).foldl put u).Holds (ws.foldl Values.write values) := by
  induction ws generalizing u values with
  | nil => exact h
  | cons w ws ih =>
    obtain ⟨hw, hws⟩ := List.forall_mem_cons.mp hws
    exact ih (holds_put h hw) hws

end ReferenceUnit

/-! ### Setting and asking -/

namespace Operation

/-- Whether an operation asks for channels or the precision. -/
def isGetter : Operation → Bool
  | get _ _ | getAll _ | getMask _ | getInto _ _ | getPrecision => true
  | _ => false

/-- What asks for channels or the precision has the unit report once. -/
theorem exists_report {op : Operation} (hget : op.isGetter) {buffer : Text}
    {parse : Text → Outcome op.Result} (hreq : op.request = .query buffer parse) :
    ∃ group ns, Wire.instructions buffer = [.report group ns] := by
  cases op with
  | get q index =>
    change q.get index = _ at hreq
    rw [Quantity.get] at hreq
    split at hreq
    · injection hreq with hbuffer
      exact ⟨_, _, hbuffer ▸ q.instructions_channel _⟩
    · cases hreq
  | getAll q =>
    injection hreq with hbuffer
    exact ⟨_, _, hbuffer ▸ q.instructions_groupQuery _⟩
  | getMask f =>
    cases f <;> injection hreq with hbuffer <;>
      exact ⟨_, _, hbuffer ▸ Quantity.instructions_groupQuery _ _⟩
  | getInto q buffer =>
    change q.getInto buffer = _ at hreq
    rw [Quantity.getInto] at hreq
    split at hreq
    · cases hreq
    · split at hreq
      · cases hreq
      · injection hreq with hbuffer
        exact ⟨_, _, hbuffer ▸ q.instructions_groupQuery _⟩
  | getPrecision =>
    injection hreq with hbuffer
    exact ⟨"CONF:MEAS:MODE", [0], hbuffer ▸ by decide⟩
  | _ => cases hget

theorem written_of_isQuery {op : Operation} (h : op.isQuery) : op.written = [] := by
  cases op with
  | set _ _ _ | setAll _ _ | setMasked _ _ _ | setEach _ _ | setDigitalLevels _ | setPrecision _ =>
    cases h
  | _ => rfl

theorem isQuery_of_isGetter {op : Operation} (h : op.isGetter) : op.isQuery := by
  cases op with
  | get _ _ | getAll _ | getMask _ | getInto _ _ | getPrecision => rfl
  | _ => cases h

end Operation

theorem Values.after_cons (values : Values) (op : Operation) (ops : List Operation) :
    values.after (op :: ops) = (op.written.foldl write values).after ops := by
  rw [after, List.flatMap_cons, List.foldl_append]
  rfl

namespace Client

/-- **One operation**: the unit holds the values after its writes. -/
theorem holds_perform {u : ReferenceUnit} {values : Values} (h : u.Holds values) (ms : Nat)
    {op : Operation} (hop : op.isSetter ∨ op.isGetter) (hw : ∀ w ∈ op.written, w.isNumber) :
    ∃ u' : ReferenceUnit, ((⟨some u, ms⟩ : Client ReferenceUnit).perform op).2 = ⟨some u', ms⟩ ∧
      u'.Holds (op.written.foldl Values.write values) := by
  by_cases hneeds : op.NeedsDriver
  · rcases hop with hset | hget
    · obtain ⟨buffer, v, hreq⟩ :=
        Operation.request_of_not_isQuery hneeds (Operation.isQuery_of_isSetter hset)
      obtain ⟨hstores, hassignments⟩ := Operation.tells_of_command hset hreq
      refine ⟨u.receive buffer, by rw [perform_command hreq], ?_⟩
      rw [ReferenceUnit.receive_of_isStore hstores, hassignments]
      exact ReferenceUnit.holds_foldl_put h hw
    · have hquery := Operation.isQuery_of_isGetter hget
      obtain ⟨buffer, parse, hreq⟩ := Operation.request_of_isQuery hneeds hquery
      obtain ⟨group, ns, hreport⟩ := Operation.exists_report hget hreq
      refine ⟨u, by rw [perform_query op h.idle hreq hreport], ?_⟩
      rw [Operation.written_of_isQuery hquery]
      exact h
  · refine ⟨u, perform_of_not_needsDriver hneeds, ?_⟩
    rw [Operation.written_of_not_needsDriver hneeds]
    exact h

/-- **A run of operations**: the unit holds the values after all of their writes. -/
theorem holds_performAll {u : ReferenceUnit} {values : Values} (h : u.Holds values) (ms : Nat)
    {ops : List Operation} (hops : ∀ op ∈ ops, op.isSetter ∨ op.isGetter)
    (hw : ∀ op ∈ ops, ∀ w ∈ op.written, w.isNumber) :
    ∃ u' : ReferenceUnit, (⟨some u, ms⟩ : Client ReferenceUnit).performAll ops = ⟨some u', ms⟩ ∧
      u'.Holds (values.after ops) := by
  induction ops generalizing u values with
  | nil => exact ⟨u, rfl, h⟩
  | cons op ops ih =>
    obtain ⟨hop, hops⟩ := List.forall_mem_cons.mp hops
    obtain ⟨hwop, hw⟩ := List.forall_mem_cons.mp hw
    obtain ⟨u', hu', hholds⟩ := holds_perform h ms hop hwop
    rw [Values.after_cons, performAll, List.foldl_cons, hu']
    exact ih hholds hops hw

end Client

/-! ### Reading back -/

/-- Texts that are each read as a value are read as the list of these values. -/
theorem ReferenceUnit.list_of_parse {u : ReferenceUnit} {s : Setting} {value : Nat → s.Value}
    {k : Nat} (hpos : 0 < k)
    (hread : ∀ index < k, s.quantity.parse (u.text s.group (index + 1)) = .ok (value index)) :
    Reply.list k s.quantity.parse
        ([','].intercalate (((List.range k).map (· + 1)).map (u.text s.group))) =
      .ok ((List.range k).map value) := by
  have htexts : ((List.range k).map (· + 1)).map (u.text s.group) =
      (List.range k).map fun index ↦ u.text s.group (index + 1) := List.map_map
  rw [htexts]
  refine Reply.list_intercalate s.quantity.kind.parse_trim ?_ ?_ ?_ ?_
  · rw [List.length_map, List.length_range]
  · rw [ne_eq, List.map_eq_nil_iff, List.range_eq_nil]
    exact Nat.ne_of_gt hpos
  · intro t ht
    obtain ⟨index, hindex, rfl⟩ := List.mem_map.mp ht
    exact ValueKind.comma_not_mem_of_parse (hread index (List.mem_range.mp hindex))
  · rw [List.map_map, List.map_map]
    exact List.map_congr_left fun index hindex ↦ hread index (List.mem_range.mp hindex)

/-- The first texts of a group are read as a list of the values. -/
theorem ReferenceUnit.Holds.list {u : ReferenceUnit} {values : Values} (h : u.Holds values)
    (s : Setting) {k : Nat} (hpos : 0 < k) (hle : k ≤ s.quantity.count) :
    Reply.list k s.quantity.parse
        ([','].intercalate (((List.range k).map (· + 1)).map (u.text s.group))) =
      .ok ((List.range k).map (values.channel s)) :=
  list_of_parse hpos fun index hindex ↦ h.channel s index (Nat.lt_of_lt_of_le hindex hle)

namespace Client

/-- **That a client reads values back**: one channel, all channels or as many as a buffer has slots,
the masks of flags, and the precision. -/
structure ReadsBack (c : Client ReferenceUnit) (values : Values) : Prop where
  /-- One channel. -/
  get : ∀ s : Setting, ∀ index < s.quantity.count,
    (c.perform (.get s.quantity index)).1 = .ok (values.channel s index)
  /-- Every channel. -/
  getAll : ∀ s : Setting, (c.perform (.getAll s.quantity)).1 =
    .ok ((List.range s.quantity.count).map (values.channel s))
  /-- As many channels as a buffer has slots, whatever is in them. -/
  getInto : ∀ (s : Setting) (buffer : List s.Value), buffer.length ≤ s.quantity.count →
    (c.perform (.getInto s.quantity buffer)).1 =
      .ok ((List.range buffer.length).map (values.channel s))
  /-- Which outputs of the cells are on. -/
  enabledMask : (c.perform (.getMask .enabled)).1 =
    .ok (maskOfFlags ((List.range 8).map (values.channel .enabled)))
  /-- Which digital outputs are high. -/
  digitalOutputMask : (c.perform (.getMask .digitalOutput)).1 =
    .ok (maskOfFlags ((List.range 4).map (values.channel .digitalOutput)))
  /-- The precision. -/
  getPrecision : (c.perform .getPrecision).1 = .ok values.precision

/-- A client of a unit that holds values reads them back. -/
theorem readsBack_of_holds {u : ReferenceUnit} {values : Values} (h : u.Holds values) (ms : Nat) :
    (⟨some u, ms⟩ : Client ReferenceUnit).ReadsBack values := by
  have hmask : ∀ s : Setting, 0 < s.quantity.count := fun s ↦ by cases s <;> decide
  refine ⟨fun s index hindex ↦ ?_, fun s ↦ ?_, fun s buffer hle ↦ ?_, ?_, ?_, ?_⟩
  · have hreq : (Operation.get s.quantity index).request =
        .query (s.quantity.header.channel (index + 1) ++ "?" ++ lineEnd) s.quantity.parse := by
      show s.quantity.get index = _
      rw [Quantity.get, channelNumber, if_pos hindex]
    rw [perform_query _ h.idle hreq (s.quantity.instructions_channel (index + 1)),
      List.map_singleton, List.intercalate_singleton]
    exact h.channel s index hindex
  · rw [perform_query (.getAll s.quantity) h.idle rfl (s.quantity.instructions_groupQuery _)]
    dsimp only
    exact h.list s (hmask s) (Nat.le_refl _)
  · by_cases hempty : buffer.isEmpty
    · obtain rfl := List.isEmpty_iff.mp hempty
      have hreq : (Operation.getInto s.quantity []).request = .done [] := by
        show s.quantity.getInto [] = _
        simp [Quantity.getInto]
      simp only [perform, run, hreq]
      rfl
    · have hpos : 0 < buffer.length := by
        rw [List.length_pos_iff]
        exact fun hnil ↦ hempty (hnil ▸ rfl)
      rw [perform_query (.getInto s.quantity buffer) h.idle
        (Quantity.getInto_eq_query (List.ne_nil_of_length_pos hpos) hle)
        (s.quantity.instructions_groupQuery _)]
      exact h.list s hpos hle
  · rw [perform_query (.getMask .enabled) h.idle rfl
      (Quantity.enabled.instructions_groupQuery _)]
    exact congrArg (Except.map maskOfFlags) (h.list .enabled (by decide) (Nat.le_refl 8))
  · rw [perform_query (.getMask .digitalOutput) h.idle rfl
      (Quantity.digitalOutput.instructions_groupQuery _)]
    exact congrArg (Except.map maskOfFlags) (h.list .digitalOutput (by decide) (Nat.le_refl 4))
  · have hreport : Wire.instructions ("CONF:MEAS:MODE?" ++ lineEnd) =
        [.report "CONF:MEAS:MODE" [0]] := by decide
    rw [perform_query .getPrecision h.idle rfl hreport]
    show parseKeyword Precision ([','].intercalate [u.text "CONF:MEAS:MODE" 0]) = _
    rw [List.intercalate_singleton]
    exact h.precision

/-- **What was set is what is read back.** A unit holds some values at first, and any operations
that set or ask follow, in any order and any shapes, refused ones included. Then every channel is
read back as the value that was set last, and as the value it had at first if none was. -/
theorem readsBack_performAll {u : ReferenceUnit} {values : Values} (h : u.Holds values) (ms : Nat)
    {ops : List Operation} (hops : ∀ op ∈ ops, op.isSetter ∨ op.isGetter)
    (hw : ∀ op ∈ ops, ∀ w ∈ op.written, w.isNumber) :
    ((⟨some u, ms⟩ : Client ReferenceUnit).performAll ops).ReadsBack (values.after ops) := by
  obtain ⟨u', hu', hholds⟩ := holds_performAll h ms hops hw
  rw [hu']
  exact readsBack_of_holds hholds ms

end Client

/-! ### A unit at rest -/

theorem Binary32.eq_ofBits {v : Binary32} {bits : UInt32} (h : v.toBits = bits) :
    v = ofBits bits := by
  rw [← h, ofBits_toBits]

/-- The values of a unit at rest. -/
def Values.resting : Values where
  channel
    | .enabled, _ => false
    | .voltage, _ => .ofInt 0
    | .sourcing, _ => .ofInt 0
    | .sinking, _ => .ofInt 0
    | .fault, _ => .none
    | .senseRange, _ => .auto
    | .analogOutput, _ => .ofInt 0
    | .digitalOutput, _ => false
    | .globalInput, _ => .ofInt 0
    | .localInput, _ => .ofInt 0
  precision := .normal

/-- A unit at rest. -/
def ReferenceUnit.resting : ReferenceUnit where
  text group _ :=
    if group = "OUTP:FAUL" then "NONE"
    else if group = "SENS:RANG" then "AUTO"
    else if group = "CONF:MEAS:MODE" then "NORMAL"
    else "0"

theorem ReferenceUnit.resting_holds : ReferenceUnit.resting.Holds Values.resting := by
  refine ⟨fun s index _ ↦ ?_, rfl, rfl⟩
  cases s <;> rfl

/-- Voltages above the limit and between two places, and a fault on the second cell. -/
def faultRun : List Operation :=
  [.setAll .voltage (Binary32.ofInt 7), .setEach .voltage [Binary32.ofInt 2, .ofBits 0x3f9e0652],
    .getAll .voltage, .setMasked .fault 2 CellFault.polarity, .set .fault 8 CellFault.openCircuit]

/-- The second voltage is read back rounded, the third one clamped. -/
theorem Client.readsBack_performAll_faultRun :
    let c := (⟨some .resting, 150⟩ : Client ReferenceUnit).performAll faultRun
    (c.perform (.get .voltage 1)).1 = .ok (Binary32.ofBits 0x3f9e075f) ∧
      (c.perform (.get .voltage 2)).1 = .ok (Binary32.ofBits 0x40a00000) ∧
      (c.perform (.get .fault 1)).1 = .ok CellFault.polarity := by
  have h : ((⟨some .resting, 150⟩ : Client ReferenceUnit).performAll faultRun).ReadsBack
      (Values.resting.after faultRun) :=
    Client.readsBack_performAll ReferenceUnit.resting_holds 150 (by decide) (by decide +kernel)
  -- The values are compared by their bits, which is decided without comparing values of settings.
  have hrounded :
      Binary32.toBits ((Values.resting.after faultRun).channel .voltage 1) = 0x3f9e075f := by
    decide +kernel
  have hclamped :
      Binary32.toBits ((Values.resting.after faultRun).channel .voltage 2) = 0x40a00000 := by
    decide +kernel
  exact ⟨(h.get .voltage 1 (by decide)).trans (congrArg Except.ok (Binary32.eq_ofBits hrounded)),
    (h.get .voltage 2 (by decide)).trans (congrArg Except.ok (Binary32.eq_ofBits hclamped)),
    h.get .fault 1 (by decide)⟩

end BatteryBench
