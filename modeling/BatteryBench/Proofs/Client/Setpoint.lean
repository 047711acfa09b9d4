import BatteryBench.Proofs.Client.Commands
import BatteryBench.Proofs.Client.Conduct
import Mathlib.Data.List.Forall2

/-!
# Setpoints stay within their limits

Cell voltages, the two current limits and the analog outputs are sent as numerals with a fixed count
of places. The limits are whole numbers here, and a numeral is read by its grammar alone, so nothing
is taken from the way a setpoint is written.

Every value that is a number is sent as a numeral within the limits: rounding comes after clamping
and keeps the order, and the limits are whole, so nothing rounds past them. A value that is no
number passes through the clamp and is sent as a word. `setpoints_sent` says both at once, value by
value.
-/

namespace BatteryBench

/-! ### Limits -/

/-- The limits of a setpoint, and the count of places it is written with. -/
structure Limits where
  /-- The least value. -/
  low : Int
  /-- The greatest value. -/
  high : Int
  /-- The digits after the point. -/
  places : Nat
  deriving DecidableEq

/-- Whether a text is a numeral with the right count of places, between the limits. -/
def Limits.Admits (l : Limits) (t : Text) : Prop :=
  ∃ n, fixedNumeral? l.places t = some n ∧ l.low * 10 ^ l.places ≤ n ∧ n ≤ l.high * 10 ^ l.places

/-- The limits of the settings that have any. -/
def Setting.limits? : Setting → Option Limits
  | voltage | sourcing => some ⟨0, 5, 4⟩
  | sinking => some ⟨-5, 5, 4⟩
  | analogOutput => some ⟨-10, 10, 3⟩
  | _ => none

/-- Whether a value of some kind is NaN. -/
def ValueKind.isNaN : (k : ValueKind) → k.Carrier → Bool
  | number, v => Binary32.isNaN v
  | _, _ => false

/-- Whether a value to set is NaN. -/
def Setting.isNaN (s : Setting) (v : s.Value) : Bool := s.quantity.kind.isNaN v

/-- That a range has exactly the given limits. -/
structure Range.HasLimits (range : Range) (l : Limits) : Prop where
  /-- The bounds are finite. -/
  low_finite : range.low.isFinite
  /-- The bounds are finite. -/
  high_finite : range.high.isFinite
  /-- The bounds are in order. -/
  ordered : range.low.rank ≤ range.high.rank
  /-- Some digit stands after the point. -/
  places_pos : 0 < l.places
  /-- The lower bound is the lower limit. -/
  low_value : range.low.signed (range.low.toPlaces l.places) = l.low * 10 ^ l.places
  /-- The upper bound is the upper limit. -/
  high_value : range.high.signed (range.high.toPlaces l.places) = l.high * 10 ^ l.places

theorem voltageRange_hasLimits : voltageRange.HasLimits ⟨0, 5, 4⟩ := by
  constructor <;> decide

theorem sourcingRange_hasLimits : sourcingRange.HasLimits ⟨0, 5, 4⟩ := by
  constructor <;> decide

theorem sinkingRange_hasLimits : sinkingRange.HasLimits ⟨-5, 5, 4⟩ := by
  constructor <;> decide

theorem analogOutputRange_hasLimits : analogOutputRange.HasLimits ⟨-10, 10, 3⟩ := by
  constructor <;> decide

/-! ### One setpoint -/

/-- What is no number is sent as the word that says so. -/
theorem setpointText_of_isNaN {v : Binary32} (h : v.isNaN) (places : Nat) (range : Range) :
    setpointText places range v = "NaN" := by
  have hfinite : v.isFinite = false := by
    simp only [Binary32.isNaN, Binary32.isFinite, decide_eq_true_eq, decide_eq_false_iff_not]
      at h ⊢
    omega
  simp [setpointText, Binary32.clamp_of_isNaN h, Binary32.fixedText, hfinite,
    Binary32.nonFiniteText, h]

/-- A number is sent as the numeral of the number it is clamped to. -/
theorem fixedNumeral?_setpointText {range : Range} {l : Limits} (h : range.HasLimits l)
    {v : Binary32} (hv : v.isNaN = false) :
    fixedNumeral? l.places (setpointText l.places range v) =
      some ((v.clamp range.low range.high).signed
        ((v.clamp range.low range.high).toPlaces l.places)) := by
  obtain ⟨places, hplaces⟩ := Nat.exists_eq_succ_of_ne_zero (Nat.ne_of_gt h.places_pos)
  rw [hplaces]
  exact Binary32.fixedNumeral?_fixedText
    (Binary32.isFinite_clamp hv h.low_finite h.high_finite h.ordered) places

theorem admits_setpointText {range : Range} {l : Limits} (h : range.HasLimits l) (v : Binary32) :
    l.Admits (setpointText l.places range v) ↔ v.isNaN = false := by
  rw [Limits.Admits]
  cases hv : v.isNaN with
  | true =>
    have hnone : fixedNumeral? l.places "NaN" = none := rfl
    rw [setpointText_of_isNaN hv, hnone]
    simp
  | false =>
    obtain ⟨hle, hge⟩ := Binary32.rank_clamp hv h.low_finite h.high_finite h.ordered
    refine ⟨fun _ ↦ rfl, fun _ ↦ ⟨_, fixedNumeral?_setpointText h hv, ?_, ?_⟩⟩
    · rw [← h.low_value]
      exact Binary32.signed_toPlaces_mono hle l.places
    · rw [← h.high_value]
      exact Binary32.signed_toPlaces_mono hge l.places

/-- **A value is sent as a numeral within its limits exactly when it is a number.** -/
theorem Setting.admits_argument {s : Setting} {l : Limits} (hl : s.limits? = some l) (v : s.Value) :
    l.Admits (s.argument v) ↔ s.isNaN v = false := by
  cases s with
  | voltage =>
    obtain rfl := Option.some.inj hl
    exact admits_setpointText voltageRange_hasLimits v
  | sourcing =>
    obtain rfl := Option.some.inj hl
    exact admits_setpointText sourcingRange_hasLimits v
  | sinking =>
    obtain rfl := Option.some.inj hl
    exact admits_setpointText sinkingRange_hasLimits v
  | analogOutput =>
    obtain rfl := Option.some.inj hl
    exact admits_setpointText analogOutputRange_hasLimits v
  | _ => cases hl

/-! ### Every setpoint that is sent -/

/-- What sets something asks for no answer. -/
theorem Operation.Sets.request_ne_query {s : Setting} {op : Operation} {vs : List s.Value}
    (h : op.Sets s vs) (buffer : Text) (parse : Text → Outcome op.Result) :
    op.request ≠ .query buffer parse := by
  cases h with
  | one index v =>
    show s.set index v ≠ _
    rw [Setting.set]
    split <;> rintro ⟨⟩
  | all v => rintro ⟨⟩
  | masked mask v =>
    show s.setMasked mask v ≠ _
    rw [Setting.setMasked]
    split <;> rintro ⟨⟩
  | each vs =>
    show s.setEach vs ≠ _
    rw [Setting.setEach]
    split
    · rintro ⟨⟩
    · split <;> rintro ⟨⟩

/-- **Every setpoint that reaches a driver**, in whatever shape it is set, is a numeral within its
limits exactly when the value is a number. The arguments of the line are those of the values, one
for each of them and in their order. -/
theorem setpoints_sent {s : Setting} {l : Limits} (hl : s.limits? = some l) {op : Operation}
    {vs : List s.Value} (hop : op.Sets s vs) (c : Client ScriptedUnit) {buffer : Text} {ms : Nat}
    (hsent : .send buffer ms ∈ Client.newCalls c.driver (c.perform op).2.driver) :
    List.Forall₂ (fun t v ↦ l.Admits t ↔ s.isNaN v = false) (Wire.arguments buffer) vs := by
  rcases Client.request_of_send hsent with ⟨answer, hreq⟩ | ⟨parse, hreq⟩
  · rw [hop.arguments hreq, List.forall₂_map_left_iff, List.forall₂_same]
    exact fun v _ ↦ s.admits_argument hl v
  · exact absurd hreq (hop.request_ne_query buffer parse)

/-- A client of a unit that has nothing to say. -/
def Client.ofSilentUnit : Client ScriptedUnit := { driver := some {} }

/-- Three voltages in one transmission, of which one is no number. -/
def voltagesWithGap : List Binary32 := [.ofBits 0x3fc00000, .nan, .ofInt 7]

/-- The other two are sent within the limits. -/
theorem setpoints_sent_voltagesWithGap :
    List.Forall₂ (fun t v ↦ Limits.Admits ⟨0, 5, 4⟩ t ↔ v.isNaN = false)
      ["1.5000", "NaN", "5.0000"] voltagesWithGap := by
  have hsent : .send "SOUR1:VOLT 1.5000;SOUR2:VOLT NaN;SOUR3:VOLT 5.0000\r\n" 250 ∈
      Client.newCalls Client.ofSilentUnit.driver
        (Client.ofSilentUnit.perform (.setEach .voltage voltagesWithGap)).2.driver := by
    decide +kernel
  exact setpoints_sent (s := .voltage) rfl (.each voltagesWithGap) .ofSilentUnit hsent

/-- A voltage that is no number reaches the unit all the same, as a word and not as a numeral. -/
theorem nan_sent :
    .send "SOUR1:VOLT NaN\r\n" 250 ∈ Client.newCalls Client.ofSilentUnit.driver
        (Client.ofSilentUnit.perform (.set .voltage 0 Binary32.nan)).2.driver ∧
      Wire.arguments "SOUR1:VOLT NaN\r\n" = ["NaN".toList] ∧
      fixedNumeral? 4 "NaN" = none := by
  decide

end BatteryBench
