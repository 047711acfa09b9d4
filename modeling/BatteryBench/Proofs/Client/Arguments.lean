import BatteryBench.Proofs.Number.Shortest
import BatteryBench.Proofs.Unit.ReadBack

/-!
# What the numbers of a command are worth

Numbers reach a unit in two forms. The inputs of a model are sent as they are: whatever number goes
in is what a reader of the text gets, with the same bits, and the text is as short as that allows
(`lossless_inputs`).

A setpoint is brought into its range and rounded to a number of places. The numeral that is sent is
one nearest to the clamped value, so it keeps the order of the numbers, is that of the nearer bound
for every number outside the range, and is read as a number inside (`nearest_setpoints`).
-/

namespace BatteryBench

/-! ### Model inputs -/

/-- **The inputs of a model are sent without loss**, in plain numerals that cannot be shorter. -/
theorem lossless_inputs {v : Binary32} (hv : v.isNaN = false) :
    ∀ text ∈ [Setting.argument .globalInput v, Setting.argument .localInput v],
      Reply.number text = .ok v ∧
      (v.isFinite → IsPlainNumeral text ∧ ∃ n, Numeral.read? text = some n ∧
        ∀ t m, Numeral.read? (trim t) = some m → Reply.number t = .ok v →
          significantDigits n.coefficient ≤ significantDigits m.coefficient) := by
  intro text htext
  obtain rfl : text = v.shortestText := by simpa [Setting.argument] using htext
  refine ⟨Reply.number_of_binary32? (Binary32.isWord_shortestText v)
    (Binary32.binary32?_shortestText hv), fun hfinite ↦ ?_⟩
  obtain ⟨hplain, n, hread, hfewest⟩ := Binary32.exists_read?_shortestText hfinite
  refine ⟨hplain, n, hread, fun t m hm ht ↦ hfewest m ?_⟩
  rw [Reply.number, binary32?_of_read? hm] at ht
  exact Except.ok.inj ht

/-- The negative number nearest to zero is sent with 45 places, and read back. -/
theorem lossless_inputs_least :
    let v := Binary32.ofBits 0x80000001
    let text := "-0.000000000000000000000000000000000000000000001"
    v.isNaN = false ∧ Setting.argument .localInput v = text ∧ Reply.number text = .ok v ∧
      IsPlainNumeral text := by
  intro v text
  have hv : v.isNaN = false := by decide
  have htext : Setting.argument .localInput v = text := by decide +kernel
  obtain ⟨hread, hshape⟩ := lossless_inputs hv text (by rw [← htext]; simp)
  exact ⟨hv, htext, hread, (hshape (by decide)).1⟩

/-! ### One setpoint -/

/-- That a range reaches exactly from the one limit to the other. -/
structure Range.Spans (range : Range) (l : Limits) : Prop extends range.HasLimits l where
  /-- The lower bound is the number nearest to the lower limit. -/
  low_eq : range.low = .ofInt l.low
  /-- The upper bound is the number nearest to the upper limit. -/
  high_eq : range.high = .ofInt l.high
  /-- Nothing lies between the lower bound and the lower limit. -/
  value_low : range.low.value = l.low
  /-- Nothing lies between the upper bound and the upper limit. -/
  value_high : range.high.value = l.high

/-- What a setpoint is sent as, in units of the last place. -/
def Range.numeral (range : Range) (l : Limits) (v : Binary32) : Int :=
  (v.clamp range.low range.high).signed ((v.clamp range.low range.high).toPlaces l.places)

namespace Range.Spans

variable {range : Range} {l : Limits} {v w : Binary32}

theorem value_clamp (h : range.Spans l) (hv : v.isNaN = false) :
    (v.clamp range.low range.high).value = max (l.low : ℚ) (min l.high v.value) := by
  rw [← h.value_low, ← h.value_high]
  exact Binary32.value_clamp hv (Binary32.isNaN_of_isFinite h.low_finite)
    (Binary32.isNaN_of_isFinite h.high_finite) (Binary32.value_le_value_iff.mpr h.ordered)

/-- **The numeral is one nearest to the clamped value.** -/
theorem abs_numeral_sub_le (h : range.Spans l) (hv : v.isNaN = false) :
    |(range.numeral l v : ℚ) / 10 ^ l.places - max (l.low : ℚ) (min l.high v.value)| ≤
      1 / 2 / 10 ^ l.places := by
  rw [← h.value_clamp hv]
  exact Binary32.abs_toPlaces_sub_value_le _ l.places

/-- **Numerals keep the order of the numbers.** -/
theorem numeral_mono (h : range.Spans l) (hv : v.isNaN = false) (hw : w.isNaN = false)
    (hle : v.value ≤ w.value) : range.numeral l v ≤ range.numeral l w := by
  refine Binary32.signed_toPlaces_mono (Binary32.value_le_value_iff.mp ?_) l.places
  rw [h.value_clamp hv, h.value_clamp hw]
  exact max_le_max_left _ (min_le_min_left _ hle)

/-- A number below the range is sent as its lower limit. -/
theorem numeral_of_lt (h : range.Spans l) (hv : v.isNaN = false) (hlt : v.value < l.low) :
    range.numeral l v = l.low * 10 ^ l.places := by
  rw [← h.value_low, ← Binary32.lt_iff_value_lt hv (Binary32.isNaN_of_isFinite h.low_finite)]
    at hlt
  rw [Range.numeral, Binary32.clamp, if_pos hlt, h.low_value]

/-- A number above the range is sent as its upper limit. -/
theorem numeral_of_gt (h : range.Spans l) (hv : v.isNaN = false) (hgt : l.high < v.value) :
    range.numeral l v = l.high * 10 ^ l.places := by
  have hlow := Binary32.isNaN_of_isFinite h.low_finite
  have hordered := Binary32.value_le_value_iff.mpr h.ordered
  rw [← h.value_high] at hgt
  have hnotbelow : ¬v.lt range.low := by
    rw [Binary32.lt_iff_value_lt hv hlow]
    exact (hordered.trans hgt.le).not_gt
  have habove := (Binary32.lt_iff_value_lt (Binary32.isNaN_of_isFinite h.high_finite) hv).mpr hgt
  rw [Range.numeral, Binary32.clamp, if_neg hnotbelow, if_pos habove, h.high_value]

theorem numeral_bounds (h : range.Spans l) (hv : v.isNaN = false) :
    l.low * 10 ^ l.places ≤ range.numeral l v ∧ range.numeral l v ≤ l.high * 10 ^ l.places := by
  obtain ⟨n, hn, hbounds⟩ := (admits_setpointText h.toHasLimits v).mpr hv
  rw [fixedNumeral?_setpointText h.toHasLimits hv] at hn
  obtain rfl := Option.some.inj hn
  exact hbounds

/-- **A setpoint is read as a number inside its range.** -/
theorem exists_number (h : range.Spans l) (hv : v.isNaN = false) :
    ∃ x, Reply.number (setpointText l.places range v) = .ok x ∧ x.isFinite ∧
      (l.low : ℚ) ≤ x.value ∧ x.value ≤ l.high := by
  have hread := number_setpointText h.toHasLimits h.low_eq h.high_eq hv
  rw [Limits.nearest, ← h.low_eq, ← h.high_eq] at hread
  have hscale : (0 : ℚ) < 10 ^ l.places := by positivity
  have hvalue := Numeral.value_signed (v.clamp range.low range.high)
    ((v.clamp range.low range.high).toPlaces l.places) l.places
  obtain ⟨hle, hge⟩ := h.numeral_bounds hv
  -- The limits are numbers, and reading does not pass them.
  have hlow := Numeral.le_value_toBinary32 h.low_finite (by
    rw [hvalue, h.value_low, le_div_iff₀ hscale]
    exact_mod_cast hle)
  have hhigh := Numeral.value_toBinary32_le h.high_finite (by
    rw [hvalue, h.value_high, div_le_iff₀ hscale]
    exact_mod_cast hge)
  exact ⟨_, hread, Binary32.isFinite_of_rank h.low_finite h.high_finite
    (Binary32.value_le_value_iff.mp hlow) (Binary32.value_le_value_iff.mp hhigh),
    h.value_low ▸ hlow, h.value_high ▸ hhigh⟩

end Range.Spans

/-! ### The setpoints of a unit -/

/-- What is clamped before it is sent. -/
inductive Setpoint where
  /-- The voltage of a cell. -/
  | voltage
  /-- The greatest current a cell delivers. -/
  | sourcing
  /-- The greatest current a cell takes. -/
  | sinking
  /-- The level of an auxiliary analog output. -/
  | analogOutput
  deriving DecidableEq

namespace Setpoint

/-- The limits and the count of places of a setpoint. -/
def limits : Setpoint → Limits
  | voltage | sourcing => ⟨0, 5, 4⟩
  | sinking => ⟨-5, 5, 4⟩
  | analogOutput => ⟨-10, 10, 3⟩

/-- The range a setpoint is clamped to. -/
def range : Setpoint → Range
  | voltage => voltageRange
  | sourcing => sourcingRange
  | sinking => sinkingRange
  | analogOutput => analogOutputRange

/-- A setpoint as it is sent. -/
def argument : Setpoint → Binary32 → Text
  | voltage => Setting.argument .voltage
  | sourcing => Setting.argument .sourcing
  | sinking => Setting.argument .sinking
  | analogOutput => Setting.argument .analogOutput

theorem argument_eq (p : Setpoint) : p.argument = setpointText p.limits.places p.range := by
  cases p <;> rfl

end Setpoint

theorem Setpoint.spans (p : Setpoint) : p.range.Spans p.limits := by
  cases p with
  | voltage =>
    exact ⟨voltageRange_hasLimits, rfl, rfl, Binary32.value_ofInt (by decide),
      Binary32.value_ofInt (by decide)⟩
  | sourcing =>
    exact ⟨sourcingRange_hasLimits, rfl, rfl, Binary32.value_ofInt (by decide),
      Binary32.value_ofInt (by decide)⟩
  | sinking =>
    exact ⟨sinkingRange_hasLimits, rfl, rfl, Binary32.value_ofInt (by decide),
      Binary32.value_ofInt (by decide)⟩
  | analogOutput =>
    exact ⟨analogOutputRange_hasLimits, rfl, rfl, Binary32.value_ofInt (by decide),
      Binary32.value_ofInt (by decide)⟩

/-- **The text of a setpoint is the nearest fixed-point numeral of the clamped value.** It keeps the
order of the numbers, is that of the nearer limit outside the range, and is read as a number inside.
-/
theorem nearest_setpoints (p : Setpoint) {v w : Binary32} (hv : v.isNaN = false)
    (hw : w.isNaN = false) :
    ∃ n m : Int,
      fixedNumeral? p.limits.places (p.argument v) = some n ∧
      fixedNumeral? p.limits.places (p.argument w) = some m ∧
      |(n : ℚ) / 10 ^ p.limits.places - max (p.limits.low : ℚ) (min p.limits.high v.value)| ≤
        1 / 2 / 10 ^ p.limits.places ∧
      (v.value ≤ w.value → n ≤ m) ∧
      (v.value < p.limits.low → n = p.limits.low * 10 ^ p.limits.places) ∧
      (p.limits.high < v.value → n = p.limits.high * 10 ^ p.limits.places) ∧
      ∃ x, Reply.number (p.argument v) = .ok x ∧ x.isFinite ∧
        (p.limits.low : ℚ) ≤ x.value ∧ x.value ≤ p.limits.high := by
  have h := p.spans
  rw [p.argument_eq]
  exact ⟨p.range.numeral p.limits v, p.range.numeral p.limits w,
    fixedNumeral?_setpointText h.toHasLimits hv, fixedNumeral?_setpointText h.toHasLimits hw,
    h.abs_numeral_sub_le hv, h.numeral_mono hv hw, h.numeral_of_lt hv, h.numeral_of_gt hv,
    h.exists_number hv⟩

/-- Just below the upper limit all digits carry, and just below zero only the sign is left; one is
sent as the limit and the other as zero, in the order of the numbers. -/
theorem nearest_setpoints_carry :
    let v := Binary32.ofBits 0xaedbe6ff
    let w := Binary32.ofBits 0x409fffac
    v.isNaN = false ∧ w.isNaN = false ∧
      Setpoint.sinking.argument v = "-0.0000" ∧ Setpoint.sinking.argument w = "5.0000" ∧
      ∃ n m : Int, fixedNumeral? 4 "-0.0000" = some n ∧ fixedNumeral? 4 "5.0000" = some m ∧
        (v.value ≤ w.value → n ≤ m) ∧
        ∃ x, Reply.number "-0.0000" = .ok x ∧ (-5 : ℚ) ≤ x.value ∧ x.value ≤ 5 := by
  intro v w
  have hv : v.isNaN = false := by decide
  have hw : w.isNaN = false := by decide
  have htextv : Setpoint.sinking.argument v = "-0.0000" := by decide +kernel
  have htextw : Setpoint.sinking.argument w = "5.0000" := by decide +kernel
  obtain ⟨n, m, hn, hm, -, hle, -, -, x, hx, -, hlow, hhigh⟩ := nearest_setpoints .sinking hv hw
  rw [htextv] at hn hx
  rw [htextw] at hm
  exact ⟨hv, hw, htextv, htextw, n, m, hn, hm, hle, x, hx, by exact_mod_cast hlow,
    by exact_mod_cast hhigh⟩

end BatteryBench
