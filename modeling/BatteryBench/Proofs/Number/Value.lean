import BatteryBench.Proofs.Number.Nearest
import Mathlib.Algebra.Order.Field.Power
import Mathlib.Algebra.Order.Field.Rat
import Mathlib.Tactic.FieldSimp
import Mathlib.Tactic.Linarith
import Mathlib.Tactic.NormNum
import Mathlib.Tactic.Positivity

/-!
# The values of numbers and numerals

What a number and a numeral are worth, as rational numbers. Infinity is given the value at which its
code stands in the order of the codes, 2^128, which is beyond every finite number: comparing and
clamping by value then need no case of their own for it.

The code nearest to a numeral is said by values alone (`lt_magnitudeCode_iff`). So reading keeps the
order of the numerals (`value_toBinary32_mono`), does not pass a magnitude that the numeral does not
pass (`magnitudeCode_le`, `le_magnitudeCode`), and gives a finite number exactly below the middle
between the greatest one and infinity (`isFinite_toBinary32`).

Clamping is clamping of values (`value_clamp`), and a number rounded to places is off by at most
half a unit of the last one (`abs_toPlaces_sub_value_le`).
-/

namespace BatteryBench

namespace Binary32

/-! ### The value of a number -/

/-- The magnitude of a code. -/
def codeValue (code : Nat) : ℚ := unitsOfCode code / unitsPerOne

/-- The value of a number. -/
def value (v : Binary32) : ℚ := if v.negative then -codeValue v.code else codeValue v.code

theorem unitsPerOne_pos : (0 : ℚ) < unitsPerOne := by
  have hpos : 0 < unitsPerOne := Nat.pow_pos (by decide)
  exact_mod_cast hpos

theorem codeValue_strictMono : StrictMono codeValue := fun code code' hlt ↦ by
  have hunits : (unitsOfCode code : ℚ) < unitsOfCode code' :=
    Nat.cast_lt.mpr (unitsOfCode_strictMono hlt)
  exact div_lt_div_of_pos_right hunits unitsPerOne_pos

theorem codeValue_zero : codeValue 0 = 0 := by
  have hunits : unitsOfCode 0 = 0 := rfl
  rw [codeValue, hunits, Nat.cast_zero, zero_div]

theorem codeValue_nonneg (code : Nat) : 0 ≤ codeValue code :=
  codeValue_zero ▸ codeValue_strictMono.monotone (Nat.zero_le code)

/-- An integer that is among the numbers is worth itself. -/
theorem value_ofInt {n : Int} (h : unitsOfCode (ofInt n).code = n.natAbs * unitsPerOne) :
    (ofInt n).value = n := by
  have hsign : (ofInt n).negative = decide (n < 0) := rfl
  rw [value, codeValue, h, hsign, Nat.cast_mul, mul_div_cancel_right₀ _ unitsPerOne_pos.ne',
    Nat.cast_natAbs]
  split
  · next hneg => rw [abs_of_neg (of_decide_eq_true hneg), Int.cast_neg, neg_neg]
  · next hpos => rw [abs_of_nonneg (by simpa using hpos)]

/-- **The order of the numbers is that of their values.** -/
theorem value_le_value_iff {v w : Binary32} : v.value ≤ w.value ↔ v.rank ≤ w.rank := by
  have hv := codeValue_nonneg v.code
  have hw := codeValue_nonneg w.code
  have hzero : ∀ code, codeValue code ≤ 0 ↔ code = 0 := fun code ↦ by
    rw [← codeValue_zero, codeValue_strictMono.le_iff_le, Nat.le_zero]
  unfold value rank
  cases v.negative <;> cases w.negative <;>
    simp only [if_true, Bool.false_eq_true, if_false]
  · rw [codeValue_strictMono.le_iff_le]
    omega
  · have hboth : codeValue v.code ≤ -codeValue w.code ↔
        codeValue v.code ≤ 0 ∧ codeValue w.code ≤ 0 := by
      constructor
      · exact fun h ↦ ⟨by linarith, by linarith⟩
      · exact fun h ↦ by linarith [h.1, h.2]
    rw [hboth, hzero, hzero]
    omega
  · exact iff_of_true (by linarith) (by omega)
  · rw [neg_le_neg_iff, codeValue_strictMono.le_iff_le]
    omega

theorem value_lt_value_iff {v w : Binary32} : v.value < w.value ↔ v.rank < w.rank := by
  rw [← not_le, value_le_value_iff, Int.not_le]

theorem lt_iff_value_lt {v w : Binary32} (hv : v.isNaN = false) (hw : w.isNaN = false) :
    v.lt w ↔ v.value < w.value := by
  rw [lt_iff_rank_lt hv hw, value_lt_value_iff]

/-- **Clamping a number clamps its value.** -/
theorem value_clamp {v low high : Binary32} (hv : v.isNaN = false) (hlow : low.isNaN = false)
    (hhigh : high.isNaN = false) (h : low.value ≤ high.value) :
    (v.clamp low high).value = max low.value (min high.value v.value) := by
  rw [clamp]
  split_ifs with hbelow habove
  · have hlt := (lt_iff_value_lt hv hlow).mp hbelow
    rw [min_eq_right (hlt.le.trans h), max_eq_left hlt.le]
  · have hlt := (lt_iff_value_lt hhigh hv).mp habove
    rw [min_eq_left hlt.le, max_eq_right h]
  · have hle := (lt_iff_value_lt hv hlow).not.mp hbelow
    have hge := (lt_iff_value_lt hhigh hv).not.mp habove
    rw [min_eq_right (not_lt.mp hge), max_eq_right (not_lt.mp hle)]

/-! ### Rounding to places -/

/-- **A number rounded to places is off by at most half a unit of the last one.** -/
theorem abs_toPlaces_sub_value_le (v : Binary32) (places : Nat) :
    |(v.signed (v.toPlaces places) : ℚ) / 10 ^ places - v.value| ≤ 1 / 2 / 10 ^ places := by
  have hone : 0 < unitsPerOne := Nat.pow_pos (by decide)
  have hten : (0 : ℚ) < 10 ^ places := by positivity
  obtain ⟨r, hr⟩ : ∃ r, v.toPlaces places = r := ⟨_, rfl⟩
  have habove : (2 : ℚ) * (r * unitsPerOne) ≤ 2 * (v.units * 10 ^ places) + unitsPerOne := by
    have hnat : 2 * (r * unitsPerOne) ≤ 2 * (v.units * 10 ^ places) + unitsPerOne :=
      hr ▸ two_mul_roundHalfEven_le hone
    exact_mod_cast hnat
  have hbelow : (2 : ℚ) * (v.units * 10 ^ places) ≤ 2 * (r * unitsPerOne) + unitsPerOne := by
    have hnat : 2 * (v.units * 10 ^ places) ≤ 2 * (r * unitsPerOne) + unitsPerOne :=
      hr ▸ le_two_mul_roundHalfEven hone
    exact_mod_cast hnat
  have hdist : |(r : ℚ) / 10 ^ places - v.units / unitsPerOne| ≤ 1 / 2 / 10 ^ places := by
    have hpos := unitsPerOne_pos
    rw [div_sub_div _ _ hten.ne' hpos.ne', abs_div, abs_of_pos (mul_pos hten hpos),
      div_le_div_iff₀ (mul_pos hten hpos) hten]
    have habs : |(r : ℚ) * unitsPerOne - 10 ^ places * v.units| ≤ 1 / 2 * unitsPerOne := by
      rw [abs_le]
      constructor <;> linarith
    nlinarith
  rw [hr, signed, value]
  cases v.negative with
  | false => simpa [codeValue, units] using hdist
  | true =>
    have hneg : (-(r : ℚ)) / 10 ^ places - -(v.units / unitsPerOne) =
        -((r : ℚ) / 10 ^ places - v.units / unitsPerOne) := by ring
    simp only [if_true, Int.cast_neg, Int.cast_natCast, codeValue]
    rw [← abs_neg] at hdist
    rw [← units, hneg]
    exact hdist

end Binary32

namespace Numeral

open Binary32

/-! ### The number nearest to a numeral -/

/-- The middle between the magnitudes of a code and of the next. -/
def middle (code : Nat) : ℚ := (codeValue code + codeValue (code + 1)) / 2

theorem codeValue_lt_middle (code : Nat) : codeValue code < middle code := by
  have hlt := codeValue_strictMono (Nat.lt_succ_self code)
  unfold middle
  linarith

theorem middle_lt_codeValue (code : Nat) : middle code < codeValue (code + 1) := by
  have hlt := codeValue_strictMono (Nat.lt_succ_self code)
  unfold middle
  linarith

/-- A numeral is a quotient in units, and its code the nearest to that. -/
theorem exists_magnitudeCode_eq (coefficient : Nat) (k : Int) :
    ∃ num den : Nat, 0 < den ∧ magnitudeCode coefficient k = nearestCode num den ∧
      (coefficient * 10 ^ k : ℚ) = num / (den * unitsPerOne) := by
  have hone := unitsPerOne_pos.ne'
  cases k with
  | ofNat e =>
    refine ⟨_, _, Nat.one_pos, rfl, ?_⟩
    rw [Nat.pow_eq]
    push_cast
    rw [one_mul, mul_div_cancel_right₀ _ hone]
    rfl
  | negSucc e =>
    refine ⟨_, _, Nat.pow_pos (by decide), rfl, ?_⟩
    rw [zpow_negSucc]
    push_cast
    rw [mul_div_mul_right _ _ hone, div_eq_mul_inv]

/-- **The code nearest to a numeral exceeds a code exactly if the numeral is beyond the middle**
between it and the next code, or in the middle and the next code is even. -/
theorem lt_magnitudeCode_iff {code coefficient : Nat} {k : Int} (hcode : code < infinityCode) :
    code < magnitudeCode coefficient k ↔
      middle code < coefficient * 10 ^ k ∨
        middle code = coefficient * 10 ^ k ∧ code % 2 = 1 := by
  obtain ⟨num, den, hden, heq, hvalue⟩ := exists_magnitudeCode_eq coefficient k
  have hscale : (0 : ℚ) < den * unitsPerOne := mul_pos (Nat.cast_pos.mpr hden) unitsPerOne_pos
  have hmiddle : middle code =
      ((unitsOfCode code + unitsOfCode (code + 1)) * den : Nat) / 2 / (den * unitsPerOne) := by
    have hone := unitsPerOne_pos.ne'
    have hne : (den : ℚ) ≠ 0 := (Nat.cast_pos.mpr hden).ne'
    unfold middle codeValue
    push_cast
    field_simp
  rw [heq, lt_nearestCode_iff hden hcode, hvalue, hmiddle, div_lt_div_iff_of_pos_right hscale,
    div_left_inj' hscale.ne', div_lt_iff₀ two_pos, div_eq_iff two_ne_zero, mul_comm (num : ℚ) 2]
  norm_cast

theorem magnitudeCode_le_infinityCode (coefficient : Nat) (k : Int) :
    magnitudeCode coefficient k ≤ infinityCode := by
  obtain ⟨num, den, -, heq, -⟩ := exists_magnitudeCode_eq coefficient k
  rw [heq]
  exact Nat.min_le_right _ _

/-- **The nearest codes are in the order of the numerals.** -/
theorem magnitudeCode_mono {c c' : Nat} {k k' : Int} (h : (c * 10 ^ k : ℚ) ≤ c' * 10 ^ k') :
    magnitudeCode c k ≤ magnitudeCode c' k' := by
  refine Nat.le_of_not_lt fun hlt ↦ ?_
  have hcode := Nat.lt_of_lt_of_le hlt (magnitudeCode_le_infinityCode c k)
  refine Nat.lt_irrefl _ ((lt_magnitudeCode_iff hcode).mpr ?_)
  rcases (lt_magnitudeCode_iff hcode).mp hlt with habove | ⟨htie, hodd⟩
  · exact .inl (habove.trans_le h)
  · exact (htie.trans_le h).lt_or_eq.imp id (And.intro · hodd)

theorem mul_zpow_le {c c' : Nat} {k k' : Int} (hc : c ≤ c') (hk : k ≤ k') :
    (c * 10 ^ k : ℚ) ≤ c' * 10 ^ k' :=
  mul_le_mul (Nat.cast_le.mpr hc) (zpow_le_zpow_right₀ (by norm_num) hk) (by positivity)
    (by positivity)

/-- A numeral that is not above a number does not round above it. -/
theorem magnitudeCode_le {code coefficient : Nat} {k : Int}
    (h : coefficient * 10 ^ k ≤ codeValue code) : magnitudeCode coefficient k ≤ code := by
  refine Nat.le_of_not_lt fun hlt ↦ ?_
  have hcode := Nat.lt_of_lt_of_le hlt (magnitudeCode_le_infinityCode coefficient k)
  have hmiddle := codeValue_lt_middle code
  rcases (lt_magnitudeCode_iff hcode).mp hlt with habove | ⟨htie, -⟩ <;> linarith

/-- A numeral that is not below a number does not round below it. -/
theorem le_magnitudeCode {code coefficient : Nat} {k : Int} (hcode : code ≤ infinityCode)
    (h : codeValue code ≤ coefficient * 10 ^ k) : code ≤ magnitudeCode coefficient k := by
  cases code with
  | zero => exact Nat.zero_le _
  | succ code =>
    exact (lt_magnitudeCode_iff hcode).mpr (.inl ((middle_lt_codeValue code).trans_le h))

/-! ### Numerals with a sign -/

/-- The value of a numeral. -/
def value (n : Numeral) : ℚ :=
  if n.negative then -(n.coefficient * 10 ^ n.exponent) else n.coefficient * 10 ^ n.exponent

theorem abs_value (n : Numeral) : |n.value| = n.coefficient * 10 ^ n.exponent := by
  have hnonneg : (0 : ℚ) ≤ n.coefficient * 10 ^ n.exponent := by positivity
  rw [value]
  split
  · rw [abs_neg, abs_of_nonneg hnonneg]
  · exact abs_of_nonneg hnonneg

/-- A number of units of some place under the sign of a number. -/
theorem value_signed (v : Binary32) (c places : Nat) :
    value ⟨v.negative, c, -places⟩ = v.signed c / 10 ^ places := by
  rw [value, signed, zpow_neg, zpow_natCast, ← div_eq_mul_inv]
  cases v.negative with
  | false => rw [if_neg Bool.false_ne_true, if_neg Bool.false_ne_true, Int.cast_natCast]
  | true => rw [if_pos rfl, if_pos rfl, Int.cast_neg, Int.cast_natCast, neg_div]

theorem value_toBinary32 (n : Numeral) :
    n.toBinary32.value =
      if n.negative then -codeValue (magnitudeCode n.coefficient n.exponent)
      else codeValue (magnitudeCode n.coefficient n.exponent) := by
  rw [Binary32.value, negative_toBinary32, code_toBinary32]

/-- **Reading keeps the order of the numerals.** -/
theorem value_toBinary32_mono {n m : Numeral} (h : n.value ≤ m.value) :
    n.toBinary32.value ≤ m.toBinary32.value := by
  obtain ⟨negative, c, k⟩ := n
  obtain ⟨negative', c', k'⟩ := m
  have hnonneg : (0 : ℚ) ≤ c * 10 ^ k := by positivity
  have hnonneg' : (0 : ℚ) ≤ c' * 10 ^ k' := by positivity
  have hcode := codeValue_nonneg (magnitudeCode c k)
  have hcode' := codeValue_nonneg (magnitudeCode c' k')
  rw [value_toBinary32, value_toBinary32]
  simp only [value] at h ⊢
  cases negative <;> cases negative' <;>
    simp only [if_true, Bool.false_eq_true, if_false] at h ⊢
  · exact codeValue_strictMono.monotone (magnitudeCode_mono h)
  · -- Only zeros are not above what has a minus sign.
    have hzero : magnitudeCode c k ≤ 0 := magnitudeCode_le (by rw [codeValue_zero]; linarith)
    have hzero' : magnitudeCode c' k' ≤ 0 := magnitudeCode_le (by rw [codeValue_zero]; linarith)
    rw [Nat.le_zero.mp hzero, Nat.le_zero.mp hzero', codeValue_zero, neg_zero]
  · linarith
  · exact neg_le_neg (codeValue_strictMono.monotone (magnitudeCode_mono (neg_le_neg_iff.mp h)))

/-! ### Numbers as numerals -/

/-- A finite number as a numeral of just that value, on the grid that has them all. -/
def exact (v : Binary32) : Numeral := ⟨v.negative, v.units * 5 ^ 149, -149⟩

theorem exact_magnitude (v : Binary32) :
    ((v.units * 5 ^ 149 : Nat) * 10 ^ (-149 : Int) : ℚ) = codeValue v.code := by
  have hone : unitsPerOne = 2 ^ 149 := rfl
  have hten : (10 : ℚ) ^ (-149 : Int) = (5 ^ 149)⁻¹ * (2 ^ 149)⁻¹ := by norm_num
  have hfive : (5 : ℚ) ^ 149 ≠ 0 := by positivity
  rw [codeValue, ← units, hone, hten, Nat.cast_mul, Nat.cast_pow, Nat.cast_pow, Nat.cast_ofNat,
    Nat.cast_ofNat, ← mul_assoc, mul_inv_cancel_right₀ hfive, div_eq_mul_inv]

theorem value_exact (v : Binary32) : (exact v).value = v.value := by
  rw [value, Binary32.value, ← exact_magnitude]
  rfl

/-- **A magnitude is its own nearest one.** -/
theorem magnitudeCode_exact {v : Binary32} (hv : v.isFinite) :
    magnitudeCode (v.units * 5 ^ 149) (-149) = v.code :=
  Nat.le_antisymm (magnitudeCode_le (exact_magnitude v).le)
    (le_magnitudeCode (Nat.le_of_lt (of_decide_eq_true hv)) (exact_magnitude v).ge)

theorem value_toBinary32_exact {v : Binary32} (hv : v.isFinite) :
    (exact v).toBinary32.value = v.value := by
  rw [value_toBinary32, exact, magnitudeCode_exact hv, Binary32.value]

/-- **Reading does not pass a finite number** that the numeral does not pass. -/
theorem le_value_toBinary32 {v : Binary32} {n : Numeral} (hv : v.isFinite)
    (h : v.value ≤ n.value) : v.value ≤ n.toBinary32.value :=
  value_toBinary32_exact hv ▸ value_toBinary32_mono (value_exact v ▸ h)

theorem value_toBinary32_le {v : Binary32} {n : Numeral} (hv : v.isFinite)
    (h : n.value ≤ v.value) : n.toBinary32.value ≤ v.value :=
  value_toBinary32_exact hv ▸ value_toBinary32_mono (value_exact v ▸ h)

/-! ### Finite numbers -/

/-- The least magnitude that is read as infinity: the middle between the greatest finite number and
the first power of two beyond it. -/
def overflow : ℚ := 2 ^ 128 - 2 ^ 103

theorem middle_greatest : middle (infinityCode - 1) = overflow := by
  have hlast : unitsOfCode (infinityCode - 1) = (2 ^ 128 - 2 ^ 104) * unitsPerOne := by decide
  have hnext : unitsOfCode (infinityCode - 1 + 1) = 2 ^ 128 * unitsPerOne := by decide
  have hone := unitsPerOne_pos.ne'
  rw [middle, codeValue, codeValue, hlast, hnext, Nat.cast_mul, Nat.cast_mul,
    mul_div_cancel_right₀ _ hone, mul_div_cancel_right₀ _ hone, overflow]
  norm_num

/-- **A numeral is read as a finite number exactly if it is below the overflow.** -/
theorem isFinite_toBinary32 (n : Numeral) : n.toBinary32.isFinite ↔ |n.value| < overflow := by
  have hlast : infinityCode - 1 < infinityCode := by decide
  have hodd : (infinityCode - 1) % 2 = 1 := by decide
  have hinf : infinityCode = infinityCode - 1 + 1 := by decide
  have hiff := (@lt_magnitudeCode_iff _ n.coefficient n.exponent hlast).not
  rw [middle_greatest, and_iff_left hodd, ← le_iff_lt_or_eq, not_le] at hiff
  rw [isFinite, decide_eq_true_eq, code_toBinary32, abs_value, ← hiff]
  omega

end Numeral

end BatteryBench
