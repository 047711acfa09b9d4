import BatteryBench.Number.Fixed
import Mathlib.Order.Monotone.Basic
import Mathlib.Tactic.Ring

/-!
# Codes, units and the order of the numbers

The codes are numbered in the order of the magnitudes: `unitsOfCode` is strictly increasing. So
rounding to a number of places keeps the order of the numbers (`signed_toPlaces_mono`). Clamping
puts every value that is a number between the bounds (`rank_clamp`).
-/

namespace BatteryBench

/-! ### Rounding keeps the order -/

theorem roundHalfEven_le_succ (num den : Nat) : roundHalfEven num den ≤ num / den + 1 := by
  rw [roundHalfEven]
  split <;> omega

theorem div_le_roundHalfEven (num den : Nat) : num / den ≤ roundHalfEven num den := by
  rw [roundHalfEven]
  split <;> omega

theorem roundHalfEven_mono {den num num' : Nat} (h : num ≤ num') :
    roundHalfEven num den ≤ roundHalfEven num' den := by
  rcases Nat.lt_or_eq_of_le (Nat.div_le_div_right (c := den) h) with hlt | heq
  · calc roundHalfEven num den ≤ num / den + 1 := roundHalfEven_le_succ num den
      _ ≤ num' / den := hlt
      _ ≤ roundHalfEven num' den := div_le_roundHalfEven num' den
  · have hnum := Nat.div_add_mod num den
    have hnum' := Nat.div_add_mod num' den
    rw [← heq] at hnum'
    have hmod : num % den ≤ num' % den := by omega
    unfold roundHalfEven
    rw [← heq]
    split <;> split <;> omega

namespace Binary32

/-! ### Units of a code -/

/-- The position of the binade of a code; the subnormal numbers are counted with the first binade.
-/
def binadeOf (code : Nat) : Nat := code / binadeSize - 1

/-- The significand of a code, which is also how far the code is above its binade. -/
def significandOf (code : Nat) : Nat := code - binadeOf code * binadeSize

theorem binadeOf_mul_add_significandOf (code : Nat) :
    binadeOf code * binadeSize + significandOf code = code := by
  have hle : binadeOf code * binadeSize ≤ code :=
    calc binadeOf code * binadeSize ≤ code / binadeSize * binadeSize :=
          Nat.mul_le_mul_right _ (Nat.sub_le _ _)
      _ ≤ code := Nat.div_mul_le_self _ _
  rw [significandOf]
  omega

theorem unitsOfCode_eq (code : Nat) :
    unitsOfCode code = significandOf code * 2 ^ binadeOf code := by
  unfold unitsOfCode significandOf binadeOf binadeSize
  split
  · next h => simp [Nat.div_eq_of_lt h]
  · next h =>
    have hsum : 0x800000 + code % 0x800000 = code - (code / 0x800000 - 1) * 0x800000 := by omega
    rw [hsum]
    rfl

theorem unitsOfCode_lt_succ (code : Nat) : unitsOfCode code < unitsOfCode (code + 1) := by
  rw [unitsOfCode_eq, unitsOfCode_eq]
  have hcode := binadeOf_mul_add_significandOf code
  have hnext := binadeOf_mul_add_significandOf (code + 1)
  -- The next code is in the same binade, or it is the first one of the next.
  have hcases : binadeOf (code + 1) = binadeOf code ∨
      binadeOf (code + 1) = binadeOf code + 1 ∧ significandOf (code + 1) = 2 ^ 23 ∧
        significandOf code + 1 = 2 ^ 24 := by
    unfold significandOf binadeOf binadeSize
    omega
  rcases hcases with hsame | ⟨hsucc, hfirst, hlast⟩
  · rw [hsame] at hnext ⊢
    have hstep : significandOf (code + 1) = significandOf code + 1 := by omega
    rw [hstep]
    exact Nat.mul_lt_mul_of_pos_right (Nat.lt_succ_self _) (Nat.pow_pos (by decide))
  · have hpow : 0 < 2 ^ binadeOf code := Nat.pow_pos (by decide)
    calc significandOf code * 2 ^ binadeOf code < 2 ^ 24 * 2 ^ binadeOf code :=
          Nat.mul_lt_mul_of_pos_right (by omega) hpow
      _ = significandOf (code + 1) * 2 ^ binadeOf (code + 1) := by
          rw [hfirst, hsucc]
          ring

/-- **The codes are in the order of the magnitudes.** -/
theorem unitsOfCode_strictMono : StrictMono unitsOfCode :=
  strictMono_nat_of_lt_succ unitsOfCode_lt_succ

/-! ### Rounding to places -/

theorem toPlaces_mono {v w : Binary32} (h : v.code ≤ w.code) (places : Nat) :
    v.toPlaces places ≤ w.toPlaces places :=
  roundHalfEven_mono (Nat.mul_le_mul_right _ (unitsOfCode_strictMono.monotone h))

theorem toPlaces_of_code_eq_zero {v : Binary32} (h : v.code = 0) (places : Nat) :
    v.toPlaces places = 0 := by
  simp [toPlaces, units, h, unitsOfCode, binadeSize, roundHalfEven, unitsPerOne]

/-- A number of units under the sign of a number. -/
def signed (v : Binary32) (n : Nat) : Int := if v.negative then -(n : Int) else n

/-- **Rounding to places keeps the order of the numbers.** -/
theorem signed_toPlaces_mono {v w : Binary32} (h : v.rank ≤ w.rank) (places : Nat) :
    v.signed (v.toPlaces places) ≤ w.signed (w.toPlaces places) := by
  unfold rank at h
  unfold signed
  cases hv : v.negative <;> cases hw : w.negative <;>
    simp only [hv, hw, if_true, Bool.false_eq_true, if_false] at h ⊢
  · have hle := toPlaces_mono (v := v) (w := w) (by omega) places
    omega
  · -- No negative number is above a positive one unless both are zeros.
    have hvzero := toPlaces_of_code_eq_zero (v := v) (by omega) places
    have hwzero := toPlaces_of_code_eq_zero (v := w) (by omega) places
    omega
  · omega
  · have hle := toPlaces_mono (v := w) (w := v) (by omega) places
    omega

/-! ### Clamping -/

theorem natAbs_rank (v : Binary32) : v.rank.natAbs = v.code := by
  rw [rank]
  split <;> simp

/-- What is no number is neither below nor above a bound. -/
theorem clamp_of_isNaN {v : Binary32} (h : v.isNaN) (low high : Binary32) :
    v.clamp low high = v := by
  simp [clamp, lt, h]

theorem lt_iff_rank_lt {v w : Binary32} (hv : v.isNaN = false) (hw : w.isNaN = false) :
    v.lt w ↔ v.rank < w.rank := by
  simp [lt, hv, hw]

theorem isNaN_of_isFinite {v : Binary32} (h : v.isFinite) : v.isNaN = false := by
  simp only [isFinite, isNaN, decide_eq_true_eq, decide_eq_false_iff_not] at h ⊢
  omega

/-- **Clamping puts every number between the bounds.** -/
theorem rank_clamp {v low high : Binary32} (hv : v.isNaN = false) (hlow : low.isFinite)
    (hhigh : high.isFinite) (h : low.rank ≤ high.rank) :
    low.rank ≤ (v.clamp low high).rank ∧ (v.clamp low high).rank ≤ high.rank := by
  have hbelow := lt_iff_rank_lt hv (isNaN_of_isFinite hlow)
  have habove := lt_iff_rank_lt (isNaN_of_isFinite hhigh) hv
  rw [clamp]
  split
  · exact ⟨Int.le_refl _, h⟩
  · next hnotbelow =>
    rw [hbelow] at hnotbelow
    split
    · exact ⟨h, Int.le_refl _⟩
    · next hnotabove =>
      rw [habove] at hnotabove
      exact ⟨Int.not_lt.mp hnotbelow, Int.not_lt.mp hnotabove⟩

/-- What lies between two finite numbers is finite. -/
theorem isFinite_of_rank {v low high : Binary32} (hlow : low.isFinite) (hhigh : high.isFinite)
    (hle : low.rank ≤ v.rank) (hge : v.rank ≤ high.rank) : v.isFinite := by
  have hcode := natAbs_rank v
  have hcodeLow := natAbs_rank low
  have hcodeHigh := natAbs_rank high
  simp only [isFinite, decide_eq_true_eq] at hlow hhigh ⊢
  omega

theorem isFinite_clamp {v low high : Binary32} (hv : v.isNaN = false) (hlow : low.isFinite)
    (hhigh : high.isFinite) (h : low.rank ≤ high.rank) : (v.clamp low high).isFinite :=
  have hbetween := rank_clamp hv hlow hhigh h
  isFinite_of_rank hlow hhigh hbetween.1 hbetween.2

end Binary32

end BatteryBench
