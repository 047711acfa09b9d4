import BatteryBench.Proofs.Number.Numeral
import Mathlib.Data.List.DropRight
import Mathlib.Data.Nat.Cast.Order.Field
import Mathlib.Data.Nat.Factorization.Basic

/-!
# No numeral that reads back is shorter

The numerals that read back as a number lie without a gap between the least and the greatest of them
(`Numeral.magnitudeCode_mono`). If a point of a grid is among them, so is one of the two points next
to the number (`neighbour?_ne_none`), and the search over the grids ends on the coarsest grid that
has any (`le_shortest`).

How short a numeral is, is counted in significant digits (`significantDigits`): zeros at either end
of the digits do not count. No numeral with fewer of them than the shortest reads back
(`significantDigits_shortest_le`). For if the coefficient found were greater than every shorter one,
a power of ten would lie between it and the shorter numeral, and that stands on a coarser grid.
-/

namespace BatteryBench

/-! ### Significant digits -/

/-- The number of digits of a coefficient, zeros at the end aside. -/
def significantDigits (n : Nat) : Nat := ((decimal n).rdropWhile (· = '0')).length

theorem significantDigits_mul_ten (n : Nat) :
    significantDigits (n * 10) = significantDigits n := by
  rcases Nat.eq_zero_or_pos n with rfl | hn
  · rfl
  · have hle : 10 ≤ n * 10 := by omega
    have hdigits : decimal (n * 10) = decimal n ++ ['0'] := by
      rw [decimal, Nat.toDigits_of_base_le (by decide) hle, Nat.mul_div_cancel _ (by decide),
        Nat.mul_mod_left]
      rfl
    rw [significantDigits, hdigits, List.rdropWhile_concat_pos _ _ _ (by decide), significantDigits]

theorem significantDigits_mul_pow (n j : Nat) :
    significantDigits (n * 10 ^ j) = significantDigits n := by
  induction j with
  | zero => rw [Nat.pow_zero, Nat.mul_one]
  | succ j ih => rw [Nat.pow_succ, ← Nat.mul_assoc, significantDigits_mul_ten, ih]

/-- Every digit counts if the last one is no zero. -/
theorem significantDigits_of_mod_ne_zero {n : Nat} (h : n % 10 ≠ 0) :
    significantDigits n = (decimal n).length := by
  have hlast : ¬(n % 10).digitChar = '0' := by
    rwa [Nat.digitChar_eq_zero]
  rw [significantDigits]
  by_cases hlt : n < 10
  · rw [Nat.mod_eq_of_lt hlt] at hlast
    rw [decimal, Nat.toDigits_of_lt_base hlt, List.rdropWhile_singleton,
      if_neg (by simpa using hlast)]
  · rw [decimal, Nat.toDigits_of_base_le (by decide) (Nat.le_of_not_lt hlt),
      List.rdropWhile_concat_neg _ _ _ (by simpa using hlast)]

/-- **A coefficient has at most `s` significant digits** exactly if it is a number of `s` digits
with zeros after it. -/
theorem significantDigits_le_iff {n s : Nat} :
    significantDigits n ≤ s ↔ ∃ a j, n = a * 10 ^ j ∧ a < 10 ^ s := by
  constructor
  · intro h
    rcases Nat.eq_zero_or_pos n with rfl | hn
    · exact ⟨0, 0, rfl, Nat.pow_pos (by decide)⟩
    · obtain ⟨j, a, ha, rfl⟩ :=
        Nat.exists_eq_pow_mul_and_not_dvd (Nat.ne_of_gt hn) 10 (by decide)
      rw [Nat.mul_comm] at h ⊢
      rw [significantDigits_mul_pow,
        significantDigits_of_mod_ne_zero fun hmod ↦ ha (Nat.dvd_of_mod_eq_zero hmod)] at h
      have hpos : 0 < s := Nat.lt_of_lt_of_le (List.length_pos_iff.mpr (decimal_ne_nil a)) h
      exact ⟨a, j, rfl, (length_decimal_le_iff hpos).mp h⟩
  · rintro ⟨a, j, rfl, ha⟩
    rw [significantDigits_mul_pow]
    rcases Nat.eq_zero_or_pos s with rfl | hs
    · obtain rfl : a = 0 := by simpa using ha
      exact Nat.le_refl _
    · exact Nat.le_trans (List.rdropWhile_prefix _ _).length_le ((length_decimal_le_iff hs).mpr ha)

namespace Binary32

variable {v : Binary32} {c : Nat} {k : Int}

/-! ### The coarsest grid -/

/-- A finite magnitude as a quotient on a grid. -/
theorem exists_onGrid (v : Binary32) (k : Int) :
    ∃ num den, onGrid v.units k = (num, den) ∧ 0 < den ∧
      codeValue v.code = num / den * 10 ^ k := by
  have hunits : codeValue v.code = v.units / unitsPerOne := rfl
  cases k with
  | ofNat e =>
    have hpow : (10 : ℚ) ^ e ≠ 0 := pow_ne_zero e (by norm_num)
    refine ⟨_, _, rfl, Nat.mul_pos (Nat.pow_pos (by decide)) (Nat.pow_pos (by decide)), ?_⟩
    rw [hunits, Int.ofNat_eq_natCast, zpow_natCast, Nat.pow_eq, Nat.cast_mul, Nat.cast_pow,
      Nat.cast_ofNat, ← div_div, div_mul_cancel₀ _ hpow]
  | negSucc e =>
    have hpow : (10 : ℚ) ^ (e + 1) ≠ 0 := pow_ne_zero _ (by norm_num)
    refine ⟨_, _, rfl, Nat.pow_pos (by decide), ?_⟩
    rw [hunits, zpow_negSucc, Nat.pow_eq, Nat.cast_mul, Nat.cast_pow, Nat.cast_ofNat,
      ← div_eq_mul_inv, div_right_comm, mul_div_cancel_right₀ _ hpow]

/-- **If a point of a grid reads back, so does one of the points next to the number.** -/
theorem neighbour?_ne_none (hv : v.isFinite) (h : Numeral.magnitudeCode c k = v.code) :
    v.neighbour? k ≠ none := by
  have hcode : v.code ≤ infinityCode := Nat.le_of_lt (of_decide_eq_true hv)
  obtain ⟨num, den, hgrid, hden, hvalue⟩ := exists_onGrid v k
  have hstep : (0 : ℚ) ≤ 10 ^ k := zpow_nonneg (by norm_num) k
  have hbelow : ((num / den : Nat) * 10 ^ k : ℚ) ≤ codeValue v.code :=
    hvalue ▸ mul_le_mul_of_nonneg_right Nat.cast_div_le hstep
  have habove : codeValue v.code ≤ ((num / den + 1 : Nat) * 10 ^ k : ℚ) := by
    have hlt : (num : ℚ) < (num / den + 1 : Nat) * den := by
      exact_mod_cast Nat.mul_comm den _ ▸ Nat.lt_mul_div_succ num hden
    rw [hvalue]
    exact mul_le_mul_of_nonneg_right
      ((div_lt_iff₀ (Nat.cast_pos.mpr hden)).mpr hlt).le hstep
  -- The point that reads back is at or below the one neighbour, or at or above the other.
  have hreads : readsBack v.code (num / den) k ∨ readsBack v.code (num / den + 1) k := by
    rw [readsBack, readsBack, beq_iff_eq, beq_iff_eq]
    rcases Nat.lt_or_ge (num / den) c with hlt | hle
    · exact .inr (Nat.le_antisymm (h ▸ Numeral.magnitudeCode_mono (Numeral.mul_zpow_le hlt le_rfl))
        (Numeral.le_magnitudeCode hcode habove))
    · exact .inl (Nat.le_antisymm (Numeral.magnitudeCode_le hbelow)
        (h ▸ Numeral.magnitudeCode_mono (Numeral.mul_zpow_le hle le_rfl)))
  rw [neighbour?, hgrid]
  dsimp only
  split_ifs with hfirst hnearer hsecond
  · exact Option.some_ne_none _
  · exact Option.some_ne_none _
  · exact Option.some_ne_none _
  · exact absurd hreads (not_or.mpr ⟨hfirst, hsecond⟩)

/-- The search ends on a grid as coarse as any on which a point reads back. -/
theorem le_shortestFrom (hv : v.isFinite) (h : Numeral.magnitudeCode c k = v.code) {n : Nat}
    (hk : k ≤ n - 149) : k ≤ (v.shortestFrom n).2 := by
  induction n with
  | zero => simpa [shortestFrom] using hk
  | succ n ih =>
    have hne : k = n - 148 → v.neighbour? ((n : Int) - 148) ≠ none := fun heq ↦
      heq ▸ neighbour?_ne_none hv h
    rw [shortestFrom]
    split
    · show k ≤ n - 148
      omega
    · next hnone => exact ih (by have := mt hne (not_not.mpr hnone); omega)

/-- What is written from 10^39 on is not finite. -/
theorem le_of_magnitudeCode_eq (hv : v.isFinite) (hc : c ≠ 0)
    (h : Numeral.magnitudeCode c k = v.code) : k ≤ 38 := by
  refine Int.not_lt.mp fun hlt ↦ ?_
  have hcode : v.code < infinityCode := of_decide_eq_true hv
  have hinfinity : Numeral.magnitudeCode 1 39 = infinityCode := by decide
  have hle : Numeral.magnitudeCode 1 39 ≤ Numeral.magnitudeCode c k :=
    Numeral.magnitudeCode_mono (Numeral.mul_zpow_le (Nat.pos_of_ne_zero hc) hlt)
  omega

/-- **The shortest numeral stands on the coarsest grid** on which a point reads back, zero aside. -/
theorem le_shortest (hv : v.isFinite) (hc : c ≠ 0) (h : Numeral.magnitudeCode c k = v.code) :
    k ≤ v.shortest.2 :=
  le_shortestFrom hv h (le_of_magnitudeCode_eq hv hc h)

/-! ### The fewest digits -/

/-- Zero is written as zero: on the coarsest grid of all it is the only point that reads back. -/
theorem shortest_of_code_eq_zero (h : v.code = 0) : v.shortest.1 = 0 := by
  have hv : v.isFinite := decide_eq_true (h ▸ by decide)
  have hzero : Numeral.magnitudeCode 0 38 = v.code := by rw [Numeral.magnitudeCode_zero, h]
  have hgrid : 38 ≤ v.shortest.2 := le_shortestFrom hv hzero (by decide)
  have hone : Numeral.magnitudeCode 1 38 ≠ 0 := by decide
  by_contra hne
  have hle := Numeral.magnitudeCode_mono (Numeral.mul_zpow_le (Nat.pos_of_ne_zero hne) hgrid)
  rw [magnitudeCode_shortest hv, h] at hle
  exact hone (Nat.le_zero.mp hle)

/-- **No numeral that reads back has fewer significant digits than the shortest one.** -/
theorem significantDigits_shortest_le (hv : v.isFinite)
    (h : Numeral.magnitudeCode c k = v.code) :
    significantDigits v.shortest.1 ≤ significantDigits c := by
  obtain ⟨s, hs⟩ : ∃ s, significantDigits c = s := ⟨_, rfl⟩
  obtain ⟨a, j, hc, ha⟩ := significantDigits_le_iff.mp (Nat.le_of_eq hs)
  have hshortest := magnitudeCode_shortest hv
  generalize hC : v.shortest.1 = C at hshortest ⊢
  generalize hK : v.shortest.2 = K at hshortest
  rw [hs, significantDigits_le_iff]
  refine ⟨C, 0, (Nat.mul_one C).symm, Nat.lt_of_not_le fun hge ↦ ?_⟩
  -- Without the zeros at its end the numeral reads back just as well.
  have hvalue : (a * 10 ^ (j + k) : ℚ) = c * 10 ^ k := by
    rw [hc, zpow_add₀ (by norm_num), zpow_natCast]
    push_cast
    ring
  have hreads : Numeral.magnitudeCode a (j + k) = v.code :=
    h ▸ Nat.le_antisymm (Numeral.magnitudeCode_mono hvalue.le)
      (Numeral.magnitudeCode_mono hvalue.ge)
  by_cases hzero : a = 0
  · rw [hzero, Numeral.magnitudeCode_zero] at hreads
    rw [← hC, shortest_of_code_eq_zero hreads.symm] at hge
    exact Nat.not_lt_of_le hge (Nat.pow_pos (by decide))
  · have hcoarse : j + k ≤ K := hK ▸ le_shortest hv hzero hreads
    obtain ⟨r, rfl⟩ : ∃ r, s = r + 1 := Nat.exists_eq_succ_of_ne_zero fun hs0 ↦ by
      rw [hs0, Nat.pow_zero] at ha
      exact hzero (by omega)
    have hstep : ((10 ^ r : Nat) * 10 ^ (K + 1) : ℚ) = (10 ^ (r + 1) : Nat) * 10 ^ K := by
      rw [zpow_add_one₀ (by norm_num)]
      push_cast
      ring
    have habove : ((10 ^ r : Nat) * 10 ^ (K + 1) : ℚ) ≤ C * 10 ^ K := by
      rw [hstep]
      exact Numeral.mul_zpow_le hge le_rfl
    have hbelow : (a * 10 ^ (j + k) : ℚ) ≤ (10 ^ r : Nat) * 10 ^ (K + 1) := by
      rw [hstep]
      exact Numeral.mul_zpow_le ha.le hcoarse
    -- The power of ten between the two reads back, and stands on a coarser grid.
    have hpower : Numeral.magnitudeCode (10 ^ r) (K + 1) = v.code :=
      Nat.le_antisymm (hshortest ▸ Numeral.magnitudeCode_mono habove)
        (hreads ▸ Numeral.magnitudeCode_mono hbelow)
    have hle := le_shortest hv (Nat.pow_pos (n := r) (by decide)).ne' hpower
    omega

/-! ### The text -/

/-- The positional form has no exponent. -/
theorem isPlainNumeral_positional (v : Binary32) (c : Nat) (k : Int) :
    IsPlainNumeral (v.signText ++ positional c k) := by
  refine .mk (Numeral.isSign_signText v) ?_
  cases k with
  | negSucc e =>
    obtain ⟨fraction, htext, hfraction, -⟩ := exists_fixedDigits e c
    rw [positional, htext]
    exact .point (by simp [decimal_ne_nil]) (isDigits_decimal _) hfraction
  | ofNat e =>
    rw [positional]
    split
    · exact .whole (by simp) (by decide)
    · exact .whole (by simp [decimal_ne_nil])
        ((isDigits_decimal c).append (isDigits_replicate_zero e))

/-- **The text of a finite number is a plain numeral with the fewest significant digits** of all
that read back as the number. -/
theorem exists_read?_shortestText (hv : v.isFinite) :
    IsPlainNumeral v.shortestText ∧ ∃ n, Numeral.read? v.shortestText = some n ∧
      ∀ m : Numeral, m.toBinary32 = v →
        significantDigits n.coefficient ≤ significantDigits m.coefficient := by
  rw [shortestText, if_pos hv]
  refine ⟨isPlainNumeral_positional v _ _, _, read?_positional v _ _, fun m hm ↦ ?_⟩
  have hreads : Numeral.magnitudeCode m.coefficient m.exponent = v.code := by
    rw [← hm, Numeral.code_toBinary32]
  rw [significantDigits_mul_pow]
  exact significantDigits_shortest_le hv hreads

end Binary32

end BatteryBench
