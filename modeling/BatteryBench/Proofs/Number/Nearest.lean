import BatteryBench.Number.Decimal
import BatteryBench.Proofs.Number.Units

/-!
# The number nearest to a numeral

The code that `nearestCode` computes from the bits of a quotient is that of the nearest magnitude,
with ties to the even code: it exceeds a code exactly if the quotient lies beyond the middle between
that code's magnitude and the next, or in the middle before an even code
(`lt_nearestCode_iff`). Everything else about rounding to the format follows from that.

`Numeral.toBinary32` decides numerals far outside the range of the format by their size. These
shortcuts change nothing: the code is always that of the magnitude nearest to
`coefficient * 10 ^ exponent` (`code_toBinary32`).
-/

namespace BatteryBench

/-- A number is exceeded by the rounded quotient exactly if the quotient is nearer to the next
number, or as near to it and that one is even. -/
theorem lt_roundHalfEven_iff {num den n : Nat} (hden : 0 < den) :
    n < roundHalfEven num den ↔
      (2 * n + 1) * den < 2 * num ∨ (2 * n + 1) * den = 2 * num ∧ n % 2 = 1 := by
  have hnum := Nat.div_add_mod num den
  have hmod := Nat.mod_lt num hden
  have hmid : (2 * n + 1) * den = 2 * (den * n) + den := by ring
  rw [hmid, roundHalfEven]
  rcases Nat.lt_trichotomy n (num / den) with hlt | heq | hgt
  · have hstep : den * (n + 1) ≤ den * (num / den) := Nat.mul_le_mul_left den hlt
    rw [Nat.mul_succ] at hstep
    split <;> omega
  · rw [← heq] at hnum ⊢
    split <;> omega
  · have hstep : den * (num / den + 1) ≤ den * n := Nat.mul_le_mul_left den hgt
    rw [Nat.mul_succ] at hstep
    split <;> omega

namespace Binary32

/-- In a binade the codes are as far apart as the magnitudes are, and so is the first code of the
next binade. -/
theorem unitsOfCode_of_binade {binade code : Nat}
    (hlow : binade = 0 ∨ (binade + 1) * binadeSize ≤ code)
    (hhigh : code ≤ (binade + 2) * binadeSize) :
    unitsOfCode code = (code - binade * binadeSize) * 2 ^ binade := by
  have hsame : binadeOf code = binade ∨
      binadeOf code = binade + 1 ∧ significandOf code = 2 ^ 23 ∧
        code - binade * binadeSize = 2 ^ 24 := by
    unfold significandOf binadeOf
    unfold binadeSize at hlow hhigh ⊢
    omega
  rw [unitsOfCode_eq]
  rcases hsame with hsame | ⟨hnext, hfirst, hlast⟩
  · rw [significandOf, hsame]
  · rw [hnext, hfirst, hlast]
    ring

/-- A binade starts with a power of two. -/
theorem unitsOfCode_binade (binade : Nat) :
    unitsOfCode ((binade + 1) * binadeSize) = 2 ^ 23 * 2 ^ binade := by
  have hsucc : (binade + 1) * binadeSize = binade * binadeSize + 2 ^ 23 := Nat.succ_mul _ _
  have hlast : (binade + 1) * binadeSize ≤ (binade + 2) * binadeSize :=
    Nat.mul_le_mul_right _ (Nat.le_succ _)
  rw [unitsOfCode_of_binade (.inr (Nat.le_refl _)) hlast, hsucc, Nat.add_sub_cancel_left]

/-- A quotient has at most 24 bits over those of its binade. -/
theorem lt_mul_pow_binade {num den b : Nat} (hden : 0 < den) (hb : Nat.log2 (num / den) - 23 = b) :
    num < 2 ^ 24 * (den * 2 ^ b) := by
  have hbits : num / den < 2 ^ (24 + b) :=
    Nat.lt_of_lt_of_le Nat.lt_log2_self (Nat.pow_le_pow_right (by decide) (by omega))
  calc num < 2 ^ (24 + b) * den := (Nat.div_lt_iff_lt_mul hden).mp hbits
    _ = 2 ^ 24 * (den * 2 ^ b) := by ring

/-- It has exactly 24 bits over those of its binade, but in the first. -/
theorem mul_pow_binade_le {num den b : Nat} (hden : 0 < den) (hb : Nat.log2 (num / den) - 23 = b)
    (hne : b ≠ 0) : 2 ^ 23 * (den * 2 ^ b) ≤ num := by
  have hquotient : num / den ≠ 0 := by
    intro hzero
    rw [hzero] at hb
    exact hne (by simpa using hb.symm)
  have hbits : 2 ^ (23 + b) ≤ num / den := by
    rw [← Nat.le_log2 hquotient]
    omega
  calc 2 ^ 23 * (den * 2 ^ b) = 2 ^ (23 + b) * den := by ring
    _ ≤ num := (Nat.le_div_iff_mul_le hden).mp hbits

/-- **The nearest magnitude exceeds a code exactly if the quotient is nearer to the next code's
magnitude**, or as near to it and that code is even. -/
theorem lt_nearestCode_iff {code num den : Nat} (hden : 0 < den) (hcode : code < infinityCode) :
    code < nearestCode num den ↔
      (unitsOfCode code + unitsOfCode (code + 1)) * den < 2 * num ∨
        (unitsOfCode code + unitsOfCode (code + 1)) * den = 2 * num ∧ code % 2 = 1 := by
  obtain ⟨b, hb⟩ : ∃ b, Nat.log2 (num / den) - 23 = b := ⟨_, rfl⟩
  have hmin : code < nearestCode num den ↔
      code < b * binadeSize + roundHalfEven num (den * 2 ^ b) := by
    unfold nearestCode
    dsimp only
    rw [hb, Nat.lt_min]
    exact and_iff_left hcode
  have hscale : 0 < den * 2 ^ b := Nat.mul_pos hden (Nat.pow_pos (by decide))
  have habove := lt_mul_pow_binade hden hb
  have hbelow := mul_pow_binade_le hden hb
  have hround : roundHalfEven num (den * 2 ^ b) ≤ 2 ^ 24 :=
    Nat.le_trans (roundHalfEven_le_succ _ _) ((Nat.div_lt_iff_lt_mul hscale).mpr habove)
  have hsize : binadeSize = 2 ^ 23 := rfl
  have hone : (b + 1) * binadeSize = b * binadeSize + binadeSize := Nat.succ_mul _ _
  have htwo : (b + 2) * binadeSize = b * binadeSize + binadeSize + binadeSize := by
    rw [Nat.succ_mul, hone]
  rw [hmin]
  by_cases hhigh : (b + 2) * binadeSize ≤ code
  · -- Everything in this binade is below the code, and so is the quotient.
    have hunits : 2 ^ 24 * 2 ^ b ≤ unitsOfCode code := by
      calc 2 ^ 24 * 2 ^ b = 2 ^ 23 * 2 ^ (b + 1) := by ring
        _ = unitsOfCode ((b + 2) * binadeSize) := (unitsOfCode_binade (b + 1)).symm
        _ ≤ unitsOfCode code := unitsOfCode_strictMono.monotone hhigh
    have hnext := unitsOfCode_lt_succ code
    have hfar : 2 * num < (unitsOfCode code + unitsOfCode (code + 1)) * den := by
      calc 2 * num < 2 * (2 ^ 24 * (den * 2 ^ b)) := by omega
        _ = (2 ^ 24 * 2 ^ b + 2 ^ 24 * 2 ^ b) * den := by ring
        _ ≤ (unitsOfCode code + unitsOfCode (code + 1)) * den :=
            Nat.mul_le_mul_right den (by omega)
    omega
  · by_cases hlow : b = 0 ∨ (b + 1) * binadeSize ≤ code
    · -- The code and the next one are counted in the same steps as the rounded quotient.
      have hfirst : b * binadeSize ≤ code := by
        rcases hlow with hzero | hlow
        · rw [hzero, Nat.zero_mul]
          exact Nat.zero_le code
        · omega
      obtain ⟨m, rfl⟩ := Nat.exists_eq_add_of_le hfirst
      have hmid : (unitsOfCode (b * binadeSize + m) + unitsOfCode (b * binadeSize + m + 1)) * den =
          (2 * m + 1) * (den * 2 ^ b) := by
        rw [unitsOfCode_of_binade hlow (by omega),
          unitsOfCode_of_binade (hlow.imp id (by omega)) (by omega), Nat.add_sub_cancel_left,
          Nat.add_assoc, Nat.add_sub_cancel_left]
        ring
      rw [hmid, Nat.add_lt_add_iff_left, lt_roundHalfEven_iff hscale]
      have hparity : (b * binadeSize + m) % 2 = m % 2 := by
        rw [hsize]
        omega
      rw [hparity]
    · -- The quotient is above everything below its binade.
      rw [not_or] at hlow
      have hunits : unitsOfCode (code + 1) ≤ 2 ^ 23 * 2 ^ b := by
        calc unitsOfCode (code + 1) ≤ unitsOfCode ((b + 1) * binadeSize) :=
              unitsOfCode_strictMono.monotone (by omega)
          _ = 2 ^ 23 * 2 ^ b := unitsOfCode_binade b
      have hnext := unitsOfCode_lt_succ code
      have hdiv : 2 ^ 23 ≤ roundHalfEven num (den * 2 ^ b) :=
        Nat.le_trans ((Nat.le_div_iff_mul_le hscale).mpr (hbelow hlow.1))
          (div_le_roundHalfEven _ _)
      have hnear : (unitsOfCode code + unitsOfCode (code + 1)) * den < 2 * num := by
        calc (unitsOfCode code + unitsOfCode (code + 1)) * den
            < (2 ^ 23 * 2 ^ b + 2 ^ 23 * 2 ^ b) * den :=
              Nat.mul_lt_mul_of_pos_right (by omega) hden
          _ = 2 * (2 ^ 23 * (den * 2 ^ b)) := by ring
          _ ≤ 2 * num := Nat.mul_le_mul_left 2 (hbelow hlow.1)
      refine iff_of_true ?_ (.inl hnear)
      rw [hsize] at hlow ⊢
      omega

/-- Up to half a unit, the nearest magnitude is zero. -/
theorem nearestCode_of_two_mul_le {num den : Nat} (hden : 0 < den) (h : 2 * num ≤ den) :
    nearestCode num den = 0 := by
  have hzero : unitsOfCode 0 = 0 := rfl
  have hone : unitsOfCode (0 + 1) = 1 := rfl
  have hfirst : 0 < infinityCode := by decide
  have hiff := @lt_nearestCode_iff 0 num den hden hfirst
  rw [hzero, hone] at hiff
  omega

/-- From 2^278 units on, the nearest magnitude is infinity. -/
theorem nearestCode_of_pow_le {num den : Nat} (hden : 0 < den)
    (h : 2 ^ 129 * 2 ^ 149 * den ≤ num) : nearestCode num den = infinityCode := by
  have hlast : infinityCode - 1 < infinityCode := by decide
  have hunits : unitsOfCode (infinityCode - 1) + unitsOfCode (infinityCode - 1 + 1) <
      2 * (2 ^ 129 * 2 ^ 149) := by decide
  have hfar : (unitsOfCode (infinityCode - 1) + unitsOfCode (infinityCode - 1 + 1)) * den <
      2 * num :=
    calc (unitsOfCode (infinityCode - 1) + unitsOfCode (infinityCode - 1 + 1)) * den
        < 2 * (2 ^ 129 * 2 ^ 149) * den := Nat.mul_lt_mul_of_pos_right hunits hden
      _ = 2 * (2 ^ 129 * 2 ^ 149 * den) := Nat.mul_assoc _ _ _
      _ ≤ 2 * num := Nat.mul_le_mul_left 2 h
  have hge := (lt_nearestCode_iff hden hlast).mpr (.inl hfar)
  have hle : nearestCode num den ≤ infinityCode := Nat.min_le_right _ _
  omega

end Binary32

namespace Numeral

/-- From 10^40 on everything is infinite. -/
theorem magnitudeCode_of_forty_le {coefficient : Nat} {exponent : Int} (hc : coefficient ≠ 0)
    (he : 40 ≤ exponent) : magnitudeCode coefficient exponent = Binary32.infinityCode := by
  obtain ⟨e, rfl⟩ := Int.eq_ofNat_of_zero_le (Int.le_trans (by decide) he)
  refine Binary32.nearestCode_of_pow_le Nat.one_pos ?_
  have hforty : 40 ≤ e := by omega
  rw [Nat.mul_one]
  calc 2 ^ 129 * 2 ^ 149 ≤ 10 ^ 40 * 2 ^ 149 := Nat.mul_le_mul_right _ (by decide)
    _ ≤ 10 ^ e * 2 ^ 149 := Nat.mul_le_mul_right _ (Nat.pow_le_pow_right (by decide) hforty)
    _ ≤ coefficient * 10 ^ e * 2 ^ 149 :=
      Nat.mul_le_mul_right _ (Nat.le_mul_of_pos_left _ (Nat.pos_of_ne_zero hc))

/-- A coefficient of `3 * n + 3` bits has at most `n + 1` digits, so below 10^-46 everything is
zero. -/
theorem magnitudeCode_of_lt {coefficient : Nat} {exponent : Int}
    (h : Nat.log2 coefficient / 3 + 1 + exponent < -46) :
    magnitudeCode coefficient exponent = 0 := by
  obtain ⟨n, hn⟩ : ∃ n, Nat.log2 coefficient / 3 = n := ⟨_, rfl⟩
  obtain ⟨m, rfl⟩ : ∃ m : Nat, exponent = .negSucc (n + 47 + m) := by
    exact ⟨(-exponent - 48 - n).toNat, by omega⟩
  refine Binary32.nearestCode_of_two_mul_le (Nat.pow_pos (by decide)) ?_
  -- The bits count in eights and the digits in tens: 8 ^ n is below 10 ^ n.
  have hbits : coefficient < 2 ^ (3 * n + 3) :=
    Nat.lt_of_lt_of_le Nat.lt_log2_self (Nat.pow_le_pow_right (by decide) (by omega))
  show 2 * (coefficient * 2 ^ 149) ≤ 10 ^ (n + 47 + m + 1)
  calc 2 * (coefficient * 2 ^ 149) ≤ 2 * (2 ^ (3 * n + 3) * 2 ^ 149) :=
        Nat.mul_le_mul_left _ (Nat.mul_le_mul_right _ (Nat.le_of_lt hbits))
    _ = 8 ^ n * 2 ^ 153 := by
      rw [Nat.pow_add, Nat.pow_mul]
      ring
    _ ≤ 10 ^ n * 10 ^ 48 :=
      Nat.mul_le_mul (Nat.pow_le_pow_left (by decide) n) (by decide)
    _ ≤ 10 ^ n * 10 ^ 48 * 10 ^ m := Nat.le_mul_of_pos_right _ (Nat.pow_pos (by decide))
    _ = 10 ^ (n + 47 + m + 1) := by ring

theorem magnitudeCode_zero (exponent : Int) : magnitudeCode 0 exponent = 0 := by
  cases exponent with
  | ofNat e =>
    refine Binary32.nearestCode_of_two_mul_le Nat.one_pos ?_
    simp
  | negSucc e =>
    refine Binary32.nearestCode_of_two_mul_le (Nat.pow_pos (by decide)) ?_
    simp

/-- **The code of the number nearest to a numeral**, whatever its size. -/
theorem code_toBinary32 (n : Numeral) :
    n.toBinary32.code = magnitudeCode n.coefficient n.exponent := by
  rw [toBinary32]
  split
  · next h => rw [h, magnitudeCode_zero]
  · next hc =>
    split
    · next h => rw [magnitudeCode_of_forty_le hc h]; rfl
    · split
      · next h => rw [magnitudeCode_of_lt h]
      · rfl

theorem negative_toBinary32 (n : Numeral) : n.toBinary32.negative = n.negative := by
  rw [toBinary32]
  split
  · rfl
  · split
    · rfl
    · split <;> rfl

end Numeral

end BatteryBench
