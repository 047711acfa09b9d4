import BatteryBench.Number.Shortest
import BatteryBench.Proofs.Number.Fixed
import BatteryBench.Proofs.Number.Grammar
import BatteryBench.Proofs.Number.Value

/-!
# Numbers are read back from their numerals

A number with a fixed count of places is read as the number nearest to its numeral
(`binary32?_fixedText`), and a number in its shortest form is read as itself, bit for bit
(`binary32?_shortestText`). Both follow from what the digits of a text are read as
(`read?_digits`, `read?_digits_point`), because the shortest form stands on a grid on which it was
found to read back (`magnitudeCode_shortest`).
-/

namespace BatteryBench

/-! ### Reading digits -/

namespace Numeral

theorem isSign_signText (v : Binary32) : IsSign v.signText := by
  rw [Binary32.signText]
  split
  · exact .minus
  · exact .absent

/-- A sign is split from the digits after it. -/
theorem splitSign_signText (v : Binary32) {whole : Text} (hne : whole ≠ []) (hw : IsDigits whole)
    (rest : Text) : splitSign (v.signText ++ (whole ++ rest)) = (v.negative, whole ++ rest) := by
  have hsign : decide (v.signText = ['-']) = v.negative := by
    rw [Binary32.signText]
    cases v.negative <;> rfl
  rw [splitSign_append (isSign_signText v) (head?_append_of_isDigits hne hw (by decide) rest)
    (head?_append_of_isDigits hne hw (by decide) rest), hsign]

/-- Digits are a whole number. -/
theorem unsigned?_digits (negative : Bool) {whole : Text} (hne : whole ≠ []) (hw : IsDigits whole) :
    unsigned? negative whole = some ⟨negative, Nat.ofDigitChars 10 whole 0, 0⟩ := by
  have hsplit : splitDigits (whole ++ []) = (whole, [], []) :=
    splitDigits_whole hw rfl (by simp)
  rw [List.append_nil] at hsplit
  have hvalue : natural? 10 whole = some (Nat.ofDigitChars 10 whole 0) :=
    natural?_ten_eq_some_iff.mpr ⟨hne, hw, rfl⟩
  simp [unsigned?, hsplit, hvalue, exponent?]

/-- Digits around a point are a number of units of the last place. -/
theorem unsigned?_digits_point (negative : Bool) {whole fraction : Text} (hne : whole ≠ [])
    (hw : IsDigits whole) (hf : IsDigits fraction) :
    unsigned? negative (whole ++ '.' :: fraction) =
      some ⟨negative, Nat.ofDigitChars 10 (whole ++ fraction) 0, -fraction.length⟩ := by
  have hsplit : splitDigits (whole ++ '.' :: (fraction ++ [])) = (whole, fraction, []) :=
    splitDigits_point hw hf rfl
  rw [List.append_nil] at hsplit
  have hvalue : natural? 10 (whole ++ fraction) =
      some (Nat.ofDigitChars 10 (whole ++ fraction) 0) :=
    natural?_ten_eq_some_iff.mpr ⟨by simp [hne], hw.append hf, rfl⟩
  simp [unsigned?, hsplit, hvalue, exponent?]

theorem read?_digits (v : Binary32) {whole : Text} (hne : whole ≠ []) (hw : IsDigits whole) :
    read? (v.signText ++ whole) = some ⟨v.negative, Nat.ofDigitChars 10 whole 0, 0⟩ := by
  have hsign := splitSign_signText v hne hw []
  rw [List.append_nil] at hsign
  rw [read?, hsign]
  exact unsigned?_digits v.negative hne hw

/-- A number of units of some place is read as just that. -/
theorem read?_fixedDigits (v : Binary32) (places n : Nat) :
    read? (v.signText ++ fixedDigits (places + 1) n) =
      some ⟨v.negative, n, -(places + 1 : Nat)⟩ := by
  obtain ⟨fraction, htext, hdigits, hlength, hvalue⟩ := exists_fixedDigits places n
  have hsign := splitSign_signText v (decimal_ne_nil (n / 10 ^ (places + 1))) (isDigits_decimal _)
    ('.' :: fraction)
  rw [read?, htext, hsign]
  show unsigned? v.negative _ = _
  rw [unsigned?_digits_point v.negative (decimal_ne_nil _) (isDigits_decimal _) hdigits,
    ofDigitChars_decimal_append hlength hvalue, hlength]

end Numeral

/-! ### Numbers with a fixed count of places -/

namespace Binary32

/-- A finite number with a fixed count of places is read as the number nearest to it. -/
theorem binary32?_fixedText {v : Binary32} (hv : v.isFinite) {places : Nat} (hplaces : 0 < places) :
    binary32? (v.fixedText places) =
      some (Numeral.toBinary32 ⟨v.negative, v.toPlaces places, -places⟩) := by
  obtain ⟨k, rfl⟩ := Nat.exists_eq_succ_of_ne_zero (Nat.ne_of_gt hplaces)
  rw [fixedText, if_pos hv]
  exact binary32?_of_read? (Numeral.read?_fixedDigits v k _)

/-! ### Numbers in their shortest form -/

theorem readsBack_neighbour? {v : Binary32} {k : Int} {coefficient : Nat}
    (h : v.neighbour? k = some coefficient) : Numeral.magnitudeCode coefficient k = v.code := by
  have hiff : ∀ n, readsBack v.code n k → Numeral.magnitudeCode n k = v.code :=
    fun _ hn ↦ eq_of_beq hn
  rw [neighbour?] at h
  dsimp only at h
  split at h
  · next hbelow =>
    split at h
    · next habove =>
      rw [Bool.and_eq_true] at habove
      exact Option.some.inj h ▸ hiff _ habove.1
    · exact Option.some.inj h ▸ hiff _ hbelow
  · split at h
    · next habove => exact Option.some.inj h ▸ hiff _ habove
    · cases h

/-- Whatever grid the search ends on, its numeral reads back. -/
theorem magnitudeCode_shortestFrom {v : Binary32} (hv : v.isFinite) (n : Nat) :
    Numeral.magnitudeCode (v.shortestFrom n).1 (v.shortestFrom n).2 = v.code := by
  induction n with
  | zero => exact Numeral.magnitudeCode_exact hv
  | succ n ih =>
    rw [shortestFrom]
    split
    · next coefficient h => exact readsBack_neighbour? h
    · exact ih

theorem magnitudeCode_shortest {v : Binary32} (hv : v.isFinite) :
    Numeral.magnitudeCode v.shortest.1 v.shortest.2 = v.code :=
  magnitudeCode_shortestFrom hv 187

/-- The positional form of a numeral is read as the same numeral, zeros at its end aside: they are
read as part of the coefficient. -/
theorem read?_positional (v : Binary32) (coefficient : Nat) (k : Int) :
    Numeral.read? (v.signText ++ positional coefficient k) =
      some ⟨v.negative, coefficient * 10 ^ k.toNat, min k 0⟩ := by
  cases k with
  | negSucc e =>
    have hexponent : min (Int.negSucc e) 0 = -(e + 1 : Nat) := by omega
    rw [hexponent, Int.toNat_negSucc, Nat.pow_zero, Nat.mul_one]
    exact Numeral.read?_fixedDigits v e coefficient
  | ofNat e =>
    have hexponent : min (Int.ofNat e) 0 = 0 := Int.min_eq_right (Int.natCast_nonneg e)
    rw [hexponent]
    by_cases hzero : coefficient = 0
    · have htext : positional coefficient (.ofNat e) = ['0'] := if_pos hzero
      have hvalue : Nat.ofDigitChars 10 ['0'] 0 = 0 := rfl
      rw [htext, Numeral.read?_digits v (by simp) (by decide), hvalue, hzero, Nat.zero_mul]
    · have htext : positional coefficient (.ofNat e) =
          decimal coefficient ++ List.replicate e '0' := if_neg hzero
      have hdigits : IsDigits (decimal coefficient ++ List.replicate e '0') :=
        (isDigits_decimal coefficient).append (isDigits_replicate_zero e)
      rw [htext, Numeral.read?_digits v (by simp [decimal_ne_nil]) hdigits, Nat.ofDigitChars_append,
        Nat.ofDigitChars_replicate_zero, ofDigitChars_decimal, Nat.mul_comm]
      rfl

theorem magnitudeCode_positional (coefficient : Nat) (k : Int) :
    Numeral.magnitudeCode (coefficient * 10 ^ k.toNat) (min k 0) =
      Numeral.magnitudeCode coefficient k := by
  cases k with
  | negSucc e =>
    have hexponent : min (Int.negSucc e) 0 = Int.negSucc e := by omega
    rw [hexponent, Int.toNat_negSucc, Nat.pow_zero, Nat.mul_one]
  | ofNat e =>
    have hexponent : min (Int.ofNat e) 0 = 0 := Int.min_eq_right (Int.natCast_nonneg e)
    have hone : Nat.pow 10 0 = 1 := rfl
    rw [hexponent]
    show nearestCode (coefficient * 10 ^ e * Nat.pow 10 0 * unitsPerOne) 1 =
      nearestCode (coefficient * Nat.pow 10 e * unitsPerOne) 1
    rw [hone, Nat.mul_one]
    rfl

theorem ext {v w : Binary32} (hsign : v.negative = w.negative) (hcode : v.code = w.code) :
    v = w := by
  cases v
  cases w
  simp_all

/-- What is neither finite nor without a number is infinite. -/
theorem eq_infinity {v : Binary32} (hfinite : v.isFinite = false) (hnan : v.isNaN = false) :
    v = infinity v.negative := by
  simp only [isFinite, isNaN, decide_eq_false_iff_not] at hfinite hnan
  exact ext rfl (show v.code = infinityCode by omega)

/-- **A number in its shortest form is read as itself**, bit for bit. -/
theorem binary32?_shortestText {v : Binary32} (hv : v.isNaN = false) :
    binary32? v.shortestText = some v := by
  rw [shortestText]
  cases hfinite : v.isFinite with
  | true =>
    rw [if_pos rfl, binary32?_of_read? (read?_positional v v.shortest.1 v.shortest.2)]
    refine congrArg some (ext ?_ ?_)
    · exact Numeral.negative_toBinary32 _
    · rw [Numeral.code_toBinary32, magnitudeCode_positional, magnitudeCode_shortest hfinite]
  | false =>
    have hinf := eq_infinity hfinite hv
    have htext : v.nonFiniteText = v.signText ++ "inf" := by
      rw [nonFiniteText, hv]
      rfl
    rw [if_neg Bool.false_ne_true, htext, signText]
    cases hsign : v.negative <;> rw [hsign] at hinf <;> rw [hinf] <;> rfl

/-- What is no number is read as such. -/
theorem binary32?_shortestText_of_isNaN {v : Binary32} (hv : v.isNaN) :
    binary32? v.shortestText = some nan := by
  have hfinite : v.isFinite = false := Bool.eq_false_iff.mpr fun h ↦ by
    rw [isNaN_of_isFinite h] at hv
    cases hv
  have htext : v.shortestText = "NaN" := by
    rw [shortestText, hfinite, if_neg Bool.false_ne_true, nonFiniteText, if_pos hv]
  rw [htext]
  rfl

end Binary32

end BatteryBench
