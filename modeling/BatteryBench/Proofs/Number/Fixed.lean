import BatteryBench.Proofs.Number.Digits
import BatteryBench.Proofs.Number.Units
import BatteryBench.Proofs.Text.Pieces

/-!
# What a numeral with a fixed count of places is worth

`fixedNumeral?` reads a numeral the way its grammar is written down: an optional minus sign, one or
more digits, a point and an exact count of digits. Its value is a whole number of units of the last
place. A finite number is written as a numeral of that grammar, and its value is the number rounded
to those units (`fixedNumeral?_fixedText`); what is not finite has no numeral
(`fixedNumeral?_nonFiniteText`).
-/

namespace BatteryBench

/-! ### The grammar -/

/-- The value of one or more digits, a point and exactly `places` digits, in units of the last one.
-/
def fixedNatural? (places : Nat) (t : Text) : Option Nat :=
  match splitAt '.' t with
  | [whole, fraction] =>
    if whole ≠ [] ∧ IsDigits whole ∧ IsDigits fraction ∧ fraction.length = places then
      some (Nat.ofDigitChars 10 (whole ++ fraction) 0)
    else none
  | _ => none

/-- The value of a numeral with exactly `places` digits after the point, in units of the last one.
-/
def fixedNumeral? (places : Nat) : Text → Option Int
  | '-' :: t => (fixedNatural? places t).map fun n ↦ -(n : Int)
  | t => (fixedNatural? places t).map fun n ↦ (n : Int)

example : fixedNumeral? 4 "-2.5000" = some (-25000) := by decide
example : fixedNumeral? 4 "2.5" = none := by decide

/-! ### Writing -/

/-- The digits after the point, with zeros in front as far as they are needed. -/
theorem exists_fixedDigits (places n : Nat) :
    ∃ fraction : Text, fixedDigits (places + 1) n =
        decimal (n / 10 ^ (places + 1)) ++ '.' :: fraction ∧
      IsDigits fraction ∧ fraction.length = places + 1 ∧
      Nat.ofDigitChars 10 fraction 0 = n % 10 ^ (places + 1) := by
  have hlength : (decimal (n % 10 ^ (places + 1))).length ≤ places + 1 :=
    (length_decimal_le_iff places.succ_pos).mpr (Nat.mod_lt _ (Nat.pow_pos (by decide)))
  refine ⟨List.replicate (places + 1 - (decimal (n % 10 ^ (places + 1))).length) '0' ++
    decimal (n % 10 ^ (places + 1)), rfl, ?_, ?_, ?_⟩
  · exact (isDigits_replicate_zero _).append (isDigits_decimal _)
  · rw [List.length_append, List.length_replicate]
    omega
  · rw [Nat.ofDigitChars_append, Nat.ofDigitChars_replicate_zero, Nat.mul_zero,
      ofDigitChars_decimal]

/-- The digits before and after the point are together those of the number. -/
theorem ofDigitChars_decimal_append {places n : Nat} {fraction : Text}
    (hlength : fraction.length = places)
    (hvalue : Nat.ofDigitChars 10 fraction 0 = n % 10 ^ places) :
    Nat.ofDigitChars 10 (decimal (n / 10 ^ places) ++ fraction) 0 = n := by
  rw [Nat.ofDigitChars_append, Nat.ofDigitChars_eq_ofDigitChars_zero, ofDigitChars_decimal,
    hlength, hvalue, Nat.div_add_mod]

theorem fixedNatural?_fixedDigits (places n : Nat) :
    fixedNatural? (places + 1) (fixedDigits (places + 1) n) = some n := by
  obtain ⟨fraction, htext, hdigits, hlength, hvalue⟩ := exists_fixedDigits places n
  have hwhole : '.' ∉ decimal (n / 10 ^ (places + 1)) :=
    not_mem_of_forall (isDigits_decimal _) (by decide)
  have hfraction : '.' ∉ fraction := not_mem_of_forall hdigits (by decide)
  rw [fixedNatural?, htext, splitAt_append_cons hwhole, splitAt_of_not_mem hfraction]
  dsimp only
  rw [if_pos ⟨decimal_ne_nil _, isDigits_decimal _, hdigits, hlength⟩,
    ofDigitChars_decimal_append hlength hvalue]

/-- The digits of a number do not start with a minus sign. -/
theorem fixedNumeral?_of_head {places : Nat} {t : Text} (h : t.head? ≠ some '-') :
    fixedNumeral? places t = (fixedNatural? places t).map fun n ↦ (n : Int) := by
  unfold fixedNumeral?
  split
  · exact absurd rfl h
  · rfl

theorem head?_fixedDigits (places n : Nat) : (fixedDigits (places + 1) n).head? ≠ some '-' := by
  obtain ⟨fraction, htext, -⟩ := exists_fixedDigits places n
  rw [htext]
  exact head?_append_of_isDigits (decimal_ne_nil _) (isDigits_decimal _) (by decide) _

namespace Binary32

/-- **A finite number is written as a numeral** with exactly the wanted places, and what it is worth
is the number rounded to units of the last one. -/
theorem fixedNumeral?_fixedText {v : Binary32} (hv : v.isFinite) (places : Nat) :
    fixedNumeral? (places + 1) (v.fixedText (places + 1)) =
      some (v.signed (v.toPlaces (places + 1))) := by
  rw [fixedText, if_pos hv, signText, signed]
  cases v.negative with
  | true =>
    rw [if_pos rfl, if_pos rfl, List.singleton_append, fixedNumeral?, fixedNatural?_fixedDigits]
    rfl
  | false =>
    show fixedNumeral? (places + 1) (fixedDigits (places + 1) (v.toPlaces (places + 1))) = _
    rw [fixedNumeral?_of_head (head?_fixedDigits places _), fixedNatural?_fixedDigits]
    rfl

/-- What is not finite has no numeral. -/
theorem fixedNumeral?_nonFiniteText (v : Binary32) (places : Nat) :
    fixedNumeral? places v.nonFiniteText = none := by
  have hnan : fixedNumeral? places "NaN" = none := rfl
  have hinf : fixedNumeral? places "inf" = none := rfl
  have hneginf : fixedNumeral? places "-inf" = none := rfl
  rw [nonFiniteText, signText]
  cases v.isNaN with
  | true => exact hnan
  | false =>
    cases v.negative with
    | true => exact hneginf
    | false => exact hinf

end Binary32

end BatteryBench
