import BatteryBench.Json.Value
import BatteryBench.Proofs.Number.Integer
import Mathlib.Algebra.Group.Int.Defs

/-!
# Scalars

The values without parts: `null`, truth values, texts, and the integers that 64 bits hold, with a
sign or without one (`Json.isScalar`). They can be kept as they are: an integer of 64 bits keeps all
its digits in the word that a number is taken into, and is far from the numbers that overflow
(`JsonNumber.isFinite_integer`).
-/

namespace BatteryBench

/-! ### Digits that are held -/

theorem le_ofDigitChars (t : Text) (n : Nat) : n ≤ Nat.ofDigitChars 10 t n := by
  induction t generalizing n with
  | nil => exact Nat.le_refl n
  | cons c t ih =>
    rw [Nat.ofDigitChars_cons]
    exact Nat.le_trans (by omega) (ih _)

/-- Digits that come to a number of 64 bits are all held. -/
theorem holdDigits_of_lt {t : Text} (ht : IsDigits t) {held : Nat}
    (h : Nat.ofDigitChars 10 t held < 2 ^ 64) :
    holdDigits held (t.map digitOfChar) = (Nat.ofDigitChars 10 t held, 0) := by
  induction t generalizing held with
  | nil => rfl
  | cons c t ih =>
    obtain ⟨hc, ht⟩ := List.forall_mem_cons.mp ht
    have hdigit : (digitOfChar c).val = c.toNat - '0'.toNat := by
      have hlt : c.toNat - '0'.toNat < 10 := by
        have hle : c.toNat ≤ '9'.toNat := by
          have := (Bool.and_eq_true _ _ ▸ hc).2
          exact of_decide_eq_true this
        have hnine : '9'.toNat = '0'.toNat + 9 := rfl
        omega
      exact Nat.mod_eq_of_lt hlt
    rw [Nat.ofDigitChars_cons] at h ⊢
    have hfits : 10 * held + (c.toNat - '0'.toNat) < 0x10000000000000000 :=
      Nat.lt_of_le_of_lt (le_ofDigitChars t _) h
    rw [List.map_cons, holdDigits, hdigit, if_pos hfits, ih ht h]

theorem digitsOf_held {n : Nat} (h : n < 2 ^ 64) : holdDigits 0 (digitsOf n) = (n, 0) := by
  have hvalue := ofDigitChars_decimal n
  rw [digitsOf, holdDigits_of_lt (isDigits_decimal n) (hvalue.symm ▸ h), hvalue]

namespace JsonNumber

/-- Rounding does not double a number. -/
theorem nearest_le {n : Nat} (h : n ≠ 0) : Binary64.nearest n ≤ 2 * n := by
  have hunit : 2 ^ (Nat.log2 n - 52) ≤ n :=
    Nat.le_trans (Nat.pow_le_pow_right (by decide) (Nat.sub_le _ _)) (Nat.log2_self_le h)
  have hround : 2 * (roundHalfEven n (2 ^ (Nat.log2 n - 52)) * 2 ^ (Nat.log2 n - 52)) ≤ _ :=
    two_mul_roundHalfEven_le (Nat.two_pow_pos _)
  show roundHalfEven n (2 ^ (Nat.log2 n - 52)) * 2 ^ (Nat.log2 n - 52) ≤ 2 * n
  omega

/-- Without a power of ten, what a word holds does not overflow. -/
theorem productIsFinite_zero {n : Nat} (h : n < 2 ^ 64) : productIsFinite n 0 := by
  by_cases hzero : n = 0
  · subst hzero
    rfl
  · have hone : Binary64.nearest (Nat.pow 10 0) = 1 := Binary64.nearest_of_lt (by decide)
    have hbound : 2 ^ 65 ≤ Binary64.bound := by decide +kernel
    have hsmall : Binary64.nearest n < Binary64.bound := by
      have := nearest_le hzero
      omega
    show (n == 0 || (decide (0 ≤ 308) &&
      !Binary64.overflows (Binary64.nearest n * Binary64.nearest (Nat.pow 10 0)))) = true
    rw [hone, Nat.mul_one, Binary64.overflows, decide_eq_false (Nat.not_le_of_lt hsmall)]
    simp

/-- A number of at most 64 bits, whatever its sign, is finite. -/
theorem isFinite_integer (negative : Bool) {magnitude : Nat} (h : magnitude < 2 ^ 64) :
    (integer negative magnitude).isFinite := by
  have hword : significand magnitude [] 0 = (magnitude, 0) := by
    rw [significand, digitsOf_held h]
    rfl
  rw [isFinite, hword]
  exact productIsFinite_zero h

end JsonNumber

namespace Json

/-- An integer is read back in every width that has it. -/
theorem toInteger?_ofInt {w : Width} {v : Int} (h : w.contains v) :
    toInteger? w (ofInt v) = some v := by
  rw [ofInt, toInteger?, JsonNumber.toInt?_ofInt, Option.filter_some, if_pos h]

/-- An integer that is read has the width. -/
theorem contains_of_toInteger? {w : Width} {v : Json} {n : Int}
    (h : toInteger? w v = some n) : w.contains n := by
  cases v with
  | number m => exact (Option.filter_eq_some_iff.mp h).2
  | _ => cases h

/-- Whether a value is `null`, a truth value, a text, or an integer of 64 bits. -/
def isScalar : Json → Bool
  | null | bool _ => true
  | number (.integer negative magnitude) =>
    let v : Int := if negative then -magnitude else magnitude
    Width.int64.contains v || Width.uint64.contains v
  | string s => s.isSome
  | number (.scientific _ _ _ _) | array _ | object _ => false

/-- Natural numbers of 64 bits are scalars. -/
theorem isScalar_ofInt_natCast {n : Nat} (h : n < 2 ^ 64) : (ofInt n).isScalar := by
  have hcontains : Width.uint64.contains n :=
    Width.unsigned_contains_iff.mpr ⟨Int.natCast_nonneg n, by exact_mod_cast h⟩
  exact Bool.or_eq_true_iff.mpr (.inr hcontains)

/-- **Scalars can be kept as they are.** -/
theorem isPlain_of_isScalar {v : Json} (h : v.isScalar) (depth : Nat) : v.isPlain depth := by
  cases v with
  | number n =>
    cases n with
    | integer negative magnitude =>
      have hsigned : Width.int64.least = -(2 ^ 63) ∧ Width.int64.greatest = 2 ^ 63 - 1 := by decide
      have hunsigned : ∀ v, Width.uint64.contains v ↔ 0 ≤ v ∧ v < 2 ^ 64 :=
        fun _ ↦ Width.unsigned_contains_iff
      rw [isScalar, Bool.or_eq_true, Width.contains_iff, hunsigned] at h
      have hmagnitude : magnitude < 2 ^ 64 := by
        cases negative
        · rw [if_neg Bool.false_ne_true] at h
          omega
        · rw [if_pos rfl] at h
          omega
      have hfinite := JsonNumber.isFinite_integer negative hmagnitude
      cases depth <;> exact hfinite
    | scientific negative whole fraction exponent => cases h
  | null | bool b => cases depth <;> rfl
  | string s => cases depth <;> exact h
  | array elements | object members => cases h

end Json

end BatteryBench
