import BatteryBench.Number.Integer
import BatteryBench.Proofs.Text.Pieces
import Mathlib.Algebra.Group.Nat.Defs
import Mathlib.Data.List.Induction

/-!
# Decimal digits

What a text of decimal digits is worth is `Nat.ofDigitChars`. Every number is worth what it is
written as (`ofDigitChars_decimal`), and a text is read as a number in base ten exactly when it is
one or more digits, and then as what they are worth (`natural?_ten_eq_some_iff`).
-/

namespace BatteryBench

/-- Whether a text is nothing but decimal digits. -/
def IsDigits (t : Text) : Prop := ∀ c ∈ t, c.isDigit

instance (t : Text) : Decidable (IsDigits t) := List.decidableBAll _ t

theorem IsDigits.append {s t : Text} (hs : IsDigits s) (ht : IsDigits t) : IsDigits (s ++ t) := by
  intro c hc
  rcases List.mem_append.mp hc with hc | hc
  · exact hs c hc
  · exact ht c hc

/-- What starts with a digit starts with nothing else. -/
theorem head?_append_of_isDigits {c : Char} {whole : Text} (hne : whole ≠ [])
    (hw : IsDigits whole) (hc : c.isDigit = false) (rest : Text) :
    (whole ++ rest).head? ≠ some c := by
  obtain ⟨d, ds, rfl⟩ := List.exists_cons_of_ne_nil hne
  have hd := hw d List.mem_cons_self
  rw [List.cons_append, List.head?_cons]
  rintro ⟨⟩
  rw [hd] at hc
  cases hc

theorem isDigits_replicate_zero (n : Nat) : IsDigits (List.replicate n '0') := by
  intro c hc
  obtain rfl := List.eq_of_mem_replicate hc
  decide

/-! ### Writing -/

theorem isDigits_decimal (n : Nat) : IsDigits (decimal n) :=
  fun _ hc ↦ Nat.isDigit_of_mem_toDigits (by decide) (by decide) hc

theorem decimal_ne_nil (n : Nat) : decimal n ≠ [] := Nat.toDigits_ne_nil

theorem exists_decimal_cons (n : Nat) : ∃ d ds, decimal n = d :: ds ∧ d.isDigit := by
  obtain ⟨d, ds, hd⟩ := List.exists_cons_of_ne_nil (decimal_ne_nil n)
  exact ⟨d, ds, hd, isDigits_decimal n d (hd ▸ List.mem_cons_self)⟩

/-- A number is worth what it is written as. -/
theorem ofDigitChars_decimal (n : Nat) : Nat.ofDigitChars 10 (decimal n) 0 = n :=
  Nat.ofDigitChars_ten_toDigits

/-- No number but zero starts with a zero. -/
theorem head?_decimal_ne_zero {n : Nat} (h : 0 < n) : (decimal n).head? ≠ some '0' := by
  induction n using Nat.strongRecOn with
  | ind n ih =>
    by_cases hlt : n < 10
    · rw [decimal, Nat.toDigits_of_lt_base hlt, List.head?_cons, ne_eq, Option.some.injEq,
        Nat.digitChar_eq_zero]
      exact Nat.ne_of_gt h
    · have hle : 10 ≤ n := Nat.le_of_not_lt hlt
      have hfirst := ih (n / 10) (by omega) (by omega)
      rw [decimal, Nat.toDigits_of_base_le (by decide) hle, ← decimal, List.head?_append]
      obtain ⟨d, ds, hd, -⟩ := exists_decimal_cons (n / 10)
      rw [hd] at hfirst ⊢
      exact hfirst

/-- A digit is what its worth is written as. -/
theorem decimal_of_isDigit {c : Char} (hc : c.isDigit) : decimal (c.toNat - '0'.toNat) = [c] := by
  have hrange : '0'.toNat ≤ c.toNat ∧ c.toNat ≤ '9'.toNat := by
    rw [Char.isDigit, Bool.and_eq_true, decide_eq_true_eq, decide_eq_true_eq, ge_iff_le,
      UInt32.le_iff_toNat_le, UInt32.le_iff_toNat_le] at hc
    exact hc
  simp only [Char.reduceToNat] at hrange ⊢
  have hlt : c.toNat - 48 < 10 := by omega
  have hchar : Nat.digitChar (c.toNat - 48) = c := by
    rw [← Char.toNat_inj, Nat.toNat_digitChar_of_lt_ten hlt]
    omega
  rw [decimal, Nat.toDigits_of_lt_base hlt, hchar]

/-- **Digits without a leading zero are what their worth is written as.** -/
theorem decimal_ofDigitChars {t : Text} (hne : t ≠ []) (ht : IsDigits t)
    (hzero : t.head? = some '0' → t.length = 1) : decimal (Nat.ofDigitChars 10 t 0) = t := by
  -- Numbers grow at their end, so the last digit is taken off.
  induction t using List.reverseRecOn with
  | nil => exact absurd rfl hne
  | append_singleton s c ih =>
    have hs : IsDigits s := fun d hd ↦ ht d (List.mem_append_left _ hd)
    have hc := decimal_of_isDigit (ht c (List.mem_append_right _ List.mem_cons_self))
    rw [Nat.ofDigitChars_append, Nat.ofDigitChars_cons, Nat.ofDigitChars_nil]
    by_cases hnil : s = []
    · rw [hnil, Nat.ofDigitChars_nil, Nat.mul_zero, Nat.zero_add, hc, List.nil_append]
    · have hhead : s.head? ≠ some '0' := fun h ↦ by
        have hlength := hzero (by rw [List.head?_append, h]; rfl)
        rw [List.length_append, List.length_singleton] at hlength
        exact hnil (List.length_eq_zero_iff.mp (by omega))
      have hfirst := ih hnil hs fun h ↦ absurd h hhead
      have hpos : 0 < Nat.ofDigitChars 10 s 0 := Nat.pos_of_ne_zero fun h ↦ by
        rw [h] at hfirst
        exact hhead (hfirst ▸ rfl)
      have hlt : c.toNat - '0'.toNat < 10 := by
        have hlength : (decimal (c.toNat - '0'.toNat)).length ≤ 1 :=
          Nat.le_of_eq (congrArg List.length hc)
        exact (Nat.length_toDigits_le_iff (by decide) (by decide)).mp hlength
      rw [decimal, ← Nat.toDigits_append_toDigits (by decide) hpos hlt, ← decimal, ← decimal,
        hfirst, hc]

theorem length_decimal_le_iff {n k : Nat} (h : 0 < k) :
    (decimal n).length ≤ k ↔ n < 10 ^ k :=
  Nat.length_toDigits_le_iff (by decide) h

/-- The number that one or more decimal digits are worth. -/
def number? (t : Text) : Option Nat :=
  if t ≠ [] ∧ IsDigits t then some (Nat.ofDigitChars 10 t 0) else none

theorem number?_decimal (n : Nat) : number? (decimal n) = some n := by
  rw [number?, if_pos ⟨decimal_ne_nil n, isDigits_decimal n⟩, ofDigitChars_decimal]

/-! ### Reading -/

/-- The decimal digits are the characters from `0` to `9`. -/
theorem digitOf?_ten (c : Char) :
    digitOf? 10 c = if c.isDigit then some (c.toNat - '0'.toNat) else none := by
  have hval : ∀ d : Char, d.val.toNat = d.toNat := fun _ ↦ rfl
  unfold digitOf? digitValue?
  simp only [Char.isDigit, Char.le_def, UInt32.le_iff_toNat_le, hval, Char.reduceVal,
    UInt32.reduceToNat, Char.reduceToNat, ge_iff_le, Bool.and_eq_true, decide_eq_true_eq]
  split
  · next h => simp [Option.filter]; omega
  · split
    · simp [Option.filter]
    · split <;> simp [Option.filter]

theorem digitsFrom?_ten {t : Text} (ht : IsDigits t) (acc : Nat) :
    digitsFrom? 10 acc t = some (Nat.ofDigitChars 10 t acc) := by
  induction t generalizing acc with
  | nil => rfl
  | cons c t ih =>
    have hc : digitOf? 10 c = some (c.toNat - '0'.toNat) := by
      rw [digitOf?_ten, if_pos (ht c (by simp))]
    rw [digitsFrom?, hc, Nat.ofDigitChars_cons]
    exact ih (fun d hd ↦ ht d (List.mem_cons_of_mem c hd)) _

/-- Only digits are read as a number. -/
theorem isDigits_of_digitsFrom? {t : Text} {acc n : Nat} (h : digitsFrom? 10 acc t = some n) :
    IsDigits t := by
  induction t generalizing acc with
  | nil => simp [IsDigits]
  | cons c t ih =>
    rw [digitsFrom?, digitOf?_ten] at h
    by_cases hc : c.isDigit
    · rw [if_pos hc] at h
      intro d hd
      rcases List.mem_cons.mp hd with rfl | hd
      · exact hc
      · exact ih h d hd
    · rw [if_neg hc] at h
      cases h

/-- **A text is a number in base ten exactly when it is one or more digits**, and the number is what
they are worth. -/
theorem natural?_ten_eq_some_iff {t : Text} {n : Nat} :
    natural? 10 t = some n ↔ t ≠ [] ∧ IsDigits t ∧ Nat.ofDigitChars 10 t 0 = n := by
  rw [natural?]
  by_cases hnil : t = []
  · simp [hnil]
  · rw [if_neg hnil]
    constructor
    · intro h
      have ht := isDigits_of_digitsFrom? h
      rw [digitsFrom?_ten ht] at h
      exact ⟨hnil, ht, Option.some.inj h⟩
    · rintro ⟨-, ht, rfl⟩
      exact digitsFrom?_ten ht 0

theorem natural?_decimal (n : Nat) : natural? 10 (decimal n) = some n :=
  natural?_ten_eq_some_iff.mpr ⟨decimal_ne_nil n, isDigits_decimal n, ofDigitChars_decimal n⟩

end BatteryBench
