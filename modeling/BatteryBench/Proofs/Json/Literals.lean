import BatteryBench.Json.Printer
import BatteryBench.Json.Reader
import BatteryBench.Proofs.Number.Digits
import Mathlib.Tactic.SplitIfs

/-!
# Literals of JSON

A string or a number that was written is read as itself, whatever text follows. For a string nothing
is asked of that text, since the quote closes the literal (`takeString?_flatMap_escapeChar`). A
number has no end of its own: what follows must be nothing that a number could go on with
(`EndsNumber`, `takeNumber?_numberText`).
-/

namespace BatteryBench

namespace Json

/-! ### Strings -/

/-- The part of a string literal that a character is written as. -/
def unitOf (c : Char) : StringUnit :=
  if escapeLetter? c = none ∧ c.toNat < 0x20 then .escaped c.toNat else .char c

/-- Two hexadecimal digits are enough for a control character. -/
theorem fourDigits?_hexDigit {n : Nat} (h : n < 0x20) :
    fourDigits? '0' '0' (hexDigit (n / 16)) (hexDigit n) = some n := by
  revert n
  decide

/-- A character that is written is read, and reading goes on behind it. -/
theorem stringUnits?_escapeChar (c : Char) (rest : Text) :
    stringUnits? (escapeChar c ++ rest) =
      (stringUnits? rest).map fun r ↦ (unitOf c :: r.1, r.2) := by
  rw [escapeChar]
  cases hletter : escapeLetter? c with
  | some letter =>
    have hunit : unitOf c = .char c := if_neg fun ⟨hnone, _⟩ ↦ nomatch hletter.symm.trans hnone
    rw [hunit]
    -- The letter says which character it was, and is none that four digits go with.
    unfold escapeLetter? at hletter
    split at hletter <;> cases hletter <;> rfl
  | none =>
    dsimp only
    split_ifs with hcontrol
    · have hunit : unitOf c = .escaped c.toNat := if_pos ⟨hletter, hcontrol⟩
      simp only [List.cons_append, List.nil_append, stringUnits?, fourDigits?_hexDigit hcontrol,
        hunit]
    · have hunit : unitOf c = .char c := if_neg fun h ↦ hcontrol h.2
      have hquote : c ≠ '"' := by
        rintro rfl
        exact absurd hletter (by decide)
      have hbackslash : c ≠ '\\' := by
        rintro rfl
        exact absurd hletter (by decide)
      have hplain : ¬(c.toNat < 0x20 ∨ c = '\\') := not_or.mpr ⟨hcontrol, hbackslash⟩
      rw [List.cons_append, List.nil_append, stringUnits?, if_neg hplain, hunit]
      · exact hquote
      · exact fun _ _ _ _ _ h ↦ absurd h hbackslash
      · exact fun _ _ h ↦ absurd h hbackslash

/-- A string literal is read up to its closing quote. -/
theorem stringUnits?_flatMap_escapeChar (s rest : Text) :
    stringUnits? (s.flatMap escapeChar ++ '"' :: rest) = some (s.map unitOf, rest) := by
  induction s with
  | nil => rfl
  | cons c s ih =>
    rw [List.flatMap_cons, List.append_assoc, stringUnits?_escapeChar, ih]
    rfl

/-- A number that is no half of a pair stands for its own character, whatever part follows. -/
theorem joinUnits?_escaped {n : Nat} (hhigh : isHighHalf n = false) (hlow : isLowHalf n = false)
    (units : List StringUnit) :
    joinUnits? (.escaped n :: units) = (joinUnits? units).map (Char.ofNat n :: ·) := by
  cases units with
  | nil => simp [joinUnits?, hhigh, hlow]
  | cons u units =>
    cases u with
    | char c => simp [joinUnits?, hhigh, hlow]
    | escaped m => simp [joinUnits?, hhigh, hlow]

/-- The parts that characters are written as spell these characters. -/
theorem joinUnits?_map_unitOf (s : Text) : joinUnits? (s.map unitOf) = some s := by
  induction s with
  | nil => rfl
  | cons c s ih =>
    rw [List.map_cons, unitOf]
    split_ifs with hcontrol
    · obtain ⟨-, hsmall⟩ := hcontrol
      have hhigh : isHighHalf c.toNat = false := decide_eq_false (by omega)
      have hlow : isLowHalf c.toNat = false := decide_eq_false (by omega)
      rw [joinUnits?_escaped hhigh hlow, ih, Option.map_some, Char.ofNat_toNat]
    · rw [joinUnits?, ih, Option.map_some]

/-- **A string that was written is read as itself**, up to the closing quote. -/
theorem takeString?_flatMap_escapeChar (s rest : Text) :
    takeString? (s.flatMap escapeChar ++ '"' :: rest) = some (some s, rest) := by
  rw [takeString?, stringUnits?_flatMap_escapeChar, Option.map_some, joinUnits?_map_unitOf]

/-! ### Numbers -/

/-- Whether a text starts with no digit. -/
def EndsDigits (rest : Text) : Prop := ∀ c, rest.head? = some c → c.isDigit = false

/-- Whether a text starts with nothing that a number could go on with. -/
def EndsNumber (rest : Text) : Prop :=
  ∀ c, rest.head? = some c → c.isDigit = false ∧ c ≠ '.' ∧ c ≠ 'e' ∧ c ≠ 'E'

theorem EndsNumber.endsDigits {rest : Text} (h : EndsNumber rest) : EndsDigits rest :=
  fun c hc ↦ (h c hc).1

theorem endsNumber_nil : EndsNumber [] := fun _ h ↦ nomatch h

theorem endsNumber_cons {c : Char} (hdigit : c.isDigit = false) (hpoint : c ≠ '.')
    (hlower : c ≠ 'e') (hupper : c ≠ 'E') (rest : Text) : EndsNumber (c :: rest) := by
  intro d hd
  obtain rfl : c = d := Option.some.inj hd
  exact ⟨hdigit, hpoint, hlower, hupper⟩

theorem takeWhile_isDigit {rest : Text} (h : EndsDigits rest) :
    rest.takeWhile Char.isDigit = [] := by
  cases rest with
  | nil => rfl
  | cons c rest => exact List.takeWhile_cons_of_neg (by simp [h c rfl])

/-- One or more digits are taken, up to the first character that is none. -/
theorem takeDigits?_append {digits rest : Text} (hne : digits ≠ []) (hdigits : IsDigits digits)
    (h : EndsDigits rest) : takeDigits? (digits ++ rest) = some (digits, rest) := by
  have htake := takeWhile_append_of_stop hdigits (takeWhile_isDigit h)
  have hdrop := dropWhile_append_of_stop hdigits (takeWhile_isDigit h)
  rw [takeDigits?, htake, hdrop]
  exact if_neg hne

/-- A number is written without leading zeros, so all of it is taken before the point. -/
theorem takeWhole?_decimal (n : Nat) {rest : Text} (h : EndsDigits rest) :
    takeWhole? (decimal n ++ rest) = some (decimal n, rest) := by
  rw [takeWhole?, takeDigits?_append (decimal_ne_nil n) (isDigits_decimal n) h]
  refine if_neg fun ⟨hzero, hlong⟩ ↦ ?_
  rcases Nat.eq_zero_or_pos n with rfl | hpos
  · exact hlong rfl
  · exact head?_decimal_ne_zero hpos hzero

theorem digitOfChar_digitChar (d : Digit) : digitOfChar (Nat.digitChar d.val) = d := by
  revert d
  decide

theorem isDigits_map_digitChar (fraction : List Digit) :
    IsDigits (fraction.map fun d ↦ Nat.digitChar d.val) := by
  have hdigit : ∀ d : Digit, (Nat.digitChar d.val).isDigit := by decide
  intro c hc
  obtain ⟨d, -, rfl⟩ := List.mem_map.mp hc
  exact hdigit d

theorem map_digitOfChar_digitChar (fraction : List Digit) :
    (fraction.map fun d ↦ Nat.digitChar d.val).map digitOfChar = fraction := by
  rw [List.map_map]
  exact List.map_id'' digitOfChar_digitChar fraction

/-- Without a point nothing is taken after it. -/
theorem takeFraction?_of_head? {rest : Text} (h : rest.head? ≠ some '.') :
    takeFraction? rest = some (none, rest) := by
  rw [takeFraction?]
  exact fun t ht ↦ h (ht ▸ rfl)

/-- The digits after a point are read back one by one. -/
theorem takeFraction?_fractionText {fraction : List Digit} {rest : Text} (h : EndsDigits rest)
    (hpoint : rest.head? ≠ some '.') :
    takeFraction? (fractionText fraction ++ rest) =
      some (if fraction = [] then none else some fraction, rest) := by
  rw [fractionText]
  split_ifs with hempty
  · exact takeFraction?_of_head? hpoint
  · have hne : (fraction.map fun d ↦ Nat.digitChar d.val) ≠ [] := by simpa using hempty
    rw [List.cons_append, takeFraction?, takeDigits?_append hne (isDigits_map_digitChar fraction) h,
      Option.map_some, map_digitOfChar_digitChar]

/-- Without its mark no exponent is taken. -/
theorem takeExponent?_of_endsNumber {rest : Text} (h : EndsNumber rest) :
    takeExponent? rest = some (none, rest) := by
  cases rest with
  | nil => rfl
  | cons c rest =>
    obtain ⟨-, -, hlower, hupper⟩ := h c rfl
    exact if_neg (not_or.mpr ⟨hlower, hupper⟩)

/-- An exponent is read back with its sign. -/
theorem takeExponent?_signedDecimal (exponent : Int) {rest : Text} (h : EndsDigits rest) :
    takeExponent? ('e' :: (signedDecimal exponent ++ rest)) = some (some exponent, rest) := by
  have hdigits : ∀ n, takeDigits? (decimal n ++ rest) = some (decimal n, rest) := fun n ↦
    takeDigits?_append (decimal_ne_nil n) (isDigits_decimal n) h
  cases exponent with
  | ofNat n =>
    -- Digits start with no sign, so the reader takes them as they are.
    have hsign : ∀ {c : Char} {digits : Text}, c.isDigit = false →
        decimal n ++ rest = c :: digits → False := by
      intro c digits hc heq
      refine head?_append_of_isDigits (decimal_ne_nil n) (isDigits_decimal n) hc rest ?_
      rw [heq, List.head?_cons]
    rw [signedDecimal, takeExponent?, if_pos (.inl rfl), hdigits, Option.map_some,
      ofDigitChars_decimal]
    · rfl
    · exact fun _ ↦ hsign (by decide)
    · exact fun _ ↦ hsign (by decide)
  | negSucc n =>
    rw [signedDecimal, List.cons_append, takeExponent?, if_pos (.inl rfl), hdigits, Option.map_some,
      ofDigitChars_decimal]
    rfl

/-! ### Whole numbers -/

/-- The magnitude of an integer is read as itself. -/
theorem takeMagnitude?_integer (negative : Bool) (magnitude : Nat) {rest : Text}
    (h : EndsNumber rest) :
    takeMagnitude? negative (decimal magnitude ++ rest) =
      some (.integer negative magnitude, rest) := by
  have hpoint : rest.head? ≠ some '.' := fun hc ↦ (h _ hc).2.1 rfl
  simp only [takeMagnitude?, Option.bind_eq_bind, Option.bind_some,
    takeWhole?_decimal magnitude h.endsDigits, takeFraction?_of_head? hpoint,
    takeExponent?_of_endsNumber h, ofDigitChars_decimal]
  rfl

/-- So is that of a number with an exponent. -/
theorem takeMagnitude?_scientific (negative : Bool) (whole : Nat) (fraction : List Digit)
    (exponent : Int) {rest : Text} (h : EndsNumber rest) :
    takeMagnitude? negative
        (decimal whole ++ (fractionText fraction ++ 'e' :: (signedDecimal exponent ++ rest))) =
      some (.scientific negative whole fraction exponent, rest) := by
  have hmark : EndsDigits ('e' :: (signedDecimal exponent ++ rest)) := by
    intro c hc
    obtain rfl : 'e' = c := Option.some.inj hc
    rfl
  have hfraction :
      EndsDigits (fractionText fraction ++ 'e' :: (signedDecimal exponent ++ rest)) := by
    rw [fractionText]
    split_ifs
    · exact hmark
    · intro c hc
      obtain rfl : '.' = c := Option.some.inj hc
      rfl
  have hpoint : ('e' :: (signedDecimal exponent ++ rest)).head? ≠ some '.' := nofun
  simp only [takeMagnitude?, Option.bind_eq_bind, Option.bind_some,
    takeWhole?_decimal whole hfraction, takeFraction?_fractionText hmark hpoint,
    takeExponent?_signedDecimal exponent h.endsDigits, ofDigitChars_decimal]
  by_cases hempty : fraction = [] <;> simp [hempty]

/-- A number is written with a minus sign or starts with a digit. -/
theorem takeNumber?_sign (negative : Bool) (n : Nat) (t : Text) :
    takeNumber? ((if negative then ['-'] else []) ++ (decimal n ++ t)) =
      takeMagnitude? negative (decimal n ++ t) := by
  cases negative with
  | true => rfl
  | false =>
    refine takeNumber?.eq_2 _ fun rest heq ↦ ?_
    refine head?_append_of_isDigits (decimal_ne_nil n) (isDigits_decimal n)
      (show '-'.isDigit = false by decide) t ?_
    exact congrArg List.head? heq

/-- **A number that was written is read as itself**, if nothing that follows belongs to it. -/
theorem takeNumber?_numberText (n : JsonNumber) {rest : Text} (h : EndsNumber rest) :
    takeNumber? (numberText n ++ rest) = some (n, rest) := by
  cases n with
  | integer negative magnitude =>
    rw [numberText, List.append_assoc, takeNumber?_sign,
      takeMagnitude?_integer negative magnitude h]
  | scientific negative whole fraction exponent =>
    rw [numberText, List.append_assoc, List.append_assoc, List.append_assoc, takeNumber?_sign,
      List.cons_append, takeMagnitude?_scientific negative whole fraction exponent h]

end Json

end BatteryBench
