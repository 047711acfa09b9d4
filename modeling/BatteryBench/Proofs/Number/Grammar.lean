import BatteryBench.Number.Decimal
import BatteryBench.Proofs.Number.Digits
import Mathlib.Data.List.TakeWhile

/-!
# The grammar of numerals

A numeral is an optional sign, a mantissa and an optional exponent (`IsNumeral`); a plain numeral
has no exponent (`IsPlainNumeral`). The mantissa is digits with at most one point and at least one
digit.

A text is read as a numeral exactly if it is one (`Numeral.read?_isSome_iff`). In a reply the words
for infinity and for what is no number stand beside the numerals, so a text is read as a number
exactly if it is a numeral or, after an optional sign, such a word (`binary32?_eq_some_iff`).
-/

namespace BatteryBench

/-! ### The grammar -/

/-- An optional sign. -/
inductive IsSign : Text → Prop where
  | absent : IsSign []
  | minus : IsSign ['-']
  | plus : IsSign ['+']

/-- Digits with at most one point, and at least one digit. -/
inductive IsMantissa : Text → Prop where
  | whole {digits : Text} (hne : digits ≠ []) (hdigits : IsDigits digits) : IsMantissa digits
  | point {whole fraction : Text} (hne : whole ++ fraction ≠ []) (hwhole : IsDigits whole)
    (hfraction : IsDigits fraction) : IsMantissa (whole ++ '.' :: fraction)

/-- An optional exponent: a mark, an optional sign and one or more digits. -/
inductive IsExponent : Text → Prop where
  | absent : IsExponent []
  | present {mark : Char} {sign digits : Text} (hmark : mark = 'e' ∨ mark = 'E')
    (hsign : IsSign sign) (hne : digits ≠ []) (hdigits : IsDigits digits) :
    IsExponent (mark :: (sign ++ digits))

/-- A numeral. -/
inductive IsNumeral : Text → Prop where
  | mk {sign mantissa exponent : Text} (hsign : IsSign sign) (hmantissa : IsMantissa mantissa)
    (hexponent : IsExponent exponent) : IsNumeral (sign ++ (mantissa ++ exponent))

/-- A numeral without an exponent. -/
inductive IsPlainNumeral : Text → Prop where
  | mk {sign mantissa : Text} (hsign : IsSign sign) (hmantissa : IsMantissa mantissa) :
    IsPlainNumeral (sign ++ mantissa)

/-! ### Signs -/

namespace Numeral

/-- A text is its sign and what follows it. -/
theorem exists_isSign (t : Text) :
    ∃ sign, IsSign sign ∧ (splitSign t).1 = decide (sign = ['-']) ∧
      t = sign ++ (splitSign t).2 := by
  unfold splitSign
  split
  · exact ⟨_, .minus, rfl, rfl⟩
  · exact ⟨_, .plus, rfl, rfl⟩
  · exact ⟨_, .absent, rfl, rfl⟩

/-- A sign is split from what does not start with one. -/
theorem splitSign_append {sign t : Text} (hsign : IsSign sign) (hminus : t.head? ≠ some '-')
    (hplus : t.head? ≠ some '+') : splitSign (sign ++ t) = (decide (sign = ['-']), t) := by
  cases hsign with
  | minus => rfl
  | plus => rfl
  | absent =>
    show splitSign t = (false, t)
    unfold splitSign
    split
    · exact absurd rfl hminus
    · exact absurd rfl hplus
    · rfl

theorem splitSign_append_of_isDigits {sign digits : Text} (hsign : IsSign sign) (hne : digits ≠ [])
    (hdigits : IsDigits digits) :
    splitSign (sign ++ digits) = (decide (sign = ['-']), digits) := by
  refine splitSign_append hsign ?_ ?_
  · simpa using head?_append_of_isDigits hne hdigits (c := '-') rfl []
  · simpa using head?_append_of_isDigits hne hdigits (c := '+') rfl []

/-! ### Exponents -/

/-- Exponents are counted exactly from digits. -/
theorem exponentFrom?_isSome_iff {t : Text} (e : Nat) :
    (exponentFrom? e t).isSome ↔ IsDigits t := by
  induction t generalizing e with
  | nil => simp [exponentFrom?, IsDigits]
  | cons c t ih =>
    have hcons : IsDigits (c :: t) ↔ c.isDigit ∧ IsDigits t := List.forall_mem_cons
    rw [exponentFrom?, digitOf?_ten, hcons]
    by_cases hc : c.isDigit
    · rw [if_pos hc]
      simpa [hc] using ih _
    · rw [if_neg hc]
      simp [hc]

theorem signedExponent?_isSome_iff {t : Text} :
    (signedExponent? t).isSome ↔ (splitSign t).2 ≠ [] ∧ IsDigits (splitSign t).2 := by
  rw [signedExponent?, ← exponentFrom?_isSome_iff 0]
  dsimp only
  by_cases hnil : (splitSign t).2 = []
  · simp [hnil]
  · rw [if_neg hnil, Option.isSome_map]
    cases exponentFrom? 0 (splitSign t).2 <;> simp [hnil]

theorem exponent?_isSome_iff {t : Text} : (exponent? t).isSome ↔ IsExponent t := by
  cases t with
  | nil => simp [exponent?, IsExponent.absent]
  | cons mark rest =>
    rw [exponent?]
    constructor
    · intro h
      split at h
      · next hmark =>
        obtain ⟨hne, hdigits⟩ := signedExponent?_isSome_iff.mp h
        obtain ⟨sign, hsign, -, hrest⟩ := exists_isSign rest
        rw [hrest]
        exact .present hmark hsign hne hdigits
      · cases h
    · rintro (_ | ⟨hmark, hsign, hne, hdigits⟩)
      rw [if_pos hmark, signedExponent?_isSome_iff,
        splitSign_append_of_isDigits hsign hne hdigits]
      exact ⟨hne, hdigits⟩

/-- What follows a mantissa continues neither its digits nor its point. -/
theorem head_of_isExponent {t : Text} (h : IsExponent t) :
    t.takeWhile Char.isDigit = [] ∧ t.head? ≠ some '.' := by
  cases h with
  | absent => simp
  | present hmark =>
    obtain rfl | rfl := hmark <;> exact ⟨List.takeWhile_cons_of_neg (by decide), by simp⟩

/-! ### Mantissas -/

theorem takeWhile_digits_append {digits rest : Text} (hd : IsDigits digits)
    (hr : rest.takeWhile Char.isDigit = []) :
    (digits ++ rest).takeWhile Char.isDigit = digits :=
  takeWhile_append_of_stop hd hr

theorem dropWhile_digits_append {digits rest : Text} (hd : IsDigits digits)
    (hr : rest.takeWhile Char.isDigit = []) : (digits ++ rest).dropWhile Char.isDigit = rest :=
  dropWhile_append_of_stop hd hr

/-- Digits are split from what continues neither them nor a point. -/
theorem splitDigits_whole {whole rest : Text} (hw : IsDigits whole)
    (hr : rest.takeWhile Char.isDigit = []) (hpoint : rest.head? ≠ some '.') :
    splitDigits (whole ++ rest) = (whole, [], rest) := by
  rw [splitDigits, takeWhile_digits_append hw hr, dropWhile_digits_append hw hr]
  split
  · exact absurd rfl hpoint
  · rfl

/-- Digits around a point are split from what continues no digits. -/
theorem splitDigits_point {whole fraction rest : Text} (hw : IsDigits whole)
    (hf : IsDigits fraction) (hr : rest.takeWhile Char.isDigit = []) :
    splitDigits (whole ++ '.' :: (fraction ++ rest)) = (whole, fraction, rest) := by
  have hstop : ('.' :: (fraction ++ rest)).takeWhile Char.isDigit = [] :=
    List.takeWhile_cons_of_neg (by decide)
  simp only [splitDigits, takeWhile_digits_append hw hstop, dropWhile_digits_append hw hstop,
    takeWhile_digits_append hf hr, dropWhile_digits_append hf hr]

theorem exists_splitDigits (t : Text) :
    ∃ whole fraction rest, splitDigits t = (whole, fraction, rest) ∧ IsDigits whole ∧
      IsDigits fraction ∧
      (fraction = [] ∧ t = whole ++ rest ∨ t = whole ++ '.' :: fraction ++ rest) := by
  have hdigits : ∀ s : Text, IsDigits (s.takeWhile Char.isDigit) :=
    fun _ _ hc ↦ List.mem_takeWhile_imp hc
  have hsplit := List.takeWhile_append_dropWhile (p := Char.isDigit) (l := t)
  rw [splitDigits]
  split
  · next rest hrest =>
    refine ⟨_, _, _, rfl, hdigits t, hdigits rest, .inr ?_⟩
    rw [List.append_assoc, List.cons_append, List.takeWhile_append_dropWhile, ← hrest, hsplit]
  · exact ⟨_, _, _, rfl, hdigits t, by simp [IsDigits], .inl ⟨rfl, hsplit.symm⟩⟩

/-- Digits around the parting of a mantissa, and an exponent after them. -/
theorem unsigned?_isSome_iff_of_splitDigits {negative : Bool} {t whole fraction rest : Text}
    (h : splitDigits t = (whole, fraction, rest)) :
    (unsigned? negative t).isSome ↔
      (whole ++ fraction ≠ [] ∧ IsDigits (whole ++ fraction)) ∧ IsExponent rest := by
  have hnatural : (natural? 10 (whole ++ fraction)).isSome ↔
      whole ++ fraction ≠ [] ∧ IsDigits (whole ++ fraction) := by
    simp [Option.isSome_iff_exists, natural?_ten_eq_some_iff]
  rw [unsigned?, h, ← exponent?_isSome_iff, ← hnatural]
  dsimp only
  cases natural? 10 (whole ++ fraction) <;> cases exponent? rest <;> simp

/-- What is read without a sign is a mantissa and an exponent. -/
theorem unsigned?_isSome_iff {negative : Bool} {t : Text} :
    (unsigned? negative t).isSome ↔
      ∃ mantissa exponent, IsMantissa mantissa ∧ IsExponent exponent ∧
        t = mantissa ++ exponent := by
  constructor
  · intro h
    obtain ⟨whole, fraction, rest, hsplit, hwhole, hfraction, ht⟩ := exists_splitDigits t
    obtain ⟨⟨hne, -⟩, hrest⟩ := (unsigned?_isSome_iff_of_splitDigits hsplit).mp h
    rcases ht with ⟨rfl, ht⟩ | ht
    · exact ⟨whole, rest, .whole (by simpa using hne) hwhole, hrest, ht⟩
    · exact ⟨_, rest, .point hne hwhole hfraction, hrest, ht⟩
  · rintro ⟨mantissa, exponent, hmantissa, hexponent, rfl⟩
    obtain ⟨hdigit, hpoint⟩ := head_of_isExponent hexponent
    cases hmantissa with
    | whole hne hdigits =>
      rw [unsigned?_isSome_iff_of_splitDigits (splitDigits_whole hdigits hdigit hpoint)]
      simpa using ⟨⟨hne, hdigits⟩, hexponent⟩
    | point hne hwhole hfraction =>
      rw [List.append_assoc, List.cons_append,
        unsigned?_isSome_iff_of_splitDigits (splitDigits_point hwhole hfraction hdigit)]
      exact ⟨⟨hne, hwhole.append hfraction⟩, hexponent⟩

/-! ### Numerals -/

/-- A mantissa does not start with a sign. -/
theorem head_of_isMantissa {mantissa : Text} (h : IsMantissa mantissa) (rest : Text) {c : Char}
    (hdigit : c.isDigit = false) (hpoint : c ≠ '.') : (mantissa ++ rest).head? ≠ some c := by
  cases h with
  | whole hne hdigits => exact head?_append_of_isDigits hne hdigits hdigit rest
  | @point whole fraction hne hwhole hfraction =>
    by_cases hnil : whole = []
    · subst hnil
      simpa using hpoint.symm
    · rw [List.append_assoc]
      exact head?_append_of_isDigits hnil hwhole hdigit _

/-- **A text is read as a numeral exactly if it is one.** -/
theorem read?_isSome_iff {t : Text} : (read? t).isSome ↔ IsNumeral t := by
  rw [read?, unsigned?_isSome_iff]
  constructor
  · rintro ⟨mantissa, exponent, hmantissa, hexponent, hrest⟩
    obtain ⟨sign, hsign, -, ht⟩ := exists_isSign t
    rw [ht, hrest]
    exact .mk hsign hmantissa hexponent
  · rintro ⟨hsign, hmantissa, hexponent⟩
    rw [splitSign_append hsign]
    · exact ⟨_, _, hmantissa, hexponent, rfl⟩
    · exact head_of_isMantissa hmantissa _ (by decide) (by decide)
    · exact head_of_isMantissa hmantissa _ (by decide) (by decide)

end Numeral

/-! ### Numbers in replies -/

theorem binary32?_of_read? {t : Text} {n : Numeral} (h : Numeral.read? t = some n) :
    binary32? t = some n.toBinary32 := by
  rw [binary32?, h]

/-- The word for infinity or for what is no number, after an optional sign, and what it stands for.
-/
inductive IsValueWord : Text → Binary32 → Prop where
  | infinity {sign word : Text} (hsign : IsSign sign)
    (hword : word.map lowerCase = "inf" ∨ word.map lowerCase = "infinity") :
    IsValueWord (sign ++ word) (.infinity (decide (sign = ['-'])))
  | nan {sign word : Text} (hsign : IsSign sign) (hword : word.map lowerCase = "nan") :
    IsValueWord (sign ++ word) { Binary32.nan with negative := decide (sign = ['-']) }

theorem IsValueWord.isFinite_eq_false {t : Text} {x : Binary32} (h : IsValueWord t x) :
    x.isFinite = false := by
  cases h <;> rfl

theorem lowerCase_of_lt {c : Char} (h : c.toNat < 'A'.toNat) : lowerCase c = c := by
  have hupper : ¬ 'A'.val ≤ c.val := fun hle ↦
    Nat.not_lt_of_le (UInt32.le_iff_toNat_le.mp hle) h
  exact dif_neg fun hboth ↦ hupper hboth.1

theorem isDigit_of_le {c : Char} (h : 'A'.toNat ≤ c.toNat) : c.isDigit = false := by
  have hnine : ¬c.val ≤ '9'.val := fun hle ↦
    absurd (Nat.le_trans h (UInt32.le_iff_toNat_le.mp hle)) (by decide)
  rw [Char.isDigit, decide_eq_false hnine, Bool.and_false]

/-- What is a word in lower case starts with a letter. -/
theorem exists_cons_of_word {word : Text} {letter : Char} {letters : Text}
    (h : word.map lowerCase = letter :: letters) (hletter : 'A'.toNat ≤ letter.toNat) :
    ∃ c rest, word = c :: rest ∧ 'A'.toNat ≤ c.toNat := by
  obtain ⟨c, rest, rfl, hc, -⟩ := List.map_eq_cons_iff.mp h
  refine ⟨c, rest, rfl, Nat.le_of_not_lt fun hlt ↦ ?_⟩
  rw [lowerCase_of_lt hlt] at hc
  exact Nat.not_lt_of_le hletter (hc ▸ hlt)

/-- What starts with a letter after its sign is no numeral. -/
theorem read?_eq_none_of_letter {sign : Text} {c : Char} (hsign : IsSign sign)
    (hc : 'A'.toNat ≤ c.toNat) (rest : Text) :
    Numeral.splitSign (sign ++ c :: rest) = (decide (sign = ['-']), c :: rest) ∧
      Numeral.read? (sign ++ c :: rest) = none := by
  have hne : ∀ d : Char, d.toNat < 'A'.toNat → (c :: rest).head? ≠ some d := by
    rintro d hd ⟨⟩
    omega
  have hsplit := Numeral.splitSign_append hsign (hne '-' (by decide)) (hne '+' (by decide))
  have hstop : (c :: rest).takeWhile Char.isDigit = [] :=
    List.takeWhile_cons_of_neg (by simp [isDigit_of_le hc])
  have hempty : IsDigits [] := List.forall_mem_nil _
  have hdigits : Numeral.splitDigits (c :: rest) = ([], [], c :: rest) :=
    Numeral.splitDigits_whole hempty hstop (hne '.' (by decide))
  refine ⟨hsplit, ?_⟩
  rw [Numeral.read?, hsplit, ← Option.not_isSome_iff_eq_none,
    Numeral.unsigned?_isSome_iff_of_splitDigits hdigits]
  simp

/-- **A text is read as a number exactly if it is a numeral or a word for a value.** -/
theorem binary32?_eq_some_iff {t : Text} {x : Binary32} :
    binary32? t = some x ↔
      (∃ n, Numeral.read? t = some n ∧ n.toBinary32 = x) ∨ IsValueWord t x := by
  constructor
  · intro h
    rw [binary32?] at h
    split at h
    · next n hn => exact .inl ⟨n, hn, Option.some.inj h⟩
    · obtain ⟨sign, hsign, hminus, ht⟩ := Numeral.exists_isSign t
      refine .inr ?_
      rw [ht]
      rw [hminus, wordBinary32?] at h
      split_ifs at h with hinfinity hnan
      · exact Option.some.inj h ▸ .infinity hsign hinfinity
      · exact Option.some.inj h ▸ .nan hsign hnan
  · rintro (⟨n, hn, rfl⟩ | h)
    · exact binary32?_of_read? hn
    · cases h with
      | @infinity sign word hsign hword =>
        obtain ⟨c, rest, rfl, hc⟩ : ∃ c rest, word = c :: rest ∧ 'A'.toNat ≤ c.toNat := by
          rcases hword with hword | hword <;> exact exists_cons_of_word hword (by decide)
        obtain ⟨hsplit, hread⟩ := read?_eq_none_of_letter hsign hc rest
        rw [binary32?, hread, hsplit]
        exact if_pos hword
      | @nan sign word hsign hword =>
        obtain ⟨c, rest, rfl, hc⟩ := exists_cons_of_word hword (by decide)
        obtain ⟨hsplit, hread⟩ := read?_eq_none_of_letter hsign hc rest
        rw [binary32?, hread, hsplit]
        show wordBinary32? _ (c :: rest) = _
        rw [wordBinary32?, hword]
        rfl

end BatteryBench
