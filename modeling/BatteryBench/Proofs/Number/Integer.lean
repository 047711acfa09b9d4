import BatteryBench.Proofs.Number.Grammar
import BatteryBench.Proofs.Text.Padding
import BatteryBench.Reply
import Mathlib.Algebra.Group.Int.Defs
import Mathlib.Data.List.Forall2
import Mathlib.Data.Nat.Digits.Defs
import Mathlib.Data.Set.Defs
import Mathlib.Tactic.Ring

/-!
# The grammar of integers

An integer is written in decimal with an optional sign, or without one in a base that a mark after
`#` announces (`WritesInteger`). What digits are worth is said by `Nat.ofDigits`, which counts from
the last digit on, while they are read from the first one on.

A text is read as an integer of a width exactly if it writes one, padding aside, and the integer is
in the range of the width and in the one of signed integers of 64 bits (`Reply.integer_eq_ok_iff`).
No value wraps: digits are added up without a bound, and the ranges are looked at afterwards.
-/

namespace BatteryBench

/-! ### The grammar -/

/-- That a character is a digit of a base, letters in either case, and which one. -/
def IsDigitOf (base : Nat) (c : Char) (d : Nat) : Prop :=
  d < base ∧ (c = Nat.digitChar d ∨ c = (Nat.digitChar d).toUpper)

/-- That a text is one or more digits of a base, and the number that they are worth. -/
def WritesNatural (base : Nat) (t : Text) (n : Nat) : Prop :=
  t ≠ [] ∧ ∃ ds, List.Forall₂ (IsDigitOf base) t ds ∧ n = Nat.ofDigits base ds.reverse

/-- That a mark announces a base. -/
def IsMark (mark : Char) (base : Nat) : Prop :=
  (mark = 'H' ∨ mark = 'h') ∧ base = 16 ∨
    (mark = 'Q' ∨ mark = 'q') ∧ base = 8 ∨ (mark = 'B' ∨ mark = 'b') ∧ base = 2

/-- That a text is an integer in decimal or in a marked base, and which one. -/
inductive WritesInteger : Text → Int → Prop where
  | decimal {sign digits : Text} {n : Nat} (hsign : IsSign sign)
    (hdigits : WritesNatural 10 digits n) :
    WritesInteger (sign ++ digits) (if sign = ['-'] then -(n : Int) else n)
  | marked {mark : Char} {base : Nat} {digits : Text} {n : Nat} (hmark : IsMark mark base)
    (hdigits : WritesNatural base digits n) : WritesInteger ('#' :: mark :: digits) n

/-- The integers of a width, of which half are negative if it has a sign. -/
def Width.range (w : Width) : Set Int :=
  if w.signed then {v | -2 ^ (w.bits - 1) ≤ v ∧ v < 2 ^ (w.bits - 1)}
  else {v | 0 ≤ v ∧ v < 2 ^ w.bits}

theorem IsMark.base_le {mark : Char} {base : Nat} (h : IsMark mark base) :
    1 < base ∧ base ≤ 16 := by
  obtain ⟨-, rfl⟩ | ⟨-, rfl⟩ | ⟨-, rfl⟩ := h <;> decide

theorem IsMark.isAlphanum {mark : Char} {base : Nat} (h : IsMark mark base) :
    mark.isAlphanum := by
  obtain ⟨rfl | rfl, -⟩ | ⟨rfl | rfl, -⟩ | ⟨rfl | rfl, -⟩ := h <;> rfl

/-! ### Digits -/

theorem digitValue?_digitChar :
    ∀ d < 16, digitValue? (Nat.digitChar d) = some d ∧
      digitValue? (Nat.digitChar d).toUpper = some d := by
  decide

/-- Digits and letters follow one another as their values do. -/
theorem toNat_digitChar :
    (∀ d < 10, (Nat.digitChar d).toNat = '0'.toNat + d) ∧
      (∀ d < 6, (Nat.digitChar (d + 10)).toNat = 'a'.toNat + d) ∧
      ∀ d < 6, (Nat.digitChar (d + 10)).toUpper.toNat = 'A'.toNat + d := by
  decide

theorem eq_digitChar_of_digitValue? {c : Char} {d : Nat} (h : digitValue? c = some d) :
    d < 16 ∧ (c = Nat.digitChar d ∨ c = (Nat.digitChar d).toUpper) := by
  have hval : ∀ e : Char, e.val.toNat = e.toNat := fun _ ↦ rfl
  obtain ⟨hdigit, hlower, hupper⟩ := toNat_digitChar
  simp only [digitValue?, Char.le_def, UInt32.le_iff_toNat_le, hval, Char.reduceToNat] at h
  simp only [Char.reduceToNat] at hdigit hlower hupper
  simp only [← Char.toNat_inj]
  split_ifs at h with hrange hrange hrange
  · obtain rfl := Option.some.inj h
    rw [hdigit _ (by omega)]
    omega
  · obtain rfl := Option.some.inj h
    rw [hlower _ (by omega)]
    omega
  · obtain rfl := Option.some.inj h
    rw [hupper _ (by omega)]
    omega

/-- **A character is read as the digit that it is.** -/
theorem digitOf?_eq_some_iff {base : Nat} (hbase : base ≤ 16) {c : Char} {d : Nat} :
    digitOf? base c = some d ↔ IsDigitOf base c d := by
  rw [digitOf?, Option.filter_eq_some_iff, decide_eq_true_eq]
  constructor
  · rintro ⟨hvalue, hlt⟩
    exact ⟨hlt, (eq_digitChar_of_digitValue? hvalue).2⟩
  · rintro ⟨hlt, rfl | rfl⟩
    · exact ⟨(digitValue?_digitChar d (by omega)).1, hlt⟩
    · exact ⟨(digitValue?_digitChar d (by omega)).2, hlt⟩

theorem IsDigitOf.isAlphanum {base : Nat} (hbase : base ≤ 16) {c : Char} {d : Nat}
    (h : IsDigitOf base c d) : c.isAlphanum := by
  have hall : ∀ d < 16, (Nat.digitChar d).isAlphanum ∧ (Nat.digitChar d).toUpper.isAlphanum := by
    decide
  obtain ⟨hlt, rfl | rfl⟩ := h
  · exact (hall d (by omega)).1
  · exact (hall d (by omega)).2

/-! ### Natural numbers -/

/-- **Digits are read from the first one on as they count from the last one on.** -/
theorem digitsFrom?_eq_some_iff {base : Nat} (hbase : base ≤ 16) {t : Text} {acc n : Nat} :
    digitsFrom? base acc t = some n ↔
      ∃ ds, List.Forall₂ (IsDigitOf base) t ds ∧
        n = Nat.ofDigits base ds.reverse + base ^ ds.length * acc := by
  induction t generalizing acc with
  | nil => simp [digitsFrom?, eq_comm]
  | cons c t ih =>
    have hworth : ∀ (d : Nat) (ds : List Nat),
        Nat.ofDigits base (d :: ds).reverse + base ^ (d :: ds).length * acc =
          Nat.ofDigits base ds.reverse + base ^ ds.length * (base * acc + d) := by
      intro d ds
      rw [List.reverse_cons, Nat.ofDigits_append, Nat.ofDigits_singleton, List.length_reverse,
        List.length_cons]
      ring
    simp only [List.forall₂_cons_left_iff]
    constructor
    · intro h
      rw [digitsFrom?] at h
      split at h
      · next d hd =>
        obtain ⟨ds, hds, rfl⟩ := ih.mp h
        exact ⟨d :: ds, ⟨d, ds, (digitOf?_eq_some_iff hbase).mp hd, hds, rfl⟩, (hworth d ds).symm⟩
      · cases h
    · rintro ⟨-, ⟨d, ds, hd, hds, rfl⟩, rfl⟩
      rw [digitsFrom?, (digitOf?_eq_some_iff hbase).mpr hd]
      exact ih.mpr ⟨ds, hds, hworth d ds⟩

theorem natural?_eq_some_iff {base : Nat} (hbase : base ≤ 16) {t : Text} {n : Nat} :
    natural? base t = some n ↔ WritesNatural base t n := by
  rw [natural?, WritesNatural]
  split_ifs with hnil
  · simp [hnil]
  · simp [hnil, digitsFrom?_eq_some_iff hbase]

theorem WritesNatural.isAlphanum {base : Nat} (hbase : base ≤ 16) {t : Text} {n : Nat}
    (h : WritesNatural base t n) : ∀ c ∈ t, c.isAlphanum := by
  obtain ⟨-, ds, hds, -⟩ := h
  exact ((List.forall₂_and_left _ _).mp (hds.imp fun _ _ hd ↦ ⟨hd.isAlphanum hbase, hd⟩)).1

theorem WritesNatural.isSome_digitOf? {base : Nat} (hbase : base ≤ 16) {t : Text} {n : Nat}
    (h : WritesNatural base t n) : ∀ c ∈ t, (digitOf? base c).isSome := by
  obtain ⟨-, ds, hds, -⟩ := h
  have hread : ∀ c d, IsDigitOf base c d → (digitOf? base c).isSome := fun c d hd ↦ by
    rw [(digitOf?_eq_some_iff hbase).mpr hd, Option.isSome_some]
  exact ((List.forall₂_and_left _ _).mp (hds.imp fun c d hd ↦ ⟨hread c d hd, hd⟩)).1

/-- One more digit at the end. -/
theorem WritesNatural.concat {base : Nat} {t : Text} {n : Nat} (h : WritesNatural base t n)
    {c : Char} {d : Nat} (hd : IsDigitOf base c d) :
    WritesNatural base (t ++ [c]) (d + base * n) := by
  obtain ⟨-, ds, hds, rfl⟩ := h
  refine ⟨by simp, ds ++ [d], List.rel_append hds (.cons hd .nil), ?_⟩
  rw [List.reverse_append, List.reverse_singleton, List.singleton_append, Nat.ofDigits_cons]

/-- **A number is worth what it is written as**, in every base. -/
theorem writesNatural_toDigits {base : Nat} (hbase : 1 < base) (n : Nat) :
    WritesNatural base (Nat.toDigits base n) n := by
  induction n using Nat.strongRecOn with
  | ind n ih =>
    by_cases hlt : n < base
    · rw [Nat.toDigits_of_lt_base hlt]
      exact ⟨List.cons_ne_nil _ _, [n], .cons ⟨hlt, .inl rfl⟩ .nil, by simp⟩
    · have hle : base ≤ n := Nat.le_of_not_lt hlt
      have hdigit : IsDigitOf base (Nat.digitChar (n % base)) (n % base) :=
        ⟨Nat.mod_lt n (by omega), .inl rfl⟩
      rw [Nat.toDigits_of_base_le hbase hle]
      have hfirst := (ih (n / base) (Nat.div_lt_self (by omega) hbase)).concat hdigit
      rwa [Nat.mod_add_div] at hfirst

/-- Letters may be turned into capitals. -/
theorem WritesNatural.map_toUpper {base : Nat} (hbase : base ≤ 16) {t : Text} {n : Nat}
    (h : WritesNatural base t n) : WritesNatural base (t.map Char.toUpper) n := by
  obtain ⟨hne, ds, hds, rfl⟩ := h
  have hupper : ∀ d < 16, (Nat.digitChar d).toUpper.toUpper = (Nat.digitChar d).toUpper := by
    decide
  refine ⟨by simpa using hne, ds, List.forall₂_map_left_iff.mpr (hds.imp ?_), rfl⟩
  rintro c d ⟨hlt, rfl | rfl⟩
  · exact ⟨hlt, .inr rfl⟩
  · exact ⟨hlt, .inr (hupper d (by omega))⟩

/-- Zeros in front count nothing. -/
theorem WritesNatural.zeros {base : Nat} (hbase : 1 < base) {t : Text} {n : Nat}
    (h : WritesNatural base t n) (k : Nat) :
    WritesNatural base (List.replicate k '0' ++ t) n := by
  obtain ⟨hne, ds, hds, rfl⟩ := h
  have hzeros : List.Forall₂ (IsDigitOf base) (List.replicate k '0') (List.replicate k 0) := by
    induction k with
    | zero => exact .nil
    | succ k ih => exact .cons ⟨by omega, .inl rfl⟩ ih
  refine ⟨by simp [hne], List.replicate k 0 ++ ds, List.rel_append hzeros hds, ?_⟩
  rw [List.reverse_append, List.reverse_replicate, Nat.ofDigits_append_replicate_zero]

/-! ### Integers -/

theorem decimalInteger?_minus (t : Text) :
    decimalInteger? ('-' :: t) = (natural? 10 t).map fun n : Nat ↦ -(n : Int) := by
  rw [decimalInteger?]
  rcases natural? 10 t with - | n <;> rfl

theorem decimalInteger?_plus (t : Text) :
    decimalInteger? ('+' :: t) = (natural? 10 t).map fun n : Nat ↦ (n : Int) := by
  rw [decimalInteger?]
  rcases natural? 10 t with - | n <;> rfl

theorem decimalInteger?_of_head? {t : Text} (hminus : t.head? ≠ some '-')
    (hplus : t.head? ≠ some '+') :
    decimalInteger? t = (natural? 10 t).map fun n : Nat ↦ (n : Int) := by
  unfold decimalInteger?
  split
  · exact absurd rfl hminus
  · exact absurd rfl hplus
  · rcases natural? 10 t with - | n <;> rfl

theorem integer?_of_unmarked {t : Text} (h : ∀ mark rest, t ≠ '#' :: mark :: rest) :
    integer? t = decimalInteger? t := by
  unfold integer?
  split
  · exact absurd rfl (h _ _)
  · rfl

theorem integer?_marked (mark : Char) (t : Text) :
    integer? ('#' :: mark :: t) =
      (markedBase? mark).bind fun base ↦ (natural? base t).map fun n : Nat ↦ (n : Int) := by
  rw [integer?]
  rcases markedBase? mark with - | base
  · rfl
  · dsimp only [Option.bind]
    rcases natural? base t with - | n <;> rfl

/-- The sign says whether what follows it is negated. -/
theorem decimalInteger?_append {sign digits : Text} (hsign : IsSign sign)
    (hminus : digits.head? ≠ some '-') (hplus : digits.head? ≠ some '+') :
    decimalInteger? (sign ++ digits) =
      (natural? 10 digits).map fun n : Nat ↦ if sign = ['-'] then -(n : Int) else n := by
  rcases hsign with - | - | -
  · exact decimalInteger?_of_head? hminus hplus
  · exact decimalInteger?_minus digits
  · exact decimalInteger?_plus digits

theorem writesInteger_of_decimalInteger? {t : Text} {v : Int} (h : decimalInteger? t = some v) :
    WritesInteger t v := by
  have hnatural : ∀ {s : Text} {n : Nat}, natural? 10 s = some n → WritesNatural 10 s n :=
    (natural?_eq_some_iff (by decide)).mp
  by_cases hminus : t.head? = some '-'
  · obtain ⟨digits, rfl⟩ := List.head?_eq_some_iff.mp hminus
    rw [decimalInteger?_minus] at h
    obtain ⟨n, hn, rfl⟩ := Option.map_eq_some_iff.mp h
    exact .decimal .minus (hnatural hn)
  · by_cases hplus : t.head? = some '+'
    · obtain ⟨digits, rfl⟩ := List.head?_eq_some_iff.mp hplus
      rw [decimalInteger?_plus] at h
      obtain ⟨n, hn, rfl⟩ := Option.map_eq_some_iff.mp h
      exact .decimal .plus (hnatural hn)
    · rw [decimalInteger?_of_head? hminus hplus] at h
      obtain ⟨n, hn, rfl⟩ := Option.map_eq_some_iff.mp h
      exact .decimal .absent (hnatural hn)

theorem markedBase?_eq_some_iff {mark : Char} {base : Nat} :
    markedBase? mark = some base ↔ IsMark mark base := by
  rw [markedBase?]
  split_ifs with hhex hoctal hbinary
  · obtain rfl | rfl := hhex <;> simp [IsMark, eq_comm]
  · obtain rfl | rfl := hoctal <;> simp [IsMark, eq_comm]
  · obtain rfl | rfl := hbinary <;> simp [IsMark, eq_comm]
  · simp [IsMark, hhex, hoctal, hbinary]

/-- **A text is read as an integer exactly if it writes one.** -/
theorem integer?_eq_some_iff {t : Text} {v : Int} : integer? t = some v ↔ WritesInteger t v := by
  constructor
  · intro h
    by_cases hmarked : ∃ mark rest, t = '#' :: mark :: rest
    · obtain ⟨mark, digits, rfl⟩ := hmarked
      rw [integer?_marked] at h
      obtain ⟨base, hbase, hdigits⟩ := Option.bind_eq_some_iff.mp h
      obtain ⟨n, hn, rfl⟩ := Option.map_eq_some_iff.mp hdigits
      have hmark := markedBase?_eq_some_iff.mp hbase
      exact .marked hmark ((natural?_eq_some_iff hmark.base_le.2).mp hn)
    · rw [integer?_of_unmarked fun mark rest heq ↦ hmarked ⟨mark, rest, heq⟩] at h
      exact writesInteger_of_decimalInteger? h
  · rintro (@⟨sign, digits, n, hsign, hdigits⟩ | ⟨hmark, hdigits⟩)
    · -- What follows the sign are digits, so no second sign is taken off, and nothing is a mark.
      have hno : ∀ {c : Char}, c.isAlphanum = false → c ∉ digits :=
        not_mem_of_forall (hdigits.isAlphanum (by decide))
      have hsharp : '#' ∉ sign ++ digits := by
        rcases hsign with - | - | - <;> simpa using hno rfl
      rw [integer?_of_unmarked fun mark rest heq ↦ hsharp (by simp [heq]),
        decimalInteger?_append hsign (fun hhead ↦ hno rfl (List.mem_of_mem_head? hhead))
          fun hhead ↦ hno rfl (List.mem_of_mem_head? hhead),
        (natural?_eq_some_iff (by decide)).mpr hdigits, Option.map_some]
    · rw [integer?_marked, markedBase?_eq_some_iff.mpr hmark, Option.bind_some,
        (natural?_eq_some_iff hmark.base_le.2).mpr hdigits, Option.map_some]

/-- Whether a character may stand in an integer. -/
def isIntegerChar (c : Char) : Bool := c.isAlphanum || "+-#".toList.contains c

theorem WritesInteger.forall_isIntegerChar {t : Text} {v : Int} (h : WritesInteger t v) :
    ∀ c ∈ t, isIntegerChar c := by
  have hdigit : ∀ {c : Char}, c.isAlphanum → isIntegerChar c := fun hc ↦ by
    simp [isIntegerChar, hc]
  rcases h with ⟨hsign, hdigits⟩ | ⟨hmark, hdigits⟩
  · refine List.forall_mem_append.mpr
      ⟨?_, fun c hc ↦ hdigit (hdigits.isAlphanum (by decide) c hc)⟩
    rcases hsign with - | - | - <;> simp [isIntegerChar]
  · have hletter : isIntegerChar _ := hdigit hmark.isAlphanum
    exact List.forall_mem_cons.mpr ⟨rfl, List.forall_mem_cons.mpr
      ⟨hletter, fun c hc ↦ hdigit (hdigits.isAlphanum hmark.base_le.2 c hc)⟩⟩

/-- An integer is written without padding. -/
theorem WritesInteger.trim_eq {t : Text} {v : Int} (h : WritesInteger t v) : trim t = t :=
  trim_of_forall_of_all h.forall_isIntegerChar (by decide)

/-- The decimal form of an integer, whatever the digits of its magnitude are. -/
theorem writesInteger_decimal {v : Int} {digits : Text} (h : WritesNatural 10 digits v.natAbs) :
    WritesInteger ((if v < 0 then ['-'] else []) ++ digits) v := by
  split_ifs with hv
  · have hwrites := WritesInteger.decimal .minus h
    rwa [if_pos rfl, Int.ofNat_natAbs_of_nonpos (by omega), Int.neg_neg] at hwrites
  · have hwrites := WritesInteger.decimal .absent h
    rwa [if_neg (List.cons_ne_nil _ _).symm, Int.natAbs_of_nonneg (by omega)] at hwrites

/-- Every integer is written in decimal, with a minus sign where it is negative. -/
theorem writesInteger_signedDecimal (v : Int) : WritesInteger (signedDecimal v) v := by
  have hdigits (n : Nat) : WritesNatural 10 (decimal n) n := writesNatural_toDigits (by decide) n
  cases v with
  | ofNat n => exact .decimal .absent (hdigits n)
  | negSucc n => exact .decimal .minus (hdigits (n + 1))

/-! ### Integers of a width -/

theorem Width.contains_iff_mem_range {w : Width} {v : Int} : w.contains v ↔ v ∈ w.range := by
  have hpow : ∀ n : Nat, ((Nat.pow 2 n : Nat) : Int) = 2 ^ n := Int.natCast_pow 2
  rw [contains_iff, least, greatest, range]
  split_ifs <;> rw [hpow, Set.mem_ofPred_eq, Int.le_sub_one_iff]

/-- The integers of a width without a sign. -/
theorem Width.unsigned_contains_iff {bits : Nat} {v : Int} :
    (Width.mk false bits).contains v ↔ 0 ≤ v ∧ v < 2 ^ bits :=
  contains_iff_mem_range

theorem Width.read?_eq_some_iff {w : Width} {t : Text} {v : Int} :
    w.read? t = some v ↔ WritesInteger (trim t) v ∧ v ∈ Width.int64.range ∧ v ∈ w.range := by
  rw [read?, Option.filter_eq_some_iff, integer?_eq_some_iff, Bool.and_eq_true,
    contains_iff_mem_range, contains_iff_mem_range]

/-- Signed words of 16 bits are integers of 16 bits, and so of 64. -/
theorem toInt_mem_range (v : Int16) : v.toInt ∈ Width.int64.range ∧ v.toInt ∈ Width.int16.range := by
  have hle := v.le_toInt
  have hlt := v.toInt_lt
  refine ⟨?_, hle, hlt⟩
  show -2 ^ 63 ≤ v.toInt ∧ v.toInt < 2 ^ 63
  omega

/-- Integers of 16 bits are kept by such words. -/
theorem toInt_ofInt_of_mem_range {v : Int} (h : v ∈ Width.int16.range) :
    (Int16.ofInt v).toInt = v := by
  obtain ⟨hle, hlt⟩ := h
  exact Int16.toInt_ofInt_of_le hle (Int.lt_of_lt_of_le hlt (by decide))

namespace Reply

variable {w : Width} {t : Text} {v : Int}

theorem integer_eq_ok_iff :
    integer w t = .ok v ↔ WritesInteger (trim t) v ∧ v ∈ Width.int64.range ∧ v ∈ w.range := by
  rw [integer, orInvalid_eq_ok_iff, Width.read?_eq_some_iff]

theorem integer_eq_error_iff :
    integer w t = .error .invalidResponse ↔
      ∀ v, WritesInteger (trim t) v → ¬(v ∈ Width.int64.range ∧ v ∈ w.range) := by
  simp only [integer, orInvalid_eq_error_iff, and_true, Option.eq_none_iff_forall_ne_some, ne_eq,
    Width.read?_eq_some_iff, not_and]

/-- What an integer of the width is written as is read as it. -/
theorem integer_of_writesInteger (h : WritesInteger t v) (hint64 : v ∈ Width.int64.range)
    (hwidth : v ∈ w.range) : integer w t = .ok v := by
  rw [integer_eq_ok_iff, h.trim_eq]
  exact ⟨h, hint64, hwidth⟩

end Reply

/-- **Integers are read exactly as they are written.** A text is read as an integer of a width
exactly if it writes one, padding aside, and the integer is in the range of the width and in the one
of signed integers of 64 bits; in every other case nothing is read. So an integer of both ranges is
read back from its decimal form and, unless it is negative, from the form in each marked base, with
any number of zeros in front of its digits. -/
theorem integers_read (w : Width) (t : Text) :
    (∀ v, Reply.integer w t = .ok v ↔
      WritesInteger (trim t) v ∧ v ∈ Width.int64.range ∧ v ∈ w.range) ∧
    (Reply.integer w t = .error .invalidResponse ↔
      ∀ v, WritesInteger (trim t) v → ¬(v ∈ Width.int64.range ∧ v ∈ w.range)) ∧
    ∀ v, v ∈ Width.int64.range → v ∈ w.range → ∀ k,
      Reply.integer w
        ((if v < 0 then ['-'] else []) ++ (List.replicate k '0' ++ decimal v.natAbs)) = .ok v ∧
      (0 ≤ v → ∀ mark base, IsMark mark base →
        let digits := List.replicate k '0' ++ Nat.toDigits base v.natAbs
        Reply.integer w ('#' :: mark :: digits) = .ok v ∧
          Reply.integer w ('#' :: mark :: digits.map Char.toUpper) = .ok v) := by
  refine ⟨fun v ↦ Reply.integer_eq_ok_iff, Reply.integer_eq_error_iff,
    fun v hint64 hwidth k ↦ ⟨?_, fun hv mark base hmark ↦ ?_⟩⟩
  · have hdigits : WritesNatural 10 (List.replicate k '0' ++ decimal v.natAbs) v.natAbs :=
      (writesNatural_toDigits (by decide) v.natAbs).zeros (by decide) k
    exact Reply.integer_of_writesInteger (writesInteger_decimal hdigits) hint64 hwidth
  · obtain ⟨hone, hbase⟩ := hmark.base_le
    have hdigits := (writesNatural_toDigits hone v.natAbs).zeros hone k
    have hvalue : (v.natAbs : Int) = v := Int.natAbs_of_nonneg hv
    have hlower := WritesInteger.marked hmark hdigits
    have hupper := WritesInteger.marked hmark (hdigits.map_toUpper hbase)
    rw [hvalue] at hlower hupper
    exact ⟨Reply.integer_of_writesInteger hlower hint64 hwidth,
      Reply.integer_of_writesInteger hupper hint64 hwidth⟩

/-- The greatest integer that is read as an unsigned one of 64 bits, in capitals and with zeros in
front. The next one is in the range of the width and is refused. -/
theorem integers_read_greatest :
    let v : Int := 2 ^ 63 - 1
    v ∈ Width.int64.range ∧ v ∈ Width.uint64.range ∧ 0 ≤ v ∧ IsMark 'h' 16 ∧
      Reply.integer .uint64 "#h0007FFFFFFFFFFFFFFF" = .ok v ∧
      v + 1 ∈ Width.uint64.range ∧
      Reply.integer .uint64 "9223372036854775808" = .error .invalidResponse := by
  intro v
  have hint64 : v ∈ Width.int64.range := Width.contains_iff_mem_range.mp (by decide)
  have hwidth : v ∈ Width.uint64.range := Width.contains_iff_mem_range.mp (by decide)
  have hmark : IsMark 'h' 16 := .inl ⟨.inr rfl, rfl⟩
  obtain ⟨-, -, hwritten⟩ := integers_read .uint64 []
  obtain ⟨-, hmarked⟩ := hwritten v hint64 hwidth 3
  obtain ⟨-, hcapitals⟩ := hmarked (by decide) 'h' 16 hmark
  have htext : '#' :: 'h' :: (List.replicate 3 '0' ++ Nat.toDigits 16 v.natAbs).map Char.toUpper =
      "#h0007FFFFFFFFFFFFFFF".toList := by decide +kernel
  rw [htext] at hcapitals
  exact ⟨hint64, hwidth, by decide, hmark, hcapitals,
    Width.contains_iff_mem_range.mp (by decide), by decide⟩

end BatteryBench
