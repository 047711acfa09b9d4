import BatteryBench.Address.IPv4
import BatteryBench.Proofs.Number.Grammar
import BatteryBench.Proofs.Text.Padding

/-!
# The grammar of IPv4 addresses

An octet is one or more decimal digits without a leading zero (`WritesOctet`), and an address is
four octets with points between them (`WritesQuad`). Such a text is the one that is written for the
address (`writesQuad_iff`), so there is one text for each address.

Reading accepts that text and no other: `takeIPv4?_eq_some_iff` says which address a text starts
with, `readIPv4?_eq_some_iff` which one it is, and `IPv4.parse_eq_ok_iff` what a user may type
around it.
-/

namespace BatteryBench

/-! ### The grammar -/

/-- That a text is an octet in decimal without leading zeros, and which one. -/
def WritesOctet (t : Text) (n : UInt8) : Prop :=
  t ≠ [] ∧ IsDigits t ∧ (t.head? = some '0' → t.length = 1) ∧ Nat.ofDigitChars 10 t 0 = n.toNat

/-- That a text is four octets with points between them, and which address they are. -/
inductive WritesQuad : Text → IPv4 → Prop where
  | mk {a b c d : Text} {ip : IPv4} (ha : WritesOctet a ip.a) (hb : WritesOctet b ip.b)
    (hc : WritesOctet c ip.c) (hd : WritesOctet d ip.d) :
    WritesQuad (['.'].intercalate [a, b, c, d]) ip

theorem writesOctet_iff {t : Text} {n : UInt8} : WritesOctet t n ↔ t = decimal n.toNat := by
  constructor
  · rintro ⟨hne, hdigits, hzero, hworth⟩
    rw [← hworth, decimal_ofDigitChars hne hdigits hzero]
  · rintro rfl
    refine ⟨decimal_ne_nil _, isDigits_decimal _, fun hhead ↦ ?_, ofDigitChars_decimal _⟩
    rcases Nat.eq_zero_or_pos n.toNat with hzero | hpos
    · rw [hzero]
      rfl
    · exact absurd hhead (head?_decimal_ne_zero hpos)

theorem text_eq_intercalate (ip : IPv4) :
    ip.text = ['.'].intercalate
      [decimal ip.a.toNat, decimal ip.b.toNat, decimal ip.c.toNat, decimal ip.d.toNat] := by
  simp [IPv4.text, List.intercalate]

/-- **The dotted quad of an address is the one that is written for it.** -/
theorem writesQuad_iff {t : Text} {ip : IPv4} : WritesQuad t ip ↔ t = ip.text := by
  rw [text_eq_intercalate]
  constructor
  · rintro ⟨ha, hb, hc, hd⟩
    rw [writesOctet_iff.mp ha, writesOctet_iff.mp hb, writesOctet_iff.mp hc, writesOctet_iff.mp hd]
  · rintro rfl
    exact .mk (writesOctet_iff.mpr rfl) (writesOctet_iff.mpr rfl) (writesOctet_iff.mpr rfl)
      (writesOctet_iff.mpr rfl)

/-! ### Reading -/

/-- A text starts with an octet exactly if it starts with what is written for it and no digit
follows. -/
theorem takeOctet?_eq_some_iff {t rest : Text} {n : UInt8} :
    takeOctet? t = some (n, rest) ↔
      t = decimal n.toNat ++ rest ∧ rest.takeWhile Char.isDigit = [] := by
  rw [takeOctet?]
  constructor
  · intro h
    split at h
    · next m hm =>
      obtain ⟨hne, hdigits, hworth⟩ := natural?_ten_eq_some_iff.mp hm
      split at h
      · next hoctet =>
        obtain ⟨-, hle, hzero⟩ := hoctet
        obtain ⟨rfl, rfl⟩ := Prod.mk.inj (Option.some.inj h)
        have hm : (UInt8.ofNat m).toNat = m :=
          UInt8.toNat_ofNat_of_lt' (Nat.lt_of_le_of_lt hle (by decide))
        refine ⟨?_, ?_⟩
        · rw [hm, ← hworth, decimal_ofDigitChars hne hdigits hzero,
            List.takeWhile_append_dropWhile]
        · have hstop := List.head?_dropWhile_not Char.isDigit t
          cases hrest : t.dropWhile Char.isDigit with
          | nil => rfl
          | cons c rest =>
            rw [hrest] at hstop
            exact List.takeWhile_cons_of_neg (by simpa using hstop)
      · cases h
    · cases h
  · rintro ⟨rfl, hrest⟩
    obtain ⟨-, -, hzero, -⟩ := writesOctet_iff.mpr (rfl : decimal n.toNat = _)
    have hlt : n.toNat < 256 := n.toNat_lt
    have hlength : (decimal n.toNat).length ≤ 3 :=
      (length_decimal_le_iff (by decide)).mpr (Nat.lt_trans hlt (by decide))
    simp only [Numeral.takeWhile_digits_append (isDigits_decimal _) hrest,
      Numeral.dropWhile_digits_append (isDigits_decimal _) hrest, natural?_decimal]
    rw [if_pos ⟨hlength, Nat.le_of_lt_succ hlt, hzero⟩, UInt8.ofNat_toNat]

theorem takePoint?_eq_some_iff {t rest : Text} : takePoint? t = some rest ↔ t = '.' :: rest := by
  constructor
  · intro h
    rw [takePoint?.eq_def] at h
    split at h
    · rw [Option.some.inj h]
    · cases h
  · rintro rfl
    rfl

/-- **A text starts with an address exactly if it starts with its dotted quad** and no digit
follows. -/
theorem takeIPv4?_eq_some_iff {t rest : Text} {ip : IPv4} :
    takeIPv4? t = some (ip, rest) ↔ t = ip.text ++ rest ∧ rest.takeWhile Char.isDigit = [] := by
  have hpoint : ∀ s : Text, ('.' :: s).takeWhile Char.isDigit = [] := fun s ↦
    List.takeWhile_cons_of_neg (by decide)
  simp only [takeIPv4?, bind, Option.bind_eq_some_iff, Prod.exists, takeOctet?_eq_some_iff,
    takePoint?_eq_some_iff]
  constructor
  · rintro ⟨a, _, ⟨rfl, -⟩, _, rfl, b, _, ⟨rfl, -⟩, _, rfl, c, _, ⟨rfl, -⟩, _, rfl, d, _,
      ⟨rfl, hrest⟩, hreturn⟩
    obtain ⟨rfl, rfl⟩ := Prod.mk.inj (Option.some.inj hreturn)
    exact ⟨by simp [IPv4.text], hrest⟩
  · rintro ⟨rfl, hrest⟩
    simp only [IPv4.text, List.append_assoc, List.cons_append]
    exact ⟨ip.a, _, ⟨rfl, hpoint _⟩, _, rfl, ip.b, _, ⟨rfl, hpoint _⟩, _, rfl,
      ip.c, _, ⟨rfl, hpoint _⟩, _, rfl, ip.d, rest, ⟨rfl, hrest⟩, rfl⟩

/-- **A text is an address exactly if it is its dotted quad.** -/
theorem readIPv4?_eq_some_iff {t : Text} {ip : IPv4} : readIPv4? t = some ip ↔ t = ip.text := by
  have hread : readIPv4? t = some ip ↔ takeIPv4? t = some (ip, []) := by
    rw [readIPv4?]
    constructor
    · intro h
      split at h
      · next htake => rw [htake, Option.some.inj h]
      · cases h
    · intro h
      rw [h]
  rw [hread, takeIPv4?_eq_some_iff, List.append_nil, List.takeWhile_nil, and_iff_left rfl]

/-! ### White space around an address -/

/-- Whether a text is nothing but white space. -/
def IsAllWhiteSpace (t : Text) : Prop := ∀ c ∈ t, isWhiteSpace c

instance (t : Text) : Decidable (IsAllWhiteSpace t) := List.decidableBAll _ t

/-- A text is what is left of it between white space. -/
theorem exists_stripWhiteSpace (t : Text) :
    ∃ a b, IsAllWhiteSpace a ∧ IsAllWhiteSpace b ∧ t = a ++ stripWhiteSpace t ++ b := by
  obtain ⟨a, ha, hstart⟩ := exists_append_dropWhile isWhiteSpace t
  obtain ⟨b, hb, hend⟩ := exists_dropWhile_append isWhiteSpace (t.dropWhile isWhiteSpace)
  exact ⟨a, b, ha, hb, by rw [List.append_assoc, stripWhiteSpace, ← hend, ← hstart]⟩

/-- White space is removed from both ends of what has none. -/
theorem stripWhiteSpace_append {a s b : Text} (ha : IsAllWhiteSpace a) (hb : IsAllWhiteSpace b)
    (hne : s ≠ []) (hs : ∀ c ∈ s, isWhiteSpace c = false) :
    stripWhiteSpace (a ++ s ++ b) = s := by
  have hkeep : ∀ u v : Text, u ≠ [] → (∀ c ∈ u, isWhiteSpace c = false) →
      (u ++ v).dropWhile isWhiteSpace = u ++ v := by
    intro u v hu hall
    obtain ⟨c, rest, rfl⟩ := List.exists_cons_of_ne_nil hu
    exact List.dropWhile_cons_of_neg (by simp [hall c List.mem_cons_self])
  have hbreverse : ∀ c ∈ b.reverse, isWhiteSpace c := fun c hc ↦ hb c (List.mem_reverse.mp hc)
  have hsreverse := hkeep s.reverse [] (by simpa using hne) fun c hc ↦ hs c (List.mem_reverse.mp hc)
  rw [List.append_nil] at hsreverse
  rw [stripWhiteSpace, List.append_assoc, List.dropWhile_append_of_pos ha, hkeep s b hne hs,
    List.reverse_append, List.dropWhile_append_of_pos hbreverse, hsreverse, List.reverse_reverse]

namespace IPv4

/-- A dotted quad is digits and points. -/
theorem isDigit_or_point_of_mem_text {ip : IPv4} {c : Char} (hc : c ∈ ip.text) :
    c.isDigit ∨ c = '.' := by
  have hdigit : ∀ n, c ∈ decimal n → c.isDigit := fun n ↦ isDigits_decimal n c
  simp only [text, List.mem_append, List.mem_cons] at hc
  rcases hc with h | h | h | h | h | h | h
  all_goals first | exact .inl (hdigit _ h) | exact .inr h

theorem not_mem_text {ip : IPv4} {c : Char} (hdigit : c.isDigit = false) (hpoint : c ≠ '.') :
    c ∉ ip.text := by
  intro hc
  rcases isDigit_or_point_of_mem_text hc with h | h
  · rw [hdigit] at h
    cases h
  · exact hpoint h

theorem isWhiteSpace_of_mem_text {ip : IPv4} {c : Char} (hc : c ∈ ip.text) :
    isWhiteSpace c = false := by
  rcases isDigit_or_point_of_mem_text hc with h | rfl
  · rw [Char.isDigit, Bool.and_eq_true, decide_eq_true_eq, decide_eq_true_eq, ge_iff_le,
      UInt32.le_iff_toNat_le, UInt32.le_iff_toNat_le] at h
    have hrange : 48 ≤ c.toNat ∧ c.toNat ≤ 57 := h
    simp [isWhiteSpace]
    omega
  · rfl

theorem text_ne_nil (ip : IPv4) : ip.text ≠ [] := by
  simp [text]

/-- **An address may stand between white space**, and nothing else is one. -/
theorem parse_eq_ok_iff {t : Text} {ip : IPv4} :
    parse t = .ok ip ↔ stripWhiteSpace t = ip.text := by
  rw [parse, ← readIPv4?_eq_some_iff]
  cases readIPv4? (stripWhiteSpace t) <;> simp

/-- What is left of a text is an address exactly if the text is that address between white space. -/
theorem stripWhiteSpace_eq_text_iff {t : Text} {ip : IPv4} :
    stripWhiteSpace t = ip.text ↔
      ∃ a b, IsAllWhiteSpace a ∧ IsAllWhiteSpace b ∧ t = a ++ ip.text ++ b := by
  constructor
  · intro h
    obtain ⟨a, b, ha, hb, ht⟩ := exists_stripWhiteSpace t
    exact ⟨a, b, ha, hb, h ▸ ht⟩
  · rintro ⟨a, b, ha, hb, rfl⟩
    exact stripWhiteSpace_append ha hb ip.text_ne_nil fun _ hc ↦ isWhiteSpace_of_mem_text hc

theorem parse_eq_error_iff {t : Text} :
    parse t = .error .invalidIPAddress ↔ ∀ ip : IPv4, stripWhiteSpace t ≠ ip.text := by
  simp only [ne_eq, ← parse_eq_ok_iff]
  cases h : parse t with
  | ok ip => simp
  | error e => simp [parse_eq_error h]

end IPv4

end BatteryBench
