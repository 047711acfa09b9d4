import BatteryBench.Encoding.Utf8
import Mathlib.Data.List.Basic

/-!
# Encoding and decoding

A text is read as it was written (`Utf8.decode_encode`). What a byte at the start of a character
asks for is what the bytes after it are: `Utf8.lead_two`, `Utf8.lead_three` and `Utf8.lead_four` say
so for each length, and from there on the bytes only add six bits each.

An ASCII byte ends whatever character is unfinished before it and is itself read as one, since no
byte that continues a character is below 0x80 (`Utf8.Owed.IsHigh`). So it can be cut off before
decoding or after (`Utf8.decode_concat`), even where the bytes before it are no UTF-8. Nothing like
it holds of other bytes: those of one character cannot be parted.

A character is at most four bytes long (`Utf8.length_encode_le`).
-/

namespace BatteryBench

namespace Utf8

/-- That an unfinished character is only continued by bytes above ASCII. -/
def Owed.IsHigh (owed : Owed) : Prop := 0x80 ≤ owed.low

theorem isHigh_of_lead {b : UInt8} {owed : Owed} (h : lead b = .start owed) : owed.IsHigh := by
  unfold lead at h
  dsimp only at h
  split_ifs at h <;> cases h <;> simp [Owed.IsHigh]

theorem isHigh_of_take? {owed next : Owed} {b : UInt8} (h : owed.take? b = some (.start next)) :
    next.IsHigh := by
  unfold Owed.take? at h
  dsimp only at h
  split at h
  · split at h
    · cases h
    · cases h
      exact Nat.le_refl _
  · cases h

theorem Owed.IsHigh.take?_eq_none {owed : Owed} (h : owed.IsHigh) {b : UInt8}
    (hb : b.toNat < 0x80) : owed.take? b = none := by
  have hlow : ¬(owed.low ≤ b.toNat ∧ b.toNat ≤ owed.high) := fun hboth ↦
    absurd (Nat.le_trans h hboth.1) (Nat.not_le_of_lt hb)
  unfold Owed.take?
  rw [if_neg hlow]

theorem lead_of_ascii {b : UInt8} (hb : b.toNat < 0x80) : lead b = .char (Char.ofNat b.toNat) :=
  if_pos hb

/-- **An ASCII byte is read by itself**, also after an unfinished character. -/
theorem decodeFrom_concat {b : UInt8} (hb : b.toNat < 0x80) {state : Option Owed}
    (hstate : ∀ owed, state = some owed → owed.IsHigh) (bytes : Bytes) :
    decodeFrom state (bytes ++ [b]) = decodeFrom state bytes ++ [Char.ofNat b.toNat] := by
  have hnone : ∀ owed, (none : Option Owed) = some owed → owed.IsHigh := nofun
  have hsome : ∀ {owed : Owed}, owed.IsHigh → ∀ o, some owed = some o → o.IsHigh :=
    fun h o ho ↦ Option.some.inj ho ▸ h
  induction bytes generalizing state with
  | nil =>
    cases state with
    | none => simp [decodeFrom, lead_of_ascii hb]
    | some owed => simp [decodeFrom, (hstate owed rfl).take?_eq_none hb, lead_of_ascii hb]
  | cons x bytes ih =>
    rw [List.cons_append, decodeFrom, decodeFrom]
    cases htake : state.bind (·.take? x) with
    | some l =>
      cases l with
      | char c => simp only [ih hnone, List.cons_append]
      | stray => simp only [ih hnone, List.cons_append]
      | start owed =>
        obtain ⟨before, -, hbefore⟩ := Option.bind_eq_some_iff.mp htake
        exact ih (hsome (isHigh_of_take? hbefore))
    | none =>
      cases hlead : lead x with
      | char c => simp only [ih hnone, List.append_assoc, List.cons_append]
      | stray => simp only [ih hnone, List.append_assoc, List.cons_append]
      | start owed => simp only [ih (hsome (isHigh_of_lead hlead)), List.append_assoc]

/-- **An ASCII byte at the end can be cut off before decoding or after.** -/
theorem decode_concat {b : UInt8} (hb : b.toNat < 0x80) (bytes : Bytes) :
    decode (bytes ++ [b]) = decode bytes ++ [Char.ofNat b.toNat] := by
  have hnone : ∀ owed, (none : Option Owed) = some owed → owed.IsHigh := nofun
  exact decodeFrom_concat hb hnone bytes

theorem encode_append (s t : Text) : encode (s ++ t) = encode s ++ encode t := List.flatMap_append

theorem encode_cons (c : Char) (t : Text) :
    encode (c :: t) = String.utf8EncodeChar c ++ encode t :=
  List.flatMap_cons

/-- An ASCII character is one byte, its number. -/
theorem encode_cons_of_ascii {c : Char} (hc : c.toNat < 0x80) (t : Text) :
    encode (c :: t) = UInt8.ofNat c.toNat :: encode t := by
  have hbyte : String.utf8EncodeChar c = [UInt8.ofNat c.toNat] := by
    rw [String.utf8EncodeChar.eq_1]
    exact if_pos (Nat.le_of_lt_succ hc)
  rw [encode_cons, hbyte]
  rfl

theorem encode_replicate_of_ascii {c : Char} (hc : c.toNat < 0x80) (n : Nat) :
    encode (List.replicate n c) = List.replicate n (UInt8.ofNat c.toNat) := by
  induction n with
  | zero => rfl
  | succ n ih => rw [List.replicate_succ, encode_cons_of_ascii hc, ih, List.replicate_succ]

theorem toNat_ofNat_of_ascii {c : Char} (hc : c.toNat < 0x80) :
    (UInt8.ofNat c.toNat).toNat = c.toNat :=
  UInt8.toNat_ofNat_of_lt' (Nat.lt_trans hc (by decide))

/-- The bytes of an ASCII text are the numbers of its characters. -/
theorem mem_encode_of_ascii {t : Text} (h : ∀ c ∈ t, c.toNat < 0x80) {b : UInt8}
    (hb : b ∈ encode t) : ∃ c ∈ t, b.toNat = c.toNat := by
  induction t with
  | nil => cases hb
  | cons c t ih =>
    obtain ⟨hc, ht⟩ := List.forall_mem_cons.mp h
    rw [encode_cons_of_ascii hc, List.mem_cons] at hb
    rcases hb with rfl | hb
    · exact ⟨c, List.mem_cons_self, toNat_ofNat_of_ascii hc⟩
    · obtain ⟨d, hd, hbd⟩ := ih ht hb
      exact ⟨d, List.mem_cons_of_mem c hd, hbd⟩

/-- A text takes at most four bytes for each character. -/
theorem length_encode_le (t : Text) : (encode t).length ≤ 4 * t.length := by
  induction t with
  | nil => exact Nat.le_refl 0
  | cons c t ih =>
    have hc : (String.utf8EncodeChar c).length ≤ 4 := by
      rw [String.length_utf8EncodeChar]
      exact c.utf8Size_le_four
    rw [encode_cons, List.length_append, List.length_cons]
    omega

/-! ### Reading what was written -/

/-- The start of a character is owed the rest of it. -/
theorem decodeFrom_of_lead {b : UInt8} {owed : Owed} (h : lead b = .start owed) (rest : Bytes) :
    decodeFrom none (b :: rest) = decodeFrom (some owed) rest := by
  rw [decodeFrom]
  simp [h]

/-- A byte in the range that an unfinished character asks for adds its six bits. -/
theorem take?_of_mem {more value low high n : Nat} (hn : n < 0x40) (hlow : low ≤ n + 0x80)
    (hhigh : n + 0x80 ≤ high) :
    Owed.take? ⟨more, value, low, high⟩ (UInt8.ofNat (n + 0x80)) =
      some (match more with
        | 0 => .char (Char.ofNat (value * 64 + n))
        | more + 1 => .start ⟨more, value * 64 + n, 0x80, 0xbf⟩) := by
  have hbyte : (UInt8.ofNat (n + 0x80)).toNat = n + 0x80 :=
    UInt8.toNat_ofNat_of_lt' (show n + 0x80 < 0x100 by omega)
  rw [Owed.take?]
  dsimp only
  rw [hbyte, if_pos ⟨hlow, hhigh⟩, Nat.add_sub_cancel]
  cases more <;> rfl

/-- The last byte of a character finishes it. -/
theorem decodeFrom_last {value low high n : Nat} (hn : n < 0x40) (hlow : low ≤ n + 0x80)
    (hhigh : n + 0x80 ≤ high) (rest : Bytes) :
    decodeFrom (some ⟨0, value, low, high⟩) (UInt8.ofNat (n + 0x80) :: rest) =
      Char.ofNat (value * 64 + n) :: decodeFrom none rest := by
  rw [decodeFrom, Option.bind_some, take?_of_mem hn hlow hhigh]

/-- A byte before it leaves one byte less to come, of which any is allowed. -/
theorem decodeFrom_next {more value low high n : Nat} (hn : n < 0x40) (hlow : low ≤ n + 0x80)
    (hhigh : n + 0x80 ≤ high) (rest : Bytes) :
    decodeFrom (some ⟨more + 1, value, low, high⟩) (UInt8.ofNat (n + 0x80) :: rest) =
      decodeFrom (some ⟨more, value * 64 + n, 0x80, 0xbf⟩) rest := by
  rw [decodeFrom, Option.bind_some, take?_of_mem hn hlow hhigh]

/-- A character of two bytes starts with five of its bits. -/
theorem lead_two {v : Nat} (hlow : 0x80 ≤ v) (hhigh : v < 0x800) :
    lead (UInt8.ofNat (v / 64 % 0x20 + 0xc0)) = .start ⟨0, v / 64, 0x80, 0xbf⟩ := by
  have hbyte : (UInt8.ofNat (v / 64 % 0x20 + 0xc0)).toNat = v / 64 + 0xc0 := by
    rw [UInt8.toNat_ofNat_of_lt' (show _ < 0x100 by omega)]
    omega
  rw [lead, hbyte, if_neg (by omega), if_neg (by omega), if_pos (by omega), Nat.add_sub_cancel]

/-- A character of three bytes starts with four of its bits, and its next byte is in the range that
the first one asks for, since it needs three bytes and is no surrogate. -/
theorem lead_three {v : Nat} (hlow : 0x800 ≤ v) (hhigh : v < 0x10000)
    (hvalid : v < 0xd800 ∨ 0xe000 ≤ v) :
    ∃ low high, lead (UInt8.ofNat (v / 4096 % 0x10 + 0xe0)) = .start ⟨1, v / 4096, low, high⟩ ∧
      low ≤ v / 64 % 0x40 + 0x80 ∧ v / 64 % 0x40 + 0x80 ≤ high := by
  have hbyte : (UInt8.ofNat (v / 4096 % 0x10 + 0xe0)).toNat = v / 4096 + 0xe0 := by
    rw [UInt8.toNat_ofNat_of_lt' (show _ < 0x100 by omega)]
    omega
  rw [lead, hbyte, if_neg (by omega), if_neg (by omega), if_neg (by omega)]
  split_ifs with hfirst hlast
  · have hvalue : v / 4096 = 0 := by omega
    exact ⟨0xa0, 0xbf, by rw [hvalue], by omega, by omega⟩
  · have hvalue : v / 4096 = 0xd := by omega
    exact ⟨0x80, 0x9f, by rw [hvalue], by omega, by omega⟩
  · exact ⟨0x80, 0xbf, by rw [Nat.add_sub_cancel], by omega, by omega⟩
  all_goals omega

/-- A character of four bytes starts with three of its bits, and its next byte is in the range that
the first one asks for, since it needs four bytes and is a character. -/
theorem lead_four {v : Nat} (hlow : 0x10000 ≤ v) (hvalid : v < 0x110000) :
    ∃ low high, lead (UInt8.ofNat (v / 262144 % 0x08 + 0xf0)) =
        .start ⟨2, v / 262144, low, high⟩ ∧
      low ≤ v / 4096 % 0x40 + 0x80 ∧ v / 4096 % 0x40 + 0x80 ≤ high := by
  have hbyte : (UInt8.ofNat (v / 262144 % 0x08 + 0xf0)).toNat = v / 262144 + 0xf0 := by
    rw [UInt8.toNat_ofNat_of_lt' (show _ < 0x100 by omega)]
    omega
  rw [lead, hbyte, if_neg (by omega), if_neg (by omega), if_neg (by omega), if_neg (by omega),
    if_neg (by omega), if_neg (by omega)]
  split_ifs with hfirst hmiddle hlast
  · have hvalue : v / 262144 = 0 := by omega
    exact ⟨0x90, 0xbf, by rw [hvalue], by omega, by omega⟩
  · exact ⟨0x80, 0xbf, by rw [Nat.add_sub_cancel], by omega, by omega⟩
  · have hvalue : v / 262144 = 4 := by omega
    exact ⟨0x80, 0x8f, by rw [hvalue], by omega, by omega⟩
  all_goals omega

/-- A character is read from its bytes, whatever comes after them. -/
theorem decodeFrom_encodeChar (c : Char) (rest : Bytes) :
    decodeFrom none (String.utf8EncodeChar c ++ rest) = c :: decodeFrom none rest := by
  obtain ⟨v, hv⟩ : ∃ v, c.val.toNat = v := ⟨_, rfl⟩
  have hchar : ∀ n, n = v → Char.ofNat n = c := by
    rintro n rfl
    rw [← hv]
    exact Char.ofNat_toNat c
  have hvalid : v < 0xd800 ∨ 0xe000 ≤ v ∧ v < 0x110000 := by
    have := c.valid
    rw [UInt32.isValidChar, Nat.isValidChar, hv] at this
    omega
  rw [String.utf8EncodeChar.eq_1, hv]
  split_ifs with hone htwo hthree
  · have hbyte : (UInt8.ofNat v).toNat = v :=
      UInt8.toNat_ofNat_of_lt' (show v < 0x100 by omega)
    have hlead : lead (UInt8.ofNat v) = .char c := by
      rw [lead_of_ascii (by omega), hbyte, hchar v rfl]
    rw [List.singleton_append, decodeFrom]
    simp [hlead]
  · simp only [List.cons_append, List.nil_append]
    rw [decodeFrom_of_lead (lead_two (by omega) (by omega)),
      decodeFrom_last (by omega) (by omega) (by omega), hchar _ (by omega)]
  · obtain ⟨low, high, hlead, hlow, hhigh⟩ := lead_three (v := v) (by omega) (by omega) (by omega)
    simp only [List.cons_append, List.nil_append]
    rw [decodeFrom_of_lead hlead, decodeFrom_next (by omega) hlow hhigh,
      decodeFrom_last (by omega) (by omega) (by omega), hchar _ (by omega)]
  · obtain ⟨low, high, hlead, hlow, hhigh⟩ := lead_four (v := v) (by omega) (by omega)
    simp only [List.cons_append, List.nil_append]
    rw [decodeFrom_of_lead hlead, decodeFrom_next (by omega) hlow hhigh,
      decodeFrom_next (by omega) (by omega) (by omega),
      decodeFrom_last (by omega) (by omega) (by omega), hchar _ (by omega)]

/-- A text is read as it was written, whatever comes after it. -/
theorem decode_encode_append (t : Text) (rest : Bytes) :
    decode (encode t ++ rest) = t ++ decode rest := by
  induction t with
  | nil => rfl
  | cons c t ih =>
    rw [encode_cons, List.append_assoc, decode, decodeFrom_encodeChar]
    exact congrArg (c :: ·) ih

/-- **A text is read as it was written.** -/
theorem decode_encode (t : Text) : decode (encode t) = t := by
  simpa [decode, decodeFrom] using decode_encode_append t []

end Utf8

end BatteryBench
