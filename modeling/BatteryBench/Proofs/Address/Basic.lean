import BatteryBench.Address.Basic
import BatteryBench.Proofs.Address.IPv4
import BatteryBench.Proofs.Number.Integer

/-!
# The text of an address is read back

The groups of an IPv6 address are read over whatever follows them, as long as that is nothing or the
gap `::` (`takeGroups_groupsText`). Which run of zero groups the gap stands for is left to the
writer; the reader only counts what is missing, so all it needs is that the groups that were left
out were zero and at least one (`take_append_zeros`).

An address for version 4 and one for version 6 are told apart by the colon
(`IPv6.colon_mem_text`), so the text of an address of either version is read as that address
(`readAddress?_text`).
-/

namespace BatteryBench

/-! ### One group -/

/-- Whether a character is a hexadecimal digit. -/
def isHexDigit (c : Char) : Bool := (digitOf? 16 c).isSome

theorem isHexDigit_of_isDigit {c : Char} (hc : c.isDigit) : isHexDigit c := by
  have hten := digitOf?_ten c
  rw [if_pos hc, digitOf?, Option.filter_eq_some_iff, decide_eq_true_eq] at hten
  obtain ⟨hvalue, hlt⟩ := hten
  have hsixteen : digitOf? 16 c = some (c.toNat - '0'.toNat) :=
    Option.filter_eq_some_iff.mpr ⟨hvalue, decide_eq_true (Nat.lt_trans hlt (by decide))⟩
  rw [isHexDigit, hsixteen, Option.isSome_some]

theorem isHexDigit_of_mem_groupText {g : UInt16} {c : Char} (hc : c ∈ groupText g) :
    isHexDigit c :=
  (writesNatural_toDigits (by decide) g.toNat).isSome_digitOf? (by decide) c hc

/-- **A group is read**, if no digit follows it. -/
theorem takeGroup?_groupText_append (g : UInt16) {rest : Text}
    (hrest : rest.takeWhile isHexDigit = []) :
    takeGroup? (groupText g ++ rest) = some (g, rest) := by
  have hdigits : (groupText g ++ rest).takeWhile (fun c ↦ (digitOf? 16 c).isSome) = groupText g :=
    takeWhile_append_of_stop (fun _ ↦ isHexDigit_of_mem_groupText) hrest
  have hread : natural? 16 (groupText g) = some g.toNat :=
    (natural?_eq_some_iff (by decide)).mpr (writesNatural_toDigits (by decide) g.toNat)
  have hlength : (groupText g).length ≤ 4 :=
    (Nat.length_toDigits_le_iff (by decide) (by decide)).mpr g.toNat_lt
  simp only [takeGroup?, hdigits, hread, if_pos hlength, List.drop_left]
  rw [Nat.toUInt16, UInt16.ofNat_toNat]

/-- A dotted quad has a point behind its first digits. -/
theorem takeIPv4?_eq_none {t : Text} (h : (t.dropWhile isHexDigit).head? ≠ some '.') :
    takeIPv4? t = none := by
  rw [Option.eq_none_iff_forall_ne_some]
  rintro ⟨ip, rest⟩ htake
  obtain ⟨rfl, -⟩ := takeIPv4?_eq_some_iff.mp htake
  have hdigits : ∀ c ∈ decimal ip.a.toNat, isHexDigit c := fun c hc ↦
    isHexDigit_of_isDigit (isDigits_decimal _ c hc)
  rw [IPv4.text, List.append_assoc, List.dropWhile_append_of_pos hdigits] at h
  exact h rfl

/-! ### Groups -/

/-- That a text is what may follow a run of groups: nothing, or a gap. -/
def EndsGroups (t : Text) : Prop := t = [] ∨ ∃ after, t = ':' :: ':' :: after

/-- Groups with a colon in front of each. -/
def furtherText (gs : List UInt16) : Text := gs.flatMap fun g ↦ ':' :: groupText g

theorem groupsText_cons (g : UInt16) (gs : List UInt16) :
    groupsText (g :: gs) = groupText g ++ furtherText gs := by
  induction gs generalizing g with
  | nil => simp [groupsText, furtherText]
  | cons next gs ih =>
    have hnext := ih next
    rw [groupsText, List.map_cons] at hnext ⊢
    rw [List.map_cons, List.intercalate_cons_cons, hnext]
    simp [furtherText]

/-- What follows a group is no digit, and no point. -/
theorem furtherText_append (gs : List UInt16) {rest : Text} (hrest : EndsGroups rest) :
    (furtherText gs ++ rest).takeWhile isHexDigit = [] ∧
      (furtherText gs ++ rest).head? ≠ some '.' := by
  cases gs with
  | nil =>
    obtain rfl | ⟨after, rfl⟩ := hrest
    · exact ⟨rfl, by simp [furtherText]⟩
    · exact ⟨List.takeWhile_cons_of_neg (by decide), by simp [furtherText]⟩
  | cons g gs => exact ⟨List.takeWhile_cons_of_neg (by decide), by simp [furtherText]⟩

/-- Where no group starts, none is read. -/
theorem takeGroups_of_endsGroups (limit : Nat) (isFirst : Bool) {t : Text} (ht : EndsGroups t) :
    takeGroups limit isFirst t = ⟨[], false, t⟩ := by
  have hnone : ∀ after, takeColon? isFirst t = some after →
      takeIPv4? after = none ∧ takeGroup? after = none := by
    obtain rfl | ⟨rest, rfl⟩ := ht <;> cases isFirst <;> rintro after ⟨⟩ <;>
      exact ⟨takeIPv4?_eq_none (by simp [isHexDigit, digitOf?, digitValue?]), rfl⟩
  cases limit with
  | zero => rfl
  | succ limit =>
    rw [takeGroups]
    split
    · rfl
    · next after hafter =>
      obtain ⟨hquad, hgroup⟩ := hnone after hafter
      rw [hquad, hgroup, ite_self]

/-- **A group is read in front of others.** -/
theorem takeGroups_group (limit : Nat) {isFirst : Bool} {t rest : Text} {g : UInt16}
    (hcolon : takeColon? isFirst t = some (groupText g ++ rest))
    (hdigit : rest.takeWhile isHexDigit = []) (hpoint : rest.head? ≠ some '.') :
    takeGroups (limit + 1) isFirst t =
      { takeGroups limit false rest with groups := g :: (takeGroups limit false rest).groups } := by
  have hdrop : (groupText g ++ rest).dropWhile isHexDigit = rest :=
    dropWhile_append_of_stop (fun _ ↦ isHexDigit_of_mem_groupText) hdigit
  have hquad : takeIPv4? (groupText g ++ rest) = none := takeIPv4?_eq_none (hdrop.symm ▸ hpoint)
  rw [takeGroups, hcolon]
  simp only [hquad, ite_self, takeGroup?_groupText_append g hdigit]

theorem takeGroups_furtherText {limit : Nat} {gs : List UInt16} (hlength : gs.length ≤ limit)
    {rest : Text} (hrest : EndsGroups rest) :
    takeGroups limit false (furtherText gs ++ rest) = ⟨gs, false, rest⟩ := by
  induction gs generalizing limit with
  | nil => exact takeGroups_of_endsGroups limit false hrest
  | cons g gs ih =>
    obtain ⟨limit, rfl⟩ := Nat.exists_eq_add_of_le' (Nat.le_trans (Nat.le_add_left 1 _) hlength)
    obtain ⟨hdigit, hpoint⟩ := furtherText_append gs hrest
    have hcolon : takeColon? false (furtherText (g :: gs) ++ rest) =
        some (groupText g ++ (furtherText gs ++ rest)) := by
      simp [furtherText, takeColon?]
    rw [takeGroups_group limit hcolon hdigit hpoint, ih (Nat.le_of_succ_le_succ hlength)]

/-- **Groups are read in front of what ends them**, if there are not too many. -/
theorem takeGroups_groupsText {limit : Nat} {gs : List UInt16} (hlength : gs.length ≤ limit)
    {rest : Text} (hrest : EndsGroups rest) :
    takeGroups limit true (groupsText gs ++ rest) = ⟨gs, false, rest⟩ := by
  cases gs with
  | nil => exact takeGroups_of_endsGroups limit true hrest
  | cons g gs =>
    obtain ⟨limit, rfl⟩ := Nat.exists_eq_add_of_le' (Nat.le_trans (Nat.le_add_left 1 _) hlength)
    obtain ⟨hdigit, hpoint⟩ := furtherText_append gs hrest
    have hcolon : takeColon? true (groupsText (g :: gs) ++ rest) =
        some (groupText g ++ (furtherText gs ++ rest)) := by
      rw [groupsText_cons, List.append_assoc]
      rfl
    rw [takeGroups_group limit hcolon hdigit hpoint,
      takeGroups_furtherText (Nat.le_of_succ_le_succ hlength) hrest]

/-! ### Runs of zero groups -/

/-- What is found as the longest run is a run, if it is not empty. -/
theorem longestZeroRun_eq (gs : List UInt16) :
    (longestZeroRun gs).2 = 0 ∨ (longestZeroRun gs).2 = zeroRun gs (longestZeroRun gs).1 := by
  refine List.foldlRecOn (motive := fun best : Nat × Nat ↦ best.2 = 0 ∨ best.2 = zeroRun gs best.1) _ _
    (.inl rfl) fun best hbest start _ ↦ ?_
  -- A start is taken together with the run there.
  split
  · exact .inr rfl
  · exact hbest

/-- **A run is left out and put back.** -/
theorem take_append_zeros (gs : List UInt16) (start : Nat) :
    gs.take start ++ List.replicate (zeroRun gs start) 0 ++ gs.drop (start + zeroRun gs start) =
      gs := by
  have hzeros : (gs.drop start).takeWhile (· == 0) = List.replicate (zeroRun gs start) 0 := by
    refine List.eq_replicate_iff.mpr ⟨rfl, fun g hg ↦ ?_⟩
    exact eq_of_beq (List.mem_takeWhile_imp (p := (· == 0)) hg)
  have hsplit := List.takeWhile_append_dropWhile (p := (· == 0)) (l := gs.drop start)
  have hdrop : gs.drop (start + zeroRun gs start) = (gs.drop start).dropWhile (· == 0) :=
    calc gs.drop (start + zeroRun gs start)
      _ = ((gs.drop start).takeWhile (· == 0) ++ (gs.drop start).dropWhile (· == 0)).drop
            (zeroRun gs start) := by rw [hsplit, List.drop_drop]
      _ = (gs.drop start).dropWhile (· == 0) := List.drop_left' rfl
  rw [List.append_assoc, ← hzeros, hdrop, hsplit, List.take_append_drop]

theorem start_add_zeroRun_le {gs : List UInt16} {start : Nat} (h : 0 < zeroRun gs start) :
    start + zeroRun gs start ≤ gs.length := by
  have hle : zeroRun gs start ≤ (gs.drop start).length := (List.takeWhile_prefix _).length_le
  rw [List.length_drop] at hle
  omega

/-! ### Addresses -/

theorem groupsOfIPv4_ipv4OfGroups (high low : UInt16) :
    groupsOfIPv4 (ipv4OfGroups high low) = [high, low] := by
  have hjoin (g : UInt16) :
      ((g.toNat / 256).toUInt8.toNat * 256 + (g.toNat % 256).toUInt8.toNat).toUInt16 = g := by
    have hhigh : (g.toNat / 256).toUInt8.toNat = g.toNat / 256 :=
      UInt8.toNat_ofNat_of_lt' (Nat.div_lt_of_lt_mul g.toNat_lt)
    have hlow : (g.toNat % 256).toUInt8.toNat = g.toNat % 256 :=
      UInt8.toNat_ofNat_of_lt' (Nat.mod_lt _ (by decide))
    rw [hhigh, hlow, Nat.div_add_mod', Nat.toUInt16, UInt16.ofNat_toNat]
  simp only [groupsOfIPv4, ipv4OfGroups, hjoin]

/-- Eight groups are read as they are. -/
theorem ipv6Groups?_groupsText {gs : List UInt16} (h : gs.length = 8) :
    ipv6Groups? (groupsText gs) = some gs := by
  have hfront := takeGroups_groupsText (Nat.le_of_eq h) (.inl rfl)
  rw [List.append_nil] at hfront
  simp only [ipv6Groups?, hfront, h, if_true]

/-- **A gap is read as the zero groups that are missing.** -/
theorem ipv6Groups?_gap {front back : List UInt16} {t : Text} {quad : Bool}
    (hlength : front.length ≤ 7)
    (hback : takeGroups (7 - front.length) true t = ⟨back, quad, []⟩) :
    ipv6Groups? (groupsText front ++ ':' :: ':' :: t) =
      some (front ++ List.replicate (8 - front.length - back.length) 0 ++ back) := by
  have hfront : takeGroups 8 true (groupsText front ++ ':' :: ':' :: t) = ⟨front, false, _⟩ :=
    takeGroups_groupsText (by omega) (.inr ⟨t, rfl⟩)
  have hne : front.length ≠ 8 := by omega
  simp only [ipv6Groups?, hfront, hback, if_neg hne, Bool.false_eq_true, if_false, if_true]

/-- What stands for an address of version 4 ends in its dotted quad. -/
theorem takeGroups_mapped (ip : IPv4) :
    takeGroups 7 true ("ffff:" ++ ip.text) = ⟨0xffff :: groupsOfIPv4 ip, true, []⟩ := by
  have htake : takeIPv4? ip.text = some (ip, []) :=
    takeIPv4?_eq_some_iff.mpr ⟨(List.append_nil _).symm, rfl⟩
  have hlast : takeGroups 6 false (':' :: ip.text) = ⟨groupsOfIPv4 ip, true, []⟩ := by
    simp only [takeGroups, takeColon?, Bool.false_eq_true, if_false, htake]
    rfl
  have hcolon : takeColon? true ("ffff:" ++ ip.text) =
      some (groupText 0xffff ++ ':' :: ip.text) := rfl
  rw [takeGroups_group 6 hcolon (List.takeWhile_cons_of_neg (by decide)) (by simp), hlast]

namespace IPv6

/-- The forms in which an address is written. -/
theorem text_cases (ip : IPv6) :
    (∃ high low, ip.groups = [0, 0, 0, 0, 0, 0xffff, high, low] ∧
      ip.text = "::ffff:" ++ (ipv4OfGroups high low).text) ∨
    ip.text = groupsText ip.groups ∨
    ∃ start, 0 < zeroRun ip.groups start ∧
      ip.text = groupsText (ip.groups.take start) ++ "::" ++
        groupsText (ip.groups.drop (start + zeroRun ip.groups start)) := by
  rw [text]
  split
  · next high low h => exact .inl ⟨high, low, h, rfl⟩
  · dsimp only
    split_ifs with hshort
    · exact .inr (.inl rfl)
    · rcases longestZeroRun_eq ip.groups with hzero | hrun
      · omega
      · rw [hrun] at hshort ⊢
        exact .inr (.inr ⟨_, by omega, rfl⟩)

/-- **The text of an address of version 6 is read as that address.** -/
theorem ipv6Groups?_text (ip : IPv6) : ipv6Groups? ip.text = some ip.groups := by
  have hlength := ip.length_groups
  rcases ip.text_cases with ⟨high, low, hgroups, ht⟩ | ht | ⟨start, hpos, ht⟩
  · rw [ht, hgroups]
    have hgap : ([] : List UInt16).length ≤ 7 := by decide
    refine (ipv6Groups?_gap hgap (takeGroups_mapped _)).trans ?_
    rw [groupsOfIPv4_ipv4OfGroups]
    rfl
  · rw [ht, ipv6Groups?_groupsText hlength]
  · generalize hgroups : ip.groups = gs at hlength hpos ht ⊢
    have hle := start_add_zeroRun_le hpos
    have hfront : (gs.take start).length = start := by
      rw [List.length_take]
      omega
    have hback : (gs.drop (start + zeroRun gs start)).length = 8 - start - zeroRun gs start := by
      rw [List.length_drop]
      omega
    have hzeros : 8 - start - (8 - start - zeroRun gs start) = zeroRun gs start := by omega
    have hread := takeGroups_groupsText
      (show (gs.drop (start + zeroRun gs start)).length ≤ 7 - (gs.take start).length by omega)
      (.inl rfl)
    rw [List.append_nil] at hread
    have hgap := ipv6Groups?_gap (by omega) hread
    rw [hfront, hback, hzeros, take_append_zeros] at hgap
    rw [ht, List.append_assoc]
    exact hgap

/-- There is a colon in it. -/
theorem colon_mem_text (ip : IPv6) : ':' ∈ ip.text := by
  rcases ip.text_cases with ⟨high, low, -, ht⟩ | ht | ⟨start, -, ht⟩
  · rw [ht]
    exact List.mem_cons_self
  · have hlength := ip.length_groups
    rw [ht]
    rcases hgroups : ip.groups with - | ⟨g, - | ⟨next, gs⟩⟩
    · simp [hgroups] at hlength
    · simp [hgroups] at hlength
    · rw [groupsText_cons]
      simp [furtherText]
  · rw [ht]
    simp

end IPv6

/-- **The text of an address is read as that address**, of either version. -/
theorem readAddress?_text (a : Address) : readAddress? a.text = some a := by
  cases a with
  | v4 ip => rw [Address.text, readAddress?, readIPv4?_eq_some_iff.mpr rfl]
  | v6 ip =>
    have hother : readIPv4? ip.text = none := by
      rw [Option.eq_none_iff_forall_ne_some]
      intro quad hquad
      have hcolon := ip.colon_mem_text
      rw [readIPv4?_eq_some_iff.mp hquad] at hcolon
      exact IPv4.not_mem_text (by decide) (by decide) hcolon
    have hread : readIPv6? ip.text = some ip := by
      rw [readIPv6?, ip.ipv6Groups?_text]
      exact dif_pos ip.length_groups
    rw [Address.text, readAddress?, hother, hread, Option.map_some]

end BatteryBench
