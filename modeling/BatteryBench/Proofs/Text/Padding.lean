import BatteryBench.Proofs.Text.Pieces
import Mathlib.Data.List.TakeWhile

/-!
# Padding around a text

Every text is padding, what `trim` leaves of it, and padding (`exists_padded_trim`), and padding
that is put around a text is removed again (`trim_padded`). A separator that is no padding splits a
text into the same pieces whether or not it was trimmed before, padding around the pieces aside
(`map_trim_splitAt_trim`).
-/

namespace BatteryBench

/-- Whether a text is nothing but padding. -/
def IsAllPadding (t : Text) : Prop := ∀ c ∈ t, isPadding c

instance (t : Text) : Decidable (IsAllPadding t) := List.decidableBAll _ t

theorem isAllPadding_nil : IsAllPadding [] := fun _ hc ↦ absurd hc List.not_mem_nil

theorem trimStart_append {a : Text} (ha : IsAllPadding a) (t : Text) :
    trimStart (a ++ t) = trimStart t :=
  List.dropWhile_append_of_pos ha

theorem trimStart_of_isAllPadding {t : Text} (ht : IsAllPadding t) : trimStart t = [] :=
  List.dropWhile_eq_nil_iff.mpr ht

theorem trimEnd_append {b : Text} (hb : IsAllPadding b) (t : Text) :
    trimEnd (t ++ b) = trimEnd t := by
  have hreverse : ∀ c ∈ b.reverse, isPadding c := fun c hc ↦ hb c (List.mem_reverse.mp hc)
  rw [trimEnd, List.reverse_append, List.dropWhile_append_of_pos hreverse, trimEnd]

/-- Either a text is nothing but padding, or what follows it is not looked at from the start. -/
theorem trimStart_append_right (t b : Text) :
    IsAllPadding t ∨ trimStart (t ++ b) = trimStart t ++ b := by
  induction t with
  | nil => exact .inl fun _ hc ↦ absurd hc List.not_mem_nil
  | cons c t ih =>
    by_cases hc : isPadding c
    · refine ih.imp (fun h ↦ List.forall_mem_cons.mpr ⟨hc, h⟩) fun h ↦ ?_
      rw [trimStart, trimStart, List.cons_append, List.dropWhile_cons_of_pos hc,
        List.dropWhile_cons_of_pos hc]
      exact h
    · refine .inr ?_
      rw [trimStart, trimStart, List.cons_append, List.dropWhile_cons_of_neg hc,
        List.dropWhile_cons_of_neg hc, List.cons_append]

/-- Behind a text that is not all padding, padding stays where it is. -/
theorem trimStart_append_padding {b : Text} (hb : IsAllPadding b) (t : Text) :
    trimStart t = [] ∧ trimStart (t ++ b) = [] ∨
      ∃ c rest, trimStart t = c :: rest ∧ trimStart (t ++ b) = c :: (rest ++ b) := by
  have hall : IsAllPadding t → trimStart (t ++ b) = [] := fun ht ↦
    trimStart_of_isAllPadding (List.forall_mem_append.mpr ⟨ht, hb⟩)
  rcases trimStart_append_right t b with ht | hsplit
  · exact .inl ⟨trimStart_of_isAllPadding ht, hall ht⟩
  · cases hstart : trimStart t with
    | nil => exact .inl ⟨rfl, hall (List.dropWhile_eq_nil_iff.mp hstart)⟩
    | cons c rest => exact .inr ⟨c, rest, rfl, by rw [hsplit, hstart, List.cons_append]⟩

/-- What a text starts with, padding aside. -/
theorem trimStart_eq_cons_iff {t rest : Text} {c : Char} :
    trimStart t = c :: rest ↔
      isPadding c = false ∧ ∃ a, IsAllPadding a ∧ t = a ++ c :: rest := by
  constructor
  · intro h
    have hc := List.head?_dropWhile_not isPadding t
    rw [← trimStart, h] at hc
    refine ⟨hc, t.takeWhile isPadding, fun _ hd ↦ List.mem_takeWhile_imp hd, ?_⟩
    rw [← h, trimStart, List.takeWhile_append_dropWhile]
  · rintro ⟨hc, a, ha, rfl⟩
    rw [trimStart_append ha, trimStart, List.dropWhile_cons_of_neg (by simp [hc])]

/-- From the start, nothing is removed behind a character that is no padding. -/
theorem trimStart_append_cons {c : Char} (hc : isPadding c = false) (s t : Text) :
    trimStart (s ++ c :: t) = trimStart s ++ c :: t := by
  rcases trimStart_append_right s (c :: t) with hs | hsplit
  · rw [trimStart_append hs, trimStart_of_isAllPadding hs, List.nil_append, trimStart,
      List.dropWhile_cons_of_neg (by simp [hc])]
  · exact hsplit

/-- From the end, nothing is removed in front of one. -/
theorem trimEnd_append_cons {c : Char} (hc : isPadding c = false) (s t : Text) :
    trimEnd (s ++ c :: t) = s ++ c :: trimEnd t := by
  have hreverse : (s ++ c :: t).reverse = t.reverse ++ c :: s.reverse := by simp
  have hstart := trimStart_append_cons hc t.reverse s.reverse
  rw [trimEnd, hreverse, ← trimStart, hstart, trimEnd, trimStart]
  simp

/-- So the two sides of such a character are trimmed on their own. -/
theorem trim_append_cons {c : Char} (hc : isPadding c = false) (s t : Text) :
    trim (s ++ c :: t) = trimStart s ++ c :: trimEnd t := by
  rw [trim, trimStart_append_cons hc, trimEnd_append_cons hc]

/-- **Padding around a text is removed.** -/
theorem trim_padded {a b : Text} (ha : IsAllPadding a) (hb : IsAllPadding b) (t : Text) :
    trim (a ++ t ++ b) = trim t := by
  rw [trim, List.append_assoc, trimStart_append ha]
  rcases trimStart_append_right t b with ht | hsplit
  · have htb : IsAllPadding (t ++ b) := List.forall_mem_append.mpr ⟨ht, hb⟩
    rw [trimStart_of_isAllPadding htb, trim, trimStart_of_isAllPadding ht]
  · rw [hsplit, trimEnd_append hb, trim]

/-- What is dropped from the start of a text has the property it is dropped for. -/
theorem exists_append_dropWhile (p : Char → Bool) (t : Text) :
    ∃ a, (∀ c ∈ a, p c) ∧ t = a ++ t.dropWhile p :=
  ⟨t.takeWhile p, fun _ hc ↦ List.mem_takeWhile_imp hc, List.takeWhile_append_dropWhile.symm⟩

/-- So has what is dropped from its end. -/
theorem exists_dropWhile_append (p : Char → Bool) (t : Text) :
    ∃ b, (∀ c ∈ b, p c) ∧ t = (t.reverse.dropWhile p).reverse ++ b := by
  refine ⟨(t.reverse.takeWhile p).reverse,
    fun c hc ↦ List.mem_takeWhile_imp (List.mem_reverse.mp hc), ?_⟩
  rw [← List.reverse_append, List.takeWhile_append_dropWhile, List.reverse_reverse]

theorem exists_padded_trimStart (t : Text) : ∃ a, IsAllPadding a ∧ t = a ++ trimStart t :=
  exists_append_dropWhile isPadding t

theorem exists_padded_trimEnd (t : Text) : ∃ b, IsAllPadding b ∧ t = trimEnd t ++ b :=
  exists_dropWhile_append isPadding t

/-- **A text is what is left of it** between padding. -/
theorem exists_padded_trim (t : Text) :
    ∃ a b, IsAllPadding a ∧ IsAllPadding b ∧ t = a ++ trim t ++ b := by
  obtain ⟨a, ha, hstart⟩ := exists_padded_trimStart t
  obtain ⟨b, hb, hend⟩ := exists_padded_trimEnd (trimStart t)
  exact ⟨a, b, ha, hb, by rw [List.append_assoc, trim, ← hend, ← hstart]⟩

/-- What is left does not start with padding. -/
theorem isPadding_of_head?_trim {t : Text} {c : Char} (h : (trim t).head? = some c) :
    isPadding c = false := by
  cases hstart : trimStart t with
  | nil =>
    rw [trim, hstart] at h
    cases h
  | cons d rest =>
    have hd := (trimStart_eq_cons_iff.mp hstart).1
    have htrim : trim t = d :: trimEnd rest := by
      rw [trim, hstart]
      exact trimEnd_append_cons hd [] rest
    rw [htrim, List.head?_cons, Option.some.injEq] at h
    exact h ▸ hd

/-- Nor does it end with any. -/
theorem isPadding_of_getLast?_trim {t : Text} {c : Char} (h : (trim t).getLast? = some c) :
    isPadding c = false := by
  rw [trim, trimEnd, List.getLast?_reverse] at h
  have hhead := List.head?_dropWhile_not isPadding (trimStart t).reverse
  rwa [h] at hhead

/-- Only padding is trimmed away whole. -/
theorem trim_eq_nil_iff {t : Text} : trim t = [] ↔ IsAllPadding t := by
  constructor
  · intro h
    obtain ⟨a, b, ha, hb, ht⟩ := exists_padded_trim t
    rw [ht, h, List.append_nil]
    exact List.forall_mem_append.mpr ⟨ha, hb⟩
  · intro h
    rw [trim, trimStart_of_isAllPadding h]
    rfl

theorem trim_trimStart (t : Text) : trim (trimStart t) = trim t := by
  obtain ⟨a, ha, hstart⟩ := exists_padded_trimStart t
  have hpadded := trim_padded ha isAllPadding_nil (trimStart t)
  rw [List.append_nil, ← hstart] at hpadded
  exact hpadded.symm

theorem trim_trim (t : Text) : trim (trim t) = trim t := by
  obtain ⟨a, b, ha, hb, ht⟩ := exists_padded_trim t
  calc trim (trim t) = trim (a ++ trim t ++ b) := (trim_padded ha hb (trim t)).symm
    _ = trim t := by rw [← ht]

/-- Where nothing is padding, nothing is removed. -/
theorem trim_of_forall {t : Text} (h : ∀ c ∈ t, isPadding c = false) : trim t = t := by
  obtain ⟨a, b, ha, hb, ht⟩ := exists_padded_trim t
  have hnil : ∀ s : Text, IsAllPadding s → (∀ c ∈ s, isPadding c = false) → s = [] := by
    intro s hs hno
    refine List.eq_nil_iff_forall_not_mem.mpr fun c hc ↦ ?_
    have hpad := hs c hc
    rw [hno c hc] at hpad
    cases hpad
  have hnila : a = [] := hnil a ha fun c hc ↦ h c (by rw [ht]; simp [hc])
  have hnilb : b = [] := hnil b hb fun c hc ↦ h c (by rw [ht]; simp [hc])
  rw [hnila, hnilb, List.nil_append, List.append_nil] at ht
  exact ht.symm

/-- Where all characters have a property that no padding has, nothing is removed. -/
theorem trim_of_forall_of_all {p : Char → Bool} {t : Text} (ht : ∀ c ∈ t, p c)
    (hp : padding.all fun d ↦ !p d) : trim t = t := by
  refine trim_of_forall fun c hc ↦ Bool.eq_false_iff.mpr fun hpad ↦ ?_
  have hno := List.all_eq_true.mp hp c (List.contains_iff_mem.mp hpad)
  rw [ht c hc] at hno
  cases hno

/-! ### Pieces of a padded text -/

/-- A separator that is no padding stands in no padding. -/
theorem IsAllPadding.not_mem {sep : Char} (hsep : isPadding sep = false) {t : Text}
    (ht : IsAllPadding t) : sep ∉ t :=
  not_mem_of_forall ht hsep

/-- **Trimming a text first changes no piece** but for the padding around it. -/
theorem map_trim_splitAt_trim {sep : Char} (hsep : isPadding sep = false) (t : Text) :
    (splitAt sep (trim t)).map trim = (splitAt sep t).map trim := by
  obtain ⟨a, b, ha, hb, ht⟩ := exists_padded_trim t
  obtain ⟨init, last, hright, hrightPadded⟩ :=
    splitAt_append_right (hb.not_mem hsep) (a ++ trim t)
  obtain ⟨first, rest, hleft, hleftPadded⟩ := splitAt_append_left (ha.not_mem hsep) (trim t)
  have hlast : trim (last ++ b) = trim last := trim_padded isAllPadding_nil hb last
  have hfirst : trim (a ++ first) = trim first := by
    simpa using trim_padded ha isAllPadding_nil first
  -- The padding in front is put back first, then the padding behind.
  calc (splitAt sep (trim t)).map trim = (splitAt sep (a ++ trim t)).map trim := by
        rw [hleft, hleftPadded, List.map_cons, List.map_cons, hfirst]
    _ = (splitAt sep (a ++ trim t ++ b)).map trim := by
        rw [hright, hrightPadded, List.map_append, List.map_append, List.map_singleton,
          List.map_singleton, hlast]
    _ = (splitAt sep t).map trim := by rw [← ht]

/-- Nor does putting padding around it. -/
theorem map_trim_splitAt_padded {sep : Char} (hsep : isPadding sep = false) {a b : Text}
    (ha : IsAllPadding a) (hb : IsAllPadding b) (t : Text) :
    (splitAt sep (a ++ t ++ b)).map trim = (splitAt sep t).map trim := by
  rw [← map_trim_splitAt_trim hsep, trim_padded ha hb, map_trim_splitAt_trim hsep]

end BatteryBench
