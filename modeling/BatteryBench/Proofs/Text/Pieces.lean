import BatteryBench.Text.Basic
import Mathlib.Data.List.TakeWhile

/-!
# Splitting at a separator

What stands in front of a separator is taken up to it (`takeWhile_append_cons`), and the two sides
of a separator are split on their own (`splitAt_append_separator`). The pieces of a text hold no
separator (`not_mem_of_mem_splitAt`), and one or more texts without any are the pieces of what they
are joined to (`splitAt_intercalate`). With `intercalate_splitAt` this makes splitting the only way
to undo joining (`splitAt_eq_iff`).
-/

namespace BatteryBench

/-! ### Up to where a property ends -/

/-- All that has a property is taken from the start of a text, if it ends there. -/
theorem takeWhile_append_of_stop {p : Char → Bool} {s rest : Text} (hs : ∀ c ∈ s, p c)
    (hrest : rest.takeWhile p = []) : (s ++ rest).takeWhile p = s := by
  rw [List.takeWhile_append_of_pos hs, hrest, List.append_nil]

/-- And the rest is left. -/
theorem dropWhile_append_of_stop {p : Char → Bool} {s rest : Text} (hs : ∀ c ∈ s, p c)
    (hrest : rest.takeWhile p = []) : (s ++ rest).dropWhile p = rest := by
  have hsplit := List.takeWhile_append_dropWhile (p := p) (l := rest)
  rw [hrest, List.nil_append] at hsplit
  rw [List.dropWhile_append_of_pos hs, hsplit]

/-- Up to a separator, everything before it is taken. -/
theorem takeWhile_append_cons {sep : Char} {s : Text} (h : sep ∉ s) (t : Text) :
    (s ++ sep :: t).takeWhile (· ≠ sep) = s :=
  takeWhile_append_of_stop (fun _ hc ↦ decide_eq_true fun e ↦ h (e ▸ hc))
    (List.takeWhile_cons_of_neg (by simp))

theorem takeWhile_of_not_mem {sep : Char} {s : Text} (h : sep ∉ s) :
    s.takeWhile (· ≠ sep) = s :=
  List.takeWhile_eq_self_iff.mpr fun _ hc ↦ decide_eq_true fun e ↦ h (e ▸ hc)

/-- From a separator on, nothing before it is left. -/
theorem dropWhile_append_cons {sep : Char} {s : Text} (h : sep ∉ s) (t : Text) :
    (s ++ sep :: t).dropWhile (· ≠ sep) = sep :: t :=
  dropWhile_append_of_stop (fun _ hc ↦ decide_eq_true fun e ↦ h (e ▸ hc))
    (List.takeWhile_cons_of_neg (by simp))

theorem dropWhile_of_not_mem {sep : Char} {s : Text} (h : sep ∉ s) :
    s.dropWhile (· ≠ sep) = [] :=
  List.dropWhile_eq_nil_iff.mpr fun _ hc ↦ decide_eq_true fun e ↦ h (e ▸ hc)

/-! ### Pieces -/

theorem splitAt_cons_self (sep : Char) (t : Text) :
    splitAt sep (sep :: t) = [] :: splitAt sep t := by
  rw [splitAt, if_pos rfl]

theorem splitAt_cons_of_ne {sep c : Char} (h : c ≠ sep) {t piece : Text} {pieces : List Text}
    (ht : splitAt sep t = piece :: pieces) : splitAt sep (c :: t) = (c :: piece) :: pieces := by
  rw [splitAt, if_neg h, ht]

/-- A character without a property does not stand in a text whose characters all have it. -/
theorem not_mem_of_forall {p : Char → Bool} {c : Char} {t : Text} (ht : ∀ d ∈ t, p d)
    (hc : p c = false) : c ∉ t := by
  intro hmem
  rw [ht c hmem] at hc
  cases hc

/-- A text without the separator is its own only piece. -/
theorem splitAt_of_not_mem {sep : Char} {t : Text} (h : sep ∉ t) : splitAt sep t = [t] := by
  induction t with
  | nil => rfl
  | cons c t ih =>
    rw [List.mem_cons, not_or] at h
    exact splitAt_cons_of_ne (Ne.symm h.1) (ih h.2)

/-- At a separator a text is split into the pieces in front of it and the pieces behind it. -/
theorem splitAt_append_separator (sep : Char) (s t : Text) :
    splitAt sep (s ++ sep :: t) = splitAt sep s ++ splitAt sep t := by
  induction s with
  | nil => exact splitAt_cons_self sep t
  | cons c s ih =>
    by_cases hc : c = sep
    · rw [hc, List.cons_append, splitAt_cons_self, ih, splitAt_cons_self, List.cons_append]
    · obtain ⟨first, pieces, hs⟩ := List.exists_cons_of_ne_nil (splitAt_ne_nil sep s)
      rw [hs, List.cons_append] at ih
      rw [List.cons_append, splitAt_cons_of_ne hc ih, splitAt_cons_of_ne hc hs, List.cons_append]

/-- The first piece ends at the first separator. -/
theorem splitAt_append_cons {sep : Char} {piece : Text} (h : sep ∉ piece) (rest : Text) :
    splitAt sep (piece ++ sep :: rest) = piece :: splitAt sep rest := by
  rw [splitAt_append_separator, splitAt_of_not_mem h, List.singleton_append]

/-- There is one piece, and none before the last one, without a separator only. -/
theorem dropLast_splitAt_eq_nil_iff {sep : Char} {t : Text} :
    (splitAt sep t).dropLast = [] ↔ sep ∉ t := by
  constructor
  · intro h hmem
    obtain ⟨piece, rest, rfl, hpiece⟩ := List.eq_append_cons_of_mem hmem
    rw [splitAt_append_cons hpiece, List.dropLast_cons_of_ne_nil (splitAt_ne_nil sep rest)] at h
    cases h
  · intro h
    rw [splitAt_of_not_mem h]
    rfl

/-- What is put in front of a text belongs to its first piece. -/
theorem splitAt_append_left {sep : Char} {a : Text} (ha : sep ∉ a) (t : Text) :
    ∃ first rest, splitAt sep t = first :: rest ∧ splitAt sep (a ++ t) = (a ++ first) :: rest := by
  obtain ⟨first, rest, ht⟩ := List.exists_cons_of_ne_nil (splitAt_ne_nil sep t)
  refine ⟨first, rest, ht, ?_⟩
  induction a with
  | nil => exact ht
  | cons c a ih =>
    rw [List.mem_cons, not_or] at ha
    exact splitAt_cons_of_ne (Ne.symm ha.1) (ih ha.2)

/-- What is put behind a text belongs to its last piece. -/
theorem splitAt_append_right {sep : Char} {b : Text} (hb : sep ∉ b) (t : Text) :
    ∃ init last, splitAt sep t = init ++ [last] ∧ splitAt sep (t ++ b) = init ++ [last ++ b] := by
  induction t with
  | nil => exact ⟨[], [], rfl, splitAt_of_not_mem hb⟩
  | cons c t ih =>
    obtain ⟨init, last, ht, htb⟩ := ih
    by_cases hc : c = sep
    -- A separator in front makes one more piece; anything else belongs to the piece behind it.
    · subst hc
      refine ⟨[] :: init, last, ?_, ?_⟩
      · rw [splitAt_cons_self, ht, List.cons_append]
      · rw [List.cons_append, splitAt_cons_self, htb, List.cons_append]
    · cases init with
      | nil => exact ⟨[], c :: last, splitAt_cons_of_ne hc ht, splitAt_cons_of_ne hc htb⟩
      | cons piece init =>
        exact ⟨(c :: piece) :: init, last, splitAt_cons_of_ne hc ht, splitAt_cons_of_ne hc htb⟩

theorem splitAt_intercalate_cons {sep : Char} {t : Text} {ts : List Text} (ht : sep ∉ t)
    (hts : ∀ u ∈ ts, sep ∉ u) : splitAt sep ([sep].intercalate (t :: ts)) = t :: ts := by
  induction ts generalizing t with
  | nil =>
    rw [List.intercalate_singleton]
    exact splitAt_of_not_mem ht
  | cons u us ih =>
    obtain ⟨hu, hus⟩ := List.forall_mem_cons.mp hts
    rw [List.intercalate_cons_cons, List.append_assoc, List.singleton_append,
      splitAt_append_cons ht, ih hu hus]

/-- **Splitting undoes joining** texts that hold no separator. -/
theorem splitAt_intercalate {sep : Char} {ts : List Text} (hne : ts ≠ [])
    (h : ∀ t ∈ ts, sep ∉ t) : splitAt sep ([sep].intercalate ts) = ts := by
  obtain ⟨t, us, rfl⟩ := List.exists_cons_of_ne_nil hne
  obtain ⟨ht, hus⟩ := List.forall_mem_cons.mp h
  exact splitAt_intercalate_cons ht hus

/-- What joined texts hold is the separator or stands in one of them. -/
theorem mem_intercalate {c sep : Char} {ts : List Text} (h : c ∈ [sep].intercalate ts) :
    c = sep ∨ ∃ t ∈ ts, c ∈ t := by
  induction ts with
  | nil => simp at h
  | cons t ts ih =>
    cases ts with
    | nil => exact .inr ⟨t, by simp, by simpa using h⟩
    | cons next more =>
      rw [List.intercalate_cons_cons, List.append_assoc, List.singleton_append, List.mem_append,
        List.mem_cons] at h
      rcases h with h | rfl | h
      · exact .inr ⟨t, by simp, h⟩
      · exact .inl rfl
      · rcases ih h with rfl | ⟨u, hu, hc⟩
        · exact .inl rfl
        · exact .inr ⟨u, List.mem_cons_of_mem t hu, hc⟩

/-- No piece holds the separator. -/
theorem not_mem_of_mem_splitAt {sep : Char} {t piece : Text} (h : piece ∈ splitAt sep t) :
    sep ∉ piece := by
  induction t generalizing piece with
  | nil =>
    rw [splitAt, List.mem_singleton] at h
    simp [h]
  | cons c t ih =>
    obtain ⟨first, pieces, hp⟩ := List.exists_cons_of_ne_nil (splitAt_ne_nil sep t)
    by_cases hc : c = sep
    · rw [hc, splitAt_cons_self, List.mem_cons] at h
      rcases h with rfl | h
      · simp
      · exact ih h
    · rw [splitAt_cons_of_ne hc hp, List.mem_cons] at h
      rcases h with rfl | h
      · have hfirst : sep ∉ first := ih (hp ▸ List.mem_cons_self)
        simp [Ne.symm hc, hfirst]
      · exact ih (hp ▸ List.mem_cons_of_mem first h)

/-- **What a text is split into** are the texts without the separator that it is joined from. -/
theorem splitAt_eq_iff {sep : Char} {t : Text} {ts : List Text} :
    splitAt sep t = ts ↔ ts ≠ [] ∧ (∀ u ∈ ts, sep ∉ u) ∧ [sep].intercalate ts = t := by
  constructor
  · rintro rfl
    exact ⟨splitAt_ne_nil sep t, fun _ hu ↦ not_mem_of_mem_splitAt hu, intercalate_splitAt sep t⟩
  · rintro ⟨hne, hts, rfl⟩
    exact splitAt_intercalate hne hts

end BatteryBench
