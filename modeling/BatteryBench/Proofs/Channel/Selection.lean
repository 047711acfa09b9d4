import BatteryBench.Channel.Selection
import BatteryBench.Proofs.Number.Digits
import BatteryBench.Proofs.Text.Pieces
import Mathlib.Data.List.Sort
import Mathlib.Data.Nat.Bitwise

/-!
# Which channels a selection is

A mask of 32 bits may be wider than a group of channels or narrower. `mem_maskChannels` says which
channels it selects whatever the count, and `maskText?_eq_none_iff` when nothing is left to send.

What a selection names is read back from its text (`readSelection?`), as the range or the list that
it is. Since the channels that are named are the selected ones (`readSelection?_selectionText?`),
two selections share a text only if they are the same set (`selectionText?_eq_iff`).
-/

namespace BatteryBench

/-- A mask has no bits from the thirty-second on. -/
theorem testBit_toNat_of_le (mask : UInt32) {k : Nat} (hk : 32 ≤ k) :
    mask.toNat.testBit k = false :=
  Nat.testBit_lt_two_pow (Nat.lt_of_lt_of_le mask.toNat_lt (Nat.pow_le_pow_right (by decide) hk))

/-- A mask selects the channels whose bits are set. -/
theorem mem_maskChannels {mask : UInt32} {count k : Nat} :
    k ∈ maskChannels mask count ↔ k < count ∧ mask.toNat.testBit k := by
  simp only [maskChannels, List.mem_filter, List.mem_range, Nat.lt_min]
  refine ⟨fun h ↦ ⟨h.1.1, h.2⟩, fun h ↦ ⟨⟨h.1, Nat.lt_of_not_le fun hk ↦ ?_⟩, h.2⟩⟩
  rw [testBit_toNat_of_le mask hk] at h
  exact absurd h.2 (by decide)

/-- A mask has no text exactly when none of the bits of the channels is set. -/
theorem maskText?_eq_none_iff {mask : UInt32} {count : Nat} :
    maskText? mask count = none ↔ ∀ k < count, mask.toNat.testBit k = false := by
  rw [maskText?, selectionText?_eq_none_iff]
  constructor
  · intro h k hk
    refine Bool.eq_false_iff.mpr fun hbit ↦ ?_
    exact Nat.not_le_of_lt hk (h k (mem_maskChannels.mpr ⟨hk, hbit⟩))
  · intro h k hk
    obtain ⟨hlt, hbit⟩ := mem_maskChannels.mp hk
    rw [h k hlt] at hbit
    exact absurd hbit (by decide)

/-! ### The characters of a selection -/

/-- Whether a character may stand in a selection. -/
def isSelectionChar (c : Char) : Bool := c.isDigit || "(@:,)".toList.contains c

/-- Whether a text is made of what selections are made of. -/
def IsSelection (t : Text) : Prop := ∀ c ∈ t, isSelectionChar c

instance (t : Text) : Decidable (IsSelection t) := List.decidableBAll _ t

theorem IsSelection.append {s t : Text} (hs : IsSelection s) (ht : IsSelection t) :
    IsSelection (s ++ t) :=
  List.forall_mem_append.mpr ⟨hs, ht⟩

theorem IsDigits.isSelection {t : Text} (ht : IsDigits t) : IsSelection t := by
  intro c hc
  simp [isSelectionChar, ht c hc]

/-- Whatever stands in no selection, such as a semicolon, does not stand in this one. -/
theorem IsSelection.not_mem {c : Char} {t : Text} (ht : IsSelection t)
    (hc : isSelectionChar c = false) : c ∉ t :=
  not_mem_of_forall ht hc

theorem isSelection_fullRange (count : Nat) : IsSelection (fullRange count) := by
  have hopen : IsSelection "(@1:" := by decide
  exact (hopen.append (isDigits_decimal count).isSelection).append (by decide)

/-- The text of a selection holds digits and the five characters around them, and nothing else. -/
theorem isSelection_selectionText? {channels : List Nat} {count : Nat} {t : Text}
    (h : selectionText? channels count = some t) : IsSelection t := by
  unfold selectionText? at h
  dsimp only at h
  split at h
  · cases h
  · split at h
    · obtain rfl := Option.some.inj h
      exact isSelection_fullRange count
    · obtain rfl := Option.some.inj h
      have hopen : IsSelection "(@" := by decide
      refine (hopen.append ?_).append (by decide)
      intro c hc
      rcases mem_intercalate hc with rfl | ⟨number, hnumber, hc⟩
      · decide
      · obtain ⟨channel, -, rfl⟩ := List.mem_map.mp hnumber
        exact (isDigits_decimal _).isSelection c hc

/-! ### Reading a selection -/

/-- The numbers of a list of texts, if each of them is one. -/
def numbers? : List Text → Option (List Nat)
  | [] => some []
  | t :: ts =>
    match number? t, numbers? ts with
    | some n, some ns => some (n :: ns)
    | _, _ => none

/-- The numbers a selection names, which is written as a range with a colon or as a list with
commas. -/
def readSelection? : Text → Option (List Nat)
  | '(' :: '@' :: rest =>
    if rest.getLast? = some ')' then
      match splitAt ':' rest.dropLast with
      | [first, last] =>
        match number? first, number? last with
        | some a, some b => some (List.range' a (b + 1 - a))
        | _, _ => none
      | _ => numbers? (splitAt ',' rest.dropLast)
    else none
  | _ => none

example : readSelection? "(@2:4)" = some [2, 3, 4] := by decide
example : readSelection? "(@1,5)" = some [1, 5] := by decide

theorem numbers?_map_decimal (ns : List Nat) : numbers? (ns.map decimal) = some ns := by
  induction ns with
  | nil => rfl
  | cons n ns ih => rw [List.map_cons, numbers?, number?_decimal, ih]

theorem readSelection?_eq {inner : Text} :
    readSelection? ('(' :: '@' :: (inner ++ [')'])) =
      match splitAt ':' inner with
      | [first, last] =>
        match number? first, number? last with
        | some a, some b => some (List.range' a (b + 1 - a))
        | _, _ => none
      | _ => numbers? (splitAt ',' inner) := by
  rw [readSelection?, List.getLast?_concat, if_pos rfl, List.dropLast_concat]

/-- The full range names the channels as the unit counts them. -/
theorem readSelection?_fullRange (count : Nat) :
    readSelection? (fullRange count) = some ((List.range count).map (· + 1)) := by
  have hdigits := isDigits_decimal count
  have hsplit : splitAt ':' ('1' :: ':' :: decimal count) = [['1'], decimal count] := by
    rw [← List.singleton_append, splitAt_append_cons (by decide),
      splitAt_of_not_mem fun hmem ↦ absurd (hdigits ':' hmem) (by decide)]
  have htext : fullRange count = '(' :: '@' :: (('1' :: ':' :: decimal count) ++ [')']) := rfl
  have hone : number? ['1'] = some 1 := rfl
  rw [htext, readSelection?_eq, hsplit]
  dsimp only
  rw [hone, number?_decimal]
  dsimp only
  rw [Nat.add_sub_cancel, List.range'_eq_map_range]
  simp only [Nat.add_comm]

/-- A list of numbers names them. -/
theorem readSelection?_list {ns : List Nat} (hne : ns ≠ []) :
    readSelection? ("(@" ++ [','].intercalate (ns.map decimal) ++ ")") = some ns := by
  have hcolon : ':' ∉ [','].intercalate (ns.map decimal) := by
    intro hmem
    rcases mem_intercalate hmem with heq | ⟨t, ht, hc⟩
    · exact absurd heq (by decide)
    · obtain ⟨n, -, rfl⟩ := List.mem_map.mp ht
      exact absurd (isDigits_decimal n ':' hc) (by decide)
  have hcomma : ∀ t ∈ ns.map decimal, ',' ∉ t := by
    intro t ht hc
    obtain ⟨n, -, rfl⟩ := List.mem_map.mp ht
    exact absurd (isDigits_decimal n ',' hc) (by decide)
  show readSelection? ('(' :: '@' :: ([','].intercalate (ns.map decimal) ++ [')'])) = _
  rw [readSelection?_eq, splitAt_of_not_mem hcolon]
  dsimp only
  rw [splitAt_intercalate (by simpa using hne) hcomma, numbers?_map_decimal]

/-! ### What a selection names -/

/-- An ascending list is what any list of the same elements is ordered to. -/
theorem ascending_eq_of_mem_iff {ns ms : List Nat} (hms : ms.Pairwise (· < ·))
    (h : ∀ k, k ∈ ns ↔ k ∈ ms) : ascending ns = ms :=
  (pairwise_ascending ns).eq_of_mem_iff hms fun k ↦ mem_ascending.trans (h k)

/-- As many different channels below a count as there are at all are all of them. -/
theorem ascending_eq_range {channels : List Nat} {count : Nat}
    (h : (ascending (channels.filter (· < count))).length = count) :
    ascending (channels.filter (· < count)) = List.range count := by
  have hsorted := pairwise_ascending (channels.filter (· < count))
  have hsubset : ascending (channels.filter (· < count)) ⊆ List.range count := by
    intro k hk
    rw [mem_ascending, List.mem_filter, decide_eq_true_eq] at hk
    exact List.mem_range.mpr hk.2
  -- A subset of a list without repetitions that is as long as the list is all of it.
  have hperm : ascending (channels.filter (· < count)) |>.Perm (List.range count) :=
    (List.subperm_of_subset (hsorted.imp Nat.ne_of_lt) hsubset).perm_of_length_le
      (by rw [List.length_range, h])
  exact hsorted.eq_of_mem_iff List.pairwise_lt_range fun k ↦ hperm.mem_iff

/-- **A selection names the selected channels** in ascending order, as the unit counts them. -/
theorem readSelection?_selectionText? {channels : List Nat} {count : Nat} {t : Text}
    (h : selectionText? channels count = some t) :
    readSelection? t = some ((ascending (channels.filter (· < count))).map (· + 1)) := by
  unfold selectionText? at h
  dsimp only at h
  split at h
  · cases h
  · next hne =>
    split at h
    · next hlength =>
      obtain rfl := Option.some.inj h
      rw [readSelection?_fullRange, ascending_eq_range hlength]
    · obtain rfl := Option.some.inj h
      have hmap : (ascending (channels.filter (· < count))).map (fun k ↦ decimal (k + 1)) =
          ((ascending (channels.filter (· < count))).map (· + 1)).map decimal := by
        rw [List.map_map]
        rfl
      rw [hmap]
      exact readSelection?_list (by simpa using hne)

/-- The channels of a mask that exist are those below the count whose bits are set. -/
theorem ascending_maskChannels (mask : UInt32) (count : Nat) :
    ascending ((maskChannels mask count).filter (· < count)) =
      (List.range count).filter fun k ↦ mask.toNat.testBit k := by
  refine ascending_eq_of_mem_iff (List.pairwise_lt_range.filter _) fun k ↦ ?_
  rw [List.mem_filter, mem_maskChannels, List.mem_filter, List.mem_range, decide_eq_true_eq]
  exact ⟨fun hk ↦ hk.1, fun hk ↦ ⟨hk, hk.1⟩⟩

/-- **A mask names the channels whose bits are set**, as the unit counts them. -/
theorem readSelection?_maskText? {mask : UInt32} {count : Nat} {t : Text}
    (h : maskText? mask count = some t) :
    readSelection? t =
      some (((List.range count).filter fun k ↦ mask.toNat.testBit k).map (· + 1)) := by
  rw [readSelection?_selectionText? h, ascending_maskChannels]

/-! ### The set that a selection stands for -/

/-- Ordered lists are the same exactly if they have the same elements. -/
theorem ascending_eq_iff {ns ms : List Nat} :
    ascending ns = ascending ms ↔ ∀ k, k ∈ ns ↔ k ∈ ms := by
  constructor
  · intro h k
    rw [← mem_ascending, h, mem_ascending]
  · exact fun h ↦ ascending_eq_of_mem_iff (pairwise_ascending ms) fun k ↦
      (h k).trans mem_ascending.symm

/-- The selected ones of two lists are the same exactly if the lists agree below the count. -/
theorem ascending_filter_eq_iff {channels others : List Nat} {count : Nat} :
    ascending (channels.filter (· < count)) = ascending (others.filter (· < count)) ↔
      ∀ k < count, k ∈ channels ↔ k ∈ others := by
  rw [ascending_eq_iff]
  simp only [List.mem_filter, decide_eq_true_eq]
  exact ⟨fun h k hk ↦ by simpa [hk] using h k, fun h k ↦ and_congr_left fun hk ↦ h k hk⟩

/-- **Two selections have the same text exactly if they are the same set**, as far as the channels
exist. -/
theorem selectionText?_eq_iff {channels others : List Nat} {count : Nat} :
    selectionText? channels count = selectionText? others count ↔
      ∀ k < count, k ∈ channels ↔ k ∈ others := by
  constructor
  · intro h
    rcases ht : selectionText? others count with - | t <;> rw [ht] at h
    · rw [selectionText?_eq_none_iff] at h ht
      intro k hk
      exact iff_of_false (fun hmem ↦ Nat.not_le_of_lt hk (h k hmem))
        fun hmem ↦ Nat.not_le_of_lt hk (ht k hmem)
    · have hread := (readSelection?_selectionText? h).symm.trans (readSelection?_selectionText? ht)
      rw [Option.some.injEq, (List.map_injective_iff.mpr (add_left_injective 1)).eq_iff] at hread
      exact ascending_filter_eq_iff.mp hread
  · intro h
    rw [selectionText?, ascending_filter_eq_iff.mpr h, selectionText?]

theorem selectionText?_range {count : Nat} (hcount : 0 < count) :
    selectionText? (List.range count) count = some (fullRange count) := by
  have hall : ascending ((List.range count).filter (· < count)) = List.range count :=
    ascending_eq_of_mem_iff List.pairwise_lt_range fun k ↦ by simp
  have hne : List.range count ≠ [] := fun hnil ↦ hcount.ne' (List.range_eq_nil.mp hnil)
  rw [selectionText?, hall, if_neg hne, if_pos List.length_range]

/-- **The range form stands for all channels**, and for nothing else. -/
theorem eq_fullRange_iff {channels : List Nat} {count : Nat} {t : Text}
    (h : selectionText? channels count = some t) :
    t = fullRange count ↔ ∀ k < count, k ∈ channels := by
  have hcount : 0 < count := Nat.pos_of_ne_zero fun hzero ↦ by
    rw [hzero, selectionText?_eq_none_iff.mpr fun k _ ↦ Nat.zero_le k] at h
    cases h
  rw [← Option.some_inj, ← h, ← selectionText?_range hcount, selectionText?_eq_iff]
  exact forall₂_congr fun k hk ↦ iff_true_right (List.mem_range.mpr hk)

/-- The mask with one bit. -/
theorem toNat_one_shiftLeft {k : Nat} (hk : k < 32) :
    (1 <<< UInt32.ofNat k : UInt32).toNat = 2 ^ k := by
  rw [UInt32.toNat_shiftLeft, UInt32.toNat_ofNat_of_lt' (Nat.lt_trans hk (by decide)),
    Nat.mod_eq_of_lt hk]
  show 1 <<< k % 2 ^ 32 = 2 ^ k
  rw [Nat.one_shiftLeft, Nat.mod_eq_of_lt (Nat.pow_lt_pow_right (by decide) hk)]

/-- A bit of a mask is set exactly if the mask and the bit have one in common. -/
theorem testBit_toNat_eq (mask : UInt32) {k : Nat} (hk : k < 32) :
    mask.toNat.testBit k ↔ mask &&& (1 <<< UInt32.ofNat k) ≠ 0 := by
  rw [ne_eq, ← UInt32.toNat_inj, UInt32.toNat_and, toNat_one_shiftLeft hk, Nat.and_two_pow]
  cases mask.toNat.testBit k <;> simp

theorem maskChannels_eq (mask : UInt32) (count : Nat) :
    maskChannels mask count =
      (List.range (min count 32)).filter fun k ↦ mask &&& (1 <<< UInt32.ofNat k) ≠ 0 := by
  refine List.filter_congr fun k hk ↦ ?_
  have hlt : k < 32 := (Nat.lt_min.mp (List.mem_range.mp hk)).2
  rw [Bool.eq_iff_iff, decide_eq_true_eq, testBit_toNat_eq mask hlt]

/-- **Selections stand for sets of channels.** A selection has a text exactly if one of its channels
is below the count. The text then names the channels below the count, as the unit counts them and in
ascending order, and is the range form exactly if these are all. So two selections have the same
text exactly if they are the same set below the count, whatever their order and repetitions are, and
the text of a mask is the one of the places of its bits. -/
theorem selections_name_sets (channels : List Nat) (count : Nat) :
    (selectionText? channels count = none ↔ ∀ channel ∈ channels, ¬channel < count) ∧
    (∀ t, selectionText? channels count = some t →
      (∃ ns, readSelection? t = some ns ∧ ns.Pairwise (· < ·) ∧
        ∀ n, n ∈ ns ↔ ∃ channel ∈ channels, channel < count ∧ n = channel + 1) ∧
      (t = fullRange count ↔ ∀ channel < count, channel ∈ channels)) ∧
    (∀ others, selectionText? channels count = selectionText? others count ↔
      ∀ channel < count, channel ∈ channels ↔ channel ∈ others) ∧
    ∀ mask : UInt32, maskText? mask count =
      selectionText?
        ((List.range (min count 32)).filter fun k ↦ mask &&& (1 <<< UInt32.ofNat k) ≠ 0)
        count := by
  refine ⟨?_, fun t ht ↦ ⟨⟨_, readSelection?_selectionText? ht, ?_, fun n ↦ ?_⟩,
    eq_fullRange_iff ht⟩, fun others ↦ selectionText?_eq_iff, fun mask ↦ ?_⟩
  · simp only [selectionText?_eq_none_iff, Nat.not_lt]
  · exact (pairwise_ascending _).map _ fun _ _ hlt ↦ Nat.succ_lt_succ hlt
  · simp only [List.mem_map, mem_ascending, List.mem_filter, decide_eq_true_eq, and_assoc,
      eq_comm (a := n)]
  · rw [maskText?, maskChannels_eq]

/-- Channels in any order, repeated and beyond the count have the text of the three that exist. -/
theorem selections_name_sets_repeated :
    selectionText? [7, 0, 3, 3, 40] 36 = some "(@1,4,8)".toList ∧
      (∃ ns, readSelection? "(@1,4,8)" = some ns ∧ ns.Pairwise (· < ·) ∧
        ∀ n, n ∈ ns ↔ ∃ channel ∈ [7, 0, 3, 3, 40], channel < 36 ∧ n = channel + 1) ∧
      "(@1,4,8)".toList ≠ fullRange 36 := by
  obtain ⟨-, hnamed, -⟩ := selections_name_sets [7, 0, 3, 3, 40] 36
  have htext : selectionText? [7, 0, 3, 3, 40] 36 = some "(@1,4,8)".toList := by decide
  exact ⟨htext, (hnamed _ htext).1, by decide⟩

end BatteryBench
