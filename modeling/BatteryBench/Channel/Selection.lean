import BatteryBench.Text.Basic

/-!
# Selections of channels

Channels are numbered from zero here and from one on the wire. A selection is written as `(@...)`:
as the range `(@1:N)` when it is all of `N` channels, and as an ascending list otherwise. Channels
at or above the count are ignored and repetitions collapse, so the text depends on the set alone; an
empty selection has no text.

A selection may also come as a mask of 32 bits, the lowest bit being the first channel;
`maskOfFlags` packs flags the same way.
-/

namespace BatteryBench

/-! ### Ascending sets -/

/-- An ascending list with one more element, in its place; nothing changes if it is there. -/
def insertAscending (n : Nat) : List Nat → List Nat
  | [] => [n]
  | m :: rest =>
    if n < m then n :: m :: rest
    else if n = m then m :: rest
    else m :: insertAscending n rest

/-- The elements of a list in ascending order, each once. -/
def ascending (ns : List Nat) : List Nat := ns.foldr insertAscending []

theorem mem_insertAscending {n k : Nat} {ns : List Nat} :
    k ∈ insertAscending n ns ↔ k = n ∨ k ∈ ns := by
  induction ns with
  | nil => simp [insertAscending]
  | cons m rest ih =>
    rw [insertAscending]
    split
    · simp
    · split
      · next h => simp [h]
      · simp [ih, or_left_comm]

/-- Ordering a list keeps its elements. -/
theorem mem_ascending {k : Nat} {ns : List Nat} : k ∈ ascending ns ↔ k ∈ ns := by
  induction ns with
  | nil => simp [ascending]
  | cons n ns ih =>
    show k ∈ insertAscending n (ascending ns) ↔ _
    rw [mem_insertAscending, ih, List.mem_cons]

theorem pairwise_insertAscending {n : Nat} {ns : List Nat} (h : ns.Pairwise (· < ·)) :
    (insertAscending n ns).Pairwise (· < ·) := by
  induction ns with
  | nil => simp [insertAscending]
  | cons m rest ih =>
    have hrest := List.pairwise_cons.mp h
    rw [insertAscending]
    split
    · next hlt =>
      refine List.pairwise_cons.mpr ⟨fun k hk ↦ ?_, h⟩
      rcases List.mem_cons.mp hk with rfl | hk
      · exact hlt
      · exact Nat.lt_trans hlt (hrest.1 k hk)
    · split
      · exact h
      · next hnlt hne =>
        refine List.pairwise_cons.mpr ⟨fun k hk ↦ ?_, ih hrest.2⟩
        rcases mem_insertAscending.mp hk with rfl | hk
        · omega
        · exact hrest.1 k hk

/-- An ordered list ascends strictly, so each element occurs once. -/
theorem pairwise_ascending (ns : List Nat) : (ascending ns).Pairwise (· < ·) := by
  induction ns with
  | nil => simp [ascending]
  | cons n ns ih => exact pairwise_insertAscending ih

/-! ### Texts of selections -/

/-- All of the first `count` channels, as the unit counts them. -/
def fullRange (count : Nat) : Text := "(@1:" ++ decimal count ++ ")"

/-- The text of the selected ones among the first `count` channels, if there are any. -/
def selectionText? (channels : List Nat) (count : Nat) : Option Text :=
  let selected := ascending (channels.filter (· < count))
  if selected = [] then none
  else if selected.length = count then some (fullRange count)
  else
    some ("(@" ++ [','].intercalate (selected.map fun channel ↦ decimal (channel + 1)) ++ ")")

/-- A selection has no text exactly when none of its channels is below the count. -/
theorem selectionText?_eq_none_iff {channels : List Nat} {count : Nat} :
    selectionText? channels count = none ↔ ∀ channel ∈ channels, count ≤ channel := by
  have hempty : ascending (channels.filter (· < count)) = [] ↔
      ∀ channel ∈ channels, count ≤ channel := by
    rw [List.eq_nil_iff_forall_not_mem]
    simp only [mem_ascending, List.mem_filter, decide_eq_true_eq, not_and, Nat.not_lt]
  rw [← hempty, selectionText?]
  split
  · next h => simp [h]
  · next h => split <;> simp [h]

/-! ### Masks -/

/-- The channels below `count` whose bit is set in a mask. -/
def maskChannels (mask : UInt32) (count : Nat) : List Nat :=
  (List.range (min count 32)).filter fun channel ↦ mask.toNat.testBit channel

/-- The text of the channels a mask selects among the first `count`, if there are any. -/
def maskText? (mask : UInt32) (count : Nat) : Option Text :=
  selectionText? (maskChannels mask count) count

/-- The number whose bits, from the lowest on, are the given flags. -/
def packFlags : List Bool → Nat
  | [] => 0
  | flag :: flags => flag.toNat + 2 * packFlags flags

/-- The mask of the first 32 flags, the first one in the lowest bit. -/
def maskOfFlags (flags : List Bool) : UInt32 := UInt32.ofNat (packFlags (flags.take 32))

/-- A bit of the packed number is the flag at its place. -/
theorem testBit_packFlags (flags : List Bool) (k : Nat) :
    (packFlags flags).testBit k = flags.getD k false := by
  induction flags generalizing k with
  | nil => simp [packFlags]
  | cons flag flags ih =>
    cases k with
    | zero => cases flag <;> simp [packFlags, Nat.testBit_zero]
    | succ k =>
      have hhalf : (flag.toNat + 2 * packFlags flags) / 2 = packFlags flags := by
        have hle := Bool.toNat_le flag
        omega
      simp [packFlags, Nat.testBit_succ, hhalf, ih]

end BatteryBench
