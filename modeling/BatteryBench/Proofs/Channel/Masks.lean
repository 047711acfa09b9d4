import BatteryBench.Proofs.Channel.Selection

/-!
# Flags as masks

A mask packs up to 32 flags, the first one into the lowest bit. So a mask is known by its bits
(`eq_of_testBit_toNat`), each of which is a flag (`testBit_maskOfFlags`), and what a mask of flags
selects are the places of the flags that are set (`maskText?_maskOfFlags`).

Packing can be undone as far as the flags go: the lowest bits of a mask, taken as flags, are packed
into what is left of the mask when the other bits are cleared
(`toNat_maskOfFlags_map_testBit`), which is the whole mask when all 32 are taken.
-/

namespace BatteryBench

/-- Masks with the same bits are the same. -/
theorem eq_of_testBit_toNat {mask mask' : UInt32}
    (h : ∀ k, mask.toNat.testBit k = mask'.toNat.testBit k) : mask = mask' :=
  UInt32.toNat_inj.mp (Nat.eq_of_testBit_eq h)

/-! ### Packing -/

/-- As many flags are packed into a number of as many bits. -/
theorem packFlags_lt_two_pow (flags : List Bool) : packFlags flags < 2 ^ flags.length := by
  induction flags with
  | nil => decide
  | cons flag flags ih =>
    have hflag := Bool.toNat_le flag
    rw [packFlags, List.length_cons, Nat.pow_succ]
    omega

/-- The first 32 flags fit into a mask. -/
theorem toNat_maskOfFlags (flags : List Bool) :
    (maskOfFlags flags).toNat = packFlags (flags.take 32) := by
  refine UInt32.toNat_ofNat_of_lt' (Nat.lt_of_lt_of_le (packFlags_lt_two_pow _) ?_)
  exact Nat.pow_le_pow_right (by decide) (List.length_take_le 32 flags)

/-- **A bit of a mask of flags is the flag at its place**, if there is one and it is among the first
32. -/
theorem testBit_maskOfFlags {flags : List Bool} {k : Nat} :
    (maskOfFlags flags).toNat.testBit k ↔ k < 32 ∧ flags[k]? = some true := by
  rw [toNat_maskOfFlags, testBit_packFlags, List.getD_eq_getElem?_getD, List.getElem?_take]
  split_ifs with hk
  · cases flags[k]? <;> simp [hk]
  · simp [hk]

/-- Where there are no more flags than bits, the bits are the flags, and no other bit is set. -/
theorem testBit_maskOfFlags_eq_getD {flags : List Bool} (hlength : flags.length ≤ 32) (k : Nat) :
    (maskOfFlags flags).toNat.testBit k = flags.getD k false := by
  rw [toNat_maskOfFlags, List.take_of_length_le hlength, testBit_packFlags]

/-- **The lowest bits of a mask are packed again** into the mask without its other bits. -/
theorem toNat_maskOfFlags_map_testBit (mask : UInt32) (n : Nat) :
    (maskOfFlags ((List.range n).map fun k ↦ mask.toNat.testBit k)).toNat =
      mask.toNat % 2 ^ n := by
  refine Nat.eq_of_testBit_eq fun k ↦ ?_
  rw [Bool.eq_iff_iff, testBit_maskOfFlags, Nat.testBit_mod_two_pow]
  by_cases hk : k < 32
  · by_cases hn : k < n <;> simp [hk, hn]
  · simp [hk, testBit_toNat_of_le mask (Nat.le_of_not_lt hk)]

/-- All 32 bits of a mask are packed into the mask. -/
theorem maskOfFlags_map_testBit (mask : UInt32) :
    maskOfFlags ((List.range 32).map fun k ↦ mask.toNat.testBit k) = mask := by
  rw [← UInt32.toNat_inj, toNat_maskOfFlags_map_testBit, Nat.mod_eq_of_lt mask.toNat_lt]

/-! ### The places of flags -/

/-- The places of the flags that are set, as far as a mask reaches. -/
def setPlaces (flags : List Bool) : List Nat :=
  (List.range 32).filter fun k ↦ flags[k]? = some true

theorem mem_setPlaces {flags : List Bool} {k : Nat} :
    k ∈ setPlaces flags ↔ k < 32 ∧ flags[k]? = some true := by
  rw [setPlaces, List.mem_filter, List.mem_range, decide_eq_true_eq]

/-- **A mask of flags selects the places of the flags that are set**, whatever the count. -/
theorem maskText?_maskOfFlags (flags : List Bool) (count : Nat) :
    maskText? (maskOfFlags flags) count = selectionText? (setPlaces flags) count := by
  rw [maskText?, selectionText?_eq_iff]
  intro k hk
  rw [mem_maskChannels, testBit_maskOfFlags, mem_setPlaces, and_iff_right hk]

/-! ### Setting bits one by one -/

/-- The mask with one more bit. -/
def withBit (mask : UInt32) (k : Nat) : UInt32 := mask ||| (1 <<< UInt32.ofNat k)

/-- One bit is set, and the others stay. -/
theorem testBit_withBit (mask : UInt32) {k : Nat} (hk : k < 32) (j : Nat) :
    (withBit mask k).toNat.testBit j = (mask.toNat.testBit j || decide (k = j)) := by
  rw [withBit, UInt32.toNat_or, toNat_one_shiftLeft hk, Nat.testBit_or, Nat.testBit_two_pow]

/-- So all bits of a list of places are set, and the others stay. -/
theorem testBit_foldl_withBit {ks : List Nat} (hks : ∀ k ∈ ks, k < 32) (mask : UInt32) (j : Nat) :
    (ks.foldl withBit mask).toNat.testBit j = (mask.toNat.testBit j || decide (j ∈ ks)) := by
  induction ks generalizing mask with
  | nil => simp
  | cons k ks ih =>
    obtain ⟨hk, hks⟩ := List.forall_mem_cons.mp hks
    rw [List.foldl_cons, ih hks, testBit_withBit mask hk]
    simp only [List.mem_cons, Bool.decide_or, Bool.or_assoc, eq_comm]

/-- **Packing flags is setting the bits of their places**, one after the other. -/
theorem maskOfFlags_eq_foldl (flags : List Bool) :
    maskOfFlags flags = (setPlaces flags).foldl withBit 0 := by
  refine eq_of_testBit_toNat fun k ↦ ?_
  rw [testBit_foldl_withBit fun k hk ↦ (mem_setPlaces.mp hk).1, Bool.eq_iff_iff,
    testBit_maskOfFlags]
  simp [mem_setPlaces]

end BatteryBench
