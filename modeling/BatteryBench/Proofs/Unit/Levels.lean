import BatteryBench.Proofs.Channel.Masks
import BatteryBench.Proofs.Client.Queries
import BatteryBench.Proofs.Reply.Lists

/-!
# Flags that are asked for as a mask

Asking for the flags of a group as a mask is asking for the list of them and packing it, so the two
have the same exchange with a unit and the same failures (`Client.perform_getMask`). Where the reply
is a list of the flags, with padding around each or not, the mask has them as its bits
(`Client.perform_getMask_of_encodes`).

The digital outputs can also be set by a mask. One line then writes every output once, so each is
read back as it was written whatever the unit held before (`ReferenceUnit.parse_text_foldl_put`),
and the mask that is asked for afterwards is the one that was set without the bits that are no
output (`Client.getMask_of_setDigitalLevels`).
-/

namespace BatteryBench

/-! ### Asking for a mask -/

namespace FlagQuantity

/-- The quantity that is packed. -/
def quantity : FlagQuantity → Quantity
  | enabled => .enabled
  | digitalOutput => .digitalOutput
  | digitalInput => .digitalInput

/-- The values of its channels, as the flags that they are. -/
def flags : (f : FlagQuantity) → List f.quantity.Value → List Bool
  | enabled, vs => vs
  | digitalOutput, vs => vs
  | digitalInput, vs => vs

/-- What a unit is asked for the flags with. -/
def question (f : FlagQuantity) : Text := f.quantity.groupQuery f.quantity.count ++ lineEnd

theorem count_pos (f : FlagQuantity) : 0 < f.quantity.count := by cases f <;> decide

theorem count_le (f : FlagQuantity) : f.quantity.count ≤ 32 := by cases f <;> decide

theorem question?_getMask (f : FlagQuantity) :
    (Operation.getMask f).question? = some f.question := by
  cases f <;> rfl

/-- The list of the flags is packed. -/
theorem answer_getMask (f : FlagQuantity) (line : Text) :
    (Operation.getMask f).answer line =
      ((Operation.getAll f.quantity).answer line).map fun vs ↦ maskOfFlags (f.flags vs) := by
  cases f <;> rfl

theorem answer_getMask_eq_list (f : FlagQuantity) (line : Text) :
    (Operation.getMask f).answer line =
      (Reply.list f.quantity.count Reply.flag line).map maskOfFlags := by
  cases f <;> rfl

end FlagQuantity

namespace Client

section Asking

variable {σ : Type} [Driver σ]

/-- **Asking for a mask is asking for the list of flags**, but for the packing. -/
theorem perform_getMask (f : FlagQuantity) (c : Client σ) :
    c.perform (.getMask f) =
      ((c.perform (.getAll f.quantity)).1.map fun vs ↦ maskOfFlags (f.flags vs),
        (c.perform (.getAll f.quantity)).2) := by
  have hquestion : (Operation.getAll f.quantity).question? = some f.question := rfl
  rw [perform_of_question? f.question?_getMask, perform_of_question? hquestion]
  rcases c.exchange f.question with ⟨e | line, c'⟩
  · rfl
  · exact Prod.ext (f.answer_getMask line) rfl

/-- So it fails where that does, and in the same way. -/
theorem perform_getMask_eq_error_iff {f : FlagQuantity} {c : Client σ} {e : Failure} :
    (c.perform (.getMask f)).1 = .error e ↔ (c.perform (.getAll f.quantity)).1 = .error e := by
  rw [perform_getMask]
  cases (c.perform (.getAll f.quantity)).1 <;> simp [Except.map]

/-- A reply that holds one flag for each channel is packed into a mask. -/
theorem perform_getMask_of_encodes {f : FlagQuantity} {c : Client σ} {flags : List Bool}
    {items : List Text} (hlength : flags.length = f.quantity.count)
    (hitems : List.Forall₂ (EncodesPadded Reply.flag) flags items)
    (hreply : (c.exchange f.question).1 = .ok ([','].intercalate items)) :
    (c.perform (.getMask f)).1 = .ok (maskOfFlags flags) := by
  have hne : flags ≠ [] := List.ne_nil_of_length_pos (hlength ▸ f.count_pos)
  rw [perform_of_question? f.question?_getMask, hreply]
  show (Operation.getMask f).answer _ = _
  rw [f.answer_getMask_eq_list, ← hlength, Reply.list_of_encodes hne hitems]
  rfl

end Asking

end Client

/-! ### Writes to different places -/

namespace ReferenceUnit

theorem outbox_foldl_put (as : List Wire.Assignment) (u : ReferenceUnit) :
    (as.foldl put u).outbox = u.outbox := by
  induction as generalizing u with
  | nil => rfl
  | cons a as ih => rw [List.foldl_cons, ih, outbox_put]

/-- A place that nothing is assigned to is left as it was. -/
theorem text_foldl_put_of_ne {as : List Wire.Assignment} {group : Text} {n : Nat}
    (h : ∀ a ∈ as, ¬(group = a.group ∧ n = a.number)) (u : ReferenceUnit) :
    (as.foldl put u).text group n = u.text group n := by
  induction as generalizing u with
  | nil => rfl
  | cons a as ih =>
    obtain ⟨ha, has⟩ := List.forall_mem_cons.mp h
    rw [List.foldl_cons, ih has, text_put_of_ne ha]

/-- Where no place is assigned twice, each holds what was assigned to it. -/
theorem text_foldl_put {as : List Wire.Assignment}
    (has : as.Pairwise fun a b ↦ ¬(a.group = b.group ∧ a.number = b.number))
    {a : Wire.Assignment} (ha : a ∈ as) {t : Text} (ht : accepted? a.group a.argument = some t)
    (u : ReferenceUnit) : (as.foldl put u).text a.group a.number = t := by
  induction as generalizing u with
  | nil => cases ha
  | cons b as ih =>
    obtain ⟨hb, has⟩ := List.pairwise_cons.mp has
    rw [List.foldl_cons]
    rcases List.mem_cons.mp ha with rfl | hmem
    · rw [text_foldl_put_of_ne hb, text_put_self ht]
    · exact ih has hmem _

/-- **Values that are written to different places are read as they are stored**, whatever the unit
held before. -/
theorem parse_text_foldl_put {ws : List Write}
    (hws : (ws.map Write.assignment).Pairwise fun a b ↦ ¬(a.group = b.group ∧ a.number = b.number))
    {s : Setting} {index : Nat} {v : s.Value} (hmem : Write.channel s index v ∈ ws)
    (hv : s.isNaN v = false) (u : ReferenceUnit) :
    s.quantity.parse (((ws.map Write.assignment).foldl put u).text s.group (index + 1)) =
      .ok (s.stored v) := by
  obtain ⟨t, ht, hread⟩ := s.exists_accepted hv
  have htext : ((ws.map Write.assignment).foldl put u).text s.group (index + 1) = t :=
    text_foldl_put hws (List.mem_map_of_mem hmem) ht u
  rw [htext, hread]

end ReferenceUnit

/-! ### Setting the digital outputs by a mask -/

/-- The levels that are set are the lowest bits, one for each output. -/
theorem maskOfFlags_levelFlags (levels : UInt32) :
    maskOfFlags (levelFlags levels) = levels % 16 := by
  rw [← UInt32.toNat_inj, UInt32.toNat_mod]
  exact toNat_maskOfFlags_map_testBit levels 4

/-- Each output is written once. -/
theorem pairwise_written_setDigitalLevels (levels : UInt32) :
    ((Operation.setDigitalLevels levels).written.map Write.assignment).Pairwise
      fun a b ↦ ¬(a.group = b.group ∧ a.number = b.number) := by
  rw [Operation.written, List.map_map, List.pairwise_map]
  refine List.pairwise_lt_range.imp fun {i j} hlt hsame ↦ ?_
  exact absurd (Nat.succ.inj hsame.2) (Nat.ne_of_lt hlt)

namespace Client

/-- **The levels that are set are read back as a mask**, without the bits that are no output, on a
unit that held anything before. -/
theorem getMask_of_setDigitalLevels {u : ReferenceUnit} (hidle : u.outbox = []) (ms : Nat)
    (levels : UInt32) :
    let set := (⟨some u, ms⟩ : Client ReferenceUnit).perform (.setDigitalLevels levels)
    set.1 = .ok () ∧ (set.2.perform (.getMask .digitalOutput)).1 = .ok (levels % 16) := by
  intro set
  have hneeds : (Operation.setDigitalLevels levels).NeedsDriver := ⟨rfl, rfl⟩
  obtain ⟨buffer, v, hreq⟩ := Operation.request_of_not_isQuery hneeds rfl
  obtain ⟨hstores, hassignments⟩ := Operation.tells_of_command rfl hreq
  have hset : set = (.ok v, ⟨some (u.receive buffer), ms⟩) := perform_command hreq
  rw [ReferenceUnit.receive_of_isStore hstores, hassignments] at hset
  -- The list of the texts that are stored is read as the list of the lowest bits.
  have hread : ∀ index < 4, Setting.digitalOutput.quantity.parse
      ((((Operation.setDigitalLevels levels).written.map Write.assignment).foldl
        ReferenceUnit.put u).text Setting.digitalOutput.group (index + 1)) =
      .ok (levels.toNat.testBit index) := fun index hindex ↦
    ReferenceUnit.parse_text_foldl_put (pairwise_written_setDigitalLevels levels)
      (List.mem_map_of_mem (List.mem_range.mpr hindex)) rfl u
  have hlist := ReferenceUnit.list_of_parse (by decide : 0 < 4) hread
  have hquery := Operation.request_of_question? FlagQuantity.digitalOutput.question?_getMask
  rw [hset]
  refine ⟨rfl, ?_⟩
  rw [perform_query (.getMask .digitalOutput) ((ReferenceUnit.outbox_foldl_put _ u).trans hidle)
    hquery (Quantity.digitalOutput.instructions_groupQuery _)]
  dsimp only
  rw [FlagQuantity.answer_getMask_eq_list, ← maskOfFlags_levelFlags]
  exact congrArg (Except.map maskOfFlags) hlist

end Client

/-- **Flags, masks and selections agree.** A bit of a mask of flags is set exactly if it is one of
the lowest 32 and there is a flag at its place that is set, so that packing is setting the bits of
these places. The mask then selects these places, whatever the count, and all bits of a mask are
packed into the mask again.

A client that asks for a mask does with its driver what it does for the list of the flags, fails
exactly where that fails and in the same way, and packs the list otherwise. If the reply is one flag
for each channel, with any padding around each, the bits of the mask are these flags, and there are
no others. After the digital outputs were set by the bits of a mask, they are read back as the
lowest four bits of it from a unit that held anything before. -/
theorem flags_and_masks_agree (flags : List Bool) (mask : UInt32) :
    ((∀ k, (maskOfFlags flags).toNat.testBit k ↔
        k < 32 ∧ ∃ h : k < flags.length, flags[k] = true) ∧
      maskOfFlags flags = (setPlaces flags).foldl withBit 0) ∧
    (∀ count, maskText? (maskOfFlags flags) count = selectionText? (setPlaces flags) count) ∧
    maskOfFlags ((List.range 32).map fun k ↦ mask.toNat.testBit k) = mask ∧
    (∀ {σ : Type} [Driver σ] (c : Client σ) (f : FlagQuantity),
      c.perform (.getMask f) =
        ((c.perform (.getAll f.quantity)).1.map fun vs ↦ maskOfFlags (f.flags vs),
          (c.perform (.getAll f.quantity)).2) ∧
      (∀ e, (c.perform (.getMask f)).1 = .error e ↔
        (c.perform (.getAll f.quantity)).1 = .error e) ∧
      ∀ items, flags.length = f.quantity.count →
        List.Forall₂ (EncodesPadded Reply.flag) flags items →
        (c.exchange f.question).1 = .ok ([','].intercalate items) →
        ∃ answer, (c.perform (.getMask f)).1 = .ok answer ∧
          (∀ k (h : k < flags.length), answer.toNat.testBit k = flags[k]) ∧
          ∀ k, f.quantity.count ≤ k → answer.toNat.testBit k = false) ∧
    ∀ (u : ReferenceUnit) (ms : Nat), u.outbox = [] →
      let set := (⟨some u, ms⟩ : Client ReferenceUnit).perform (.setDigitalLevels mask)
      set.1 = .ok () ∧ (set.2.perform (.getMask .digitalOutput)).1 = .ok (mask % 16) := by
  refine ⟨⟨fun k ↦ ?_, maskOfFlags_eq_foldl flags⟩, maskText?_maskOfFlags flags,
    maskOfFlags_map_testBit mask, fun c f ↦ ⟨Client.perform_getMask f c,
      fun e ↦ Client.perform_getMask_eq_error_iff, fun items hlength hitems hreply ↦ ?_⟩,
    fun u ms hidle ↦ Client.getMask_of_setDigitalLevels hidle ms mask⟩
  · rw [testBit_maskOfFlags, List.getElem?_eq_some_iff]
  · have hbits := testBit_maskOfFlags_eq_getD (hlength ▸ f.count_le)
    refine ⟨_, Client.perform_getMask_of_encodes hlength hitems hreply, fun k hk ↦ ?_,
      fun k hk ↦ ?_⟩
    · rw [hbits, List.getD_eq_getElem _ _ hk]
    · rw [hbits, List.getD_eq_default _ _ (hlength ▸ hk)]

/-- Four levels that are padded are read into a mask without a fifth bit; of the levels that are
set, only the bits of the outputs are read back. -/
theorem flags_and_masks_agree_padded :
    let flags := [true, false, true, true]
    let items : List Text := [" 1", "0\t", "1", "1\r\n"]
    let c : Client ScriptedUnit := ⟨some { replies := [.ok " 1,0\t,1,1\r\n"] }, 150⟩
    let u := ReferenceUnit.resting
    List.Forall₂ (EncodesPadded Reply.flag) flags items ∧
      (∃ answer, (c.perform (.getMask .digitalInput)).1 = .ok answer ∧
        answer.toNat.testBit 3 ∧ answer.toNat.testBit 4 = false) ∧
      u.outbox = [] ∧
      (((⟨some u, 150⟩ : Client ReferenceUnit).perform (.setDigitalLevels 0xfffffffa)).2.perform
        (.getMask .digitalOutput)).1 = .ok 10 := by
  intro flags items c u
  have hitems : List.Forall₂ (EncodesPadded Reply.flag) flags items :=
    .cons ⟨[' '], [], _, by decide, by decide, .flag true, by decide⟩
      (.cons ⟨[], ['\t'], _, by decide, by decide, .flag false, by decide⟩
        (.cons ⟨[], [], _, by decide, by decide, .flag true, by decide⟩
          (.cons ⟨[], lineEnd, _, by decide, by decide, .flag true, by decide⟩ .nil)))
  obtain ⟨-, -, -, hasked, hset⟩ := flags_and_masks_agree flags 0xfffffffa
  obtain ⟨-, -, hmask⟩ := hasked c .digitalInput
  obtain ⟨answer, hanswer, hbits, hnone⟩ := hmask items rfl hitems (by decide)
  exact ⟨hitems, ⟨answer, hanswer, hbits 3 (by decide), hnone 4 (by decide)⟩, rfl,
    (hset u 150 rfl).2⟩

end BatteryBench
