import BatteryBench.Proofs.Client.Commands

/-!
# What a command tells a unit

A unit knows its channels by the text of a group and a number in it. A header names a group, and a
number that stands in it names one channel; a selection names several. A header that ends with a
question mark asks, every other one sets. `Wire.instructions` reads a line that way and skips what
it cannot read.

`instruction?_assignment` and the laws after it say what each command that a client sends is read
as.
-/

namespace BatteryBench

namespace Wire

/-! ### Reading -/

/-- What a command tells a unit. -/
inductive Instruction where
  /-- To store an argument for channels of a group. -/
  | store (group : Text) (channels : List Nat) (argument : Text)
  /-- To report what is stored for channels of a group. -/
  | report (group : Text) (channels : List Nat)
  deriving DecidableEq

/-- A header without the colon that starts it at the root. -/
def unrooted : Text → Text
  | ':' :: t => t
  | t => t

/-- The text of a header before the number in it. -/
def stem (header : Text) : Text := header.takeWhile fun c ↦ !c.isDigit

/-- The text of a header from the number in it on. -/
def fromNumber (header : Text) : Text := header.dropWhile fun c ↦ !c.isDigit

/-- The group that a header names. -/
def group (header : Text) : Text := stem header ++ (fromNumber header).dropWhile Char.isDigit

/-- The channel that a header names, if it names one. -/
def channel? (header : Text) : Option Nat := number? ((fromNumber header).takeWhile Char.isDigit)

/-- The channels that a header and a selection name together. A header that names no channel and has
no selection is about the unit, which has the number zero. -/
def channels? (header selection : Text) : Option (List Nat) :=
  match channel? header with
  | some n => if selection = [] then some [n] else none
  | none => if selection = [] then some [0] else readSelection? selection

/-- What a command tells a unit, if it can be read. -/
def instruction? (command : Text) : Option Instruction :=
  let name := unrooted (header command)
  if name.getLast? = some '?' then
    (channels? name.dropLast (parameters command)).map (.report (group name.dropLast))
  else
    (channels? name (selection command)).map fun ns ↦ .store (group name) ns (argument command)

/-- What the commands of a line tell a unit. -/
def instructions (buffer : Text) : List Instruction := (commands buffer).filterMap instruction?

example : instructions "SOUR1:VOLT 2.0000;:MOD:GLOB2 7\r\n" =
    [.store "SOUR:VOLT" [1] "2.0000", .store "MOD:GLOB" [2] "7"] := by decide
example : instructions "OUTP:FAUL? (@1:3)\r\n" = [.report "OUTP:FAUL" [1, 2, 3]] := by decide

end Wire

/-! ### Headers -/

/-- Whether a text holds no digit. -/
def HasNoDigit (t : Text) : Prop := ∀ c ∈ t, c.isDigit = false

instance (t : Text) : Decidable (HasNoDigit t) := List.decidableBAll _ t

/-- A header that names a group from the root on: it is made of words, does not start with a colon,
and holds no digit. -/
structure Header.IsPlain (h : Header) : Prop where
  /-- Both parts are words. -/
  isWord : h.IsWord
  /-- The stem starts with something else than a colon. -/
  head : ∃ c, h.stem.head? = some c ∧ c ≠ ':'
  /-- The stem holds no digit. -/
  stem : HasNoDigit h.stem
  /-- Neither does the ending. -/
  ending : HasNoDigit h.ending

theorem Quantity.isPlain_header (q : Quantity) : q.header.IsPlain := by
  refine ⟨q.isWord_header, ?_, ?_, ?_⟩
  · cases q <;> exact ⟨_, rfl, by decide⟩
  · cases q <;> decide
  · cases q <;> decide

namespace Wire

theorem unrooted_of_head {c : Char} {t : Text} (hhead : t.head? = some c) (hc : c ≠ ':') :
    unrooted t = t := by
  unfold unrooted
  split
  · exact absurd (Option.some.inj hhead).symm hc
  · rfl

theorem unrooted_append {h : Header} (hh : h.IsPlain) (t : Text) :
    unrooted (h.stem ++ t) = h.stem ++ t := by
  obtain ⟨c, hhead, hc⟩ := hh.head
  refine unrooted_of_head ?_ hc
  rw [List.head?_append, hhead]
  rfl

section Header

variable {h : Header} (hh : h.IsPlain)
include hh

theorem no_digit_stem : ∀ c ∈ h.stem, (!c.isDigit) = true := by
  intro c hc
  rw [hh.stem c hc]
  rfl

/-- The stem of a channel's header ends where the number starts. -/
theorem stem_channel (n : Nat) : stem (h.channel n) = h.stem := by
  obtain ⟨d, ds, hd, hdigit⟩ := exists_decimal_cons n
  rw [stem, Header.channel, List.append_assoc, List.takeWhile_append_of_pos (no_digit_stem hh), hd,
    List.cons_append, List.takeWhile_cons_of_neg (by simp [hdigit]), List.append_nil]

theorem fromNumber_channel (n : Nat) : fromNumber (h.channel n) = decimal n ++ h.ending := by
  obtain ⟨d, ds, hd, hdigit⟩ := exists_decimal_cons n
  rw [fromNumber, Header.channel, List.append_assoc,
    List.dropWhile_append_of_pos (no_digit_stem hh), hd, List.cons_append,
    List.dropWhile_cons_of_neg (by simp [hdigit])]

theorem takeWhile_ending : h.ending.takeWhile Char.isDigit = [] := by
  refine List.eq_nil_iff_forall_not_mem.mpr fun c hc ↦ ?_
  have hdigit := List.mem_takeWhile_imp hc
  rw [hh.ending c (List.takeWhile_subset _ hc)] at hdigit
  cases hdigit

theorem dropWhile_ending : h.ending.dropWhile Char.isDigit = h.ending := by
  have hsplit := List.takeWhile_append_dropWhile (p := Char.isDigit) (l := h.ending)
  rwa [takeWhile_ending hh, List.nil_append] at hsplit

/-- The header of a channel names the group. -/
theorem group_channel (n : Nat) : group (h.channel n) = h.group := by
  rw [group, stem_channel hh, fromNumber_channel hh,
    List.dropWhile_append_of_pos (isDigits_decimal n), dropWhile_ending hh, Header.group]

/-- The header of a channel names the channel. -/
theorem channel?_channel (n : Nat) : channel? (h.channel n) = some n := by
  rw [channel?, fromNumber_channel hh, List.takeWhile_append_of_pos (isDigits_decimal n),
    takeWhile_ending hh, List.append_nil, number?_decimal]

theorem no_digit_group : ∀ c ∈ h.group, (!c.isDigit) = true := by
  intro c hc
  rcases List.mem_append.mp hc with hc | hc
  · exact no_digit_stem hh c hc
  · rw [hh.ending c hc]
    rfl

theorem fromNumber_group : fromNumber h.group = [] :=
  List.dropWhile_eq_nil_iff.mpr (no_digit_group hh)

/-- The header of a group names the group. -/
theorem group_group : group h.group = h.group := by
  have hstem : stem h.group = h.group := List.takeWhile_eq_self_iff.mpr (no_digit_group hh)
  rw [group, hstem, fromNumber_group hh, List.dropWhile_nil, List.append_nil]

/-- The header of a group names no channel. -/
theorem channel?_group : channel? h.group = none := by
  rw [channel?, fromNumber_group hh]
  rfl

end Header

/-! ### Commands -/

theorem getLast?_of_isWord {t : Text} (ht : IsWord t) : t.getLast? ≠ some '?' := by
  intro hlast
  have hmem := List.mem_of_getLast? hlast
  exact ht.not_mem (by decide) hmem

/-- The command that sets one channel. -/
theorem instruction?_assignment {h : Header} (hh : h.IsPlain) (n : Nat) {arg : Text}
    (ha : IsWord arg) :
    instruction? (Setting.assignment h n arg) = some (.store h.group [n] arg) := by
  have hword := hh.isWord.channel n
  have hname : unrooted (h.channel n) = h.channel n := by
    rw [Header.channel, List.append_assoc]
    exact unrooted_append hh _
  rw [instruction?, Setting.assignment_eq, header_command hword, hname, selection_command hword ha,
    argument_command hword ha]
  rw [if_neg (getLast?_of_isWord hword), channels?, channel?_channel hh, group_channel hh]
  rfl

/-- The same command with a header that starts at the root. -/
theorem instruction?_assignment_rooted {h : Header} (hh : h.IsPlain) (n : Nat) {arg : Text}
    (ha : IsWord arg) :
    instruction? (Setting.assignment h.rooted n arg) = some (.store h.group [n] arg) := by
  have hrooted : h.rooted.channel n = ':' :: h.channel n := rfl
  have hword : IsWord (h.rooted.channel n) := by
    rw [hrooted]
    exact isWord_cons (by decide) (hh.isWord.channel n)
  rw [instruction?, Setting.assignment_eq, header_command hword, selection_command hword ha,
    argument_command hword ha, hrooted, unrooted]
  rw [if_neg (getLast?_of_isWord (hh.isWord.channel n)), channels?, channel?_channel hh,
    group_channel hh]
  rfl

theorem instruction?_assignment_chainHeader (s : Setting) (n : Nat) (v : s.Value) :
    instruction? (Setting.assignment s.chainHeader n (s.argument v)) =
      some (.store s.quantity.header.group [n] (s.argument v)) := by
  have ha := s.isWord_argument v
  cases s with
  | globalInput => exact instruction?_assignment_rooted Quantity.globalInput.isPlain_header n ha
  | localInput => exact instruction?_assignment_rooted Quantity.localInput.isPlain_header n ha
  | _ => exact instruction?_assignment (Quantity.isPlain_header _) n ha

/-- The command that sets the channels of a selection. -/
theorem instruction?_groupAssignment (s : Setting) (v : s.Value) {selection : Text} {ns : List Nat}
    (hsel : readSelection? selection = some ns) :
    instruction? (s.groupAssignment v selection) =
      some (.store s.quantity.header.group ns (s.argument v)) := by
  have hh := s.quantity.isPlain_header
  have hword := hh.isWord.group
  have hname : unrooted s.quantity.header.group = s.quantity.header.group := unrooted_append hh _
  have hne : selection ≠ [] := by
    rintro rfl
    cases hsel
  rw [instruction?, Setting.groupAssignment_eq, header_command hword, hname,
    selection_command_selection hword (s.isWord_argument v),
    argument_command_selection hword (s.isWord_argument v)]
  rw [if_neg (getLast?_of_isWord hword), channels?, channel?_group hh, group_group hh]
  dsimp only
  rw [if_neg hne, hsel]
  rfl

/-! ### Queries -/

theorem header_question {t : Text} (ht : IsWord t) : header (t ++ ['?']) = t ++ ['?'] :=
  takeWhile_of_not_mem (ht.not_mem_question (by decide) (by decide))

theorem parameters_question {t : Text} (ht : IsWord t) : parameters (t ++ ['?']) = [] := by
  rw [parameters, dropWhile_of_not_mem (ht.not_mem_question (by decide) (by decide)),
    List.drop_nil]

/-- The query for one channel. -/
theorem instruction?_channel {h : Header} (hh : h.IsPlain) (n : Nat) :
    instruction? (h.channel n ++ ['?']) = some (.report h.group [n]) := by
  have hword := hh.isWord.channel n
  have hname : unrooted (h.channel n ++ ['?']) = h.channel n ++ ['?'] := by
    rw [Header.channel, List.append_assoc, List.append_assoc]
    exact unrooted_append hh _
  rw [instruction?, header_question hword, hname, parameters_question hword]
  rw [List.getLast?_concat, if_pos rfl, List.dropLast_concat, channels?, channel?_channel hh,
    group_channel hh]
  rfl

/-- The query for the first channels of a group. -/
theorem instruction?_groupQuery (q : Quantity) (n : Nat) :
    instruction? (q.groupQuery n) =
      some (.report q.header.group ((List.range n).map (· + 1))) := by
  have hh := q.isPlain_header
  have hspace : ' ' ∉ q.header.group ++ ['?'] :=
    hh.isWord.group.not_mem_question (by decide) (by decide)
  have htext : q.groupQuery n = (q.header.group ++ ['?']) ++ ' ' :: fullRange n := by
    simp [Quantity.groupQuery]
  have hheader : header (q.groupQuery n) = q.header.group ++ ['?'] := by
    rw [htext]
    exact takeWhile_append_cons hspace _
  have hparameters : parameters (q.groupQuery n) = fullRange n := by
    rw [htext, parameters, dropWhile_append_cons hspace, List.drop_succ_cons, List.drop_zero]
  have hname : unrooted (q.header.group ++ ['?']) = q.header.group ++ ['?'] := by
    rw [Header.group, List.append_assoc]
    exact unrooted_append hh _
  have hne : fullRange n ≠ [] := List.cons_ne_nil _ _
  rw [instruction?, hheader, hname, hparameters]
  rw [List.getLast?_concat, if_pos rfl, List.dropLast_concat, channels?, channel?_group hh,
    group_group hh]
  dsimp only
  rw [if_neg hne, readSelection?_fullRange]
  rfl

end Wire

end BatteryBench
