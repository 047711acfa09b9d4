import BatteryBench.Proofs.Text.Pieces
import BatteryBench.Proofs.Number.Digits
import Mathlib.Data.List.TakeWhile

/-!
# Commands as a unit reads them

A transmission is a line: commands with semicolons between them, and a line end. A command is a
header and, after the first blank, its parameters: an argument and, after the first comma, a
selection of channels. The readers below know nothing of how a transmission was put together.

What headers and arguments are made of are *words*: letters, digits, points, signs and colons, and
none of the characters that separate. A command built from words is therefore read as it was built
(`header_command`, `argument_command`, `argument_command_selection`), and so is a line built from
commands (`commands_intercalate`).
-/

namespace BatteryBench

/-! ### Reading -/

namespace Wire

/-- A line without its line end. -/
def body (buffer : Text) : Text := buffer.take (buffer.length - lineEnd.length)

/-- The commands of a line. -/
def commands (buffer : Text) : List Text := splitAt ';' (body buffer)

/-- The header of a command. -/
def header (command : Text) : Text := command.takeWhile (· ≠ ' ')

/-- The parameters of a command. -/
def parameters (command : Text) : Text := (command.dropWhile (· ≠ ' ')).drop 1

/-- The argument of a command. -/
def argument (command : Text) : Text := (parameters command).takeWhile (· ≠ ',')

/-- The selection of a command; none is written as no text. -/
def selection (command : Text) : Text := ((parameters command).dropWhile (· ≠ ',')).drop 1

/-- The arguments of the commands of a line. -/
def arguments (buffer : Text) : List Text := (commands buffer).map argument

end Wire

/-! ### Words -/

/-- Whether a character may stand in a word. -/
def isWordChar (c : Char) : Bool := c.isAlphanum || c == '.' || c == '-' || c == ':'

/-- Whether a text is made of what headers and arguments are made of. -/
def IsWord (t : Text) : Prop := ∀ c ∈ t, isWordChar c

instance (t : Text) : Decidable (IsWord t) := List.decidableBAll _ t

theorem isWord_cons {c : Char} {t : Text} (hc : isWordChar c) (ht : IsWord t) : IsWord (c :: t) :=
  List.forall_mem_cons.mpr ⟨hc, ht⟩

theorem IsWord.append {s t : Text} (hs : IsWord s) (ht : IsWord t) : IsWord (s ++ t) :=
  List.forall_mem_append.mpr ⟨hs, ht⟩

theorem IsDigits.isWord {t : Text} (ht : IsDigits t) : IsWord t := by
  intro c hc
  have hdigit := ht c hc
  simp [isWordChar, Char.isAlphanum, hdigit]

/-- A character that separates stands in no word. -/
theorem IsWord.not_mem {c : Char} {t : Text} (ht : IsWord t) (hc : isWordChar c = false) :
    c ∉ t :=
  not_mem_of_forall ht hc

/-- Nor does it stand in a question. -/
theorem IsWord.not_mem_question {c : Char} {t : Text} (ht : IsWord t) (hc : isWordChar c = false)
    (hquestion : c ≠ '?') : c ∉ t ++ ['?'] := by
  rw [List.mem_append, List.mem_singleton]
  rintro (hmem | heq)
  · exact ht.not_mem hc hmem
  · exact hquestion heq

/-! ### Reading what was built -/

namespace Wire

theorem body_append_lineEnd (t : Text) : body (t ++ lineEnd) = t := by
  rw [body, List.length_append, Nat.add_sub_cancel, List.take_left]

/-- **A line of commands** is read as these commands. -/
theorem commands_intercalate {ts : List Text} (hne : ts ≠ []) (h : ∀ t ∈ ts, ';' ∉ t) :
    commands ([';'].intercalate ts ++ lineEnd) = ts := by
  rw [commands, body_append_lineEnd, splitAt_intercalate hne h]

theorem commands_singleton {t : Text} (h : ';' ∉ t) : commands (t ++ lineEnd) = [t] := by
  rw [commands, body_append_lineEnd, splitAt_of_not_mem h]

theorem header_command {h : Text} (hh : IsWord h) (t : Text) : header (h ++ ' ' :: t) = h :=
  takeWhile_append_cons (hh.not_mem (by decide)) t

theorem parameters_command {h : Text} (hh : IsWord h) (t : Text) :
    parameters (h ++ ' ' :: t) = t := by
  rw [parameters, dropWhile_append_cons (hh.not_mem (by decide)), List.drop_succ_cons,
    List.drop_zero]

/-- The argument of a command without a selection. -/
theorem argument_command {h a : Text} (hh : IsWord h) (ha : IsWord a) :
    argument (h ++ ' ' :: a) = a := by
  rw [argument, parameters_command hh, takeWhile_of_not_mem (ha.not_mem (by decide))]

theorem selection_command {h a : Text} (hh : IsWord h) (ha : IsWord a) :
    selection (h ++ ' ' :: a) = [] := by
  rw [selection, parameters_command hh, dropWhile_of_not_mem (ha.not_mem (by decide)),
    List.drop_nil]

/-- The argument of a command with a selection. -/
theorem argument_command_selection {h a : Text} (hh : IsWord h) (ha : IsWord a) (sel : Text) :
    argument (h ++ ' ' :: (a ++ ',' :: sel)) = a := by
  rw [argument, parameters_command hh, takeWhile_append_cons (ha.not_mem (by decide))]

theorem selection_command_selection {h a : Text} (hh : IsWord h) (ha : IsWord a) (sel : Text) :
    selection (h ++ ' ' :: (a ++ ',' :: sel)) = sel := by
  rw [selection, parameters_command hh, dropWhile_append_cons (ha.not_mem (by decide)),
    List.drop_succ_cons, List.drop_zero]

end Wire

end BatteryBench
