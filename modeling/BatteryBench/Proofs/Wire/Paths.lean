import BatteryBench.Proofs.Wire.Instructions

/-!
# Where headers lead

The headers of a unit form a tree, and a header is a way down it: names of nodes with colons between
them. A line starts at the root. After a semicolon the unit goes on from the node that holds the
last one of the command before, unless the header starts with a colon, which stands for the root.

`Wire.executed` reads a line by that rule. A header that does not start with a colon leads somewhere
else after every command that has left the root (`Wire.resolve_channel`); one that does leads where
it leads at the start of a line (`Wire.resolve_rooted_channel`).
-/

namespace BatteryBench

namespace Wire

/-- A place in the tree of headers: the nodes on the way to it from the root. -/
abbrev Path := List Text

/-- The place that a header names, seen from the node it may be relative to. -/
def resolve (parent : Path) (header : Text) : Path :=
  if header.head? = some ':' then splitAt ':' header.tail else parent ++ splitAt ':' header

/-- A command at the place where a unit executes it. -/
structure Executed where
  /-- The place. -/
  path : Path
  /-- What stands behind the header. -/
  parameters : Text
  deriving DecidableEq

/-- What a unit executes of some commands, the first of which may be relative to a node. -/
def executedFrom (parent : Path) : List Text → List Executed
  | [] => []
  | command :: rest =>
    let path := resolve parent (header command)
    ⟨path, parameters command⟩ :: executedFrom path.dropLast rest

/-- What a unit executes of a line. -/
def executed (buffer : Text) : List Executed := executedFrom [] (commands buffer)

example : executed "SOUR1:VOLT 2.0000;CURR 1;:MOD:GLOB2 7\r\n" =
    [⟨["SOUR1", "VOLT"], "2.0000"⟩, ⟨["SOUR1", "CURR"], "1"⟩, ⟨["MOD", "GLOB2"], "7"⟩] := by
  decide

/-! ### Headers of channels -/

section Header

variable {h : Header} (hh : h.IsPlain) (parent : Path) (n : Nat)
include hh

/-- A header that does not start with a colon leads on from the parent. -/
theorem resolve_channel :
    resolve parent (h.channel n) = parent ++ splitAt ':' (h.channel n) := by
  obtain ⟨c, hhead, hc⟩ := hh.head
  have hfirst : (h.channel n).head? = some c := by
    rw [Header.channel, List.append_assoc, List.head?_append, hhead, Option.some_or]
  rw [resolve, if_neg]
  rw [hfirst, Option.some.injEq]
  exact hc

omit hh in
/-- A header that starts with a colon leads to the same place from everywhere. -/
theorem resolve_rooted_channel :
    resolve parent (h.rooted.channel n) = splitAt ':' (h.channel n) := rfl

end Header

/-- A command for a channel is executed where its header leads, and the next one goes on from
there. -/
theorem executedFrom_assignment {h : Header} (hword : h.IsWord) (parent : Path) (n : Nat)
    (arg : Text) (rest : List Text) :
    executedFrom parent (Setting.assignment h n arg :: rest) =
      ⟨resolve parent (h.channel n), arg⟩ ::
        executedFrom (resolve parent (h.channel n)).dropLast rest := by
  rw [executedFrom, Setting.assignment_eq, header_command (hword.channel n),
    parameters_command (hword.channel n)]

end Wire

end BatteryBench
