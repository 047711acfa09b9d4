import BatteryBench.Failure
import BatteryBench.Link.Network

/-!
# Lines out of a stream

Over a stream a unit's bytes arrive in pieces of any size, and a reader takes them line by line.
Where they were cut on the way is forgotten on arrival (`InFlow.push_append`).

A line ends with a line feed, which is removed together with one carriage return before it. The
reader does not take single lines out of the stream: it fills a buffer with what has arrived, as far
as there is room (`InFlow.fill`), and looks for the line feed there. What it finds behind the line
stays in the buffer for later reads (`InFlow.ahead`). If there is no line feed in all that has
arrived, it holds everything as the beginning of a line (`InFlow.held`), which a later read goes on
with, so a read that times out loses nothing. Once a unit has finished, or the stream is broken, the
complete lines are still there; after them reads fail.

What a reader holds and has read ahead is its own: it goes with the reader (`InFlow.anew`), and only
what the stream still has is there for the next one.
-/

namespace BatteryBench

/-- Whether more can come over a stream. -/
inductive StreamState where
  /-- The unit may send more, and takes what is sent. -/
  | live
  /-- The unit sends no more but still takes what is sent. -/
  | finished
  /-- The stream is broken in both directions. -/
  | broken
  deriving DecidableEq, Repr

/-- The bytes up to the first line feed and the bytes after it. -/
def splitLine? : Bytes → Option (Bytes × Bytes)
  | [] => none
  | b :: rest =>
    if b = 0x0a then some ([], rest)
    else (splitLine? rest).map fun r ↦ (b :: r.1, r.2)

/-- A line without one carriage return at its end. -/
def dropReturn (line : Bytes) : Bytes :=
  if line.getLast? = some 0x0d then line.dropLast else line

/-- The failure of a read that finds no complete line. -/
def StreamState.lateness (state : StreamState) : Failure :=
  if state = .live then .readTimedOut else .readFailed

/-- How many bytes the buffer of a reader takes. -/
def bufferRoom : Nat := 8192

/-- What reaches the host over a stream, and its reader. -/
structure InFlow where
  /-- The beginning of a line that earlier reads took without finding its end. -/
  held : Bytes := []
  /-- What the reader has taken out of the stream behind the last line. -/
  ahead : Bytes := []
  /-- The bytes that have arrived and are still in the stream. -/
  unread : Bytes := []
  /-- Whether more can come. -/
  state : StreamState := .live
  deriving DecidableEq

namespace InFlow

/-- The stream after more bytes have arrived. -/
def push (bytes : Bytes) (f : InFlow) : InFlow := { f with unread := f.unread ++ bytes }

/-- Bytes that arrive in two pieces are the same as bytes that arrive in one. -/
theorem push_append (xs ys : Bytes) (f : InFlow) : f.push (xs ++ ys) = (f.push xs).push ys := by
  simp [push]

/-- The line that ends in the buffer, if one does, and the stream after it. -/
def buffered? (f : InFlow) : Option (Text × InFlow) :=
  (splitLine? f.ahead).map fun r ↦
    (Utf8.decode (dropReturn (f.held ++ r.1)), { f with held := [], ahead := r.2 })

/-- Holds what is in the buffer and fills it again. -/
def fill (f : InFlow) : InFlow :=
  { f with
    held := f.held ++ f.ahead
    ahead := f.unread.take bufferRoom
    unread := f.unread.drop bufferRoom }

/-- The next line, if it ends in the buffer before that was filled more often than given, and the
stream after it. -/
def readWithin : (fills : Nat) → InFlow → Outcome Text × InFlow
  | fills, f =>
    match f.buffered? with
    | some (line, f) => (.ok line, f)
    | none =>
      match fills with
      | 0 => (.error f.state.lateness, f.fill)
      | fills + 1 => readWithin fills f.fill

/-- The next line and the stream after it. Without a complete line the read times out, or fails if
no line can come any more, and what it took is held. Every time the buffer is filled it takes a byte
at least, until none is left. -/
def readLine (f : InFlow) : Outcome Text × InFlow := f.readWithin f.unread.length

/-- The stream as it is for a new reader, who has nothing of what an earlier one took. -/
def anew (f : InFlow) : InFlow := { f with held := [], ahead := [] }

end InFlow

/-! ### The unit's end -/

/-- The next line of the bytes that reached a unit, with its line feed, and the bytes after it. -/
def takeLine? (received : Bytes) : Option (Bytes × Bytes) :=
  (splitLine? received).map fun r ↦ (r.1 ++ [0x0a], r.2)

/-! ### Splitting -/

theorem splitLine?_eq_none_iff {bytes : Bytes} :
    splitLine? bytes = none ↔ (0x0a : UInt8) ∉ bytes := by
  induction bytes with
  | nil => simp [splitLine?]
  | cons b rest ih =>
    by_cases h : b = 0x0a
    · simp [splitLine?, h]
    · simp [splitLine?, h, ih, Ne.symm h]

/-- What is split off is a line without a line feed, and nothing is lost. -/
theorem splitLine?_eq_some_iff {bytes line rest : Bytes} :
    splitLine? bytes = some (line, rest) ↔
      bytes = line ++ 0x0a :: rest ∧ (0x0a : UInt8) ∉ line := by
  induction bytes generalizing line with
  | nil => simp [splitLine?]
  | cons b bytes ih =>
    rw [splitLine?]
    split
    · next h =>
      subst h
      constructor
      · intro heq
        cases heq
        simp
      · rintro ⟨heq, hnot⟩
        cases line with
        | nil => simpa using heq
        | cons c line =>
          rw [List.cons_append, List.cons.injEq] at heq
          exact absurd (heq.1 ▸ List.mem_cons_self) hnot
    · next h =>
      rw [Option.map_eq_some_iff]
      constructor
      · rintro ⟨⟨first, last⟩, hsplit, heq⟩
        cases heq
        obtain ⟨rfl, hnot⟩ := ih.mp hsplit
        simp [hnot, Ne.symm h]
      · rintro ⟨heq, hnot⟩
        cases line with
        | nil =>
          rw [List.nil_append, List.cons.injEq] at heq
          exact absurd heq.1 h
        | cons c line =>
          rw [List.cons_append, List.cons.injEq] at heq
          obtain ⟨rfl, heq⟩ := heq
          refine ⟨(line, rest), ih.mpr ⟨heq, fun hmem ↦ hnot (List.mem_cons_of_mem _ hmem)⟩, rfl⟩

end BatteryBench
