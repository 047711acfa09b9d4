import BatteryBench.Link.Stream

/-!
# The lines of a stream

What a reader of a stream is to get, said of the bytes alone: `completeLines` cuts them at their
line feeds and forgets what follows the last one. Nothing in it is about reads, arrival or time.

The reader itself keeps what it has taken in two places, as the beginning of a line and in its
buffer, and the rest is still in the stream. Filling the buffer moves bytes from one place to the
next and changes nothing about them as a whole (`InFlow.pending_fill`), so what a read comes to can
be said of all of them at once (`InFlow.readLine_of_splitLine?`, `InFlow.readLine_of_notMem`).

`InFlow.Delivers` ties them to the whole history: **whatever still arrives, the lines of the history
are those already returned and then those of the bytes the reader has not returned.** Quantifying
over what still arrives is what makes the invariant one of the bytes and not of their pieces: a line
end that comes in two pieces needs no case of its own.

* `InFlow.Delivers.push`: arrival keeps the invariant;
* `InFlow.Delivers.readLine_fst` and `InFlow.Delivers.readLine_snd`: a read returns the next line of
  the history if that line is complete, and keeps the invariant either way.
-/

namespace BatteryBench

/-! ### The lines in some bytes -/

/-- The complete lines in some bytes: what stands before each line feed and after the line feed
before it, without one carriage return at its end, as text. -/
def completeLines (bytes : Bytes) : List Text :=
  (bytes.splitOn 0x0a).dropLast.map fun line ↦ Utf8.decode (dropReturn line)

theorem completeLines_of_notMem {bytes : Bytes} (h : (0x0a : UInt8) ∉ bytes) :
    completeLines bytes = [] := by
  rw [completeLines, List.splitOn_eq_singleton h]
  rfl

/-- The first line feed ends the first line. -/
theorem completeLines_append_cons {line : Bytes} (h : (0x0a : UInt8) ∉ line) (rest : Bytes) :
    completeLines (line ++ 0x0a :: rest) =
      Utf8.decode (dropReturn line) :: completeLines rest := by
  rw [completeLines, List.splitOn_append_cons_self, List.splitOn_eq_singleton h,
    List.singleton_append, List.dropLast_cons_of_ne_nil (List.splitOn_ne_nil _ _), List.map_cons,
    completeLines]

/-- What still arrives only adds lines. -/
theorem completeLines_mono {bytes more : Bytes} (h : bytes <+: more) :
    completeLines bytes <+: completeLines more := by
  obtain ⟨rest, rfl⟩ := h
  induction hn : bytes.length using Nat.strongRecOn generalizing bytes with
  | _ n ih =>
    cases hsplit : splitLine? bytes with
    | none =>
      rw [completeLines_of_notMem (splitLine?_eq_none_iff.mp hsplit)]
      exact List.nil_prefix
    | some r =>
      obtain ⟨rfl, hline⟩ := splitLine?_eq_some_iff.mp hsplit
      rw [List.append_assoc, List.cons_append, completeLines_append_cons hline,
        completeLines_append_cons hline, List.prefix_cons_inj]
      exact ih r.2.length (by simp [← hn]; omega) rfl

/-- The line at a place among those of a history, or the failure of a read that comes too early for
it. -/
def lineAt (late : Failure) (history : Bytes) (place : Nat) : Outcome Text :=
  match (completeLines history)[place]? with
  | some line => .ok line
  | none => .error late

/-! ### One read -/

namespace InFlow

/-- The bytes that have arrived and that no read has returned. -/
def pending (f : InFlow) : Bytes := f.held ++ (f.ahead ++ f.unread)

/-- Filling the buffer moves bytes and loses none. -/
theorem pending_fill (f : InFlow) : f.fill.pending = f.pending := by
  simp [pending, fill]

theorem length_unread_fill_le {f : InFlow} {n : Nat} (h : f.unread.length ≤ n + 1) :
    f.fill.unread.length ≤ n := by
  rw [fill, List.length_drop, bufferRoom]
  omega

/-- The line that ends in the buffer is the first one pending. -/
theorem splitLine?_pending {f : InFlow} (hheld : (0x0a : UInt8) ∉ f.held) {line rest : Bytes}
    (hsplit : splitLine? f.ahead = some (line, rest)) :
    splitLine? f.pending = some (f.held ++ line, rest ++ f.unread) := by
  obtain ⟨hahead, hline⟩ := splitLine?_eq_some_iff.mp hsplit
  refine splitLine?_eq_some_iff.mpr ⟨by simp [pending, hahead], fun hmem ↦ ?_⟩
  exact (List.mem_append.mp hmem).elim hheld hline

/-- Without a line end in the buffer, and nothing left to fill it with, no line is pending. -/
theorem notMem_pending {f : InFlow} (hheld : (0x0a : UInt8) ∉ f.held)
    (hsplit : splitLine? f.ahead = none) (hunread : f.unread = []) :
    (0x0a : UInt8) ∉ f.pending := by
  rw [pending, hunread, List.append_nil]
  exact fun hmem ↦ (List.mem_append.mp hmem).elim hheld (splitLine?_eq_none_iff.mp hsplit)

theorem notMem_ahead {f : InFlow} (hpending : (0x0a : UInt8) ∉ f.pending) :
    (0x0a : UInt8) ∉ f.ahead :=
  fun hmem ↦ hpending (List.mem_append_right _ (List.mem_append_left _ hmem))

/-- What is held stays the beginning of a line when the buffer had no line end in it. -/
theorem notMem_held_fill {f : InFlow} (hheld : (0x0a : UInt8) ∉ f.held)
    (hsplit : splitLine? f.ahead = none) : (0x0a : UInt8) ∉ f.fill.held := fun hmem ↦
  (List.mem_append.mp hmem).elim hheld (splitLine?_eq_none_iff.mp hsplit)

/-- A line that ends in the buffer is the first pending one, and is found without filling it. -/
theorem readWithin_of_ahead {f : InFlow} (hheld : (0x0a : UInt8) ∉ f.held) {r : Bytes × Bytes}
    (hbuffer : splitLine? f.ahead = some r) {line rest : Bytes}
    (hsplit : splitLine? f.pending = some (line, rest)) (n : Nat) :
    ∃ ahead unread, ahead ++ unread = rest ∧
      f.readWithin n = (.ok (Utf8.decode (dropReturn line)),
        { f with held := [], ahead := ahead, unread := unread }) := by
  cases (splitLine?_pending hheld hbuffer).symm.trans hsplit
  refine ⟨r.2, f.unread, rfl, ?_⟩
  cases n <;> rw [readWithin, buffered?, hbuffer] <;> rfl

/-- The first pending line is found, however often the buffer has to be filled for it. -/
theorem readWithin_of_splitLine? {f : InFlow} (hheld : (0x0a : UInt8) ∉ f.held)
    {line rest : Bytes} (hsplit : splitLine? f.pending = some (line, rest)) {n : Nat}
    (hn : f.unread.length ≤ n) :
    ∃ ahead unread, ahead ++ unread = rest ∧
      f.readWithin n = (.ok (Utf8.decode (dropReturn line)),
        { f with held := [], ahead := ahead, unread := unread }) := by
  induction n generalizing f with
  | zero =>
    have hunread : f.unread = [] := List.eq_nil_of_length_eq_zero (Nat.le_zero.mp hn)
    cases hbuffer : splitLine? f.ahead with
    | none =>
      have hnot := notMem_pending hheld hbuffer hunread
      rw [splitLine?_eq_none_iff.mpr hnot] at hsplit
      cases hsplit
    | some r => exact readWithin_of_ahead hheld hbuffer hsplit 0
  | succ n ih =>
    cases hbuffer : splitLine? f.ahead with
    | none =>
      rw [readWithin, buffered?, hbuffer]
      exact ih (notMem_held_fill hheld hbuffer) (f.pending_fill.symm ▸ hsplit)
        (length_unread_fill_le hn)
    | some r => exact readWithin_of_ahead hheld hbuffer hsplit (n + 1)

/-- Without a pending line everything is held in the end. -/
theorem readWithin_of_notMem {f : InFlow} (hpending : (0x0a : UInt8) ∉ f.pending) {n : Nat}
    (hn : f.unread.length ≤ n) :
    f.readWithin n = (.error f.state.lateness,
      { f with held := f.pending, ahead := [], unread := [] }) := by
  induction n generalizing f with
  | zero =>
    have hunread : f.unread = [] := List.eq_nil_of_length_eq_zero (Nat.le_zero.mp hn)
    rw [readWithin, buffered?, splitLine?_eq_none_iff.mpr (notMem_ahead hpending)]
    simp [fill, pending, hunread]
  | succ n ih =>
    rw [readWithin, buffered?, splitLine?_eq_none_iff.mpr (notMem_ahead hpending)]
    rw [← f.pending_fill] at hpending ⊢
    exact ih hpending (length_unread_fill_le hn)

/-- **A read gives the first pending line**, and what stood behind it is pending then. -/
theorem readLine_of_splitLine? {f : InFlow} (hheld : (0x0a : UInt8) ∉ f.held)
    {line rest : Bytes} (hsplit : splitLine? f.pending = some (line, rest)) :
    ∃ ahead unread, ahead ++ unread = rest ∧
      f.readLine = (.ok (Utf8.decode (dropReturn line)),
        { f with held := [], ahead := ahead, unread := unread }) :=
  readWithin_of_splitLine? hheld hsplit (Nat.le_refl _)

/-- **A read fails without a pending line**, and holds everything. -/
theorem readLine_of_notMem {f : InFlow} (hpending : (0x0a : UInt8) ∉ f.pending) :
    f.readLine = (.error f.state.lateness,
      { f with held := f.pending, ahead := [], unread := [] }) :=
  readWithin_of_notMem hpending (Nat.le_refl _)

/-- Whatever an earlier reader left, a read gives a line or fails for want of one, and does nothing
to the state of the stream. -/
theorem readLine_eq_ok_or_error (f : InFlow) :
    ((∃ line, f.readLine.1 = .ok line) ∨ f.readLine.1 = .error f.state.lateness) ∧
      f.readLine.2.state = f.state := by
  rw [readLine]
  generalize f.unread.length = n
  induction n generalizing f with
  | zero =>
    rw [readWithin, buffered?]
    cases splitLine? f.ahead with
    | none => exact ⟨.inr rfl, rfl⟩
    | some r => exact ⟨.inl ⟨_, rfl⟩, rfl⟩
  | succ n ih =>
    rw [readWithin, buffered?]
    cases splitLine? f.ahead with
    | none => exact ih f.fill
    | some r => exact ⟨.inl ⟨_, rfl⟩, rfl⟩

end InFlow

/-- A stream has no say in what may be asked. -/
theorem StreamState.lateness_ne_receiveNotAllowed (state : StreamState) :
    state.lateness ≠ .receiveNotAllowed := by
  cases state <;> decide

/-! ### The invariant of a reader -/

namespace InFlow

/-- **The invariant of a reader**, for the bytes that have arrived and the lines that were returned.
-/
structure Delivers (history : Bytes) (returned : List Text) (f : InFlow) : Prop where
  /-- Whatever still arrives, the lines are those returned and then those of the pending bytes. -/
  lines : ∀ more, completeLines (history ++ more) = returned ++ completeLines (f.pending ++ more)
  /-- What is held is the beginning of a line. -/
  held : (0x0a : UInt8) ∉ f.held

variable {history : Bytes} {returned : List Text} {f : InFlow}

/-- A new reader of a stream has returned nothing of what is still there. -/
theorem delivers_anew (f : InFlow) : f.anew.Delivers f.unread [] :=
  ⟨fun _ ↦ rfl, List.not_mem_nil⟩

/-- Arrival keeps the invariant, whatever the pieces. -/
theorem Delivers.push (h : f.Delivers history returned) (bytes : Bytes) :
    (f.push bytes).Delivers (history ++ bytes) returned where
  lines more := by
    rw [List.append_assoc, h.lines (bytes ++ more)]
    simp [pending, InFlow.push]
  held := h.held

/-- The lines of the history, the pending ones put last. -/
theorem Delivers.completeLines_eq (h : f.Delivers history returned) :
    completeLines history = returned ++ completeLines f.pending := by
  simpa using h.lines []

/-- The place of the next line is the number of lines returned. -/
theorem Delivers.getElem?_length (h : f.Delivers history returned) :
    (completeLines history)[returned.length]? = (completeLines f.pending).head? := by
  rw [h.completeLines_eq, List.getElem?_append_right (Nat.le_refl _), Nat.sub_self,
    List.head?_eq_getElem?]

/-- **A read returns the next line of the history** if that line is complete, and fails otherwise.
-/
theorem Delivers.readLine_fst (h : f.Delivers history returned) :
    f.readLine.1 = lineAt f.state.lateness history returned.length := by
  rw [lineAt, h.getElem?_length]
  cases hsplit : splitLine? f.pending with
  | none =>
    have hpending := splitLine?_eq_none_iff.mp hsplit
    rw [readLine_of_notMem hpending, completeLines_of_notMem hpending]
    rfl
  | some r =>
    obtain ⟨hpending, hline⟩ := splitLine?_eq_some_iff.mp hsplit
    obtain ⟨ahead, unread, -, hread⟩ := readLine_of_splitLine? h.held hsplit
    rw [hread, hpending, completeLines_append_cons hline]
    rfl

/-- **A read keeps the invariant**, with the line it returned, if it did. A read that returned none
has changed where the bytes are, but not which ones are pending. -/
theorem Delivers.readLine_snd (h : f.Delivers history returned) :
    f.readLine.2.Delivers history (returned ++ f.readLine.1.toOption.toList) := by
  cases hsplit : splitLine? f.pending with
  | none =>
    have hpending := splitLine?_eq_none_iff.mp hsplit
    rw [readLine_of_notMem hpending]
    refine ⟨fun more ↦ ?_, hpending⟩
    rw [h.lines more]
    simp [pending, Except.toOption]
  | some r =>
    obtain ⟨hpending, hline⟩ := splitLine?_eq_some_iff.mp hsplit
    obtain ⟨ahead, unread, hrest, hread⟩ := readLine_of_splitLine? h.held hsplit
    rw [hread]
    -- The line feed that ends the line is there already, so nothing that still arrives changes it.
    refine ⟨fun more ↦ ?_, List.not_mem_nil⟩
    rw [h.lines more, hpending, ← hrest, List.append_assoc, List.cons_append,
      completeLines_append_cons hline]
    simp [pending, Except.toOption]

end InFlow

end BatteryBench
