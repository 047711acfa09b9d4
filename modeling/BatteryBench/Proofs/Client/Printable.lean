import BatteryBench.Proofs.Client.Commands
import BatteryBench.Proofs.Client.Conduct

/-!
# What is sent is one printable line

Whatever a client is asked to do, and with whatever arguments, the text that it sends is one line:
printable ASCII and the line end (`Operation.sendsLine_request`). Nothing that a caller passes in
gets through as it is. Numbers are written as numerals and keywords, channels as their numbers, and
the addresses of `SYST:NET:ADDR` by their octets, so a line end, a null or a character beyond ASCII
in an argument is refused or lost before anything is sent.

The law follows the ways in which requests are made: each of them sends a line if the parts that it
is put together from are printable (`Request.SendsLine`).
-/

namespace BatteryBench

/-! ### Printable texts -/

/-- Whether a character is printable ASCII. -/
def isPrintableChar (c : Char) : Bool := decide (' ' ≤ c ∧ c ≤ '~')

/-- Whether a text is printable ASCII: it holds no line end and no null. -/
def IsPrintable (t : Text) : Prop := ∀ c ∈ t, isPrintableChar c

instance (t : Text) : Decidable (IsPrintable t) := List.decidableBAll _ t

theorem IsPrintable.append {s t : Text} (hs : IsPrintable s) (ht : IsPrintable t) :
    IsPrintable (s ++ t) :=
  List.forall_mem_append.mpr ⟨hs, ht⟩

theorem isPrintable_cons {c : Char} {t : Text} (hc : isPrintableChar c) (ht : IsPrintable t) :
    IsPrintable (c :: t) :=
  List.forall_mem_cons.mpr ⟨hc, ht⟩

theorem isPrintableChar_iff {c : Char} : isPrintableChar c ↔ 0x20 ≤ c.toNat ∧ c.toNat ≤ 0x7e := by
  rw [isPrintableChar, decide_eq_true_eq, Char.le_def, Char.le_def, UInt32.le_iff_toNat_le,
    UInt32.le_iff_toNat_le]
  rfl

theorem isPrintableChar_of_isAlphanum {c : Char} (h : c.isAlphanum) : isPrintableChar c := by
  have hval : c.val.toNat = c.toNat := rfl
  delta Char.isAlphanum Char.isAlpha Char.isUpper Char.isLower Char.isDigit at h
  simp only [UInt32.le_iff_toNat_le, ge_iff_le, Bool.or_eq_true, Bool.and_eq_true,
    decide_eq_true_eq, hval, UInt32.reduceToNat, Char.reduceVal] at h
  rw [isPrintableChar_iff]
  omega

theorem isPrintableChar_of_isWordChar {c : Char} (h : isWordChar c) : isPrintableChar c := by
  simp only [isWordChar, Bool.or_eq_true, beq_iff_eq] at h
  rcases h with ((h | rfl) | rfl) | rfl
  · exact isPrintableChar_of_isAlphanum h
  · decide
  · decide
  · decide

theorem isPrintableChar_of_isSelectionChar {c : Char} (h : isSelectionChar c) :
    isPrintableChar c := by
  rw [isSelectionChar, Bool.or_eq_true, List.contains_iff_mem] at h
  rcases h with h | h
  · exact isPrintableChar_of_isAlphanum (by rw [Char.isAlphanum, h, Bool.or_true])
  · have hall : IsPrintable "(@:,)" := by decide
    exact hall c h

theorem IsWord.isPrintable {t : Text} (h : IsWord t) : IsPrintable t :=
  fun c hc ↦ isPrintableChar_of_isWordChar (h c hc)

theorem IsSelection.isPrintable {t : Text} (h : IsSelection t) : IsPrintable t :=
  fun c hc ↦ isPrintableChar_of_isSelectionChar (h c hc)

theorem isPrintable_intercalate {sep : Char} {ts : List Text} (hsep : isPrintableChar sep)
    (h : ∀ t ∈ ts, IsPrintable t) : IsPrintable ([sep].intercalate ts) := by
  intro c hc
  rcases mem_intercalate hc with rfl | ⟨t, ht, hmem⟩
  · exact hsep
  · exact h t ht c hmem

theorem IPv4.isPrintable_text (ip : IPv4) : IsPrintable ip.text := by
  have hoctet (n : Nat) : IsPrintable (decimal n) := (isDigits_decimal n).isWord.isPrintable
  have hpoint : isPrintableChar '.' := by decide
  exact (hoctet _).append (isPrintable_cons hpoint ((hoctet _).append
    (isPrintable_cons hpoint ((hoctet _).append (isPrintable_cons hpoint (hoctet _))))))

/-- Quoting adds quotes only. -/
theorem isPrintable_quote {t : Text} (h : IsPrintable t) : IsPrintable (quote t) := by
  have hquote : isPrintableChar '"' := by decide
  have hdoubled : IsPrintable (doubled '"' t) := by
    intro c hc
    rw [doubled, List.mem_flatMap] at hc
    obtain ⟨d, hd, hc⟩ := hc
    split at hc
    · obtain rfl : c = '"' := by simpa using hc
      exact hquote
    · obtain rfl : c = d := List.mem_singleton.mp hc
      exact h c hd
  exact isPrintable_cons hquote (hdoubled.append (by decide))

/-! ### Lines -/

/-- Whether a text is one line: printable ASCII, and the line end once, behind it. -/
def IsLine (buffer : Text) : Prop := ∃ body, buffer = body ++ lineEnd ∧ IsPrintable body

theorem IsPrintable.isLine {t : Text} (h : IsPrintable t) : IsLine (t ++ lineEnd) := ⟨t, rfl, h⟩

/-- That a request sends nothing, or one line. -/
def Request.SendsLine {α : Type} : Request α → Prop
  | .command buffer _ | .query buffer _ => IsLine buffer
  | .refused _ | .done _ => True

theorem Request.SendsLine.map {α β : Type} {r : Request α} (h : r.SendsLine) (f : α → β) :
    (r.map f).SendsLine := by
  cases r <;> exact h

namespace Setting

theorem isPrintable_assignment {h : Header} (hh : h.IsWord) (n : Nat) {arg : Text}
    (ha : IsWord arg) : IsPrintable (assignment h n arg) := by
  rw [assignment_eq]
  exact (hh.channel n).isPrintable.append (isPrintable_cons (by decide) ha.isPrintable)

theorem isPrintable_groupAssignment (s : Setting) (v : s.Value) {selection : Text}
    (h : IsSelection selection) : IsPrintable (s.groupAssignment v selection) := by
  rw [groupAssignment_eq]
  exact s.quantity.isWord_header.group.isPrintable.append (isPrintable_cons (by decide)
    ((s.isWord_argument v).isPrintable.append (isPrintable_cons (by decide) h.isPrintable)))

variable (s : Setting)

theorem sendsLine_set (index : Nat) (v : s.Value) : (s.set index v).SendsLine := by
  rw [set]
  split
  · exact (isPrintable_assignment s.quantity.isWord_header _ (s.isWord_argument v)).isLine
  · trivial

theorem sendsLine_setAll (v : s.Value) : (s.setAll v).SendsLine :=
  (s.isPrintable_groupAssignment v (isSelection_fullRange _)).isLine

theorem sendsLine_setMasked (mask : UInt32) (v : s.Value) : (s.setMasked mask v).SendsLine := by
  rw [setMasked]
  split
  · next selection hsel =>
    exact (s.isPrintable_groupAssignment v (isSelection_selectionText? hsel)).isLine
  · trivial

theorem isPrintable_assignmentsFrom (n : Nat) (vs : List s.Value) :
    ∀ t ∈ s.assignmentsFrom n vs, IsPrintable t := by
  induction vs generalizing n with
  | nil => exact fun _ ht ↦ absurd ht List.not_mem_nil
  | cons v vs ih =>
    rw [assignmentsFrom, List.forall_mem_cons]
    exact ⟨isPrintable_assignment s.isWord_chainHeader n (s.isWord_argument v), ih (n + 1)⟩

theorem sendsLine_setEach (vs : List s.Value) : (s.setEach vs).SendsLine := by
  rw [setEach]
  split_ifs
  · trivial
  · trivial
  · exact (isPrintable_intercalate (by decide) (s.isPrintable_assignmentsFrom 1 vs)).isLine

end Setting

namespace Quantity

variable (q : Quantity)

theorem isPrintable_groupQuery (n : Nat) : IsPrintable (q.groupQuery n) :=
  (q.isWord_header.group.isPrintable.append (by decide)).append
    (isSelection_fullRange n).isPrintable

theorem sendsLine_get (index : Nat) : (q.get index).SendsLine := by
  rw [get]
  split
  · have hquestion : IsPrintable "?" := by decide
    exact ((q.isWord_header.channel _).isPrintable.append hquestion).isLine
  · trivial

theorem sendsLine_getAll : q.getAll.SendsLine := (q.isPrintable_groupQuery _).isLine

theorem sendsLine_getInto (buffer : List q.Value) : (q.getInto buffer).SendsLine := by
  rw [getInto]
  split_ifs
  · trivial
  · trivial
  · exact (q.isPrintable_groupQuery _).isLine

end Quantity

namespace Operation

/-- A stored address is written by its octets, whatever the text was that named it. -/
theorem sendsLine_storeEthernet (settings : EthernetSettings) :
    (storeEthernet settings).SendsLine := by
  rw [storeEthernet]
  split
  · next ip netmask _ _ =>
    have hheader : IsPrintable "SYST:NET:ADDR " := by decide
    exact (((hheader.append (isPrintable_quote ip.isPrintable_text)).append (by decide)).append
      (isPrintable_quote netmask.isPrintable_text)).isLine
  · trivial
  · trivial

theorem sendsLine_plain {command : Text} (h : IsPrintable command) : (plain command).SendsLine :=
  h.isLine

theorem sendsLine_ask {α : Type} {query : Text} (parse : Text → Outcome α) (h : IsPrintable query) :
    (ask query parse).SendsLine :=
  h.isLine

/-- **Every operation sends nothing, or one line.** -/
theorem sendsLine_request (op : Operation) : op.request.SendsLine := by
  cases op with
  | set s index v => exact s.sendsLine_set index v
  | setAll s v => exact s.sendsLine_setAll v
  | setMasked s mask v => exact s.sendsLine_setMasked mask v
  | setEach s vs => exact s.sendsLine_setEach vs
  | setDigitalLevels levels => exact Setting.digitalOutput.sendsLine_setEach (levelFlags levels)
  | get q index => exact q.sendsLine_get index
  | getAll q => exact q.sendsLine_getAll
  | getMask f => cases f <;> exact (Quantity.sendsLine_getAll _).map maskOfFlags
  | getInto q buffer => exact q.sendsLine_getInto buffer
  | setEthernet settings => exact sendsLine_storeEthernet settings
  | setPrecision p => cases p <;> exact sendsLine_plain (by decide)
  | clearErrors | clearAlarms | raiseInterlock | restart | loadModel | startModel | stopModel
  | unloadModel => exact sendsLine_plain (by decide)
  | getPrecision | getIdentity | getBusNumber | getEthernet | getCalibrationDate | getErrorCount
  | takeError | getAlarms | getModelStatus | getModel | getModelId =>
    exact sendsLine_ask _ (by decide)

end Operation

/-- **What reaches a driver is one line**, whatever is asked of the client and whatever the driver
does with it. -/
theorem Client.isLine_of_send {op : Operation} {c : Client ScriptedUnit} {buffer : Text} {ms : Nat}
    (h : .send buffer ms ∈ newCalls c.driver (c.perform op).2.driver) : IsLine buffer := by
  have hline := op.sendsLine_request
  rcases request_of_send h with ⟨v, hreq⟩ | ⟨parse, hreq⟩
  · rwa [hreq] at hline
  · rwa [hreq] at hline

end BatteryBench
