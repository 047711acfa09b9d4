import BatteryBench.Proofs.Number.Integer
import BatteryBench.Proofs.Unit.ReadBack

/-!
# Lists of values

A list of values is read by its commas: there has to be one less than values are asked for, and then
each field is read on its own. Asking for a list and filling a buffer are two ways into the same
reader, so they succeed on the same texts and fail for the same reason.

`Encodes` says what the values of each kind are written as in a list. What is written holds no comma
and is read as the value with any padding around it, so values that are written, padded and joined
by commas are read back (`Reply.list_of_encodes`).
-/

namespace BatteryBench

/-! ### What values are written as -/

/-- What a value is written as for a reader. Every number has a printed form, and is read from all
numerals that it is the nearest number to; what is no number is printed as a word. -/
inductive Encodes : {α : Type} → (Text → Outcome α) → α → Text → Prop where
  | flag (b : Bool) : Encodes Reply.flag b (flagText b)
  | integer {w : Width} {v : Int} (hint64 : v ∈ Width.int64.range) (hwidth : v ∈ w.range) :
    Encodes (Reply.integer w) v (signedDecimal v)
  | printed (x : Binary32) :
    Encodes Reply.number (if x.isNaN then Binary32.nan else x) x.shortestText
  | numeral {t : Text} {n : Numeral} (hread : Numeral.read? t = some n) :
    Encodes Reply.number n.toBinary32 t
  | fault (f : CellFault) : Encodes (parseKeyword CellFault) f f.reply
  | senseRange (r : SenseRange) : Encodes (parseKeyword SenseRange) r r.reply
  | mode (m : CellMode) : Encodes (parseKeyword CellMode) m m.reply
  | precision (p : Precision) : Encodes (parseKeyword Precision) p p.reply

/-- Whether a character may stand in a numeral. -/
def isNumeralChar (c : Char) : Bool := c.isDigit || ".eE+-".toList.contains c

theorem IsNumeral.forall_isNumeralChar {t : Text} (h : IsNumeral t) : ∀ c ∈ t, isNumeralChar c := by
  have hdigits : ∀ {s : Text}, IsDigits s → ∀ c ∈ s, isNumeralChar c := fun hs c hc ↦ by
    simp [isNumeralChar, hs c hc]
  have hsigns : ∀ {s : Text}, IsSign s → ∀ c ∈ s, isNumeralChar c := fun hs ↦ by
    rcases hs with - | - | - <;> simp [isNumeralChar]
  rcases h with ⟨hsign, hmantissa, hexponent⟩
  refine List.forall_mem_append.mpr ⟨hsigns hsign, List.forall_mem_append.mpr ⟨?_, ?_⟩⟩
  · rcases hmantissa with ⟨-, hwhole⟩ | ⟨-, hwhole, hfraction⟩
    · exact hdigits hwhole
    · exact List.forall_mem_append.mpr
        ⟨hdigits hwhole, List.forall_mem_cons.mpr ⟨rfl, hdigits hfraction⟩⟩
  · rcases hexponent with - | ⟨hmark, hsign, -, hexponent⟩
    · exact List.forall_mem_nil _
    · refine List.forall_mem_cons.mpr
        ⟨?_, List.forall_mem_append.mpr ⟨hsigns hsign, hdigits hexponent⟩⟩
      rcases hmark with rfl | rfl <;> rfl

namespace Encodes

variable {α : Type} {parse : Text → Outcome α} {v : α} {t : Text}

/-- **A value is read from what it is written as.** -/
theorem parse_eq (h : Encodes parse v t) : parse t = .ok v := by
  cases h with
  | flag b => cases b <;> rfl
  | integer hint64 hwidth =>
    exact Reply.integer_of_writesInteger (writesInteger_signedDecimal _) hint64 hwidth
  | printed x =>
    refine Reply.number_of_binary32? (Binary32.isWord_shortestText x) ?_
    cases hx : x.isNaN with
    | true => exact Binary32.binary32?_shortestText_of_isNaN hx
    | false => exact Binary32.binary32?_shortestText hx
  | numeral hread =>
    have hnumeral := Numeral.read?_isSome_iff.mp (Option.isSome_of_eq_some hread)
    have htrim : trim t = t := trim_of_forall_of_all hnumeral.forall_isNumeralChar (by decide)
    rw [Reply.number, htrim, binary32?_of_read? hread]
    rfl
  | fault f => exact f.parseKeyword_reply
  | senseRange r => exact r.parseKeyword_reply
  | mode m => exact m.parseKeyword_reply
  | precision p => exact p.parseKeyword_reply

theorem reads (h : Encodes parse v t) : Reply.Reads parse := by
  cases h with
  | flag b => exact .flag
  | integer hint64 hwidth => exact .integer _
  | printed x => exact .number
  | numeral hread => exact .number
  | fault f => exact .keyword CellFault
  | senseRange r => exact .keyword SenseRange
  | mode m => exact .keyword CellMode
  | precision p => exact .keyword Precision

/-- What is written holds no comma. -/
theorem comma_not_mem (h : Encodes parse v t) : ',' ∉ t := by
  cases h with
  | flag b => cases b <;> decide
  | integer hint64 hwidth =>
    exact not_mem_of_forall (writesInteger_signedDecimal _).forall_isIntegerChar rfl
  | printed x => exact (Binary32.isWord_shortestText x).not_mem rfl
  | numeral hread =>
    have hnumeral := Numeral.read?_isSome_iff.mp (Option.isSome_of_eq_some hread)
    exact not_mem_of_forall hnumeral.forall_isNumeralChar rfl
  | fault f => cases f <;> decide
  | senseRange r => cases r <;> decide
  | mode m => cases m <;> decide
  | precision p => cases p <;> decide

end Encodes

/-! ### Lists of them -/

/-- That a text is what a value is written as, with any padding around it. -/
def EncodesPadded {α : Type} (parse : Text → Outcome α) (v : α) (item : Text) : Prop :=
  ∃ a b t, IsAllPadding a ∧ IsAllPadding b ∧ Encodes parse v t ∧ item = a ++ t ++ b

namespace Reply

variable {α : Type} {parse : Text → Outcome α}

/-- **Values that are written, padded and joined by commas are read back.** -/
theorem list_of_encodes {vs : List α} {items : List Text} (hne : vs ≠ [])
    (h : List.Forall₂ (EncodesPadded parse) vs items) :
    list vs.length parse ([','].intercalate items) = .ok vs := by
  have hreads : Reads parse := by
    obtain ⟨v, vs, rfl⟩ := List.exists_cons_of_ne_nil hne
    obtain ⟨item, -, hitem, -⟩ := List.forall₂_cons_left_iff.mp h
    obtain ⟨a, b, t, -, -, hencodes, -⟩ := hitem
    exact hencodes.reads
  have htrim : ∀ t, parse (trim t) = parse t := fun t ↦ by
    obtain ⟨a, b, ha, hb, ht⟩ := exists_padded_trim t
    rw [← hreads.padded ha hb, ← ht]
  have hitem : ∀ {v : α} {item : Text}, EncodesPadded parse v item →
      ',' ∉ item ∧ parse item = .ok v := by
    rintro v item ⟨a, b, t, ha, hb, hencodes, rfl⟩
    have hpadding {a : Text} (ha : IsAllPadding a) : ',' ∉ a := ha.not_mem rfl
    refine ⟨?_, (hreads.padded ha hb t).trans hencodes.parse_eq⟩
    simp [hpadding ha, hpadding hb, hencodes.comma_not_mem]
  have hitems : List.Forall₂ (fun item v ↦ ',' ∉ item ∧ parse item = .ok v) items vs :=
    (h.imp fun _ _ ↦ hitem).flip
  obtain ⟨hcomma, hread⟩ := (List.forall₂_and_left _ _).mp hitems
  have hmap : items.map parse = vs.map .ok := by
    rw [← List.forall₂_eq_eq_eq, List.forall₂_map_left_iff, List.forall₂_map_right_iff]
    exact hread
  have hitems_ne : items ≠ [] := fun hnil ↦ hne (List.map_eq_nil_iff.mp (by rw [← hmap, hnil]; rfl))
  exact list_intercalate htrim hitems.length_eq hitems_ne hcomma hmap

end Reply

/-- **Lists are read exactly by their commas and their fields.** A list of a number of values is
read exactly if it has one comma less, and so never if no values are asked for, and each of the
fields between them is read, as their values in order; otherwise the reason is the number of commas
or else the first field that is not read. A buffer with as many slots is filled on the same texts
and holds these values, and otherwise stays as it was, for the same reason. So values of every kind
that are written, with any padding around each, and joined by commas are read back. -/
theorem comma_lists_read {α : Type} (n : Nat) (parse : Text → Outcome α) (t : Text) :
    (∀ vs, Reply.list n parse t = .ok vs ↔
      (trim t).count ',' + 1 = n ∧
        ∃ fields, Reply.IsList fields t ∧ fields.map parse = vs.map .ok) ∧
    (∀ e, Reply.list n parse t = .error e ↔
      (trim t).count ',' + 1 ≠ n ∧ e = .invalidResponse ∨
        (trim t).count ',' + 1 = n ∧ ∃ before field after,
          Reply.IsList (before ++ field :: after) t ∧ (∀ s ∈ before, ∃ v, parse s = .ok v) ∧
            parse field = .error e) ∧
    (∀ buffer after : List α, buffer.length = n →
      (∀ vs, Reply.fill parse t buffer = (.ok (), vs) ↔ Reply.list n parse t = .ok vs) ∧
      ∀ e, Reply.fill parse t buffer = (.error e, after) ↔
        Reply.list n parse t = .error e ∧ after = buffer) ∧
    ∀ vs items, vs ≠ [] → List.Forall₂ (EncodesPadded parse) vs items →
      Reply.list vs.length parse ([','].intercalate items) = .ok vs := by
  refine ⟨fun vs ↦ ?_, fun e ↦ Reply.list_eq_error_iff, ?_, fun vs items ↦ Reply.list_of_encodes⟩
  · rw [Reply.list_eq_ok_iff]
    constructor
    · rintro ⟨fields, hlist, rfl, hread⟩
      exact ⟨hlist.length_eq.symm, fields, hlist, hread⟩
    · rintro ⟨rfl, fields, hlist, hread⟩
      exact ⟨fields, hlist, hlist.length_eq, hread⟩
  · rintro buffer after rfl
    exact ⟨fun vs ↦ Reply.fill_eq_ok_iff, fun e ↦ Reply.fill_eq_error_iff⟩

/-- Two numbers are read back from a padded list. With an empty field between them nothing is read,
although there are as many fields as slots, and the slots stay as they were. -/
theorem comma_lists_read_empty_field :
    let parse := Reply.integer .uint8
    let items : List Text := ["\t255 ", "0\r\n"]
    List.Forall₂ (EncodesPadded parse) [255, 0] items ∧
      Reply.list 2 parse "\t255 ,0\r\n" = .ok [255, 0] ∧
      Reply.fill parse "255,,0" [7, 8, 9] = (.error .invalidResponse, [7, 8, 9]) := by
  intro parse items
  have hencodes : ∀ v : Int, v ∈ Width.uint8.range → v ∈ Width.int64.range →
      Encodes parse v (signedDecimal v) := fun _ hwidth hint64 ↦ .integer hint64 hwidth
  have hmem : ∀ {w : Width} {v : Int}, w.contains v → v ∈ w.range :=
    Width.contains_iff_mem_range.mp
  have hitems : List.Forall₂ (EncodesPadded parse) [255, 0] items :=
    .cons ⟨['\t'], [' '], _, by decide, by decide,
        hencodes 255 (hmem (by decide)) (hmem (by decide)), by decide⟩
      (.cons ⟨[], lineEnd, _, by decide, by decide,
        hencodes 0 (hmem (by decide)) (hmem (by decide)), by decide⟩ .nil)
  obtain ⟨-, -, -, hround⟩ := comma_lists_read 2 parse []
  obtain ⟨-, herror, hfill, -⟩ := comma_lists_read 3 parse "255,,0"
  have hfields : Reply.IsList ["255".toList, [], ['0']] "255,,0" := by
    unfold Reply.IsList
    decide
  have hlist : Reply.list 3 parse "255,,0" = .error .invalidResponse :=
    (herror _).mpr (.inr ⟨by decide, ["255".toList], [], [['0']], hfields,
      List.forall_mem_singleton.mpr ⟨255, by decide⟩, by decide⟩)
  exact ⟨hitems, hround [255, 0] items (List.cons_ne_nil _ _) hitems,
    ((hfill [7, 8, 9] [7, 8, 9] rfl).2 _).mpr ⟨hlist, rfl⟩⟩

end BatteryBench
