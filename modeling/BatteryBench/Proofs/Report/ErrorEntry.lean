import BatteryBench.Proofs.Number.Integer
import BatteryBench.Proofs.Reply
import BatteryBench.Proofs.Text.Quotation

/-!
# The grammar of error entries

An entry of the error queue is an integer of 16 bits, a comma and one quoted string, with padding
around either (`WritesEntry`). The first comma of a text is the one that counts: the integer holds
none, while the message may hold any, and quotes and padding besides.

The whole text is trimmed before it is parted, which takes padding from the outer ends of the two
parts only, and each part is read with padding around it (`Reply.errorEntry_append`). So an entry is
read where the grammar has one, and in no other case (`error_entries_read`).
-/

namespace BatteryBench

/-- That a text is an entry of the error queue, and which one. -/
def WritesEntry (t : Text) (entry : ErrorEntry) : Prop :=
  ∃ code message, ',' ∉ code ∧ t = code ++ ',' :: message ∧
    Reply.integer .int16 code = .ok entry.code.toInt ∧ IsQuotedItem entry.message message

namespace Reply

/-! ### What the reader does -/

/-- The first comma parts a text in two. -/
theorem span_append_comma {code : Text} (h : ',' ∉ code) (message : Text) :
    (code ++ ',' :: message).span (· ≠ ',') = (code, ',' :: message) := by
  rw [List.span_eq_takeWhile_dropWhile, takeWhile_append_cons h, dropWhile_append_cons h]

/-- **A text is parted at its first comma**, and both parts are read with padding around them. -/
theorem errorEntry_append {code : Text} (h : ',' ∉ code) (message : Text) :
    errorEntry (code ++ ',' :: message) =
      orInvalid ((Width.int16.read? code).bind fun v ↦
        (readWholeQuoted? message).map fun value ↦ ⟨Int16.ofInt v, value⟩) := by
  obtain ⟨a, ha, hcode⟩ := exists_padded_trimStart code
  obtain ⟨b, hb, hmessage⟩ := exists_padded_trimEnd message
  have hcomma : ',' ∉ trimStart code := fun hmem ↦ h (hcode ▸ List.mem_append_right a hmem)
  have hread : Width.int16.read? code = Width.int16.read? (trimStart code) := by
    have hpadded := trim_padded ha isAllPadding_nil (trimStart code)
    rw [List.append_nil, ← hcode] at hpadded
    rw [Width.read?, hpadded, ← Width.read?]
  have hquoted : readWholeQuoted? message = readWholeQuoted? (trimEnd message) := by
    have hpadded := readWholeQuoted?_padded isAllPadding_nil hb (trimEnd message)
    rwa [List.nil_append, ← hmessage] at hpadded
  have htrim : trim (code ++ ',' :: message) = trimStart code ++ ',' :: trimEnd message :=
    trim_append_cons (by decide) code message
  simp only [errorEntry, htrim, span_append_comma hcomma, hread, hquoted]
  rcases Width.int16.read? (trimStart code) with - | v
  · rfl
  · rcases readWholeQuoted? (trimEnd message) with - | value <;> rfl

/-- A text without a comma is no entry. -/
theorem errorEntry_of_not_mem {t : Text} (h : ',' ∉ t) :
    errorEntry t = .error .invalidResponse := by
  obtain ⟨a, b, -, -, ht⟩ := exists_padded_trim t
  have htrim : ',' ∉ trim t := fun hmem ↦ h (ht ▸ by simp [hmem])
  rw [errorEntry, List.span_eq_takeWhile_dropWhile, dropWhile_of_not_mem htrim]

/-! ### What is read -/

theorem errorEntry_eq_ok_iff {t : Text} {entry : ErrorEntry} :
    errorEntry t = .ok entry ↔ WritesEntry t entry := by
  constructor
  · intro h
    by_cases hmem : ',' ∈ t
    · obtain ⟨code, message, rfl, hcode⟩ := List.eq_append_cons_of_mem hmem
      rw [errorEntry_append hcode, orInvalid_eq_ok_iff, Option.bind_eq_some_iff] at h
      obtain ⟨v, hv, hmap⟩ := h
      obtain ⟨value, hvalue, rfl⟩ := Option.map_eq_some_iff.mp hmap
      have hrange : v ∈ Width.int16.range := (Width.read?_eq_some_iff.mp hv).2.2
      refine ⟨code, message, hcode, rfl, ?_, startsQuoted_padding_iff.mp ?_⟩
      · rw [integer, hv, toInt_ofInt_of_mem_range hrange, orInvalid]
      · exact readWholeQuoted?_eq_some_iff.mp hvalue
    · rw [errorEntry_of_not_mem hmem] at h
      cases h
  · rintro ⟨code, message, hcode, rfl, hinteger, hitem⟩
    have hread : Width.int16.read? code = some entry.code.toInt := orInvalid_eq_ok_iff.mp hinteger
    have hvalue := readWholeQuoted?_eq_some_iff.mpr (startsQuoted_padding_iff.mpr hitem)
    rw [errorEntry_append hcode, hread, hvalue, Option.bind_some, Option.map_some,
      Int16.ofInt_toInt, orInvalid]

theorem errorEntry_eq_error_iff {t : Text} :
    errorEntry t = .error .invalidResponse ↔ ∀ entry, ¬WritesEntry t entry := by
  simp only [← errorEntry_eq_ok_iff]
  cases h : errorEntry t with
  | ok entry => simp
  | error e => simp [Reads.errorEntry.failure h]

end Reply

/-- What is written in decimal and quoted is an entry, with any padding around either. -/
theorem writesEntry_padded {a b c d : Text} (ha : IsAllPadding a) (hb : IsAllPadding b)
    (hc : IsAllPadding c) (hd : IsAllPadding d) (entry : ErrorEntry) :
    WritesEntry (a ++ signedDecimal entry.code.toInt ++ b ++ ',' :: (c ++ quote entry.message ++ d))
      entry := by
  obtain ⟨hint64, hint16⟩ := toInt_mem_range entry.code
  have hwrites := writesInteger_signedDecimal entry.code.toInt
  have hdecimal : ',' ∉ signedDecimal entry.code.toInt :=
    not_mem_of_forall hwrites.forall_isIntegerChar rfl
  have hpadding : ∀ {s : Text}, IsAllPadding s → ',' ∉ s := fun hs ↦ hs.not_mem (by decide)
  refine ⟨_, _, ?_, rfl, ?_, c, '"', d, hc, .inl rfl, hd, rfl⟩
  · simp [hpadding ha, hpadding hb, hdecimal]
  · rw [(Reply.Reads.integer .int16).padded ha hb]
    exact Reply.integer_of_writesInteger hwrites hint64 hint16

/-- **Error entries are read exactly as the grammar has them.** A text is read as an entry exactly
if what stands in front of its first comma is read as an integer of 16 bits and what follows is one
quoted string, padding aside; nothing is read of any other text. So every entry is read back from
its number in decimal, a comma and its message quoted, with any padding around either and whatever
the message holds. -/
theorem error_entries_read (t : Text) :
    (∀ entry, Reply.errorEntry t = .ok entry ↔ WritesEntry t entry) ∧
    (Reply.errorEntry t = .error .invalidResponse ↔ ∀ entry, ¬WritesEntry t entry) ∧
    ∀ entry a b c d, IsAllPadding a → IsAllPadding b → IsAllPadding c → IsAllPadding d →
      Reply.errorEntry (a ++ signedDecimal entry.code.toInt ++ b ++
        ',' :: (c ++ quote entry.message ++ d)) = .ok entry :=
  ⟨fun _ ↦ Reply.errorEntry_eq_ok_iff, Reply.errorEntry_eq_error_iff,
    fun entry _ _ _ _ ha hb hc hd ↦
      Reply.errorEntry_eq_ok_iff.mpr (writesEntry_padded ha hb hc hd entry)⟩

/-- The least number in hexadecimal is refused, for it has a sign; in decimal it is read, and a
message with a comma, both quotes and a line end is kept as it is. -/
theorem error_entries_read_least :
    let entry : ErrorEntry := ⟨-32768, "a, \"b\"' \n"⟩
    Reply.errorEntry "\t-32768 ,\x00\"a, \"\"b\"\"' \n\"\r\n" = .ok entry ∧
      ∀ entry, ¬WritesEntry "#H-8000,\"\"" entry := by
  intro entry
  obtain ⟨-, -, hround⟩ := error_entries_read []
  have hread := hround entry ['\t'] [' '] ['\x00'] lineEnd (by decide) (by decide) (by decide)
    (by decide)
  obtain ⟨-, hnone, -⟩ := error_entries_read "#H-8000,\"\""
  exact ⟨hread, hnone.mp (by decide)⟩

end BatteryBench
