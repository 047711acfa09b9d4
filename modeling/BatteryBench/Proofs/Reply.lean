import BatteryBench.Client.Request
import BatteryBench.Proofs.Number.Numeral
import BatteryBench.Proofs.Text.Quoted

/-!
# Readers of replies

The readers of the values of a channel ignore padding (`ValueKind.parse_trim`), and no text that one
of them understands holds a comma (`ValueKind.comma_not_mem_of_parse`). So texts that are each
understood can be joined by commas, and the list is read as the values of the texts
(`list_intercalate`). A list is read in no other case than that it has the right number of fields,
each understood (`list_eq_ok_iff`), and a buffer that is not filled stays as it was
(`fill_snd_of_error`).

Of every reader two things hold, whatever it reads: padding around the whole reply is ignored, and a
reply that is not understood has one failure (`Reply.Reads`). They are proved for each reader, and
for what is made of readers, in the order of their definitions.
-/

namespace BatteryBench

/-! ### What is understood holds no comma -/

namespace Numeral

theorem mem_splitSign {c : Char} {t : Text} (hminus : c ≠ '-') (hplus : c ≠ '+') (h : c ∈ t) :
    c ∈ (splitSign t).2 := by
  unfold splitSign
  split
  · exact (List.mem_cons.mp h).resolve_left hminus
  · exact (List.mem_cons.mp h).resolve_left hplus
  · exact h

theorem mem_dropWhile_isDigit {c : Char} {t : Text} (hc : c.isDigit = false) (h : c ∈ t) :
    c ∈ t.dropWhile Char.isDigit := by
  rw [← List.takeWhile_append_dropWhile (p := Char.isDigit) (l := t), List.mem_append] at h
  refine h.resolve_left fun htake ↦ ?_
  rw [List.mem_takeWhile_imp htake] at hc
  cases hc

theorem isDigits_of_exponentFrom? {e n : Nat} {t : Text} (h : exponentFrom? e t = some n) :
    IsDigits t := by
  induction t generalizing e with
  | nil => exact fun _ hc ↦ absurd hc List.not_mem_nil
  | cons c t ih =>
    rw [exponentFrom?, digitOf?_ten] at h
    by_cases hc : c.isDigit
    · rw [if_pos hc] at h
      exact List.forall_mem_cons.mpr ⟨hc, ih h⟩
    · rw [if_neg hc] at h
      cases h

theorem comma_not_mem_of_exponent? {t : Text} {e : Int} (h : exponent? t = some e) : ',' ∉ t := by
  intro hmem
  cases t with
  | nil => cases hmem
  | cons mark rest =>
    rw [exponent?] at h
    split at h
    · next hmark =>
      have hrest : ',' ∈ rest := (List.mem_cons.mp hmem).resolve_left fun heq ↦ by
        subst heq
        rcases hmark with hmark | hmark <;> cases hmark
      have hdigits := mem_splitSign (by decide) (by decide) hrest
      rw [signedExponent?] at h
      dsimp only at h
      split at h
      · cases h
      · cases hn : exponentFrom? 0 (splitSign rest).2 with
        | none => simp [hn] at h
        | some n => exact absurd (isDigits_of_exponentFrom? hn ',' hdigits) (by decide)
    · cases h

theorem comma_not_mem_of_unsigned? {negative : Bool} {t : Text} {n : Numeral}
    (h : unsigned? negative t = some n) : ',' ∉ t := by
  intro hmem
  have hrest := mem_dropWhile_isDigit (by decide) hmem
  rw [unsigned?] at h
  dsimp only at h
  split at h
  · next coefficient e hcoefficient he =>
    refine comma_not_mem_of_exponent? he ?_
    unfold splitDigits
    dsimp only
    split
    · next rest hdrop =>
      rw [hdrop] at hrest
      exact mem_dropWhile_isDigit (by decide) ((List.mem_cons.mp hrest).resolve_left (by decide))
    · exact hrest
  · cases h

end Numeral

theorem comma_not_mem_of_wordBinary32? {negative : Bool} {t : Text} {v : Binary32}
    (h : wordBinary32? negative t = some v) : ',' ∉ t := by
  intro hmem
  have hword : ',' ∈ t.map lowerCase := List.mem_map.mpr ⟨',', hmem, by decide⟩
  unfold wordBinary32? at h
  dsimp only at h
  split at h
  · next hinf =>
    rcases hinf with hinf | hinf <;> rw [hinf] at hword <;> exact absurd hword (by decide)
  · split at h
    · next hnan =>
      rw [hnan] at hword
      exact absurd hword (by decide)
    · cases h

theorem comma_not_mem_of_binary32? {t : Text} {v : Binary32} (h : binary32? t = some v) :
    ',' ∉ t := by
  intro hmem
  have hrest := Numeral.mem_splitSign (by decide) (by decide) hmem
  rw [binary32?] at h
  split at h
  · next n hn => exact Numeral.comma_not_mem_of_unsigned? hn hrest
  · exact comma_not_mem_of_wordBinary32? h hrest

theorem comma_mem_trim {t : Text} (h : ',' ∈ t) : ',' ∈ trim t := by
  obtain ⟨a, b, ha, hb, ht⟩ := exists_padded_trim t
  rw [ht, List.mem_append, List.mem_append] at h
  rcases h with (h | h) | h
  · exact absurd h (ha.not_mem (by decide))
  · exact h
  · exact absurd h (hb.not_mem (by decide))

theorem comma_not_mem_of_parseKeyword {α : Type} [Keyword α]
    (hall : ∀ v : α, ',' ∉ Keyword.reply v) {t : Text} {v : α} (h : parseKeyword α t = .ok v) :
    ',' ∉ t := by
  intro hmem
  rw [parseKeyword] at h
  split at h
  · next w hw =>
    have hfound := List.find?_some (p := fun v ↦ Keyword.reply v == trim t) hw
    have hreply : Keyword.reply w = trim t := eq_of_beq hfound
    exact hall w (hreply ▸ comma_mem_trim hmem)
  · cases h

/-- **No text that is understood holds a comma.** -/
theorem ValueKind.comma_not_mem_of_parse {k : ValueKind} {t : Text} {v : k.Carrier}
    (h : k.parse t = .ok v) : ',' ∉ t := by
  cases k with
  | number =>
    intro hmem
    have hread : binary32? (trim t) = some v := Reply.orInvalid_eq_ok_iff.mp h
    exact comma_not_mem_of_binary32? hread (comma_mem_trim hmem)
  | flag =>
    intro hmem
    have htrim := comma_mem_trim hmem
    simp only [parse, Reply.flag] at h
    split at h
    · next heq =>
      rw [heq] at htrim
      exact absurd htrim (by decide)
    · split at h
      · next heq =>
        rw [heq] at htrim
        exact absurd htrim (by decide)
      · cases h
  | fault => exact comma_not_mem_of_parseKeyword (fun v ↦ by cases v <;> decide) h
  | senseRange => exact comma_not_mem_of_parseKeyword (fun v ↦ by cases v <;> decide) h
  | mode => exact comma_not_mem_of_parseKeyword (fun v ↦ by cases v <;> decide) h

/-! ### Lists -/

/-- Padding around the text of a value is ignored. -/
theorem ValueKind.parse_trim (k : ValueKind) (t : Text) : k.parse (trim t) = k.parse t := by
  cases k <;> simp only [parse, Reply.number, Reply.flag, parseKeyword, trim_trim]

namespace Reply

/-- **A list of texts is read as their values**, if no text holds a comma and the reader ignores
padding. -/
theorem list_intercalate {α : Type} {parse : Text → Outcome α}
    (hparse : ∀ t, parse (trim t) = parse t) {n : Nat} {ts : List Text} (hn : ts.length = n)
    (hne : ts ≠ []) (hcomma : ∀ t ∈ ts, ',' ∉ t) {vs : List α}
    (h : ts.map parse = vs.map .ok) : list n parse ([','].intercalate ts) = .ok vs := by
  subst hn
  -- The whole text is trimmed before it is split, which takes padding from the outer texts only.
  have htrim : (splitAt ',' (trim ([','].intercalate ts))).map trim = ts.map trim := by
    rw [map_trim_splitAt_trim (by decide), splitAt_intercalate hne hcomma]
  have hlength : (splitAt ',' (trim ([','].intercalate ts))).length = ts.length := by
    simpa using congrArg List.length htrim
  have hignore : parse ∘ trim = parse := funext hparse
  have hpieces : (splitAt ',' (trim ([','].intercalate ts))).map parse = vs.map .ok := by
    rw [← h, ← hignore, ← List.map_map, htrim, List.map_map]
  have hfields : fields ts.length ([','].intercalate ts) =
      .ok (splitAt ',' (trim ([','].intercalate ts))) := if_pos hlength
  rw [list, hfields]
  exact each_eq_ok_iff.mpr hpieces

/-- That a reply is a list of given fields: padding around it aside, it is one or more texts without
a comma, with commas between them. -/
def IsList (pieces : List Text) (t : Text) : Prop :=
  pieces ≠ [] ∧ (∀ piece ∈ pieces, ',' ∉ piece) ∧ [','].intercalate pieces = trim t

theorem fields_eq_ok_iff {n : Nat} {t : Text} {pieces : List Text} :
    fields n t = .ok pieces ↔ IsList pieces t ∧ pieces.length = n := by
  have hsplit : IsList pieces t ↔ splitAt ',' (trim t) = pieces := splitAt_eq_iff.symm
  rw [hsplit, fields]
  split_ifs with hlength
  · rw [Except.ok.injEq]
    exact ⟨fun heq ↦ ⟨heq, heq ▸ hlength⟩, And.left⟩
  · constructor
    · exact nofun
    · rintro ⟨rfl, hn⟩
      exact absurd hn hlength

/-- **A list is read exactly if it has the right number of fields and each of them is understood**,
and then as their values in order. -/
theorem list_eq_ok_iff {α : Type} {n : Nat} {parse : Text → Outcome α} {t : Text} {vs : List α} :
    list n parse t = .ok vs ↔
      ∃ pieces, IsList pieces t ∧ pieces.length = n ∧ pieces.map parse = vs.map .ok := by
  rw [list]
  cases hfields : fields n t with
  | error e =>
    constructor
    · exact nofun
    · rintro ⟨pieces, hlist, hlength, -⟩
      exact nomatch hfields.symm.trans (fields_eq_ok_iff.mpr ⟨hlist, hlength⟩)
  | ok found =>
    obtain ⟨hlist, hlength⟩ := fields_eq_ok_iff.mp hfields
    dsimp only
    rw [each_eq_ok_iff]
    constructor
    · exact fun hvs ↦ ⟨found, hlist, hlength, hvs⟩
    · rintro ⟨pieces, hpieces, hn, hvs⟩
      obtain rfl : found = pieces :=
        Except.ok.inj (hfields.symm.trans (fields_eq_ok_iff.mpr ⟨hpieces, hn⟩))
      exact hvs

/-- **A list of texts fails as the first of them that fails.** -/
theorem each_eq_error_iff {α : Type} {parse : Text → Outcome α} {ts : List Text} {e : Failure} :
    each parse ts = .error e ↔
      ∃ before t after, ts = before ++ t :: after ∧ (∀ s ∈ before, ∃ v, parse s = .ok v) ∧
        parse t = .error e := by
  induction ts with
  | nil => simp [each]
  | cons t ts ih =>
    rw [each]
    constructor
    · intro h
      split at h
      · next e' ht =>
        obtain rfl := Except.error.inj h
        exact ⟨[], t, ts, rfl, List.forall_mem_nil _, ht⟩
      · next v ht =>
        split at h
        · next e' hts =>
          obtain rfl := Except.error.inj h
          obtain ⟨before, s, after, rfl, hbefore, hs⟩ := ih.mp hts
          exact ⟨t :: before, s, after, rfl, List.forall_mem_cons.mpr ⟨⟨v, ht⟩, hbefore⟩, hs⟩
        · cases h
    · rintro ⟨before, s, after, heq, hbefore, hs⟩
      cases before with
      | nil =>
        obtain ⟨rfl, rfl⟩ := List.cons.inj heq
        rw [hs]
      | cons first before =>
        obtain ⟨rfl, rfl⟩ := List.cons.inj heq
        obtain ⟨⟨v, hv⟩, hbefore⟩ := List.forall_mem_cons.mp hbefore
        rw [hv, ih.mpr ⟨before, s, after, rfl, hbefore, hs⟩]

/-- A list has a field more than it has commas. -/
theorem IsList.length_eq {pieces : List Text} {t : Text} (h : IsList pieces t) :
    pieces.length = (trim t).count ',' + 1 := by
  rw [← splitAt_eq_iff.mpr h, length_splitAt]

/-- **A list is not read for its number of fields, or else for the first field that is not
understood.** -/
theorem list_eq_error_iff {α : Type} {n : Nat} {parse : Text → Outcome α} {t : Text} {e : Failure} :
    list n parse t = .error e ↔
      (trim t).count ',' + 1 ≠ n ∧ e = .invalidResponse ∨
        (trim t).count ',' + 1 = n ∧ ∃ before field after, IsList (before ++ field :: after) t ∧
          (∀ s ∈ before, ∃ v, parse s = .ok v) ∧ parse field = .error e := by
  have hsplit : ∀ {pieces : List Text}, IsList pieces t ↔ splitAt ',' (trim t) = pieces :=
    splitAt_eq_iff.symm
  rw [list, fields, length_splitAt]
  split_ifs with hlength
  · simp only [hlength, each_eq_error_iff, hsplit, ne_eq, not_true_eq_false, false_and, false_or,
      true_and]
  · simp [hlength, eq_comm]

/-- A buffer with a slot for each text of a list is filled with their values. -/
theorem fill_of_list {α : Type} {parse : Text → Outcome α} {t : Text} {buffer vs : List α}
    (h : list buffer.length parse t = .ok vs) : fill parse t buffer = (.ok (), vs) := by
  rw [fill, h]
  dsimp only
  rw [overwrite_of_length_eq (length_list h)]

/-- A buffer is filled exactly with the values of a list that has a field for each slot. -/
theorem fill_eq_ok_iff {α : Type} {parse : Text → Outcome α} {t : Text} {buffer vs : List α} :
    fill parse t buffer = (.ok (), vs) ↔ list buffer.length parse t = .ok vs := by
  refine ⟨fun h ↦ ?_, fill_of_list⟩
  rw [fill] at h
  split at h
  · cases h
  · next us hus =>
    rw [overwrite_of_length_eq (length_list hus), Prod.mk.injEq] at h
    rw [hus, h.2]

/-- A buffer is not filled exactly if the list is not read, for the same reason, and then is left as
it was. -/
theorem fill_eq_error_iff {α : Type} {parse : Text → Outcome α} {t : Text}
    {buffer after : List α} {e : Failure} :
    fill parse t buffer = (.error e, after) ↔
      list buffer.length parse t = .error e ∧ after = buffer := by
  rw [fill]
  cases list buffer.length parse t <;> simp [eq_comm]

/-- **A buffer that is not filled is left as it was.** -/
theorem fill_snd_of_error {α : Type} {parse : Text → Outcome α} {t : Text} {buffer : List α}
    {e : Failure} (h : (fill parse t buffer).1 = .error e) : (fill parse t buffer).2 = buffer := by
  have hfill : fill parse t buffer = (.error e, (fill parse t buffer).2) := Prod.ext h rfl
  exact (fill_eq_error_iff.mp hfill).2

end Reply

/-- Asking for as many channels as a buffer has slots is asking for a list of as many values. -/
theorem Quantity.getInto_eq_query {q : Quantity} {slots : List q.Value} (hne : slots ≠ [])
    (hle : slots.length ≤ q.count) :
    q.getInto slots =
      .query (q.groupQuery slots.length ++ lineEnd) (Reply.list slots.length q.parse) := by
  rw [getInto, if_neg (Nat.not_lt_of_le hle), if_neg (by simpa using hne)]
  congr 1
  funext t
  cases hlist : Reply.list slots.length q.parse t with
  | ok vs => rw [Reply.fill_of_list hlist]
  | error e => rw [Reply.fill, hlist]

namespace Reply

/-! ### What every reader keeps to -/

/-- **The law of a reader**: padding around a reply is ignored, and a reply that is not understood
has one failure. -/
structure Reads {α : Type} (parse : Text → Outcome α) : Prop where
  /-- Padding is ignored. -/
  padded : ∀ {a b : Text}, IsAllPadding a → IsAllPadding b → ∀ t, parse (a ++ t ++ b) = parse t
  /-- There is one failure. -/
  failure : ∀ {t : Text} {e : Failure}, parse t = .error e → e = .invalidResponse

namespace Reads

variable {α β : Type} {parse : Text → Outcome α}

/-- A reader may look at the trimmed text only. -/
theorem of_trim (read : Text → Outcome α)
    (h : ∀ {t : Text} {e : Failure}, read t = .error e → e = .invalidResponse) :
    Reads fun t ↦ read (trim t) where
  padded ha hb t := by rw [trim_padded ha hb]
  failure := h

theorem orInvalid_eq_error {o : Option α} {e : Failure} (h : orInvalid o = .error e) :
    e = .invalidResponse :=
  (orInvalid_eq_error_iff.mp h).2

/-- A reader may give what another one understood in another form. -/
theorem map (h : Reads parse) (f : α → β) : Reads fun t ↦ (parse t).map f where
  padded ha hb t := by rw [h.padded ha hb]
  failure {t e} he := by
    cases hparse : parse t with
    | ok v => simp [hparse, Except.map] at he
    | error e' =>
      obtain rfl : e' = e := by simpa [hparse, Except.map] using he
      exact h.failure hparse

/-- A reader may refuse some of what another one understood. -/
theorem bind (h : Reads parse) {f : α → Outcome β}
    (hf : ∀ {v : α} {e : Failure}, f v = .error e → e = .invalidResponse) :
    Reads fun t ↦ (parse t).bind f where
  padded ha hb t := by rw [h.padded ha hb]
  failure {t e} he := by
    cases hparse : parse t with
    | ok v => exact hf (by simpa [hparse, Except.bind] using he)
    | error e' =>
      obtain rfl : e' = e := by simpa [hparse, Except.bind] using he
      exact h.failure hparse

theorem number : Reads Reply.number :=
  of_trim (fun t ↦ orInvalid (binary32? t)) orInvalid_eq_error

theorem flag : Reads Reply.flag := by
  refine of_trim (fun t ↦
    if t = ['0'] then .ok false else if t = ['1'] then .ok true else .error .invalidResponse) ?_
  intro t e h
  split_ifs at h
  exact (Except.error.inj h).symm

theorem integer (w : Width) : Reads (Reply.integer w) :=
  of_trim (fun t ↦ orInvalid ((integer? t).filter fun v ↦ Width.int64.contains v && w.contains v))
    orInvalid_eq_error

theorem keyword (κ : Type) [Keyword κ] : Reads (parseKeyword κ) where
  padded ha hb t := by rw [parseKeyword, parseKeyword, trim_padded ha hb]
  failure h := by
    rw [parseKeyword] at h
    split at h
    · cases h
    · exact (Except.error.inj h).symm

theorem text : Reads Reply.text where
  padded ha hb t := by rw [Reply.text, Reply.text, readWholeQuoted?_padded ha hb]
  failure h := orInvalid_eq_error h

theorem texts (n : Nat) : Reads (Reply.texts n) where
  padded ha hb t := by rw [Reply.texts, Reply.texts, readQuotedItems?_padded ha hb]
  failure h := orInvalid_eq_error h

/-- The values of a channel are read by a reader. -/
theorem value (k : ValueKind) : Reads k.parse := by
  cases k with
  | number => exact number
  | flag => exact flag
  | fault => exact keyword CellFault
  | senseRange => exact keyword SenseRange
  | mode => exact keyword CellMode

theorem fields (n : Nat) : Reads (Reply.fields n) := by
  refine of_trim (fun t ↦
    if (splitAt ',' t).length = n then .ok (splitAt ',' t) else .error .invalidResponse) ?_
  intro t e h
  split_ifs at h
  exact (Except.error.inj h).symm

theorem list (n : Nat) (h : Reads parse) : Reads (Reply.list n parse) := by
  have hbind : Reply.list n parse = fun t ↦ (Reply.fields n t).bind (each parse) := by
    funext t
    rw [Reply.list]
    cases Reply.fields n t <;> rfl
  rw [hbind]
  refine (fields n).bind fun heach ↦ ?_
  obtain ⟨-, t, -, -, -, ht⟩ := each_eq_error_iff.mp heach
  exact h.failure ht

theorem identity : Reads Reply.identity where
  padded ha hb t := by rw [Reply.identity, (fields 4).padded ha hb, Reply.identity]
  failure {t e} h := by
    rw [Reply.identity] at h
    split at h
    · cases h
    · exact (Except.error.inj h).symm
    · next e' hfields => exact (fields 4).failure (by rw [hfields, Except.error.inj h])

theorem errorEntry : Reads Reply.errorEntry where
  padded ha hb t := by rw [Reply.errorEntry, trim_padded ha hb, Reply.errorEntry]
  failure {t e} h := by
    rw [Reply.errorEntry] at h
    split at h
    · split at h
      · cases h
      · exact (Except.error.inj h).symm
    · exact (Except.error.inj h).symm

theorem ethernet : Reads Reply.ethernet where
  padded ha hb t := by rw [Reply.ethernet, (texts 2).padded ha hb, Reply.ethernet]
  failure {t e} h := by
    rw [Reply.ethernet] at h
    split at h
    · cases h
    · exact (Except.error.inj h).symm
    · next e' htexts => exact (texts 2).failure (by rw [htexts, Except.error.inj h])

theorem model : Reads Reply.model where
  padded ha hb t := by rw [Reply.model, (texts 2).padded ha hb, Reply.model]
  failure {t e} h := by
    rw [Reply.model] at h
    split at h
    · cases h
    · exact (Except.error.inj h).symm
    · next e' htexts => exact (texts 2).failure (by rw [htexts, Except.error.inj h])

end Reads

end Reply

end BatteryBench
