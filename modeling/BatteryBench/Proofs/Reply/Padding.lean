import BatteryBench.Proofs.Report.ErrorEntry

/-!
# Padding in replies

Every reader of replies ignores padding around a reply (`IsReader.ignoresPadding`), whatever it
makes of the reply. Lists are trimmed before they are split, so this does not rest on the reader of
the fields (`Reply.ignoresPadding_list`).

Padding that is not around a reply is another matter. Between the delimiters of a quoted string it
belongs to the value (`isQuotedItem_inside`). Around the fields of an identity it is removed from
the fields, and nothing else about them is looked at: only the trimmed fields count
(`Reply.identity_eq`), so padding there changes nothing either
(`Reply.identity_intercalate_padded`).
-/

namespace BatteryBench

/-! ### Readers -/

/-- That a reader ignores padding around a text. -/
def IgnoresPadding {α : Type} (read : Text → α) : Prop :=
  ∀ a b, IsAllPadding a → IsAllPadding b → ∀ t, read (a ++ t ++ b) = read t

/-- The readers of replies: of single values, of records, and of lists whose fields are read by
anything. Integers may be wanted in a width, or in any type that takes some of them. -/
inductive IsReader : {α : Type} → (Text → α) → Prop where
  | number : IsReader Reply.number
  | flag : IsReader Reply.flag
  | integer (w : Width) : IsReader (Reply.integer w)
  | converted {β : Type} (w : Width) (convert : Int → Option β) :
    IsReader fun t ↦ (Reply.integer w t).bind fun v ↦ Reply.orInvalid (convert v)
  | fault : IsReader (parseKeyword CellFault)
  | senseRange : IsReader (parseKeyword SenseRange)
  | mode : IsReader (parseKeyword CellMode)
  | precision : IsReader (parseKeyword Precision)
  | quoted : IsReader readWholeQuoted?
  | text : IsReader Reply.text
  | texts (n : Nat) : IsReader (Reply.texts n)
  | identity : IsReader Reply.identity
  | errorEntry : IsReader Reply.errorEntry
  | list {β : Type} (n : Nat) (parse : Text → Outcome β) : IsReader (Reply.list n parse)
  | fill {β : Type} (parse : Text → Outcome β) (buffer : List β) :
    IsReader fun t ↦ Reply.fill parse t buffer

namespace Reply

theorem Reads.ignoresPadding {α : Type} {parse : Text → Outcome α} (h : Reads parse) :
    IgnoresPadding parse :=
  fun _ _ ha hb ↦ h.padded ha hb

/-- A list is trimmed before it is split, whatever its fields are read by. -/
theorem ignoresPadding_list {α : Type} (n : Nat) (parse : Text → Outcome α) :
    IgnoresPadding (list n parse) := by
  intro a b ha hb t
  rw [list, (Reads.fields n).padded ha hb, list]

theorem ignoresPadding_fill {α : Type} (parse : Text → Outcome α) (buffer : List α) :
    IgnoresPadding fun t ↦ fill parse t buffer := by
  intro a b ha hb t
  dsimp only
  rw [fill, ignoresPadding_list buffer.length parse a b ha hb, fill]

end Reply

/-- **Every reader of replies ignores padding around a reply.** -/
theorem IsReader.ignoresPadding {α : Type} {read : Text → α} (h : IsReader read) :
    IgnoresPadding read := by
  cases h with
  | number => exact Reply.Reads.number.ignoresPadding
  | flag => exact Reply.Reads.flag.ignoresPadding
  | integer w => exact (Reply.Reads.integer w).ignoresPadding
  | converted w convert =>
    exact ((Reply.Reads.integer w).bind Reply.Reads.orInvalid_eq_error).ignoresPadding
  | fault => exact (Reply.Reads.keyword CellFault).ignoresPadding
  | senseRange => exact (Reply.Reads.keyword SenseRange).ignoresPadding
  | mode => exact (Reply.Reads.keyword CellMode).ignoresPadding
  | precision => exact (Reply.Reads.keyword Precision).ignoresPadding
  | quoted => exact fun _ _ ha hb ↦ readWholeQuoted?_padded ha hb
  | text => exact Reply.Reads.text.ignoresPadding
  | texts n => exact (Reply.Reads.texts n).ignoresPadding
  | identity => exact Reply.Reads.identity.ignoresPadding
  | errorEntry => exact Reply.Reads.errorEntry.ignoresPadding
  | list n parse => exact Reply.ignoresPadding_list n parse
  | fill parse buffer => exact Reply.ignoresPadding_fill parse buffer

/-! ### Padding inside quoted strings -/

theorem doubled_append (d : Char) (s t : Text) : doubled d (s ++ t) = doubled d s ++ doubled d t :=
  List.flatMap_append

/-- **Padding between the delimiters stands there as it is in the value.** -/
theorem isQuotedItem_inside {d : Char} (hd : IsDelimiter d) {a b p : Text} (ha : IsAllPadding a)
    (hb : IsAllPadding b) (hp : IsAllPadding p) (x y : Text) :
    IsQuotedItem (x ++ p ++ y) (a ++ d :: (doubled d x ++ p ++ doubled d y ++ [d]) ++ b) := by
  refine ⟨a, d, b, ha, hd, hb, ?_⟩
  rw [quotedBy, doubled_append, doubled_append,
    doubled_of_not_mem (hp.not_mem hd.isPadding_eq_false)]

/-- A quoted string is read as its value, alone and as the message of an entry. -/
theorem IsQuotedItem.reads {value item : Text} (h : IsQuotedItem value item) :
    readWholeQuoted? item = some value ∧ Reply.text item = .ok value ∧
      ∀ code (number : Int16), ',' ∉ code → Reply.integer .int16 code = .ok number.toInt →
        Reply.errorEntry (code ++ ',' :: item) = .ok ⟨number, value⟩ := by
  have hread := readWholeQuoted?_eq_some_iff.mpr (startsQuoted_padding_iff.mpr h)
  refine ⟨hread, Reply.orInvalid_eq_ok_iff.mpr hread, fun code number hcomma hcode ↦ ?_⟩
  exact Reply.errorEntry_eq_ok_iff.mpr ⟨code, item, hcomma, rfl, hcode, h⟩

/-- A list of quoted strings is read as their values. -/
theorem Reply.texts_of_forall₂ {values items : List Text} (hne : values ≠ [])
    (h : List.Forall₂ IsQuotedItem values items) :
    texts values.length ([','].intercalate items) = .ok values :=
  (texts_eq_ok_iff (List.length_pos_of_ne_nil hne)).mpr ⟨rfl, isQuotedList_intercalate hne h⟩

/-! ### Padding around the fields of an identity -/

/-- That a text is another one with padding around it. -/
def IsPadded (t padded : Text) : Prop :=
  ∃ a b, IsAllPadding a ∧ IsAllPadding b ∧ padded = a ++ t ++ b

/-- Padding around texts that are joined changes their pieces in nothing else. -/
theorem map_trim_splitAt_intercalate {sep : Char} (hsep : isPadding sep = false)
    {ts padded : List Text} (h : List.Forall₂ IsPadded ts padded) :
    (splitAt sep ([sep].intercalate padded)).map trim =
      (splitAt sep ([sep].intercalate ts)).map trim := by
  induction h with
  | nil => rfl
  | @cons t u ts us ht hts ih =>
    obtain ⟨a, b, ha, hb, rfl⟩ := ht
    rcases hts with - | ⟨hnext, hts⟩
    · rw [List.intercalate_singleton, List.intercalate_singleton, map_trim_splitAt_padded hsep ha hb]
    · rw [List.intercalate_cons_cons, List.intercalate_cons_cons, List.append_assoc _ [sep],
        List.append_assoc t, List.singleton_append, List.singleton_append, splitAt_append_separator,
        splitAt_append_separator, List.map_append, List.map_append, ih,
        map_trim_splitAt_padded hsep ha hb]

/-- The identity that four fields are, the first of which is not kept. -/
def Identity.ofFields? : List Text → Option Identity
  | [_, partNumber, serial, version] => some ⟨partNumber, serial, version⟩
  | _ => none

theorem Identity.ofFields?_eq_some_iff {fields : List Text} {identity : Identity} :
    ofFields? fields = some identity ↔
      ∃ maker, fields = [maker, identity.partNumber, identity.serial, identity.version] := by
  constructor
  · intro h
    unfold ofFields? at h
    split at h
    · next maker partNumber serial version =>
      obtain rfl := Option.some.inj h
      exact ⟨maker, rfl⟩
    · cases h
  · rintro ⟨maker, rfl⟩
    rfl

namespace Reply

/-- **Only the trimmed fields of an identity are looked at.** -/
theorem identity_eq (t : Text) :
    identity t = orInvalid (Identity.ofFields? ((splitAt ',' t).map trim)) := by
  rw [← map_trim_splitAt_trim (by decide), identity, fields]
  generalize splitAt ',' (trim t) = pieces
  split_ifs with hlength
  · obtain ⟨maker, partNumber, serial, version, rfl⟩ := List.length_eq_four.mp hlength
    rfl
  · have hnone : Identity.ofFields? (pieces.map trim) = none := by
      refine Option.eq_none_iff_forall_ne_some.mpr fun found hfound ↦ hlength ?_
      obtain ⟨maker, hfields⟩ := Identity.ofFields?_eq_some_iff.mp hfound
      simpa using congrArg List.length hfields
    rw [hnone, orInvalid]

/-- An identity is four fields, of which the first is not kept and the others are kept trimmed. -/
theorem identity_eq_ok_iff {t : Text} {found : Identity} :
    identity t = .ok found ↔
      ∃ maker partNumber serial version,
        splitAt ',' t = [maker, partNumber, serial, version] ∧
        found = ⟨trim partNumber, trim serial, trim version⟩ := by
  rw [identity_eq, orInvalid_eq_ok_iff, Identity.ofFields?_eq_some_iff]
  constructor
  · rintro ⟨maker, hmap⟩
    simp only [List.map_eq_cons_iff, List.map_eq_nil_iff] at hmap
    obtain ⟨m, -, hsplit, -, p, -, rfl, hp, s, -, rfl, hs, v, -, rfl, hv, rfl⟩ := hmap
    exact ⟨m, p, s, v, hsplit, by rw [hp, hs, hv]⟩
  · rintro ⟨maker, partNumber, serial, version, hsplit, rfl⟩
    exact ⟨trim maker, by rw [hsplit]; rfl⟩

/-- **A text is an identity exactly if it has three commas**, whatever stands around them. -/
theorem exists_identity_eq_ok_iff {t : Text} : (∃ found, identity t = .ok found) ↔
    t.count ',' = 3 := by
  have hcount : t.count ',' = 3 ↔ (splitAt ',' t).length = 4 := by rw [length_splitAt]; omega
  rw [hcount, List.length_eq_four]
  constructor
  · rintro ⟨found, hfound⟩
    obtain ⟨maker, partNumber, serial, version, hsplit, -⟩ := identity_eq_ok_iff.mp hfound
    exact ⟨maker, partNumber, serial, version, hsplit⟩
  · rintro ⟨maker, partNumber, serial, version, hsplit⟩
    exact ⟨_, identity_eq_ok_iff.mpr ⟨maker, partNumber, serial, version, hsplit, rfl⟩⟩

/-- **Padding around the fields of an identity changes nothing**, however many there are. -/
theorem identity_intercalate_padded {ts padded : List Text} (h : List.Forall₂ IsPadded ts padded) :
    identity ([','].intercalate padded) = identity ([','].intercalate ts) := by
  rw [identity_eq, identity_eq, map_trim_splitAt_intercalate (by decide) h]

end Reply

/-- **Readers of replies ignore padding, and only padding.** Whatever padding is put around a text,
every reader makes the same of it, be it a value or a failure; and nothing else is removed, for what
is left of a text neither starts nor ends with padding and the text is padding around it. Padding
between the delimiters of a quoted string is part of its value, whether the string stands alone, in
a list or as a message. Padding around the fields of an identity is removed from the fields that are
kept, and does not matter for which texts are identities, namely those with three commas. -/
theorem only_padding_ignored :
    (∀ {α : Type} {read : Text → α}, IsReader read →
      ∀ a b, IsAllPadding a → IsAllPadding b → ∀ t, read (a ++ t ++ b) = read t) ∧
    (∀ t, (∃ a b, IsAllPadding a ∧ IsAllPadding b ∧ t = a ++ trim t ++ b) ∧
      ∀ c, (trim t).head? = some c ∨ (trim t).getLast? = some c → isPadding c = false) ∧
    (∀ d a p b, IsDelimiter d → IsAllPadding a → IsAllPadding p → IsAllPadding b → ∀ x y,
      IsQuotedItem (x ++ p ++ y) (a ++ d :: (doubled d x ++ p ++ doubled d y ++ [d]) ++ b)) ∧
    (∀ value item, IsQuotedItem value item →
      readWholeQuoted? item = some value ∧ Reply.text item = .ok value ∧
        ∀ code (number : Int16), ',' ∉ code → Reply.integer .int16 code = .ok number.toInt →
          Reply.errorEntry (code ++ ',' :: item) = .ok ⟨number, value⟩) ∧
    (∀ values items, values ≠ [] → List.Forall₂ IsQuotedItem values items →
      Reply.texts values.length ([','].intercalate items) = .ok values) ∧
    (∀ t found, Reply.identity t = .ok found ↔
      ∃ maker partNumber serial version,
        splitAt ',' t = [maker, partNumber, serial, version] ∧
        found = ⟨trim partNumber, trim serial, trim version⟩) ∧
    (∀ t, (∃ found, Reply.identity t = .ok found) ↔ t.count ',' = 3) ∧
    ∀ fields padded, List.Forall₂ IsPadded fields padded →
      Reply.identity ([','].intercalate padded) = Reply.identity ([','].intercalate fields) := by
  refine ⟨IsReader.ignoresPadding, fun t ↦ ⟨exists_padded_trim t, fun c hc ↦ ?_⟩,
    fun d a p b hd ha hp hb ↦ isQuotedItem_inside hd ha hb hp, fun _ _ ↦ IsQuotedItem.reads,
    fun _ _ ↦ Reply.texts_of_forall₂, fun _ _ ↦ Reply.identity_eq_ok_iff,
    fun _ ↦ Reply.exists_identity_eq_ok_iff, fun _ _ ↦ Reply.identity_intercalate_padded⟩
  exact hc.elim isPadding_of_head?_trim isPadding_of_getLast?_trim

/-- Padding around a list is ignored even if the fields are read by something that minds padding, so
the padding inside the list is minded. A form feed is no padding. Inside a quoted string padding is
kept, also at both its ends, and around the fields of an identity it is removed. -/
theorem only_padding_ignored_around :
    let parse : Text → Outcome Bool := fun t ↦
      if isPadding (t.headD ' ') then .error .invalidResponse else .ok true
    let item : Text := "\t'\n it''s \x00'\r\n"
    Reply.fill parse " \t1,1\r\n" [false, false] = (.ok (), [true, true]) ∧
      Reply.fill parse "1, 1" [false, false] = (.error .invalidResponse, [false, false]) ∧
      Reply.flag "\x0c1" = .error .invalidResponse ∧
      Reply.errorEntry ("-7".toList ++ ',' :: item) = .ok ⟨-7, "\n it's \x00"⟩ ∧
      Reply.texts 2 ([','].intercalate [item, item]) = .ok ["\n it's \x00", "\n it's \x00"] ∧
      Reply.identity " maker,\tpart , 17\r,\x0b1.0\n" = .ok ⟨"part", "17", "1.0"⟩ := by
  intro parse item
  obtain ⟨haround, -, hinside, hquoted, htexts, hidentity, -, hfields⟩ := only_padding_ignored
  have hfill : Reply.fill parse " \t1,1\r\n" [false, false] =
      Reply.fill parse "1,1" [false, false] :=
    haround (.fill parse [false, false]) [' ', '\t'] lineEnd (by decide) (by decide) "1,1".toList
  have hitem : IsQuotedItem "\n it's \x00" item :=
    hinside '\'' ['\t'] "\n ".toList lineEnd (.inr rfl) (by decide) (by decide) (by decide) []
      "it's \x00".toList
  have hpadded : List.Forall₂ IsPadded ["maker".toList, "part".toList, "17".toList, "1.0".toList]
      [" maker".toList, "\tpart ".toList, " 17\r".toList, "\x0b1.0\n".toList] :=
    .cons ⟨[' '], [], by decide, by decide, rfl⟩ <|
      .cons ⟨['\t'], [' '], by decide, by decide, rfl⟩ <|
      .cons ⟨[' '], ['\r'], by decide, by decide, rfl⟩ <|
      .cons ⟨['\x0b'], ['\n'], by decide, by decide, rfl⟩ .nil
  have hplain : Reply.identity "maker,part,17,1.0" = .ok ⟨"part", "17", "1.0"⟩ :=
    (hidentity _ _).mpr ⟨"maker".toList, "part".toList, "17".toList, "1.0".toList, by decide,
      by decide⟩
  exact ⟨hfill.trans (by decide), by decide, by decide,
    (hquoted _ _ hitem).2.2 "-7".toList (-7) (by decide) (by decide),
    htexts [_, _] [item, item] (List.cons_ne_nil _ _) (.cons hitem (.cons hitem .nil)),
    (hfields _ _ hpadded).trans hplain⟩

end BatteryBench
