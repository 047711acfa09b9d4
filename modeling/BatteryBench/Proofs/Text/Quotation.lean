import BatteryBench.Proofs.Text.Quoted
import BatteryBench.Reply
import Mathlib.Data.List.Forall2

/-!
# The grammar of quoted strings

A quoted string is a delimiter, its value with that delimiter doubled, and the delimiter again
(`quotedBy`). What follows it may be anything that does not start with the delimiter: two of them in
a row stand for one inside the string. So a text that starts with a quoted string, padding aside,
parts into padding, string and rest in one way only, and that is how it is read
(`readQuoted?_eq_some_iff`).

Why a closing delimiter is found where the grammar has it, whatever runs of delimiters stand before
it, is `quotedBody?_eq_some_iff`; the readers of whole texts and of lists rest on it.
-/

namespace BatteryBench

/-! ### The grammar -/

/-- A character that may stand around a quoted string. -/
def IsDelimiter (d : Char) : Prop := d = '"' ∨ d = '\''

/-- A value between two delimiters, with the delimiters inside it doubled. -/
def quotedBy (d : Char) (value : Text) : Text := d :: (doubled d value ++ [d])

/-- Quoting a text is by double quotes. -/
theorem quotedBy_eq_quote (value : Text) : quotedBy '"' value = quote value := rfl

/-- That a text is padding, a quoted string with the given value, and a rest that does not go on
with the delimiter. -/
def StartsQuoted (t value rest : Text) : Prop :=
  ∃ a d, IsAllPadding a ∧ IsDelimiter d ∧ rest.head? ≠ some d ∧ t = a ++ quotedBy d value ++ rest

theorem IsDelimiter.isPadding_eq_false {d : Char} (hd : IsDelimiter d) : isPadding d = false := by
  obtain rfl | rfl := hd <;> rfl

theorem IsDelimiter.ne_comma {d : Char} (hd : IsDelimiter d) : ',' ≠ d := by
  obtain rfl | rfl := hd <;> decide

/-- What is padding does not start with a character that is none. -/
theorem IsAllPadding.head?_ne {t : Text} (ht : IsAllPadding t) {c : Char}
    (hc : isPadding c = false) : t.head? ≠ some c :=
  fun h ↦ ht.not_mem hc (List.mem_of_mem_head? h)

/-! ### One string and what follows it -/

/-- **A string closes at the first delimiter that is not doubled.** -/
theorem quotedBody?_eq_some_iff {d : Char} {t value rest : Text} :
    quotedBody? d t = some (value, rest) ↔
      t = doubled d value ++ d :: rest ∧ rest.head? ≠ some d := by
  refine ⟨fun h ↦ ?_, fun ⟨ht, hrest⟩ ↦ ht ▸ quotedBody?_doubled hrest value⟩
  -- A doubled delimiter takes two characters at once, as the reader does.
  induction t using quotedBody?.induct d generalizing value rest with
  | case1 => cases h
  | case2 =>
    obtain ⟨rfl, rfl⟩ : [] = value ∧ [] = rest := by simpa [quotedBody?] using h
    exact ⟨rfl, by simp⟩
  | case3 c hc => simp [quotedBody?, hc] at h
  | case4 t ih =>
    rw [quotedBody?_cons_cons] at h
    obtain ⟨⟨v, r⟩, hread, heq⟩ := Option.map_eq_some_iff.mp h
    obtain ⟨rfl, rfl⟩ := Prod.mk.inj heq
    obtain ⟨rfl, hr⟩ := ih hread
    exact ⟨by rw [doubled_cons_self]; rfl, hr⟩
  | case5 next t hnext =>
    have hhead : (next :: t).head? ≠ some d := fun heq ↦ hnext (Option.some.inj heq)
    rw [quotedBody?_delimiter hhead] at h
    obtain ⟨rfl, rfl⟩ := Prod.mk.inj (Option.some.inj h)
    exact ⟨rfl, hhead⟩
  | case6 c next t hc ih =>
    rw [quotedBody?_cons hc] at h
    obtain ⟨⟨v, r⟩, hread, heq⟩ := Option.map_eq_some_iff.mp h
    obtain ⟨rfl, rfl⟩ := Prod.mk.inj heq
    obtain ⟨ht, hr⟩ := ih hread
    exact ⟨by rw [doubled_cons_of_ne hc, List.cons_append, ← ht], hr⟩

/-- The delimiter is the first character that is no padding. -/
theorem readQuoted?_eq_some_iff_body {t : Text} {r : Text × Text} :
    readQuoted? t = some r ↔
      ∃ d body, IsDelimiter d ∧ trimStart t = d :: body ∧ quotedBody? d body = some r := by
  constructor
  · intro h
    rw [readQuoted?] at h
    split at h
    · next body ht => exact ⟨'"', body, .inl rfl, ht, h⟩
    · next body ht => exact ⟨'\'', body, .inr rfl, ht, h⟩
    · cases h
  · rintro ⟨d, body, rfl | rfl, ht, hbody⟩ <;> rw [readQuoted?, ht] <;> exact hbody

/-- **A quoted string and what follows it are read exactly where a text starts with them**, padding
aside. -/
theorem readQuoted?_eq_some_iff {t value rest : Text} :
    readQuoted? t = some (value, rest) ↔ StartsQuoted t value rest := by
  rw [readQuoted?_eq_some_iff_body]
  constructor
  · rintro ⟨d, body, hd, ht, hbody⟩
    obtain ⟨-, a, ha, rfl⟩ := trimStart_eq_cons_iff.mp ht
    obtain ⟨rfl, hrest⟩ := quotedBody?_eq_some_iff.mp hbody
    exact ⟨a, d, ha, hd, hrest, by simp [quotedBy]⟩
  · rintro ⟨a, d, ha, hd, hrest, rfl⟩
    refine ⟨d, doubled d value ++ d :: rest, hd, ?_, quotedBody?_eq_some_iff.mpr ⟨rfl, hrest⟩⟩
    exact trimStart_eq_cons_iff.mpr ⟨hd.isPadding_eq_false, a, ha, by simp [quotedBy]⟩

/-- A text parts into padding, string and rest in one way. -/
theorem StartsQuoted.unique {t value rest value' rest' : Text} (h : StartsQuoted t value rest)
    (h' : StartsQuoted t value' rest') : value = value' ∧ rest = rest' := by
  have hread := readQuoted?_eq_some_iff.mpr h
  rw [readQuoted?_eq_some_iff.mpr h'] at hread
  obtain ⟨rfl, rfl⟩ := Prod.mk.inj (Option.some.inj hread)
  exact ⟨rfl, rfl⟩

/-! ### One string alone -/

theorem readWholeQuoted?_eq_some_iff_read {t value : Text} :
    readWholeQuoted? t = some value ↔
      ∃ rest, readQuoted? t = some (value, rest) ∧ IsAllPadding rest := by
  constructor
  · intro h
    rw [readWholeQuoted?] at h
    split at h
    · next v rest hread =>
      split at h
      · next htrim =>
        obtain rfl := Option.some.inj h
        exact ⟨rest, hread, trim_eq_nil_iff.mp htrim⟩
      · cases h
    · cases h
  · rintro ⟨rest, hread, hrest⟩
    rw [readWholeQuoted?, hread]
    exact if_pos (trim_eq_nil_iff.mpr hrest)

/-- A text is read as one string exactly if nothing but padding follows the string. -/
theorem readWholeQuoted?_eq_some_iff {t value : Text} :
    readWholeQuoted? t = some value ↔ ∃ rest, StartsQuoted t value rest ∧ IsAllPadding rest := by
  simp only [readWholeQuoted?_eq_some_iff_read, readQuoted?_eq_some_iff]

/-- **Quoted strings are read exactly as the grammar has them.** What a text starts with is read as
a string and a rest exactly if the grammar parts it so, and the whole of it as a string exactly if
moreover that rest is padding; the reader of replies and the reader of lists of one give the same.
So whatever is quoted is read back, alone and in front of all that does not go on with a double
quote. -/
theorem quoted_strings_read (t : Text) :
    (∀ value rest, readQuoted? t = some (value, rest) ↔ StartsQuoted t value rest) ∧
    (readQuoted? t = none ↔ ∀ value rest, ¬StartsQuoted t value rest) ∧
    (∀ value, readWholeQuoted? t = some value ↔
      ∃ rest, StartsQuoted t value rest ∧ IsAllPadding rest) ∧
    Reply.text t = Reply.orInvalid (readWholeQuoted? t) ∧
    Reply.texts 1 t = (Reply.text t).map (fun value ↦ [value]) ∧
    readWholeQuoted? (quote t) = some t ∧
    ∀ rest, rest.head? ≠ some '"' → readQuoted? (quote t ++ rest) = some (t, rest) := by
  refine ⟨fun _ _ ↦ readQuoted?_eq_some_iff, ?_, fun _ ↦ readWholeQuoted?_eq_some_iff, rfl, ?_,
    readWholeQuoted?_quote t, fun rest ↦ readQuoted?_quote t rest⟩
  · rw [Option.eq_none_iff_forall_ne_some, Prod.forall]
    simp only [ne_eq, readQuoted?_eq_some_iff]
  · rw [Reply.texts, Reply.text, readQuotedItems?_one]
    rcases readWholeQuoted? t with - | value <;> rfl

/-- Of three single quotes in a row two stand for one and the third closes the string; double quotes
inside are as any character. Quoted anew, the value is read back in front of a line end. -/
theorem quoted_strings_read_runs :
    StartsQuoted "\t'say \"it''s\"'''\r\n" "say \"it's\"'" lineEnd ∧
      lineEnd.head? ≠ some '"' ∧
      readQuoted? (quote "say \"it's\"'" ++ lineEnd) = some ("say \"it's\"'".toList, lineEnd) := by
  have hend : lineEnd.head? ≠ some '"' := by decide
  obtain ⟨hstarts, -⟩ := quoted_strings_read "\t'say \"it''s\"'''\r\n"
  obtain ⟨-, -, -, -, -, -, hquote⟩ := quoted_strings_read "say \"it's\"'"
  exact ⟨(hstarts _ _).mp (by decide), hend, hquote lineEnd hend⟩

/-! ### Lists of strings -/

/-- That a text is a quoted string with the given value, with any padding around it. -/
def IsQuotedItem (value item : Text) : Prop :=
  ∃ a d b, IsAllPadding a ∧ IsDelimiter d ∧ IsAllPadding b ∧ item = a ++ quotedBy d value ++ b

/-- That a text is one or more quoted strings with the given values and with single commas between
them, each with any padding around it. -/
inductive IsQuotedList : List Text → Text → Prop where
  | single {value item : Text} (hitem : IsQuotedItem value item) : IsQuotedList [value] item
  | more {value item rest : Text} {values : List Text} (hitem : IsQuotedItem value item)
    (hrest : IsQuotedList values rest) : IsQuotedList (value :: values) (item ++ ',' :: rest)

theorem IsQuotedList.ne_nil {values : List Text} {t : Text} (h : IsQuotedList values t) :
    values ≠ [] := by
  rcases h with - | - <;> exact List.cons_ne_nil _ _

/-- Items that are joined by commas are a list. -/
theorem isQuotedList_intercalate {values items : List Text} (hne : values ≠ [])
    (h : List.Forall₂ IsQuotedItem values items) :
    IsQuotedList values ([','].intercalate items) := by
  induction h with
  | nil => exact absurd rfl hne
  | @cons value item values items hitem hitems ih =>
    rcases hitems with - | ⟨hnext, hitems⟩
    · rw [List.intercalate_singleton]
      exact .single hitem
    · rw [List.intercalate_cons_cons, List.append_assoc]
      exact .more hitem (ih (List.cons_ne_nil _ _))

/-- A text whose string is followed by padding only is an item. -/
theorem startsQuoted_padding_iff {t value : Text} :
    (∃ rest, StartsQuoted t value rest ∧ IsAllPadding rest) ↔ IsQuotedItem value t := by
  constructor
  · rintro ⟨b, ⟨a, d, ha, hd, -, rfl⟩, hb⟩
    exact ⟨a, d, b, ha, hd, hb, rfl⟩
  · rintro ⟨a, d, b, ha, hd, hb, rfl⟩
    exact ⟨b, ⟨a, d, ha, hd, hb.head?_ne hd.isPadding_eq_false, rfl⟩, hb⟩

/-- A text whose string is followed by a comma, padding aside, is an item in front of the comma. -/
theorem startsQuoted_comma_iff {t value more : Text} :
    (∃ rest, StartsQuoted t value rest ∧ trimStart rest = ',' :: more) ↔
      ∃ item, IsQuotedItem value item ∧ t = item ++ ',' :: more := by
  constructor
  · rintro ⟨rest, ⟨a, d, ha, hd, -, rfl⟩, hrest⟩
    obtain ⟨-, b, hb, rfl⟩ := trimStart_eq_cons_iff.mp hrest
    exact ⟨a ++ quotedBy d value ++ b, ⟨a, d, b, ha, hd, hb, rfl⟩, by simp⟩
  · rintro ⟨item, ⟨a, d, b, ha, hd, hb, rfl⟩, rfl⟩
    refine ⟨b ++ ',' :: more, ⟨a, d, ha, hd, ?_, by simp⟩,
      trimStart_eq_cons_iff.mpr ⟨rfl, b, hb, rfl⟩⟩
    -- Behind the closing delimiter comes padding or the comma, and neither is a delimiter.
    rcases b with - | ⟨c, b⟩
    · exact fun h ↦ hd.ne_comma (Option.some.inj h)
    · exact hb.head?_ne (c := d) hd.isPadding_eq_false

/-- An item ends where it ends: with a comma behind it, it is none. -/
theorem IsQuotedItem.not_comma {value value' item more : Text} (h : IsQuotedItem value item) :
    ¬IsQuotedItem value' (item ++ ',' :: more) := by
  intro h'
  obtain ⟨rest, hstarts, hrest⟩ := startsQuoted_comma_iff.mpr ⟨item, h, rfl⟩
  obtain ⟨rest', hstarts', hrest'⟩ := startsQuoted_padding_iff.mpr h'
  obtain ⟨-, rfl⟩ := hstarts.unique hstarts'
  rw [trimStart_of_isAllPadding hrest'] at hrest
  cases hrest

/-- **A text is a list of strings in one way**, so it has one number of items. -/
theorem IsQuotedList.unique {values values' : List Text} {t : Text} (h : IsQuotedList values t)
    (h' : IsQuotedList values' t) : values = values' := by
  induction h generalizing values' with
  | single hitem =>
    rcases h' with hitem' | ⟨hitem', hrest'⟩
    · obtain ⟨rest, hstarts, -⟩ := startsQuoted_padding_iff.mpr hitem
      obtain ⟨rest', hstarts', -⟩ := startsQuoted_padding_iff.mpr hitem'
      rw [(hstarts.unique hstarts').1]
    · exact absurd hitem hitem'.not_comma
  | @more value item rest values hitem hrest ih =>
    generalize ht : item ++ ',' :: rest = t at h'
    rcases h' with hitem' | ⟨hitem', hrest'⟩
    · exact absurd (ht ▸ hitem') hitem.not_comma
    · obtain ⟨r, hstarts, hr⟩ := startsQuoted_comma_iff.mpr ⟨item, hitem, ht.symm⟩
      obtain ⟨r', hstarts', hr'⟩ := startsQuoted_comma_iff.mpr ⟨_, hitem', rfl⟩
      obtain ⟨rfl, rfl⟩ := hstarts.unique hstarts'
      obtain ⟨-, rfl⟩ := List.cons.inj (hr.symm.trans hr')
      rw [ih hrest']

/-! ### Reading a list -/

theorem readQuotedItems?_one_eq_some_iff {t : Text} {values : List Text} :
    readQuotedItems? 1 t = some values ↔ values.length = 1 ∧ IsQuotedList values t := by
  rw [readQuotedItems?_one, Option.map_eq_some_iff]
  simp only [readWholeQuoted?_eq_some_iff, startsQuoted_padding_iff]
  constructor
  · rintro ⟨value, hitem, rfl⟩
    exact ⟨rfl, .single hitem⟩
  · rintro ⟨hlength, hitem | ⟨-, hrest⟩⟩
    · exact ⟨_, hitem, rfl⟩
    · exact absurd (by simpa using hlength) hrest.ne_nil

/-- More than one string is an item, a comma and the others. -/
theorem readQuotedItems?_succ_eq_some_iff {n : Nat} {t : Text} {values : List Text} :
    readQuotedItems? (n + 2) t = some values ↔
      ∃ value item more rest, IsQuotedItem value item ∧ t = item ++ ',' :: more ∧
        readQuotedItems? (n + 1) more = some rest ∧ values = value :: rest := by
  constructor
  · intro h
    rw [readQuotedItems?] at h
    split at h
    · cases h
    · next value rest hread =>
      rw [if_neg (Nat.succ_ne_zero n)] at h
      split at h
      · next more hrest =>
        obtain ⟨others, hothers, rfl⟩ := Option.map_eq_some_iff.mp h
        obtain ⟨item, hitem, rfl⟩ :=
          startsQuoted_comma_iff.mp ⟨rest, readQuoted?_eq_some_iff.mp hread, hrest⟩
        exact ⟨value, item, more, others, hitem, rfl, hothers, rfl⟩
      · cases h
  · rintro ⟨value, item, more, others, hitem, rfl, hothers, rfl⟩
    obtain ⟨rest, hstarts, hrest⟩ := startsQuoted_comma_iff.mpr ⟨item, hitem, rfl⟩
    rw [readQuotedItems?, readQuoted?_eq_some_iff.mpr hstarts]
    dsimp only
    rw [if_neg (Nat.succ_ne_zero n), hrest]
    show (readQuotedItems? (n + 1) more).map _ = _
    rw [hothers, Option.map_some]

/-- **A list is read exactly if it is one with the right number of items.** -/
theorem readQuotedItems?_eq_some_iff {n : Nat} (hn : 1 ≤ n) {t : Text} {values : List Text} :
    readQuotedItems? n t = some values ↔ values.length = n ∧ IsQuotedList values t := by
  induction n, hn using Nat.le_induction generalizing t values with
  | base => exact readQuotedItems?_one_eq_some_iff
  | succ n hn ih =>
    obtain ⟨n, rfl⟩ := Nat.exists_eq_add_of_le' hn
    rw [readQuotedItems?_succ_eq_some_iff]
    simp only [ih]
    constructor
    · rintro ⟨value, item, more, others, hitem, rfl, ⟨hlength, hothers⟩, rfl⟩
      exact ⟨by simp [hlength], .more hitem hothers⟩
    · rintro ⟨hlength, hitem | ⟨hitem, hothers⟩⟩
      · simp at hlength
      · exact ⟨_, _, _, _, hitem, rfl, ⟨by simpa using hlength, hothers⟩, rfl⟩

namespace Reply

variable {n : Nat} {t : Text}

theorem texts_eq_ok_iff (hn : 1 ≤ n) {values : List Text} :
    texts n t = .ok values ↔ values.length = n ∧ IsQuotedList values t := by
  rw [texts, orInvalid_eq_ok_iff, readQuotedItems?_eq_some_iff hn]

theorem texts_eq_error_iff (hn : 1 ≤ n) :
    texts n t = .error .invalidResponse ↔
      ∀ values, IsQuotedList values t → values.length ≠ n := by
  simp only [texts, orInvalid_eq_error_iff, and_true, Option.eq_none_iff_forall_ne_some, ne_eq,
    readQuotedItems?_eq_some_iff hn, not_and']

end Reply

/-- **Lists of quoted strings are read exactly as the grammar has them.** Of a text that is no list
of the number of strings that is asked for, nothing is read. So strings that are quoted and joined
by commas, with any padding around each, are read back whatever they hold, and a list of any other
number of strings is refused. -/
theorem quoted_lists_read {n : Nat} (hn : 1 ≤ n) (t : Text) :
    (∀ values, Reply.texts n t = .ok values ↔ values.length = n ∧ IsQuotedList values t) ∧
    (Reply.texts n t = .error .invalidResponse ↔
      ∀ values, IsQuotedList values t → values.length ≠ n) ∧
    (∀ values items,
      List.Forall₂ (fun value item ↦
        ∃ a b, IsAllPadding a ∧ IsAllPadding b ∧ item = a ++ quote value ++ b) values items →
      values.length = n → Reply.texts n ([','].intercalate items) = .ok values) ∧
    (∀ values, IsQuotedList values t → values.length ≠ n →
      Reply.texts n t = .error .invalidResponse) := by
  refine ⟨fun _ ↦ Reply.texts_eq_ok_iff hn, Reply.texts_eq_error_iff hn,
    fun values items hitems hlength ↦ ?_, fun values hlist hne ↦ ?_⟩
  · have hall : List.Forall₂ IsQuotedItem values items := by
      refine hitems.imp fun value item ⟨a, b, ha, hb, hitem⟩ ↦ ?_
      exact ⟨a, '"', b, ha, .inl rfl, hb, hitem⟩
    have hvalues : values ≠ [] := List.ne_nil_of_length_pos (hlength ▸ hn)
    exact (Reply.texts_eq_ok_iff hn).mpr ⟨hlength, isQuotedList_intercalate hvalues hall⟩
  · exact (Reply.texts_eq_error_iff hn).mpr fun others hothers ↦ hothers.unique hlist ▸ hne

/-- A comma and quotes inside the strings part nothing, and one delimiter of each kind may be used.
Asked for three strings, the same list is refused. -/
theorem quoted_lists_read_mixed :
    let t : Text := " \"a,\"\"b\" ,\t'it''s, \"c\"'\r\n"
    let values : List Text := ["a,\"b".toList, "it's, \"c\"".toList]
    1 ≤ 2 ∧ IsQuotedList values t ∧ values.length ≠ 3 ∧
      Reply.texts 3 t = .error .invalidResponse := by
  intro t values
  obtain ⟨hiff, -⟩ := quoted_lists_read (n := 2) (by decide) t
  have hread : Reply.texts 2 t = .ok values := by decide
  obtain ⟨hlength, hlist⟩ := (hiff values).mp hread
  obtain ⟨-, -, -, hother⟩ := quoted_lists_read (n := 3) (by decide) t
  have hne : values.length ≠ 3 := by decide
  exact ⟨by decide, hlist, hne, hother values hlist hne⟩

end BatteryBench
