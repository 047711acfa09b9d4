import BatteryBench.Proofs.Text.Padding
import BatteryBench.Text.Quoted

/-!
# Padding around quoted strings

Padding in front of a quoted string is skipped, and padding behind the last one is allowed. A reader
that also gives what follows the closing delimiter gives the padding as part of that
(`readQuoted?_padded`), so it ignores none of it; the readers of whole texts do
(`readWholeQuoted?_padded`, `readQuotedItems?_padded`).

Why padding behind a text cannot change where a quoted string ends is `quotedBody?_append`: a text
without a delimiter closes none, and doubles none.
-/

namespace BatteryBench

/-- A text without the delimiter is quoted as it is. -/
theorem doubled_of_not_mem {d : Char} {t : Text} (h : d ∉ t) : doubled d t = t := by
  induction t with
  | nil => rfl
  | cons c t ih =>
    rw [List.mem_cons, not_or] at h
    rw [doubled_cons_of_ne (Ne.symm h.1), ih h.2]

/-- A text without the delimiter closes no string. -/
theorem quotedBody?_of_not_mem {d : Char} {t : Text} (h : d ∉ t) : quotedBody? d t = none := by
  induction t with
  | nil => rfl
  | cons c t ih =>
    rw [List.mem_cons, not_or] at h
    rw [quotedBody?_cons (Ne.symm h.1), ih h.2, Option.map_none]

/-- A text without the delimiter is passed on to what follows the string. -/
theorem quotedBody?_append {d : Char} {b : Text} (hb : d ∉ b) (t : Text) :
    quotedBody? d (t ++ b) = (quotedBody? d t).map fun r ↦ (r.1, r.2 ++ b) := by
  -- A doubled delimiter takes two characters at once, as the reader does.
  induction t using quotedBody?.induct d with
  | case1 => rw [List.nil_append, quotedBody?_of_not_mem hb, quotedBody?, Option.map_none]
  | case2 =>
    have hhead : b.head? ≠ some d := fun h ↦ hb (List.mem_of_mem_head? h)
    rw [List.singleton_append, quotedBody?_delimiter hhead, quotedBody?, if_pos rfl,
      Option.map_some, List.nil_append]
  | case3 c hc =>
    rw [List.singleton_append, quotedBody?_cons hc, quotedBody?_of_not_mem hb, quotedBody?,
      if_neg hc, Option.map_none, Option.map_none]
  | case4 rest ih =>
    rw [List.cons_append, List.cons_append, quotedBody?_cons_cons, ih, quotedBody?_cons_cons,
      Option.map_map, Option.map_map]
    rfl
  | case5 next rest hnext =>
    have hhead : ∀ more : Text, (next :: more).head? ≠ some d :=
      fun _ h ↦ hnext (Option.some.inj h)
    rw [List.cons_append, List.cons_append, quotedBody?_delimiter (hhead _),
      quotedBody?_delimiter (hhead _), Option.map_some, List.cons_append]
  | case6 c next rest hc ih =>
    rw [List.cons_append, quotedBody?_cons hc, ih, quotedBody?_cons hc, Option.map_map,
      Option.map_map]
    rfl

/-- **Padding in front is skipped, padding behind is passed on.** -/
theorem readQuoted?_padded {a b : Text} (ha : IsAllPadding a) (hb : IsAllPadding b) (t : Text) :
    readQuoted? (a ++ t ++ b) = (readQuoted? t).map fun r ↦ (r.1, r.2 ++ b) := by
  rw [readQuoted?, readQuoted?, List.append_assoc, trimStart_append ha]
  rcases trimStart_append_padding hb t with ⟨ht, htb⟩ | ⟨c, rest, ht, htb⟩ <;> rw [ht, htb]
  · rfl
  · by_cases hdouble : c = '"'
    · subst hdouble
      exact quotedBody?_append (hb.not_mem (by decide)) rest
    · by_cases hsingle : c = '\''
      · subst hsingle
        exact quotedBody?_append (hb.not_mem (by decide)) rest
      · simp [hdouble, hsingle]

/-- Padding around a whole quoted string is ignored. -/
theorem readWholeQuoted?_padded {a b : Text} (ha : IsAllPadding a) (hb : IsAllPadding b)
    (t : Text) : readWholeQuoted? (a ++ t ++ b) = readWholeQuoted? t := by
  rw [readWholeQuoted?, readWholeQuoted?, readQuoted?_padded ha hb]
  cases readQuoted? t with
  | none => rfl
  | some r =>
    have hrest : trim (r.2 ++ b) = trim r.2 := trim_padded isAllPadding_nil hb r.2
    simp only [Option.map_some, hrest]

/-- **A list of one string is one string alone**, though the list is read up to its end in another
order of steps. -/
theorem readQuotedItems?_one (t : Text) :
    readQuotedItems? 1 t = (readWholeQuoted? t).map fun value ↦ [value] := by
  rw [readQuotedItems?, readWholeQuoted?]
  cases readQuoted? t with
  | none => rfl
  | some r =>
    simp only [if_true, trim_trimStart]
    split_ifs <;> rfl

/-- **Padding around a list of quoted strings is ignored**, however many are asked for. -/
theorem readQuotedItems?_padded {a b : Text} (ha : IsAllPadding a) (hb : IsAllPadding b)
    (n : Nat) (t : Text) : readQuotedItems? n (a ++ t ++ b) = readQuotedItems? n t := by
  induction n using Nat.twoStepInduction generalizing a t with
  | zero => rfl
  | one => rw [readQuotedItems?_one, readQuotedItems?_one, readWholeQuoted?_padded ha hb]
  | more n _ ih =>
    rw [readQuotedItems?, readQuotedItems?, readQuoted?_padded ha hb]
    cases readQuoted? t with
    | none => rfl
    | some r =>
      -- What follows the first string has the padding behind it, so the comma is found as before.
      simp only [Option.map_some, Nat.add_one_ne_zero, if_false]
      rcases trimStart_append_padding hb r.2 with ⟨hr, hrb⟩ | ⟨c, more, hr, hrb⟩ <;> rw [hr, hrb]
      by_cases hcomma : c = ','
      · subst hcomma
        have hmore : readQuotedItems? (n + 1) (more ++ b) = readQuotedItems? (n + 1) more :=
          ih isAllPadding_nil more
        simp [hmore]
      · simp [hcomma]

end BatteryBench
