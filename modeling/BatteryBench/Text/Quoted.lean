import BatteryBench.Text.Basic

/-!
# Quoted strings

A quoted string stands between two equal delimiters, `"` or `'`, and a delimiter inside it is
written twice. The other quote character is an ordinary one there. Padding may stand before a quoted
string and, where nothing else may follow, after it; padding between the delimiters belongs to the
value.

Reading is by `readQuoted?`, which also gives what follows the closing delimiter; `readWholeQuoted?`
and `readQuotedItems?` say what may follow. Writing is by `quote`, always with `"`.
-/

namespace BatteryBench

/-! ### Writing -/

/-- The text with every occurrence of `d` doubled. -/
def doubled (d : Char) (t : Text) : Text :=
  t.flatMap fun c ↦ if c = d then [d, d] else [c]

/-- A text between double quotes, with the double quotes inside it doubled. -/
def quote (t : Text) : Text := '"' :: (doubled '"' t ++ ['"'])

/-! ### Reading -/

/-- The value up to the closing delimiter, with doubled delimiters undone, and what follows the
delimiter. There is none when the text ends first. -/
def quotedBody? (d : Char) : Text → Option (Text × Text)
  | [] => none
  | [c] => if c = d then some ([], []) else none
  | c :: next :: rest =>
    if c = d then
      if next = d then (quotedBody? d rest).map fun r ↦ (d :: r.1, r.2)
      else some ([], next :: rest)
    else (quotedBody? d (next :: rest)).map fun r ↦ (c :: r.1, r.2)

/-- The value of the quoted string a text starts with, padding aside, and what follows it. -/
def readQuoted? (t : Text) : Option (Text × Text) :=
  match trimStart t with
  | '"' :: rest => quotedBody? '"' rest
  | '\'' :: rest => quotedBody? '\'' rest
  | _ => none

/-- The value of a text that is one quoted string and padding. -/
def readWholeQuoted? (t : Text) : Option Text :=
  match readQuoted? t with
  | some (value, rest) => if trim rest = [] then some value else none
  | none => none

/-- The values of a text that is exactly `n` quoted strings with single commas between them, each
with any padding around it. Nothing is asked of the text when `n` is zero. -/
def readQuotedItems? : (n : Nat) → Text → Option (List Text)
  | 0, _ => some []
  | n + 1, t =>
    match readQuoted? t with
    | none => none
    | some (value, rest) =>
      if n = 0 then
        if trim (trimStart rest) = [] then some [value] else none
      else
        match trimStart rest with
        | ',' :: more => (readQuotedItems? n more).map fun values ↦ value :: values
        | _ => none

/-! ### What the readers give back -/

theorem doubled_cons_self (d : Char) (t : Text) : doubled d (d :: t) = d :: d :: doubled d t := by
  simp [doubled]

theorem doubled_cons_of_ne {d c : Char} (hc : c ≠ d) (t : Text) :
    doubled d (c :: t) = c :: doubled d t := by
  simp [doubled, hc]

/-- A character that is not the delimiter belongs to the value. -/
theorem quotedBody?_cons {d c : Char} (hc : c ≠ d) (t : Text) :
    quotedBody? d (c :: t) = (quotedBody? d t).map fun r ↦ (c :: r.1, r.2) := by
  cases t <;> simp [quotedBody?, hc]

/-- A doubled delimiter stands for one of them. -/
theorem quotedBody?_cons_cons (d : Char) (t : Text) :
    quotedBody? d (d :: d :: t) = (quotedBody? d t).map fun r ↦ (d :: r.1, r.2) := by
  simp [quotedBody?]

/-- A delimiter that is not doubled closes the string. -/
theorem quotedBody?_delimiter {d : Char} {rest : Text} (h : rest.head? ≠ some d) :
    quotedBody? d (d :: rest) = some ([], rest) := by
  cases rest with
  | nil => simp [quotedBody?]
  | cons next more =>
    have : next ≠ d := fun e ↦ h (congrArg some e)
    simp [quotedBody?, this]

theorem quotedBody?_doubled {d : Char} {rest : Text} (h : rest.head? ≠ some d) (value : Text) :
    quotedBody? d (doubled d value ++ d :: rest) = some (value, rest) := by
  induction value with
  | nil => exact quotedBody?_delimiter h
  | cons c value ih =>
    by_cases hc : c = d
    · subst hc
      rw [doubled_cons_self, List.cons_append, List.cons_append, quotedBody?_cons_cons, ih,
        Option.map_some]
    · rw [doubled_cons_of_ne hc, List.cons_append, quotedBody?_cons hc, ih, Option.map_some]

/-- A quoted text is read back, whatever follows it, as long as that does not start with a quote. -/
theorem readQuoted?_quote (value rest : Text) (h : rest.head? ≠ some '"') :
    readQuoted? (quote value ++ rest) = some (value, rest) := by
  have hstart : trimStart (quote value ++ rest) = '"' :: (doubled '"' value ++ '"' :: rest) := by
    simp [quote, trimStart, isPadding, padding]
  rw [readQuoted?, hstart]
  exact quotedBody?_doubled h value

theorem readWholeQuoted?_quote (value : Text) : readWholeQuoted? (quote value) = some value := by
  have h := readQuoted?_quote value [] (by simp)
  rw [List.append_nil] at h
  rw [readWholeQuoted?, h]
  rfl

end BatteryBench
