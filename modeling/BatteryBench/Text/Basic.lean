/-!
# Text

A text is the list of its characters. Every codec of this library is then a recursion on a list and
every law about one is a law of lists: "removed from both ends" is `dropWhile`, "followed by" is
`++`, and no position in a text ever has to be valid.

Padding is what a unit may put around a reply or around one field of it: blanks, tabs, line ends and
the null character. `trim` removes it from both ends, and only there.
-/

namespace BatteryBench

/-- A text, as its characters in order. -/
abbrev Text := List Char

/-- A literal is read as the text it spells. -/
instance : Coe String Text := ⟨String.toList⟩

/-- The line end that closes every transmission. -/
def lineEnd : Text := ['\r', '\n']

/-! ### Padding -/

/-- The characters that may surround a reply or one field of it: space, tab, vertical tab, carriage
return, line feed and null. -/
def padding : List Char := [' ', '\t', '\x0b', '\r', '\n', '\x00']

/-- Whether a character is padding. -/
def isPadding (c : Char) : Bool := padding.contains c

/-- The text without the padding it starts with. -/
def trimStart (t : Text) : Text := t.dropWhile isPadding

/-- The text without the padding it ends with. -/
def trimEnd (t : Text) : Text := (t.reverse.dropWhile isPadding).reverse

/-- The text without the padding at both ends. -/
def trim (t : Text) : Text := trimEnd (trimStart t)

/-! ### Decimal numbers in a text -/

/-- The decimal digits of a number, without leading zeros. -/
def decimal (n : Nat) : Text := Nat.toDigits 10 n

/-- The decimal digits of a number after a minus sign when it is negative. -/
def signedDecimal : Int → Text
  | .ofNat n => decimal n
  | .negSucc n => '-' :: decimal (n + 1)

/-! ### Separators -/

/-- The pieces of a text between the occurrences of a separator. There is always one piece more than
there are separators, so a text without any is its own only piece. -/
def splitAt (sep : Char) : Text → List Text
  | [] => [[]]
  | c :: rest =>
    if c = sep then [] :: splitAt sep rest
    else
      match splitAt sep rest with
      | [] => [[c]]
      | piece :: pieces => (c :: piece) :: pieces

theorem splitAt_ne_nil (sep : Char) (t : Text) : splitAt sep t ≠ [] := by
  cases t with
  | nil => simp [splitAt]
  | cons c rest =>
    rw [splitAt]
    split
    · simp
    · split <;> simp

/-- A text has one piece more than it has separators. -/
theorem length_splitAt (sep : Char) (t : Text) :
    (splitAt sep t).length = t.count sep + 1 := by
  induction t with
  | nil => rfl
  | cons c rest ih =>
    by_cases h : c = sep
    · simp [splitAt, h, ih]
    · obtain ⟨piece, pieces, hp⟩ := List.exists_cons_of_ne_nil (splitAt_ne_nil sep rest)
      rw [hp] at ih
      simp [splitAt, h, hp, ← ih]

/-- Joining the pieces by the separator gives the text back. -/
theorem intercalate_splitAt (sep : Char) (t : Text) :
    [sep].intercalate (splitAt sep t) = t := by
  induction t with
  | nil => rfl
  | cons c rest ih =>
    obtain ⟨piece, pieces, hp⟩ := List.exists_cons_of_ne_nil (splitAt_ne_nil sep rest)
    by_cases h : c = sep
    · subst h
      rw [splitAt, if_pos rfl, hp, List.intercalate_cons_cons, ← hp, ih]
      simp
    · rw [splitAt, if_neg h, hp]
      rw [hp] at ih
      cases pieces with
      | nil => simpa using ih
      | cons next more =>
        rw [List.intercalate_cons_cons] at ih ⊢
        simp [← ih]

end BatteryBench
